import Jens.Jsonp.Correct.BenchmarkDefinition
import Jens.TrafficControl.Correct.Params

/-!
# Whether a benchmark that loads can be played

Loading checks the traffic control of every pattern by itself; what is played is the merge with the
top level and `config.toml`.  `Playable` is what is left to check for a pattern, and
`start_params_valid_iff` says that it is exactly that.
-/

namespace Jens

/-- Both marks of the pattern are set by its own setting, or both are left to `config.toml`: the two
cases in which they have been compared with each other. -/
def MarksOfOneLevel (defintion : BenchmarkDefinition) (v : BenchmarkPattern) : Prop :=
  (∃ tc ∈ v.setting.tc, tc.markfree.isSome ∧ tc.markfull.isSome) ∨
    firstSet? (tcLevels defintion v (·.markfree)) = none ∧
      firstSet? (tcLevels defintion v (·.markfull)) = none

/-- What loading leaves unchecked: the first data rate, the bounds of the values that the definition
sets, and marks that come from different levels or from the top one. -/
structure Playable (os : Os) (cv : F64.FloatConv) (cfg : Config) (defintion : BenchmarkDefinition)
    (v : BenchmarkPattern) : Prop where
  rate : ∀ x ∈ firstRate cfg defintion v os, 100 ≤ F64.toUint32 cv (x.mul (.fin 2))
  extralatency : ∀ l ∈ firstSet? (tcLevels defintion v (·.extralatency)), l.toInt < 10000
  markfull : ∀ m ∈ firstSet? (tcLevels defintion v (·.markfull)), m.toInt ≤ 0xffff
  marks : ¬ MarksOfOneLevel defintion v →
    (firstSet cfg.aSession.markfree (tcLevels defintion v (·.markfree))).toInt ≤
      (firstSet cfg.aSession.markfull (tcLevels defintion v (·.markfull))).toInt

/-- Marks of one level are in order. -/
theorem marks_of_oneLevel {cfg : Config} {defintion : BenchmarkDefinition} {v : BenchmarkPattern}
    (hfb : cfg.aSession.markfree.toInt ≤ cfg.aSession.markfull.toInt)
    (hv : v.setting.validate = .ok ()) (h : MarksOfOneLevel defintion v) :
    (firstSet cfg.aSession.markfree (tcLevels defintion v (·.markfree))).toInt ≤
      (firstSet cfg.aSession.markfull (tcLevels defintion v (·.markfull))).toInt := by
  rcases h with ⟨tc, htc, hfree, hfull⟩ | ⟨hfree, hfull⟩
  · obtain ⟨free, hfree⟩ := Option.isSome_iff_exists.mp hfree
    obtain ⟨full, hfull⟩ := Option.isSome_iff_exists.mp hfull
    have hle : free ≤ full := (tc.validate_eq_ok_iff.mp (DrplaySetting.validate_tc hv tc htc))
      free hfree full hfull
    rw [Option.mem_def] at htc
    simpa [tcLevels, htc, hfree, hfull, firstSet] using Int32.le_iff_toInt_le.mp hle
  · simpa [firstSet, hfree, hfull] using hfb

/-- One session is accepted at its start if and only if its pattern is playable. -/
theorem SessionOf.validate_iff {os : Os} {cv : F64.FloatConv} {cfg : Config}
    {defintion : BenchmarkDefinition} {v : BenchmarkPattern} {s : DbSession}
    (h : SessionOf cfg defintion v os s)
    (hfb : (cfg.aSession.startParams 100).validate = .ok ()) (hv : v.setting.validate = .ok ()) :
    (s.initTc cv).validate = .ok () ↔ Playable os cv cfg defintion v := by
  obtain ⟨-, hlatency, hmarks, hfull, -⟩ :=
    (TrafficControlStartParams.validate_eq_ok_iff _).mp hfb
  have hlat := firstSet_iff (P := fun l : Int32 => l.toInt < 10000) hlatency
    (tcLevels defintion v (·.extralatency))
  have hfu := firstSet_iff (P := fun m : Int32 => m.toInt ≤ 0xffff) hfull
    (tcLevels defintion v (·.markfull))
  rw [TrafficControlStartParams.validate_eq_ok_iff]
  show 100 ≤ F64.toUint32 cv (s.childDrp.peek.mul (.fin 2)) ∧ s.extralatencyMs.toInt < 10000 ∧
    s.markfree.toInt ≤ s.markfull.toInt ∧ s.markfull.toInt ≤ 0xffff ∧ s.qosmode ≤ 2 ↔ _
  rw [h.extralatency, h.markfree, h.markfull, h.qosmode, hlat, hfu]
  constructor
  · rintro ⟨hrate, hl, hm, hf, -⟩
    refine ⟨fun x hx => ?_, hl, hf, fun _ => hm⟩
    obtain rfl := Option.some.inj (h.rate.symm.trans hx)
    exact hrate
  · rintro ⟨hrate, hl, hf, hm⟩
    refine ⟨hrate _ h.rate, hl, ?_, hf, by decide⟩
    by_cases hone : MarksOfOneLevel defintion v
    · exact marks_of_oneLevel hmarks hv hone
    · exact hm hone

/-- **The sessions of a loaded benchmark are all accepted at their start if and only if its patterns
are all playable.**  The values of `config.toml` are acceptable by themselves. -/
theorem start_params_valid_iff {os : Os} {cv : F64.FloatConv} {cfg : Config} {path hash : String}
    {defintion : BenchmarkDefinition} {b : DbBenchmark}
    (hfb : (cfg.aSession.startParams 100).validate = .ok ())
    (hdef : loadDefinition os path = .ok (defintion, hash))
    (hload : loadDbBenchmarkFromJson os cv cfg path = .ok b) :
    (∀ s ∈ b.sessions, (s.initTc cv).validate = .ok ()) ↔
      ∀ v ∈ defintion.patterns, Playable os cv cfg defintion v := by
  have hpatterns := validate_setting_of_load hdef
  exact (forall_mem_iff_of_forall₂ (sessions_of_load hdef hload) fun v hv _ hs =>
    (hs.validate_iff hfb (hpatterns v hv)).symm).symm

/-- With marks of 4 and 30 in `config.toml` the example is played. -/
theorem start_params_valid_iff_example :
    ∃ defintion hash b, (((exampleConfig 4 30 0).aSession).startParams 100).validate = .ok () ∧
      loadDefinition exampleOs "b.json" = .ok (defintion, hash) ∧
      loadDbBenchmarkFromJson exampleOs exampleConv (exampleConfig 4 30 0) "b.json" = .ok b ∧
      ((∀ s ∈ b.sessions, (s.initTc exampleConv).validate = .ok ()) ↔
        ∀ v ∈ defintion.patterns,
          Playable exampleOs exampleConv (exampleConfig 4 30 0) defintion v) := by
  obtain ⟨d, hd⟩ := exists_loadDefinition
  obtain ⟨b, hb⟩ := exists_loadDbBenchmark
  exact ⟨d.1, d.2, b, by decide, hd, hb, start_params_valid_iff (by decide) hd hb⟩

/-- **The marks 4 and 14 of `config.toml` are accepted, and so is the definition; the session that
is merged of them is rejected when it starts.** -/
theorem merged_marks_rejected :
    ∃ b, (((exampleConfig 4 14 0).aSession).startParams 100).validate = .ok () ∧
      loadDbBenchmarkFromJson exampleOs exampleConv (exampleConfig 4 14 0) "b.json" = .ok b ∧
      b.validate exampleOs = .ok () ∧
      ¬ ∀ s ∈ b.sessions, (s.initTc exampleConv).validate = .ok () := by
  obtain ⟨b, hb, hp⟩ := Except.exists_ok_of_any
    (x := loadDbBenchmarkFromJson exampleOs exampleConv (exampleConfig 4 14 0) "b.json")
    (p := fun b => decide (b.validate exampleOs = .ok () ∧
      ¬ ∀ s ∈ b.sessions, (s.initTc exampleConv).validate = .ok ())) (by decide +kernel)
  obtain ⟨hval, hrejected⟩ := of_decide_eq_true hp
  exact ⟨b, by decide, hb, hval, hrejected⟩

end Jens
