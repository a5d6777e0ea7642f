import Jens.Jsonp.Settings
import Jens.Lib.Outcome

/-!
# What the checks and the fallbacks of the settings do

`validate` of one level compares its own two marks and nothing else (`validate_eq_ok_iff`).  The
values a session plays are, field by field, those of the first level that sets them
(`readValues_fromFirst`; `value_markFree` and its siblings say it with `firstSet`), the queue size
and the warmup after their conversion to 32 bits.
-/

namespace Jens

/-! ### Checks -/

/-- **The check of one level is that of its marks**; the one of the extra latency rejects none. -/
theorem DrPlayTrafficControlConfig.validate_eq_ok_iff (s : DrPlayTrafficControlConfig) :
    s.validate = .ok () ↔ ∀ free ∈ s.markfree, ∀ full ∈ s.markfull, free ≤ full := by
  have hnever : (s.extralatency.filter fun l => l < 0 && l > 100) = none := by
    rw [Option.filter_eq_none_iff]
    intro l _
    have hl : ¬ (l < 0 ∧ 100 < l) := by
      rintro ⟨hneg, hpos⟩
      exact Int32.lt_irrefl (Int32.lt_trans hneg (Int32.lt_trans (by decide) hpos))
    simpa using hl
  have hmarks : (s.markfree.any fun free => s.markfull.any fun full => free > full) = true ↔
      ¬ ∀ free ∈ s.markfree, ∀ full ∈ s.markfull, free ≤ full := by
    simp [Option.any_eq_true]
  rw [validate, hnever]
  by_cases h : (s.markfree.any fun free => s.markfull.any fun full => free > full) = true
  · rw [if_pos h]
    exact iff_of_false (by simp) (hmarks.mp h)
  · rw [if_neg h]
    exact iff_of_true rfl (not_not.mp (mt hmarks.mpr h))

/-- A setting is accepted only if its traffic control is. -/
theorem DrplaySetting.validate_tc {s : DrplaySetting} (h : s.validate = .ok ()) :
    ∀ tc ∈ s.tc, tc.validate = .ok () := by
  intro tc htc
  rw [Option.mem_def] at htc
  rw [validate, htc] at h
  obtain ⟨_, hok, -⟩ := Except.bind_eq_ok.mp h
  exact hok

/-! ### Decoding -/

namespace DrPlayTrafficControlConfig

/-- The integer fields, with their keys. -/
def intFields : List (String × (DrPlayTrafficControlConfig → Option ℤ)) :=
  [("Markfree", fun s => s.markfree.map Int32.toInt),
    ("Markfull", fun s => s.markfull.map Int32.toInt),
    ("Extralatency", fun s => s.extralatency.map Int32.toInt),
    ("Queuesizepackets", fun s => s.queuesizepackets.map fun q => (q.toNat : ℤ))]

theorem int_of_ptrInt32 {x y : Option Int32} {j : Json}
    (h : Json.Decoder.ofPtr 0 .ofInt32 x j = .ok y) :
    ∀ z ∈ y.map Int32.toInt, j = .int z := by
  intro z hz
  obtain ⟨n, rfl, rfl⟩ := Option.map_eq_some_iff.mp hz
  obtain ⟨hj, hn⟩ := Json.Decoder.ofPtr_eq_some h
  exact Json.Decoder.ofInt32_eq_ok hn hj

theorem int_of_ptrUInt64 {x y : Option UInt64} {j : Json}
    (h : Json.Decoder.ofPtr 0 .ofUInt64 x j = .ok y) :
    ∀ z ∈ y.map (fun q => (q.toNat : ℤ)), j = .int z := by
  intro z hz
  obtain ⟨n, rfl, rfl⟩ := Option.map_eq_some_iff.mp hz
  obtain ⟨hj, hn⟩ := Json.Decoder.ofPtr_eq_some h
  exact Json.Decoder.ofUInt64_eq_ok hn hj

/-- A member leaves an integer field alone, or has its key and writes its integer there. -/
theorem decode_field {u u' : DrPlayTrafficControlConfig} {f : Json.Slot DrPlayTrafficControlConfig}
    {j : Json} (hf : f ∈ fields) (h : f.decode u j = .ok u') {key : String}
    {get : DrPlayTrafficControlConfig → Option ℤ} (hget : (key, get) ∈ intFields) :
    get u' = get u ∨ f.name = key ∧ ∀ z ∈ get u', j = .int z := by
  simp only [fields, List.mem_cons, List.not_mem_nil, or_false] at hf
  simp only [intFields, List.mem_cons, Prod.mk.injEq, List.not_mem_nil, or_false] at hget
  rcases hf with rfl | rfl | rfl | rfl | rfl | rfl <;>
    obtain ⟨x, hx, rfl⟩ := Json.Slot.field_eq_ok h <;>
    rcases hget with ⟨rfl, rfl⟩ | ⟨rfl, rfl⟩ | ⟨rfl, rfl⟩ | ⟨rfl, rfl⟩
  -- a field and a key of the same kind, or of two different ones
  all_goals first
    | exact .inl rfl
    | exact .inr ⟨rfl, int_of_ptrInt32 hx⟩
    | exact .inr ⟨rfl, int_of_ptrUInt64 hx⟩

/-- **An integer that a decoded setting holds is the one of a member with the key of its field**, or
it was there before. -/
theorem decode_exact {s t : DrPlayTrafficControlConfig} {members : List (String × Json)}
    (h : decode s (.obj members) = .ok t) {key : String}
    {get : DrPlayTrafficControlConfig → Option ℤ} (hget : (key, get) ∈ intFields) :
    ∀ z ∈ get t, z ∈ get s ∨ ∃ m ∈ members, Json.foldKey key = Json.foldKey m.1 ∧ m.2 = .int z := by
  refine Json.Decoder.ofObj_invariant (I := fun t => ∀ z ∈ get t, z ∈ get s ∨
    ∃ m ∈ members, Json.foldKey key = Json.foldKey m.1 ∧ m.2 = .int z) ?_ (fun z hz => .inl hz) h
  intro u u' f m hu hf hm hkey hdec z hz
  rcases decode_field hf hdec hget with heq | ⟨rfl, hint⟩
  · exact hu z (heq ▸ hz)
  · exact .inr ⟨m, hm, hkey, hint z hz⟩

end DrPlayTrafficControlConfig

/-! ### Fallbacks -/

section TcValues

variable (fb : DbSession) (tc : List (Option DrPlayTrafficControlConfig))

theorem value_markFree : (readTcValuesWithFallbacks fb tc).markFree.value =
    firstSet fb.markfree (tc.map fun v => v.bind (·.markfree)) :=
  Fallback.value_foldl TcValues.markFree (fun _ _ => rfl) rfl tc

theorem value_markFull : (readTcValuesWithFallbacks fb tc).markFull.value =
    firstSet fb.markfull (tc.map fun v => v.bind (·.markfull)) :=
  Fallback.value_foldl TcValues.markFull (fun _ _ => rfl) rfl tc

theorem value_extralatency : (readTcValuesWithFallbacks fb tc).extralatency.value =
    firstSet fb.extralatencyMs (tc.map fun v => v.bind (·.extralatency)) :=
  Fallback.value_foldl TcValues.extralatency (fun _ _ => rfl) rfl tc

/-- The conversion is made at the level that sets the queue size. -/
theorem value_queueSize : (readTcValuesWithFallbacks fb tc).queueSize.value =
    firstSet fb.queuesizepackets
      ((tc.map fun v => v.bind (·.queuesizepackets)).map
        (Option.map fun q => q.toUInt32.toInt32)) := by
  rw [List.map_map]
  exact Fallback.value_foldl TcValues.queueSize (fun _ _ => rfl) rfl tc

end TcValues

section DrpValues

variable (cv : F64.FloatConv) (fb : DbDataRatePattern) (drp : List (Option DrPlayDataRateConfig))

theorem value_scale : (readDrpValuesWithFallbacks cv fb drp).scale.value =
    firstSet fb.initialScale (drp.map fun v => v.bind (·.scale)) :=
  Fallback.value_foldl DrpValues.scale (fun _ _ => rfl) rfl drp

theorem value_minrate : (readDrpValuesWithFallbacks cv fb drp).minrate.value =
    firstSet fb.intialMinRateKbits (drp.map fun v => v.bind (·.minRateKbits)) :=
  Fallback.value_foldl DrpValues.minrate (fun _ _ => rfl) rfl drp

end DrpValues

/-- Each value of the traffic control is that of the first level that sets it. -/
structure TcFromFirst (fb : DbSession) (tc : List (Option DrPlayTrafficControlConfig))
    (values : TcValues) : Prop where
  markFree : FromFirst fb.markfree (·.markfree) tc values.markFree.value
  markFull : FromFirst fb.markfull (·.markfull) tc values.markFull.value
  extralatency : FromFirst fb.extralatencyMs (·.extralatency) tc values.extralatency.value
  l4spre : FromFirst fb.l4sEnablePreMarking (·.l4sEnablePreMarking) tc values.l4spre.value
  signalstart : FromFirst fb.signalDrpStart (·.signalDrpStart) tc values.signalstart.value
  queueSize : FromFirst fb.queuesizepackets
    (fun c => c.queuesizepackets.map fun q => q.toUInt32.toInt32) tc values.queueSize.value

/-- Each value of the data rate is that of the first level that sets it. -/
structure DrpFromFirst (cv : F64.FloatConv) (fb : DbDataRatePattern)
    (drp : List (Option DrPlayDataRateConfig)) (values : DrpValues) : Prop where
  scale : FromFirst fb.initialScale (·.scale) drp values.scale.value
  freq : FromFirst fb.freq (·.frequency) drp values.freq.value
  minrate : FromFirst fb.intialMinRateKbits (·.minRateKbits) drp values.minrate.value
  warmup : FromFirst fb.warmupTimeMs (fun c => c.warmupBeforeDrpMs.map (F64.toInt32 cv)) drp
    values.warmup.value

section FromFirst

variable (fb : DbSession) (tc : List (Option DrPlayTrafficControlConfig)) (cv : F64.FloatConv)
  (fbDrp : DbDataRatePattern) (drp : List (Option DrPlayDataRateConfig))

theorem tcFromFirst : TcFromFirst fb tc (readTcValuesWithFallbacks fb tc) where
  markFree := Fallback.fromFirst_foldl TcValues.markFree (fun _ _ => rfl) rfl tc
  markFull := Fallback.fromFirst_foldl TcValues.markFull (fun _ _ => rfl) rfl tc
  extralatency := Fallback.fromFirst_foldl TcValues.extralatency (fun _ _ => rfl) rfl tc
  l4spre := Fallback.fromFirst_foldl TcValues.l4spre (fun _ _ => rfl) rfl tc
  signalstart := Fallback.fromFirst_foldl TcValues.signalstart (fun _ _ => rfl) rfl tc
  queueSize := by
    refine Fallback.fromFirst_foldl TcValues.queueSize (fun s v => ?_) rfl tc
    cases v <;> rfl

theorem drpFromFirst : DrpFromFirst cv fbDrp drp (readDrpValuesWithFallbacks cv fbDrp drp) where
  scale := Fallback.fromFirst_foldl DrpValues.scale (fun _ _ => rfl) rfl drp
  freq := Fallback.fromFirst_foldl DrpValues.freq (fun _ _ => rfl) rfl drp
  minrate := Fallback.fromFirst_foldl DrpValues.minrate (fun _ _ => rfl) rfl drp
  warmup := by
    refine Fallback.fromFirst_foldl DrpValues.warmup (fun s v => ?_) rfl drp
    cases v <;> rfl

/-- **Every value comes from the first level that sets it**, whatever else the levels set. -/
theorem readValues_fromFirst :
    TcFromFirst fb tc (readTcValuesWithFallbacks fb tc) ∧
      DrpFromFirst cv fbDrp drp (readDrpValuesWithFallbacks cv fbDrp drp) :=
  ⟨tcFromFirst fb tc, drpFromFirst cv fbDrp drp⟩

end FromFirst

end Jens
