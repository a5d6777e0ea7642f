import Jens.Drp.Correct.PatternProvider
import Jens.Jsonp.BenchmarkDefinition
import Jens.Jsonp.Correct.Settings
import Jens.Player.InitTc

/-!
# The sessions of a loaded benchmark

Session `i` is made of pattern `i` (`sessions_of_load`); its values are those of the first level
that sets them, and its first rate is that of the file (`SessionOf`).  The definition that is
played has passed its own checks, pattern by pattern (`validate_setting_of_load`).
-/

namespace Jens

open BenchmarkDefinition

/-! ### The checks of a definition -/

theorem BenchmarkPattern.validate_setting {os : Os} {bp bp' : BenchmarkPattern}
    (h : bp.validate os = .ok bp') : bp'.setting.validate = .ok () := by
  unfold validate at h
  obtain ⟨bp₁, -, h⟩ := Except.bind_eq_ok.mp h
  dsimp only at h
  split_ifs at h
  all_goals
    obtain ⟨_, hok, h⟩ := Except.bind_eq_ok.mp h
    obtain rfl := Except.ok.inj h
    exact Except.mapError_eq_ok.mp hok

theorem validate_setting_of_load {os : Os} {path hash : String} {defintion : BenchmarkDefinition}
    (h : loadDefinition os path = .ok (defintion, hash)) :
    ∀ v ∈ defintion.patterns, v.setting.validate = .ok () := by
  unfold loadDefinition at h
  obtain ⟨data, -, h⟩ := Except.bind_eq_ok.mp h
  obtain ⟨⟨bcfg, hash'⟩, -, h⟩ := Except.bind_eq_ok.mp h
  obtain ⟨bcfg', hval, h⟩ := Except.bind_eq_ok.mp h
  obtain ⟨rfl, rfl⟩ := Prod.mk.inj (Except.ok.inj h)
  rw [Except.mapError_eq_ok] at hval
  unfold BenchmarkDefinition.validate at hval
  split_ifs at hval
  obtain ⟨ps, hps, rfl⟩ := Except.map_eq_ok.mp hval
  -- each pattern of the result comes from one round of the loop, which has checked its setting
  have hall := Except.forall₂_of_mapM hps
  exact (forall_mem_iff_of_forall₂ (P := fun _ => True) hall fun _ _ _ hbp =>
    iff_of_true trivial (BenchmarkPattern.validate_setting hbp)).mp fun _ _ => trivial

/-! ### The sessions -/

section

variable (cfg : Config) (defintion : BenchmarkDefinition) (v : BenchmarkPattern)

/-- A traffic-control field at the levels of a pattern: its own setting, then the one of the top. -/
def tcLevels {α : Type} (get : DrPlayTrafficControlConfig → Option α) : List (Option α) :=
  [v.setting.tc, defintion.drplaySetting.tc].map fun c => c.bind get

/-- A data-rate field at the levels of a pattern. -/
def drpLevels {α : Type} (get : DrPlayDataRateConfig → Option α) : List (Option α) :=
  [v.setting.drp, defintion.drplaySetting.drp].map fun c => c.bind get

/-- The value of the first row of the file of a pattern, with the scale and the minimum rate that
are first set. -/
def firstRate (os : Os) : Option F64 :=
  firstValue os v.path
    (firstSet cfg.aSession.childDrp.initialScale (drpLevels defintion v (·.scale)))
    (firstSet cfg.aSession.childDrp.intialMinRateKbits (drpLevels defintion v (·.minRateKbits)))

/-- The session of a pattern. -/
structure SessionOf (os : Os) (s : DbSession) : Prop where
  markfree : s.markfree = firstSet cfg.aSession.markfree (tcLevels defintion v (·.markfree))
  markfull : s.markfull = firstSet cfg.aSession.markfull (tcLevels defintion v (·.markfull))
  extralatency : s.extralatencyMs =
    firstSet cfg.aSession.extralatencyMs (tcLevels defintion v (·.extralatency))
  queueSize : s.queuesizepackets = firstSet cfg.aSession.queuesizepackets
    ((tcLevels defintion v (·.queuesizepackets)).map (Option.map fun q => q.toUInt32.toInt32))
  qosmode : s.qosmode = 0
  rate : firstRate cfg defintion v os = some s.childDrp.peek

end

theorem sessionOf_of_loadSession {os : Os} {cv : F64.FloatConv} {cfg : Config}
    {defintion : BenchmarkDefinition} {v : BenchmarkPattern} {i : ℕ} {s : DbSession}
    (h : loadSession os cv cfg defintion v i = .ok s) : SessionOf cfg defintion v os s := by
  unfold loadSession at h
  obtain ⟨dbDrp, hdrp, h⟩ := Except.bind_eq_ok.mp h
  obtain rfl := Except.ok.inj h
  refine ⟨value_markFree _ _, value_markFull _ _, value_extralatency _ _, value_queueSize _ _,
    rfl, ?_⟩
  have hpeek := peek_of_parseDrp hdrp
  dsimp only at hpeek
  rwa [value_scale, value_minrate] at hpeek

/-- **Every session of a loaded benchmark is that of its pattern.** -/
theorem sessions_of_load {os : Os} {cv : F64.FloatConv} {cfg : Config} {path hash : String}
    {defintion : BenchmarkDefinition} {b : DbBenchmark}
    (hdef : loadDefinition os path = .ok (defintion, hash))
    (h : loadDbBenchmarkFromJson os cv cfg path = .ok b) :
    List.Forall₂ (fun v s => SessionOf cfg defintion v os s) defintion.patterns b.sessions := by
  unfold loadDbBenchmarkFromJson at h
  obtain ⟨loaded, hloaded, h⟩ := Except.bind_eq_ok.mp h
  obtain rfl := Except.ok.inj (hdef.symm.trans hloaded)
  obtain ⟨sessions, hsessions, h⟩ := Except.bind_eq_ok.mp h
  obtain rfl := Except.ok.inj h
  have hall := (Except.forall₂_of_mapM hsessions).imp fun _ _ => sessionOf_of_loadSession
  rwa [← List.zipIdx_map_fst 0 defintion.patterns, List.forall₂_map_left_iff]

/-- A definition of one pattern that sets `Markfree` to 20 and leaves `Markfull` open. -/
def exampleJson : String :=
  "\x7b\"Hash\":\"\",\"Inner\":\x7b\"Name\":\"b\",\"MaxBitrateEstimationTimeS\":1,\"Patterns\":"
    ++ "[\x7b\"Path\":\"p.csv\",\"Setting\":\x7b\"TC\":\x7b\"Markfree\":20\x7d\x7d\x7d],"
    ++ "\"DrplaySetting\":\x7b\"DRP\":\x7b\"Frequency\":10,\"Scale\":1\x7d\x7d\x7d\x7d"

/-- The value of that text. -/
def exampleTree : Json :=
  .obj [("Hash", .str ""), ("Inner", .obj [("Name", .str "b"),
    ("MaxBitrateEstimationTimeS", .int 1),
    ("Patterns", .arr [.obj [("Path", .str "p.csv"),
      ("Setting", .obj [("TC", .obj [("Markfree", .int 20)])])]]),
    ("DrplaySetting", .obj [("DRP", .obj [("Frequency", .int 10), ("Scale", .int 1)])])])]

/-- What `json.Marshal` makes of the definition. -/
def exampleMarshalled : String :=
  "\x7b\"Name\":\"b\",\"Max_application_bitrate\":0,\"MaxBitrateEstimationTimeS\":1,\"Patterns\":"
    ++ "[\x7b\"Path\":\"p.csv\",\"Hash\":\"\",\"Setting\":"
    ++ "\x7b\"TC\":\x7b\"Markfree\":20\x7d\x7d\x7d],"
    ++ "\"DrplaySetting\":\x7b\"DRP\":\x7b\"Frequency\":10,\"Scale\":1\x7d\x7d\x7d"

/-- The surroundings with that definition and a pattern file of one row; the digests are those of
the eight bytes of 100 and of the text above. -/
def exampleOs : Os where
  readFile path :=
    if path = "b.json" then .ok exampleJson
    else if path = "p.csv" then .ok "100\n"
    else .error ("open " ++ path ++ ": no such file or directory")
  notExist path := path ≠ "b.json" ∧ path ≠ "p.csv"
  interfaceByName dev := if dev = "lo" then none else some "no such network interface"
  csv text := if text = "100\n" then .ok [["100"]] else .error "EOF"
  parseFloat cell := if cell = "100" then some 0x4059000000000000 else none
  parseJson text := if text = exampleJson then .ok exampleTree else .error "unexpected EOF"
  render _ := exampleMarshalled.toList.map fun c => UInt8.ofNat c.toNat
  md5 bytes :=
    if bytes.length = 8 then [111, 91, 74, 87, 253, 58, 235, 37, 205, 51, 170, 108, 86, 81, 47, 212]
    else [107, 201, 68, 140, 66, 81, 226, 174, 62, 225, 179, 62, 72, 112, 98, 251]
  round := F64.nearest

/-- Nothing out of range is converted in the example. -/
def exampleConv : F64.FloatConv where
  toUint64 _ := 0
  toUint32 _ := 0
  toInt32 _ := 0

/-- A `config.toml` with these marks and this QoS mode. -/
def exampleConfig (markfree markfull : Int32) (qosmode : UInt8) : Config where
  aSession :=
    { markfree := markfree
      markfull := markfull
      queuesizepackets := 10000
      qosmode := qosmode
      childDrp :=
        { newDbDataRatePattern with
          intialMinRateKbits := .fin 500
          warmupTimeMs := 2000
          freq := -1
          initialScale := .fin (-1) } }
  aTag := "tag"
  aDev := "lo"

/-- The example is a definition. -/
theorem exists_loadDefinition : ∃ d, loadDefinition exampleOs "b.json" = .ok d := by
  obtain ⟨d, hd, -⟩ := Except.exists_ok_of_any
    (x := loadDefinition exampleOs "b.json") (p := fun _ => true) (by decide +kernel)
  exact ⟨d, hd⟩

/-- It is loaded as a benchmark. -/
theorem exists_loadDbBenchmark :
    ∃ b, loadDbBenchmarkFromJson exampleOs exampleConv (exampleConfig 4 30 0) "b.json" = .ok b := by
  obtain ⟨b, hb, -⟩ := Except.exists_ok_of_any
    (x := loadDbBenchmarkFromJson exampleOs exampleConv (exampleConfig 4 30 0) "b.json")
    (p := fun _ => true) (by decide +kernel)
  exact ⟨b, hb⟩

end Jens
