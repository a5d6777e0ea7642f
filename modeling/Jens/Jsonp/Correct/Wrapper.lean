import Jens.Jsonp.Correct.BenchmarkDefinition
import Jens.Jsonp.Correct.Marshal

/-!
# The hash of a wrapper over validation and reloading

The hash covers the whole inner definition, and validating a pattern fills its `Hash` in when it is
missing (`filled`).  Validating twice is the same as validating once, except for the hash:
`stays_valid_iff` says when the hash that was calculated before the validation still fits.
-/

namespace Jens

open Json

/-! ### Patterns -/

namespace BenchmarkPattern

/-- The pattern that is loaded, or the one in the file. -/
def loaded (os : Os) (bp : BenchmarkPattern) : Except Failure DbDataRatePattern :=
  match bp.pattern with
  | some pattern => .ok pattern
  | none => bp.loadPattern os

/-- The hash of the loaded pattern; there is none where nothing can be loaded. -/
def fileHash (os : Os) (bp : BenchmarkPattern) : List UInt8 :=
  match bp.loaded os with
  | .ok pattern => pattern.drPattern.sha256
  | .error _ => []

/-- The pattern with its `Hash` filled in where it is missing. -/
def filled (os : Os) (bp : BenchmarkPattern) : BenchmarkPattern :=
  if bp.hashStr = "" then
    { bp with hashStr := hexEncodeToString (if bp.hash = [] then bp.fileHash os else bp.hash) }
  else bp

theorem filled_of_hashStr_ne {os : Os} {bp : BenchmarkPattern} (h : bp.hashStr ≠ "") :
    bp.filled os = bp := if_neg h

/-- The hash that is checked, or stored, once a pattern is loaded. -/
def hashWith (bp : BenchmarkPattern) (pattern : DbDataRatePattern) : List UInt8 :=
  if bp.hash = [] then pattern.drPattern.sha256 else bp.hash

/-- `checkOrCalcHash`, once a pattern is loaded. -/
def checkHash (bp : BenchmarkPattern) (pattern : DbDataRatePattern) :
    Except Failure BenchmarkPattern :=
  if bp.hashStr = "" then
    .ok { bp with
      pattern := some pattern
      hash := bp.hashWith pattern
      hashStr := hexEncodeToString (bp.hashWith pattern) }
  else if hexEncodeToString (bp.hashWith pattern) ≠ bp.hashStr then
    .error (.error ("DRP-Hash is incorrect. Cant Use the pattern " ++ bp.path ++ " ("
      ++ hexEncodeToString (bp.hashWith pattern) ++ ") as (" ++ bp.hashStr ++ ")"))
  else .ok { bp with pattern := some pattern, hash := bp.hashWith pattern }

theorem checkOrCalcHash_eq (os : Os) (bp : BenchmarkPattern) :
    bp.checkOrCalcHash os = bp.loaded os >>= bp.checkHash := by
  unfold checkOrCalcHash loaded
  cases bp.pattern <;> rfl

/-- What a pattern is once its hash has been checked or calculated. -/
theorem checkOrCalcHash_eq_ok {os : Os} {bp bp' : BenchmarkPattern}
    (h : bp.checkOrCalcHash os = .ok bp') :
    ∃ pattern, bp.loaded os = .ok pattern ∧
      bp' = { bp.filled os with pattern := some pattern, hash := bp.hashWith pattern } ∧
      bp'.hashStr = hexEncodeToString bp'.hash := by
  rw [checkOrCalcHash_eq, Except.bind_eq_ok] at h
  obtain ⟨pattern, hloaded, h⟩ := h
  have hfile : bp.fileHash os = pattern.drPattern.sha256 := by rw [fileHash, hloaded]
  refine ⟨pattern, hloaded, ?_⟩
  unfold checkHash at h
  unfold filled
  by_cases hempty : bp.hashStr = ""
  · rw [if_pos hempty] at h ⊢
    obtain rfl := Except.ok.inj h
    rw [hfile]
    exact ⟨rfl, rfl⟩
  · rw [if_neg hempty] at h ⊢
    split_ifs at h with heq
    obtain rfl := Except.ok.inj h
    exact ⟨rfl, (not_not.mp heq).symm⟩

theorem filled_path (os : Os) (bp : BenchmarkPattern) : (bp.filled os).path = bp.path := by
  unfold filled
  split_ifs <;> rfl

theorem filled_setting (os : Os) (bp : BenchmarkPattern) :
    (bp.filled os).setting = bp.setting := by
  unfold filled
  split_ifs <;> rfl

/-- What a pattern is after a validation that succeeds: filled in, with the hash of its file. -/
structure Validated (os : Os) (bp bp' : BenchmarkPattern) (pattern : DbDataRatePattern) : Prop where
  eq : bp' = { bp.filled os with pattern := some pattern, hash := pattern.drPattern.sha256 }
  hashStr : bp'.hashStr = hexEncodeToString pattern.drPattern.sha256
  exist : os.notExist bp.path = false
  setting : bp.setting.validate = .ok ()

theorem validated_of_validate {os : Os} {bp bp' : BenchmarkPattern}
    (h : bp.validate os = .ok bp') : ∃ pattern, Validated os bp bp' pattern := by
  unfold validate at h
  obtain ⟨bp₁, hcheck, h⟩ := Except.bind_eq_ok.mp h
  obtain ⟨pattern, -, rfl, hstr⟩ := checkOrCalcHash_eq_ok hcheck
  dsimp only [getHashOfLoadedPattern] at h hstr
  split_ifs at h with hexist hbad hempty
  all_goals
    obtain ⟨_, hok, h⟩ := Except.bind_eq_ok.mp h
    have hsetting := Except.mapError_eq_ok.mp hok
    rw [filled_setting] at hsetting
    rw [filled_path, Bool.not_eq_true] at hexist
    obtain rfl := Except.ok.inj h
    -- the hash is the one of the file
    have hhash : bp.hashWith pattern = pattern.drPattern.sha256 := by
      unfold hashWith at hbad ⊢
      grind
  · exact ⟨pattern, rfl, hhash ▸ hstr, hexist, hsetting⟩
  · exact ⟨pattern, by rw [hhash], hhash ▸ hstr, hexist, hsetting⟩

/-- **Validating a pattern again changes nothing.** -/
theorem validate_of_validated {os : Os} {bp bp' : BenchmarkPattern} {pattern : DbDataRatePattern}
    (h : Validated os bp bp' pattern) : bp'.validate os = .ok bp' := by
  have hpattern : bp'.pattern = some pattern := by rw [h.eq]
  have hhash : bp'.hash = pattern.drPattern.sha256 := by rw [h.eq]
  have hexist : os.notExist bp'.path = false := by
    rw [h.eq]
    exact (congrArg os.notExist (filled_path os bp)).trans h.exist
  have hsetting : bp'.setting.validate = .ok () := by
    rw [h.eq]
    exact (congrArg DrplaySetting.validate (filled_setting os bp)).trans h.setting
  have hwith : bp'.hashWith pattern = bp'.hash := by
    unfold hashWith
    rw [hhash]
    split_ifs <;> rfl
  have hsame : { bp' with pattern := some pattern, hash := bp'.hash } = bp' := by rw [← hpattern]
  have hcheck : bp'.checkOrCalcHash os = .ok bp' := by
    rw [checkOrCalcHash_eq, loaded, hpattern, Except.bind_eq_ok]
    refine ⟨pattern, rfl, ?_⟩
    unfold checkHash
    rw [hwith, hhash, ← h.hashStr, ← hhash]
    simp [hsame]
  unfold validate
  rw [hcheck, Except.bind_eq_ok]
  refine ⟨bp', rfl, ?_⟩
  have hloaded : bp'.getHashOfLoadedPattern = bp'.hash := by
    rw [getHashOfLoadedPattern, hpattern, hhash]
  dsimp only
  rw [hloaded, hexist, hsetting, if_neg (by simp), if_neg (by simp), ite_self]
  rfl

theorem exported_of_validated {os : Os} {bp bp' : BenchmarkPattern} {pattern : DbDataRatePattern}
    (h : Validated os bp bp' pattern) : bp'.exported = (bp.filled os).exported := by
  rw [h.eq]
  rfl

end BenchmarkPattern

/-! ### Definitions -/

namespace BenchmarkDefinition

variable {os : Os} {bcfg bcfg' : BenchmarkDefinition}

/-- The definition with the missing hashes of its patterns filled in. -/
def filled (os : Os) (bcfg : BenchmarkDefinition) : BenchmarkDefinition :=
  { bcfg with patterns := bcfg.patterns.map (BenchmarkPattern.filled os) }

theorem validate_eq_ok (h : bcfg.validate os = .ok bcfg') :
    ∃ ps, bcfg.patterns.mapM (BenchmarkPattern.validate os) = .ok ps ∧
      bcfg' = { bcfg with patterns := ps } ∧ bcfg.name ≠ "" ∧
      bcfg.maxBitrateEstimationTimeS ≠ 0 ∧ bcfg.patterns ≠ [] := by
  unfold validate at h
  split_ifs at h with hname htime hpatterns
  obtain ⟨ps, hps, rfl⟩ := Except.map_eq_ok.mp h
  exact ⟨ps, hps, rfl, hname, htime, hpatterns⟩

/-- **Validating a definition again changes nothing.** -/
theorem validate_of_validate (h : bcfg.validate os = .ok bcfg') :
    bcfg'.validate os = .ok bcfg' := by
  obtain ⟨ps, hps, rfl, hname, htime, hpatterns⟩ := validate_eq_ok h
  have hall := Except.forall₂_of_mapM hps
  have hagain : ∀ bp ∈ ps, BenchmarkPattern.validate os bp = .ok bp :=
    (forall_mem_iff_of_forall₂ (P := fun _ => True) hall fun bp _ bp' hbp => by
      obtain ⟨pattern, hval⟩ := BenchmarkPattern.validated_of_validate hbp
      exact iff_of_true trivial (BenchmarkPattern.validate_of_validated hval)).mp
        fun _ _ => trivial
  have hne : ps ≠ [] := by
    rintro rfl
    exact hpatterns (List.forall₂_nil_right_iff.mp hall)
  have hmapM : ps.mapM (BenchmarkPattern.validate os) = .ok (ps.map id) := Except.mapM_eq_ok hagain
  unfold validate
  dsimp only
  rw [if_neg hname, if_neg htime, if_neg hne, hmapM, List.map_id]
  rfl

/-- Validation fills in and changes nothing else that is exported. -/
theorem exported_of_validate (h : bcfg.validate os = .ok bcfg') :
    bcfg'.exported = (bcfg.filled os).exported := by
  obtain ⟨ps, hps, rfl, -⟩ := validate_eq_ok h
  have hall :
      List.Forall₂ (fun bp bp' => (bp.filled os).exported = bp'.exported) bcfg.patterns ps :=
    (Except.forall₂_of_mapM hps).imp fun bp bp' hbp => by
      obtain ⟨pattern, hval⟩ := BenchmarkPattern.validated_of_validate hbp
      exact (BenchmarkPattern.exported_of_validated hval).symm
  have heq : bcfg.patterns.map (fun bp => (bp.filled os).exported) =
      ps.map BenchmarkPattern.exported := by
    rw [← List.forall₂_eq_eq_eq, List.forall₂_map_left_iff, List.forall₂_map_right_iff]
    exact hall
  unfold exported filled
  rw [List.map_map, ← heq]
  rfl

theorem calcMd5_of_validate (h : bcfg.validate os = .ok bcfg') :
    bcfg'.calcMd5 os = (bcfg.filled os).calcMd5 os := by
  unfold calcMd5
  rw [← marshal_exported bcfg', exported_of_validate h, marshal_exported]

theorem filled_of_hashStr_ne (h : ∀ bp ∈ bcfg.patterns, bp.hashStr ≠ "") :
    bcfg.filled os = bcfg := by
  have hmap : bcfg.patterns.map (BenchmarkPattern.filled os) = bcfg.patterns.map id :=
    List.map_congr_left fun bp hbp => BenchmarkPattern.filled_of_hashStr_ne (h bp hbp)
  unfold filled
  rw [hmap, List.map_id]

theorem inRange_exported_iff (x : BenchmarkDefinition) : x.exported.InRange os ↔ x.InRange os := by
  have hpatterns : (∀ bp ∈ x.exported.patterns, bp.setting.InRange os) ↔
      ∀ bp ∈ x.patterns, bp.setting.InRange os := List.forall_mem_map
  constructor
  · intro h
    exact { h with patterns := hpatterns.mp h.patterns }
  · intro h
    exact { h with patterns := hpatterns.mpr h.patterns }

theorem InRange.filled (h : bcfg.InRange os) : (bcfg.filled os).InRange os :=
  { h with
    patterns := List.forall_mem_map.mpr fun bp hbp => by
      rw [BenchmarkPattern.filled_setting]
      exact h.patterns bp hbp }

theorem InRange.validate (hrange : bcfg.InRange os) (h : bcfg.validate os = .ok bcfg') :
    bcfg'.InRange os := by
  rw [← inRange_exported_iff, exported_of_validate h, inRange_exported_iff]
  exact hrange.filled

end BenchmarkDefinition

/-! ### Wrappers -/

namespace BenchmarkDefinitionWrapper

variable {os : Os} {w w' : BenchmarkDefinitionWrapper}

/-- A wrapper made by `NewBenchmarkDefinitionWrapper`, or loaded with its hash checked. -/
inductive Obtained (os : Os) (w : BenchmarkDefinitionWrapper) : Prop
  | new {defn : BenchmarkDefinition} (h : newBenchmarkDefinitionWrapper os defn = .ok w)
  | loaded {dat : String} {j : Json} {w₀ : BenchmarkDefinitionWrapper}
      (hparse : os.parseJson dat = .ok j) (hdecode : decode os {} j = .ok w₀)
      (hcheck : w₀.checkOrCalcHash os = .ok w)

/-- The hash is that of the inner definition, and written as it should. -/
structure Hashed (os : Os) (w : BenchmarkDefinitionWrapper) : Prop where
  hash : w.inner.calcMd5 os = .ok w.hash
  hashStr : w.hashStr = hexEncodeToString w.hash

theorem hashed_of_checkOrCalcHash {w₀ : BenchmarkDefinitionWrapper} (hempty : w₀.hash = [])
    (h : w₀.checkOrCalcHash os = .ok w) : w.Hashed os := by
  unfold checkOrCalcHash at h
  rw [if_pos hempty] at h
  obtain ⟨hash, hhash, h⟩ := Except.bind_eq_ok.mp h
  dsimp only at h
  split_ifs at h with hstr heq
  · obtain rfl := Except.ok.inj h
    exact ⟨hhash, rfl⟩
  · obtain rfl := Except.ok.inj h
    exact ⟨hhash, not_not.mp heq⟩

/-- Decoding stores no digest. -/
theorem hash_of_decode {j : Json} {w₀ : BenchmarkDefinitionWrapper}
    (h : decode os {} j = .ok w₀) : w₀.hash = [] := by
  cases j with
  | obj members =>
    refine Decoder.ofObj_invariant (I := fun s => s.hash = []) ?_ rfl h
    intro s t f m hs hf _ _ ht
    rcases List.mem_pair.mp hf with rfl | rfl
    all_goals
      obtain ⟨x, -, rfl⟩ := Slot.field_eq_ok ht
      exact hs
  | null =>
    obtain rfl := Except.ok.inj h
    rfl
  | bool b => cases h
  | int z => cases h
  | dec q => cases h
  | str s => cases h
  | arr elems => cases h

theorem hashed_of_obtained (h : w.Obtained os) : w.Hashed os := by
  cases h with
  | new h => exact hashed_of_checkOrCalcHash rfl h
  | loaded hparse hdecode hcheck =>
    exact hashed_of_checkOrCalcHash (hash_of_decode hdecode) hcheck

theorem hexEncodeToString_ne_empty {bytes : List UInt8} (h : bytes ≠ []) :
    hexEncodeToString bytes ≠ "" := by
  intro heq
  obtain ⟨b, bs, rfl⟩ := List.exists_cons_of_ne_nil h
  have hchars := congrArg String.toList heq
  rw [hexEncodeToString, String.toList_ofList] at hchars
  cases hchars

theorem Hashed.hash_ne_nil (hmd5 : ∀ b, (os.md5 b).length = 16) (hw : w.Hashed os) :
    w.hash ≠ [] := by
  intro hnil
  obtain ⟨j, -, hhash⟩ := Except.map_eq_ok.mp hw.hash
  have hlen := hmd5 (os.render j)
  rw [hhash, hnil] at hlen
  cases hlen

/-- Where the hash fits, `Validate` is the validation of the inner definition. -/
theorem validate_of_hashed (hw : w.inner.calcMd5 os = .ok w.hash) (hne : w.hash ≠ []) :
    w.validate os = (w.inner.validate os).map fun inner => { w with inner := inner } := by
  unfold validate
  rw [if_neg hne, hw]
  simp only [Except.mapError, bind, Except.bind]
  rw [if_neg (not_not.mpr rfl)]
  cases w.inner.validate os <;> rfl

/-- `Validate` succeeds only where the hash fits. -/
theorem calcMd5_of_validate (hne : w.hash ≠ []) (h : w.validate os = .ok w') :
    w.inner.calcMd5 os = .ok w.hash := by
  unfold validate at h
  rw [if_neg hne] at h
  obtain ⟨calculated, hcalc, h⟩ := Except.bind_eq_ok.mp h
  rw [Except.mapError_eq_ok] at hcalc
  split_ifs at h with heq
  rw [not_not.mp heq, hcalc]

theorem Hashed.exists_marshal (hw : w.Hashed os) : ∃ j, w.marshal = .ok j := by
  obtain ⟨jInner, hjInner, -⟩ := Except.map_eq_ok.mp hw.hash
  exact ⟨_, Except.bind_eq_ok.mpr ⟨jInner, hjInner, rfl⟩⟩

/-- A wrapper that is written is loaded with its hash, if that fits. -/
theorem load_of_marshal {j : Json} {dat : String} (hw : w.Hashed os) (hne : w.hash ≠ [])
    (hrange : w.inner.InRange os) (hj : w.marshal = .ok j) (hparse : os.parseJson dat = .ok j) :
    loadBenchmarkDefinitionFromJsonData os dat = .ok (w.inner.exported, w.hashStr) := by
  have hdecode := (readsBack hrange j hj).2
  have hcalc : w.inner.exported.calcMd5 os = .ok w.hash := by
    unfold BenchmarkDefinition.calcMd5
    rw [BenchmarkDefinition.marshal_exported]
    exact hw.hash
  have hstr : w.hashStr ≠ "" := by
    rw [hw.hashStr]
    exact hexEncodeToString_ne_empty hne
  have hcheck : ({ hashStr := w.hashStr, inner := w.inner.exported } :
      BenchmarkDefinitionWrapper).checkOrCalcHash os =
        .ok { hash := w.hash, hashStr := w.hashStr, inner := w.inner.exported } := by
    unfold checkOrCalcHash
    rw [if_pos rfl, hcalc, Except.bind_eq_ok]
    refine ⟨w.hash, rfl, ?_⟩
    dsimp only
    rw [if_neg hstr, if_neg (not_not.mpr hw.hashStr)]
    rfl
  unfold loadBenchmarkDefinitionFromJsonData
  rw [hparse, Except.bind_eq_ok]
  exact ⟨j, rfl, Except.bind_eq_ok.mpr ⟨_, hdecode, Except.bind_eq_ok.mpr ⟨_, hcheck, rfl⟩⟩⟩

/-- **When a validated wrapper stays valid**: it validates again, and its JSON text is loaded with
the same hash, exactly if every pattern had its hash set, or if the digest does not tell the
definition from the one with the missing hashes filled in. -/
theorem stays_valid_iff (hmd5 : ∀ b, (os.md5 b).length = 16) (hobtained : w.Obtained os)
    (hrange : w.inner.InRange os) (hval : w.validate os = .ok w')
    (hjson : ∀ j dat, w'.marshal = .ok j → dat.toUTF8.data.toList = os.render j →
      os.parseJson dat = .ok j) :
    ((∃ w'', w'.validate os = .ok w'') ∧
      ∃ j, w'.marshal = .ok j ∧ ∀ dat, dat.toUTF8.data.toList = os.render j →
        ∃ defn, loadBenchmarkDefinitionFromJsonData os dat = .ok (defn, w'.hashStr)) ↔
      (∀ bp ∈ w.inner.patterns, bp.hashStr ≠ "") ∨
        (w.inner.filled os).calcMd5 os = w.inner.calcMd5 os := by
  have hw : w.Hashed os := hashed_of_obtained hobtained
  have hne : w.hash ≠ [] := hw.hash_ne_nil hmd5
  rw [validate_of_hashed hw.hash hne, Except.map_eq_ok] at hval
  obtain ⟨inner, hinner, rfl⟩ := hval
  have hfilled := BenchmarkDefinition.calcMd5_of_validate hinner
  have hne' : ({ w with inner := inner } : BenchmarkDefinitionWrapper).hash ≠ [] := hne
  constructor
  · rintro ⟨⟨w'', hagain⟩, -⟩
    have hcalc := calcMd5_of_validate hne' hagain
    exact .inr (hfilled.symm.trans (hcalc.trans hw.hash.symm))
  · intro hcond
    have hsame : (w.inner.filled os).calcMd5 os = w.inner.calcMd5 os := by
      rcases hcond with hset | hsame
      · rw [BenchmarkDefinition.filled_of_hashStr_ne hset]
      · exact hsame
    have hhashed : ({ w with inner := inner } : BenchmarkDefinitionWrapper).Hashed os :=
      ⟨hfilled.trans (hsame.trans hw.hash), hw.hashStr⟩
    constructor
    · rw [validate_of_hashed hhashed.hash hne', BenchmarkDefinition.validate_of_validate hinner]
      exact ⟨_, rfl⟩
    · obtain ⟨j, hj⟩ := hhashed.exists_marshal
      refine ⟨j, hj, fun dat hdat => ⟨inner.exported, ?_⟩⟩
      exact load_of_marshal hhashed hne' (hrange.validate hinner) hj (hjson j dat hj hdat)

/-! ### An example -/

/-- A definition of one pattern with this `Hash`. -/
def exampleDefinition (hashStr : String) : BenchmarkDefinition where
  name := "b"
  maxBitrateEstimationTimeS := 1
  patterns := [{ path := "p.csv", hashStr := hashStr }]

mutual

/-- The JSON text of a tree without fractions and without characters to escape. -/
def jsonText : Json → String
  | .null => "null"
  | .bool b => toString b
  | .int z => toString z
  | .dec _ => ""
  | .str s => "\"" ++ s ++ "\""
  | .arr elems => "[" ++ jsonTexts elems ++ "]"
  | .obj members => "\x7b" ++ jsonMembers members ++ "\x7d"

/-- The elements of an array, separated by commas. -/
def jsonTexts : List Json → String
  | [] => ""
  | [j] => jsonText j
  | j :: js => jsonText j ++ "," ++ jsonTexts js

/-- The members of an object, separated by commas. -/
def jsonMembers : List (String × Json) → String
  | [] => ""
  | [(key, j)] => "\"" ++ key ++ "\":" ++ jsonText j
  | (key, j) :: ms => "\"" ++ key ++ "\":" ++ jsonText j ++ "," ++ jsonMembers ms

end

/-- The tree of the wrapper of the definition whose pattern has its `Hash`. -/
def hashedTree : Json :=
  .obj [("Hash", .str "7012dfcd9c60776ec414e4591577fa69"), ("Inner", .obj [("Name", .str "b"),
    ("Max_application_bitrate", .int 0), ("MaxBitrateEstimationTimeS", .int 1),
    ("Patterns", .arr [.obj [("Path", .str "p.csv"),
      ("Hash", .str "6f5b4a57fd3aeb25cd33aa6c56512fd4"), ("Setting", .obj [])]]),
    ("DrplaySetting", .obj [])])]

/-- The surroundings with a pattern file of one row; the digests are those of its eight bytes and of
the texts of the definition without and with the `Hash` of the pattern. -/
def hashingOs : Os :=
  { exampleOs with
    render := fun j => (jsonText j).toUTF8.data.toList
    parseJson := fun dat => if dat = jsonText hashedTree then .ok hashedTree else .error "EOF"
    md5 := fun bytes =>
      if bytes.length = 8 then
        [111, 91, 74, 87, 253, 58, 235, 37, 205, 51, 170, 108, 86, 81, 47, 212]
      else if bytes.length = 142 then
        [119, 166, 89, 160, 154, 151, 137, 132, 125, 32, 118, 92, 27, 175, 152, 219]
      else [112, 18, 223, 205, 156, 96, 119, 110, 196, 20, 228, 89, 21, 119, 250, 105] }

theorem inRange_exampleDefinition (hashStr : String) : 
    (exampleDefinition hashStr).InRange hashingOs where
  maxApplicationBitrate := by norm_num [exampleDefinition, IsGoInt]
  maxBitrateEstimationTimeS := by norm_num [exampleDefinition, IsGoInt]
  patterns := by simp [exampleDefinition, DrplaySetting.InRange]
  drplaySetting := by simp [exampleDefinition, DrplaySetting.InRange]

theorem length_md5_hashingOs (bytes : List UInt8) : (hashingOs.md5 bytes).length = 16 := by
  unfold hashingOs
  dsimp only
  split_ifs <;> rfl

theorem marshal_eq_exported (w : BenchmarkDefinitionWrapper) :
    w.marshal =
      BenchmarkDefinitionWrapper.marshal { hashStr := w.hashStr, inner := w.inner.exported } := by
  unfold marshal
  rw [BenchmarkDefinition.marshal_exported]

theorem stays_valid_iff_hashed : ∃ w w',
    newBenchmarkDefinitionWrapper hashingOs
      (exampleDefinition "6f5b4a57fd3aeb25cd33aa6c56512fd4") = .ok w ∧
    w.validate hashingOs = .ok w' ∧
    (((∃ w'', w'.validate hashingOs = .ok w'') ∧
        ∃ j, w'.marshal = .ok j ∧ ∀ dat, dat.toUTF8.data.toList = hashingOs.render j →
          ∃ defn, loadBenchmarkDefinitionFromJsonData hashingOs dat = .ok (defn, w'.hashStr)) ↔
      (∀ bp ∈ w.inner.patterns, bp.hashStr ≠ "") ∨
        (w.inner.filled hashingOs).calcMd5 hashingOs = w.inner.calcMd5 hashingOs) := by
  let defn := exampleDefinition "6f5b4a57fd3aeb25cd33aa6c56512fd4"
  obtain ⟨w, hw, hvalid⟩ :=
    Except.exists_ok_of_any (x := newBenchmarkDefinitionWrapper hashingOs defn)
    (p := fun w => w.inner = defn ∧ (w.validate hashingOs).toOption.any fun w' =>
      w'.hashStr = "7012dfcd9c60776ec414e4591577fa69" ∧ w'.inner.exported = defn)
    (by decide +kernel)
  rw [decide_eq_true_eq] at hvalid
  obtain ⟨hinner, hvalid⟩ := hvalid
  obtain ⟨w', hw', hfinal⟩ := Except.exists_ok_of_any hvalid
  rw [decide_eq_true_eq] at hfinal
  have hmarshal : w'.marshal = .ok hashedTree := by
    rw [marshal_eq_exported, hfinal.1, hfinal.2]
    rfl
  refine ⟨w, w', hw, hw', stays_valid_iff length_md5_hashingOs (.new hw) ?_ hw' ?_⟩
  · rw [hinner]
    exact inRange_exampleDefinition _
  · intro j dat hj hdat
    obtain rfl := Except.ok.inj (hmarshal.symm.trans hj)
    have htext : dat = jsonText hashedTree :=
      String.toByteArray_inj.mp (ByteArray.ext (Array.toList_inj.mp hdat))
    exact if_pos htext

/-- Where the `Hash` of the pattern is missing, the wrapper validates once and never again. -/
theorem filled_hash_invalidates : ∃ w w',
    newBenchmarkDefinitionWrapper hashingOs (exampleDefinition "") = .ok w ∧
    w.validate hashingOs = .ok w' ∧ ∀ w'', w'.validate hashingOs ≠ .ok w'' := by
  obtain ⟨w, hw, hvalid⟩ := Except.exists_ok_of_any
    (x := newBenchmarkDefinitionWrapper hashingOs (exampleDefinition ""))
    (p := fun w => (w.validate hashingOs).toOption.any fun w' =>
      (w'.validate hashingOs).toOption.isNone) (by decide +kernel)
  obtain ⟨w', hw', hagain⟩ := Except.exists_ok_of_any hvalid
  refine ⟨w, w', hw, hw', fun w'' hw'' => ?_⟩
  rw [hw''] at hagain
  cases hagain

end BenchmarkDefinitionWrapper

end Jens
