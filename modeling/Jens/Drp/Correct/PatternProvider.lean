import Jens.Drp.Correct.Comments
import Jens.Lib.Outcome

/-!
# What a loaded pattern holds

The data of a pattern that loads are the values of the rows of its file, in order
(`data_of_provide`), and a freshly loaded pattern stands at the first of them (`peek_of_parseDrp`).
-/

namespace Jens

/-- The value of a number: scaled, and raised to the minimum rate. -/
def LoadParameters.value (p : LoadParameters) (os : Os) (x : F64) : F64 :=
  F64.max (os.mul x p.scale) p.minRateKbits

/-- The same, of the number with these bits. -/
def LoadParameters.valueOfBits (p : LoadParameters) (os : Os) (float : UInt64) : F64 :=
  p.value os (F64.ofBits float)

/-- The value of a cell. -/
def cellValue (os : Os) (p : LoadParameters) (cell : String) : Option F64 :=
  (os.parseFloat cell).map fun float => p.valueOfBits os float

/-- A row of one cell, and its value. -/
def RowHolds (os : Os) (p : LoadParameters) (row : List String) (v : F64) : Prop :=
  ∃ cell, row = [cell] ∧ cellValue os p cell = some v

/-- The pattern after one more value. -/
def withValue (os : Os) (drp : DataRatePattern) (v : F64) : DataRatePattern :=
  { drp with
    data := drp.data.map (· ++ [v])
    max := if drp.max.lt v then v else drp.max
    min := if v.lt drp.min then v else drp.min
    avg := os.add drp.avg v }

/-- The pattern the loop over the rows starts with. -/
def startPattern (p : LoadParameters) (n : ℕ) : DataRatePattern :=
  { loadParameters := p, min := F64.maxFloat64, max := .fin (-1), length := n, data := some [] }

/-- A row of one number, and its bits. -/
def RowBits (os : Os) (row : List String) (float : UInt64) : Prop :=
  ∃ cell, row = [cell] ∧ os.parseFloat cell = some float

theorem RowBits.rowHolds {os : Os} {p : LoadParameters} {row : List String} {float : UInt64}
    (h : RowBits os row float) : RowHolds os p row (p.valueOfBits os float) := by
  obtain ⟨cell, rfl, hcell⟩ := h
  exact ⟨cell, rfl, by rw [cellValue, hcell]; rfl⟩

/-- The numbers as they are hashed. -/
def hashBytes (floats : List UInt64) : List UInt8 :=
  floats.flatMap fun float => leBytes 8 float.toNat

theorem convertRow_eq_ok_iff {os : Os} {p : LoadParameters}
    {acc acc' : DataRatePattern × List UInt8} {row : List String × ℕ} :
    convertRow os p acc row = .ok acc' ↔ ∃ float, RowBits os row.1 float ∧
      (withValue os acc.1 (p.valueOfBits os float), acc.2 ++ leBytes 8 float.toNat) = acc' := by
  obtain ⟨row, i⟩ := row
  match row with
  | [] => simp [convertRow, RowBits]
  | _ :: _ :: _ => simp [convertRow, RowBits]
  | [cell] =>
    cases hcell : os.parseFloat cell with
    | none => simp [convertRow, RowBits, hcell]
    | some float =>
      have hrow : convertRow os p acc ([cell], i) =
          .ok (withValue os acc.1 (p.valueOfBits os float), acc.2 ++ leBytes 8 float.toNat) := by
        simp only [convertRow, hcell]
        rfl
      simp [hrow, RowBits, hcell]

theorem foldlM_convertRow_eq_ok_iff {os : Os} {p : LoadParameters} {rows : List (List String × ℕ)}
    {acc acc' : DataRatePattern × List UInt8} :
    rows.foldlM (convertRow os p) acc = .ok acc' ↔
      ∃ floats, List.Forall₂ (fun row float => RowBits os row.1 float) rows floats ∧
        ((floats.map (p.valueOfBits os)).foldl (withValue os) acc.1,
          acc.2 ++ hashBytes floats) = acc' := by
  induction rows generalizing acc with
  | nil =>
    simp only [List.foldlM_nil, List.forall₂_nil_left_iff, exists_eq_left, hashBytes,
      List.flatMap_nil, List.append_nil]
    exact Except.ok.injEq _ _ |>.to_iff
  | cons row rows ih =>
    rw [List.foldlM_cons, Except.bind_eq_ok]
    constructor
    · rintro ⟨acc₁, hrow, hrows⟩
      obtain ⟨float, hfloat, rfl⟩ := convertRow_eq_ok_iff.mp hrow
      obtain ⟨floats, hfloats, rfl⟩ := ih.mp hrows
      exact ⟨float :: floats, .cons hfloat hfloats, by simp [hashBytes]⟩
    · rintro ⟨floats, hfloats, rfl⟩
      cases hfloats with
      | @cons _ float _ floats hfloat hfloats =>
        refine ⟨_, convertRow_eq_ok_iff.mpr ⟨float, hfloat, rfl⟩, ih.mpr ⟨floats, hfloats, ?_⟩⟩
        simp [hashBytes]

/-- The pattern of these numbers. -/
def patternOf (os : Os) (p : LoadParameters) (floats : List UInt64) : DataRatePattern :=
  let total := (floats.map (p.valueOfBits os)).foldl (withValue os) (startPattern p floats.length)
  { total with avg := os.div total.avg (.fin total.length), sha256 := os.md5 (hashBytes floats) }

/-- **Rows load just if each is one number**, and there is one. -/
theorem convertDrpData_eq_ok_iff {os : Os} {strdata : List (List String)} {p : LoadParameters}
    {drp : DataRatePattern} :
    convertDrpData os strdata p = .ok drp ↔
      ∃ floats, List.Forall₂ (RowBits os) strdata floats ∧ floats ≠ [] ∧
        patternOf os p.effective floats = drp := by
  have hrows (ret : DataRatePattern × List UInt8) :
      strdata.zipIdx.foldlM (convertRow os p.effective)
        (startPattern p.effective strdata.length, []) = .ok ret ↔
      ∃ floats, List.Forall₂ (RowBits os) strdata floats ∧
        ((floats.map (p.effective.valueOfBits os)).foldl (withValue os)
          (startPattern p.effective strdata.length), hashBytes floats) = ret := by
    rw [foldlM_convertRow_eq_ok_iff]
    refine exists_congr fun floats => and_congr_left fun _ => ?_
    rw [← List.forall₂_map_left_iff (f := Prod.fst) (R := RowBits os), List.zipIdx_map_fst]
  constructor
  · intro h
    unfold convertDrpData at h
    split_ifs at h with hlen
    dsimp only at h
    split at h
    · cases h
    · rename_i total hashBuf hfold
      obtain ⟨floats, hfloats, htotal⟩ := (hrows _).mp hfold
      obtain ⟨rfl, rfl⟩ := Prod.mk.inj htotal
      refine ⟨floats, hfloats, ?_, ?_⟩
      · rintro rfl
        exact hlen hfloats.length_eq
      · rw [patternOf, ← hfloats.length_eq]
        exact Except.ok.inj h
  · rintro ⟨floats, hfloats, hne, rfl⟩
    have hlen : strdata.length ≠ 0 := by
      rw [hfloats.length_eq]
      exact (List.length_pos_iff.mpr hne).ne'
    have hfold := (hrows _).mpr ⟨floats, hfloats, rfl⟩
    unfold startPattern at hfold
    rw [convertDrpData, if_neg hlen]
    dsimp only
    rw [hfold, patternOf, ← hfloats.length_eq]
    rfl

/-- A pattern that loads is the one the loop makes of the values of the rows, with the sum of the
values divided by their number. -/
theorem convertDrpData_eq_ok {os : Os} {strdata : List (List String)} {p : LoadParameters}
    {drp : DataRatePattern} (h : convertDrpData os strdata p = .ok drp) :
    ∃ vs sha256, List.Forall₂ (RowHolds os p.effective) strdata vs ∧ vs ≠ [] ∧
      let total := vs.foldl (withValue os) (startPattern p.effective strdata.length)
      drp = { total with avg := os.div total.avg (.fin total.length), sha256 := sha256 } := by
  obtain ⟨floats, hfloats, hne, rfl⟩ := convertDrpData_eq_ok_iff.mp h
  refine ⟨floats.map (p.effective.valueOfBits os), os.md5 (hashBytes floats), ?_, ?_, ?_⟩
  · rw [List.forall₂_map_right_iff]
    exact hfloats.imp fun _ _ => RowBits.rowHolds
  · simpa using hne
  · rw [patternOf, ← hfloats.length_eq]

section WithValues

variable (os : Os) (drp : DataRatePattern) (vs : List F64)

theorem data_withValues : (vs.foldl (withValue os) drp).data = drp.data.map (· ++ vs) := by
  induction vs generalizing drp with
  | nil => simp
  | cons v vs ih =>
    rw [List.foldl_cons, ih]
    cases h : drp.data <;> simp [withValue, h]

theorem iter_withValues : (vs.foldl (withValue os) drp).iter = drp.iter := by
  induction vs generalizing drp with
  | nil => rfl
  | cons v vs ih => exact ih (withValue os drp v)

theorem length_withValues : (vs.foldl (withValue os) drp).length = drp.length := by
  induction vs generalizing drp with
  | nil => rfl
  | cons v vs ih => exact ih (withValue os drp v)

end WithValues

theorem data_of_convertDrpData {os : Os} {strdata : List (List String)} {p : LoadParameters}
    {drp : DataRatePattern} (h : convertDrpData os strdata p = .ok drp) :
    ∃ vs, List.Forall₂ (RowHolds os p.effective) strdata vs ∧ vs ≠ [] ∧ drp.data = some vs ∧
      drp.iter = none := by
  obtain ⟨vs, sha256, hvs, hne, rfl⟩ := convertDrpData_eq_ok h
  refine ⟨vs, hvs, hne, ?_, ?_⟩
  · dsimp only
    rw [data_withValues]
    rfl
  · dsimp only
    rw [iter_withValues]
    rfl

theorem readDrpCommentPath_eq_ok_iff {os : Os} {path : String} {drp drp' : DataRatePattern} :
    readDrpCommentPath os path drp = .ok drp' ↔
      ∃ data, os.readFile path = .ok data ∧
        readComments { drp with mapping := [], description := "" } (data.toList.splitOn '\n') =
          .ok drp' := by
  rw [readDrpCommentPath]
  cases os.readFile path <;> simp

/-- `Provide` reads the rows, then the comments, and names the pattern. -/
theorem provide_eq_ok_iff {os : Os} {path : String} {scale minrate : F64} {drp : DataRatePattern} :
    provide os path scale minrate = .ok drp ↔
      path ≠ "" ∧ ∃ strdata ret ret', readCsv os path = .ok strdata ∧
        convertDrpData os strdata ⟨minrate, scale, path⟩ = .ok ret ∧
        readDrpCommentPath os path ret = .ok ret' ∧
        { ret' with name := filepathBase path } = drp := by
  rw [provide, Except.ite_error_eq_ok]
  refine and_congr_right fun _ => ?_
  cases readCsv os path with
  | error e => simp
  | ok strdata =>
    cases hconv : convertDrpData os strdata ⟨minrate, scale, path⟩ with
    | error e => simp [hconv]
    | ok ret => simp [hconv, Except.map_eq_ok]

/-- **The data of a pattern that loads are the values of the rows of its file.** -/
theorem data_of_provide {os : Os} {path : String} {scale minrate : F64} {drp : DataRatePattern}
    (h : provide os path scale minrate = .ok drp) :
    ∃ strdata vs, readCsv os path = .ok strdata ∧
      List.Forall₂ (RowHolds os (LoadParameters.mk minrate scale path).effective) strdata vs ∧
      vs ≠ [] ∧ drp.data = some vs ∧ drp.iter = none := by
  obtain ⟨-, strdata, ret, ret', hcsv, hconv, hret, rfl⟩ := provide_eq_ok_iff.mp h
  obtain ⟨vs, hvs, hne, hdata, hiter⟩ := data_of_convertDrpData hconv
  obtain ⟨data, -, hcomments⟩ := readDrpCommentPath_eq_ok_iff.mp hret
  have hkept := readComments_eq_ok hcomments
  refine ⟨strdata, vs, hcsv, hvs, hne, ?_, ?_⟩
  · rw [hkept]
    exact hdata
  · rw [hkept]
    exact hiter

/-- The value of the first row of a file. -/
def firstValue (os : Os) (path : String) (scale minrate : F64) : Option F64 :=
  match readCsv os path with
  | .ok ([cell] :: _) => cellValue os ⟨minrate, scale, path⟩ cell
  | _ => none

/-- `ParseDRP` checks the scale, and changes the pattern only. -/
theorem parseDrp_eq_ok_iff {os : Os} {drp drp' : DbDataRatePattern} {path : String} :
    drp.parseDrp os path = .ok drp' ↔
      ¬ drp.initialScale.le (.fin 0) = true ∧
      ∃ p, provide os path drp.initialScale drp.intialMinRateKbits = .ok p ∧
        { drp with drPattern := p } = drp' := by
  rw [DbDataRatePattern.parseDrp, Except.ite_error_eq_ok, Except.map_eq_ok]

/-- A scale that `ParseDRP` accepts is used as it is. -/
theorem LoadParameters.effective_of_accepted {p : LoadParameters}
    (h : ¬ p.scale.le (.fin 0) = true) : p.effective = p := by
  rw [LoadParameters.effective, if_neg]
  intro h0
  apply h
  rw [h0]
  rfl

/-- A freshly loaded pattern stands at the value of the first row. -/
theorem peek_of_parseDrp {os : Os} {drp drp' : DbDataRatePattern} {path : String}
    (h : drp.parseDrp os path = .ok drp') :
    firstValue os path drp.initialScale drp.intialMinRateKbits = some drp'.peek := by
  obtain ⟨hscale, p, hp, rfl⟩ := parseDrp_eq_ok_iff.mp h
  obtain ⟨strdata, vs, hcsv, hvs, hne, hdata, hiter⟩ := data_of_provide hp
  have heffective : (LoadParameters.mk drp.intialMinRateKbits drp.initialScale path).effective =
      ⟨drp.intialMinRateKbits, drp.initialScale, path⟩ :=
    LoadParameters.effective_of_accepted hscale
  cases hvs with
  | nil => exact absurd rfl hne
  | @cons row v rows vs hrow _ =>
    obtain ⟨cell, rfl, hv⟩ := hrow
    rw [heffective] at hv
    rw [firstValue, hcsv]
    simp [hv, DbDataRatePattern.peek, DataRatePattern.iterator, hiter, hdata,
      DataRatePatternIterator.updateAndReset, readIndex]

end Jens
