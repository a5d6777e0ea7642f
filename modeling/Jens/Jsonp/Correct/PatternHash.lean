import Jens.Drp.Correct.PatternProvider
import Jens.Jsonp.BenchmarkDefinition

/-!
# The hash of a pattern

What is hashed are the numbers of the rows as they are read, eight bytes each, before they are
scaled and raised to the minimum rate.  So the hash names the numbers (`sha256_eq_iff`), and a file
has one hash however it is loaded (`provide_sha256`); the hash a benchmark checks is that one
(`patternHash`).
-/

namespace Jens

/-- The numbers in the cells, bit by bit. -/
def rawBits (os : Os) (strdata : List (List String)) : List UInt64 :=
  strdata.flatten.filterMap os.parseFloat

theorem rawBits_of_rows {os : Os} {strdata : List (List String)} {floats : List UInt64}
    (h : List.Forall₂ (RowBits os) strdata floats) : rawBits os strdata = floats := by
  induction h with
  | nil => rfl
  | @cons row float rows floats hrow _ ih =>
    obtain ⟨cell, rfl, hcell⟩ := hrow
    have hcons : rawBits os ([cell] :: rows) = float :: rawBits os rows := by
      simp [rawBits, hcell]
    rw [hcons, ih]

theorem hashBytes_injective : Function.Injective hashBytes := by
  apply flatMap_injective_of_length (n := 8) (by omega) (fun _ => length_leBytes 8 _)
  intro x y h
  exact UInt64.toNat_inj.mp (leBytes_inj x.toNat_lt y.toNat_lt h)

theorem sha256_of_convertDrpData {os : Os} {strdata : List (List String)} {p : LoadParameters}
    {drp : DataRatePattern} (h : convertDrpData os strdata p = .ok drp) :
    drp.sha256 = os.md5 (hashBytes (rawBits os strdata)) := by
  obtain ⟨floats, hfloats, -, rfl⟩ := convertDrpData_eq_ok_iff.mp h
  rw [rawBits_of_rows hfloats]
  rfl

/-- Two patterns have one hash just if the numbers of their rows are the same. -/
theorem sha256_eq_iff {os : Os} (hmd5 : Function.Injective os.md5)
    {strdata₁ strdata₂ : List (List String)} {p₁ p₂ : LoadParameters}
    {drp₁ drp₂ : DataRatePattern} (h₁ : convertDrpData os strdata₁ p₁ = .ok drp₁)
    (h₂ : convertDrpData os strdata₂ p₂ = .ok drp₂) :
    drp₁.sha256 = drp₂.sha256 ↔ rawBits os strdata₁ = rawBits os strdata₂ := by
  rw [sha256_of_convertDrpData h₁, sha256_of_convertDrpData h₂, hmd5.eq_iff,
    hashBytes_injective.eq_iff]

/-! ### The same file with other parameters -/

/-- Rows that load do so with any parameters. -/
theorem exists_convertDrpData {os : Os} {strdata : List (List String)} {p : LoadParameters}
    {drp : DataRatePattern} (h : convertDrpData os strdata p = .ok drp) (p' : LoadParameters) :
    ∃ drp', convertDrpData os strdata p' = .ok drp' := by
  obtain ⟨floats, hfloats, hne, -⟩ := convertDrpData_eq_ok_iff.mp h
  exact ⟨_, convertDrpData_eq_ok_iff.mpr ⟨floats, hfloats, hne, rfl⟩⟩

/-- So do the comments. -/
theorem exists_readDrpCommentPath {os : Os} {path : String} {drp drp' : DataRatePattern}
    (h : readDrpCommentPath os path drp = .ok drp') (other : DataRatePattern) :
    ∃ other', readDrpCommentPath os path other = .ok other' := by
  obtain ⟨data, hdata, hread⟩ := readDrpCommentPath_eq_ok_iff.mp h
  rw [readComments_eq, walkLines_eq_ok_iff] at hread
  have hother : walkLines { other with mapping := [], description := "" }
      (headerLines (data.toList.splitOn '\n')) = .ok _ :=
    walkLines_eq_ok_iff.mpr ⟨hread.1, rfl⟩
  rw [← readComments_eq] at hother
  exact ⟨_, readDrpCommentPath_eq_ok_iff.mpr ⟨data, hdata, hother⟩⟩

theorem sha256_of_readDrpCommentPath {os : Os} {path : String} {drp drp' : DataRatePattern}
    (h : readDrpCommentPath os path drp = .ok drp') : drp'.sha256 = drp.sha256 := by
  obtain ⟨data, -, hread⟩ := readDrpCommentPath_eq_ok_iff.mp h
  rw [readComments_eq_ok hread]

/-- **A file has one hash**, whatever the scale and the minimum rate. -/
theorem provide_sha256 {os : Os} {path : String} {scale minrate : F64} {drp : DataRatePattern}
    (h : provide os path scale minrate = .ok drp) (scale' minrate' : F64) :
    ∃ drp', provide os path scale' minrate' = .ok drp' ∧ drp'.sha256 = drp.sha256 := by
  obtain ⟨hpath, strdata, ret, ret', hcsv, hconv, hret, rfl⟩ := provide_eq_ok_iff.mp h
  obtain ⟨other, hother⟩ := exists_convertDrpData hconv ⟨minrate', scale', path⟩
  obtain ⟨other', hother'⟩ := exists_readDrpCommentPath hret other
  refine ⟨_, provide_eq_ok_iff.mpr ⟨hpath, strdata, other, other', hcsv, hother, hother', rfl⟩, ?_⟩
  calc other'.sha256 = other.sha256 := sha256_of_readDrpCommentPath hother'
    _ = os.md5 (hashBytes (rawBits os strdata)) := sha256_of_convertDrpData hother
    _ = ret.sha256 := (sha256_of_convertDrpData hconv).symm
    _ = ret'.sha256 := (sha256_of_readDrpCommentPath hret).symm

/-- The hash of the pattern a benchmark loads to check its file is the one of the file. -/
theorem loadPattern_sha256 {os : Os} {bp : BenchmarkPattern} {pattern : DbDataRatePattern}
    (h : bp.loadPattern os = .ok pattern) (scale minrate : F64) :
    ∃ drp, provide os bp.path scale minrate = .ok drp ∧
      drp.sha256 = pattern.drPattern.sha256 := by
  rw [BenchmarkPattern.loadPattern, Except.ite_error_eq_ok] at h
  obtain ⟨-, p, hp, rfl⟩ := parseDrp_eq_ok_iff.mp h.2
  exact provide_sha256 hp scale minrate

/-- **The hash of a pattern names the numbers of its rows**, and nothing else: neither the scale nor
the minimum rate has a part in it, in a benchmark or anywhere else. -/
theorem patternHash (os : Os) (hmd5 : Function.Injective os.md5) :
    (∀ strdata₁ strdata₂ p₁ p₂ drp₁ drp₂, convertDrpData os strdata₁ p₁ = .ok drp₁ →
      convertDrpData os strdata₂ p₂ = .ok drp₂ →
      (drp₁.sha256 = drp₂.sha256 ↔ rawBits os strdata₁ = rawBits os strdata₂)) ∧
    ∀ (bp : BenchmarkPattern) pattern, bp.loadPattern os = .ok pattern → ∀ scale minrate,
      ∃ drp, provide os bp.path scale minrate = .ok drp ∧
        drp.sha256 = pattern.drPattern.sha256 :=
  ⟨fun _ _ _ _ _ _ h₁ h₂ => sha256_eq_iff hmd5 h₁ h₂,
    fun _ _ h scale minrate => loadPattern_sha256 h scale minrate⟩

/-- A file of one row, loaded with two scales and by a benchmark; the digest is the text itself. -/
theorem patternHash_oneRow :
    ∃ drp₁ drp₂ pattern drp,
      convertDrpData (headerOs "100\n") [["100"]] ⟨.fin 0, .fin 1, "p.csv"⟩ = .ok drp₁ ∧
      convertDrpData (headerOs "100\n") [["100"]] ⟨.fin 500, .fin 2, "p.csv"⟩ = .ok drp₂ ∧
      drp₁.sha256 = drp₂.sha256 ∧
      BenchmarkPattern.loadPattern (headerOs "100\n") { path := "p.csv" } = .ok pattern ∧
      provide (headerOs "100\n") "p.csv" (.fin 2) (.fin 500) = .ok drp ∧
      drp.sha256 = pattern.drPattern.sha256 := by
  obtain ⟨hrows, hfile⟩ := patternHash (headerOs "100\n") fun _ _ h => h
  obtain ⟨pattern, hpattern, -⟩ := Except.exists_ok_of_any
    (x := BenchmarkPattern.loadPattern (headerOs "100\n") { path := "p.csv" }) (p := fun _ => true)
    (by decide +kernel)
  obtain ⟨drp, hdrp, hsame⟩ := hfile { path := "p.csv" } pattern hpattern (.fin 2) (.fin 500)
  exact ⟨_, _, pattern, drp, rfl, rfl, (hrows [["100"]] [["100"]] ⟨.fin 0, .fin 1, "p.csv"⟩
    ⟨.fin 500, .fin 2, "p.csv"⟩ _ _ rfl rfl).mpr rfl, hpattern, hdrp, hsame⟩

end Jens
