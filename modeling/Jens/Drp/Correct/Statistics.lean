import Jens.Drp.Correct.PatternProvider
import Jens.Lib.Fold
import Mathlib.Tactic.Linarith

/-!
# The statistics of a loaded pattern

`convertDRPdata` keeps a running minimum, maximum and sum of the values.  When they are all finite
these are the minimum, the maximum and the mean of the data; but the parser of numbers accepts `NaN`
and the infinities, and no check catches them, so a pattern that loads need not be one that can be
played (`sane_iff`).

The arithmetic is that of the rationals (`Os.exact`).  A product is never too large for them, where
the machine would have an infinity; that some value is at most `MaxFloat64`, the start of the
minimum, is a condition here.
-/

namespace Jens

/-- `MaxFloat64` as a rational. -/
def maxRat : ℚ := (2 - 1 / 2 ^ 52) * 2 ^ 1023

/-- The numbers in the cells. -/
def rawValues (os : Os) (strdata : List (List String)) : List F64 :=
  (strdata.flatten.filterMap os.parseFloat).map F64.ofBits

/-- The pattern has the values `qs` of the rows, and their statistics are `lo`, `hi` and the mean.
-/
structure HasStatistics (os : Os) (strdata : List (List String)) (p : LoadParameters)
    (drp : DataRatePattern) (qs : List ℚ) (lo hi : ℚ) : Prop where
  values : List.Forall₂ (RowHolds os p) strdata (qs.map .fin)
  data : drp.data = some (qs.map .fin)
  length : drp.length = strdata.length ∧ qs.length = strdata.length
  min : drp.min = .fin lo ∧ lo ∈ qs ∧ ∀ q ∈ qs, lo ≤ q
  max : drp.max = .fin hi ∧ hi ∈ qs ∧ ∀ q ∈ qs, q ≤ hi
  avg : drp.avg = .fin (qs.sum / qs.length) ∧ lo ≤ qs.sum / qs.length ∧ qs.sum / qs.length ≤ hi

/-- **A pattern that is sane**: every value is a finite number, and the statistics are right. -/
def PatternSane (os : Os) (strdata : List (List String)) (p : LoadParameters)
    (drp : DataRatePattern) : Prop := ∃ qs lo hi, HasStatistics os strdata p drp qs lo hi

/-- What makes a pattern sane: a finite minimum rate; no cell that is `NaN` or `+∞` (or not negative
where the scale is `+∞`); and some value within the range of the machine. -/
structure CellsFinite (os : Os) (strdata : List (List String)) (p : LoadParameters) : Prop where
  minRate : p.minRateKbits ≠ .inf false
  cells : ∀ x ∈ rawValues os strdata,
    x ≠ .nan ∧ x ≠ .inf false ∧ (p.scale = .inf false → x.lt (.fin 0) = true)
  bounded : p.minRateKbits.le F64.maxFloat64 = true ∧
    ∃ x ∈ rawValues os strdata, (x.mul p.scale).le F64.maxFloat64 = true

/-! ### The statistics of finite values -/

theorem statistics_withValues (os : Os) (qs : List ℚ) (drp : DataRatePattern) {lo hi sum : ℚ}
    (hmin : drp.min = .fin lo) (hmax : drp.max = .fin hi) (havg : drp.avg = .fin sum) :
    ((qs.map F64.fin).foldl (withValue os.exact) drp).min = .fin (qs.foldl min lo) ∧
      ((qs.map F64.fin).foldl (withValue os.exact) drp).max = .fin (qs.foldl max hi) ∧
      ((qs.map F64.fin).foldl (withValue os.exact) drp).avg = .fin (sum + qs.sum) := by
  induction qs generalizing drp lo hi sum with
  | nil => exact ⟨hmin, hmax, by rw [List.sum_nil, add_zero]; exact havg⟩
  | cons q qs ih =>
    have hlo : (withValue os.exact drp (.fin q)).min = .fin (min lo q) := by
      simp only [withValue, hmin, F64.lt, decide_eq_true_eq]
      split_ifs with h
      · rw [min_eq_right h.le]
      · rw [min_eq_left (not_lt.mp h)]
    have hhi : (withValue os.exact drp (.fin q)).max = .fin (max hi q) := by
      simp only [withValue, hmax, F64.lt, decide_eq_true_eq]
      split_ifs with h
      · rw [max_eq_right h.le]
      · rw [max_eq_left (not_lt.mp h)]
    have hsum : (withValue os.exact drp (.fin q)).avg = .fin (sum + q) := by
      simp only [withValue, Os.exact_add, havg, F64.add]
    have hrest := ih (withValue os.exact drp (.fin q)) hlo hhi hsum
    rw [List.sum_cons, ← add_assoc]
    exact hrest

/-! ### The value of a cell -/

theorem values_of_rows {os : Os} {strdata : List (List String)} {p : LoadParameters} {vs : List F64}
    (h : List.Forall₂ (RowHolds os p) strdata vs) :
    vs = (rawValues os strdata).map (p.value os) := by
  induction h with
  | nil => rfl
  | @cons row v rows vs hrow _ ih =>
    obtain ⟨cell, rfl, hv⟩ := hrow
    obtain ⟨float, hparse, rfl⟩ := Option.map_eq_some_iff.mp hv
    have hraw : rawValues os ([cell] :: rows) = F64.ofBits float :: rawValues os rows := by
      simp [rawValues, hparse]
    rw [hraw, List.map_cons, ← ih]
    rfl

section Value

/-- Without rounding. -/
theorem value_exact (os : Os) (p : LoadParameters) (x : F64) :
    p.value os.exact x = F64.max (x.mul p.scale) p.minRateKbits := by
  rw [LoadParameters.value, Os.exact_mul]

variable {os : Os} {p : LoadParameters} (hscale : (F64.fin 0).lt p.scale = true)
  (hrate : (F64.fin 0).le p.minRateKbits = true)
include hrate

theorem value_eq_fin_iff {x : F64} {q : ℚ} :
    p.value os.exact x = .fin q ↔ ∃ m, p.minRateKbits = .fin m ∧
      (x.mul p.scale = .inf true ∧ q = m ∨ ∃ y, x.mul p.scale = .fin y ∧ q = max y m) := by
  rw [value_exact]
  exact F64.max_eq_fin_iff hrate

theorem value_nonneg {x : F64} {q : ℚ} (h : p.value os.exact x = .fin q) : 0 ≤ q := by
  obtain ⟨m, hm, hq⟩ := (value_eq_fin_iff hrate).mp h
  rw [hm] at hrate
  have hm0 : 0 ≤ m := by simpa [F64.le, F64.lt] using hrate
  rcases hq with ⟨-, rfl⟩ | ⟨y, -, rfl⟩
  · exact hm0
  · exact le_max_of_le_right hm0

theorem value_le_iff {x : F64} {q : ℚ} (h : p.value os.exact x = .fin q) :
    q ≤ maxRat ↔
      p.minRateKbits.le F64.maxFloat64 = true ∧ (x.mul p.scale).le F64.maxFloat64 = true := by
  have hle (a : ℚ) : (F64.fin a).le F64.maxFloat64 = true ↔ a ≤ maxRat := by
    change (!decide (maxRat < a)) = true ↔ _
    simp
  obtain ⟨m, hm, hq⟩ := (value_eq_fin_iff hrate).mp h
  rw [hm, hle]
  rcases hq with ⟨hx, rfl⟩ | ⟨y, hx, rfl⟩
  · have hinf : (F64.inf true).le F64.maxFloat64 = true := rfl
    rw [hx, hinf]
    simp
  · rw [hx, hle, max_le_iff, and_comm]

include hscale

theorem value_finite_iff {x : F64} :
    (∃ q, p.value os.exact x = .fin q) ↔ p.minRateKbits ≠ .inf false ∧
      x ≠ .nan ∧ x ≠ .inf false ∧ (p.scale = .inf false → x.lt (.fin 0) = true) := by
  rw [← F64.mul_finite_iff hscale]
  constructor
  · rintro ⟨q, hq⟩
    obtain ⟨m, hm, hx⟩ := (value_eq_fin_iff hrate).mp hq
    refine ⟨by simp [hm], ?_⟩
    rcases hx with ⟨hx, -⟩ | ⟨y, hx, -⟩
    · exact .inl hx
    · exact .inr ⟨y, hx⟩
  · rintro ⟨hne, hx⟩
    obtain ⟨m, hm⟩ : ∃ m, p.minRateKbits = .fin m := by
      cases hr : p.minRateKbits with
      | nan => rw [hr] at hrate; cases hrate
      | inf neg =>
        cases neg with
        | true => rw [hr] at hrate; cases hrate
        | false => exact absurd hr hne
      | fin m => exact ⟨m, rfl⟩
    rcases hx with hx | ⟨y, hx⟩
    · exact ⟨m, (value_eq_fin_iff hrate).mpr ⟨m, hm, .inl ⟨hx, rfl⟩⟩⟩
    · exact ⟨max y m, (value_eq_fin_iff hrate).mpr ⟨m, hm, .inr ⟨y, hx, rfl⟩⟩⟩

end Value

/-! ### When a pattern is sane -/

/-- A list of finite values is one of rationals. -/
theorem exists_map_fin {vs : List F64} (h : ∀ v ∈ vs, ∃ q, v = .fin q) :
    ∃ qs : List ℚ, vs = qs.map .fin := by
  induction vs with
  | nil => exact ⟨[], rfl⟩
  | cons v vs ih =>
    obtain ⟨q, rfl⟩ := h v List.mem_cons_self
    obtain ⟨qs, rfl⟩ := ih fun w hw => h w (List.mem_cons_of_mem _ hw)
    exact ⟨q :: qs, rfl⟩

/-- The running minimum is one of the values if one of them reaches down to its start. -/
theorem foldl_min_mem {qs : List ℚ} {a : ℚ} (h : ∃ q ∈ qs, q ≤ a) :
    qs.foldl min a ∈ qs ∧ ∀ q ∈ qs, qs.foldl min a ≤ q := by
  obtain ⟨hstart, hall⟩ := foldl_rel (r := (· ≤ ·)) le_refl (fun _ _ _ => le_trans)
    (fun a b => min_le_left a b) (fun a b => min_le_right a b) qs a
  refine ⟨?_, hall⟩
  rcases foldl_eq_or_mem (fun a b => min_choice a b) qs a with heq | hmem
  · obtain ⟨q, hq, hle⟩ := h
    have hge := hall q hq
    rw [heq] at hge ⊢
    rwa [le_antisymm hge hle]
  · exact hmem

/-- The running maximum is one of the values if they are above its start. -/
theorem foldl_max_mem {qs : List ℚ} {a : ℚ} (hne : qs ≠ []) (h : ∀ q ∈ qs, a < q) :
    qs.foldl max a ∈ qs ∧ ∀ q ∈ qs, q ≤ qs.foldl max a := by
  obtain ⟨-, hall⟩ := foldl_rel (r := (· ≥ ·)) le_refl (fun _ _ _ h h' => le_trans h' h)
    (fun a b => le_max_left a b) (fun a b => le_max_right a b) qs a
  refine ⟨?_, hall⟩
  rcases foldl_eq_or_mem (fun a b => max_choice a b) qs a with heq | hmem
  · obtain ⟨q, hq⟩ := List.exists_mem_of_ne_nil qs hne
    have hge : q ≤ qs.foldl max a := hall q hq
    rw [heq] at hge
    exact absurd (h q hq) (not_lt.mpr hge)
  · exact hmem

section Sane

variable {os : Os} {strdata : List (List String)} {p : LoadParameters} {drp : DataRatePattern}
  {qs : List ℚ} {sha256 : List UInt8}
  (hdrp : let total := (qs.map F64.fin).foldl (withValue os.exact) (startPattern p strdata.length)
    drp = { total with avg := os.exact.div total.avg (.fin total.length), sha256 := sha256 })
include hdrp

theorem min_of_finite : drp.min = .fin (qs.foldl min maxRat) := by
  have hmin : (startPattern p strdata.length).min = .fin maxRat := rfl
  have hstats := statistics_withValues os qs (startPattern p strdata.length) hmin rfl rfl
  rw [hdrp]
  exact hstats.1

/-- The statistics are right if one value reaches down to the start of the minimum. -/
theorem hasStatistics_of_finite (hvs : List.Forall₂ (RowHolds os.exact p) strdata (qs.map .fin))
    (hne : qs ≠ []) (hlow : ∃ q ∈ qs, q ≤ maxRat) (hpos : ∀ q ∈ qs, 0 ≤ q) :
    HasStatistics os.exact strdata p drp qs (qs.foldl min maxRat) (qs.foldl max (-1)) := by
  have hstart : (startPattern p strdata.length).min = .fin maxRat := rfl
  have hstats := statistics_withValues os qs (startPattern p strdata.length) hstart rfl rfl
  have hlen : qs.length = strdata.length := by simpa using hvs.length_eq.symm
  have hn : ((strdata.length : ℕ) : ℚ) ≠ 0 := by
    rw [← hlen, Nat.cast_ne_zero]
    exact (List.length_pos_iff.mpr hne).ne'
  have hmin := foldl_min_mem hlow
  have hmax := foldl_max_mem hne fun q hq => lt_of_lt_of_le (by norm_num : (-1 : ℚ) < 0) (hpos q hq)
  refine ⟨hvs, ?_, ⟨?_, hlen⟩, ⟨min_of_finite hdrp, hmin⟩, ⟨?_, hmax⟩, ?_, ?_, ?_⟩
  · rw [hdrp]
    dsimp only
    rw [data_withValues]
    rfl
  · rw [hdrp]
    exact length_withValues _ _ _
  · rw [hdrp]
    exact hstats.2.1
  · rw [hdrp]
    dsimp only
    rw [Os.exact_div, hstats.2.2, length_withValues, zero_add, hlen]
    exact if_pos hn
  · exact le_mean hne hmin.2
  · exact mean_le hne hmax.2

end Sane

/-- A positive scale is the one that is used. -/
theorem LoadParameters.effective_of_pos {p : LoadParameters}
    (hscale : (F64.fin 0).lt p.scale = true) : p.effective = p := by
  rw [LoadParameters.effective, if_neg]
  intro h0
  rw [h0] at hscale
  cases hscale

section Cells

variable {os : Os} {strdata : List (List String)} {p : LoadParameters} {qs : List ℚ}
  (hscale : (F64.fin 0).lt p.scale = true) (hrate : (F64.fin 0).le p.minRateKbits = true)
include hscale hrate

/-- The cells are finite if the values are and the running minimum ends at one of them. -/
theorem cellsFinite_of_values
    (hvals : qs.map F64.fin = (rawValues os strdata).map (p.value os.exact))
    (hmin : qs.foldl min maxRat ∈ qs) : CellsFinite os strdata p := by
  have hfin : ∀ x ∈ rawValues os strdata, ∃ q, p.value os.exact x = .fin q := by
    intro x hx
    have hxv : p.value os.exact x ∈ qs.map F64.fin := hvals ▸ List.mem_map_of_mem hx
    obtain ⟨q, -, hq⟩ := List.mem_map.mp hxv
    exact ⟨q, hq.symm⟩
  -- the minimum is a value, and it is not above its start
  have hle : qs.foldl min maxRat ≤ maxRat :=
    (foldl_rel (r := (· ≤ ·)) le_refl (fun _ _ _ => le_trans)
      (fun a b => min_le_left a b) (fun a b => min_le_right a b) qs maxRat).1
  obtain ⟨x, hx, hxmin⟩ :
      ∃ x ∈ rawValues os strdata, p.value os.exact x = .fin (qs.foldl min maxRat) := by
    rw [← List.mem_map, ← hvals]
    exact List.mem_map_of_mem hmin
  obtain ⟨hrateLe, hxLe⟩ := (value_le_iff hrate hxmin).mp hle
  exact ⟨((value_finite_iff hscale hrate).mp (hfin x hx)).1,
    fun y hy => ((value_finite_iff hscale hrate).mp (hfin y hy)).2, hrateLe, x, hx, hxLe⟩

/-- Finite cells give rational values, of which one reaches down to the start of the minimum. -/
theorem CellsFinite.exists_values (h : CellsFinite os strdata p) :
    ∃ qs : List ℚ, (rawValues os strdata).map (p.value os.exact) = qs.map F64.fin ∧
      (∃ q ∈ qs, q ≤ maxRat) ∧ ∀ q ∈ qs, 0 ≤ q := by
  obtain ⟨hminRate, hcells, hrateLe, x, hx, hxLe⟩ := h
  have hfin : ∀ y ∈ rawValues os strdata, ∃ q, p.value os.exact y = .fin q :=
    fun y hy => (value_finite_iff hscale hrate).mpr ⟨hminRate, hcells y hy⟩
  obtain ⟨qs, hqs⟩ :
      ∃ qs : List ℚ, (rawValues os strdata).map (p.value os.exact) = qs.map F64.fin := by
    apply exists_map_fin
    intro v hv
    obtain ⟨y, hy, rfl⟩ := List.mem_map.mp hv
    exact hfin y hy
  refine ⟨qs, hqs, ?_, fun q hq => ?_⟩
  · have hxv : p.value os.exact x ∈ qs.map F64.fin := hqs ▸ List.mem_map_of_mem hx
    obtain ⟨q, hq, hqx⟩ := List.mem_map.mp hxv
    exact ⟨q, hq, (value_le_iff hrate hqx.symm).mpr ⟨hrateLe, hxLe⟩⟩
  · have hqv : F64.fin q ∈ (rawValues os strdata).map (p.value os.exact) :=
      hqs ▸ List.mem_map_of_mem hq
    obtain ⟨y, -, hy⟩ := List.mem_map.mp hqv
    exact value_nonneg hrate hy

end Cells

/-- **When an accepted pattern is sane.**  With a positive scale and a minimum rate of 0 at least,
a pattern that loads has finite values and the right statistics exactly if the minimum rate and the
cells are what `CellsFinite` asks. -/
theorem sane_iff (os : Os) (strdata : List (List String)) (p : LoadParameters)
    (drp : DataRatePattern) (hscale : (F64.fin 0).lt p.scale = true)
    (hrate : (F64.fin 0).le p.minRateKbits = true)
    (h : convertDrpData os.exact strdata p = .ok drp) :
    PatternSane os.exact strdata p drp ↔ CellsFinite os strdata p := by
  obtain ⟨vs, sha256, hvs, hne, hdrp⟩ := convertDrpData_eq_ok h
  rw [LoadParameters.effective_of_pos hscale] at hvs hdrp
  have hvals := values_of_rows hvs
  constructor
  · rintro ⟨qs, lo, hi, hstat⟩
    have hqs := values_of_rows hstat.values
    obtain rfl : vs = qs.map .fin := hvals.trans hqs.symm
    obtain ⟨hlo, hloMem, -⟩ := hstat.min
    rw [min_of_finite hdrp] at hlo
    obtain rfl : qs.foldl min maxRat = lo := F64.fin.inj hlo
    exact cellsFinite_of_values hscale hrate hqs hloMem
  · intro hcells
    obtain ⟨qs, hqs, hlow, hpos⟩ := hcells.exists_values hscale hrate
    obtain rfl : vs = qs.map .fin := hvals.trans hqs
    have hqsNe : qs ≠ [] := fun h0 => hne (by rw [h0]; rfl)
    exact ⟨qs, _, _, hasStatistics_of_finite hdrp hvs hqsNe hlow hpos⟩

/-- A machine that can read the numbers 100 and `NaN`. -/
def floatsOs : Os where
  readFile _ := .error "no such file or directory"
  notExist _ := true
  interfaceByName _ := none
  csv _ := .ok []
  parseFloat cell :=
    if cell = "100" then some 0x4059000000000000
    else if cell = "NaN" then some 0x7ff8000000000001
    else none
  parseJson _ := .error "EOF"
  render _ := []
  md5 bytes := bytes.take 16
  round := .fin

/-- A pattern of one value. -/
theorem sane_iff_hundred :
    ∃ drp, convertDrpData floatsOs [["100"]] ⟨.fin 0, .fin 1, "saw.csv"⟩ = .ok drp ∧
      (PatternSane floatsOs [["100"]] ⟨.fin 0, .fin 1, "saw.csv"⟩ drp ↔
        CellsFinite floatsOs [["100"]] ⟨.fin 0, .fin 1, "saw.csv"⟩) :=
  ⟨_, rfl, sane_iff floatsOs [["100"]] ⟨.fin 0, .fin 1, "saw.csv"⟩ _ rfl rfl rfl⟩

/-- **A pattern with `NaN`.**  The row is accepted; the data has the `NaN`, which the minimum and
the maximum pass over and the mean takes on. -/
theorem nan_accepted :
    ∃ drp, convertDrpData floatsOs [["100"], ["NaN"]] ⟨.fin 0, .fin 1, "saw.csv"⟩ = .ok drp ∧
      drp.data = some [.fin 100, .nan] ∧ drp.min = .fin 100 ∧ drp.max = .fin 100 ∧
      drp.avg = .nan ∧
      ¬ PatternSane floatsOs [["100"], ["NaN"]] ⟨.fin 0, .fin 1, "saw.csv"⟩ drp := by
  have hloads :
      ∃ drp, convertDrpData floatsOs [["100"], ["NaN"]] ⟨.fin 0, .fin 1, "saw.csv"⟩ = .ok drp ∧
        drp.data = some [.fin 100, .nan] ∧ drp.min = .fin 100 ∧ drp.max = .fin 100 ∧
        drp.avg = .nan :=
    ⟨_, rfl, by decide +kernel, by decide +kernel, by decide +kernel, by decide +kernel⟩
  obtain ⟨drp, hok, hdata, hmin, hmax, havg⟩ := hloads
  refine ⟨drp, hok, hdata, hmin, hmax, havg, ?_⟩
  rintro ⟨qs, lo, hi, hstat⟩
  have hmean := hstat.avg.1
  rw [havg] at hmean
  cases hmean

end Jens
