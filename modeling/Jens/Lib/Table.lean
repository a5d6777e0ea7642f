import Mathlib.Data.List.Perm.Basic
import Mathlib.Data.Multiset.Bind
import Mathlib.Tactic.Common

/-!
# A list in a table

`columns r c l` has the entries of a list in `c` columns of `r` cells each, from the top to the
bottom and from the left to the right: entry `i` stands in column `i / r` and line `i % r`.  An
entry that is appended to the list goes to the next cell (`columns_concat`), and to read the table
line by line is to read the list in another order (`flatMap_line_perm`).
-/

namespace Table

variable {α : Type*} {r c : ℕ} {l : List α}

/-- Column `i` of a table of `r` lines. -/
def column (r : ℕ) (l : List α) (i : ℕ) : List (Option α) :=
  (List.range r).map fun j => l[i * r + j]?

/-- A table of `c` columns. -/
def columns (r c : ℕ) (l : List α) : List (List (Option α)) := (List.range c).map (column r l)

/-- The entries of line `j`. -/
def line (r c : ℕ) (l : List α) (j : ℕ) : List α :=
  (List.range c).filterMap fun i => l[i * r + j]?

@[simp] theorem length_column (i : ℕ) : (column r l i).length = r := by simp [column]

@[simp] theorem length_columns : (columns r c l).length = c := by simp [columns]

theorem getElem?_column {j : ℕ} (h : j < r) (i : ℕ) :
    (column r l i)[j]? = some l[i * r + j]? := by
  simp [column, List.getElem?_range h]

theorem getElem?_columns {i : ℕ} (h : i < c) : (columns r c l)[i]? = some (column r l i) := by
  simp [columns, List.getElem?_range h]

theorem columns_nil : columns r c ([] : List α) = List.replicate c (List.replicate r none) := by
  have hcolumn : column r ([] : List α) = fun _ => List.replicate r none := by
    funext i
    simp [column]
  simp [columns, hcolumn]

/-- The cell of an index. -/
theorem cell_eq_iff {i j n : ℕ} (hj : j < r) : i * r + j = n ↔ i = n / r ∧ j = n % r := by
  constructor
  · rintro rfl
    have hr : 0 < r := Nat.zero_lt_of_lt hj
    rw [Nat.mul_comm, Nat.mul_add_div hr, Nat.div_eq_of_lt hj, Nat.add_zero, Nat.mul_add_mod,
      Nat.mod_eq_of_lt hj]
    exact ⟨rfl, rfl⟩
  · rintro ⟨rfl, rfl⟩
    rw [Nat.mul_comm]
    exact Nat.div_add_mod n r

theorem getElem?_concat (l : List α) (x : α) (n : ℕ) :
    (l ++ [x])[n]? = if n = l.length then some x else l[n]? := by
  split_ifs with h
  · rw [h, List.getElem?_concat_length]
  · rcases Nat.lt_or_gt_of_ne h with h | h
    · rw [List.getElem?_append_left h]
    · rw [List.getElem?_eq_none (by simp; omega), List.getElem?_eq_none (by omega)]

/-- An entry that is appended goes to the next cell. -/
theorem columns_concat (x : α) :
    columns r c (l ++ [x]) = (columns r c l).set (l.length / r)
      ((column r l (l.length / r)).set (l.length % r) (some x)) := by
  refine List.ext_getElem? fun i => ?_
  rw [List.getElem?_set]
  rcases Nat.lt_or_ge i c with hi | hi
  · have hcolumn : column r (l ++ [x]) i = if l.length / r = i then
        (column r l (l.length / r)).set (l.length % r) (some x) else column r l i := by
      refine List.ext_getElem? fun j => ?_
      rcases Nat.lt_or_ge j r with hj | hj
      · rw [getElem?_column hj, getElem?_concat]
        split_ifs with hn hcol hcol
        · obtain ⟨rfl, rfl⟩ := (cell_eq_iff hj).mp hn
          simp [hj]
        · exact absurd ((cell_eq_iff hj).mp hn).1.symm hcol
        · subst hcol
          have hne : l.length % r ≠ j := fun h => hn ((cell_eq_iff hj).mpr ⟨rfl, h.symm⟩)
          rw [List.getElem?_set_ne hne, getElem?_column hj]
        · rw [getElem?_column hj]
      · rw [List.getElem?_eq_none (by simpa using hj), List.getElem?_eq_none]
        split_ifs <;> simpa using hj
    rw [getElem?_columns hi, hcolumn]
    split_ifs with hcol hlt
    · rfl
    · exact absurd (by simpa [hcol] using hi) hlt
    · rw [getElem?_columns hi]
  · rw [List.getElem?_eq_none (by simpa using hi)]
    split_ifs with hcol hlt
    · rw [length_columns] at hlt
      omega
    · rfl
    · rw [List.getElem?_eq_none (by simpa using hi)]

/-! ### Reading -/

theorem range_mul (r c : ℕ) :
    List.range (c * r) = (List.range c).flatMap fun i => (List.range r).map fun j => i * r + j := by
  induction c with
  | zero => simp
  | succ c ih =>
    rw [Nat.succ_mul, List.range_add, ih, List.range_succ, List.flatMap_append,
      List.flatMap_singleton]

/-- A list is what its places hold. -/
theorem filterMap_getElem? {n : ℕ} (h : l.length ≤ n) :
    (List.range n).filterMap (fun i => l[i]?) = l := by
  induction l generalizing n with
  | nil => simp
  | cons x l ih =>
    obtain ⟨n, rfl⟩ : ∃ m, n = m + 1 := ⟨n - 1, by simp at h; omega⟩
    have hrest : (List.range n).filterMap (fun i => l[i]?) = l := ih (by simpa using h)
    rw [List.range_succ_eq_map, List.filterMap_cons, List.filterMap_map]
    simpa [Function.comp_def] using hrest

/-- **To read the lines of a table is to read the list, in another order.** -/
theorem flatMap_line_perm (h : l.length ≤ c * r) :
    ((List.range r).flatMap (line r c l)).Perm l := by
  have hcols : (List.range c).flatMap (fun i => (List.range r).flatMap fun j =>
      l[i * r + j]?.toList) = l := by
    conv_rhs => rw [← filterMap_getElem? h, List.filterMap_eq_flatMap_toList, range_mul,
      List.flatMap_assoc]
    simp only [List.flatMap_map]
  have hswap := Multiset.bind_bind (List.range r : Multiset ℕ) (List.range c : Multiset ℕ)
    (f := fun j i => (l[i * r + j]?.toList : Multiset α))
  simp only [Multiset.coe_bind, hcols] at hswap
  have hline : line r c l = fun j => (List.range c).flatMap fun i => l[i * r + j]?.toList :=
    funext fun j => List.filterMap_eq_flatMap_toList _ _
  rw [hline, ← Multiset.coe_eq_coe]
  exact hswap

end Table
