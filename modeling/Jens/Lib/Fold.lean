import Mathlib.Algebra.BigOperators.Group.List.Basic
import Mathlib.Algebra.Order.BigOperators.Group.List
import Mathlib.Algebra.Order.Field.Rat
import Mathlib.Tactic.Common

/-!
# Running extremes and means

A loop that keeps the larger (the smaller) of a running value and the next element ends with the
start value or an element (`foldl_eq_or_mem`), which is related to all of them (`foldl_rel`).  The
mean of a list lies between its bounds (`le_mean`, `mean_le`).
-/

section Fold

variable {α : Type*} {op : α → α → α}

/-- An operation that returns one of its operands, folded over a list, returns the start or an
element. -/
theorem foldl_eq_or_mem (hop : ∀ a b, op a b = a ∨ op a b = b) (l : List α) (a : α) :
    l.foldl op a = a ∨ l.foldl op a ∈ l := by
  induction l generalizing a with
  | nil => exact .inl rfl
  | cons x l ih =>
    rw [List.foldl_cons]
    rcases ih (op a x) with h | h
    · rw [h]
      rcases hop a x with hx | hx
      · exact .inl hx
      · exact .inr (hx.symm ▸ List.mem_cons_self)
    · exact .inr (List.mem_cons_of_mem x h)

/-- If the result of the operation is related to both operands, that of the fold is related to the
start and to all the elements. -/
theorem foldl_rel {r : α → α → Prop} (hrefl : ∀ a, r a a) (htrans : ∀ a b c, r a b → r b c → r a c)
    (hleft : ∀ a b, r (op a b) a) (hright : ∀ a b, r (op a b) b) (l : List α) (a : α) :
    r (l.foldl op a) a ∧ ∀ x ∈ l, r (l.foldl op a) x := by
  induction l generalizing a with
  | nil => exact ⟨hrefl a, fun x hx => absurd hx List.not_mem_nil⟩
  | cons y l ih =>
    obtain ⟨hstart, hall⟩ := ih (op a y)
    refine ⟨htrans _ _ _ hstart (hleft a y), fun x hx => ?_⟩
    rcases List.mem_cons.mp hx with rfl | hx
    · exact htrans _ _ _ hstart (hright a x)
    · exact hall x hx

end Fold

section Mean

variable {l : List ℚ}

theorem le_mean {b : ℚ} (hl : l ≠ []) (h : ∀ x ∈ l, b ≤ x) : b ≤ l.sum / l.length := by
  have hpos : (0 : ℚ) < l.length := Nat.cast_pos.mpr (List.length_pos_iff.mpr hl)
  rw [le_div_iff₀ hpos]
  calc b * l.length = l.length • b := by rw [nsmul_eq_mul, mul_comm]
    _ ≤ l.sum := List.card_nsmul_le_sum l b h

theorem mean_le {b : ℚ} (hl : l ≠ []) (h : ∀ x ∈ l, x ≤ b) : l.sum / l.length ≤ b := by
  have hpos : (0 : ℚ) < l.length := Nat.cast_pos.mpr (List.length_pos_iff.mpr hl)
  rw [div_le_iff₀ hpos]
  calc l.sum ≤ l.length • b := List.sum_le_card_nsmul l b h
    _ = b * l.length := by rw [nsmul_eq_mul, mul_comm]

end Mean
