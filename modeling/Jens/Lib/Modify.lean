import Mathlib.Algebra.BigOperators.Group.List.Basic
import Mathlib.Algebra.Order.Ring.Nat
import Mathlib.Data.List.Perm.Basic
import Mathlib.Tactic.Common

/-!
# One element of a list changes, or is added

What `List.modify` does to the elements of a list, to a view of them (`map`), to a selection of them
(`filterMap`) and, as `List.set` and `List.eraseIdx` do, to a sum over them.
-/

namespace List

variable {α β : Type*} {f : α → α} {g : α → Option β} {xs : List α} {j : ℕ} {a : α}

theorem getElem?_concat_eq_some {i : ℕ} {b : α} (h : (xs ++ [a])[i]? = some b) :
    xs[i]? = some b ∨ i = xs.length ∧ b = a := by
  rcases Nat.lt_trichotomy i xs.length with hlt | heq | hgt
  · rw [List.getElem?_append_left hlt] at h
    exact .inl h
  · rw [heq, List.getElem?_concat_length] at h
    exact .inr ⟨heq, (Option.some.inj h).symm⟩
  · have hnone : (xs ++ [a])[i]? = none := by
      rw [List.getElem?_eq_none_iff, List.length_append, List.length_singleton]
      omega
    rw [hnone] at h
    cases h

theorem mem_or_eq_of_mem_modify (h : xs[j]? = some a) {b : α} (hb : b ∈ xs.modify j f) :
    b ∈ xs ∨ b = f a := by
  obtain ⟨k, hk⟩ := List.mem_iff_getElem?.mp hb
  by_cases hjk : j = k
  · have hnew : f a = b := by simpa [← hjk, h] using hk
    exact .inr hnew.symm
  · have hold : xs[k]? = some b := by simpa [List.getElem?_modify, hjk] using hk
    exact .inl (List.mem_of_getElem? hold)

/-- A view of the elements that the change does not alter. -/
theorem map_modify_of_eq {proj : α → β} (h : ∀ a, proj (f a) = proj a) (xs : List α) (j : ℕ) :
    (xs.modify j f).map proj = xs.map proj := by
  refine List.ext_getElem? fun k => ?_
  rw [List.getElem?_map, List.getElem?_map, List.getElem?_modify]
  cases xs[k]? with
  | none => rfl
  | some a => by_cases hjk : j = k <;> simp [hjk, h]

/-- The list around the element. -/
theorem exists_eq_append_of_getElem? (h : xs[j]? = some a) :
    ∃ l r, xs = l ++ a :: r ∧ xs.modify j f = l ++ f a :: r := by
  obtain ⟨hlt, ha⟩ := List.getElem?_eq_some_iff.mp h
  obtain ⟨l, b, r, hxs, hl, hmod⟩ := List.exists_of_modify f hlt
  have hb : b = a := by
    simp only [← ha, hxs, ← hl]
    simp
  rw [hb] at hxs hmod
  exact ⟨l, r, hxs, hmod⟩

/-- A change that the selection does not see. -/
theorem filterMap_modify_of_eq (h : xs[j]? = some a) (heq : g (f a) = g a) :
    (xs.modify j f).filterMap g = xs.filterMap g := by
  obtain ⟨l, r, hxs, hmod⟩ := exists_eq_append_of_getElem? (f := f) h
  rw [hmod, hxs, List.filterMap_append, List.filterMap_append, List.filterMap_cons,
    List.filterMap_cons, heq]

/-- A change by which the element is selected. -/
theorem perm_filterMap_modify (h : xs[j]? = some a) {b : β} (hold : g a = none)
    (hnew : g (f a) = some b) : ((xs.modify j f).filterMap g).Perm (xs.filterMap g ++ [b]) := by
  obtain ⟨l, r, hxs, hmod⟩ := exists_eq_append_of_getElem? (f := f) h
  rw [hmod, hxs, List.filterMap_append, List.filterMap_append, List.filterMap_cons_some hnew,
    List.filterMap_cons_none hold, List.append_assoc]
  exact List.Perm.append_left _ (List.perm_append_singleton b _).symm

/-! ### Sums -/

theorem sum_map_eraseIdx (h : xs[j]? = some a) (f : α → ℕ) :
    ((xs.eraseIdx j).map f).sum + f a = (xs.map f).sum := by
  obtain ⟨hlt, rfl⟩ := List.getElem?_eq_some_iff.mp h
  have hperm := (List.getElem_cons_eraseIdx_perm hlt).map f
  rw [← hperm.sum_eq, List.map_cons, List.sum_cons, Nat.add_comm]

theorem sum_map_set (h : xs[j]? = some a) (f : α → ℕ) (b : α) :
    ((xs.set j b).map f).sum + f a = (xs.map f).sum + f b := by
  obtain ⟨hlt, -⟩ := List.getElem?_eq_some_iff.mp h
  have hperm := (List.set_perm_cons_eraseIdx hlt b).map f
  rw [hperm.sum_eq, List.map_cons, List.sum_cons, ← sum_map_eraseIdx h f]
  omega

theorem sum_map_modify (h : xs[j]? = some a) (f : α → α) (g : α → ℕ) :
    ((xs.modify j f).map g).sum + g a = (xs.map g).sum + g (f a) := by
  obtain ⟨l, r, hxs, hmod⟩ := exists_eq_append_of_getElem? (f := f) h
  rw [hmod, hxs, List.map_append, List.map_append, List.sum_append, List.sum_append, List.map_cons,
    List.map_cons, List.sum_cons, List.sum_cons]
  omega

end List
