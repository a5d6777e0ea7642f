import Mathlib.Data.Int.Notation
import Mathlib.Logic.Function.Basic
import Mathlib.Tactic.Common

/-!
# Fields of a text and the separators between them

A text is taken as the list of its characters.  Splitting it at a separator gives the fields back as
long as none of them contains the separator, and the decimal digits of a number contain none.  The
first and the last field of any list are what stands before the first separator and after the last.
The digits of a number name it (`toString_nat_inj`, `toString_int_inj`).
-/

namespace Text

section Fields

variable {α : Type*} [BEq α] [LawfulBEq α] {c : α} {s a b : List α}

theorem headD_splitOn (ha : c ∉ a) : ((a ++ c :: b).splitOn c).headD [] = a := by
  rw [List.splitOn_append_cons_self_of_not_mem ha]
  rfl

theorem getLastD_splitOn (hb : c ∉ b) : ((a ++ c :: b).splitOn c).getLastD [] = b := by
  rw [List.splitOn_append_cons_self, List.splitOn_eq_singleton hb, List.getLastD_concat]

/-- The first separator of a text stands where it stands. -/
theorem first_unique {a' b' : List α} (h : a ++ c :: b = a' ++ c :: b') (ha : c ∉ a)
    (ha' : c ∉ a') : a = a' ∧ b = b' := by
  have hhead : a = a' := by
    have hsplit := congrArg (fun s : List α => (s.splitOn c).headD []) h
    rwa [headD_splitOn ha, headD_splitOn ha'] at hsplit
  subst hhead
  exact ⟨rfl, (List.cons.inj (List.append_cancel_left h)).2⟩

/-- The first field contains no separator. -/
theorem notMem_headD_splitOn (c : α) (s : List α) : c ∉ (s.splitOn c).headD [] := by
  by_cases hc : c ∈ s
  · obtain ⟨a, b, rfl, ha⟩ := List.eq_append_cons_of_mem hc
    rwa [headD_splitOn ha]
  · rwa [List.splitOn_eq_singleton hc]

/-- The last field is empty just if the last element is a separator, or if there is none. -/
theorem getLastD_splitOn_eq_nil_iff :
    (s.splitOn c).getLastD [] = [] ↔ s = [] ∨ s.getLast? = some c := by
  by_cases hc : c ∈ s
  · obtain ⟨a, b, hs, ha⟩ := List.eq_append_cons_of_mem (List.mem_reverse.mpr hc)
    have hb : c ∉ a.reverse := fun h => ha (List.mem_reverse.mp h)
    have hsplit : s = b.reverse ++ c :: a.reverse := by
      rw [← List.reverse_reverse s, hs]
      simp
    have hlast : s.getLast? = some (a.head?.getD c) := by
      rw [← List.head?_reverse, hs]
      cases a <;> rfl
    rw [hlast, hsplit, getLastD_splitOn hb]
    cases a with
    | nil => simp
    | cons x a =>
      have hx : x ≠ c := fun h => ha (h ▸ List.mem_cons_self)
      simp [hx]
  · rw [List.splitOn_eq_singleton hc, List.getLastD_cons]
    constructor
    · intro h
      exact .inl h
    · rintro (h | h)
      · exact h
      · exact absurd (List.mem_of_getLast? h) hc

end Fields

variable {c : Char} {a b : List Char}

/-- Two fields. -/
theorem splitOn_pair (ha : c ∉ a) (hb : c ∉ b) : (a ++ c :: b).splitOn c = [a, b] := by
  rw [List.splitOn_append_cons_self_of_not_mem ha, List.splitOn_eq_singleton hb]

/-- Two fields can be told from the text they make. -/
theorem pair_inj {a' b' : List Char} (ha : c ∉ a) (ha' : c ∉ a') (hb : c ∉ b) (hb' : c ∉ b')
    (h : a ++ c :: b = a' ++ c :: b') : a = a' ∧ b = b' := by
  have hsplit := congrArg (List.splitOn c) h
  rw [splitOn_pair ha hb, splitOn_pair ha' hb'] at hsplit
  simpa using hsplit

/-- A separator is not among the digits of a number. -/
theorem notMem_toDigits (hc : c.isDigit = false) (n : ℕ) : c ∉ Nat.toDigits 10 n := by
  intro hmem
  rw [Nat.isDigit_of_mem_toDigits (by decide) (by decide) hmem] at hc
  cases hc

theorem toList_toString_nat (n : ℕ) : (toString n).toList = Nat.toDigits 10 n := by
  rw [Nat.toString_eq_repr, Nat.toList_repr]

theorem notMem_toString_nat (hc : c.isDigit = false) (n : ℕ) : c ∉ (toString n).toList := by
  rw [toList_toString_nat]
  exact notMem_toDigits hc n

theorem toDigits_injective : Function.Injective (Nat.toDigits 10) :=
  Function.LeftInverse.injective (g := fun cs => Nat.ofDigitChars 10 cs 0)
    fun _ => Nat.ofDigitChars_toDigits (by decide) (by decide)

theorem toString_nat_inj {m n : ℕ} (h : (toString m).toList = (toString n).toList) : m = n := by
  rw [toList_toString_nat, toList_toString_nat] at h
  exact toDigits_injective h

end Text
