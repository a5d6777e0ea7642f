import Mathlib.Data.Nat.Basic
import Mathlib.Tactic.Common
import Mathlib.Tactic.Ring

/-!
# Little-endian byte lists

`leBytes w x` is the number `x` in `w` bytes, least significant first; what does not fit is dropped.
`leNat bs` is the number a byte list stands for.  `leNat_leBytes` says that reading back gives
`x mod 256^w`, so the encoding is exact below `256^w` (`leNat_leBytes_of_lt`).
-/

/-- The `w` low bytes of `x`, least significant first. -/
def leBytes : ℕ → ℕ → List UInt8
  | 0, _ => []
  | w + 1, x => UInt8.ofNat x :: leBytes w (x / 256)

/-- The number a little-endian byte list stands for. -/
def leNat : List UInt8 → ℕ
  | [] => 0
  | b :: bs => b.toNat + 256 * leNat bs

@[simp] theorem length_leBytes (w x : ℕ) : (leBytes w x).length = w := by
  induction w generalizing x with
  | zero => rfl
  | succ w ih => rw [leBytes, List.length_cons, ih]

theorem leNat_leBytes (w x : ℕ) : leNat (leBytes w x) = x % 256 ^ w := by
  induction w generalizing x with
  | zero => rw [leBytes, leNat, pow_zero, Nat.mod_one]
  | succ w ih =>
    rw [leBytes, leNat, ih, pow_succ', Nat.mod_mul, UInt8.toNat_ofNat']

theorem leNat_leBytes_of_lt {w x : ℕ} (h : x < 256 ^ w) : leNat (leBytes w x) = x := by
  rw [leNat_leBytes, Nat.mod_eq_of_lt h]

/-- Numbers that fit are told apart by their bytes. -/
theorem leBytes_inj {w x y : ℕ} (hx : x < 256 ^ w) (hy : y < 256 ^ w)
    (h : leBytes w x = leBytes w y) : x = y := by
  rw [← leNat_leBytes_of_lt hx, h, leNat_leBytes_of_lt hy]

/-- Blocks of one length are told apart from what they make together. -/
theorem flatMap_injective_of_length {α β : Type*} {f : α → List β} {n : ℕ} (hn : 0 < n)
    (hlen : ∀ a, (f a).length = n) (hinj : Function.Injective f) :
    Function.Injective fun blocks : List α => blocks.flatMap f := by
  have hne (a : α) (as : List α) : (a :: as).flatMap f ≠ [] := by
    intro hnil
    have hzero := congrArg List.length (List.append_eq_nil_iff.mp hnil).1
    rw [hlen, List.length_nil] at hzero
    omega
  intro as bs h
  induction as generalizing bs with
  | nil =>
    cases bs with
    | nil => rfl
    | cons b bs => exact absurd h.symm (hne b bs)
  | cons a as ih =>
    cases bs with
    | nil => exact absurd h (hne a as)
    | cons b bs =>
      obtain ⟨hhead, htail⟩ := List.append_inj h ((hlen a).trans (hlen b).symm)
      rw [hinj hhead, ih htail]
