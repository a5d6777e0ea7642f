import Jens.Lib.Text
import Mathlib.Data.Int.Notation
import Mathlib.Tactic.Positivity

/-!
# `strings` and `strconv`

`split` is `strings.Split` at one character, and `parseInt` is `strconv.ParseInt` in base 10.  The
digits `toString` writes are read back (`parseInt_toString`).
-/

namespace Jens

/-- `strings.Split`, at one character. -/
def split (s : String) (sep : Char) : List String := (s.toList.splitOn sep).map String.ofList

/-- The number that digits and a sign make. -/
def signed (neg : Bool) (digits : List Char) : ℤ :=
  let n : ℤ := Nat.ofDigitChars 10 digits 0
  if neg then -n else n

/-- `strconv.ParseInt` in base 10; no value is an error. -/
def parseInt (s : String) (bitSize : ℕ) : Option ℤ :=
  let (neg, digits) := match s.toList with
    | '-' :: digits => (true, digits)
    | '+' :: digits => (false, digits)
    | digits => (false, digits)
  if digits = [] ∨ ¬ digits.all Char.isDigit then none
  else
    let n := signed neg digits
    if -2 ^ (bitSize - 1) ≤ n ∧ n < 2 ^ (bitSize - 1) then some n else none

/-- `strconv.Atoi`. -/
def atoi (s : String) : Option ℤ := parseInt s 64

/-- What `split` does to the characters. -/
theorem split_of_splitOn {s : String} {sep : Char} {fields : List String}
    (h : s.toList.splitOn sep = fields.map String.toList) : split s sep = fields := by
  rw [split, h, List.map_map]
  exact (List.map_congr_left fun _ _ => String.ofList_toList).trans (List.map_id fields)

/-- What is read fits into the bits. -/
theorem parseInt_range {s : String} {bitSize : ℕ} {n : ℤ} (h : parseInt s bitSize = some n) :
    -2 ^ (bitSize - 1) ≤ n ∧ n < 2 ^ (bitSize - 1) := by
  obtain ⟨neg, digits, hval⟩ : ∃ neg digits,
      (if digits = [] ∨ ¬ digits.all Char.isDigit then none
        else if -2 ^ (bitSize - 1) ≤ signed neg digits ∧ signed neg digits < 2 ^ (bitSize - 1) then
          some (signed neg digits)
        else none) = some n := ⟨_, _, h⟩
  split at hval
  case isTrue => cases hval
  case isFalse =>
    split at hval
    case isTrue hrange => exact Option.some.inj hval ▸ hrange
    case isFalse => cases hval

/-- A number is read back. -/
theorem parseInt_toString {n bitSize : ℕ} (h : n < 2 ^ (bitSize - 1)) :
    parseInt (toString n) bitSize = some (n : ℤ) := by
  have hdigit : ∀ c ∈ Nat.toDigits 10 n, c.isDigit = true := fun c hc =>
    Nat.isDigit_of_mem_toDigits (by decide) (by decide) hc
  -- the first character is a digit, so it is no sign
  have hsign : (match (toString n).toList with
      | '-' :: digits => (true, digits)
      | '+' :: digits => (false, digits)
      | digits => (false, digits)) = (false, Nat.toDigits 10 n) := by
    rw [Text.toList_toString_nat]
    split
    case h_1 digits heq =>
      have := hdigit '-' (heq ▸ List.mem_cons_self)
      cases this
    case h_2 digits heq =>
      have := hdigit '+' (heq ▸ List.mem_cons_self)
      cases this
    case h_3 => rfl
  have hne : ¬ (Nat.toDigits 10 n = [] ∨ ¬ (Nat.toDigits 10 n).all Char.isDigit) := by
    simpa [Nat.toDigits_ne_nil] using hdigit
  have hval : signed false (Nat.toDigits 10 n) = (n : ℤ) := by
    simp [signed, Nat.ofDigitChars_ten_toDigits]
  have hlt : (n : ℤ) < 2 ^ (bitSize - 1) := by exact_mod_cast h
  have hpos : (0 : ℤ) < 2 ^ (bitSize - 1) := by positivity
  rw [parseInt, hsign]
  dsimp only
  rw [if_neg hne, hval, if_pos ⟨by omega, hlt⟩]

end Jens
