import Jens.Lib.Text

/-!
# Texts as bytes

`ascii s` is a text of one-byte characters as its bytes, and `ofBytes bs` reads each byte as the
character of that number (`ofBytes_ascii`).  What is said of the decimal digits of a number holds of
their bytes (`isDigit_of_mem_ascii_toString_nat`).
-/

namespace Char

theorem toNat_toUInt8 {c : Char} (h : c.toNat < 256) : c.toUInt8.toNat = c.toNat :=
  Nat.mod_eq_of_lt h

theorem ofUInt8_toUInt8 {c : Char} (h : c.toNat < 256) : Char.ofUInt8 c.toUInt8 = c := by
  apply Char.ext
  apply UInt32.toNat.inj
  exact toNat_toUInt8 h

/-- A digit is a one-byte character. -/
theorem toNat_lt_of_isDigit {c : Char} (h : c.isDigit = true) : c.toNat < 256 := by
  rw [Char.isDigit, Bool.and_eq_true, decide_eq_true_eq, decide_eq_true_eq] at h
  have hle : c.toNat ≤ '9'.toNat := h.2
  exact Nat.lt_of_le_of_lt hle (by decide)

end Char

/-- A text of one-byte characters, as bytes. -/
def ascii (s : String) : List UInt8 := s.toList.map Char.toUInt8

/-- Bytes read as the characters of their numbers. -/
def ofBytes (bs : List UInt8) : String := String.ofList (bs.map Char.ofUInt8)

theorem ascii_append (s t : String) : ascii (s ++ t) = ascii s ++ ascii t := by
  rw [ascii, String.toList_append, List.map_append, ascii, ascii]

theorem ofBytes_ascii {s : String} (h : ∀ c ∈ s.toList, c.toNat < 256) : ofBytes (ascii s) = s := by
  have hmap : (s.toList.map Char.toUInt8).map Char.ofUInt8 = s.toList := by
    rw [List.map_map]
    exact (List.map_congr_left fun c hc => Char.ofUInt8_toUInt8 (h c hc)).trans (List.map_id _)
  rw [ofBytes, ascii, hmap, String.ofList_toList]

/-! ### Decimal numbers -/

theorem isDigit_of_mem_toString_nat {n : ℕ} {c : Char} (h : c ∈ (toString n).toList) :
    c.isDigit = true := by
  rw [Text.toList_toString_nat] at h
  exact Nat.isDigit_of_mem_toDigits (by decide) (by decide) h

theorem ofBytes_ascii_toString_nat (n : ℕ) : ofBytes (ascii (toString n)) = toString n :=
  ofBytes_ascii fun _ hc => Char.toNat_lt_of_isDigit (isDigit_of_mem_toString_nat hc)

theorem isDigit_of_mem_ascii_toString_nat {n : ℕ} {b : UInt8} (h : b ∈ ascii (toString n)) :
    (Char.ofUInt8 b).isDigit = true := by
  obtain ⟨c, hc, rfl⟩ := List.mem_map.mp h
  have hdigit := isDigit_of_mem_toString_nat hc
  rwa [Char.ofUInt8_toUInt8 (Char.toNat_lt_of_isDigit hdigit)]

theorem ascii_toString_nat_ne_nil (n : ℕ) : ascii (toString n) ≠ [] := by
  rw [ascii, Text.toList_toString_nat, Ne, List.map_eq_nil_iff]
  exact Nat.toDigits_ne_nil
