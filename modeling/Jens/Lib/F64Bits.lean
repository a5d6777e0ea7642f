import Jens.Lib.F64
import Mathlib.Data.Rat.Floor
import Mathlib.Tactic.Linarith
import Mathlib.Tactic.Ring
import Mathlib.Tactic.FieldSimp

/-!
# The bits of a natural number

A natural number below `2 ^ 53` is a binary64 number: its leading bit gives the exponent, and the
bits below it the fraction.
-/

namespace F64

/-- The number with these three fields. -/
theorem ofBits_of_fields {b : UInt64} {e m : ℕ} (hb : b.toNat = e * 2 ^ 52 + m) (hm : m < 2 ^ 52)
    (he : e < 0x7ff) (he0 : e ≠ 0) :
    ofBits b = .fin ((2 ^ 52 + m : ℚ) * 2 ^ e / 2 ^ 1075) := by
  have hsign : b >>> 63 = 0 := by
    rw [← UInt64.toNat_inj, UInt64.toNat_shiftRight, hb]
    simp [Nat.shiftRight_eq_div_pow]
    omega
  have hexp : (b >>> 52 &&& 0x7ff).toNat = e := by
    rw [UInt64.toNat_and, UInt64.toNat_shiftRight, hb]
    have h7ff : (0x7ff : UInt64).toNat = 2 ^ 11 - 1 := rfl
    rw [h7ff, Nat.and_two_pow_sub_one_eq_mod]
    simp [Nat.shiftRight_eq_div_pow]
    omega
  have hfrac : (b &&& 0xfffffffffffff).toNat = m := by
    rw [UInt64.toNat_and, hb]
    have hmask : (0xfffffffffffff : UInt64).toNat = 2 ^ 52 - 1 := rfl
    rw [hmask, Nat.and_two_pow_sub_one_eq_mod]
    omega
  rw [ofBits, hsign, hexp, hfrac]
  dsimp only
  rw [if_neg he.ne, if_neg he0, if_neg (by decide)]

/-- The 64 bits of a number below `2 ^ 53`. -/
def natBits (n : ℕ) : UInt64 :=
  if n = 0 then 0
  else UInt64.ofNat ((1023 + n.log2) * 2 ^ 52 + (n - 2 ^ n.log2) * 2 ^ (52 - n.log2))

theorem ofBits_natBits {n : ℕ} (h : n < 2 ^ 53) : ofBits (natBits n) = .fin n := by
  by_cases h0 : n = 0
  · rw [h0]
    decide +kernel
  obtain ⟨e, he⟩ : ∃ e, e = n.log2 := ⟨_, rfl⟩
  have hle : 2 ^ e ≤ n := he ▸ Nat.log2_self_le h0
  have hlt : n < 2 ^ (e + 1) := he ▸ Nat.lt_log2_self
  have he52 : e ≤ 52 := by
    have : e < 53 := by
      rw [he]
      exact (Nat.log2_lt h0).mpr h
    omega
  -- the fraction, and the number it makes
  obtain ⟨m, hm⟩ : ∃ m, m = (n - 2 ^ e) * 2 ^ (52 - e) := ⟨_, rfl⟩
  have hsplit : 2 ^ 52 = 2 ^ e * 2 ^ (52 - e) := by
    rw [← pow_add]
    congr 1
    omega
  have hfrac : 2 ^ 52 + m = n * 2 ^ (52 - e) := by
    rw [hm, hsplit, ← Nat.add_mul]
    congr 1
    omega
  have hm52 : m < 2 ^ 52 := by
    have hmul : n * 2 ^ (52 - e) < 2 ^ (e + 1) * 2 ^ (52 - e) :=
      Nat.mul_lt_mul_of_pos_right hlt (by positivity)
    have htwo : 2 ^ (e + 1) * 2 ^ (52 - e) = 2 * 2 ^ 52 := by
      rw [hsplit]
      ring
    omega
  have hbits : (natBits n).toNat = (1023 + e) * 2 ^ 52 + m := by
    rw [natBits, if_neg h0, ← he, ← hm, UInt64.toNat_ofNat', Nat.mod_eq_of_lt (by omega)]
  rw [ofBits_of_fields hbits hm52 (by omega) (by omega)]
  congr 1
  have hq : (2 ^ 52 + m : ℚ) = n * 2 ^ (52 - e) := by exact_mod_cast hfrac
  have hexp : 52 - e + (1023 + e) = 1075 := by omega
  rw [hq, mul_assoc, ← pow_add, hexp]
  field_simp
end F64
