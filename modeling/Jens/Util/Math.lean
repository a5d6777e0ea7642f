import Mathlib.Algebra.Order.Group.Abs
import Mathlib.Algebra.Order.Ring.Int

/-!
# `util/math.go`: absolute value, maximum and minimum of machine integers

The operands of the callers stay far below the range of a 64-bit `int`, so `int` is `ℤ` here.
-/

namespace Jens

/-- `util.AbsInt`. -/
def absInt (a : ℤ) : ℤ := if a < 0 then -a else a

/-- `util.MaxInt`. -/
def maxInt (a b : ℤ) : ℤ := if a > b then a else b

/-- `util.MinInt`. -/
def minInt (a b : ℤ) : ℤ := if a > b then b else a

theorem absInt_of_nonneg {a : ℤ} (h : 0 ≤ a) : absInt a = a := by
  rw [absInt, if_neg (not_lt.mpr h)]

theorem minInt_of_le {a b : ℤ} (h : b ≤ a) : minInt a b = b := by
  unfold minInt
  split_ifs <;> omega

end Jens
