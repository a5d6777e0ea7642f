import Mathlib.Data.Rat.Floor
import Mathlib.Tactic.Common
import Mathlib.Tactic.Positivity

/-!
# Floating-point numbers as extended rationals

A binary64 number is `NaN`, an infinity or a finite number, and every finite one is a rational.
`F64` keeps that shape with all rationals as finite values, so arithmetic on finite values is exact,
and there is no signed zero.  Comparison and multiplication treat `NaN` and the infinities as
IEEE 754 does.  What a machine makes of an exact result is said by `rounded`; IEEE 754 rounds to the
nearest number (`nearest`).

A conversion to an integer drops the fraction; where the result does not fit, its value
depends on the machine, and `FloatConv` is that machine.
-/

/-- `NaN`, `±∞` or a finite (rational) number. -/
inductive F64
  | nan
  | inf (neg : Bool)
  | fin (q : ℚ)
  deriving DecidableEq

namespace F64

instance : Zero F64 := ⟨.fin 0⟩

/-- Multiplication; `0 · ∞` is `NaN`. -/
def mul : F64 → F64 → F64
  | .nan, _ => .nan
  | _, .nan => .nan
  | .fin p, .fin q => .fin (p * q)
  | .inf s, .fin q => if q = 0 then .nan else .inf (s != decide (q < 0))
  | .fin q, .inf s => if q = 0 then .nan else .inf (s != decide (q < 0))
  | .inf s, .inf t => .inf (s != t)

/-- Addition; `∞ - ∞` is `NaN`. -/
def add : F64 → F64 → F64
  | .nan, _ => .nan
  | _, .nan => .nan
  | .fin p, .fin q => .fin (p + q)
  | .inf s, .fin _ => .inf s
  | .fin _, .inf t => .inf t
  | .inf s, .inf t => if s = t then .inf s else .nan

/-- Division; `0 / 0` and `∞ / ∞` are `NaN`. -/
def div : F64 → F64 → F64
  | .nan, _ => .nan
  | _, .nan => .nan
  | .fin p, .fin q =>
    if q ≠ 0 then .fin (p / q) else if p = 0 then .nan else .inf (decide (p < 0))
  | .inf s, .fin q => .inf (s != decide (q < 0))
  | .fin _, .inf _ => .fin 0
  | .inf _, .inf _ => .nan

/-- The comparison `<`, false as soon as one side is `NaN`. -/
def lt : F64 → F64 → Bool
  | .nan, _ => false
  | _, .nan => false
  | .fin p, .fin q => decide (p < q)
  | .inf s, .fin _ => s
  | .fin _, .inf t => !t
  | .inf s, .inf t => s && !t

/-- The comparison `<=`, false as soon as one side is `NaN`. -/
def le : F64 → F64 → Bool
  | .nan, _ => false
  | _, .nan => false
  | x, y => !lt y x

/-- `math.Max`: `+∞` wins over `NaN`. -/
def max : F64 → F64 → F64
  | .inf false, _ => .inf false
  | _, .inf false => .inf false
  | .nan, _ => .nan
  | _, .nan => .nan
  | x, y => if lt y x then x else y

/-- `math.MaxFloat64`. -/
def maxFloat64 : F64 := .fin ((2 - 1 / 2 ^ 52) * 2 ^ 1023)

/-- The number with these 64 bits. -/
def ofBits (b : UInt64) : F64 :=
  let neg := b >>> 63 = 1
  let e := (b >>> 52 &&& 0x7ff).toNat
  let m := (b &&& 0xfffffffffffff).toNat
  if e = 0x7ff then if m = 0 then .inf neg else .nan
  else
    let q : ℚ := if e = 0 then m / 2 ^ 1074 else (2 ^ 52 + m : ℚ) * 2 ^ e / 2 ^ 1075
    .fin (if neg then -q else q)

/-! ### Rounding -/

/-- What a machine whose rounding is `round` makes of an exact result. -/
def rounded (round : ℚ → F64) : F64 → F64
  | .fin q => round q
  | x => x

@[simp] theorem rounded_fin (x : F64) : rounded .fin x = x := by cases x <;> rfl

/-- The integer nearest to `q`; of two that are equally near, the even one. -/
def halfEven (q : ℚ) : ℤ :=
  let m := ⌊q⌋
  if q - m < 1 / 2 ∨ q - m = 1 / 2 ∧ m % 2 = 0 then m else m + 1

/-- The exponent of the last place of a number near `q`: there are 53 places from the leading bit
on, and none below `2 ^ -1074`. -/
def ulpExponent (q : ℚ) : ℤ :=
  let e : ℤ := q.num.natAbs.log2 - q.den.log2
  Max.max ((if |q| < 2 ^ e then e - 1 else e) - 52) (-1074)

/-- The binary64 number nearest to `q`. -/
def nearest (q : ℚ) : F64 :=
  let ulp : ℚ := 2 ^ ulpExponent q
  let r := halfEven (q / ulp) * ulp
  if -2 ^ 1024 < r ∧ r < 2 ^ 1024 then .fin r else .inf (decide (r < 0))

/-- The number written 0.58 is below it; a thousand times that is 580 again. -/
example : ((nearest (58 / 100)).mul (.fin 1000)).rounded nearest = .fin 580 := by decide +kernel

/-! ### Conversion -/

/-- The integer part of a finite number, cut towards zero. -/
def trunc? : F64 → Option ℤ
  | .fin q => some (if 0 ≤ q then ⌊q⌋ else ⌈q⌉)
  | _ => none

/-- What the machine makes of a number that does not fit into the integer type. -/
structure FloatConv where
  toUint64 : F64 → UInt64
  toUint32 : F64 → UInt32
  toInt32 : F64 → Int32

/-- `uint64(x)`. -/
def toUint64 (cv : FloatConv) (x : F64) : UInt64 :=
  match x.trunc? with
  | some z => if 0 ≤ z ∧ z < 2 ^ 64 then UInt64.ofNat z.toNat else cv.toUint64 x
  | none => cv.toUint64 x

/-- `uint32(x)`. -/
def toUint32 (cv : FloatConv) (x : F64) : UInt32 :=
  match x.trunc? with
  | some z => if 0 ≤ z ∧ z < 2 ^ 32 then UInt32.ofNat z.toNat else cv.toUint32 x
  | none => cv.toUint32 x

/-- `int32(x)`. -/
def toInt32 (cv : FloatConv) (x : F64) : Int32 :=
  match x.trunc? with
  | some z => if -2 ^ 31 ≤ z ∧ z < 2 ^ 31 then Int32.ofInt z else cv.toInt32 x
  | none => cv.toInt32 x

/-- `int64(x)`; `cv` is the machine here. -/
def toInt64 (cv : F64 → Int64) (x : F64) : Int64 :=
  match x.trunc? with
  | some z => if -2 ^ 63 ≤ z ∧ z < 2 ^ 63 then Int64.ofInt z else cv x
  | none => cv x

theorem trunc?_fin {q : ℚ} (h : 0 ≤ q) : (fin q).trunc? = some (⌊q⌋₊ : ℤ) := by
  rw [trunc?, if_pos h, Int.natCast_floor_eq_floor h]

/-- In range the conversion to `uint64` is the floor. -/
theorem toUint64_fin (cv : FloatConv) {q : ℚ} (h0 : 0 ≤ q) (h1 : q < 2 ^ 64) :
    (toUint64 cv (fin q)).toNat = ⌊q⌋₊ := by
  have hfl : ⌊q⌋₊ < 2 ^ 64 := (Nat.floor_lt h0).mpr (by exact_mod_cast h1)
  rw [toUint64, trunc?_fin h0]
  simp only []
  rw [if_pos ⟨Int.natCast_nonneg _, by exact_mod_cast hfl⟩, Int.toNat_natCast,
    UInt64.toNat_ofNat', Nat.mod_eq_of_lt hfl]

theorem toInt_toInt64 (cv : F64 → Int64) {n : ℕ} (h : n < 2 ^ 63) :
    (toInt64 cv (fin n)).toInt = n := by
  have hlt : (n : ℤ) < 2 ^ 63 := by exact_mod_cast h
  rw [toInt64, trunc?_fin (by positivity), Nat.floor_natCast]
  dsimp only
  rw [if_pos ⟨by omega, hlt⟩, Int64.toInt_ofInt_of_le (by omega) (by omega)]

/-! ### The order -/

/-- Numbers that are in order and not strictly so are in order the other way, too. -/
theorem le_of_not_lt {x y : F64} (h : le x y = true) (hlt : lt x y = false) : le y x = true := by
  cases x <;> cases y <;> first | cases h | skip
  all_goals
    show (!lt _ _) = true
    rw [hlt]
    rfl

theorem lt_eq_false_of_le {x y : F64} (h : le x y = true) : lt y x = false := by
  cases x <;> cases y <;> first | cases h | skip
  all_goals
    have hnot : (!lt _ _) = true := h
    rwa [Bool.not_eq_true'] at hnot

theorem lt_self (x : F64) : lt x x = false := by
  cases x with
  | nan => rfl
  | inf neg => cases neg <;> rfl
  | fin q => exact decide_eq_false (lt_irrefl q)

/-! ### When a maximum of a product is finite -/

/-- `math.Max` with a non-negative second operand. -/
theorem max_eq_fin_iff {x m : F64} {q : ℚ} (hm : le (.fin 0) m = true) :
    max x m = .fin q ↔
      ∃ r, m = .fin r ∧ (x = .inf true ∧ q = r ∨ ∃ y, x = .fin y ∧ q = Max.max y r) := by
  cases m with
  | nan => cases hm
  | inf neg =>
    cases neg with
    | true => cases hm
    | false =>
      cases x with
      | inf neg => cases neg <;> simp [max]
      | nan | fin _ => simp [max]
  | fin r =>
    cases x with
    | nan => simp [max]
    | inf neg => cases neg <;> simp [max, lt, eq_comm]
    | fin y =>
      have hmax : max (.fin y) (.fin r) = .fin (Max.max y r) := by
        simp only [max, lt, decide_eq_true_eq]
        split_ifs with h
        · rw [max_eq_left h.le]
        · rw [max_eq_right (not_lt.mp h)]
      simp [hmax, eq_comm]

/-- A number times a positive scale is finite or `-∞` exactly if it is neither `NaN` nor `+∞`, and
negative in case the scale is `+∞`. -/
theorem mul_finite_iff {x scale : F64} (hscale : lt (.fin 0) scale = true) :
    (x.mul scale = .inf true ∨ ∃ y, x.mul scale = .fin y) ↔
      x ≠ .nan ∧ x ≠ .inf false ∧ (scale = .inf false → lt x (.fin 0) = true) := by
  cases scale with
  | nan => cases hscale
  | inf neg =>
    cases neg with
    | true => cases hscale
    | false =>
      cases x with
      | nan => simp [mul]
      | inf neg => cases neg <;> simp [mul, lt]
      | fin q =>
        rcases lt_trichotomy q 0 with h | h | h
        · simp [mul, lt, h, h.ne]
        · simp [mul, lt, h]
        · simp [mul, lt, h.ne', not_lt.mpr h.le]
  | fin s =>
    have hs : 0 < s := of_decide_eq_true hscale
    cases x with
    | nan => simp [mul]
    | inf neg => cases neg <;> simp [mul, hs.ne', not_lt.mpr hs.le]
    | fin q => simp [mul]

/-! ### Products with a finite number -/

theorem mul_fin_eq_fin_iff {x : F64} {k y : ℚ} (hk : k ≠ 0) :
    x.mul (.fin k) = .fin y ↔ x = .fin (y / k) := by
  cases x with
  | nan => simp [mul]
  | inf neg => simp [mul, hk]
  | fin q =>
    rw [mul, fin.injEq, fin.injEq]
    exact (eq_div_iff hk).symm

/-- A positive factor other than one changes every number but zero. -/
theorem fin_mul_eq_self_iff {x : F64} {k : ℚ} (hk : 0 < k) :
    (fin k).mul x = x ↔ k = 1 ∨ ∀ q, x = fin q → q = 0 := by
  cases x with
  | nan => simp [mul]
  | inf neg => simp [mul, hk.ne', not_lt.mpr hk.le]
  | fin q => simp [mul, mul_left_eq_self₀]

end F64
