import Jens.Lib.F64
import Jens.Lib.LittleEndian

/-!
# Traffic control: start parameters and the control file

`TrafficControlStartParams.validate` and `asArgs` are the check made when a session starts and the
arguments handed to the `tc` command; `changeRateArray` is the block `ChangeTo` writes to the
control file.  An `int` of the source is `ℤ`: its values come from 32-bit integers.
-/

namespace Jens

/-- `trafficcontrol.TrafficControlStartParams`. -/
structure TrafficControlStartParams where
  datarate : UInt32
  queueSize : ℤ
  addonLatency : ℤ
  markfree : ℤ
  markfull : ℤ
  qosmode : UInt8
  deriving DecidableEq, Repr

namespace TrafficControlStartParams

/-- `validate`: the first check that fails gives the error. -/
def validate (p : TrafficControlStartParams) : Except String Unit :=
  if p.datarate < 100 then .error "Datarate should not be below 100"
  else if p.addonLatency ≥ 10000 then .error "AddonLatency should not be above 10000ms"
  else if p.markfree > p.markfull then .error "Markfree should not be greater Markfull"
  else if p.markfree > 0xffff then .error "Markfree possibly corrupted"
  else if p.markfull > 0xffff then .error "Markfull possibly corrupted"
  else if p.qosmode < 0 ∨ p.qosmode > 2 then .error "valid values for qosmode are 0,1,2"
  else .ok ()

/-- A flag and its value, present only when the value is positive. -/
def argOfPos (flag : String) (value : ℤ) (unit : String) : List String :=
  if value > 0 then [flag, toString value ++ unit] else []

/-- `asArgs`. -/
def asArgs (p : TrafficControlStartParams) : List String :=
  ["rate", toString p.datarate.toNat ++ "kbit"]
    ++ argOfPos "limit" p.queueSize ""
    ++ argOfPos "extralatency" p.addonLatency "ms"
    ++ argOfPos "markfree" p.markfree "ms"
    ++ argOfPos "markfull" p.markfull "ms"
    ++ argOfPos "qosmode" p.qosmode.toNat ""

end TrafficControlStartParams

/-- The block `ChangeTo` writes: `uint64(rate) * 1000` in eight bytes, least significant first. -/
def changeRateArray (cv : F64.FloatConv) (rate : F64) : List UInt8 :=
  leBytes 8 (F64.toUint64 cv rate * 1000).toNat

/-- A rate below `2^64 / 1000` is written as a thousand times its floor. -/
theorem leNat_changeRateArray (cv : F64.FloatConv) {q : ℚ} (h0 : 0 ≤ q) (h1 : q < 2 ^ 64 / 1000) :
    leNat (changeRateArray cv (.fin q)) = 1000 * ⌊q⌋₊ := by
  have hfl : (⌊q⌋₊ : ℚ) < 2 ^ 64 / 1000 := lt_of_le_of_lt (Nat.floor_le h0) h1
  have hmul : ⌊q⌋₊ * 1000 < 2 ^ 64 := by
    rw [lt_div_iff₀ (by norm_num)] at hfl
    exact_mod_cast hfl
  have hq : q < 2 ^ 64 := h1.trans (by norm_num)
  have htoNat : (F64.toUint64 cv (.fin q) * 1000).toNat = ⌊q⌋₊ * 1000 := by
    rw [UInt64.toNat_mul, F64.toUint64_fin cv h0 hq]
    exact Nat.mod_eq_of_lt hmul
  rw [changeRateArray, htoNat, leNat_leBytes_of_lt (by simpa using hmul), mul_comm]

end Jens
