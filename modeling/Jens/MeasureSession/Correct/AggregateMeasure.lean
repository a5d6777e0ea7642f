import Jens.MeasureSession.AggregateMeasure
import Mathlib.Data.List.Induction
import Mathlib.Data.List.TakeWhile
import Mathlib.Data.Rat.Floor
import Mathlib.Tactic.Linarith
import Mathlib.Tactic.Ring
import Mathlib.Tactic.FieldSimp

/-!
# What the sums of an aggregate amount to

`addAll` adds a sequence of packets, each with the capacity read at that moment.  Every sum of the
aggregate is then the exact sum over the sequence, cut to the width of its field
(`sampleCount_addAll` and its neighbours).

The last sections compare the sample made of the sums with the exact quantities: the load loses more
than the bits below a kilobit as soon as the duration does not divide a second
(`loadKbits_accurate_iff`), and the capacity is not the mean once the sum no longer fits 32 bits or
a limit follows the dummy capacity (`capacitykbits_right_iff`).
-/

namespace Jens

namespace AggregateMeasure

/-- A packet as it comes to `add`, with the capacity read then. -/
abbrev Arrival := PacketMeasure × UInt64

/-- `add` for each of the arrivals in turn. -/
def addAll (s : AggregateMeasure) (arrivals : List Arrival) : AggregateMeasure :=
  arrivals.foldl (fun s a => s.add a.1 a.2) s

@[simp] theorem addAll_nil (s : AggregateMeasure) : s.addAll [] = s := rfl

theorem addAll_concat (s : AggregateMeasure) (arrivals : List Arrival) (a : Arrival) :
    s.addAll (arrivals ++ [a]) = (s.addAll arrivals).add a.1 a.2 := by
  rw [addAll, List.foldl_append]
  rfl

/-! ### The exact quantities -/

/-- The packets not dropped. -/
def forwarded (arrivals : List Arrival) : List Arrival := arrivals.filter fun a => !a.1.drop

/-- The bytes of the forwarded packets. -/
def bytes (arrivals : List Arrival) : ℕ :=
  ((forwarded arrivals).map fun a => a.1.packetSizeByte.toNat).sum

/-- The capacities read for the forwarded packets. -/
def capacities (arrivals : List Arrival) : List UInt64 := (forwarded arrivals).map Prod.snd

/-- The sum of the capacities after the last dummy one. -/
def sinceDummy (caps : List UInt64) : ℕ :=
  ((caps.reverse.takeWhile (· ≠ dummyCapacity)).map UInt64.toNat).sum

/-- The first timestamp other than 0. -/
def firstTimestamp (arrivals : List Arrival) : UInt64 :=
  ((arrivals.map fun a => a.1.timestampMs).find? (· ≠ 0)).getD 0

def lastTimestamp (arrivals : List Arrival) : UInt64 :=
  ((arrivals.map fun a => a.1.timestampMs).getLast?).getD 0

/-- The duration of the sequence in milliseconds, `SAMPLE_DURATION_MS` at least. -/
def duration (arrivals : List Arrival) : ℕ :=
  max 10 (lastTimestamp arrivals - firstTimestamp arrivals).toInt64.toInt.toNat

section Concat

variable (arrivals : List Arrival) (a : Arrival)

theorem forwarded_concat :
    forwarded (arrivals ++ [a]) = forwarded arrivals ++ if a.1.drop then [] else [a] := by
  rw [forwarded, List.filter_append]
  cases h : a.1.drop <;> simp [forwarded, h]

theorem bytes_concat :
    bytes (arrivals ++ [a]) =
      bytes arrivals + if a.1.drop then 0 else a.1.packetSizeByte.toNat := by
  rw [bytes, forwarded_concat]
  cases h : a.1.drop <;> simp [bytes]

theorem capacities_concat :
    capacities (arrivals ++ [a]) = capacities arrivals ++ if a.1.drop then [] else [a.2] := by
  rw [capacities, forwarded_concat]
  cases h : a.1.drop <;> simp [capacities]

theorem firstTimestamp_concat :
    firstTimestamp (arrivals ++ [a]) =
      if firstTimestamp arrivals = 0 then a.1.timestampMs else firstTimestamp arrivals := by
  unfold firstTimestamp
  rw [List.map_append, List.find?_append]
  cases h : (arrivals.map fun a => a.1.timestampMs).find? (· ≠ 0) with
  | none =>
    by_cases h0 : a.1.timestampMs = 0 <;> simp [h0]
  | some t =>
    have ht : t ≠ 0 := by simpa using List.find?_some h
    simp [ht]

theorem lastTimestamp_concat : lastTimestamp (arrivals ++ [a]) = a.1.timestampMs := by
  simp [lastTimestamp]

theorem sinceDummy_concat (caps : List UInt64) (c : UInt64) :
    sinceDummy (caps ++ [c]) = if c = dummyCapacity then 0 else sinceDummy caps + c.toNat := by
  rw [sinceDummy, List.reverse_append]
  by_cases hc : c = dummyCapacity
  · simp [hc]
  · simp [hc, sinceDummy, Nat.add_comm]

/-- The sum of the capacities: without a dummy one, else one less than the sum since the last. -/
def capacitySum (caps : List UInt64) : ℤ :=
  if dummyCapacity ∈ caps then (sinceDummy caps : ℤ) - 1 else sinceDummy caps

theorem capacitySum_concat (caps : List UInt64) (c : UInt64) :
    capacitySum (caps ++ [c]) = if c = dummyCapacity then -1 else capacitySum caps + c.toNat := by
  unfold capacitySum
  rw [sinceDummy_concat]
  by_cases hc : c = dummyCapacity
  · simp [hc]
  · have hmem : dummyCapacity ∈ caps ++ [c] ↔ dummyCapacity ∈ caps := by
      rw [List.mem_append, List.mem_singleton, or_iff_left fun h => hc h.symm]
    rw [if_neg hc, if_neg hc, if_congr hmem rfl rfl]
    split_ifs <;> push_cast <;> ring

end Concat

/-- Without a dummy capacity the sum goes over all of them. -/
theorem sinceDummy_eq_sum {caps : List UInt64} (h : dummyCapacity ∉ caps) :
    sinceDummy caps = (caps.map UInt64.toNat).sum := by
  have hall : caps.reverse.takeWhile (· ≠ dummyCapacity) = caps.reverse := by
    rw [List.takeWhile_eq_self_iff]
    intro c hc
    have : c ≠ dummyCapacity := fun hcd => h (hcd ▸ List.mem_reverse.mp hc)
    simpa using this
  rw [sinceDummy, hall, List.map_reverse, List.sum_reverse]

/-! ### The sums of the aggregate -/

section Add

variable (s : AggregateMeasure) (pm : PacketMeasure) (capacity : UInt64)

theorem add_netFlow : (s.add pm capacity).netFlow = s.netFlow := by
  unfold add
  split_ifs <;> rfl

theorem add_sampleCount :
    (s.add pm capacity).sampleCount = s.sampleCount + if pm.drop then 0 else 1 := by
  unfold add
  split_ifs <;> simp

theorem add_sumDropped :
    (s.add pm capacity).sumDropped = s.sumDropped + if pm.drop then 1 else 0 := by
  unfold add
  split_ifs <;> simp

theorem add_sumloadBytes :
    (s.add pm capacity).sumloadBytes =
      s.sumloadBytes + if pm.drop then 0 else pm.packetSizeByte := by
  unfold add
  split_ifs <;> simp

theorem add_sumCapacityKbits :
    (s.add pm capacity).sumCapacityKbits =
      if pm.drop then s.sumCapacityKbits
      else if capacity = dummyCapacity then -1 else s.sumCapacityKbits + capacity.toInt64 := by
  unfold add
  split_ifs <;> rfl

theorem add_tStart :
    (s.add pm capacity).tStart = if s.tStart = 0 then pm.timestampMs else s.tStart := by
  unfold add
  split_ifs <;> rfl

theorem add_tEnd : (s.add pm capacity).tEnd = pm.timestampMs := by
  unfold add
  split_ifs <;> rfl

end Add

section Sums

variable (flow : DbNetworkFlow) (arrivals : List Arrival)

theorem sampleCount_addAll :
    ((new flow).addAll arrivals).sampleCount = UInt32.ofNat (forwarded arrivals).length := by
  induction arrivals using List.reverseRecOn with
  | nil => rfl
  | append_singleton arrivals a ih =>
    rw [addAll_concat, add_sampleCount, ih, forwarded_concat, List.length_append, UInt32.ofNat_add]
    split_ifs <;> rfl

theorem sumloadBytes_addAll :
    ((new flow).addAll arrivals).sumloadBytes = UInt32.ofNat (bytes arrivals) := by
  induction arrivals using List.reverseRecOn with
  | nil => rfl
  | append_singleton arrivals a ih =>
    rw [addAll_concat, add_sumloadBytes, ih, bytes_concat, UInt32.ofNat_add]
    split_ifs
    · rfl
    · rw [UInt32.ofNat_toNat]

theorem tStart_addAll : ((new flow).addAll arrivals).tStart = firstTimestamp arrivals := by
  induction arrivals using List.reverseRecOn with
  | nil => rfl
  | append_singleton arrivals a ih => rw [addAll_concat, add_tStart, ih, firstTimestamp_concat]

theorem tEnd_addAll : ((new flow).addAll arrivals).tEnd = lastTimestamp arrivals := by
  induction arrivals using List.reverseRecOn with
  | nil => rfl
  | append_singleton arrivals a _ => rw [addAll_concat, add_tEnd, lastTimestamp_concat]

/-- The sum of the capacities starts again at -1 with each dummy one. -/
theorem sumCapacityKbits_addAll :
    ((new flow).addAll arrivals).sumCapacityKbits =
      Int64.ofInt (capacitySum (capacities arrivals)) := by
  induction arrivals using List.reverseRecOn with
  | nil => rfl
  | append_singleton arrivals a ih =>
    rw [addAll_concat, add_sumCapacityKbits, ih, capacities_concat]
    by_cases hd : a.1.drop = true
    · rw [if_pos hd, if_pos hd, List.append_nil]
    · rw [if_neg hd, if_neg hd, capacitySum_concat]
      split_ifs
      · rfl
      · rw [Int64.ofInt_add, Int64.ofInt_eq_ofNat, ← UInt64.toInt64_ofNat', UInt64.ofNat_toNat]

theorem sampleDuration_addAll :
    ((new flow).addAll arrivals).sampleDuration = duration arrivals := by
  rw [sampleDuration, tStart_addAll, tEnd_addAll, maxInt, sampleDurationMs, duration]
  split_ifs <;> omega

end Sums

/-! ### The sample -/

theorem divUInt32_eq_some_iff {a b q : UInt32} : divUInt32 a b = some q ↔ b ≠ 0 ∧ a / b = q := by
  unfold divUInt32
  split_ifs with hb <;> simp [hb]

/-- The load the sums give for `b` bytes in `d` milliseconds. -/
def load (b d : ℕ) : ℕ := 8 * b % 2 ^ 32 / 1000 * (1000 / (d % 2 ^ 32))

theorem ofInt_natCast (n : ℕ) : UInt32.ofInt n = UInt32.ofNat n := by
  have hmod : ((n : ℤ) % 2 ^ 32).toNat = n % 2 ^ 32 := by omega
  rw [UInt32.ofInt, hmod, UInt32.ofNat_mod_size]

theorem ofInt_eq_neg_one_iff (x : ℤ) : Int64.ofInt x = -1 ↔ (2 : ℤ) ^ 64 ∣ x + 1 := by
  rw [← Int64.toInt_inj, Int64.toInt_ofInt, Int.bmod_def]
  have hneg : (-1 : Int64).toInt = -1 := rfl
  rw [hneg, Int64.size]
  split_ifs <;> omega

theorem toNat_toUInt32_ofInt (x : ℤ) :
    (Int64.ofInt x).toUInt64.toUInt32.toNat = (x % 2 ^ 32).toNat := by
  have h64 : (Int64.ofInt x).toUInt64.toNat = (x % 2 ^ 64).toNat := BitVec.toNat_ofInt ..
  rw [UInt64.toNat_toUInt32, h64]
  omega

theorem ofNat_eq_zero_iff (n : ℕ) : UInt32.ofNat n = 0 ↔ 2 ^ 32 ∣ n := by
  rw [← UInt32.toNat_inj, UInt32.toNat_ofNat', Nat.dvd_iff_mod_eq_zero]
  rfl

theorem load_lt (b d : ℕ) : load b d < 2 ^ 32 := by
  have h1 : 8 * b % 2 ^ 32 / 1000 ≤ 4294967 := by omega
  have h2 : 1000 / (d % 2 ^ 32) ≤ 1000 := Nat.div_le_self _ _
  calc load b d ≤ 4294967 * 1000 := Nat.mul_le_mul h1 h2
    _ < 2 ^ 32 := by norm_num

/-- The mean of a sum by a count, both in 32 bits. -/
def machineMean (sum : ℤ) (n : ℕ) : ℕ := (sum % 2 ^ 32).toNat / (n % 2 ^ 32)

/-- A sample is made unless a divisor is zero. -/
theorem toDbMeasurePacket_eq_none_iff (s : AggregateMeasure) (time : UInt64) :
    s.toDbMeasurePacket time = none ↔ UInt32.ofInt s.sampleDuration = 0 ∨ s.sampleCount = 0 := by
  by_cases hduration : UInt32.ofInt s.sampleDuration = 0
  · simp [toDbMeasurePacket, loadKbits, divUInt32, hduration]
  by_cases hcount : s.sampleCount = 0
  · simp [toDbMeasurePacket, divUInt32, hcount]
  have hcapacity (l : UInt32) : ∃ c, s.sampleCapacityKbits l = some c := by
    unfold sampleCapacityKbits
    split_ifs
    · exact ⟨l, rfl⟩
    · exact ⟨_, divUInt32_eq_some_iff.mpr ⟨hcount, rfl⟩⟩
  simp [toDbMeasurePacket, loadKbits, divUInt32, hduration, hcount, hcapacity]

section Sample

variable (flow : DbNetworkFlow) (arrivals : List Arrival)

theorem toNat_loadKbits {l : UInt32} (h : ((new flow).addAll arrivals).loadKbits = some l) :
    l.toNat = load (bytes arrivals) (duration arrivals) := by
  obtain ⟨perSecond, hdiv, rfl⟩ := Option.map_eq_some_iff.mp h
  obtain ⟨-, rfl⟩ := divUInt32_eq_some_iff.mp hdiv
  rw [sumloadBytes_addAll, sampleDuration_addAll, ofInt_natCast]
  have hbits : (UInt32.ofNat (bytes arrivals) * 8 / 1000).toNat =
      8 * bytes arrivals % 2 ^ 32 / 1000 := by
    rw [UInt32.toNat_div, UInt32.toNat_mul, UInt32.toNat_ofNat']
    simp [Nat.mul_comm]
  have hsec : (1000 / UInt32.ofNat (duration arrivals)).toNat =
      1000 / (duration arrivals % 2 ^ 32) := by
    rw [UInt32.toNat_div, UInt32.toNat_ofNat']
    rfl
  rw [UInt32.toNat_mul, hbits, hsec]
  exact Nat.mod_eq_of_lt (load_lt _ _)

theorem toDbMeasurePacket_isSome_iff (time : UInt64) :
    (((new flow).addAll arrivals).toDbMeasurePacket time).isSome ↔
      ¬ 2 ^ 32 ∣ duration arrivals ∧ ¬ 2 ^ 32 ∣ (forwarded arrivals).length := by
  rw [← Option.ne_none_iff_isSome, ne_eq, toDbMeasurePacket_eq_none_iff, sampleDuration_addAll,
    ofInt_natCast, sampleCount_addAll, ofNat_eq_zero_iff, ofNat_eq_zero_iff, not_or]

variable {flow arrivals} {time : UInt64} {sample : DbMeasurePacket}
  (h : ((new flow).addAll arrivals).toDbMeasurePacket time = some sample)
include h

theorem loadKbits_of_sample :
    sample.loadKbits.toNat = load (bytes arrivals) (duration arrivals) := by
  obtain ⟨l, hl, h⟩ := Option.bind_eq_some_iff.mp h
  obtain ⟨c, hc, h⟩ := Option.bind_eq_some_iff.mp h
  obtain ⟨t, ht, rfl⟩ := Option.map_eq_some_iff.mp h
  exact toNat_loadKbits flow arrivals hl

/-- The capacity of the sample: the load when the sum is -1 at the end, else the mean of what is
left of the sum and the count in 32 bits. -/
theorem capacitykbits_of_sample :
    sample.capacitykbits.toNat =
      if (2 : ℤ) ^ 64 ∣ capacitySum (capacities arrivals) + 1 then
        load (bytes arrivals) (duration arrivals)
      else machineMean (capacitySum (capacities arrivals)) (forwarded arrivals).length := by
  have hload := loadKbits_of_sample h
  obtain ⟨l, hl, h⟩ := Option.bind_eq_some_iff.mp h
  obtain ⟨c, hc, h⟩ := Option.bind_eq_some_iff.mp h
  obtain ⟨t, ht, rfl⟩ := Option.map_eq_some_iff.mp h
  change l.toNat = _ at hload
  change c.toNat = _
  rw [sampleCapacityKbits, sumCapacityKbits_addAll] at hc
  rw [← hload]
  by_cases hneg : (2 : ℤ) ^ 64 ∣ capacitySum (capacities arrivals) + 1
  · rw [if_pos ((ofInt_eq_neg_one_iff _).mpr hneg)] at hc
    rw [if_pos hneg, Option.some.inj hc]
  · rw [if_neg ((ofInt_eq_neg_one_iff _).not.mpr hneg)] at hc
    obtain ⟨-, rfl⟩ := divUInt32_eq_some_iff.mp hc
    rw [if_neg hneg, UInt32.toNat_div, toNat_toUInt32_ofInt, sampleCount_addAll,
      UInt32.toNat_ofNat', machineMean]

end Sample

/-! ### The load -/

/-- The load of `b` bytes in `d` milliseconds, with no loss but that of the bits below a kilobit. -/
def LoadAccurate (b d l : ℕ) : Prop := (8 * b : ℚ) / d - 1000 / d < l ∧ (l : ℚ) ≤ 8 * b / d

/-- What two truncated quotients lose against the quotient of their product. -/
theorem two_quotients_loss (bits d : ℕ) :
    d * (bits / 1000 * (1000 / d)) + (bits / 1000 * (1000 % d) + bits % 1000) = bits := by
  have hsec : d * (1000 / d) + 1000 % d = 1000 := Nat.div_add_mod 1000 d
  calc d * (bits / 1000 * (1000 / d)) + (bits / 1000 * (1000 % d) + bits % 1000)
      = bits / 1000 * (d * (1000 / d) + 1000 % d) + bits % 1000 := by ring
    _ = 1000 * (bits / 1000) + bits % 1000 := by rw [hsec, Nat.mul_comm]
    _ = bits := Nat.div_add_mod bits 1000

theorem loadAccurate_quotients_iff {b d : ℕ} (hd : 0 < d) :
    LoadAccurate b d (8 * b / 1000 * (1000 / d)) ↔
      8 * b / 1000 * (1000 % d) + 8 * b % 1000 < 1000 := by
  have hd' : (0 : ℚ) < d := Nat.cast_pos.mpr hd
  have hloss := two_quotients_loss (8 * b) d
  set l := 8 * b / 1000 * (1000 / d)
  set r := 8 * b / 1000 * (1000 % d) + 8 * b % 1000
  have hlossQ : (d : ℚ) * l + r = 8 * b := by exact_mod_cast hloss
  have hupper : (l : ℚ) ≤ 8 * b / d := by
    rw [le_div_iff₀ hd']
    have : (0 : ℚ) ≤ r := Nat.cast_nonneg r
    linarith
  unfold LoadAccurate
  rw [and_iff_left hupper, ← sub_div, div_lt_iff₀ hd']
  constructor
  · intro hlow
    have : (r : ℚ) < 1000 := by linarith
    exact_mod_cast this
  · intro hlow
    have : (r : ℚ) < 1000 := by exact_mod_cast hlow
    linarith

/-- **The load of a sample.**  With `8 * b < 2 ^ 32` bits forwarded in `d < 2 ^ 31` milliseconds the
load is that of whole kilobits exactly if the two truncations together lose less than one: the
kilobits times `1000 % d`, and the bits below a kilobit. -/
theorem loadKbits_accurate_iff (flow : DbNetworkFlow) (arrivals : List Arrival) (time : UInt64)
    (hbytes : 8 * bytes arrivals < 2 ^ 32) (hdur : duration arrivals < 2 ^ 31) :
    (∃ sample, ((new flow).addAll arrivals).toDbMeasurePacket time = some sample ∧
        LoadAccurate (bytes arrivals) (duration arrivals) sample.loadKbits.toNat) ↔
      ¬ 2 ^ 32 ∣ (forwarded arrivals).length ∧
        8 * bytes arrivals / 1000 * (1000 % duration arrivals) + 8 * bytes arrivals % 1000
          < 1000 := by
  have hpos : 0 < duration arrivals := by
    unfold duration
    omega
  have hdvd : ¬ 2 ^ 32 ∣ duration arrivals := fun h => by
    have := Nat.le_of_dvd hpos h
    omega
  have hload : load (bytes arrivals) (duration arrivals) =
      8 * bytes arrivals / 1000 * (1000 / duration arrivals) := by
    rw [load, Nat.mod_eq_of_lt hbytes, Nat.mod_eq_of_lt (by omega)]
  have hsome := toDbMeasurePacket_isSome_iff flow arrivals time
  rw [and_iff_right hdvd, Option.isSome_iff_exists] at hsome
  rw [← loadAccurate_quotients_iff hpos, ← hload, ← hsome]
  constructor
  · rintro ⟨sample, hs, hacc⟩
    exact ⟨⟨sample, hs⟩, loadKbits_of_sample hs ▸ hacc⟩
  · rintro ⟨⟨sample, hs⟩, hacc⟩
    exact ⟨sample, hs, (loadKbits_of_sample hs).symm ▸ hacc⟩

/-- A forwarded packet of this size. -/
def packetOf (timestampMs : UInt64) (packetSizeByte : UInt32) : PacketMeasure where
  timestampMs := timestampMs
  sojournTimeMs := 1
  ecnIn := 0
  ecnOut := 0
  ecnValid := false
  slow := false
  mark := false
  drop := false
  ipVersion := 4
  packetSizeByte := packetSizeByte
  netFlow := ⟨0, 1, "10.0.0.1", 80, "10.0.0.2", 4000, 0⟩

/-- Ten milliseconds divide a second. -/
theorem loadKbits_accurate_iff_ten :
    (∃ sample, ((new (packetOf 5 1500).netFlow).addAll
          [(packetOf 5 1500, 1000), (packetOf 15 1500, 1000)]).toDbMeasurePacket 15 = some sample ∧
        LoadAccurate 3000 10 sample.loadKbits.toNat) ↔
      ¬ 2 ^ 32 ∣ 2 ∧ 24000 / 1000 * (1000 % 10) + 24000 % 1000 < 1000 :=
  loadKbits_accurate_iff (packetOf 5 1500).netFlow
    [(packetOf 5 1500, 1000), (packetOf 15 1500, 1000)] 15 (by decide) (by decide)

/-- **Load lost.**  Two packets of 1500 bytes 1500 ms apart are 16 kbit/s, and the sample says 0:
`1000 / 1500` is 0. -/
theorem load_zero_over_a_second :
    ∃ sample, ((new (packetOf 5 1500).netFlow).addAll
        [(packetOf 5 1500, 1000), (packetOf 1505 1500, 1000)]).toDbMeasurePacket 1505 =
          some sample ∧
      sample.loadKbits = 0 ∧
      bytes [(packetOf 5 1500, 1000), (packetOf 1505 1500, 1000)] = 3000 ∧
      duration [(packetOf 5 1500, 1000), (packetOf 1505 1500, 1000)] = 1500 ∧
      ¬ LoadAccurate 3000 1500 sample.loadKbits.toNat := by
  refine ⟨_, rfl, rfl, by decide, by decide, ?_⟩
  change ¬ LoadAccurate 3000 1500 0
  norm_num [LoadAccurate]

/-! ### The capacity -/

/-- What the capacity of a sample should be: the mean of the capacities, or the load when one of
them was the dummy. -/
def CapacityRight (arrivals : List Arrival) (sample : DbMeasurePacket) : Prop :=
  if dummyCapacity ∈ capacities arrivals then sample.capacitykbits = sample.loadKbits
  else (sample.capacitykbits.toNat : ℤ) =
    ⌊(((capacities arrivals).map UInt64.toNat).sum : ℚ) / (capacities arrivals).length⌋

/-- The condition under which it is.  With a dummy capacity: nothing is added after the last one, or
what is added makes up for the load by chance.  Without: the sum fits 32 bits; from `2 ^ 32` packets
on, where the count is cut as well, the two cut numbers have the quotient of the whole ones. -/
def CapacityKept (arrivals : List Arrival) : Prop :=
  let caps := capacities arrivals
  let total := (caps.map UInt64.toNat).sum
  let l := load (bytes arrivals) (duration arrivals)
  if dummyCapacity ∈ caps then
    2 ^ 64 ∣ sinceDummy caps ∨ machineMean (sinceDummy caps - 1) caps.length = l
  else if caps.length < 2 ^ 32 then total < 2 ^ 32
  else (if 2 ^ 64 ∣ total + 1 then l else machineMean total caps.length) = total / caps.length

/-- Cutting the sum to 32 bits keeps the mean only if it cuts nothing. -/
theorem mod_div_eq_iff {a n : ℕ} (hn : 0 < n) (hlt : n < 2 ^ 32) :
    a % 2 ^ 32 / n = a / n ↔ a < 2 ^ 32 := by
  constructor
  · intro h
    by_contra hge
    -- what is cut off is worth at least one in the quotient
    have hcut : a % 2 ^ 32 + n ≤ a := by omega
    have := Nat.div_le_div_right (c := n) hcut
    rw [Nat.add_div_right _ hn] at this
    omega
  · intro h
    rw [Nat.mod_eq_of_lt h]

theorem machineMean_natCast (a n : ℕ) : machineMean a n = a % 2 ^ 32 / (n % 2 ^ 32) := by
  rw [machineMean]
  congr 1

theorem capacityRight_iff {flow : DbNetworkFlow} {arrivals : List Arrival} {time : UInt64}
    {sample : DbMeasurePacket}
    (h : ((new flow).addAll arrivals).toDbMeasurePacket time = some sample)
    (hn : ¬ 2 ^ 32 ∣ (capacities arrivals).length) :
    CapacityRight arrivals sample ↔ CapacityKept arrivals := by
  have hcap := capacitykbits_of_sample h
  have hload := loadKbits_of_sample h
  have hlen : (forwarded arrivals).length = (capacities arrivals).length := by simp [capacities]
  rw [hlen] at hcap
  unfold CapacityRight CapacityKept
  dsimp only
  set caps := capacities arrivals
  have hltl := load_lt (bytes arrivals) (duration arrivals)
  set l := load (bytes arrivals) (duration arrivals)
  by_cases hd : dummyCapacity ∈ caps
  · have hsum : capacitySum caps = sinceDummy caps - 1 := if_pos hd
    have hdvd : (2 : ℤ) ^ 64 ∣ (sinceDummy caps : ℤ) - 1 + 1 ↔ 2 ^ 64 ∣ sinceDummy caps := by omega
    rw [if_pos hd, if_pos hd, ← UInt32.toNat_inj, hload]
    rw [hsum, if_congr hdvd rfl rfl] at hcap
    rw [hcap]
    by_cases hT : 2 ^ 64 ∣ sinceDummy caps
    · rw [if_pos hT]
      exact iff_of_true rfl (.inl hT)
    · rw [if_neg hT, or_iff_right hT]
  · have hsum : capacitySum caps = (caps.map UInt64.toNat).sum := by
      rw [capacitySum, if_neg hd, sinceDummy_eq_sum hd]
    rw [if_neg hd, if_neg hd]
    rw [hsum] at hcap
    set total := (caps.map UInt64.toNat).sum
    have hdvd : (2 : ℤ) ^ 64 ∣ (total : ℤ) + 1 ↔ 2 ^ 64 ∣ total + 1 := by omega
    rw [if_congr hdvd rfl rfl] at hcap
    rw [Rat.floor_natCast_div_natCast, ← Int.natCast_ediv, Int.natCast_inj, hcap]
    by_cases hlt : caps.length < 2 ^ 32
    · have hpos : 0 < caps.length := Nat.pos_of_ne_zero fun h0 => hn (h0 ▸ dvd_zero _)
      rw [if_pos hlt]
      split_ifs with h64
      · -- the sum is far too large for the mean to be a load
        have hge : 2 ^ 32 ≤ total / caps.length := by
          rw [Nat.le_div_iff_mul_le hpos]
          omega
        exact iff_of_false (by omega) (by omega)
      · rw [machineMean_natCast, Nat.mod_eq_of_lt hlt]
        exact mod_div_eq_iff hpos hlt
    · rw [if_neg hlt]

/-- **The capacity of a sample.**  The sample has the mean of the capacities, or the load when one
of them is the dummy, exactly if a sample is made at all and the sum kept what it is read as: no
limit follows the last dummy capacity, and the sum without a dummy fits 32 bits. -/
theorem capacitykbits_right_iff (flow : DbNetworkFlow) (arrivals : List Arrival) (time : UInt64) :
    (∃ sample, ((new flow).addAll arrivals).toDbMeasurePacket time = some sample ∧
        CapacityRight arrivals sample) ↔
      (¬ 2 ^ 32 ∣ duration arrivals ∧ ¬ 2 ^ 32 ∣ (capacities arrivals).length) ∧
        CapacityKept arrivals := by
  have hlen : (forwarded arrivals).length = (capacities arrivals).length := by simp [capacities]
  have hsome := toDbMeasurePacket_isSome_iff flow arrivals time
  rw [hlen, Option.isSome_iff_exists] at hsome
  rw [← hsome]
  constructor
  · rintro ⟨sample, hs, hright⟩
    exact ⟨⟨sample, hs⟩, (capacityRight_iff hs (hsome.mp ⟨sample, hs⟩).2).mp hright⟩
  · rintro ⟨⟨sample, hs⟩, hkept⟩
    exact ⟨sample, hs, (capacityRight_iff hs (hsome.mp ⟨sample, hs⟩).2).mpr hkept⟩

/-- **A limit after the dummy capacity.**  The first packet finds the link without a limit, the
second with 1001 kbit/s: the sum is -1 + 1001, and the sample has half of it. -/
theorem capacity_after_dummy :
    ∃ sample, ((new (packetOf 5 1500).netFlow).addAll
        [(packetOf 5 1500, dummyCapacity), (packetOf 6 1500, 1001)]).toDbMeasurePacket 6 =
          some sample ∧
      sample.capacitykbits = 500 ∧ sample.loadKbits = 2400 ∧
      ¬ CapacityRight [(packetOf 5 1500, dummyCapacity), (packetOf 6 1500, 1001)] sample := by
  refine ⟨_, rfl, rfl, rfl, ?_⟩
  rw [CapacityRight, if_pos (by decide)]
  exact fun h => absurd (h : (500 : UInt32) = 2400) (by decide)

end AggregateMeasure

end Jens
