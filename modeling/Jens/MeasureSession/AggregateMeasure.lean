import Jens.MeasureSession.Records
import Jens.Util.Math

/-!
# `AggregateMeasure`: the sums over the packets of one flow in one window

Sums wrap as the machine's do.  `toDbMeasurePacket` divides twice by a number taken from the sums; a
zero there is a run-time panic, the `none` of the definition.
-/

namespace Jens

/-- `SAMPLE_DURATION_MS`. -/
def sampleDurationMs : ℤ := 10

structure AggregateMeasure where
  sampleCount : UInt32
  sumSojournTimeMs : UInt32
  sumloadBytes : UInt32
  sumCapacityKbits : Int64
  sumEcnNCE : UInt32
  sumDropped : UInt32
  netFlow : DbNetworkFlow
  tStart : UInt64
  tEnd : UInt64
  deriving DecidableEq, Repr

/-- Integer division with the panic on a zero divisor. -/
def divUInt32 (a b : UInt32) : Option UInt32 := if b = 0 then none else some (a / b)

namespace AggregateMeasure

/-- `NewAggregateMeasure`. -/
def new (flow : DbNetworkFlow) : AggregateMeasure where
  sampleCount := 0
  sumSojournTimeMs := 0
  sumloadBytes := 0
  sumCapacityKbits := 0
  sumEcnNCE := 0
  sumDropped := 0
  netFlow := flow
  tStart := 0
  tEnd := 0

/-- The capacity the qdisc reports for a link without a limit. -/
def dummyCapacity : UInt64 := 4294967295

/-- `add`. -/
def add (s : AggregateMeasure) (pm : PacketMeasure) (capacity : UInt64) : AggregateMeasure :=
  let s := if s.tStart = 0 then { s with tStart := pm.timestampMs } else s
  let s := { s with tEnd := pm.timestampMs }
  if pm.drop then { s with sumDropped := s.sumDropped + 1 }
  else
    { s with
      sumSojournTimeMs := s.sumSojournTimeMs + pm.sojournTimeMs
      sumloadBytes := s.sumloadBytes + pm.packetSizeByte
      sumCapacityKbits :=
        if capacity = dummyCapacity then -1 else s.sumCapacityKbits + capacity.toInt64
      sumEcnNCE := if pm.ecnOut = 3 then s.sumEcnNCE + 1 else s.sumEcnNCE
      sampleCount := s.sampleCount + 1 }

/-- `sample_duration`: the duration in milliseconds, `SAMPLE_DURATION_MS` at least. -/
def sampleDuration (s : AggregateMeasure) : ℤ :=
  maxInt sampleDurationMs (s.tEnd - s.tStart).toInt64.toInt

/-- `loadKbits`. -/
def loadKbits (s : AggregateMeasure) : Option UInt32 :=
  (divUInt32 1000 (UInt32.ofInt s.sampleDuration)).map fun perSecond =>
    s.sumloadBytes * 8 / 1000 * perSecond

/-- `sampleCapacityKbits`. -/
def sampleCapacityKbits (s : AggregateMeasure) (loadKbits : UInt32) : Option UInt32 :=
  if s.sumCapacityKbits = -1 then some loadKbits
  else divUInt32 s.sumCapacityKbits.toUInt64.toUInt32 s.sampleCount

/-- The share of packets marked by ECN, in percent. -/
def ecnPercent (s : AggregateMeasure) : UInt32 :=
  (s.sumEcnNCE.toFloat32 / s.sampleCount.toFloat32 * 100).toUInt32

/-- `toDB_measure_packet`. -/
def toDbMeasurePacket (s : AggregateMeasure) (time : UInt64) : Option DbMeasurePacket :=
  s.loadKbits.bind fun loadKbits =>
    (s.sampleCapacityKbits loadKbits).bind fun capacityKbits =>
      (divUInt32 s.sumSojournTimeMs s.sampleCount).map fun packetSojournTimeMs =>
        { time := time
          packetSojournTimeMs := packetSojournTimeMs
          loadKbits := loadKbits
          ecn := s.ecnPercent
          dropped := s.sumDropped
          fkFlowId := s.netFlow.flowId
          capacitykbits := capacityKbits
          netFlowString := s.netFlow.measureIdStr
          netFlowPrio := s.netFlow.prio }

end AggregateMeasure

end Jens
