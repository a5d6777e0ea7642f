import Mathlib.Data.Int.Notation
import Mathlib.Tactic.Common

/-!
# `datatypes`: network flows and measured samples

`DbNetworkFlow`, `DbMeasurePacket` and `DbMeasureQueue` are the rows of `network_flow.go`,
`measure_packet.go` and `measure_queue.go`.  A flow caches its `MeasureIdStr` on the first call; the
fields it is made of are never written afterwards, so it is a function of the flow here.
-/

namespace Jens

/-- `datatypes.DB_network_flow`. -/
structure DbNetworkFlow where
  flowId : ℤ
  sessionId : ℤ
  sourceIp : String
  sourcePort : UInt16
  destinationIp : String
  destinationPort : UInt16
  prio : UInt8
  deriving DecidableEq, Repr

/-- `MeasureIdStr`. -/
def DbNetworkFlow.measureIdStr (s : DbNetworkFlow) : String :=
  s.sourceIp ++ ":" ++ toString s.sourcePort.toNat ++ "-"
    ++ s.destinationIp ++ ":" ++ toString s.destinationPort.toNat

/-- `datatypes.DB_measure_packet`. -/
structure DbMeasurePacket where
  time : UInt64
  packetSojournTimeMs : UInt32
  loadKbits : UInt32
  ecn : UInt32
  dropped : UInt32
  fkFlowId : ℤ
  capacitykbits : UInt32
  netFlowString : String
  netFlowPrio : UInt8
  deriving DecidableEq, Repr

/-- `CsvRecord`. -/
def DbMeasurePacket.csvRecord (s : DbMeasurePacket) : List String :=
  [toString s.time.toNat, toString s.packetSojournTimeMs.toNat, toString s.loadKbits.toNat,
    toString s.capacitykbits.toNat, toString s.ecn.toNat, toString s.dropped.toNat,
    toString s.netFlowPrio.toNat, s.netFlowString]

/-- What `PrintLine` prints: the values with a blank between them, and a newline. -/
def DbMeasurePacket.printLine (s : DbMeasurePacket) : String :=
  " ".intercalate [toString s.time.toNat, toString s.packetSojournTimeMs.toNat,
    toString s.loadKbits.toNat, toString s.capacitykbits.toNat, toString s.ecn.toNat,
    toString s.dropped.toNat, toString s.netFlowPrio.toNat, s.netFlowString] ++ "\n"

/-- `datatypes.DB_measure_queue`. -/
structure DbMeasureQueue where
  time : UInt64
  memoryusagebytes : UInt32
  packetsInQueue : UInt16
  capacityKbits : UInt64
  fkSessionTagId : ℤ
  deriving DecidableEq, Repr

/-- `CsvRecord`. -/
def DbMeasureQueue.csvRecord (s : DbMeasureQueue) : List String :=
  [toString s.time.toNat, toString s.memoryusagebytes.toNat, toString s.packetsInQueue.toNat]

/-- What goes through `chan_to_persistence`, a channel of `interface{}`. -/
inductive Sample
  | packet (p : DbMeasurePacket)
  | queue (q : DbMeasureQueue)
  /-- A value of another type. -/
  | other
  deriving DecidableEq, Repr

end Jens
