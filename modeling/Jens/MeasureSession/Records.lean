import Jens.Datatypes.Measure
import Jens.Lib.LittleEndian

/-!
# `record_array.go`: the records of the kernel

A record has 64 bytes; `typeId` tells packet records from queue records.  `asPacketMeasure` decodes
a packet record; `queueMeasure` is what `poll` reads from a queue record.
-/

namespace Jens

/-- `measuresession.RecordArray`, as long as `poll` makes it. -/
abbrev RecordArray := Vector UInt8 64

/-- `measuresession.PacketMeasure`. -/
structure PacketMeasure where
  timestampMs : UInt64
  sojournTimeMs : UInt32
  ecnIn : UInt8
  ecnOut : UInt8
  ecnValid : Bool
  slow : Bool
  mark : Bool
  drop : Bool
  ipVersion : UInt8
  packetSizeByte : UInt32
  netFlow : DbNetworkFlow
  deriving DecidableEq, Repr

namespace RecordArray

/-- `RECORD_TYPE_Q`. -/
def recordTypeQ : UInt8 := 6

/-- `RECORD_TYPE_P`. -/
def recordTypeP : UInt8 := 7

/-- `TC_JENS_RELAY_ECN_VALID`. -/
def tcJensRelayEcnValid : UInt8 := (1 : UInt8) <<< 2

/-- `TC_JENS_RELAY_SOJOURN_SLOW`. -/
def tcJensRelaySojournSlow : UInt8 := (1 : UInt8) <<< 5

/-- `TC_JENS_RELAY_SOJOURN_MARK`. -/
def tcJensRelaySojournMark : UInt8 := (1 : UInt8) <<< 6

/-- `TC_JENS_RELAY_SOJOURN_DROP`. -/
def tcJensRelaySojournDrop : UInt8 := (1 : UInt8) <<< 7

/-- `type_id`. -/
def typeId (r : RecordArray) : UInt8 := r[8]

/-- The little-endian number in `len` bytes from `start`. -/
def slice (r : RecordArray) (start len : ℕ) : ℕ := leNat ((r.toList.drop start).take len)

/-- `timestamp`: nanoseconds to milliseconds. -/
def timestamp (r : RecordArray) : UInt64 := UInt64.ofNat (r.slice 0 8) / 1000000

/-- `IP_TEMPLATE` over four bytes of the record. -/
def dotted (a b c d : UInt8) : String :=
  toString a.toNat ++ "." ++ toString b.toNat ++ "." ++ toString c.toNat ++ "." ++ toString d.toNat

/-- `AsPacketMeasure`; no value is the record of a packet that is not an IP packet. -/
def asPacketMeasure (record : RecordArray) (sessionId : ℤ) : Except String (Option PacketMeasure) :=
  if record.typeId ≠ recordTypeP then
    .error ("Cant Parse recordarray ["
      ++ " ".intercalate (record.toList.map fun b => toString b.toNat)
      ++ "] as PacketMeasure: invalid type")
  else
    let srcIp := dotted record[28] record[29] record[30] record[31]
    let dstIp := dotted record[44] record[45] record[46] record[47]
    let nextHdr := record[53]
    let hasPorts := nextHdr = 6 ∨ nextHdr = 17
    let srcPort : UInt16 := if hasPorts then UInt16.ofNat (record.slice 54 2) else 0
    let dstPort : UInt16 := if hasPorts then UInt16.ofNat (record.slice 56 2) else 0
    if srcIp = "0.0.0.0" ∧ dstIp = "0.0.0.0" then .ok none
    else
      let prio : UInt8 := (record[51] &&& 0b11000000) >>> 6
      -- the two bits of the priority are cleared before the size is read
      let record : RecordArray := record.set 51 (record[51] &&& 0b00111111)
      .ok (some {
        timestampMs := record.timestamp
        sojournTimeMs := UInt32.ofNat (record.slice 12 4) / 1000
        ecnIn := record[9] &&& 3
        ecnOut := (record[9] &&& 24) >>> 3
        ecnValid := (record[9] &&& tcJensRelayEcnValid) != 0
        slow := (record[9] &&& tcJensRelaySojournSlow) != 0
        mark := (record[9] &&& tcJensRelaySojournMark) != 0
        drop := (record[9] &&& tcJensRelaySojournDrop) != 0
        ipVersion := record[52]
        packetSizeByte := UInt32.ofNat (record.slice 48 4)
        netFlow :=
          { flowId := 0
            sessionId := sessionId
            sourceIp := srcIp
            sourcePort := srcPort
            destinationIp := dstIp
            destinationPort := dstPort
            prio := prio } })

/-- `CapacityKbits` of a queue record. -/
def capacityKbits (r : RecordArray) : UInt64 := UInt64.ofNat (r.slice 16 8) / 1000

/-- The sample `poll` makes of a queue record. -/
def queueMeasure (r : RecordArray) (timeDiff : UInt64) (sessionId : ℤ) : DbMeasureQueue where
  time := r.timestamp + timeDiff
  memoryusagebytes := UInt32.ofNat (r.slice 12 4)
  packetsInQueue := UInt16.ofNat (r.slice 10 2)
  capacityKbits := r.capacityKbits
  fkSessionTagId := sessionId

end RecordArray

end Jens
