import Jens.Datatypes.Session
import Jens.TrafficControl.Params

/-!
# The start parameters of a session

`initTc` is the part of `DrpPlayer.initTC` that turns a session into `TrafficControlStartParams`.
-/

namespace Jens.DbSession

/-- The parameters of a session, at a given data rate. -/
def startParams (s : DbSession) (datarate : UInt32) : TrafficControlStartParams where
  datarate := datarate
  queueSize := s.queuesizepackets.toInt
  addonLatency := s.extralatencyMs.toInt
  markfree := s.markfree.toInt
  markfull := s.markfull.toInt
  qosmode := s.qosmode

/-- `initTC`: the data rate is twice the first value of the pattern.  Doubling does not round; a
product past the largest `float64` is far from fitting, and `cv` says what becomes of it. -/
def initTc (cv : F64.FloatConv) (s : DbSession) : TrafficControlStartParams :=
  s.startParams (F64.toUint32 cv (s.childDrp.peek.mul (.fin 2)))

end Jens.DbSession
