import Jens.MeasureSession.Aggregator

/-!
# `MeasureSession.poll`

The polling loop reads one record after the other: packets go to `chan_to_aggregation`, samples of
the queue straight to `chan_to_persistence`.  It checks `should_end` at the head of the loop and
again before it sends a queue sample; when it ends it closes `chan_to_aggregation`.

`PollPc.step` is the loop as a machine.  A report of a short read or of a record of unknown type
changes nothing here and is left out.
-/

namespace Jens

/-- Where the loop stands. -/
inductive PollPc
  /-- Opening the file and skipping the records of the warm-up. -/
  | opening
  /-- At the loop condition. -/
  | atLoop
  /-- In the poll of the file or the read. -/
  | polling
  /-- At the send to `chan_to_aggregation`. -/
  | sendingPacket (m : PacketMeasure)
  /-- At the second check of `should_end`. -/
  | checking (q : DbMeasureQueue)
  /-- At the send to `chan_to_persistence`. -/
  | sendingQueue (q : DbMeasureQueue)
  /-- In the deferred function, before `wg.Done`. -/
  | leaving
  /-- In the deferred function, before `close`. -/
  | closing
  | returned
  deriving DecidableEq, Repr

inductive PollEvent
  | opened
  /-- `should_end` is read at the loop condition. -/
  | loop
  /-- The poll times out or fails. -/
  | timeout
  /-- Fewer bytes than a record are read. -/
  | shortRead
  | record (r : RecordArray)
  /-- `should_end` is read before the send of a queue sample. -/
  | check
  /-- The send completes. -/
  | sent
  | wgDone
  /-- `close(chan_to_aggregation)`. -/
  | close
  deriving DecidableEq

namespace PollPc

/-- What becomes of a record: a packet or a queue sample to send, or nothing. -/
def onRecord (p : SessionParams) (r : RecordArray) : PollPc :=
  if r.typeId = RecordArray.recordTypeP then
    match RecordArray.asPacketMeasure r p.sessionId with
    | .ok (some m) => .sendingPacket m
    -- not an IP packet; an error would be reported as a warning, with nothing to send either
    | _ => .atLoop
  else if r.typeId = RecordArray.recordTypeQ then
    .checking (RecordArray.queueMeasure r p.timeDiff p.sessionId)
  else .atLoop

/-- One step of the loop; `none` when the event cannot happen where it stands. -/
def step (p : SessionParams) (shouldEnd : Bool) (pc : PollPc) (e : PollEvent) : Option PollPc :=
  match pc, e with
  | .opening, .opened => some .atLoop
  | .atLoop, .loop => some (if shouldEnd then .leaving else .polling)
  | .polling, .timeout => some .atLoop
  | .polling, .shortRead => some .atLoop
  | .polling, .record r => some (onRecord p r)
  | .checking q, .check => some (if shouldEnd then .leaving else .sendingQueue q)
  | .sendingPacket _, .sent => some .atLoop
  | .sendingQueue _, .sent => some .atLoop
  | .leaving, .wgDone => some .closing
  | .closing, .close => some .returned
  | _, _ => none

end PollPc

end Jens
