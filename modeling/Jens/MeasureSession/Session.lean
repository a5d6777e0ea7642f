import Jens.MeasureSession.Poll
import Jens.MeasureSession.Persistor

/-!
# The measure session: three goroutines on two channels

`poll` and `aggregateMeasures` send to `chan_to_persistence`, which `Run` of the persistor reads and
`aggregateMeasures` closes; `poll` sends to `chan_to_aggregation`, which `aggregateMeasures` reads
and `poll` closes.  A fourth goroutine waits for `On_extern_exit_c`, sets `should_end` and calls the
persistor's `Exit`.

`MeasureSession.step` interleaves them.  A send and a receive on a channel with room are two steps;
where a send meets a receive (`handPacket`, `handQueue`, `handSample`) they are one, which is the
only way without capacity.  A send on a closed channel and a second close are panics: they end the
process, and `crash` says which it was.
-/

namespace Jens

/-- Where the goroutine waiting for the exit signal stands. -/
inductive ExiterPc
  | waiting
  /-- Before `persistor.Exit()`. -/
  | exiting
  | returned
  deriving DecidableEq, Repr

/-- The panics of the channels. -/
inductive Crash
  | sendOnClosed
  | closeOfClosed
  deriving DecidableEq, Repr

structure MeasureSession (capA capP : ℕ) where
  onExternExit : Bool
  exiter : ExiterPc
  shouldEnd : Bool
  currentCapacityKbits : UInt64
  poll : PollPc
  aggregator : Aggregator
  persistor : Persistor
  exitPersistor : Bool
  toAggregation : Chan PacketMeasure capA
  toPersistence : Chan Sample capP
  crash : Option Crash

inductive SessionAction
  /-- `On_extern_exit_c` is closed. -/
  | externExit
  /-- `m.should_end = true`. -/
  | endSession
  /-- `m.persistor.Exit()`. -/
  | exitPersistor
  | poll (e : PollEvent)
  | aggregate (e : AggregatorEvent)
  | persist (e : PersistorEvent)
  /-- A send of `poll` to `chan_to_aggregation` meets the receive. -/
  | handPacket
  /-- A send of `poll` to `chan_to_persistence` meets the receive. -/
  | handQueue
  /-- A send of `aggregateMeasures` meets the receive. -/
  | handSample

namespace MeasureSession

variable {capA capP : ℕ}

/-- The session after `NewMeasureSession`, with its goroutines launched.  `currentCapacityKbits` is
a variable of the package, so it has the value that an earlier session has left. -/
def init (capacity : UInt64) : MeasureSession capA capP where
  onExternExit := false
  exiter := .waiting
  shouldEnd := false
  currentCapacityKbits := capacity
  poll := .opening
  aggregator := .init
  persistor := .init
  exitPersistor := false
  toAggregation := .make
  toPersistence := .make
  crash := none

/-- A goroutine has panicked, and with it the process. -/
def dead (s : MeasureSession capA capP) : Bool :=
  s.crash.isSome
    || (match s.aggregator.pc with | .panicked => true | _ => false)
    || (match s.persistor.pc with | .panicked => true | _ => false)

/-- A send to `chan_to_aggregation` by `poll`, which then stands at `poll`. -/
def sendPacket (s : MeasureSession capA capP) (poll : PollPc) (m : PacketMeasure) :
    Option (MeasureSession capA capP) :=
  match s.toAggregation.send m with
  | .sent c => some { s with poll := poll, toAggregation := c }
  | .blocks => none
  | .panics => some { s with crash := some .sendOnClosed }

/-- A send to `chan_to_persistence` by `poll`. -/
def sendQueue (s : MeasureSession capA capP) (poll : PollPc) (q : DbMeasureQueue) :
    Option (MeasureSession capA capP) :=
  match s.toPersistence.send (.queue q) with
  | .sent c => some { s with poll := poll, toPersistence := c }
  | .blocks => none
  | .panics => some { s with crash := some .sendOnClosed }

/-- A send to `chan_to_persistence` by `aggregateMeasures`. -/
def sendSample (s : MeasureSession capA capP) (aggregator : Aggregator) (sample : DbMeasurePacket) :
    Option (MeasureSession capA capP) :=
  match s.toPersistence.send (.packet sample) with
  | .sent c => some { s with aggregator := aggregator, toPersistence := c }
  | .blocks => none
  | .panics => some { s with crash := some .sendOnClosed }

/-- A step of `poll` on its channels. -/
def stepPoll (p : SessionParams) (s : MeasureSession capA capP) (e : PollEvent) :
    Option (MeasureSession capA capP) :=
  (s.poll.step p s.shouldEnd e).bind fun poll =>
    match e, s.poll with
    | .record r, _ =>
      some { s with
        poll := poll
        currentCapacityKbits :=
          if r.typeId = RecordArray.recordTypeQ then RecordArray.capacityKbits r
          else s.currentCapacityKbits }
    | .sent, .sendingPacket m => s.sendPacket poll m
    | .sent, .sendingQueue q => s.sendQueue poll q
    | .close, _ =>
      match s.toAggregation.close with
      | some c => some { s with poll := poll, toAggregation := c }
      | none => some { s with crash := some .closeOfClosed }
    | _, _ => some { s with poll := poll }

/-- A step of `aggregateMeasures` on its channels. -/
def stepAggregator (p : SessionParams) (s : MeasureSession capA capP) (e : AggregatorEvent) :
    Option (MeasureSession capA capP) :=
  (s.aggregator.step p e).bind fun aggregator =>
    match e, s.aggregator.pc with
    | .recv m, _ =>
      match s.toAggregation.recv with
      | .value m' c =>
        if m = m' then some { s with aggregator := aggregator, toAggregation := c } else none
      | _ => none
    | .recvClosed, _ =>
      match s.toAggregation.recv with
      | .closed => some { s with aggregator := aggregator }
      | _ => none
    | .empty, _ =>
      match s.toAggregation.recv with
      | .blocks => some { s with aggregator := aggregator }
      | _ => none
    | .flowPersisted _ _ capacity, _ =>
      if capacity = s.currentCapacityKbits then some { s with aggregator := aggregator } else none
    | .sent, .sending _ sample _ => s.sendSample aggregator sample
    | .close, _ =>
      match s.toPersistence.close with
      | some c => some { s with aggregator := aggregator, toPersistence := c }
      | none => some { s with crash := some .closeOfClosed }
    | _, _ => some { s with aggregator := aggregator }

/-- A send of a packet meets the receive of `aggregateMeasures`. -/
def stepHandPacket (p : SessionParams) (s : MeasureSession capA capP) :
    Option (MeasureSession capA capP) :=
  match s.poll with
  | .sendingPacket m =>
    if s.toAggregation.closed = false ∧ s.toAggregation.buf = [] then
      (s.aggregator.step p (.recv m)).map fun aggregator =>
        { s with poll := .atLoop, aggregator := aggregator }
    else none
  | _ => none

/-- A send of a queue sample meets the receive of the persistor. -/
def stepHandQueue (s : MeasureSession capA capP) : Option (MeasureSession capA capP) :=
  match s.poll with
  | .sendingQueue q =>
    if s.toPersistence.closed = false ∧ s.toPersistence.buf = [] then
      (s.persistor.step (.recv (.queue q))).map fun persistor =>
        { s with poll := .atLoop, persistor := persistor }
    else none
  | _ => none

/-- A send of an aggregated sample meets the receive of the persistor. -/
def stepHandSample (p : SessionParams) (s : MeasureSession capA capP) :
    Option (MeasureSession capA capP) :=
  match s.aggregator.pc with
  | .sending _ sample _ =>
    if s.toPersistence.closed = false ∧ s.toPersistence.buf = [] then
      (s.aggregator.step p .sent).bind fun aggregator =>
        (s.persistor.step (.recv (.packet sample))).map fun persistor =>
          { s with aggregator := aggregator, persistor := persistor }
    else none
  | _ => none

/-- One step of the session. -/
def step (p : SessionParams) (s : MeasureSession capA capP) (a : SessionAction) :
    Option (MeasureSession capA capP) :=
  if s.dead then none
  else
    match a with
    | .externExit => if s.onExternExit then none else some { s with onExternExit := true }
    | .endSession =>
      if s.onExternExit = true ∧ s.exiter = .waiting then
        some { s with shouldEnd := true, exiter := .exiting }
      else none
    | .exitPersistor =>
      if s.exiter = .exiting then some { s with exitPersistor := true, exiter := .returned }
      else none
    | .poll e => s.stepPoll p e
    | .aggregate e => s.stepAggregator p e
    | .persist e =>
      (s.persistor.interact s.exitPersistor s.toPersistence e).map fun r =>
        { s with persistor := r.1, toPersistence := r.2 }
    | .handPacket => s.stepHandPacket p
    | .handQueue => s.stepHandQueue
    | .handSample => s.stepHandSample p

end MeasureSession

end Jens
