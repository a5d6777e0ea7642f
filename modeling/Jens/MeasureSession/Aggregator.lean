import Jens.MeasureSession.AggregateMeasure
import Mathlib.Data.List.AList

/-!
# `MeasureSession.aggregateMeasures`

The goroutine collects the packets of one window in a map with one `AggregateMeasure` a flow and
sends a sample of each to `chan_to_persistence`.  A window is opened by a blocking receive; inside
it the receive is the case of a `select` with a `default`, so the window ends when the channel is
found empty, when a packet lies `SAMPLE_DURATION_MS` behind the first one, or when the channel is
closed.

`Aggregator.step` is the goroutine as a machine: an event says how the environment answers where the
goroutine stands (what it receives, how a database call ends, which key the range over the map comes
to next).  A `ReportFatal` before an error return changes nothing here and is left out.  The fields
`received`, `added` and `failed` record what has happened: the packets received, each with the
receive it came from; the calls of `add`, each with the key of its aggregate and the packet as it
was received; an error return.
-/

namespace Jens

/-- What is fixed for a session. -/
structure SessionParams where
  sessionId : ℤ
  /-- `time_diff`: system clock minus monotonic clock. -/
  timeDiff : UInt64
  /-- `ParentBenchmark.CsvOuptut`. -/
  csvOutput : Bool
  deriving DecidableEq, Repr

/-- The variables of one round of the window loop. -/
structure Window where
  packetStartTimeMs : UInt64
  /-- `message`: the packet received last. -/
  message : PacketMeasure
  mapMeasures : AList fun _ : String => AggregateMeasure
  deriving DecidableEq

namespace Window

/-- The window as the blocking receive opens it. -/
def opened (message : PacketMeasure) : Window := ⟨message.timestampMs, message, ∅⟩

/-- The packet ends the window: it lies `sampleDuration` behind the first one. -/
def ends (w : Window) (message : PacketMeasure) : Bool :=
  (message.timestampMs - w.packetStartTimeMs).toInt64.toInt ≥ sampleDurationMs

/-- The key of the packet in `message`. -/
def key (w : Window) : String := w.message.netFlow.measureIdStr

/-- What `Persist` writes into the flow objects: the id into the flow of the packet and, when the
one in the cache is the one the aggregate refers to (`cached`), the priority of the packet into
that. -/
def persisted (w : Window) (flowId : ℤ) (cached : Bool) : Window :=
  let flow := w.message.netFlow
  { w with
    message := { w.message with netFlow := { flow with flowId := flowId } }
    mapMeasures :=
      match w.mapMeasures.lookup w.key with
      | some measure =>
        if cached then
          w.mapMeasures.insert w.key
            { measure with netFlow := { measure.netFlow with prio := flow.prio } }
        else w.mapMeasures
      | none => w.mapMeasures }

/-- Look up the aggregate of the packet in `message`, a new one when its flow has none yet, and call
`add` on it. -/
def addMessage (w : Window) (capacity : UInt64) : Window :=
  let measure := (w.mapMeasures.lookup w.key).getD (.new w.message.netFlow)
  { w with mapMeasures := w.mapMeasures.insert w.key (measure.add w.message capacity) }

end Window

/-- A packet received, and whether by the receive that opens a window. -/
structure Receipt where
  message : PacketMeasure
  opens : Bool
  deriving DecidableEq, Repr

/-- Where the goroutine stands. -/
inductive AggregatorPc
  /-- Before `GetPersistence`. -/
  | start
  /-- Waiting for the ticker. -/
  | ticker
  /-- At the blocking receive. -/
  | opening
  /-- At the `select` of the window loop. -/
  | reading (w : Window)
  /-- In `Persist` of the flow of the packet just received. -/
  | persisting (w : Window) (readMessages : Bool)
  /-- In the range over the map, with the aggregates not yet visited. -/
  | emitting (w : Window) (rest : List AggregateMeasure)
  /-- At the send of a sample. -/
  | sending (w : Window) (sample : DbMeasurePacket) (rest : List AggregateMeasure)
  /-- In the deferred function, before `close`. -/
  | closing
  /-- In the deferred function, before `wg.Done`. -/
  | leaving
  | returned
  /-- A division by zero. -/
  | panicked
  deriving DecidableEq

structure Aggregator where
  pc : AggregatorPc
  received : List Receipt
  added : List (String × PacketMeasure)
  failed : Bool
  deriving DecidableEq

inductive AggregatorEvent
  /-- `GetPersistence` returns, with or without an error. -/
  | persistence (ok : Bool)
  | tick
  | recv (message : PacketMeasure)
  /-- The channel is closed and empty. -/
  | recvClosed
  /-- The `default` of the `select`. -/
  | empty
  /-- `Persist` returns without an error; the packet is added with the capacity read then. -/
  | flowPersisted (flowId : ℤ) (cached : Bool) (capacity : UInt64)
  | flowFailed
  /-- The range over the map comes to the aggregate with this index. -/
  | next (i : ℕ)
  | rangeDone
  /-- The send of the sample completes. -/
  | sent
  /-- `close(chan_to_persistence)`. -/
  | close
  | wgDone
  deriving DecidableEq, Repr

namespace Aggregator

/-- The goroutine as it is launched. -/
def init : Aggregator := ⟨.start, [], [], false⟩

/-- Leave the window loop and range over the map. -/
def emit (w : Window) : AggregatorPc := .emitting w (w.mapMeasures.entries.map Sigma.snd)

/-- One aggregate of the range: without a forwarded packet it is skipped, and so is a sample without
capacity when the session writes csv files. -/
def onNext (p : SessionParams) (w : Window) (measure : AggregateMeasure)
    (rest : List AggregateMeasure) : AggregatorPc :=
  if measure.sampleCount = 0 then .emitting w rest
  else
    match measure.toDbMeasurePacket (w.message.timestampMs + p.timeDiff) with
    | none => .panicked
    | some sample =>
      if p.csvOutput ∧ sample.capacitykbits = 0 then .emitting w rest else .sending w sample rest

/-- One step of the goroutine; `none` when the event cannot happen where it stands. -/
def step (p : SessionParams) (s : Aggregator) (e : AggregatorEvent) : Option Aggregator :=
  match s.pc, e with
  | .start, .persistence ok =>
    some (if ok then { s with pc := .ticker } else { s with pc := .closing, failed := true })
  | .ticker, .tick => some { s with pc := .opening }
  | .opening, .recv m =>
    some { s with pc := .reading (.opened m), received := s.received ++ [⟨m, true⟩] }
  | .opening, .recvClosed => some { s with pc := .closing }
  | .reading w, .recv m =>
    some { s with pc := .persisting { w with message := m } (!w.ends m),
                  received := s.received ++ [⟨m, false⟩] }
  | .reading _, .recvClosed => some { s with pc := .closing }
  | .reading w, .empty => some { s with pc := emit w }
  | .persisting w readMessages, .flowPersisted flowId cached capacity =>
    let w' := w.persisted flowId cached
    let w'' := w'.addMessage capacity
    some { s with pc := if readMessages then .reading w'' else emit w'',
                  added := s.added ++ [(w'.key, w.message)] }
  | .persisting _ _, .flowFailed => some { s with pc := .closing, failed := true }
  | .emitting w rest, .next i =>
    rest[i]?.map fun measure => { s with pc := onNext p w measure (rest.eraseIdx i) }
  | .emitting _ [], .rangeDone => some { s with pc := .ticker }
  | .sending w _ rest, .sent => some { s with pc := .emitting w rest }
  | .closing, .close => some { s with pc := .leaving }
  | .leaving, .wgDone => some { s with pc := .returned }
  | _, _ => none

/-- The goroutine will receive nothing more. -/
def left (s : Aggregator) : Bool :=
  match s.pc with
  | .closing | .leaving | .returned => true
  | _ => false

end Aggregator

end Jens
