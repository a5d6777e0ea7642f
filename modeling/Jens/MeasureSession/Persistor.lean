import Jens.Datatypes.Measure
import Jens.Lib.Chan

/-!
# `MeasureSessionPersistor.Run`

The loop waits for its one-second ticker or for the exit signal.  A tick drains the sample channel,
hands every sample to `persist` and commits; the exit signal, or a closed channel met while
draining, closes the persistor and ends the loop.

`Persistor.step` is the loop as a machine; an event says how the environment answers where the loop
stands.  Without a persistence (`db`) every use of it is a panic.  The field `handed` records the
samples handed to `persist`, in order.  `Persistor.interact` ties the events to the sample channel
and to the exit signal, and `PersistorSystem` is the loop among any senders.
-/

namespace Jens

/-- Where the loop stands. -/
inductive PersistorPc
  /-- Before `GetPersistence`. -/
  | start
  /-- Reporting that there is no persistence; `report_error` has no timeout. -/
  | reportingStart
  /-- At the outer `select`. -/
  | select
  /-- At the inner `select`, which reads the sample channel. -/
  | draining
  /-- In `persist`. -/
  | persisting
  /-- In `report_error`, after a failed `persist` or a value of an unexpected type. -/
  | reporting
  /-- Before the `Commit` at the end of a round. -/
  | committing
  /-- Before `s.close()`. -/
  | closing
  /-- Before `done()`. -/
  | leaving
  | returned
  /-- A nil dereference: there is no persistence. -/
  | panicked
  deriving DecidableEq, Repr

structure Persistor where
  pc : PersistorPc
  db : Bool
  handed : List Sample
  deriving DecidableEq, Repr

inductive PersistorEvent
  /-- `GetPersistence` returns, with or without an error. -/
  | persistence (ok : Bool)
  /-- The report is received. -/
  | reported
  /-- The outer `select` takes the exit signal. -/
  | exit
  /-- The outer `select` takes the ticker. -/
  | tick
  | recv (sample : Sample)
  /-- The channel is closed and empty. -/
  | recvClosed
  /-- The `default` of the inner `select`. -/
  | empty
  /-- `persist` returns, with or without an error. -/
  | persisted (ok : Bool)
  | commit
  | close
  | done
  deriving DecidableEq, Repr

/-- The samples `Run` hands to `persist`; anything else is reported. -/
def Sample.isMeasure : Sample → Bool
  | .packet _ => true
  | .queue _ => true
  | .other => false

namespace Persistor

/-- The loop as it is launched. -/
def init : Persistor := ⟨.start, false, []⟩

/-- One step of the loop; `none` when the event cannot happen where it stands. -/
def step (s : Persistor) (e : PersistorEvent) : Option Persistor :=
  match s.pc, e with
  | .start, .persistence ok =>
    some (if ok then { s with pc := .select, db := true } else { s with pc := .reportingStart })
  | .reportingStart, .reported => some { s with pc := .select }
  | .select, .exit => some { s with pc := .closing }
  | .select, .tick => some { s with pc := .draining }
  | .draining, .recv x =>
    some (if x.isMeasure then { s with pc := .persisting, handed := s.handed ++ [x] }
          else { s with pc := .reporting })
  | .draining, .recvClosed => some { s with pc := .closing }
  | .draining, .empty => some { s with pc := .committing }
  | .persisting, .persisted ok =>
    some (if !s.db then { s with pc := .panicked }
          else if ok then { s with pc := .draining } else { s with pc := .reporting })
  | .reporting, .reported => some { s with pc := .draining }
  | .committing, .commit => some { s with pc := if s.db then .select else .panicked }
  | .closing, .close => some { s with pc := if s.db then .leaving else .panicked }
  | .leaving, .done => some { s with pc := .returned }
  | _, _ => none

/-- The loop will receive nothing more. -/
def left (s : Persistor) : Bool :=
  match s.pc with
  | .closing | .leaving | .returned => true
  | _ => false

/-- A step of the loop on its sample channel and its exit signal. -/
def interact {cap : ℕ} (s : Persistor) (exitPersistor : Bool) (samples : Chan Sample cap)
    (e : PersistorEvent) : Option (Persistor × Chan Sample cap) :=
  match e, samples.recv with
  | .exit, _ => if exitPersistor then (s.step .exit).map fun s' => (s', samples) else none
  | .recv x, .value y samples' =>
    if x = y then (s.step (.recv x)).map fun s' => (s', samples') else none
  | .recv _, _ => none
  | .recvClosed, .closed => (s.step .recvClosed).map fun s' => (s', samples)
  | .recvClosed, _ => none
  | .empty, .blocks => (s.step .empty).map fun s' => (s', samples)
  | .empty, _ => none
  | e, _ => (s.step e).map fun s' => (s', samples)

end Persistor

/-- The loop, its sample channel and its exit signal; `enqueued` records what was sent. -/
structure PersistorSystem (cap : ℕ) where
  persistor : Persistor
  samples : Chan Sample cap
  exitPersistor : Bool
  enqueued : List Sample
  deriving DecidableEq

inductive PersistorAction
  /-- A sender puts a value into the channel. -/
  | enqueue (x : Sample)
  /-- A send meets the receive of the loop; without capacity there is no other way. -/
  | handOver (x : Sample)
  /-- The sample channel is closed. -/
  | closeSamples
  /-- `Exit`. -/
  | exit
  | run (e : PersistorEvent)
  deriving DecidableEq, Repr

namespace PersistorSystem

variable {cap : ℕ}

def init : PersistorSystem cap := ⟨.init, .make, false, []⟩

/-- One step of the system.  A second `Exit` would be the close of a closed channel. -/
def step (s : PersistorSystem cap) : PersistorAction → Option (PersistorSystem cap)
  | .enqueue x =>
    match s.samples.send x with
    | .sent samples => some { s with samples := samples, enqueued := s.enqueued ++ [x] }
    | _ => none
  | .handOver x =>
    if s.samples.closed = false ∧ s.samples.buf = [] then
      (s.persistor.step (.recv x)).map fun p =>
        { s with persistor := p, enqueued := s.enqueued ++ [x] }
    else none
  | .closeSamples => s.samples.close.map fun samples => { s with samples := samples }
  | .exit => if s.exitPersistor then none else some { s with exitPersistor := true }
  | .run e =>
    (s.persistor.interact s.exitPersistor s.samples e).map fun r =>
      { s with persistor := r.1, samples := r.2 }

end PersistorSystem

end Jens
