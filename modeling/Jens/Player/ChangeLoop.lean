import Jens.Drp.Pattern
import Jens.TrafficControl.Params
import Jens.Util.ObservedRoutines

/-!
# `TrafficControl.LaunchChangeLoop`

The loop waits for its ticker or for the exit signal.  A tick takes the next value of the pattern
and writes it to the control file; the end of the pattern is signalled on
`Application_has_finished`, a failed write is reported as fatal, and every way out calls `Wg.Done`.

The fields `written`, `finished` and `wgDone` record what the loop has done so far: the blocks it
wrote to the control file, the sends on `Application_has_finished` that completed, the calls of
`Wg.Done`.
-/

namespace Jens

/-- Where the loop stands. -/
inductive LoopPc
  /-- At the `select`. -/
  | select
  /-- At the send on `Application_has_finished`. -/
  | finishing
  /-- In `ReportFatal`, after a failed write. -/
  | reportingFatal
  | returned
  /-- A run-time panic in `Next`. -/
  | panicked
  deriving DecidableEq, Repr

structure ChangeLoop where
  pc : LoopPc
  drp : DbDataRatePattern
  written : List (List UInt8)
  finished : ℕ
  wgDone : ℕ
  deriving DecidableEq

/-- What the loop meets. -/
inductive LoopEvent
  /-- The `select` takes the exit signal. -/
  | exit
  /-- The `select` takes the ticker; `writeOk` is the outcome of the write, if there is one. -/
  | tick (writeOk : Bool)
  /-- The send on `Application_has_finished` is received. -/
  | finishTaken
  /-- `ReportFatal` returns: the report was received or timed out. -/
  | reportOver
  deriving DecidableEq, Repr

namespace ChangeLoop

/-- The loop as it is launched. -/
def launch (drp : DbDataRatePattern) : ChangeLoop where
  pc := .select
  drp := drp
  written := []
  finished := 0
  wgDone := 0

/-- `r.Wg.Done()` followed by `return`. -/
def doneAndReturn (l : ChangeLoop) : ChangeLoop :=
  { l with pc := .returned, wgDone := l.wgDone + 1 }

/-- The branch of the ticker.  The only error value `Next` returns is the end of the pattern, so the
branch that reports another one as a warning is dead. -/
def onTick (cv : F64.FloatConv) (l : ChangeLoop) (writeOk : Bool) : ChangeLoop :=
  match l.drp.next with
  | .error .iterableStop => { l with pc := .finishing }
  | .error _ => { l with pc := .panicked }
  | .ok (value, drp) =>
    if writeOk then { l with drp := drp, written := l.written ++ [changeRateArray cv value] }
    else { l with drp := drp, pc := .reportingFatal }

/-- One step of the loop; `none` when the event cannot happen where the loop stands. -/
def step (cv : F64.FloatConv) (l : ChangeLoop) : LoopEvent → Option ChangeLoop
  | .exit => if l.pc = .select then some l.doneAndReturn else none
  | .tick writeOk => if l.pc = .select then some (l.onTick cv writeOk) else none
  | .finishTaken =>
    if l.pc = .finishing then some { l.doneAndReturn with finished := l.finished + 1 } else none
  | .reportOver => if l.pc = .reportingFatal then some l.doneAndReturn else none

end ChangeLoop

end Jens
