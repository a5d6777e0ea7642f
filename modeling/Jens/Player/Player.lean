import Jens.Player.ChangeLoop
import Jens.Lib.Steps

/-!
# The player: start, listener, change loop and reports

`DrpPlayer.Start` launches a listener goroutine, initialises traffic control, waits for the warm-up
and launches the measure session and the change loop.  The goroutines meet on three unbuffered
channels: `Send_error_c` (reports), `Application_has_finished` (the pattern is over) and
`On_extern_exit_c`, which is only ever closed.  A send on an unbuffered channel and its receive are
one step of both parties.

`Player.step` is the step function of the whole; its actions say which goroutine moves and how the
environment answers.  A goroutine of the measure session appears as a report it offers: any number
of them may be pending, of any level.
-/

namespace Jens

/-- Where the listener goroutine of `Start` stands. -/
inductive ListenerPc
  /-- At its `select`. -/
  | select
  /-- It took a message after which it closes `On_extern_exit_c`, by `Exit` (`andWait`) or by
  `ExitNoWait`, and has not closed it yet. -/
  | closing (andWait : Bool)
  /-- In the `Wait` of `Exit`. -/
  | waiting
  | returned
  deriving DecidableEq, Repr

/-- Where `Start` itself stands. -/
inductive StartPc
  | initTc
  | warmup
  /-- Measure session and change loop are launched. -/
  | running
  /-- Returned before anything was launched. -/
  | returned
  deriving DecidableEq, Repr

structure Player where
  start : StartPc
  listener : ListenerPc
  /-- `On_extern_exit_c` is closed. -/
  onExternExit : Bool
  isShuttingDown : Bool
  drp : DbDataRatePattern
  loop : Option ChangeLoop
  /-- The goroutines standing at their send on `Send_error_c`. -/
  reports : List Report
  deriving DecidableEq

inductive PlayerAction
  /-- `initTC` returns, with or without an error. -/
  | initTc (ok : Bool)
  /-- The `select` of the warm-up takes the timer. -/
  | warmupOver
  /-- The `select` of the warm-up takes the exit signal. -/
  | warmupExit
  /-- `Exit` or `ExitNoWait` is called from outside. -/
  | exit
  /-- A goroutine of the measure session begins to report. -/
  | offer (r : Report)
  /-- A report is given up after 100 ms. -/
  | giveUp (i : ℕ)
  | loopExit
  | loopTick (writeOk : Bool)
  /-- The fatal report of the change loop is given up after 100 ms. -/
  | loopGiveUp
  /-- The listener receives from `Application_has_finished`. -/
  | takeFinished
  /-- The listener receives from `On_extern_exit_c`. -/
  | takeExit
  /-- The listener receives a report of the measure session. -/
  | takeReport (i : ℕ)
  /-- The listener receives the fatal report of the change loop. -/
  | takeLoopReport
  /-- The listener closes `On_extern_exit_c`. -/
  | close
  deriving DecidableEq, Repr

namespace Player

/-- The player after `NewDrpPlayer`, at the beginning of `Start`. -/
def init (drp : DbDataRatePattern) : Player where
  start := .initTc
  listener := .select
  onExternExit := false
  isShuttingDown := false
  drp := drp
  loop := none
  reports := []

/-- `close_channel`.  The mutex makes it one step: no two calls are inside it together. -/
def closeChannel (s : Player) : Player :=
  if s.isShuttingDown then s else { s with onExternExit := true, isShuttingDown := true }

/-- What the listener does with a report: it returns after any of them, and only a fatal one makes
it close the exit channel first. -/
def afterReport : ErrorLevel → ListenerPc
  | .info => .returned
  | .warn => .returned
  | .fatal => .closing false

/-- One step of the change loop. -/
def stepLoop (cv : F64.FloatConv) (s : Player) (e : LoopEvent) : Option Player :=
  s.loop.bind fun l => (l.step cv e).map fun l' => { s with loop := some l' }

/-- One step of the player. -/
def step (cv : F64.FloatConv) (s : Player) : PlayerAction → Option Player
  | .initTc ok =>
    if s.start = .initTc then some { s with start := if ok then .warmup else .returned } else none
  | .warmupOver =>
    if s.start = .warmup then some { s with start := .running, loop := some (.launch s.drp) }
    else none
  | .warmupExit =>
    if s.start = .warmup ∧ s.onExternExit = true then some { s with start := .returned } else none
  | .exit => some s.closeChannel
  | .offer r => if s.start = .running then some { s with reports := s.reports ++ [r] } else none
  | .giveUp i =>
    if (s.reports[i]?.map Report.timesOut) = some true then
      some { s with reports := s.reports.eraseIdx i }
    else none
  | .loopExit => if s.onExternExit = true then s.stepLoop cv .exit else none
  | .loopTick writeOk => s.stepLoop cv (.tick writeOk)
  | .loopGiveUp => s.stepLoop cv .reportOver
  | .takeFinished =>
    if s.listener = .select then
      (s.stepLoop cv .finishTaken).map fun t => { t with listener := .closing true }
    else none
  | .takeExit =>
    if s.listener = .select ∧ s.onExternExit = true then some { s with listener := .returned }
    else none
  | .takeReport i =>
    if s.listener = .select then
      s.reports[i]?.map fun r =>
        { s with listener := afterReport r.level, reports := s.reports.eraseIdx i }
    else none
  | .takeLoopReport =>
    if s.listener = .select then
      (s.stepLoop cv .reportOver).map fun t => { t with listener := afterReport .fatal }
    else none
  | .close =>
    match s.listener with
    | .closing andWait =>
      some { s.closeChannel with listener := if andWait then .waiting else .returned }
    | _ => none

end Player

end Jens
