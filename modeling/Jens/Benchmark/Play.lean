import Jens.Datatypes.Session
import Jens.Player.Player

/-!
# `drbenchmark`: playing the sessions, and skipping them

`Play` goes through the sessions in one goroutine; on a signal, another one calls `SkipSession`.
They share `player` and `was_skipped`, and `SkipSession` reads the one, sets the other and closes
the exit channel of whatever player there is by then, with steps of `Play` in between.  A signal
that comes meanwhile is lost.

What is before the first session touches neither of the two, and neither does what `OnPreSession` or
a script answers.  `Wait` returns when the player is done, with or without a skip; how a
player gets there is `Player.step`.
-/

namespace Jens

/-- A session, and what the calls that are made for it answer. -/
structure SessionRun where
  session : DbSession
  /-- The `Session_id` that `Persist` sets, or an error. -/
  persist : Option ℤ
  /-- Whether `Start` returns without an error. -/
  start : Bool
  /-- `start_t` and `end_t` of `GetSessionStats`, or an error. -/
  stats : Option (ℤ × ℤ)
  deriving DecidableEq

structure BenchmarkRun where
  benchmarkId : ℤ
  sessions : List SessionRun
  deriving DecidableEq

/-- What `Play` tells of the session at place `i`, and the callbacks it runs at the end. -/
inductive PlayEvent
  /-- `Error while playing session`. -/
  | errorWhilePlaying (i : ℕ)
  /-- `Error while getting session stats`. -/
  | errorGettingStats (i : ℕ)
  | onPostSession (i : ℕ) (sessionId startT endT : ℤ)
  /-- `User Interrupt`. -/
  | userInterrupt (i : ℕ)
  | onPostBenchmark (benchmarkId : ℤ)
  deriving DecidableEq

/-- Where `Play` is. -/
inductive PlayPc
  /-- At the head of the loop, before the session at place `i`. -/
  | session (i : ℕ)
  /-- In `play_session`, before `Persist`. -/
  | persist (i : ℕ) (v : SessionRun)
  /-- Before `b.player = drplay.NewDrpPlayer(v)`. -/
  | newPlayer (i : ℕ) (v : SessionRun) (sessionId : ℤ)
  /-- In `Start`. -/
  | start (i : ℕ) (v : SessionRun) (sessionId : ℤ)
  /-- In `Wait`. -/
  | wait (i : ℕ) (v : SessionRun) (sessionId : ℤ)
  /-- In `post_play_session`, before `GetSessionStats`. -/
  | getStats (i : ℕ) (v : SessionRun) (sessionId : ℤ)
  /-- Before it looks at `was_skipped`. -/
  | checkSkipped (i : ℕ) (sessionId startT endT : ℤ)
  /-- Before `b.was_skipped = false`. -/
  | resetSkipped (i : ℕ)
  /-- After the loop, before it looks at `was_skipped` again. -/
  | summary
  | finished
  deriving DecidableEq

/-- The session that is being played: there is a player for it, and `Wait` has not returned. -/
def PlayPc.playing : PlayPc → Option (ℕ × SessionRun)
  | .start i v _ | .wait i v _ => some (i, v)
  | _ => none

/-- Where `SkipSession` is. -/
inductive SkipPc
  | idle
  /-- It found a player. -/
  | found
  /-- It set `was_skipped`. -/
  | set
  deriving DecidableEq

structure Benchmark where
  /-- The player, with the place of the session it was made for. -/
  player : Option (ℕ × Player)
  wasSkipped : Bool
  play : PlayPc
  skip : SkipPc
  log : List PlayEvent
  /-- History that nobody reads: the sessions while which were played `SkipSession` was called. -/
  skippedIn : List ℕ
  deriving DecidableEq

inductive BenchmarkAction
  /-- `Play` goes on. -/
  | play
  /-- A signal: `SkipSession` is called and looks for a player. -/
  | signal
  /-- `SkipSession` sets `was_skipped`. -/
  | setSkipped
  /-- `SkipSession` calls `ExitNoWait`. -/
  | exitNoWait
  deriving DecidableEq

namespace Benchmark

/-- `New`, with `Play` at its loop. -/
def new : Benchmark where
  player := none
  wasSkipped := false
  play := .session 0
  skip := .idle
  log := []
  skippedIn := []

/-- The next step of `Play`. -/
def playStep (bm : BenchmarkRun) (b : Benchmark) : PlayPc → Option Benchmark
  | .session i =>
    match bm.sessions[i]? with
    | some v => some { b with play := .persist i v }
    | none => some { b with play := .summary }
  | .persist i v =>
    match v.persist with
    | some sessionId => some { b with play := .newPlayer i v sessionId }
    | none => some { b with log := b.log ++ [.errorWhilePlaying i], play := .session (i + 1) }
  | .newPlayer i v sessionId =>
    some { b with player := some (i, .init v.session.childDrp), play := .start i v sessionId }
  | .start i v sessionId =>
    if v.start then some { b with play := .wait i v sessionId }
    else some { b with log := b.log ++ [.errorWhilePlaying i], play := .session (i + 1) }
  | .wait i v sessionId => some { b with play := .getStats i v sessionId }
  | .getStats i v sessionId =>
    match v.stats with
    | some (startT, endT) => some { b with play := .checkSkipped i sessionId startT endT }
    | none => some { b with log := b.log ++ [.errorGettingStats i], play := .session (i + 1) }
  | .checkSkipped i sessionId startT endT =>
    if b.wasSkipped then
      some { b with log := b.log ++ [.userInterrupt i], play := .resetSkipped i }
    else
      some { b with
        log := b.log ++ [.onPostSession i sessionId startT endT], play := .session (i + 1) }
  | .resetSkipped i => some { b with wasSkipped := false, play := .session (i + 1) }
  | .summary =>
    some { b with
      log := if b.wasSkipped then b.log else b.log ++ [.onPostBenchmark bm.benchmarkId]
      play := .finished }
  | .finished => none

/-- One step. -/
def step (bm : BenchmarkRun) (b : Benchmark) : BenchmarkAction → Option Benchmark
  | .play => b.playStep bm b.play
  | .signal =>
    if b.skip = .idle then
      some { b with
        skip := if b.player.isSome then .found else .idle
        skippedIn := b.skippedIn ++ (b.play.playing.map Prod.fst).toList }
    else none
  | .setSkipped =>
    if b.skip = .found then some { b with wasSkipped := true, skip := .set } else none
  | .exitNoWait =>
    if b.skip = .set then
      some { b with player := b.player.map (Prod.map id Player.closeChannel), skip := .idle }
    else none

end Benchmark

end Jens
