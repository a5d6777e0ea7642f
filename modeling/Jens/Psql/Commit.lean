import Jens.Datatypes.Measure
import Jens.Lib.Steps

/-!
# `psql.DataBase`: samples, transactions and `Commit`

Samples of each kind go through a prepared statement of an open transaction.  `Commit` spawns one
goroutine a kind, which locks the mutex of the kind, commits the transaction, begins a new one,
prepares the statement on it and unlocks; `Commit` itself returns at once.

`DataBase.step` interleaves the calls of a session (`Persist`, the `Commit` of every tick, the one
of the persistor's `close`, the one of `exit_clean`, the return of `Wait`) with the steps of those
goroutines.  The sessions of a benchmark share the store (`SessionStart`).  Every database call
succeeds, but for the one `database/sql` refuses by itself: executing a statement whose transaction
is over.  (Otherwise `Commit` ends the process in `FATAL.Exit`.)  The field `persisted` records the
calls of `Persist` that returned `nil`, each with the transaction its row belongs to.
-/

namespace Jens

/-- The two kinds of samples. -/
inductive Bulk
  | packet
  | queue
  deriving DecidableEq, Repr

/-- Where the goroutine of `Commit` that holds the mutex stands. -/
inductive CommitPc
  /-- Before `tx.Commit()`. -/
  | committing
  /-- Before `db.Begin()`. -/
  | beginning
  /-- Before `tx.Prepare` and the unlock. -/
  | preparing
  deriving DecidableEq, Repr

/-- What belongs to one kind: `txMP`, `stmt_packet` and `txMpMutex`, or those of the queue. -/
structure BulkTx where
  tx : ℕ
  /-- The transaction the statement was prepared on. -/
  stmt : ℕ
  /-- Goroutines of `Commit` that have not got the mutex yet. -/
  waiting : ℕ
  holder : Option CommitPc
  deriving DecidableEq, Repr

/-- How far the session has come. -/
inductive SessionPhase
  | playing
  /-- The persistor has called its final `Commit`. -/
  | closed
  /-- `exit_clean` has called `Commit`. -/
  | cleaned
  /-- `Wait` has returned. -/
  | returned
  deriving DecidableEq, Repr

/-- A sample whose `Persist` returned `nil`, and the transaction of its row, if it was stored. -/
structure Persisted where
  sample : Sample
  tx : Option ℕ
  deriving DecidableEq, Repr

/-- What `psql.DataBase` and the database hold, and how far the session that uses them has come. -/
structure DataBase where
  bulk : Bulk → BulkTx
  nextTx : ℕ
  committed : List ℕ
  persisted : List Persisted
  phase : SessionPhase

inductive DbAction
  | persist (x : Sample)
  /-- `Commit` at the end of a round of the persistor, or by another call of `Wait`. -/
  | commitCall
  /-- `close` of the persistor. -/
  | closePersistor
  /-- `exit_clean`. -/
  | exitClean
  | waitReturns
  | lock (k : Bulk)
  | commit (k : Bulk)
  | begin (k : Bulk)
  | prepare (k : Bulk)
  deriving DecidableEq, Repr

/-- How a call of `Persist` ends. -/
inductive PersistOutcome
  | failed
  /-- `nil`, with nothing stored. -/
  | skipped
  | stored (k : Bulk) (tx : ℕ)
  deriving DecidableEq, Repr

namespace DataBase

/-- `prep_bulk_stmts`: the transaction of the queue is begun first. -/
def init : DataBase where
  bulk
    | .queue => ⟨0, 0, 0, none⟩
    | .packet => ⟨1, 1, 0, none⟩
  nextTx := 2
  committed := []
  persisted := []
  phase := .playing

/-- `Exec` of the statement of a kind; it fails when its transaction is over. -/
def exec (s : DataBase) (k : Bulk) : PersistOutcome :=
  if (s.bulk k).stmt ∈ s.committed then .failed else .stored k (s.bulk k).stmt

/-- `Persist` of a sample. -/
def persist (s : DataBase) : Sample → PersistOutcome
  | .packet p =>
    if p.fkFlowId = -1 then .failed
    else if p.capacitykbits = 0 then .skipped
    else s.exec .packet
  | .queue _ => s.exec .queue
  -- a warning about an unknown type, and `nil`
  | .other => .skipped

/-- Change what belongs to one kind. -/
def update (s : DataBase) (k : Bulk) (b : BulkTx) : DataBase :=
  { s with bulk := Function.update s.bulk k b }

/-- `Commit`: two more goroutines wait for their mutex. -/
def commit (s : DataBase) : DataBase :=
  { s with bulk := fun k => { s.bulk k with waiting := (s.bulk k).waiting + 1 } }

/-- One step of the session or of a goroutine of `Commit`. -/
def step (s : DataBase) : DbAction → Option DataBase
  | .persist x =>
    if s.phase = .playing then
      match s.persist x with
      | .failed => some s
      | .skipped => some { s with persisted := s.persisted ++ [⟨x, none⟩] }
      | .stored _ tx => some { s with persisted := s.persisted ++ [⟨x, some tx⟩] }
    else none
  | .commitCall => some s.commit
  | .closePersistor =>
    if s.phase = .playing then some { s.commit with phase := .closed } else none
  | .exitClean => if s.phase = .closed then some { s.commit with phase := .cleaned } else none
  | .waitReturns => if s.phase = .cleaned then some { s with phase := .returned } else none
  | .lock k =>
    let b := s.bulk k
    if 0 < b.waiting ∧ b.holder = none then
      some (s.update k { b with waiting := b.waiting - 1, holder := some .committing })
    else none
  | .commit k =>
    let b := s.bulk k
    if b.holder = some .committing then
      some { s.update k { b with holder := some .beginning } with committed := b.tx :: s.committed }
    else none
  | .begin k =>
    let b := s.bulk k
    if b.holder = some .beginning then
      some { s.update k { b with tx := s.nextTx, holder := some .preparing } with
        nextTx := s.nextTx + 1 }
    else none
  | .prepare k =>
    let b := s.bulk k
    if b.holder = some .preparing then some (s.update k { b with stmt := b.tx, holder := none })
    else none

/-- The store as the next session of the process finds it. -/
def nextSession (s : DataBase) : DataBase := { s with persisted := [], phase := .playing }

/-- The states a session starts in. -/
inductive SessionStart : DataBase → Prop
  | first : SessionStart init
  | next {s t : DataBase} {acts : List DbAction} : SessionStart s →
      Steps.run step s acts = some t → t.phase = .returned → SessionStart t.nextSession

end DataBase

end Jens
