import Jens.MeasureSession.Session
import Jens.Psql.Flows

/-!
# A measure session on the tables of the database

Two of the goroutines of a session call `Persist`: `aggregateMeasures` with the flow of each packet
it adds, and the persistor with each sample.  `StoredSession.step` is the step of the session with
these calls on the tables `network_flow`, `measure_packet` and `measure_queue`; each statement of
each call may fail.

Rows of the two bulk tables count as stored once their statement has been executed; how their
transactions are committed is in `Jens.Psql.Commit`.
-/

namespace Jens

/-- The errors of the statements that fail, those of the flows and the bulk ones. -/
structure StoreAnswers extends FlowAnswers where
  exec : Option String := none
  deriving DecidableEq, Repr

/-- The tables that a measure session writes, with the cache of the flows. -/
structure SessionStore where
  flows : FlowStore
  packets : List DbMeasurePacket
  queues : List DbMeasureQueue

namespace SessionStore

/-- `persist_measure_packet`: what it leaves, and the error. -/
def persistMeasurePacket (answers : StoreAnswers) (s : SessionStore) (data : DbMeasurePacket) :
    SessionStore × Option String :=
  if data.fkFlowId = -1 then
    (s, some "trying to persist a meausre_packet without its Fk_flow_id set.")
  else if data.capacitykbits = 0 then (s, none)
  else
    match answers.exec with
    | some err => (s, some err)
    | none => ({ s with packets := s.packets ++ [data] }, none)

/-- `persist_measurequeue`. -/
def persistMeasurequeue (answers : StoreAnswers) (s : SessionStore) (data : DbMeasureQueue) :
    SessionStore × Option String :=
  match answers.exec with
  | some err => (s, some err)
  | none => ({ s with queues := s.queues ++ [data] }, none)

/-- `Persist` of a sample; of an unknown type it only logs. -/
def persist (answers : StoreAnswers) (s : SessionStore) : Sample → SessionStore × Option String
  | .packet p => s.persistMeasurePacket answers p
  | .queue q => s.persistMeasurequeue answers q
  | .other => (s, none)

/-- `ClearCache`. -/
def clearCache (s : SessionStore) : SessionStore := { s with flows := s.flows.clearCache }

variable {capA capP : ℕ}

/-- The call of `Persist` that the action returns from, with its answer; nothing where the call does
not return so. -/
def answer (answers : StoreAnswers) (s : SessionStore) (session : MeasureSession capA capP) :
    SessionAction → Option SessionStore
  | .aggregate (.flowPersisted flowId _ _) =>
    match session.aggregator.pc with
    | .persisting w _ =>
      match s.flows.persistFlow answers.toFlowAnswers w.message.netFlow with
      | (flows, flow, none) => if flow.flowId = flowId then some { s with flows := flows } else none
      | (_, _, some _) => none
    | _ => none
  | .aggregate .flowFailed =>
    match session.aggregator.pc with
    | .persisting w _ =>
      match s.flows.persistFlow answers.toFlowAnswers w.message.netFlow with
      | (flows, _, some _) => some { s with flows := flows }
      | (_, _, none) => none
    | _ => none
  | .persist (.persisted ok) =>
    -- without a persistence the call panics
    if session.persistor.db = false then some s
    else
      match session.persistor.handed.getLast? with
      | some sample =>
        match s.persist answers sample with
        -- what comes after the database, a csv file, may fail as well
        | (s, none) => some s
        | (s, some _) => if ok then none else some s
      | none => none
  | _ => some s

end SessionStore

/-- A measure session and the tables. -/
structure StoredSession (capA capP : ℕ) where
  session : MeasureSession capA capP
  store : SessionStore

namespace StoredSession

variable {capA capP : ℕ}

/-- One step of the session, and what the statements it executes answer. -/
def step (p : SessionParams) (s : StoredSession capA capP) (a : SessionAction × StoreAnswers) :
    Option (StoredSession capA capP) :=
  (s.session.step p a.1).bind fun session =>
    (s.store.answer a.2 s.session a.1).map fun store => ⟨session, store⟩

/-- A session begins. -/
def init (capacity : UInt64) (store : SessionStore) : StoredSession capA capP :=
  ⟨.init capacity, store⟩

end StoredSession

end Jens
