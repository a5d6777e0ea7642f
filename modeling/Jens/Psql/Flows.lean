import Jens.MeasureSession.Records

/-!
# `psql.DataBase`: the flows of a session and their cache

`persistFlow` finds the row of a flow in the cache, by the string `MeasureIdStr` makes of its
endpoints, or in the table (`Sync`), where it is inserted when it is missing.  A cached flow is an
object that an earlier call was given; it was decoded from a record, and nothing changes it but
`persistFlow` itself, so the cache holds values here.

Every statement may fail: `FlowAnswers` holds the error of those that do.
-/

namespace Jens

/-- What tells the flows of the table apart: the session and the endpoints. -/
structure FlowKey where
  sessionId : ℤ
  sourceIp : String
  sourcePort : UInt16
  destinationIp : String
  destinationPort : UInt16
  deriving DecidableEq, Repr

/-- The session and the endpoints of a flow. -/
def DbNetworkFlow.key (s : DbNetworkFlow) : FlowKey where
  sessionId := s.sessionId
  sourceIp := s.sourceIp
  sourcePort := s.sourcePort
  destinationIp := s.destinationIp
  destinationPort := s.destinationPort

/-- The error of each statement that fails. -/
structure FlowAnswers where
  select : Option String := none
  insert : Option String := none
  update : Option String := none
  deriving DecidableEq, Repr

/-- The table `network_flow`: its rows, and the next value of the serial `flow_id`. -/
structure FlowTable where
  rows : List DbNetworkFlow
  nextId : ℤ
  deriving DecidableEq, Repr

namespace FlowTable

/-- The text of `sql.ErrNoRows`. -/
def noRows : String := "sql: no rows in result set"

/-- The `SELECT flow_id` of `Sync`. -/
def select (answers : FlowAnswers) (t : FlowTable) (s : DbNetworkFlow) : Except String ℤ :=
  match answers.select with
  | some err => .error err
  | none =>
    match t.rows.find? fun r => r.key = s.key with
    | some r => .ok r.flowId
    | none => .error noRows

/-- `DB_network_flow.Insert`: the table, the flow with the id it got, and the error. -/
def insert (answers : FlowAnswers) (t : FlowTable) (s : DbNetworkFlow) :
    FlowTable × DbNetworkFlow × Option String :=
  match answers.insert with
  | some err => (t, s, some err)
  | none =>
    let s := { s with flowId := t.nextId }
    ({ rows := t.rows ++ [s], nextId := t.nextId + 1 }, s, none)

/-- `DB_network_flow.Update`; its error goes nowhere. -/
def update (answers : FlowAnswers) (t : FlowTable) (flowId : ℤ) (prio : UInt8) : FlowTable :=
  match answers.update with
  | some _ => t
  | none =>
    { t with rows := t.rows.map fun r => if r.flowId = flowId then { r with prio := prio } else r }

/-- `DB_network_flow.Sync`. -/
def sync (answers : FlowAnswers) (t : FlowTable) (s : DbNetworkFlow) :
    FlowTable × DbNetworkFlow × Option String :=
  match t.select answers s with
  | .ok flowId => (t, { s with flowId := flowId }, none)
  | .error err => if err = noRows then t.insert answers s else (t, s, some err)

end FlowTable

/-- The table and `knownFlowsByMeasure_ID`. -/
structure FlowStore where
  table : FlowTable
  knownFlowsByMeasureId : String → Option DbNetworkFlow

namespace FlowStore

/-- `ClearCache`. -/
def clearCache (s : FlowStore) : FlowStore := { s with knownFlowsByMeasureId := fun _ => none }

/-- `persist_flow`: the store, the flow with its id, and the error. -/
def persistFlow (answers : FlowAnswers) (s : FlowStore) (flow : DbNetworkFlow) :
    FlowStore × DbNetworkFlow × Option String :=
  match s.knownFlowsByMeasureId flow.measureIdStr with
  | some flowInCache =>
    let flow' := { flow with flowId := flowInCache.flowId }
    if flow.prio ≠ flowInCache.prio then
      ({ table := s.table.update answers flowInCache.flowId flow.prio
         knownFlowsByMeasureId := Function.update s.knownFlowsByMeasureId flow.measureIdStr
          (some { flowInCache with prio := flow.prio }) }, flow', none)
    else (s, flow', none)
  | none =>
    let (table, flow', err) := s.table.sync answers flow
    ({ table := table
       knownFlowsByMeasureId := Function.update s.knownFlowsByMeasureId flow.measureIdStr
        (some flow') }, flow', err)

end FlowStore

/-! ### Sessions -/

/-- The store over the sessions of a process. -/
structure FlowSessions where
  store : FlowStore
  /-- The session that is played. -/
  session : Option ℤ
  /-- The sessions there have been, of this process or of earlier ones. -/
  known : List ℤ

inductive FlowAction
  /-- The next session begins; the cache was cleared after the one before. -/
  | session (id : ℤ)
  /-- The flow of a record is persisted. -/
  | persistFlow (record : RecordArray)

namespace FlowSessions

/-- The next session begins. -/
def begin (s : FlowSessions) (id : ℤ) : FlowSessions where
  store := s.store.clearCache
  session := some id
  known := id :: s.known

/-- One step, with no statement failing.  The ids of sessions come from a serial, so they are new.
-/
def step (s : FlowSessions) : FlowAction → Option FlowSessions
  | .session id => if id ∈ s.known then none else some (s.begin id)
  | .persistFlow record =>
    s.session.bind fun id =>
      match record.asPacketMeasure id with
      | .ok (some pm) => some { s with store := (s.store.persistFlow {} pm.netFlow).1 }
      | _ => none

/-- A process begins: the flows of earlier ones are in the table, and nothing is in the cache. -/
structure Start (s : FlowSessions) : Prop where
  cache : ∀ str, s.store.knownFlowsByMeasureId str = none
  session : s.session = none
  known : ∀ r ∈ s.store.table.rows, r.sessionId ∈ s.known
  nextId : ∀ r ∈ s.store.table.rows, r.flowId < s.store.table.nextId
  nodup_flowId : (s.store.table.rows.map DbNetworkFlow.flowId).Nodup
  nodup_key : (s.store.table.rows.map DbNetworkFlow.key).Nodup

end FlowSessions

end Jens
