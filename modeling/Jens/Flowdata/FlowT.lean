import Jens.Lib.F64
import Jens.Util.Os
import Jens.Util.Strconv

/-!
# `flow_t.go` and `flow_datapoints_t.go`: a flow and its data points

A flow has seven columns, one entry a data point.  `Append` writes them one after another while it
holds `mutex`: `appendBody` is the list of its statements and `exec` performs one of them.

`int` and the counters of a column's entries are numbers without bounds here, as no slice is so
long that they would differ.  `cv` is what `int64(x)` makes of a number that does not fit.  The
difference in the delay column is taken as it is, where `float64` of an `int64` above `2^53` is
rounded.
-/

namespace Jens

/-- `assets.CONST_HEADING`. -/
def constHeading : List String :=
  ["timestampMs", "sojournTimeMs", "loadKbits", "capacityKbits", "ecnCePercent", "dropped", "prio",
    "netflow"]

/-- The panic of an access through a nil pointer. -/
def nilDereference : Failure :=
  .panic "runtime error: invalid memory address or nil pointer dereference"

/-! ### End points -/

@[ext]
structure NetEndPoint where
  host : String
  port : ℤ
  deriving DecidableEq, Repr

/-- `NewNetEndPointFromString`; no value is a nil pointer. -/
def newNetEndPointFromString (combined : String) : Except Failure (Option NetEndPoint) :=
  match split combined ':' with
  | host :: port :: _ =>
    match parseInt port 32 with
    | none => .ok none
    | some port => .ok (some ⟨host, port⟩)
  -- `data[1]`
  | _ => .error (.panic "runtime error: index out of range [1] with length 1")

namespace NetEndPoint

/-- `Equals`, with another end point. -/
def equals (self other : NetEndPoint) : Bool := self.host = other.host ∧ self.port = other.port

/-- `Str`. -/
def str (self : NetEndPoint) : String := self.host ++ ":" ++ toString self.port

end NetEndPoint

/-! ### Data points -/

/-- The arguments of `Append`. -/
structure DataPoint where
  ts : F64
  sj : F64
  ld : F64
  ec : F64
  dr : F64
  cap : F64
  deriving DecidableEq

structure FlowDatapointsT where
  timeStamp : List F64
  sojourn : List F64
  load : List F64
  ecn : List F64
  dropp : List F64
  delay : List F64
  capacity : List F64
  /-- Whether somebody holds it. -/
  mutex : Bool
  length : ℕ
  lengthStateId : ℕ
  stateId : ℕ
  hasLoadGreater0 : Bool
  hasLoadGreater1 : Bool
  deriving DecidableEq

/-- The statements of `Append` between `Lock` and `Unlock`. -/
inductive AppendStmt
  | timeStamp
  | sojourn
  | load
  | ecn
  | dropp
  | delay
  | capacity
  | stateId
  | hasLoad
  deriving DecidableEq, Repr

/-- `NewFlowDataPoints`. -/
def newFlowDataPoints : FlowDatapointsT where
  timeStamp := []
  sojourn := []
  load := []
  ecn := []
  dropp := []
  delay := []
  capacity := []
  mutex := false
  length := 0
  lengthStateId := 0
  stateId := 0
  hasLoadGreater0 := false
  hasLoadGreater1 := false

namespace FlowDatapointsT

/-- The body of `Append`. -/
def appendBody : List AppendStmt :=
  [.timeStamp, .sojourn, .load, .ecn, .dropp, .delay, .capacity, .stateId, .hasLoad]

/-- One statement of `Append`, at the time `now` in milliseconds. -/
def exec (cv : F64 → Int64) (now : Int64) (x : DataPoint) (s : FlowDatapointsT) :
    AppendStmt → FlowDatapointsT
  | .timeStamp => { s with timeStamp := s.timeStamp ++ [x.ts] }
  | .sojourn => { s with sojourn := s.sojourn ++ [x.sj] }
  | .load => { s with load := s.load ++ [x.ld] }
  | .ecn => { s with ecn := s.ecn ++ [x.ec] }
  | .dropp => { s with dropp := s.dropp ++ [x.dr] }
  | .delay => { s with delay := s.delay ++ [.fin (now - F64.toInt64 cv x.ts).toInt] }
  | .capacity => { s with capacity := s.capacity ++ [x.cap] }
  | .stateId => { s with stateId := s.stateId + 1 }
  | .hasLoad =>
    if s.hasLoadGreater1 = false ∧ F64.lt 0 x.ld then
      if s.hasLoadGreater0 = false then { s with hasLoadGreater0 := true }
      else { s with hasLoadGreater1 := true }
    else s

/-- `Append`, from `Lock` to `Unlock`. -/
def append (cv : F64 → Int64) (now : Int64) (s : FlowDatapointsT) (x : DataPoint) :
    FlowDatapointsT := appendBody.foldl (exec cv now x) s

/-- `calcLength`; `FATAL.Exitln` ends the process. -/
def calcLength (s : FlowDatapointsT) : Except Failure ℕ :=
  if s.timeStamp.length = s.sojourn.length ∧ s.load.length = s.ecn.length ∧
      s.ecn.length = s.sojourn.length ∧ s.sojourn.length = s.dropp.length ∧
      s.dropp.length = s.delay.length then .ok s.timeStamp.length
  else .error (.panic "FlowDatapoints are not in SYNC!")

/-- `Length`; the number it keeps is read again only as long as nothing is appended. -/
def readLength (s : FlowDatapointsT) : Except Failure ℕ :=
  if s.lengthStateId = s.stateId then .ok s.length else s.calcLength

end FlowDatapointsT

/-! ### Flows -/

structure FlowT where
  d : FlowDatapointsT
  src : NetEndPoint
  dst : NetEndPoint
  flowId : Int32
  prio : ℤ
  deriving DecidableEq

/-- `*p`. -/
def deref {α : Type} : Option α → Except Failure α
  | none => .error nilDereference
  | some a => .ok a

/-- `NewFlow`.  Both end points are made before either pointer is followed. -/
def newFlow (src dst prio : String) : Except Failure FlowT := do
  let p := (atoi prio).getD 9
  let src ← newNetEndPointFromString src
  let dst ← newNetEndPointFromString dst
  let src ← deref src
  let dst ← deref dst
  pure { d := newFlowDataPoints, src := src, dst := dst, flowId := 0, prio := p }

/-- The color of a flow. -/
def flowColor (flowId : Int32) : UInt8 :=
  let color := flowId.toUInt32.toUInt8
  if 14 < color then color + 1 else color

namespace FlowT

/-- `Equals`, with another flow. -/
def equals (self other : FlowT) : Bool := self.src.equals other.src && self.dst.equals other.dst

/-- `Color`. -/
def color (s : FlowT) : UInt8 := flowColor s.flowId

/-- `identifier`. -/
def identifier (self : FlowT) : String := self.src.str ++ "-" ++ self.dst.str

/-- `fmt.Sprint(int64(column[i]))`. -/
def cell (cv : F64 → Int64) (column : List F64) (i : ℕ) : Except Failure String :=
  match column[i]? with
  | some x => .ok (toString (F64.toInt64 cv x).toInt)
  | none => .error (.panic ("runtime error: index out of range [" ++ toString i ++ "] with length "
      ++ toString column.length))

/-- One turn of the loop of `ExportToFile`. -/
def exportLine (cv : F64 → Int64) (self : FlowT) (i : ℕ) : Except Failure (List String) := do
  let timestamp ← cell cv self.d.timeStamp i
  let capacity ← cell cv self.d.capacity i
  let drop ← cell cv self.d.dropp i
  let ecn ← cell cv self.d.ecn i
  let load ← cell cv self.d.load i
  let sojourntime ← cell cv self.d.sojourn i
  pure [timestamp, sojourntime, load, capacity, ecn, drop, toString self.prio, self.identifier]

/-- `ExportToFile`: the rows given to the writer of the file, which may not be opened. -/
def exportToFile (cv : F64 → Int64) (openErr : Option String) (self : FlowT) :
    Except Failure (List (List String)) :=
  match openErr with
  | some err => .error (.error err)
  | none => do
    let length ← self.d.readLength
    let lines ← (List.range length).mapM (self.exportLine cv)
    pure (constHeading :: lines)

end FlowT

end Jens
