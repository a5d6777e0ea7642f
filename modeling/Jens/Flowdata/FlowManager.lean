import Jens.Datatypes.Measure
import Jens.Flowdata.FlowT

/-!
# `flow_manager.go`: the flows of `drshow`

`readFromLine` is `ReadFromLine` with the goroutine it starts returned and not run; `getAndAppendTo`
is what that goroutine does, without anybody else in between.  A pointer to a flow is its place in
`Flows`, which only grows.  The callbacks of `Handler` hand their argument to the user interface and
have no part in what happens to the flows.
-/

namespace Jens

structure FlowManager where
  flows : List FlowT
  selectedFlowIndex : ℤ
  version : UInt64
  deriving DecidableEq

/-- `NewFlowManager`. -/
def newFlowManager : FlowManager where
  flows := []
  selectedFlowIndex := 0
  version := 1

namespace FlowManager

/-- `Contains`. -/
def contains (man : FlowManager) (f : FlowT) : Bool := man.flows.any fun v => v.equals f

/-- `get`; no value is a nil pointer. -/
def get (man : FlowManager) (f : FlowT) : Option ℕ := man.flows.findIdx? fun v => v.equals f

/-- `Append`. -/
def append (man : FlowManager) (f : FlowT) : FlowManager :=
  { man with
    flows := man.flows ++ [{ f with flowId := Int32.ofNat (man.flows.length + 1) }]
    version := man.version + 1 }

/-- A change of the data points of the flow at place `i`. -/
def modify (man : FlowManager) (i : ℕ) (g : FlowDatapointsT → FlowDatapointsT) : FlowManager :=
  { man with flows := man.flows.modify i fun v => { v with d := g v.d } }

/-- `GetAndAppendTo`. -/
def getAndAppendTo (cv : F64 → Int64) (now : Int64) (man : FlowManager) (f : FlowT)
    (x : DataPoint) : Except Failure FlowManager :=
  match man.get f with
  | none => .error nilDereference
  | some i => .ok (man.modify i fun d => d.append cv now x)

end FlowManager

/-! ### Reading a line -/

/-- What `ReadFromLine` makes of a line before it looks at the flows. -/
inductive Parsed
  /-- It returns. -/
  | returns (b : Bool)
  /-- The flow and the data point of a measurement. -/
  | measurement (f : FlowT) (x : DataPoint)
  deriving DecidableEq

/-- The function `parseFloat` of `ReadFromLine`. -/
def parseFloat (os : Os) (ln : String) : F64 :=
  match os.parseFloat ln with
  | some bits => F64.ofBits bits
  | none => 0

/-- `ReadFromLine` until it has made the flow. -/
def parseLine (os : Os) (line : String) : Except Failure Parsed :=
  if "http".toList <+: line.toList then .ok (.returns true)
  else
    match split line ' ' with
    | [timestamp, sojourntime, load, capacity, ecn, drop, prio, netw] =>
      match split netw '-' with
      | [src, dst] => do
        let f ← newFlow src dst prio
        pure (.measurement f
          { ts := parseFloat os timestamp
            sj := parseFloat os sojourntime
            ld := parseFloat os load
            ec := parseFloat os ecn
            dr := parseFloat os drop
            cap := parseFloat os capacity })
      | _ => .ok (.returns false)
    | _ => .ok (.returns false)

/-- `ReadFromLine`: what it returns, the flows, and the arguments of the goroutine it starts. -/
def FlowManager.readFromLine (os : Os) (manager : FlowManager) (line : String) :
    Except Failure (Bool × FlowManager × Option (FlowT × DataPoint)) := do
  match ← parseLine os line with
  | .returns b => pure (b, manager, none)
  | .measurement f x =>
    let manager := if manager.contains f then manager else manager.append f
    pure (true, manager, some (f, x))

/-- `strings.TrimSuffix(line, "\n")`. -/
def trimNewline (line : String) : String :=
  if line.toList.getLast? = some '\n' then String.ofList line.toList.dropLast else line

/-- A sample that is printed, read, and appended before the next line is read. -/
def FlowManager.readSample (os : Os) (cv : F64 → Int64) (now : Int64) (man : FlowManager)
    (p : DbMeasurePacket) : Except Failure FlowManager := do
  let (_, man, started) ← man.readFromLine os (trimNewline p.printLine)
  match started with
  | some (f, x) => man.getAndAppendTo cv now f x
  | none => pure man

end Jens
