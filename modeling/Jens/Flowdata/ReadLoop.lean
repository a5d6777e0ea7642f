import Jens.Flowdata.FlowManager

/-!
# `MainSTDinReadLoop` and the goroutines it starts

One goroutine reads the lines; `ReadFromLine` takes the mutex of the manager for `Contains` and
again for `Append`, and then starts a goroutine that runs `GetAndAppendTo`.  That one takes the
mutex for `get`, and for the statements of `FlowDatapointsT.Append` the mutex of the data.  Between
these the goroutines run in any order.

A line on which `ReadFromLine` panics ends the process: no further line is read, and what the
goroutines still do before the process is gone is theirs.  A goroutine that got no flow panics too;
there is no step for it, and `flows_and_data` shows that it does not happen.
-/

namespace Jens

/-- Where the read loop is. -/
inductive ReadPc
  /-- Before the next line. -/
  | reading
  /-- Before `Contains`. -/
  | checking (f : FlowT) (x : DataPoint)
  /-- Before `Append`. -/
  | appending (f : FlowT) (x : DataPoint)
  /-- Before the goroutine is started. -/
  | starting (f : FlowT) (x : DataPoint)
  /-- `ReadFromLine` has panicked. -/
  | panicked (e : Failure)
  deriving DecidableEq

/-- Where the goroutine of a line is. -/
inductive AppendPc
  /-- Before `get`. -/
  | started
  /-- After `get`, which returned the place of a flow or a nil pointer. -/
  | got (v : Option ℕ)
  /-- It has the mutex of the data of the flow at this place, and `rest` is still to come. -/
  | writing (v : ℕ) (rest : List AppendStmt)
  | done
  deriving DecidableEq

/-- A goroutine that runs `GetAndAppendTo`. -/
structure AppendRoutine where
  f : FlowT
  x : DataPoint
  pc : AppendPc
  deriving DecidableEq

structure ReadLoop where
  man : FlowManager
  pc : ReadPc
  /-- The goroutines, in the order they were started in. -/
  routines : List AppendRoutine
  deriving DecidableEq

inductive ReadAction
  | line (line : String)
  | contains
  | append
  | go
  /-- The goroutine `j` calls `get`. -/
  | get (j : ℕ)
  | lock (j : ℕ)
  /-- Its next statement, at the time `now`. -/
  | stmt (j : ℕ) (now : Int64)
  | unlock (j : ℕ)
  deriving DecidableEq

namespace ReadLoop

/-- The loop starts with a new manager. -/
def init : ReadLoop where
  man := newFlowManager
  pc := .reading
  routines := []

/-- Why `ReadFromLine` has panicked. -/
def panicked (s : ReadLoop) : Option Failure :=
  match s.pc with
  | .panicked e => some e
  | _ => none

/-- The goroutine `j` goes on. -/
def setPc (s : ReadLoop) (j : ℕ) (pc : AppendPc) : ReadLoop :=
  { s with routines := s.routines.modify j fun r => { r with pc := pc } }

/-- A step of the read loop. -/
def readStep (os : Os) (s : ReadLoop) : ReadPc → ReadAction → Option ReadLoop
  | .reading, .line line =>
    match parseLine os line with
    | .ok (.returns _) => some s
    | .ok (.measurement f x) => some { s with pc := .checking f x }
    | .error e => some { s with pc := .panicked e }
  | .checking f x, .contains =>
    some { s with pc := if s.man.contains f then .starting f x else .appending f x }
  | .appending f x, .append => some { s with man := s.man.append f, pc := .starting f x }
  | .starting f x, .go =>
    some { s with pc := .reading, routines := s.routines ++ [⟨f, x, .started⟩] }
  | _, _ => none

/-- A step of the goroutine `j`, which is `r`. -/
def appendStep (cv : F64 → Int64) (s : ReadLoop) (j : ℕ) (r : AppendRoutine) :
    AppendPc → ReadAction → Option ReadLoop
  | .started, .get _ => some (s.setPc j (.got (s.man.get r.f)))
  | .got (some i), .lock _ =>
    if s.man.flows[i]?.map (fun v => v.d.mutex) = some false then
      some ({ s with man := s.man.modify i fun d => { d with mutex := true } }.setPc j
        (.writing i FlowDatapointsT.appendBody))
    else none
  | .writing i (stmt :: rest), .stmt _ now =>
    some ({ s with man := s.man.modify i fun d => d.exec cv now r.x stmt }.setPc j
      (.writing i rest))
  | .writing i [], .unlock _ =>
    some ({ s with man := s.man.modify i fun d => { d with mutex := false } }.setPc j .done)
  | _, _ => none

/-- One step. -/
def step (os : Os) (cv : F64 → Int64) (s : ReadLoop) (a : ReadAction) : Option ReadLoop :=
  match a with
  | .line _ | .contains | .append | .go => s.readStep os s.pc a
  | .get j | .lock j | .stmt j _ | .unlock j =>
    s.routines[j]?.bind fun r => s.appendStep cv j r r.pc a

end ReadLoop

/-- The flow and the data point of a line that is a measurement. -/
def measurementOf (os : Os) : ReadAction → Option (FlowT × DataPoint)
  | .line line =>
    match parseLine os line with
    | .ok (.measurement f x) => some (f, x)
    | _ => none
  | _ => none

/-- The measurements among the lines that were read. -/
def measurements (os : Os) (acts : List ReadAction) : List (FlowT × DataPoint) :=
  acts.filterMap (measurementOf os)

end Jens
