import Jens.Flowdata.Eligibility
import Jens.Flowdata.ReadLoop
import Jens.Widgets.Charts

/-!
# `modes/pipe`: the goroutines that show the flows

The read loop and the goroutines of its lines (`ReadLoop`) call the callbacks of `Handler`, which
send on the channels of `FlowChannels`.  At their other ends are the list of the flows, the details
of one flow, the text box, the goroutine of `NewUI` with its charts (`PlotUI`) and the one that
draws a layout.  The goroutine of `NewUI` starts others that update the list and the details, a
timer draws the layout of the selected flow, and the keys are handled one after another.

No channel has a buffer, so a send is one step together with its receive.  `outgoing` is what a
goroutine stands before and where it is afterwards, `receive` what its receiver does.  The read loop
and its goroutines release the mutex of the manager in the step they take it in; the goroutine of
`NewUI` and a key keep it while they send.

`selectedFlowIndex` stands beside the manager of the read loop, which does not look at it.  A run is
followed until the process ends or the context is done.  `generateLayout` reads `s.M` without the
mutex under which the goroutine of `NewUI` writes it.  Here no step falls into another one, so that
the process does not end by a read of `s.M` while it is written.
-/

namespace Jens

/-- `layoutCombined`. -/
def layoutCombined : Int32 := -1

/-- The columns of a flow that are shown. -/
inductive Column
  | load
  | capacity
  | delay
  | dropp
  | ecn
  | sojourn
  deriving DecidableEq, Repr

/-- A pointer to a column of the flow at a place. -/
structure ColumnPtr where
  flow : ℕ
  column : Column
  deriving DecidableEq, Repr

/-- The goroutines that keep the mutex of the manager over several steps. -/
inductive Holder
  | graphs
  | keyboard
  deriving DecidableEq, Repr

/-- Where a goroutine is in `NewFlowSelected`. -/
inductive SelectedPc
  /-- Before `C.UpdateFlowList <- man`. -/
  | list
  /-- Before `GetSelectedFlow`. -/
  | getSelected
  /-- Before `C.UpdateFlowDetails <- flow`; no value is a nil pointer. -/
  | details (flow : Option ℕ)
  deriving DecidableEq, Repr

/-- Where the read loop is after `Append` has released the mutex, or after the end of the input. -/
inductive HandlerPc
  /-- In `NewFlow`, before `C.UpdateFlowList <- man`. -/
  | newFlow
  /-- Before `len(man.Flows) == 1`. -/
  | first
  | newFlowSelected (pc : SelectedPc)
  /-- In `OnFirstFlowAdded`, before `GetSelectedFlow`. -/
  | onFirstFlowAdded
  /-- In `OnFirstFlowAdded`, before `C.RedrawUIWithLayout <- flow.FlowId`. -/
  | redraw (lt : Int32)
  /-- In `OnEndOfDrpplayer`, before `C.UpdateText <- upd`. -/
  | onEndOfDrpplayer
  /-- The read loop has returned. -/
  | returned
  deriving DecidableEq, Repr

/-- Where the goroutine of `NewUI` is with the flow at a place. -/
inductive GraphsPc
  | idle
  /-- Before `man.Mutex.Lock()`. -/
  | locking (v : ℕ)
  /-- It has the mutex, and sends the updates of the flow. -/
  | sending (v : ℕ)
  /-- Before `now-lastUpdate >= 100`. -/
  | timing (v : ℕ)
  deriving DecidableEq, Repr

/-- Where a goroutine is that the one of `NewUI` has started for the flow at the place `v`. -/
inductive RefreshPc
  /-- Before `GetSelectedFlow`. -/
  | started (v : ℕ)
  /-- Before `C.UpdateFlowList <- man`. -/
  | list (v selectedFlow : ℕ)
  /-- Before `C.UpdateFlowDetails <- selectedFlow`. -/
  | details (selectedFlow : ℕ)
  deriving DecidableEq, Repr

/-- Where the goroutine is that receives from `RedrawUIWithLayout`. -/
inductive RedrawPc
  | idle
  /-- Before `GetSelectedFlow`. -/
  | getSelected (lt : Int32)
  /-- Before `C.UpdateFlowDetails <- f`. -/
  | details (f : Option ℕ) (lt : Int32)
  /-- Before `setLayout`. -/
  | layout (lt : Int32)
  deriving DecidableEq, Repr

/-- Where the handling of a key is. -/
inductive KeyboardPc
  | idle
  /-- Before `SelectNextFlowIndex` or `SelectPreviousFlowIndex`. -/
  | selecting (next : Bool)
  /-- It has the mutex. -/
  | newFlowSelected (pc : SelectedPc)
  /-- Before the mutex is released. -/
  | unlocking
  /-- Before the last `GetSelectedFlow`. -/
  | after
  /-- Before `C.RedrawUIWithLayout <- flow.FlowId`. -/
  | redraw (lt : Int32)
  deriving DecidableEq, Repr

structure PipeUI where
  loop : ReadLoop
  selectedFlowIndex : ℤ := 0
  mutex : Option Holder := none
  handler : Option HandlerPc := none
  /-- The places of the flows whose goroutines stand before `C.UpdateDataGraphs <- flow`. -/
  newData : List ℕ := []
  graphs : GraphsPc := .idle
  plots : PlotUI ColumnPtr := { updateDataGraphs := [] }
  refreshes : List RefreshPc := []
  redraw : RedrawPc := .idle
  /-- The layout that the timer is about to draw. -/
  timer : Option Int32 := none
  keyboard : KeyboardPc := .idle
  /-- The list has received the manager and has not printed it yet. -/
  listBusy : Bool := false
  /-- What the details have received and not printed yet. -/
  details : Option (Option ℕ) := none
  /-- `lastSelectedFlow`, the flow whose details are shown. -/
  lastSelectedFlow : Option ℕ := none
  textBusy : Bool := false
  /-- The layout that was drawn last. -/
  layout : Int32 := layoutCombined
  /-- Why the process has ended. -/
  ended : Option Failure := none

/-- What is sent on the channels. -/
inductive PipeMessage
  | flowList
  | flowDetails (flow : Option ℕ)
  | redraw (lt : Int32)
  | dataGraphs (v : ℕ)
  /-- The next update of the goroutine of `NewUI`. -/
  | chart
  | text
  deriving DecidableEq, Repr

/-- The goroutines that send. -/
inductive PipeSender
  | handler
  /-- The goroutine of a line that is the `j`-th to hand over its flow. -/
  | newData (j : ℕ)
  | graphs
  | refresh (j : ℕ)
  | redraw
  | keyboard
  deriving DecidableEq, Repr

/-- What a step is told by the clock and by `isFlowEligible`. -/
structure Answers where
  /-- The time in milliseconds. -/
  now : Int64
  /-- `now-lastUpdate >= 100`. -/
  due : Bool
  eligible : ℕ → FlowT → Except Failure Bool

/-- The steps that nobody outside has to give rise to. -/
inductive PipeMove
  | contains
  | append
  | go
  | get (j : ℕ)
  | lock (j : ℕ)
  | stmt (j : ℕ)
  | unlock (j : ℕ)
  | handler
  | graphs
  | refresh (j : ℕ)
  | redraw
  | timer
  | keyboard
  | list
  | details
  | text
  | chart (k : PlotKind) (i : ℕ)
  /-- A send; of the charts, the `i`-th of the kind receives. -/
  | send (who : PipeSender) (i : ℕ)
  deriving DecidableEq, Repr

inductive PipeAction
  | line (line : String)
  /-- The end of the input. -/
  | eof
  /-- An arrow key. -/
  | arrow (next : Bool)
  | space
  /-- Half a second has passed. -/
  | tick
  | move (m : PipeMove) (ans : Answers)

namespace PipeUI

/-- All goroutines are started. -/
def init : PipeUI where
  loop := ReadLoop.init

/-- `man.Flows`. -/
def flows (s : PipeUI) : List FlowT := s.loop.man.flows

/-- The manager as the keys see it. -/
def manager (s : PipeUI) : FlowManager :=
  { s.loop.man with selectedFlowIndex := s.selectedFlowIndex }

/-- `GetSelectedFlow`: the place of the flow, or no value for an error. -/
def getSelectedFlow (s : PipeUI) : Except Failure (Option ℕ) :=
  if s.selectedFlowIndex = -1 ∨ s.flows.length ≤ s.selectedFlowIndex then .ok none
  else if s.selectedFlowIndex < 0 then
    .error (indexOutOfRange s.selectedFlowIndex s.flows.length)
  else .ok (some s.selectedFlowIndex.toNat)

/-- `FlowId` of the flow at a place. -/
def flowId (s : PipeUI) (v : ℕ) : Int32 := s.flows[v]?.elim 0 FlowT.flowId

/-- `Equals` of the flows at two places. -/
def flowEquals (s : PipeUI) (u v : ℕ) : Bool :=
  match s.flows[u]?, s.flows[v]? with
  | some f, some g => f.equals g
  | _, _ => false

/-- The flow at a place with the pointers to its columns. -/
def pointers (s : PipeUI) (v : ℕ) : FlowPointers ColumnPtr where
  flowId := s.flowId v
  load := ⟨v, .load⟩
  capacity := ⟨v, .capacity⟩
  delay := ⟨v, .delay⟩
  dropp := ⟨v, .dropp⟩
  ecn := ⟨v, .ecn⟩
  sojourn := ⟨v, .sojourn⟩

/-- `setLayout`, which draws nothing for a flow without charts. -/
def setLayout (s : PipeUI) (lt : Int32) : PipeUI :=
  if lt = layoutCombined ∨ lt ∈ s.plots.m then { s with layout := lt } else s

/-! ### Steps of one goroutine

No value is a goroutine that waits, and an error ends the process. -/

/-- A step of the read loop, or of the goroutine of a line. -/
def loopStep (os : Os) (cv : F64 → Int64) (s : PipeUI) (a : ReadAction) : Option PipeUI :=
  (s.loop.step os cv a).map fun loop => { s with loop := loop }

/-- The goroutine `j` of a line has appended to the flow at the place it has got. -/
def appended (s : PipeUI) (j : ℕ) : List ℕ :=
  match s.loop.routines[j]?.map AppendRoutine.pc with
  | some (.writing v _) => [v]
  | _ => []

/-- The rest of `Append`. -/
def handlerStep (s : PipeUI) : Option (Except Failure PipeUI) :=
  match s.handler with
  | some .first =>
    if s.flows.length = 1 then
      if s.selectedFlowIndex ≠ 0 then some (.error (.error "unknown selected flow"))
      else some (.ok { s with handler := some (.newFlowSelected .list) })
    else some (.ok { s with handler := none })
  | some (.newFlowSelected .getSelected) =>
    some do
      let flow ← s.getSelectedFlow
      pure { s with handler := some (.newFlowSelected (.details flow)) }
  | some .onFirstFlowAdded =>
    some do
      let flow ← s.getSelectedFlow >>= deref
      pure { s with handler := some (.redraw (s.flowId flow)) }
  | _ => none

/-- The goroutine of `NewUI`. -/
def graphsStep (s : PipeUI) (due : Bool) : Option PipeUI :=
  match s.graphs with
  | .locking v =>
    if s.mutex = none then
      (s.plots.step .take).map fun plots =>
        { s with mutex := some .graphs, plots := plots, graphs := .sending v }
    else none
  | .sending v =>
    if s.plots.sends = [] then some { s with mutex := none, graphs := .timing v } else none
  | .timing v =>
    some { s with
      graphs := .idle
      refreshes := if due then s.refreshes ++ [.started v] else s.refreshes }
  | .idle => none

/-- The goroutine `j` that was started after 100 milliseconds. -/
def refreshStep (s : PipeUI) (j : ℕ) : Option (Except Failure PipeUI) :=
  match s.refreshes[j]? with
  | some (.started v) =>
    some do
      match ← s.getSelectedFlow with
      | some selectedFlow => pure { s with refreshes := s.refreshes.set j (.list v selectedFlow) }
      | none => pure { s with refreshes := s.refreshes.eraseIdx j }
  | _ => none

/-- The goroutine that receives from `RedrawUIWithLayout`. -/
def redrawStep (s : PipeUI) : Option (Except Failure PipeUI) :=
  match s.redraw with
  | .getSelected lt =>
    some do
      match ← s.getSelectedFlow with
      | some f => pure { s with redraw := .details (some f) lt }
      | none => .error (.error ("cant get flow with index=" ++ toString s.selectedFlowIndex))
  | .layout lt => some (.ok { s.setLayout lt with redraw := .idle })
  | _ => none

/-- `SelectNextFlowIndex` or `SelectPreviousFlowIndex` before `NewFlowSelected`. -/
def navigate (s : PipeUI) (next : Bool) (eligible : ℕ → FlowT → Except Failure Bool) :
    Except Failure (FlowManager × Option String) :=
  if next then s.manager.selectNextFlowIndex eligible
  else s.manager.selectPreviousFlowIndex eligible

/-- The handling of a key. -/
def keyboardStep (s : PipeUI) (eligible : ℕ → FlowT → Except Failure Bool) :
    Option (Except Failure PipeUI) :=
  match s.keyboard with
  | .selecting next =>
    if s.mutex = none then
      some do
        let (man, err) ← s.navigate next eligible
        if err.isSome then pure { s with keyboard := .idle }
        else
          pure { s with
            selectedFlowIndex := man.selectedFlowIndex
            mutex := some .keyboard
            keyboard := .newFlowSelected .list }
    else none
  | .newFlowSelected .getSelected =>
    some do
      let flow ← s.getSelectedFlow
      pure { s with keyboard := .newFlowSelected (.details flow) }
  | .unlocking => some (.ok { s with mutex := none, keyboard := .after })
  | .after =>
    some do
      match ← s.getSelectedFlow with
      | some flow => pure { s with keyboard := .redraw (s.flowId flow) }
      | none => pure { s with keyboard := .idle }
  | _ => none

/-- The goroutine of the details. -/
def detailsStep (s : PipeUI) : Option (Except Failure PipeUI) :=
  match s.details with
  | some (some flow) => some (.ok { s with details := none, lastSelectedFlow := some flow })
  | some none => some (.error (.panic "chans.UpdateFlowDetails received nil"))
  | none => none

/-! ### Sends -/

/-- What the read loop stands before sending, and the state once it is sent. -/
def handlerOutgoing (s : PipeUI) : Option (PipeMessage × PipeUI) :=
  match s.handler with
  | some .newFlow => some (.flowList, { s with handler := some .first })
  | some (.newFlowSelected .list) =>
    some (.flowList, { s with handler := some (.newFlowSelected .getSelected) })
  | some (.newFlowSelected (.details flow)) =>
    some (.flowDetails flow, { s with handler := some .onFirstFlowAdded })
  | some (.redraw lt) => some (.redraw lt, { s with handler := none })
  | some .onEndOfDrpplayer => some (.text, { s with handler := some .returned })
  | _ => none

/-- The same of the goroutine of `NewUI`; the update is taken off as it is received. -/
def graphsOutgoing (s : PipeUI) : Option (PipeMessage × PipeUI) :=
  match s.graphs with
  | .sending _ => if s.plots.sends = [] then none else some (.chart, s)
  | _ => none

/-- The same of the goroutine `j` that was started after 100 milliseconds. -/
def refreshOutgoing (s : PipeUI) (j : ℕ) : Option (PipeMessage × PipeUI) :=
  match s.refreshes[j]? with
  | some (.list v selectedFlow) =>
    some (.flowList, { s with
      refreshes := if s.flowEquals v selectedFlow then
        s.refreshes.set j (.details selectedFlow) else s.refreshes.eraseIdx j })
  | some (.details selectedFlow) =>
    some (.flowDetails (some selectedFlow), { s with refreshes := s.refreshes.eraseIdx j })
  | _ => none

/-- The same of the goroutine that receives from `RedrawUIWithLayout`. -/
def redrawOutgoing (s : PipeUI) : Option (PipeMessage × PipeUI) :=
  match s.redraw with
  | .details f lt => some (.flowDetails f, { s with redraw := .layout lt })
  | _ => none

/-- The same of the handling of a key. -/
def keyboardOutgoing (s : PipeUI) : Option (PipeMessage × PipeUI) :=
  match s.keyboard with
  | .newFlowSelected .list =>
    some (.flowList, { s with keyboard := .newFlowSelected .getSelected })
  | .newFlowSelected (.details flow) =>
    some (.flowDetails flow, { s with keyboard := .unlocking })
  | .redraw lt => some (.redraw lt, { s with keyboard := .idle })
  | _ => none

def outgoing (s : PipeUI) : PipeSender → Option (PipeMessage × PipeUI)
  | .handler => s.handlerOutgoing
  | .newData j =>
    s.newData[j]?.map fun v => (.dataGraphs v, { s with newData := s.newData.eraseIdx j })
  | .graphs => s.graphsOutgoing
  | .refresh j => s.refreshOutgoing j
  | .redraw => s.redrawOutgoing
  | .keyboard => s.keyboardOutgoing

/-- What the receiver does, if it waits for the message. -/
def receive (s : PipeUI) (i : ℕ) : PipeMessage → Option PipeUI
  | .flowList => if s.listBusy then none else some { s with listBusy := true }
  | .flowDetails flow =>
    if s.details.isSome then none else some { s with details := some flow }
  | .redraw lt =>
    if s.redraw = .idle then
      some { s with
        redraw := if lt = layoutCombined then .details none lt else .getSelected lt }
    else none
  | .dataGraphs v =>
    if s.graphs = .idle then
      some { s with
        graphs := .locking v
        plots := { s.plots with updateDataGraphs := [s.pointers v] } }
    else none
  | .chart => (s.plots.step (.publish i)).map fun plots => { s with plots := plots }
  | .text => if s.textBusy then none else some { s with textBusy := true }

/-! ### All steps -/

/-- A step that nobody outside has to give rise to. -/
def move (os : Os) (cv : F64 → Int64) (s : PipeUI) (ans : Answers) :
    PipeMove → Option (Except Failure PipeUI)
  | .contains => if s.mutex = none then (s.loopStep os cv .contains).map .ok else none
  | .append =>
    if s.mutex = none then
      (s.loopStep os cv .append).map fun s => .ok { s with handler := some .newFlow }
    else none
  | .go => if s.handler = none then (s.loopStep os cv .go).map .ok else none
  | .get j => if s.mutex = none then (s.loopStep os cv (.get j)).map .ok else none
  | .lock j => (s.loopStep os cv (.lock j)).map .ok
  | .stmt j => (s.loopStep os cv (.stmt j ans.now)).map .ok
  | .unlock j =>
    (s.loopStep os cv (.unlock j)).map fun t =>
      .ok { t with newData := s.newData ++ s.appended j }
  | .handler => s.handlerStep
  | .graphs => (s.graphsStep ans.due).map .ok
  | .refresh j => s.refreshStep j
  | .redraw => s.redrawStep
  | .timer => s.timer.map fun lt => .ok { s.setLayout lt with timer := none }
  | .keyboard => s.keyboardStep ans.eligible
  | .list => if s.listBusy then some (.ok { s with listBusy := false }) else none
  | .details => s.detailsStep
  | .text => if s.textBusy then some (.ok { s with textBusy := false }) else none
  | .chart k i =>
    (s.plots.step (.handle k i)).map fun plots => .ok { s with plots := plots }
  | .send who i => (s.outgoing who).bind fun p => (p.2.receive i p.1).map .ok

/-- What a step comes to. -/
def outcome (s : PipeUI) : Except Failure PipeUI → PipeUI
  | .ok t => t
  | .error e => { s with ended := some e }

/-- The timer gets the selected flow. -/
def tickStep (s : PipeUI) : Except Failure PipeUI := do
  match ← s.getSelectedFlow with
  | some flow => pure { s with timer := some (s.flowId flow) }
  | none => pure s

/-- One step of a process that has not ended.  A line on which `ReadFromLine` panics ends it. -/
def liveStep (os : Os) (cv : F64 → Int64) (s : PipeUI) : PipeAction → Option PipeUI
  | .line line =>
    if s.handler = none then
      (s.loopStep os cv (.line line)).map fun t => { t with ended := t.loop.panicked }
    else none
  | .eof =>
    if s.handler = none ∧ s.loop.pc = .reading then
      some { s with handler := some .onEndOfDrpplayer }
    else none
  | .arrow next =>
    if s.keyboard = .idle then some { s with keyboard := .selecting next } else none
  | .space => if s.keyboard = .idle then some { s with keyboard := .after } else none
  | .tick => if s.timer = none then some (s.outcome s.tickStep) else none
  | .move m ans => (s.move os cv ans m).map s.outcome

/-- One step. -/
def step (os : Os) (cv : F64 → Int64) (s : PipeUI) (a : PipeAction) : Option PipeUI :=
  if s.ended = none then s.liveStep os cv a else none

end PipeUI

end Jens
