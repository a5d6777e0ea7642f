import Jens.Flowdata.FlowT
import Mathlib.Logic.Function.Basic

/-!
# `ui.go`, `datatypes.go` and `data_linechart.go`: the plots of the flows

The goroutine of `NewUI` takes a flow from `UpdateDataGraphs`, makes the five charts of the flow if
it has none yet (`NewDetWids`), and sends one update for each of them.  There is one channel for
each kind of chart, without a buffer: a send meets the goroutine of some chart of that kind, and a
chart that has received something works it off before it receives again.  An action names the
goroutine that moves, and the chart that receives.

`π` is the type of the pointers to the columns of a flow.  The context is not done, and the charts
are made without an error: where `NewDetWids` fails, the goroutine goes on with the mutex of the
manager locked for good, which is left out here.
-/

namespace Jens

/-- The charts of a flow, each kind with a channel of its own. -/
inductive PlotKind
  | load
  | ecn
  | dropp
  | sojourn
  | delay
  deriving DecidableEq, Repr

/-- `DisplayDataT`, and with `dataExtra` a `DisplayDataDualT`. -/
structure DisplayData (π : Type) where
  data : π
  name : String
  color : UInt8
  flowId : Int32
  dataExtra : Option π := none
  deriving DecidableEq

/-- A call of `Series` of a chart. -/
structure SeriesCall (π : Type) where
  label : String
  values : π
  color : UInt8
  deriving DecidableEq

/-- What a chart shows of an update. -/
def DisplayData.seriesCalls {π : Type} (newData : DisplayData π) : List (SeriesCall π) :=
  ⟨newData.name, newData.data, newData.color⟩ ::
    newData.dataExtra.toList.map fun dataExtra => ⟨"Linkcapacity", dataExtra, 15⟩

/-- A chart and its goroutine. -/
structure Chart (π : Type) where
  flowId : Int32
  /-- What is received and not yet worked off. -/
  newData : Option (DisplayData π) := none
  /-- The calls of `Series`. -/
  series : List (SeriesCall π) := []
  deriving DecidableEq

/-- The goroutine of a chart works off what it has received. -/
def Chart.handle {π : Type} (chart : Chart π) (newData : DisplayData π) : Chart π :=
  if chart.flowId < 0 ∨ newData.flowId = chart.flowId then
    { chart with newData := none, series := chart.series ++ newData.seriesCalls }
  else { chart with newData := none }

/-- A flow with the pointers to its columns. -/
structure FlowPointers (π : Type) where
  flowId : Int32
  load : π
  capacity : π
  delay : π
  dropp : π
  ecn : π
  sojourn : π
  deriving DecidableEq

/-- The updates that are sent for a flow. -/
def FlowPointers.updates {π : Type} (flow : FlowPointers π) : List (PlotKind × DisplayData π) :=
  let name := toString flow.flowId.toInt
  let color := flowColor flow.flowId
  [(.load, ⟨flow.load, name, color, flow.flowId, some flow.capacity⟩),
    (.delay, ⟨flow.delay, name, color, flow.flowId, none⟩),
    (.dropp, ⟨flow.dropp, name, color, flow.flowId, none⟩),
    (.ecn, ⟨flow.ecn, name, color, flow.flowId, none⟩),
    (.sojourn, ⟨flow.sojourn, name, color, flow.flowId, none⟩)]

structure PlotUI (π : Type) where
  /-- The flows that come through `UpdateDataGraphs`. -/
  updateDataGraphs : List (FlowPointers π)
  /-- The keys of `s.M`. -/
  m : List Int32 := []
  /-- What the goroutine has still to send for the flow it has taken. -/
  sends : List (PlotKind × DisplayData π) := []
  charts : PlotKind → List (Chart π) := fun _ => []
  /-- What has been sent so far. -/
  published : PlotKind → List (DisplayData π) := fun _ => []

inductive PlotAction
  /-- The goroutine of `NewUI` takes the next flow. -/
  | take
  /-- It sends the next update, and the chart `i` of the kind receives it. -/
  | publish (i : ℕ)
  /-- The chart `i` of the kind `k` works off what it has received. -/
  | handle (k : PlotKind) (i : ℕ)
  deriving DecidableEq, Repr

namespace PlotUI

variable {π : Type}

/-- `NewDetWids`. -/
def newDetWids (s : PlotUI π) (flowId : Int32) : PlotUI π :=
  { s with m := s.m ++ [flowId], charts := fun k => s.charts k ++ [{ flowId := flowId }] }

/-- The chart `i` of the kind `k` becomes `chart`. -/
def setChart (s : PlotUI π) (k : PlotKind) (i : ℕ) (chart : Chart π) : PlotUI π :=
  { s with charts := Function.update s.charts k ((s.charts k).set i chart) }

/-- An update is sent to the chart `i` of the kind `k`, which has nothing to work off; `sends` are
left. -/
def receive (s : PlotUI π) (k : PlotKind) (newData : DisplayData π)
    (sends : List (PlotKind × DisplayData π)) (i : ℕ) (chart : Chart π) : PlotUI π :=
  { s.setChart k i { chart with newData := some newData } with
    sends := sends
    published := Function.update s.published k (s.published k ++ [newData]) }

def step (s : PlotUI π) : PlotAction → Option (PlotUI π)
  | .take =>
    match s.sends, s.updateDataGraphs with
    | [], flow :: rest =>
      let s := if flow.flowId ∈ s.m then s else s.newDetWids flow.flowId
      some { s with updateDataGraphs := rest, sends := flow.updates }
    | _, _ => none
  | .publish i =>
    match s.sends with
    | [] => none
    | (k, newData) :: sends =>
      match (s.charts k)[i]? with
      | some chart =>
        if chart.newData.isNone then some (s.receive k newData sends i chart) else none
      | none => none
  | .handle k i =>
    match (s.charts k)[i]? with
    | some chart => chart.newData.map fun newData => s.setChart k i (chart.handle newData)
    | none => none

end PlotUI

end Jens
