import Jens.Flowdata.Correct.Appends
import Jens.Modes.Pipe

/-!
# What the steps of `modes/pipe` are

`step_cases` says once what a step can do: something goes on (`Moves`), or the process ends, in one
of its goroutines (`Fails`) or on a line (`Panics`).  The steps of the read loop and of its
goroutines are steps of `ReadLoop`, so all that holds of it holds here (`loop_of_run`).
-/

namespace Jens

open Steps

/-- The step of `ReadLoop` that a move is. -/
def PipeMove.readAction (now : Int64) : PipeMove → Option ReadAction
  | .contains => some .contains
  | .append => some .append
  | .go => some .go
  | .get j => some (.get j)
  | .lock j => some (.lock j)
  | .stmt j => some (.stmt j now)
  | .unlock j => some (.unlock j)
  | _ => none

/-- The step of `ReadLoop` that an action is. -/
def PipeAction.readAction : PipeAction → Option ReadAction
  | .line text => some (.line text)
  | .move m ans => m.readAction ans.now
  | _ => none

namespace PipeUI

variable {os : Os} {cv : F64 → Int64} {s t u : PipeUI}

/-! ### The step relation -/

/-- How a process ends. -/
inductive Fails (s : PipeUI) : PipeAction → Failure → Prop
  | getSelected {a : PipeAction} {e : Failure} : a.readAction = none →
      s.getSelectedFlow = .error e → Fails s a e
  | first {ans : Answers} : s.handler = some .first → s.flows.length = 1 →
      s.selectedFlowIndex ≠ 0 → Fails s (.move .handler ans) (.error "unknown selected flow")
  | onFirstFlowAdded {ans : Answers} : s.handler = some .onFirstFlowAdded →
      s.getSelectedFlow = .ok none → Fails s (.move .handler ans) nilDereference
  | redraw {ans : Answers} {lt : Int32} {e : Failure} : s.redraw = .getSelected lt →
      s.getSelectedFlow = .ok none → Fails s (.move .redraw ans) e
  | navigate {ans : Answers} {next : Bool} {e : Failure} : s.keyboard = .selecting next →
      s.mutex = none → s.navigate next ans.eligible = .error e → Fails s (.move .keyboard ans) e
  | details {ans : Answers} {e : Failure} : s.details = some none →
      Fails s (.move .details ans) e

/-- `ReadFromLine` panics on the line it is given. -/
def Panics (os : Os) (s : PipeUI) (a : PipeAction) (e : Failure) : Prop :=
  ∃ line, a = .line line ∧ s.handler = none ∧ s.loop.pc = .reading ∧ parseLine os line = .error e

/-- The process after that. -/
def die (s : PipeUI) (e : Failure) : PipeUI :=
  { s with loop := { s.loop with pc := .panicked e }, ended := some e }

/-- What a goroutine sends, and the state once it is sent. -/
inductive Sends (s : PipeUI) : PipeSender → PipeMessage → PipeUI → Prop
  | newFlow : s.handler = some .newFlow →
      Sends s .handler .flowList { s with handler := some .first }
  | handlerList : s.handler = some (.newFlowSelected .list) →
      Sends s .handler .flowList { s with handler := some (.newFlowSelected .getSelected) }
  | handlerDetails {flow : Option ℕ} : s.handler = some (.newFlowSelected (.details flow)) →
      Sends s .handler (.flowDetails flow) { s with handler := some .onFirstFlowAdded }
  | handlerRedraw {lt : Int32} : s.handler = some (.redraw lt) →
      Sends s .handler (.redraw lt) { s with handler := none }
  | onEndOfDrpplayer : s.handler = some .onEndOfDrpplayer →
      Sends s .handler .text { s with handler := some .returned }
  | newData {j v : ℕ} : s.newData[j]? = some v →
      Sends s (.newData j) (.dataGraphs v) { s with newData := s.newData.eraseIdx j }
  | chart {v : ℕ} : s.graphs = .sending v → s.plots.sends ≠ [] → Sends s .graphs .chart s
  | refreshBoth {j v selectedFlow : ℕ} : s.refreshes[j]? = some (.list v selectedFlow) →
      Sends s (.refresh j) .flowList
        { s with refreshes := s.refreshes.set j (.details selectedFlow) }
  | refreshList {j v selectedFlow : ℕ} : s.refreshes[j]? = some (.list v selectedFlow) →
      Sends s (.refresh j) .flowList { s with refreshes := s.refreshes.eraseIdx j }
  | refreshDetails {j selectedFlow : ℕ} : s.refreshes[j]? = some (.details selectedFlow) →
      Sends s (.refresh j) (.flowDetails (some selectedFlow))
        { s with refreshes := s.refreshes.eraseIdx j }
  | redrawDetails {f : Option ℕ} {lt : Int32} : s.redraw = .details f lt →
      Sends s .redraw (.flowDetails f) { s with redraw := .layout lt }
  | keyboardList : s.keyboard = .newFlowSelected .list →
      Sends s .keyboard .flowList { s with keyboard := .newFlowSelected .getSelected }
  | keyboardDetails {flow : Option ℕ} : s.keyboard = .newFlowSelected (.details flow) →
      Sends s .keyboard (.flowDetails flow) { s with keyboard := .unlocking }
  | keyboardRedraw {lt : Int32} : s.keyboard = .redraw lt →
      Sends s .keyboard (.redraw lt) { s with keyboard := .idle }

/-- What a receiver does with a message. -/
inductive Receives (s : PipeUI) : PipeMessage → PipeUI → Prop
  | flowList : s.listBusy = false → Receives s .flowList { s with listBusy := true }
  | flowDetails {flow : Option ℕ} : s.details = none →
      Receives s (.flowDetails flow) { s with details := some flow }
  | combined : s.redraw = .idle →
      Receives s (.redraw layoutCombined) { s with redraw := .details none layoutCombined }
  | redraw {lt : Int32} : s.redraw = .idle → lt ≠ layoutCombined →
      Receives s (.redraw lt) { s with redraw := .getSelected lt }
  | dataGraphs {v : ℕ} : s.graphs = .idle →
      Receives s (.dataGraphs v) { s with
        graphs := .locking v
        plots := { s.plots with updateDataGraphs := [s.pointers v] } }
  | chart {i : ℕ} {plots : PlotUI ColumnPtr} : s.plots.step (.publish i) = some plots →
      Receives s .chart { s with plots := plots }
  | text : s.textBusy = false → Receives s .text { s with textBusy := true }

/-- What a step does that does not end the process. -/
inductive Moves (os : Os) (cv : F64 → Int64) (s : PipeUI) : PipeAction → PipeUI → Prop
  | loop {a : PipeAction} {b : ReadAction} {loop : ReadLoop} : a.readAction = some b →
      b ≠ .append → (∀ j, b ≠ .unlock j) → ((b = .go ∨ ∃ line, b = .line line) → s.handler = none) →
      s.loop.step os cv b = some loop → (∀ line, b = .line line → loop.panicked = none) →
      Moves os cv s a { s with loop := loop }
  | append {ans : Answers} {loop : ReadLoop} : s.loop.step os cv .append = some loop →
      Moves os cv s (.move .append ans) { s with loop := loop, handler := some .newFlow }
  | unlock {ans : Answers} {j v : ℕ} {r : AppendRoutine} {loop : ReadLoop} :
      s.loop.routines[j]? = some r → r.pc = .writing v [] →
      s.loop.step os cv (.unlock j) = some loop →
      Moves os cv s (.move (.unlock j) ans) { s with loop := loop, newData := s.newData ++ [v] }
  | eof : s.handler = none → s.loop.pc = .reading →
      Moves os cv s .eof { s with handler := some .onEndOfDrpplayer }
  | arrow {next : Bool} : s.keyboard = .idle →
      Moves os cv s (.arrow next) { s with keyboard := .selecting next }
  | space : s.keyboard = .idle → Moves os cv s .space { s with keyboard := .after }
  | tick {flow : ℕ} : s.timer = none → s.getSelectedFlow = .ok (some flow) →
      Moves os cv s .tick { s with timer := some (s.flowId flow) }
  | noTick : s.timer = none → s.getSelectedFlow = .ok none → Moves os cv s .tick s
  | notFirst {ans : Answers} : s.handler = some .first → s.flows.length ≠ 1 →
      Moves os cv s (.move .handler ans) { s with handler := none }
  | first {ans : Answers} : s.handler = some .first → s.flows.length = 1 →
      s.selectedFlowIndex = 0 →
      Moves os cv s (.move .handler ans) { s with handler := some (.newFlowSelected .list) }
  | handlerSelected {ans : Answers} {flow : Option ℕ} :
      s.handler = some (.newFlowSelected .getSelected) → s.getSelectedFlow = .ok flow →
      Moves os cv s (.move .handler ans)
        { s with handler := some (.newFlowSelected (.details flow)) }
  | onFirstFlowAdded {ans : Answers} {flow : ℕ} : s.handler = some .onFirstFlowAdded →
      s.getSelectedFlow = .ok (some flow) →
      Moves os cv s (.move .handler ans) { s with handler := some (.redraw (s.flowId flow)) }
  | take {ans : Answers} {v : ℕ} {plots : PlotUI ColumnPtr} : s.graphs = .locking v →
      s.mutex = none → s.plots.step .take = some plots →
      Moves os cv s (.move .graphs ans)
        { s with mutex := some .graphs, plots := plots, graphs := .sending v }
  | release {ans : Answers} {v : ℕ} : s.graphs = .sending v → s.plots.sends = [] →
      Moves os cv s (.move .graphs ans) { s with mutex := none, graphs := .timing v }
  | due {ans : Answers} {v : ℕ} : s.graphs = .timing v → Moves os cv s (.move .graphs ans)
      { s with graphs := .idle, refreshes := s.refreshes ++ [.started v] }
  | notDue {ans : Answers} {v : ℕ} : s.graphs = .timing v →
      Moves os cv s (.move .graphs ans) { s with graphs := .idle }
  | refresh {ans : Answers} {j v flow : ℕ} : s.refreshes[j]? = some (.started v) →
      s.getSelectedFlow = .ok (some flow) →
      Moves os cv s (.move (.refresh j) ans)
        { s with refreshes := s.refreshes.set j (.list v flow) }
  | noRefresh {ans : Answers} {j v : ℕ} : s.refreshes[j]? = some (.started v) →
      s.getSelectedFlow = .ok none →
      Moves os cv s (.move (.refresh j) ans) { s with refreshes := s.refreshes.eraseIdx j }
  | redraw {ans : Answers} {lt : Int32} {f : ℕ} : s.redraw = .getSelected lt →
      s.getSelectedFlow = .ok (some f) →
      Moves os cv s (.move .redraw ans) { s with redraw := .details (some f) lt }
  | layout {ans : Answers} {lt : Int32} : s.redraw = .layout lt →
      Moves os cv s (.move .redraw ans) { s.setLayout lt with redraw := .idle }
  | timer {ans : Answers} {lt : Int32} : s.timer = some lt →
      Moves os cv s (.move .timer ans) { s.setLayout lt with timer := none }
  | stays {ans : Answers} {next : Bool} {man : FlowManager} {err : String} :
      s.keyboard = .selecting next → s.navigate next ans.eligible = .ok (man, some err) →
      Moves os cv s (.move .keyboard ans) { s with keyboard := .idle }
  | selects {ans : Answers} {next : Bool} {man : FlowManager} : s.keyboard = .selecting next →
      s.mutex = none → s.navigate next ans.eligible = .ok (man, none) →
      Moves os cv s (.move .keyboard ans) { s with
        selectedFlowIndex := man.selectedFlowIndex
        mutex := some .keyboard
        keyboard := .newFlowSelected .list }
  | keyboardSelected {ans : Answers} {flow : Option ℕ} :
      s.keyboard = .newFlowSelected .getSelected → s.getSelectedFlow = .ok flow →
      Moves os cv s (.move .keyboard ans) { s with keyboard := .newFlowSelected (.details flow) }
  | unlocking {ans : Answers} : s.keyboard = .unlocking →
      Moves os cv s (.move .keyboard ans) { s with mutex := none, keyboard := .after }
  | after {ans : Answers} {flow : ℕ} : s.keyboard = .after →
      s.getSelectedFlow = .ok (some flow) →
      Moves os cv s (.move .keyboard ans) { s with keyboard := .redraw (s.flowId flow) }
  | noAfter {ans : Answers} : s.keyboard = .after → s.getSelectedFlow = .ok none →
      Moves os cv s (.move .keyboard ans) { s with keyboard := .idle }
  | list {ans : Answers} : s.listBusy = true →
      Moves os cv s (.move .list ans) { s with listBusy := false }
  | details {ans : Answers} {flow : ℕ} : s.details = some (some flow) →
      Moves os cv s (.move .details ans)
        { s with details := none, lastSelectedFlow := some flow }
  | text {ans : Answers} : s.textBusy = true →
      Moves os cv s (.move .text ans) { s with textBusy := false }
  | chart {ans : Answers} {k : PlotKind} {i : ℕ} {plots : PlotUI ColumnPtr} :
      s.plots.step (.handle k i) = some plots →
      Moves os cv s (.move (.chart k i) ans) { s with plots := plots }
  | send {ans : Answers} {who : PipeSender} {i : ℕ} {msg : PipeMessage} {u t : PipeUI} :
      Sends s who msg u → Receives u msg t → Moves os cv s (.move (.send who i) ans) t

/-! ### The steps are of these kinds -/

theorem sends_of_handler {msg : PipeMessage} (h : s.handlerOutgoing = some (msg, u)) :
    Sends s .handler msg u := by
  cases hh : s.handler with
  | none =>
    rw [handlerOutgoing, hh] at h
    cases h
  | some pc =>
    rw [handlerOutgoing, hh] at h
    cases pc with
    | newFlow =>
      cases h
      exact .newFlow hh
    | newFlowSelected pc =>
      cases pc with
      | list =>
        cases h
        exact .handlerList hh
      | getSelected => cases h
      | details flow =>
        cases h
        exact .handlerDetails hh
    | redraw lt =>
      cases h
      exact .handlerRedraw hh
    | onEndOfDrpplayer =>
      cases h
      exact .onEndOfDrpplayer hh
    | first | onFirstFlowAdded | returned => cases h

theorem sends_of_graphs {msg : PipeMessage} (h : s.graphsOutgoing = some (msg, u)) :
    Sends s .graphs msg u := by
  unfold graphsOutgoing at h
  split at h
  case h_1 v hg =>
    obtain ⟨hsends, h⟩ := Option.ite_none_left_eq_some.mp h
    cases h
    exact .chart hg hsends
  case h_2 => cases h

theorem sends_of_refresh {j : ℕ} {msg : PipeMessage} (h : s.refreshOutgoing j = some (msg, u)) :
    Sends s (.refresh j) msg u := by
  unfold refreshOutgoing at h
  split at h
  case h_1 v selectedFlow hj =>
    cases h
    split_ifs
    · exact .refreshBoth hj
    · exact .refreshList hj
  case h_2 selectedFlow hj =>
    cases h
    exact .refreshDetails hj
  case h_3 => cases h

theorem sends_of_redraw {msg : PipeMessage} (h : s.redrawOutgoing = some (msg, u)) :
    Sends s .redraw msg u := by
  unfold redrawOutgoing at h
  split at h
  case h_1 f lt hr =>
    cases h
    exact .redrawDetails hr
  case h_2 => cases h

theorem sends_of_keyboard {msg : PipeMessage} (h : s.keyboardOutgoing = some (msg, u)) :
    Sends s .keyboard msg u := by
  unfold keyboardOutgoing at h
  split at h
  case h_1 hk =>
    cases h
    exact .keyboardList hk
  case h_2 flow hk =>
    cases h
    exact .keyboardDetails hk
  case h_3 lt hk =>
    cases h
    exact .keyboardRedraw hk
  case h_4 => cases h

theorem sends_of_outgoing {who : PipeSender} {msg : PipeMessage}
    (h : s.outgoing who = some (msg, u)) : Sends s who msg u := by
  cases who with
  | handler => exact sends_of_handler h
  | newData j =>
    obtain ⟨v, hv, heq⟩ := Option.map_eq_some_iff.mp h
    cases heq
    exact .newData hv
  | graphs => exact sends_of_graphs h
  | refresh j => exact sends_of_refresh h
  | redraw => exact sends_of_redraw h
  | keyboard => exact sends_of_keyboard h

theorem receives_of_receive {i : ℕ} {msg : PipeMessage} (h : s.receive i msg = some t) :
    Receives s msg t := by
  cases msg with
  | flowList =>
    obtain ⟨hbusy, h⟩ := Option.ite_none_left_eq_some.mp h
    rw [← Option.some.inj h]
    exact .flowList (by simpa using hbusy)
  | flowDetails flow =>
    obtain ⟨hbusy, h⟩ := Option.ite_none_left_eq_some.mp h
    rw [← Option.some.inj h]
    exact .flowDetails (by simpa using hbusy)
  | redraw lt =>
    obtain ⟨hidle, h⟩ := Option.ite_none_right_eq_some.mp h
    rw [← Option.some.inj h]
    split_ifs with hlt
    · rw [hlt]
      exact .combined hidle
    · exact .redraw hidle hlt
  | dataGraphs v =>
    obtain ⟨hidle, h⟩ := Option.ite_none_right_eq_some.mp h
    rw [← Option.some.inj h]
    exact .dataGraphs hidle
  | chart =>
    obtain ⟨plots, hplots, h⟩ := Option.map_eq_some_iff.mp h
    rw [← h]
    exact .chart hplots
  | text =>
    obtain ⟨hbusy, h⟩ := Option.ite_none_left_eq_some.mp h
    rw [← Option.some.inj h]
    exact .text (by simpa using hbusy)

/-- A step that goes on, or ends the process. -/
def StepsTo (os : Os) (cv : F64 → Int64) (s : PipeUI) (a : PipeAction) :
    Except Failure PipeUI → Prop
  | .ok t => Moves os cv s a t
  | .error e => Fails s a e

theorem stepsTo_selected {a : PipeAction} {k : Option ℕ → Except Failure PipeUI}
    (ha : a.readAction = none)
    (h : ∀ flow, s.getSelectedFlow = .ok flow → StepsTo os cv s a (k flow)) :
    StepsTo os cv s a (s.getSelectedFlow >>= k) := by
  cases hsel : s.getSelectedFlow with
  | error e => exact .getSelected ha hsel
  | ok flow => exact h flow hsel

theorem stepsTo_handler {ans : Answers} {r : Except Failure PipeUI}
    (h : s.handlerStep = some r) : StepsTo os cv s (.move .handler ans) r := by
  unfold handlerStep at h
  split at h
  case h_1 hh =>
    split_ifs at h with hlen hsel
    · rw [← Option.some.inj h]
      exact .first hh hlen hsel
    · rw [← Option.some.inj h]
      exact Moves.first hh hlen (by simpa using hsel)
    · rw [← Option.some.inj h]
      exact Moves.notFirst hh hlen
  case h_2 hh =>
    rw [← Option.some.inj h]
    exact stepsTo_selected rfl fun flow hsel => Moves.handlerSelected hh hsel
  case h_3 hh =>
    rw [← Option.some.inj h, bind_assoc]
    refine stepsTo_selected rfl fun flow hsel => ?_
    cases flow with
    | none => exact .onFirstFlowAdded hh hsel
    | some flow => exact Moves.onFirstFlowAdded hh hsel
  case h_4 => cases h

theorem moves_of_graphs {ans : Answers} (h : s.graphsStep ans.due = some t) :
    Moves os cv s (.move .graphs ans) t := by
  unfold graphsStep at h
  split at h
  case h_1 v hg =>
    obtain ⟨hmutex, h⟩ := Option.ite_none_right_eq_some.mp h
    obtain ⟨plots, hplots, h⟩ := Option.map_eq_some_iff.mp h
    rw [← h]
    exact .take hg hmutex hplots
  case h_2 v hg =>
    obtain ⟨hsends, h⟩ := Option.ite_none_right_eq_some.mp h
    rw [← Option.some.inj h]
    exact .release hg hsends
  case h_3 v hg =>
    rw [← Option.some.inj h]
    split_ifs
    · exact .due hg
    · exact .notDue hg
  case h_4 => cases h

theorem stepsTo_refresh {ans : Answers} {j : ℕ} {r : Except Failure PipeUI}
    (h : s.refreshStep j = some r) : StepsTo os cv s (.move (.refresh j) ans) r := by
  unfold refreshStep at h
  split at h
  case h_1 v hj =>
    rw [← Option.some.inj h]
    refine stepsTo_selected rfl fun flow hsel => ?_
    cases flow with
    | none => exact Moves.noRefresh hj hsel
    | some flow => exact Moves.refresh hj hsel
  case h_2 => cases h

theorem stepsTo_redraw {ans : Answers} {r : Except Failure PipeUI}
    (h : s.redrawStep = some r) : StepsTo os cv s (.move .redraw ans) r := by
  unfold redrawStep at h
  split at h
  case h_1 lt hr =>
    rw [← Option.some.inj h]
    refine stepsTo_selected rfl fun flow hsel => ?_
    cases flow with
    | none => exact .redraw hr hsel
    | some flow => exact Moves.redraw hr hsel
  case h_2 lt hr =>
    rw [← Option.some.inj h]
    exact Moves.layout hr
  case h_3 => cases h

theorem stepsTo_keyboard {ans : Answers} {r : Except Failure PipeUI}
    (h : s.keyboardStep ans.eligible = some r) : StepsTo os cv s (.move .keyboard ans) r := by
  unfold keyboardStep at h
  split at h
  case h_1 next hk =>
    obtain ⟨hmutex, h⟩ := Option.ite_none_right_eq_some.mp h
    rw [← Option.some.inj h]
    cases hnav : s.navigate next ans.eligible with
    | error e => exact .navigate hk hmutex hnav
    | ok p =>
      obtain ⟨man, err⟩ := p
      cases err with
      | some err => exact Moves.stays hk hnav
      | none => exact Moves.selects hk hmutex hnav
  case h_2 hk =>
    rw [← Option.some.inj h]
    exact stepsTo_selected rfl fun flow hsel => Moves.keyboardSelected hk hsel
  case h_3 hk =>
    rw [← Option.some.inj h]
    exact Moves.unlocking hk
  case h_4 hk =>
    rw [← Option.some.inj h]
    refine stepsTo_selected rfl fun flow hsel => ?_
    cases flow with
    | none => exact Moves.noAfter hk hsel
    | some flow => exact Moves.after hk hsel
  case h_5 => cases h

theorem stepsTo_details {ans : Answers} {r : Except Failure PipeUI}
    (h : s.detailsStep = some r) : StepsTo os cv s (.move .details ans) r := by
  unfold detailsStep at h
  split at h
  case h_1 flow hd =>
    rw [← Option.some.inj h]
    exact Moves.details hd
  case h_2 hd =>
    rw [← Option.some.inj h]
    exact .details hd
  case h_3 => cases h

theorem moves_of_loopStep {a : PipeAction} {b : ReadAction} (ha : a.readAction = some b)
    (happend : b ≠ .append) (hunlock : ∀ j, b ≠ .unlock j)
    (hfree : b = .go → s.handler = none) (hline : ∀ line, b ≠ .line line)
    (h : s.loopStep os cv b = some t) : Moves os cv s a t := by
  obtain ⟨loop, hloop, h⟩ := Option.map_eq_some_iff.mp h
  rw [← h]
  refine .loop ha happend hunlock ?_ hloop fun line heq => absurd heq (hline line)
  exact fun h => h.elim hfree fun ⟨line, heq⟩ => absurd heq (hline line)

/-- A line goes on, or `ReadFromLine` panics on it. -/
theorem moves_of_line {line : String} (hlive : s.ended = none) (hfree : s.handler = none)
    (h : (s.loopStep os cv (.line line)).map (fun t => { t with ended := t.loop.panicked }) =
      some t) :
    Moves os cv s (.line line) t ∨ ∃ e, Panics os s (.line line) e ∧ t = s.die e := by
  obtain ⟨u, hu, rfl⟩ := Option.map_eq_some_iff.mp h
  obtain ⟨loop, hloop, rfl⟩ := Option.map_eq_some_iff.mp hu
  have hmoves (hnone : loop.panicked = none) :
      Moves os cv s (.line line) { s with loop := loop, ended := loop.panicked } := by
    rw [hnone, ← hlive]
    exact .loop rfl (by simp) (by simp) (fun _ => hfree) hloop fun _ _ => hnone
  cases ReadLoop.moves_of_step hloop with
  | skip hpc => exact .inl (hmoves (by rw [ReadLoop.panicked, hpc]))
  | line => exact .inl (hmoves rfl)
  | panics hpc hline => exact .inr ⟨_, ⟨line, rfl, hfree, hpc, hline⟩, rfl⟩

/-- The goroutine that gives its mutex back has the place of its flow. -/
theorem appended_of_unlock {j : ℕ} {loop : ReadLoop}
    (h : s.loop.step os cv (.unlock j) = some loop) :
    ∃ r v, s.loop.routines[j]? = some r ∧ r.pc = .writing v [] ∧ s.appended j = [v] := by
  cases ReadLoop.moves_of_step h with
  | @unlock _ v r hr hpc => exact ⟨r, v, hr, hpc, by simp [appended, hr, hpc]⟩

theorem stepsTo_move {ans : Answers} {m : PipeMove} {r : Except Failure PipeUI}
    (h : s.move os cv ans m = some r) : StepsTo os cv s (.move m ans) r := by
  cases m with
  | contains =>
    obtain ⟨-, h⟩ := Option.ite_none_right_eq_some.mp h
    obtain ⟨t, ht, rfl⟩ := Option.map_eq_some_iff.mp h
    exact moves_of_loopStep rfl (by simp) (by simp) (by simp) (by simp) ht
  | append =>
    obtain ⟨-, h⟩ := Option.ite_none_right_eq_some.mp h
    obtain ⟨t, ht, rfl⟩ := Option.map_eq_some_iff.mp h
    obtain ⟨loop, hloop, rfl⟩ := Option.map_eq_some_iff.mp ht
    exact Moves.append hloop
  | go =>
    obtain ⟨hfree, h⟩ := Option.ite_none_right_eq_some.mp h
    obtain ⟨t, ht, rfl⟩ := Option.map_eq_some_iff.mp h
    exact moves_of_loopStep rfl (by simp) (by simp) (fun _ => hfree) (by simp) ht
  | get j =>
    obtain ⟨-, h⟩ := Option.ite_none_right_eq_some.mp h
    obtain ⟨t, ht, rfl⟩ := Option.map_eq_some_iff.mp h
    exact moves_of_loopStep rfl (by simp) (by simp) (by simp) (by simp) ht
  | lock j | stmt j =>
    obtain ⟨t, ht, rfl⟩ := Option.map_eq_some_iff.mp h
    exact moves_of_loopStep rfl (by simp) (by simp) (by simp) (by simp) ht
  | unlock j =>
    obtain ⟨t, ht, rfl⟩ := Option.map_eq_some_iff.mp h
    obtain ⟨loop, hloop, rfl⟩ := Option.map_eq_some_iff.mp ht
    obtain ⟨r, v, hr, hpc, hv⟩ := appended_of_unlock hloop
    rw [hv]
    exact Moves.unlock hr hpc hloop
  | handler => exact stepsTo_handler h
  | graphs =>
    obtain ⟨t, ht, rfl⟩ := Option.map_eq_some_iff.mp h
    exact moves_of_graphs ht
  | refresh j => exact stepsTo_refresh h
  | redraw => exact stepsTo_redraw h
  | timer =>
    obtain ⟨lt, hlt, rfl⟩ := Option.map_eq_some_iff.mp h
    exact Moves.timer hlt
  | keyboard => exact stepsTo_keyboard h
  | list =>
    obtain ⟨hbusy, h⟩ := Option.ite_none_right_eq_some.mp h
    rw [← Option.some.inj h]
    exact Moves.list hbusy
  | details => exact stepsTo_details h
  | text =>
    obtain ⟨hbusy, h⟩ := Option.ite_none_right_eq_some.mp h
    rw [← Option.some.inj h]
    exact Moves.text hbusy
  | chart k i =>
    obtain ⟨plots, hplots, rfl⟩ := Option.map_eq_some_iff.mp h
    exact Moves.chart hplots
  | send who i =>
    obtain ⟨⟨msg, u⟩, hout, h⟩ := Option.bind_eq_some_iff.mp h
    obtain ⟨t, ht, rfl⟩ := Option.map_eq_some_iff.mp h
    exact Moves.send (sends_of_outgoing hout) (receives_of_receive ht)

theorem stepsTo_tick (htimer : s.timer = none) : StepsTo os cv s .tick s.tickStep := by
  refine stepsTo_selected rfl fun flow hsel => ?_
  cases flow with
  | none => exact Moves.noTick htimer hsel
  | some flow => exact Moves.tick htimer hsel

/-- Something goes on, or the process ends. -/
theorem step_of_stepsTo {a : PipeAction} {r : Except Failure PipeUI} (h : StepsTo os cv s a r) :
    Moves os cv s a (s.outcome r) ∨
      ∃ e, Fails s a e ∧ s.outcome r = { s with ended := some e } := by
  cases r with
  | ok t => exact .inl h
  | error e => exact .inr ⟨e, h, rfl⟩

/-- **A step is one of the above.** -/
theorem step_cases {a : PipeAction} (h : s.step os cv a = some t) : s.ended = none ∧
    (Moves os cv s a t ∨ (∃ e, Fails s a e ∧ t = { s with ended := some e }) ∨
      ∃ e, Panics os s a e ∧ t = s.die e) := by
  obtain ⟨hlive, h⟩ := Option.ite_none_right_eq_some.mp h
  refine ⟨hlive, ?_⟩
  cases a with
  | line line =>
    obtain ⟨hfree, h⟩ := Option.ite_none_right_eq_some.mp h
    exact (moves_of_line hlive hfree h).imp_right .inr
  | eof =>
    obtain ⟨⟨hfree, hpc⟩, h⟩ := Option.ite_none_right_eq_some.mp h
    rw [← Option.some.inj h]
    exact .inl (.eof hfree hpc)
  | arrow next =>
    obtain ⟨hidle, h⟩ := Option.ite_none_right_eq_some.mp h
    rw [← Option.some.inj h]
    exact .inl (.arrow hidle)
  | space =>
    obtain ⟨hidle, h⟩ := Option.ite_none_right_eq_some.mp h
    rw [← Option.some.inj h]
    exact .inl (.space hidle)
  | tick =>
    obtain ⟨htimer, h⟩ := Option.ite_none_right_eq_some.mp h
    rw [← Option.some.inj h]
    exact (step_of_stepsTo (stepsTo_tick htimer)).imp_right .inl
  | move m ans =>
    obtain ⟨r, hr, rfl⟩ := Option.map_eq_some_iff.mp h
    exact (step_of_stepsTo (stepsTo_move hr)).imp_right .inl

/-! ### The read loop -/

theorem Sends.loop {who : PipeSender} {msg : PipeMessage} (h : Sends s who msg u) :
    u.loop = s.loop := by
  cases h <;> rfl

theorem Receives.loop {msg : PipeMessage} (h : Receives s msg t) : t.loop = s.loop := by
  cases h <;> rfl

@[simp] theorem loop_setLayout (s : PipeUI) (lt : Int32) : (s.setLayout lt).loop = s.loop := by
  unfold setLayout
  split_ifs <;> rfl

theorem Fails.readAction {a : PipeAction} {e : Failure} (h : Fails s a e) :
    a.readAction = none := by
  cases h with
  | getSelected ha => exact ha
  | _ => rfl

/-- A step is one of the read loop and its goroutines, or leaves them alone. -/
theorem loop_of_step {a : PipeAction} (h : s.step os cv a = some t) :
    (∃ b, a.readAction = some b ∧ s.loop.step os cv b = some t.loop) ∨
      a.readAction = none ∧ t.loop = s.loop := by
  obtain ⟨-, hm | ⟨e, he, rfl⟩ | ⟨e, ⟨line, rfl, -, hpc, hline⟩, rfl⟩⟩ := step_cases h
  · cases hm with
    | loop ha _ _ _ hloop => exact .inl ⟨_, ha, hloop⟩
    | append hloop | unlock _ _ hloop => exact .inl ⟨_, rfl, hloop⟩
    | send hs hr => exact .inr ⟨rfl, hr.loop.trans hs.loop⟩
    | layout | timer => exact .inr ⟨rfl, loop_setLayout s _⟩
    | _ => exact .inr ⟨rfl, rfl⟩
  · exact .inr ⟨he.readAction, rfl⟩
  · refine .inl ⟨.line line, rfl, ?_⟩
    show s.loop.readStep os s.loop.pc (.line line) = some (s.die e).loop
    rw [hpc, ReadLoop.readStep, hline]
    rfl

/-- The steps of `ReadLoop` among the actions. -/
def readActions (acts : List PipeAction) : List ReadAction := acts.filterMap PipeAction.readAction

/-- The read loop and its goroutines run as if nothing else were there. -/
theorem loop_of_run {acts : List PipeAction} (h : run (step os cv) init acts = some s) :
    run (ReadLoop.step os cv) ReadLoop.init (readActions acts) = some s.loop := by
  refine run_trace_invariant
    (I := fun acts s => run (ReadLoop.step os cv) ReadLoop.init (readActions acts) = some s.loop)
    ?_ rfl h
  intro as s a t hs hstep
  rw [readActions, List.filterMap_append]
  rcases loop_of_step hstep with ⟨b, hb, hloop⟩ | ⟨ha, hloop⟩
  · rw [List.filterMap_cons_some hb]
    exact run_concat hs hloop
  · rw [List.filterMap_cons_none ha, List.filterMap_nil, List.append_nil, hloop]
    exact hs

end PipeUI

end Jens
