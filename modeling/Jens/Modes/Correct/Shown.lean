import Jens.Modes.Correct.Waiting

/-!
# What `modes/pipe` shows is there

All the places and layouts that the goroutines pass around are those of flows that the manager has
(`Valid`), also while the selection moves under them.  So none of the checks for a missing flow ends
the process, and `log.Fatal` of the details is never reached: only a panic of the navigation ends
it, or one of `ReadFromLine` (`live_iff`).
-/

namespace Jens

open Steps

/-! ### The selection -/

theorem mem_of_indexAt {α : Type} {xs : List α} {i : ℤ} {x : α} (h : indexAt xs i = .ok x) :
    x ∈ xs := by
  unfold indexAt at h
  split_ifs at h
  split at h
  · cases h
    exact List.mem_of_getElem? ‹_›
  · cases h

namespace FlowManager

variable {test : ℕ → FlowT → Except Failure Bool} {man man' : FlowManager}

/-- Only flows that are there are listed. -/
theorem lt_of_eligibleFLows {r : EligibleFlows} (h : man.eligibleFLows test = .ok r) :
    ∀ i ∈ r.absoluteIndexes, i < man.flows.length := by
  refine Except.invariant_of_foldlM
    (I := fun r : EligibleFlows => ∀ i ∈ r.absoluteIndexes, i < man.flows.length) ?_ (by simp) h
  rintro r r' ⟨f, i⟩ hf hr h
  obtain ⟨b, -, hb⟩ := Except.bind_eq_ok.mp h
  cases b with
  | false =>
    cases hb
    exact hr
  | true =>
    cases hb
    intro j hj
    rcases List.mem_append.mp hj with hj | hj
    · exact hr j hj
    · rw [List.mem_singleton.mp hj]
      exact (List.mem_zipIdx' hf).1

theorem exists_next (h : man.selectNextFlowIndex test = .ok (man', none)) :
    ∃ i < man.flows.length, man'.selectedFlowIndex = i := by
  obtain ⟨r, hr, h⟩ := Except.bind_eq_ok.mp h
  have hlt := lt_of_eligibleFLows hr
  simp only at h
  split_ifs at h
  · cases h
  · obtain ⟨i, hi, h⟩ := Except.bind_eq_ok.mp h
    cases h
    exact ⟨i, hlt i (mem_of_indexAt hi), rfl⟩
  · cases h
  · obtain ⟨i, hi, h⟩ := Except.bind_eq_ok.mp h
    cases h
    exact ⟨i, hlt i (mem_of_indexAt hi), rfl⟩

theorem exists_previous (h : man.selectPreviousFlowIndex test = .ok (man', none)) :
    ∃ i < man.flows.length, man'.selectedFlowIndex = i := by
  obtain ⟨r, hr, h⟩ := Except.bind_eq_ok.mp h
  have hlt := lt_of_eligibleFLows hr
  simp only at h
  split_ifs at h
  all_goals try cases h
  all_goals
    obtain ⟨i, hi, h⟩ := Except.bind_eq_ok.mp h
    cases h
    exact ⟨i, hlt i (mem_of_indexAt hi), rfl⟩

end FlowManager

namespace ReadLoop

/-- Flows are only added. -/
theorem length_flows_le {os : Os} {cv : F64 → Int64} {l l' : ReadLoop} {b : ReadAction}
    (h : l.step os cv b = some l') : l.man.flows.length ≤ l'.man.flows.length := by
  cases moves_of_step h with
  | append => simp [FlowManager.append]
  | lock | stmt | unlock => simp [setPc, FlowManager.modify]
  | _ => exact le_rfl

end ReadLoop

namespace PlotUI

variable {π : Type} {p q : PlotUI π}

/-- There are charts of all kinds for the id. -/
def ChartsFor (p : PlotUI π) (flowId : Int32) : Prop :=
  ∀ k, ∃ chart ∈ p.charts k, chart.flowId = flowId

theorem ChartsFor.setChart {flowId : Int32} (h : p.ChartsFor flowId) {k : PlotKind} {i : ℕ}
    {chart chart' : Chart π} (hchart : (p.charts k)[i]? = some chart)
    (hid : chart'.flowId = chart.flowId) : (p.setChart k i chart').ChartsFor flowId := by
  intro k'
  obtain ⟨c, hc, hflow⟩ := h k'
  by_cases hk : k' = k
  · subst hk
    rw [setChart_charts_self]
    obtain ⟨j, hj⟩ := List.mem_iff_getElem?.mp hc
    by_cases hij : i = j
    · subst hij
      obtain rfl : chart = c := Option.some.inj (hchart.symm.trans hj)
      exact ⟨chart', List.mem_set (List.getElem?_eq_some_iff.mp hj).1 _, hid.trans hflow⟩
    · exact ⟨c, List.mem_of_getElem? ((List.getElem?_set_ne hij).trans hj), hflow⟩
  · rw [setChart_charts_ne p hk]
    exact ⟨c, hc, hflow⟩

/-- The flows that have charts, or will have, are among these. -/
structure PlotsOf (ids : Int32 → Prop) (p : PlotUI π) : Prop where
  waiting : ∀ flow ∈ p.updateDataGraphs, ids flow.flowId
  charted : ∀ flowId ∈ p.m, ids flowId ∧ p.ChartsFor flowId

variable {ids : Int32 → Prop}

theorem PlotsOf.take (h : PlotsOf ids p) (hstep : p.step .take = some q) : PlotsOf ids q := by
  obtain ⟨flow, rest, -, hflows, rfl⟩ := take_cases hstep
  have hid : ids flow.flowId := h.waiting flow (by rw [hflows]; exact List.mem_cons_self)
  have hrest : ∀ flow ∈ rest, ids flow.flowId := fun flow hflow =>
    h.waiting flow (by rw [hflows]; exact List.mem_cons_of_mem _ hflow)
  split_ifs with hm
  · exact ⟨hrest, h.charted⟩
  · refine ⟨hrest, fun flowId hflow => ?_⟩
    rcases List.mem_append.mp hflow with hold | hnew
    · obtain ⟨hids, hcharts⟩ := h.charted flowId hold
      refine ⟨hids, fun k => ?_⟩
      obtain ⟨chart, hchart, heq⟩ := hcharts k
      exact ⟨chart, List.mem_append_left _ hchart, heq⟩
    · rw [List.mem_singleton.mp hnew]
      exact ⟨hid, fun k => ⟨_, List.mem_append_right _ (List.mem_singleton_self _), rfl⟩⟩

theorem PlotsOf.publish (h : PlotsOf ids p) {i : ℕ} (hstep : p.step (.publish i) = some q) :
    PlotsOf ids q := by
  obtain ⟨k, newData, sends, chart, -, hchart, -, rfl⟩ := publish_cases hstep
  refine ⟨h.waiting, fun flowId hflow => ?_⟩
  obtain ⟨hids, hcharts⟩ := h.charted flowId hflow
  exact ⟨hids, hcharts.setChart hchart rfl⟩

theorem PlotsOf.handle (h : PlotsOf ids p) {k : PlotKind} {i : ℕ}
    (hstep : p.step (.handle k i) = some q) : PlotsOf ids q := by
  obtain ⟨chart, newData, hchart, -, rfl⟩ := handle_cases hstep
  refine ⟨h.waiting, fun flowId hflow => ?_⟩
  obtain ⟨hids, hcharts⟩ := h.charted flowId hflow
  refine ⟨hids, hcharts.setChart hchart ?_⟩
  unfold Chart.handle
  split_ifs <;> rfl

theorem m_take (h : p.step .take = some q) {flowId : Int32} (hm : flowId ∈ p.m) : flowId ∈ q.m := by
  obtain ⟨flow, rest, -, -, rfl⟩ := take_cases h
  split_ifs
  · exact hm
  · exact List.mem_append_left _ hm

theorem m_publish {i : ℕ} (h : p.step (.publish i) = some q) : q.m = p.m := by
  obtain ⟨_, _, _, _, -, -, -, rfl⟩ := publish_cases h
  rfl

theorem m_handle {k : PlotKind} {i : ℕ} (h : p.step (.handle k i) = some q) : q.m = p.m := by
  obtain ⟨_, _, -, -, rfl⟩ := handle_cases h
  rfl

theorem PlotsOf.mono (h : PlotsOf ids p) {ids' : Int32 → Prop} (hids : ∀ i, ids i → ids' i) :
    PlotsOf ids' p :=
  ⟨fun flow hflow => hids _ (h.waiting flow hflow),
    fun flowId hflow => (h.charted flowId hflow).imp_left (hids _)⟩

end PlotUI

namespace PipeUI

variable {os : Os} {cv : F64 → Int64} {s t u : PipeUI} {n : ℕ}

/-! ### Flows that are there

`n` is the number of flows. -/

/-- A pointer to a flow that is there. -/
def Present (n : ℕ) (flow : Option ℕ) : Prop := ∃ v < n, flow = some v

/-- A layout of one flow. -/
def SingleLayout (n : ℕ) (lt : Int32) : Prop := lt ≠ layoutCombined ∧ 0 < n

/-- The ids of the flows. -/
def FlowIds (n : ℕ) (flowId : Int32) : Prop := ∃ v < n, flowId = Int32.ofNat (v + 1)

def SelectedValid (n : ℕ) : SelectedPc → Prop
  | .list | .getSelected => 0 < n
  | .details flow => Present n flow

def HandlerValid (n : ℕ) : HandlerPc → Prop
  | .newFlow | .first | .onFirstFlowAdded => 0 < n
  | .newFlowSelected pc => SelectedValid n pc
  | .redraw lt => SingleLayout n lt
  | .onEndOfDrpplayer | .returned => True

def GraphsValid (n : ℕ) : GraphsPc → Prop
  | .idle => True
  | .locking v | .sending v | .timing v => v < n

def RefreshValid (n : ℕ) : RefreshPc → Prop
  | .started v => v < n
  | .list v selectedFlow => v < n ∧ selectedFlow < n
  | .details selectedFlow => selectedFlow < n

def RedrawValid (n : ℕ) : RedrawPc → Prop
  | .idle | .layout _ => True
  | .getSelected _ => 0 < n
  | .details f _ => Present n f

def KeyboardValid (n : ℕ) : KeyboardPc → Prop
  | .newFlowSelected pc => SelectedValid n pc
  | .redraw lt => SingleLayout n lt
  | .idle | .selecting _ | .unlocking | .after => True

def MessageValid (n : ℕ) : PipeMessage → Prop
  | .flowDetails flow => Present n flow
  | .redraw lt => SingleLayout n lt
  | .dataGraphs v => v < n
  | .flowList | .chart | .text => True

/-- All that is passed around is there. -/
structure Valid (n : ℕ) (s : PipeUI) : Prop where
  selected : 0 ≤ s.selectedFlowIndex ∧ s.selectedFlowIndex < max 1 (n : ℤ)
  handler : ∀ pc ∈ s.handler, HandlerValid n pc
  newData : ∀ v ∈ s.newData, v < n
  graphs : GraphsValid n s.graphs
  plots : PlotUI.PlotsOf (FlowIds n) s.plots
  refreshes : ∀ r ∈ s.refreshes, RefreshValid n r
  redraw : RedrawValid n s.redraw
  keyboard : KeyboardValid n s.keyboard
  details : ∀ flow ∈ s.details, Present n flow
  lastSelectedFlow : ∀ v ∈ s.lastSelectedFlow, v < n
  layout : s.layout = layoutCombined ∨ s.layout ∈ s.plots.m

theorem valid_init : Valid 0 init := by
  constructor <;> simp [init, GraphsValid, RedrawValid, KeyboardValid]
  exact ⟨by simp, by simp⟩

theorem SelectedValid.mono {m : ℕ} (hnm : n ≤ m) {pc : SelectedPc} (h : SelectedValid n pc) :
    SelectedValid m pc := by
  cases pc with
  | list | getSelected => exact lt_of_lt_of_le h hnm
  | details flow => exact h.imp fun v hv => ⟨lt_of_lt_of_le hv.1 hnm, hv.2⟩

theorem Present.mono {m : ℕ} (hnm : n ≤ m) {flow : Option ℕ} (h : Present n flow) :
    Present m flow := h.imp fun _ hv => ⟨lt_of_lt_of_le hv.1 hnm, hv.2⟩

theorem SingleLayout.mono {m : ℕ} (hnm : n ≤ m) {lt : Int32} (h : SingleLayout n lt) :
    SingleLayout m lt := ⟨h.1, lt_of_lt_of_le h.2 hnm⟩

/-- What is there stays there. -/
theorem Valid.mono {m : ℕ} (h : Valid n s) (hnm : n ≤ m) : Valid m s where
  selected := ⟨h.selected.1, lt_of_lt_of_le h.selected.2 (by omega)⟩
  handler pc hpc := by
    have hold := h.handler pc hpc
    cases pc with
    | newFlow | first | onFirstFlowAdded => exact lt_of_lt_of_le hold hnm
    | newFlowSelected pc => exact SelectedValid.mono hnm hold
    | redraw lt => exact SingleLayout.mono hnm hold
    | onEndOfDrpplayer | returned => trivial
  newData v hv := lt_of_lt_of_le (h.newData v hv) hnm
  graphs := by
    have hold := h.graphs
    cases hg : s.graphs with
    | idle => trivial
    | locking v | sending v | timing v =>
      rw [hg] at hold
      exact lt_of_lt_of_le hold hnm
  plots := h.plots.mono fun _ hid => hid.imp fun _ hv => ⟨lt_of_lt_of_le hv.1 hnm, hv.2⟩
  refreshes r hr := by
    have hold := h.refreshes r hr
    cases r with
    | started v | details v => exact lt_of_lt_of_le hold hnm
    | list v flow => exact ⟨lt_of_lt_of_le hold.1 hnm, lt_of_lt_of_le hold.2 hnm⟩
  redraw := by
    have hold := h.redraw
    cases hr : s.redraw with
    | idle | layout lt => trivial
    | getSelected lt =>
      rw [hr] at hold
      exact lt_of_lt_of_le hold hnm
    | details f lt =>
      rw [hr] at hold
      exact Present.mono hnm hold
  keyboard := by
    have hold := h.keyboard
    cases hk : s.keyboard with
    | idle | selecting next | unlocking | after => trivial
    | newFlowSelected pc =>
      rw [hk] at hold
      exact SelectedValid.mono hnm hold
    | redraw lt =>
      rw [hk] at hold
      exact SingleLayout.mono hnm hold
  details flow hflow := (h.details flow hflow).mono hnm
  lastSelectedFlow v hv := lt_of_lt_of_le (h.lastSelectedFlow v hv) hnm
  layout := h.layout

theorem handler_some {pc : HandlerPc} (h : HandlerValid n pc) :
    ∀ pc' ∈ some pc, HandlerValid n pc' := by
  rintro _ ⟨⟩
  exact h

theorem Valid.eraseRefresh (h : Valid n s) (j : ℕ) :
    ∀ r ∈ s.refreshes.eraseIdx j, RefreshValid n r :=
  fun r hr => h.refreshes r (List.mem_of_mem_eraseIdx hr)

theorem Valid.setRefresh (h : Valid n s) (j : ℕ) {r : RefreshPc} (hr : RefreshValid n r) :
    ∀ r' ∈ s.refreshes.set j r, RefreshValid n r' := by
  intro r' hr'
  rcases List.mem_or_eq_of_mem_set hr' with hold | rfl
  · exact h.refreshes r' hold
  · exact hr

theorem Valid.send (h : Valid n s) {who : PipeSender} {msg : PipeMessage}
    (hs : Sends s who msg u) : Valid n u ∧ MessageValid n msg := by
  cases hs with
  | newFlow hh =>
    have hold : 0 < n := h.handler _ hh
    exact ⟨{ h with handler := handler_some hold }, trivial⟩
  | handlerList hh =>
    have hold : 0 < n := h.handler _ hh
    exact ⟨{ h with handler := handler_some hold }, trivial⟩
  | handlerDetails hh =>
    have hold : Present n _ := h.handler _ hh
    obtain ⟨v, hv, -⟩ := hold
    exact ⟨{ h with handler := handler_some (Nat.zero_lt_of_lt hv) }, h.handler _ hh⟩
  | handlerRedraw hh => exact ⟨{ h with handler := by simp }, h.handler _ hh⟩
  | onEndOfDrpplayer hh => exact ⟨{ h with handler := handler_some trivial }, trivial⟩
  | newData hj =>
    have hv := h.newData _ (List.mem_of_getElem? hj)
    exact ⟨{ h with newData := fun v hv => h.newData v (List.mem_of_mem_eraseIdx hv) }, hv⟩
  | chart => exact ⟨h, trivial⟩
  | refreshBoth hj =>
    have hold : RefreshValid n (.list _ _) := h.refreshes _ (List.mem_of_getElem? hj)
    exact ⟨{ h with refreshes := h.setRefresh _ hold.2 }, trivial⟩
  | refreshList hj => exact ⟨{ h with refreshes := h.eraseRefresh _ }, trivial⟩
  | refreshDetails hj =>
    have hold : RefreshValid n (.details _) := h.refreshes _ (List.mem_of_getElem? hj)
    exact ⟨{ h with refreshes := h.eraseRefresh _ }, ⟨_, hold, rfl⟩⟩
  | redrawDetails hr =>
    have hold := h.redraw
    rw [hr] at hold
    exact ⟨{ h with redraw := trivial }, hold⟩
  | keyboardList hk =>
    have hold := h.keyboard
    rw [hk] at hold
    exact ⟨{ h with keyboard := hold }, trivial⟩
  | keyboardDetails hk | keyboardRedraw hk =>
    have hold := h.keyboard
    rw [hk] at hold
    exact ⟨{ h with keyboard := trivial }, hold⟩

/-- The id of a flow, which counts the flows. -/
structure Numbered (n : ℕ) (s : PipeUI) : Prop where
  length : s.flows.length = n
  flowId : ∀ v < n, s.flowId v = Int32.ofNat (v + 1)

theorem Valid.receive (h : Valid n s) (hids : Numbered n s) {msg : PipeMessage}
    (hmsg : MessageValid n msg) (hr : Receives s msg t) : Valid n t := by
  cases hr with
  | flowList | text => exact { h with }
  | flowDetails hd =>
    refine { h with details := ?_ }
    rintro _ ⟨⟩
    exact hmsg
  | combined hr => exact absurd rfl hmsg.1
  | redraw hr hlt => exact { h with redraw := hmsg.2 }
  | @dataGraphs v hg =>
    refine { h with graphs := hmsg, plots := ⟨?_, h.plots.charted⟩ }
    intro flow hflow
    rw [List.mem_singleton.mp hflow]
    exact ⟨v, hmsg, hids.flowId v hmsg⟩
  | chart hplots =>
    have hm := PlotUI.m_publish hplots
    exact { h with plots := h.plots.publish hplots, layout := by rw [hm]; exact h.layout }

theorem Valid.getSelectedFlow (h : Valid n s) (hids : Numbered n s) :
    (n = 0 ∧ s.getSelectedFlow = .ok none) ∨
      ∃ v < n, s.selectedFlowIndex = v ∧ s.getSelectedFlow = .ok (some v) := by
  obtain ⟨hnonneg, hlt⟩ := h.selected
  unfold PipeUI.getSelectedFlow
  rw [hids.length]
  by_cases hn : n = 0
  · left
    refine ⟨hn, if_pos (.inr ?_)⟩
    omega
  · right
    refine ⟨s.selectedFlowIndex.toNat, by omega, by omega, ?_⟩
    rw [if_neg (by omega), if_neg (by omega)]

/-- A flow that is found is there. -/
theorem Valid.present (h : Valid n s) (hids : Numbered n s) {v : ℕ}
    (hsel : s.getSelectedFlow = .ok (some v)) : v < n := by
  rcases h.getSelectedFlow hids with ⟨-, hnone⟩ | ⟨w, hw, -, hsome⟩
  · rw [hnone] at hsel
    cases hsel
  · rw [hsome] at hsel
    cases hsel
    exact hw

/-- Where there are flows, one is found. -/
theorem Valid.found (h : Valid n s) (hids : Numbered n s) (hn : 0 < n) {flow : Option ℕ}
    (hsel : s.getSelectedFlow = .ok flow) : Present n flow := by
  rcases h.getSelectedFlow hids with ⟨hzero, -⟩ | ⟨w, hw, -, hsome⟩
  · omega
  · rw [hsome] at hsel
    cases hsel
    exact ⟨w, hw, rfl⟩

/-- As long as the ids have not wrapped around, none of them stands for all flows. -/
theorem Numbered.singleLayout (hids : Numbered n s) (hn : n < 2 ^ 32 - 1) {v : ℕ} (hv : v < n) :
    SingleLayout n (s.flowId v) := by
  refine ⟨?_, Nat.zero_lt_of_lt hv⟩
  rw [hids.flowId v hv]
  intro heq
  have hbits := congrArg (fun i : Int32 => i.toBitVec.toNat) heq
  have hmax : (layoutCombined : Int32).toBitVec.toNat = 2 ^ 32 - 1 := by decide
  have hof : (Int32.ofNat (v + 1)).toBitVec.toNat = v + 1 := by
    rw [Int32.toBitVec_ofNat', BitVec.toNat_ofNat, Nat.mod_eq_of_lt (by omega)]
  simp only [hmax, hof] at hbits
  omega

theorem Valid.setLayout (h : Valid n s) (lt : Int32) : Valid n (s.setLayout lt) := by
  unfold PipeUI.setLayout
  split_ifs with hlt
  · exact { h with layout := hlt }
  · exact h

/-- A step of the read loop or of a goroutine of a line. -/
theorem Valid.loop (h : Valid s.flows.length s) {b : ReadAction} {loop : ReadLoop}
    (hloop : s.loop.step os cv b = some loop) :
    Valid loop.man.flows.length { s with loop := loop } :=
  Valid.mono (n := s.flows.length) { h with } (ReadLoop.length_flows_le hloop)

/-- The flows are as many as before. -/
theorem Valid.of_loop_eq (hids : Numbered n s) (hloop : t.loop = s.loop) (h : Valid n t) :
    Valid t.flows.length t := by
  have hlen : t.flows.length = n := by rw [flows, hloop, ← hids.length, flows]
  rwa [hlen]

theorem exists_navigate {next : Bool} {eligible : ℕ → FlowT → Except Failure Bool}
    {man : FlowManager} (h : s.navigate next eligible = .ok (man, none)) :
    ∃ i < s.flows.length, man.selectedFlowIndex = i := by
  show ∃ i < s.manager.flows.length, man.selectedFlowIndex = i
  unfold navigate at h
  split_ifs at h
  · exact FlowManager.exists_next h
  · exact FlowManager.exists_previous h

theorem Valid.moves (h : Valid n s) (hids : Numbered n s) (hn : n < 2 ^ 32 - 1)
    (hcoh : s.loop.Coherent) {a : PipeAction} (hm : Moves os cv s a t) :
    Valid t.flows.length t := by
  have hvalid : Valid s.flows.length s := hids.length ▸ h
  cases hm with
  | loop _ _ _ _ hloop => exact hvalid.loop hloop
  | append hloop =>
    refine { hvalid.loop hloop with handler := handler_some ?_ }
    cases ReadLoop.moves_of_step hloop with
    | append => simp [HandlerValid, flows, FlowManager.append]
  | @unlock _ j v r _ hr hpc hloop =>
    refine { hvalid.loop hloop with newData := fun w hw => ?_ }
    rcases List.mem_append.mp hw with hold | hnew
    · exact (hvalid.loop hloop).newData w hold
    · rw [List.mem_singleton.mp hnew]
      obtain ⟨hends, -⟩ := hcoh.writing r (List.mem_of_getElem? hr) v [] hpc
      obtain ⟨f, hf, -⟩ := ReadLoop.exists_flow_of_ends hends
      exact lt_of_lt_of_le (List.getElem?_eq_some_iff.mp hf).1 (ReadLoop.length_flows_le hloop)
  | eof => exact .of_loop_eq hids rfl { h with handler := handler_some trivial }
  | arrow | space | stays | unlocking | noAfter =>
    exact .of_loop_eq hids rfl { h with keyboard := trivial }
  | tick | list | text => exact .of_loop_eq hids rfl { h with }
  | noTick => exact .of_loop_eq hids rfl h
  | notFirst => exact .of_loop_eq hids rfl { h with handler := by simp }
  | first hh =>
    have hold : 0 < n := h.handler _ hh
    exact .of_loop_eq hids rfl { h with handler := handler_some hold }
  | handlerSelected hh hsel =>
    have hold : 0 < n := h.handler _ hh
    exact .of_loop_eq hids rfl { h with handler := handler_some (h.found hids hold hsel) }
  | onFirstFlowAdded hh hsel =>
    have hlayout := hids.singleLayout hn (h.present hids hsel)
    exact .of_loop_eq hids rfl { h with handler := handler_some hlayout }
  | take hg _ hplots =>
    have hold := h.graphs
    rw [hg] at hold
    exact .of_loop_eq hids rfl { h with
      graphs := hold
      plots := h.plots.take hplots
      layout := h.layout.imp_right (PlotUI.m_take hplots) }
  | release hg =>
    have hold := h.graphs
    rw [hg] at hold
    exact .of_loop_eq hids rfl { h with graphs := hold }
  | @due _ v hg =>
    have hold := h.graphs
    rw [hg] at hold
    refine .of_loop_eq hids rfl { h with graphs := trivial, refreshes := fun r hr => ?_ }
    rcases List.mem_append.mp hr with hr | hr
    · exact h.refreshes r hr
    · rw [List.mem_singleton.mp hr]
      exact hold
  | notDue => exact .of_loop_eq hids rfl { h with graphs := trivial }
  | @refresh _ j v flow hj hsel =>
    have hold : RefreshValid n (.started v) := h.refreshes _ (List.mem_of_getElem? hj)
    have hnew : RefreshValid n (.list v flow) := ⟨hold, h.present hids hsel⟩
    exact .of_loop_eq hids rfl { h with refreshes := h.setRefresh j hnew }
  | noRefresh => exact .of_loop_eq hids rfl { h with refreshes := h.eraseRefresh _ }
  | redraw _ hsel =>
    exact .of_loop_eq hids rfl { h with redraw := ⟨_, h.present hids hsel, rfl⟩ }
  | @layout _ lt =>
    exact .of_loop_eq hids (loop_setLayout s lt) { h.setLayout lt with redraw := trivial }
  | @timer _ lt => exact .of_loop_eq hids (loop_setLayout s lt) { h.setLayout lt with }
  | @selects _ _ man hk _ hnav =>
    obtain ⟨i, hi, heq⟩ := exists_navigate hnav
    rw [hids.length] at hi
    refine .of_loop_eq hids rfl { h with
      selected := ?_
      keyboard := Nat.zero_lt_of_lt hi }
    show 0 ≤ man.selectedFlowIndex ∧ man.selectedFlowIndex < max 1 (n : ℤ)
    omega
  | keyboardSelected hk hsel =>
    have hold := h.keyboard
    rw [hk] at hold
    exact .of_loop_eq hids rfl { h with keyboard := h.found hids hold hsel }
  | after _ hsel =>
    exact .of_loop_eq hids rfl
      { h with keyboard := hids.singleLayout hn (h.present hids hsel) }
  | @details _ flow hd =>
    refine .of_loop_eq hids rfl { h with details := by simp, lastSelectedFlow := ?_ }
    rintro _ ⟨⟩
    obtain ⟨v, hv, heq⟩ := h.details _ hd
    cases heq
    exact hv
  | chart hplots =>
    have hm := PlotUI.m_handle hplots
    exact .of_loop_eq hids rfl
      { h with plots := h.plots.handle hplots, layout := by rw [hm]; exact h.layout }
  | send hs hr =>
    obtain ⟨hu, hmsg⟩ := h.send hs
    have hidsu : Numbered n _ :=
      ⟨by rw [flows, hs.loop]; exact hids.length, fun v hv => by
        rw [flowId, flows, hs.loop]; exact hids.flowId v hv⟩
    exact .of_loop_eq hids (hr.loop.trans hs.loop) (hu.receive hidsu hmsg hr)

/-! ### Runs -/

/-- What is read and pressed makes nothing panic. -/
structure Harmless (s : PipeUI) (a : PipeAction) : Prop where
  /-- No line names an end point without a port. -/
  ports : ∀ line, a = .line line → ¬ Portless line
  /-- The navigation of a key has a result. -/
  navigates : ∀ ans next, a = .move .keyboard ans → s.keyboard = .selecting next →
    s.mutex = none → ∃ r, s.navigate next ans.eligible = .ok r

/-- Only the navigation can fail. -/
theorem Valid.not_harmless_of_fails (h : Valid n s) (hids : Numbered n s) {a : PipeAction}
    {e : Failure} (hf : Fails s a e) : ¬ Harmless s a := by
  intro hharmless
  have hsel := h.getSelectedFlow hids
  cases hf with
  | getSelected _ herr =>
    rcases hsel with ⟨-, hsel⟩ | ⟨v, -, -, hsel⟩ <;> rw [hsel] at herr <;> cases herr
  | first hh hlen hne =>
    rw [hids.length] at hlen
    obtain ⟨hnonneg, hlt⟩ := h.selected
    omega
  | onFirstFlowAdded hh hnone =>
    have hold : 0 < n := h.handler _ hh
    obtain ⟨v, -, hv⟩ := h.found hids hold hnone
    cases hv
  | redraw hr hnone =>
    have hold := h.redraw
    rw [hr] at hold
    obtain ⟨v, -, hv⟩ := h.found hids hold hnone
    cases hv
  | navigate hk hmutex herr =>
    obtain ⟨r, hr⟩ := hharmless.navigates _ _ rfl hk hmutex
    rw [hr] at herr
    cases herr
  | details hd =>
    obtain ⟨v, -, hv⟩ := h.details _ hd
    cases hv

/-- What is shown is there. -/
structure Shown (s : PipeUI) : Prop where
  /-- A flow is selected as soon as there is one. -/
  selected : 0 ≤ s.selectedFlowIndex ∧ (s.flows ≠ [] → s.selectedFlowIndex < s.flows.length)
  /-- The details show a flow. -/
  details : ∀ v ∈ s.lastSelectedFlow, v < s.flows.length
  /-- A layout that was drawn is the first one, or that of a flow that has all its charts. -/
  layout : s.layout = layoutCombined ∨
    (∃ v < s.flows.length, s.layout = s.flowId v) ∧ s.plots.ChartsFor s.layout

theorem Valid.shown (h : Valid n s) (hids : Numbered n s) : Shown s := by
  obtain rfl := hids.length
  refine ⟨⟨h.selected.1, fun hne => ?_⟩, h.lastSelectedFlow, h.layout.imp_right fun hm => ?_⟩
  · have hpos := List.length_pos_iff.mpr hne
    have hlt := h.selected.2
    omega
  · obtain ⟨⟨v, hv, heq⟩, hcharts⟩ := h.plots.charted _ hm
    exact ⟨⟨v, hv, heq.trans (hids.flowId v hv).symm⟩, hcharts⟩

theorem numbered_of_run {acts : List PipeAction} (h : run (step os cv) init acts = some s) :
    Numbered s.flows.length s := by
  have hreg := (ReadLoop.invariants_of_run (loop_of_run h)).1
  refine ⟨rfl, fun v hv => ?_⟩
  have hget : s.flows[v]? = some s.flows[v] := List.getElem?_eq_getElem hv
  rw [flowId, hget]
  exact hreg.flowId v _ hget

theorem length_flows_le {a : PipeAction} (h : s.step os cv a = some t) :
    s.flows.length ≤ t.flows.length := by
  rcases loop_of_step h with ⟨b, -, hloop⟩ | ⟨-, hloop⟩
  · exact ReadLoop.length_flows_le hloop
  · rw [flows, flows, hloop]

/-- The ids have not wrapped around. -/
def FewFlows (s : PipeUI) : Prop := s.flows.length < 2 ^ 32 - 1

theorem valid_of_run {acts : List PipeAction} (h : run (step os cv) init acts = some s)
    (hfew : FewFlows s) : Valid s.flows.length s := by
  revert hfew
  refine trace_invariant_from (I := fun _ s => FewFlows s → Valid s.flows.length s) ?_
    (s := init) (fun _ => valid_init) h
  intro as s a t hrun hs hstep hfew
  have hsfew : FewFlows s := lt_of_le_of_lt (length_flows_le hstep) hfew
  obtain ⟨-, hm | ⟨e, -, rfl⟩ | ⟨e, -, rfl⟩⟩ := step_cases hstep
  · exact (hs hsfew).moves (numbered_of_run hrun) hsfew
      (ReadLoop.invariants_of_run (loop_of_run hrun)).2 hm
  · exact { hs hsfew with }
  · exact { hs hsfew with }

theorem Moves.harmless {a : PipeAction} (hm : Moves os cv s a t) : Harmless s a := by
  refine ⟨?_, ?_⟩
  · rintro line rfl hportless
    cases hm with
    | loop ha _ _ _ hloop hline =>
      obtain rfl := Option.some.inj ha
      have hnone := hline line rfl
      cases ReadLoop.moves_of_step hloop with
      | skip _ hparse | line _ hparse => exact not_portless_of_ok hparse hportless
      | panics => cases hnone
  · rintro ans next rfl hk hmutex
    cases hm with
    | stays hk' hnav | selects hk' _ hnav =>
      rw [hk] at hk'
      cases hk'
      exact ⟨_, hnav⟩
    | keyboardSelected hk' | unlocking hk' | after hk' | noAfter hk' =>
      rw [hk] at hk'
      cases hk'
    | loop ha => cases ha

/-- **In every run, what is shown is there, and only the navigation and a line without a port can
end the process.** -/
theorem live_iff {acts : List PipeAction} (hrun : run (step os cv) init acts = some s)
    (hfew : FewFlows s) :
    Shown s ∧ (s.ended = none ↔ StepsMeet (step os cv) Harmless init acts) := by
  refine ⟨(valid_of_run hrun hfew).shown (numbered_of_run hrun), ?_⟩
  refine good_iff_stepsMeet (I := fun s => ∃ acts, run (step os cv) init acts = some s)
    (J := FewFlows) (G := fun s => s.ended = none) ?_ ?_ ?_ ?_ ⟨[], rfl⟩ hfew rfl hrun
  · rintro s a t ⟨acts, hacts⟩ hstep
    exact ⟨_, run_concat hacts hstep⟩
  · exact fun s a t hstep hfew => lt_of_le_of_lt (length_flows_le hstep) hfew
  · rintro s a t ⟨acts, hacts⟩ hfew hlive hstep
    have hsfew : FewFlows s := lt_of_le_of_lt (length_flows_le hstep) hfew
    -- the step goes on, or a goroutine fails, or the read loop panics on a line
    obtain ⟨-, hm | ⟨e, hf, rfl⟩ | ⟨e, ⟨line, rfl, -, -, hline⟩, rfl⟩⟩ := step_cases hstep
    · exact iff_of_true (hm.ended.trans hlive) hm.harmless
    · have hnot := (valid_of_run hacts hsfew).not_harmless_of_fails (numbered_of_run hacts) hf
      exact iff_of_false (by simp) hnot
    · have hnot : ¬ Harmless s (.line line) := fun h =>
        h.ports line rfl (parseLine_error_iff.mp ⟨e, hline⟩)
      exact iff_of_false (by simp [die]) hnot
  · intro s a t _ _ hended hstep
    exact absurd (step_cases hstep).1 hended

/-- A line is read and its flow added. -/
def oneFlow : List PipeAction :=
  let ans : Answers := ⟨0, false, fun _ _ => .ok true⟩
  [.line "1 2 3 4 5 6 7 a:1-b:2", .move .contains ans, .move .append ans]

theorem live_iff_oneFlow :
    ∃ s, run (step numbersOs fun _ => 0) init oneFlow = some s ∧ Shown s ∧
      (s.ended = none ↔ StepsMeet (step numbersOs fun _ => 0) Harmless init oneFlow) := by
  have hone : (run (step numbersOs fun _ => 0) init oneFlow).map (fun s => s.flows.length) =
      some 1 := by decide +kernel
  obtain ⟨s, hs, hlen⟩ := Option.map_eq_some_iff.mp hone
  exact ⟨s, hs, live_iff hs (by rw [FewFlows, hlen]; decide)⟩

-- the ends of the flow have no ports
example : (run (step numbersOs fun _ => 0) init [.line "1 2 3 4 5 6 7 a-b"]).map PipeUI.ended =
    some (some (.panic "runtime error: index out of range [1] with length 1")) := by
  decide +kernel

end PipeUI

end Jens
