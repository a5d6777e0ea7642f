import Jens.Modes.Correct.Progress
import Jens.Modes.Correct.Shown

/-!
# Every data point reaches the plots

A goroutine of a line that has appended hands its flow over once, and the goroutine of `NewUI` sends
one update to each kind of plot for it.  So what was appended, and what was sent or is still on its
way, are the same at every moment (`Accounted`), and when everything is at rest each kind of plot
has been sent the update of a flow as often as the flow has data points (`updates_of_rest`).
-/

namespace Jens

open Steps

/-! ### The goroutines that have appended -/

namespace ReadLoop

variable {os : Os} {cv : F64 → Int64} {l l' : ReadLoop} {i j v : ℕ} {r : AppendRoutine}

/-- How many goroutines have appended to the flow at a place. -/
def doneAt (l : ReadLoop) (i : ℕ) : ℕ :=
  l.man.ends[i]?.elim 0 fun e => (l.routines.filterMap (donePoint e)).length

/-- A flow that somebody has appended to is there. -/
theorem lt_of_doneAt_pos (h : 0 < l.doneAt i) : i < l.man.flows.length := by
  by_contra hge
  have hnone : l.man.ends[i]? = none := by
    rw [FlowManager.ends, List.getElem?_map, List.getElem?_eq_none (Nat.le_of_not_lt hge)]
    rfl
  rw [doneAt, hnone] at h
  exact Nat.lt_irrefl 0 h

theorem doneAt_congr (hends : l'.man.ends = l.man.ends)
    (hdone : ∀ e, l'.routines.filterMap (donePoint e) = l.routines.filterMap (donePoint e)) :
    l'.doneAt i = l.doneAt i := by
  simp only [doneAt, hends, hdone]

theorem doneAt_append (hcoh : Coherent l) {f : FlowT} (hnew : f.ends ∉ l.man.ends) (pc : ReadPc) :
    doneAt { l with man := l.man.append f, pc := pc } i = l.doneAt i := by
  simp only [doneAt, FlowManager.ends_append]
  rcases Nat.lt_trichotomy i l.man.ends.length with hlt | heq | hgt
  · rw [List.getElem?_append_left hlt]
  · -- nobody is there yet for the new flow
    have hnone : l.routines.filterMap (donePoint f.ends) = [] := by
      apply List.filterMap_eq_nil_iff.mpr
      intro r hr
      have hne : r.f.ends ≠ f.ends := fun heq => hnew (heq ▸ hcoh.member r hr)
      simp [donePoint, hne]
    rw [heq, List.getElem?_concat_length, List.getElem?_eq_none le_rfl, Option.elim_some, hnone]
    rfl
  · rw [List.getElem?_eq_none (by rw [List.length_append, List.length_singleton]; omega),
      List.getElem?_eq_none hgt.le]

theorem doneAt_step {acts : List ReadAction} (hreg : Registered os acts l) (hcoh : Coherent l)
    {b : ReadAction} (h : l.step os cv b = some l') (hunlock : ∀ j, b ≠ .unlock j) :
    l'.doneAt i = l.doneAt i := by
  cases moves_of_step h with
  | skip | line | panics | found | missing => rfl
  | append hpc => exact doneAt_append hcoh (hreg.missing _ _ hpc) _
  | go hpc =>
    refine doneAt_congr rfl fun e => ?_
    rw [List.filterMap_append, List.filterMap_cons_none (by simp [donePoint]), List.filterMap_nil,
      List.append_nil]
  | get hr hpc =>
    exact doneAt_congr rfl fun e => donePoints_setPc e hr (by simp [hpc]) (.inl (by simp))
  | lock hr hpc | stmt hr hpc =>
    exact doneAt_congr FlowManager.ends_modify fun e =>
      donePoints_setPc e hr (by simp [hpc]) (.inl (by simp))
  | unlock => exact absurd rfl (hunlock _)

theorem doneAt_unlock (hcoh : Coherent l) (hr : l.routines[j]? = some r)
    (hpc : r.pc = .writing v []) (h : l.step os cv (.unlock j) = some l') :
    l'.doneAt i = l.doneAt i + [v].count i := by
  cases moves_of_step h with
  | unlock hr' hpc' =>
    rw [hr] at hr'
    obtain rfl := Option.some.inj hr'
    rw [hpc] at hpc'
    obtain rfl : v = _ := by injection hpc'
    have hends := (hcoh.writing r (List.mem_of_getElem? hr) v [] hpc).1
    have hne : r.pc ≠ .done := by simp [hpc]
    simp only [doneAt, setPc, FlowManager.ends_modify]
    by_cases hiv : v = i
    · subst hiv
      have hperm := (donePoints_setPc_done hr hne).length_eq
      rw [List.length_append, List.length_singleton] at hperm
      rw [hends, Option.elim_some, Option.elim_some, List.count_singleton_self, ← hperm]
      rfl
    · rw [List.count_singleton, if_neg (by simpa using hiv), Nat.add_zero]
      cases hi : l.man.ends[i]? with
      | none => rfl
      | some e =>
        -- another flow has other ends
        have hother : r.f.ends ≠ e := by
          rintro rfl
          have hlt := (List.getElem?_eq_some_iff.mp hends).1
          exact hiv ((List.getElem?_inj hlt hcoh.unique).mp (hends.trans hi.symm))
        rw [Option.elim_some, Option.elim_some, ← donePoints_setPc e hr hne (.inr hother)]
        rfl

end ReadLoop

/-! ### What was sent, and what is still on its way -/

/-- The pointers to the columns of the flow at a place. -/
def pointersOf (v : ℕ) : FlowPointers ColumnPtr where
  flowId := Int32.ofNat (v + 1)
  load := ⟨v, .load⟩
  capacity := ⟨v, .capacity⟩
  delay := ⟨v, .delay⟩
  dropp := ⟨v, .dropp⟩
  ecn := ⟨v, .ecn⟩
  sojourn := ⟨v, .sojourn⟩

theorem PipeUI.Numbered.pointers {s : PipeUI} {n v : ℕ} (hids : PipeUI.Numbered n s) (hv : v < n) :
    s.pointers v = pointersOf v := by
  rw [PipeUI.pointers, hids.flowId v hv]
  rfl

namespace PlotUI

variable {p q : PlotUI ColumnPtr} {k : PlotKind} {i : ℕ}

/-- The updates of one kind for the flow at a place that were sent, or will be for what has been
received. -/
def handed (p : PlotUI ColumnPtr) (k : PlotKind) (i : ℕ) : ℕ :=
  (p.published k).countP (fun newData => newData.data.flow = i) +
    p.sends.countP (fun send => send.1 = k ∧ send.2.data.flow = i) +
    p.updateDataGraphs.countP fun flow => flow.load.flow = i

/-- All updates are those of a flow. -/
structure Labelled (p : PlotUI ColumnPtr) : Prop where
  waiting : ∀ flow ∈ p.updateDataGraphs, ∃ v, flow = pointersOf v
  sends : ∀ send ∈ p.sends, ∃ v, send ∈ (pointersOf v).updates
  published : ∀ k, ∀ newData ∈ p.published k, ∃ v, (k, newData) ∈ (pointersOf v).updates

/-- There is one update of each kind. -/
theorem countP_updates (v : ℕ) (k : PlotKind) (i : ℕ) :
    (pointersOf v).updates.countP (fun send => send.1 = k ∧ send.2.data.flow = i) =
      if v = i then 1 else 0 := by
  by_cases hv : v = i <;> cases k <;> simp [FlowPointers.updates, pointersOf, hv]

theorem Labelled.take (h : Labelled p) (hstep : p.step .take = some q) :
    Labelled q ∧ q.handed k i = p.handed k i := by
  obtain ⟨flow, rest, hsends, hflows, heq⟩ := take_cases hstep
  obtain ⟨v, rfl⟩ := h.waiting flow (by rw [hflows]; exact List.mem_cons_self)
  have hrest : ∀ flow ∈ rest, ∃ v, flow = pointersOf v := fun flow hflow =>
    h.waiting flow (by rw [hflows]; exact List.mem_cons_of_mem _ hflow)
  have hpublished : q.published = p.published := by
    rw [heq]
    split_ifs <;> rfl
  have hqsends : q.sends = (pointersOf v).updates := by rw [heq]
  have hqflows : q.updateDataGraphs = rest := by rw [heq]
  refine ⟨⟨?_, ?_, ?_⟩, ?_⟩
  · rwa [hqflows]
  · rw [hqsends]
    exact fun send hsend => ⟨v, hsend⟩
  · rw [hpublished]
    exact h.published
  · have hload : (pointersOf v).load.flow = v := rfl
    simp only [handed, hpublished, hqsends, hqflows, countP_updates, hsends, hflows,
      List.countP_cons, List.countP_nil, hload, decide_eq_true_eq]
    omega

theorem Labelled.publish (h : Labelled p) {j : ℕ} (hstep : p.step (.publish j) = some q) :
    Labelled q ∧ q.handed k i = p.handed k i := by
  obtain ⟨k', newData, sends, chart, hsends, -, -, rfl⟩ := publish_cases hstep
  obtain ⟨v, hv⟩ := h.sends (k', newData) (by rw [hsends]; exact List.mem_cons_self)
  refine ⟨⟨h.waiting, fun send hsend => h.sends send ?_, ?_⟩, ?_⟩
  · rw [hsends]
    exact List.mem_cons_of_mem _ hsend
  · intro k'' newData' hnew
    by_cases hk : k'' = k'
    · subst hk
      rw [receive_published_self, List.mem_append, List.mem_singleton] at hnew
      rcases hnew with hnew | rfl
      · exact h.published _ _ hnew
      · exact ⟨v, hv⟩
    · rw [receive_published_ne _ hk] at hnew
      exact h.published _ _ hnew
  · have hqsends : (p.receive k' newData sends j chart).sends = sends := rfl
    have hqflows : (p.receive k' newData sends j chart).updateDataGraphs = p.updateDataGraphs := rfl
    simp only [handed, hqsends, hqflows, hsends, List.countP_cons]
    by_cases hk : k = k'
    · subst hk
      rw [receive_published_self, List.countP_append, List.countP_singleton]
      simp only [decide_eq_true_eq, true_and]
      omega
    · rw [receive_published_ne _ hk, if_neg (by simp [Ne.symm hk])]
      omega

theorem Labelled.handle (h : Labelled p) {k' : PlotKind} {j : ℕ}
    (hstep : p.step (.handle k' j) = some q) : Labelled q ∧ q.handed k i = p.handed k i := by
  obtain ⟨chart, newData, -, -, rfl⟩ := handle_cases hstep
  exact ⟨⟨h.waiting, h.sends, h.published⟩, rfl⟩

end PlotUI

namespace PipeUI

variable {os : Os} {cv : F64 → Int64} {s t u : PipeUI}

/-- The flow that a message hands over. -/
def PipeMessage.handed : PipeMessage → List ℕ
  | .dataGraphs v => [v]
  | _ => []

/-- What was appended is what was sent or is on its way; `extra` is in nobody's hands. -/
structure AccountedWith (extra : List ℕ) (s : PipeUI) : Prop where
  labelled : s.plots.Labelled
  balance : ∀ k i, s.plots.handed k i + s.newData.count i + extra.count i = s.loop.doneAt i

/-- What was appended is what was sent or is on its way. -/
def Accounted (s : PipeUI) : Prop := AccountedWith [] s

theorem accounted_init : Accounted init where
  labelled := ⟨by simp [init], by simp [init], by simp [init]⟩
  balance k i := by simp [init, PlotUI.handed, ReadLoop.doneAt, ReadLoop.init, newFlowManager,
    FlowManager.ends]

theorem AccountedWith.of_eq {extra : List ℕ} (h : AccountedWith extra s)
    (hplots : t.plots = s.plots) (hnew : t.newData = s.newData) (hloop : t.loop = s.loop) :
    AccountedWith extra t := by
  refine ⟨hplots ▸ h.labelled, fun k i => ?_⟩
  rw [hplots, hnew, hloop]
  exact h.balance k i

theorem Accounted.send (h : Accounted s) {who : PipeSender} {msg : PipeMessage}
    (hs : Sends s who msg u) : AccountedWith (PipeMessage.handed msg) u := by
  cases hs with
  | @newData j v hj =>
    refine ⟨h.labelled, fun k i => ?_⟩
    have hlt := (List.getElem?_eq_some_iff.mp hj).1
    have hv : s.newData[j] = v := (List.getElem?_eq_some_iff.mp hj).2
    have hcount := (List.getElem_cons_eraseIdx_perm hlt).count_eq i
    have hbalance := h.balance k i
    rw [hv, List.count_cons] at hcount
    simp only [PipeMessage.handed, List.count_nil, List.count_singleton] at hbalance ⊢
    omega
  | _ => exact AccountedWith.of_eq h rfl rfl rfl

theorem AccountedWith.lt {v : ℕ} (h : AccountedWith [v] s) : v < s.flows.length := by
  have hbalance := h.balance .load v
  rw [List.count_singleton_self] at hbalance
  by_contra hge
  have hnone : s.loop.man.ends[v]? = none := by
    have hge' : s.loop.man.flows.length ≤ v := Nat.le_of_not_lt hge
    rw [FlowManager.ends, List.getElem?_map, List.getElem?_eq_none hge']
    rfl
  rw [ReadLoop.doneAt, hnone, Option.elim_none] at hbalance
  omega

theorem AccountedWith.receive {msg : PipeMessage} (h : AccountedWith (PipeMessage.handed msg) s)
    (hready : Ready s) (hids : Numbered s.flows.length s) (hr : Receives s msg t) :
    Accounted t := by
  cases hr with
  | @dataGraphs v hg =>
    have hqueue := hready.queue
    rw [hg] at hqueue
    have hnil : s.plots.updateDataGraphs = [] := List.map_eq_nil_iff.mp hqueue
    have hpointers := hids.pointers h.lt
    refine ⟨⟨?_, h.labelled.sends, h.labelled.published⟩, fun k i => ?_⟩
    · intro flow hflow
      rw [List.mem_singleton.mp hflow]
      exact ⟨v, hpointers⟩
    · have hload : (s.pointers v).load.flow = v := rfl
      have hbalance := h.balance k i
      simp only [PipeMessage.handed, PlotUI.handed, hnil, List.countP_nil, List.countP_singleton,
        List.count_singleton, List.count_nil, hload, beq_iff_eq, decide_eq_true_eq] at hbalance ⊢
      omega
  | @chart i plots hplots =>
    refine ⟨(h.labelled.publish (k := .load) (i := 0) hplots).1, fun k i => ?_⟩
    show plots.handed k i + _ + _ = _
    rw [(h.labelled.publish hplots).2]
    exact h.balance k i
  | _ => exact AccountedWith.of_eq h rfl rfl rfl

theorem Accounted.loop (h : Accounted s) {acts : List ReadAction}
    (hreg : ReadLoop.Registered os acts s.loop) (hcoh : s.loop.Coherent) {b : ReadAction}
    {loop : ReadLoop} (hunlock : ∀ j, b ≠ .unlock j) (hloop : s.loop.step os cv b = some loop) :
    Accounted { s with loop := loop } := by
  refine ⟨h.labelled, fun k i => ?_⟩
  show s.plots.handed k i + _ + _ = loop.doneAt i
  rw [ReadLoop.doneAt_step hreg hcoh hloop hunlock]
  exact h.balance k i

theorem Accounted.moves (h : Accounted s) {acts : List ReadAction}
    (hreg : ReadLoop.Registered os acts s.loop) (hs : Settled s)
    (hids : Numbered s.flows.length s) {a : PipeAction} (hm : Moves os cv s a t) :
    Accounted t := by
  cases hm with
  | loop _ _ hunlock _ hloop => exact h.loop hreg hs.coherent hunlock hloop
  | append hloop =>
    exact AccountedWith.of_eq (h.loop hreg hs.coherent (by simp) hloop) rfl rfl rfl
  | @unlock _ j v r loop hr hpc hloop =>
    refine ⟨h.labelled, fun k i => ?_⟩
    have hbalance := h.balance k i
    have hdone := ReadLoop.doneAt_unlock (i := i) hs.coherent hr hpc hloop
    rw [List.count_append]
    simp only at hbalance ⊢
    omega
  | take _ _ hplots =>
    refine ⟨(h.labelled.take (k := .load) (i := 0) hplots).1, fun k i => ?_⟩
    rw [(h.labelled.take hplots).2]
    exact h.balance k i
  | chart hplots =>
    refine ⟨(h.labelled.handle (k := .load) (i := 0) hplots).1, fun k i => ?_⟩
    rw [(h.labelled.handle hplots).2]
    exact h.balance k i
  | send hs' hr =>
    have hids' : Numbered _ _ := ⟨rfl, fun v hv => by
      rw [flowId, flows, hs'.loop]
      rw [flows, hs'.loop] at hv
      exact hids.flowId v hv⟩
    exact (h.send hs').receive (hs.ready.send hs') hids' hr
  | @layout _ lt | @timer _ lt =>
    obtain ⟨layout, heq⟩ := setLayout_eq s lt
    rw [heq]
    exact AccountedWith.of_eq h rfl rfl rfl
  | _ => exact AccountedWith.of_eq h rfl rfl rfl

theorem accounted_of_run {acts : List PipeAction} (h : run (step os cv) init acts = some s) :
    Accounted s := by
  refine trace_invariant_from (s := init) (I := fun _ s => Accounted s) ?_ accounted_init h
  intro as s a t hrun hs hstep
  obtain ⟨-, hm | ⟨e, -, rfl⟩ | ⟨e, -, rfl⟩⟩ := step_cases hstep
  · exact hs.moves (ReadLoop.invariants_of_run (loop_of_run hrun)).1 (settled_of_run hrun)
      (numbered_of_run hrun) hm
  · exact AccountedWith.of_eq hs rfl rfl rfl
  · exact ⟨hs.labelled, hs.balance⟩

/-! ### At rest -/

theorem flow_of_mem_updates {k : PlotKind} {newData : DisplayData ColumnPtr} {v : ℕ}
    (h : (k, newData) ∈ (pointersOf v).updates) : newData.data.flow = v := by
  simp only [FlowPointers.updates, List.mem_cons, Prod.mk.injEq, List.not_mem_nil, or_false] at h
  rcases h with ⟨-, rfl⟩ | ⟨-, rfl⟩ | ⟨-, rfl⟩ | ⟨-, rfl⟩ | ⟨-, rfl⟩ <;> rfl

theorem eq_of_mem_updates {flow : FlowPointers ColumnPtr} {k : PlotKind}
    {newData newData' : DisplayData ColumnPtr} (h : (k, newData) ∈ flow.updates)
    (h' : (k, newData') ∈ flow.updates) : newData = newData' := by
  cases k <;> simp [FlowPointers.updates] at h h' <;> rw [h, h']

/-- The updates that were sent to one kind of plot for one flow are all the same. -/
theorem filter_published {p : PlotUI ColumnPtr} (h : p.Labelled) {k : PlotKind} {i : ℕ}
    {newData : DisplayData ColumnPtr} (hnew : (k, newData) ∈ (pointersOf i).updates) :
    (p.published k).filter (fun newData => newData.data.flow = i) =
      List.replicate ((p.published k).countP fun newData => newData.data.flow = i) newData := by
  rw [List.eq_replicate_iff]
  refine ⟨List.countP_eq_length_filter.symm, fun newData' hmem => ?_⟩
  obtain ⟨hmem, hflow⟩ := List.mem_filter.mp hmem
  obtain ⟨v, hv⟩ := h.published k newData' hmem
  obtain rfl : v = i := (flow_of_mem_updates hv).symm.trans (of_decide_eq_true hflow)
  exact eq_of_mem_updates hv hnew

/-- What the plots have been sent for the flow `v` at place `i`. -/
structure Plotted (os : Os) (acts : List PipeAction) (s : PipeUI) (i : ℕ) (v : FlowT) : Prop where
  /-- The data points of the flow are those of its lines, -/
  data : ∃ ps, v.d.Holds ps ∧
    ps.Perm (ReadLoop.pointsOf v.ends (measurements os (readActions acts)))
  /-- and for each of them each kind of plot has been sent the update of the flow. -/
  updates : ∀ k newData, (k, newData) ∈ (s.pointers i).updates →
    (s.plots.published k).filter (fun newData => newData.data.flow = i) =
      List.replicate v.d.timeStamp.length newData

/-- Nothing is on its way. -/
theorem published_of_rest (haccounted : Accounted s) (hready : Ready s) (hrest : AtRest s)
    (k : PlotKind) (i : ℕ) :
    (s.plots.published k).countP (fun newData => newData.data.flow = i) = s.loop.doneAt i := by
  have hsends : s.plots.sends = [] := hready.sends_eq_nil (by rw [hrest.graphs]; simp)
  have hqueue := hready.queue
  rw [hrest.graphs] at hqueue
  have hwaiting : s.plots.updateDataGraphs = [] := List.map_eq_nil_iff.mp hqueue
  have hbalance := haccounted.balance k i
  rw [PlotUI.handed, hsends, hwaiting, hrest.newData] at hbalance
  simpa using hbalance

/-- **Whenever everything is at rest, each plot has been sent one update of its flow for each line
that was read, and nothing else, under every schedule.** -/
theorem updates_of_rest {acts : List PipeAction} (hrun : run (step os cv) init acts = some s)
    (hrest : AtRest s) :
    (∀ i v, s.flows[i]? = some v → Plotted os acts s i v) ∧
      ∀ k, ∀ newData ∈ s.plots.published k, ∃ i < s.flows.length,
        (k, newData) ∈ (s.pointers i).updates := by
  obtain ⟨hreg, hcoh⟩ := ReadLoop.invariants_of_run (loop_of_run hrun)
  have haccounted := accounted_of_run hrun
  have hids := numbered_of_run hrun
  have hpublished := published_of_rest haccounted (settled_of_run hrun).ready hrest
  refine ⟨fun i v hv => ?_, fun k newData hnew => ?_⟩
  · have hmem : v ∈ s.loop.man.flows := List.mem_of_getElem? hv
    obtain ⟨ps, hholds, hperm⟩ := hcoh.holds hmem (hcoh.mutex_of_done hrest.routines hmem)
    have hread : measurements os (readActions acts) = s.loop.started := by
      rw [hreg.read, hrest.reading]
      exact List.append_nil _
    refine ⟨⟨ps, hholds, ?_⟩, fun k newData hnew => ?_⟩
    · rwa [ReadLoop.donePoints_of_done hrest.routines, ← hread] at hperm
    · have hends : s.loop.man.ends[i]? = some v.ends := FlowManager.getElem?_ends hv
      rw [hids.pointers (List.getElem?_eq_some_iff.mp hv).1] at hnew
      rw [filter_published haccounted.labelled hnew, hpublished k i, ReadLoop.doneAt, hends,
        Option.elim_some, ← hperm.length_eq, hholds.timeStamp, List.length_map]
  · obtain ⟨i, hi⟩ := haccounted.labelled.published k newData hnew
    have hpos : 0 < s.loop.doneAt i := by
      rw [← hpublished k i, List.countP_pos_iff]
      exact ⟨newData, hnew, decide_eq_true (flow_of_mem_updates hi)⟩
    have hlt : i < s.flows.length := ReadLoop.lt_of_doneAt_pos hpos
    refine ⟨i, hlt, ?_⟩
    rwa [hids.pointers hlt]

/-- A line is read, and everything it gives rise to is done. -/
def oneLine : List PipeAction :=
  let moves : List PipeMove :=
    [.contains, .append, .send .handler 0, .handler, .list, .send .handler 0, .handler,
      .send .handler 0, .handler, .send .handler 0, .go, .get 0, .lock 0] ++
    List.replicate 9 (.stmt 0) ++ [.unlock 0, .send (.newData 0) 0, .graphs] ++
    List.replicate 5 (.send .graphs 0) ++
    [.graphs, .graphs, .redraw, .list, .details, .send .redraw 0, .redraw, .details,
      .chart .load 0, .chart .ecn 0, .chart .dropp 0, .chart .sojourn 0, .chart .delay 0]
  .line "1 2 3 4 5 6 7 a:1-b:2" :: moves.map fun m => .move m ⟨9, false, fun _ _ => .ok true⟩

theorem updates_of_rest_oneLine :
    ∃ s, run (step numbersOs fun _ => 0) init oneLine = some s ∧
      (∀ i v, s.flows[i]? = some v → Plotted numbersOs oneLine s i v) ∧
        ∀ k, ∀ newData ∈ s.plots.published k, ∃ i < s.flows.length,
          (k, newData) ∈ (s.pointers i).updates := by
  have hrest : (run (step numbersOs fun _ => 0) init oneLine).map (fun s => decide (AtRest s)) =
      some true := by decide +kernel
  obtain ⟨s, hs, hs'⟩ := Option.map_eq_some_iff.mp hrest
  exact ⟨s, hs, updates_of_rest hs (of_decide_eq_true hs')⟩

end PipeUI

end Jens
