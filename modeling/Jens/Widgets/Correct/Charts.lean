import Jens.Lib.Steps
import Jens.Widgets.Charts

/-!
# Which updates come to their chart

All charts of one kind receive from one channel, and each one drops the updates of other flows after
it has received them.  With the flows of a single id there is only one chart of each kind, and it
shows every update in order (`OneFlow`).  With a second id the chart of the first can receive an
update of the second (`exists_lost`).  So the updates reach their charts in every run exactly if all
flows have one id (`updatesReach_iff`).
-/

namespace Jens

namespace PlotUI

open Steps

variable {π : Type} {s t : PlotUI π} {f : Int32} {k : PlotKind}

/-- The state before the first flow. -/
def start (flows : List (FlowPointers π)) : PlotUI π := { updateDataGraphs := flows }

/-- **The updates reach their charts**: what a chart has shown, and will show of what it has
received, is what was published for its flow, and every flow with an update has a chart. -/
structure UpdatesReach (s : PlotUI π) : Prop where
  hasChart : ∀ k, ∀ newData ∈ s.published k, ∃ chart ∈ s.charts k, chart.flowId = newData.flowId
  shown : ∀ k, ∀ chart ∈ s.charts k,
    chart.series ++ chart.newData.toList.flatMap DisplayData.seriesCalls =
      ((s.published k).filter fun newData => newData.flowId = chart.flowId).flatMap
        DisplayData.seriesCalls

theorem flowId_of_mem_updates {flow : FlowPointers π} {send : PlotKind × DisplayData π}
    (h : send ∈ flow.updates) : send.2.flowId = flow.flowId := by
  simp only [FlowPointers.updates, List.mem_cons, List.not_mem_nil, or_false] at h
  rcases h with rfl | rfl | rfl | rfl | rfl <;> rfl

/-! ### The steps -/

theorem step_take {flow : FlowPointers π} {rest : List (FlowPointers π)} (hsends : s.sends = [])
    (hflows : s.updateDataGraphs = flow :: rest) :
    s.step .take = some { (if flow.flowId ∈ s.m then s else s.newDetWids flow.flowId) with
      updateDataGraphs := rest, sends := flow.updates } := by
  simp [step, hsends, hflows]

theorem step_publish {newData : DisplayData π} {sends : List (PlotKind × DisplayData π)} {i : ℕ}
    {chart : Chart π} (hsends : s.sends = (k, newData) :: sends)
    (hchart : (s.charts k)[i]? = some chart) (hidle : chart.newData = none) :
    s.step (.publish i) = some (s.receive k newData sends i chart) := by
  simp [step, hsends, hchart, hidle]

theorem step_handle {newData : DisplayData π} {i : ℕ} {chart : Chart π}
    (hchart : (s.charts k)[i]? = some chart) (hnew : chart.newData = some newData) :
    s.step (.handle k i) = some (s.setChart k i (chart.handle newData)) := by
  simp [step, hchart, hnew]

/-- What a step can be. -/
theorem step_cases {a : PlotAction} (h : s.step a = some t) :
    (∃ flow rest, s.sends = [] ∧ s.updateDataGraphs = flow :: rest ∧
      t = { (if flow.flowId ∈ s.m then s else s.newDetWids flow.flowId) with
        updateDataGraphs := rest, sends := flow.updates }) ∨
    (∃ k newData sends i chart, s.sends = (k, newData) :: sends ∧
      (s.charts k)[i]? = some chart ∧ chart.newData = none ∧
      t = s.receive k newData sends i chart) ∨
    (∃ k newData i chart, (s.charts k)[i]? = some chart ∧ chart.newData = some newData ∧
      t = s.setChart k i (chart.handle newData)) := by
  cases a with
  | take =>
    cases hsends : s.sends with
    | cons send sends => simp [step, hsends] at h
    | nil =>
      cases hflows : s.updateDataGraphs with
      | nil => simp [step, hsends, hflows] at h
      | cons flow rest =>
        rw [step_take hsends hflows] at h
        exact .inl ⟨flow, rest, rfl, rfl, (Option.some.inj h).symm⟩
  | publish i =>
    cases hsends : s.sends with
    | nil => simp [step, hsends] at h
    | cons send sends =>
      obtain ⟨k, newData⟩ := send
      cases hchart : (s.charts k)[i]? with
      | none => simp [step, hsends, hchart] at h
      | some chart =>
        cases hidle : chart.newData with
        | some held => simp [step, hsends, hchart, hidle] at h
        | none =>
          rw [step_publish hsends hchart hidle] at h
          exact .inr (.inl ⟨k, newData, sends, i, chart, rfl, hchart, hidle,
            (Option.some.inj h).symm⟩)
  | handle k i =>
    cases hchart : (s.charts k)[i]? with
    | none => simp [step, hchart] at h
    | some chart =>
      cases hnew : chart.newData with
      | none => simp [step, hchart, hnew] at h
      | some newData =>
        rw [step_handle hchart hnew] at h
        exact .inr (.inr ⟨k, newData, i, chart, hchart, hnew, (Option.some.inj h).symm⟩)

/-! ### One flow -/

/-- The chart of a flow that has nothing else: it shows all that was published. -/
structure ShowsAll (f : Int32) (published : List (DisplayData π)) (chart : Chart π) : Prop where
  flowId : chart.flowId = f
  newData : ∀ newData ∈ chart.newData, newData.flowId = f
  shown : chart.series ++ chart.newData.toList.flatMap DisplayData.seriesCalls =
    published.flatMap DisplayData.seriesCalls

theorem ShowsAll.receive {published : List (DisplayData π)} {chart : Chart π}
    (h : ShowsAll f published chart) (hidle : chart.newData = none) {newData : DisplayData π}
    (hnew : newData.flowId = f) :
    ShowsAll f (published ++ [newData]) { chart with newData := some newData } := by
  have hshown := h.shown
  rw [hidle] at hshown
  refine ⟨h.flowId, by simpa using hnew, ?_⟩
  simpa using hshown

theorem ShowsAll.handle {published : List (DisplayData π)} {chart : Chart π}
    (h : ShowsAll f published chart) {newData : DisplayData π}
    (hnew : chart.newData = some newData) :
    ShowsAll f published (chart.handle newData) := by
  have hid : newData.flowId = chart.flowId := by
    rw [h.flowId]
    exact h.newData newData hnew
  have hshown := h.shown
  rw [hnew] at hshown
  rw [Chart.handle, if_pos (.inr hid)]
  exact ⟨h.flowId, by simp, by simpa using hshown⟩

/-- The states of a run whose flows all have the id `f`: no chart yet, or one of each kind. -/
structure OneFlow (f : Int32) (s : PlotUI π) : Prop where
  flows : ∀ flow ∈ s.updateDataGraphs, flow.flowId = f
  sends : ∀ send ∈ s.sends, send.2.flowId = f
  published : ∀ k, ∀ newData ∈ s.published k, newData.flowId = f
  charts : (s.m = [] ∧ s.sends = [] ∧ ∀ k, s.charts k = [] ∧ s.published k = []) ∨
    (s.m = [f] ∧ ∀ k, ∃ chart, s.charts k = [chart] ∧ ShowsAll f (s.published k) chart)

theorem OneFlow.updatesReach (h : OneFlow f s) : UpdatesReach s := by
  rcases h.charts with ⟨-, -, hnone⟩ | ⟨-, hone⟩
  · refine ⟨fun k newData hmem => ?_, fun k chart hmem => ?_⟩
    · simp [(hnone k).2] at hmem
    · simp [(hnone k).1] at hmem
  · refine ⟨fun k newData hmem => ?_, fun k chart hmem => ?_⟩
    · obtain ⟨chart, hcharts, hall⟩ := hone k
      refine ⟨chart, by simp [hcharts], ?_⟩
      rw [hall.flowId, h.published k newData hmem]
    · obtain ⟨chart', hcharts, hall⟩ := hone k
      rw [hcharts, List.mem_singleton] at hmem
      subst hmem
      have hfilter : (s.published k).filter (fun newData => newData.flowId = chart.flowId) =
          s.published k := by
        rw [List.filter_eq_self]
        intro newData hnew
        rw [hall.flowId, h.published k newData hnew, decide_eq_true rfl]
      rw [hfilter]
      exact hall.shown

theorem setChart_charts_self (s : PlotUI π) (k : PlotKind) (i : ℕ) (chart : Chart π) :
    (s.setChart k i chart).charts k = (s.charts k).set i chart := by
  simp [setChart]

theorem setChart_charts_ne (s : PlotUI π) {k k' : PlotKind} (h : k' ≠ k) (i : ℕ) (chart : Chart π) :
    (s.setChart k i chart).charts k' = s.charts k' := by
  simp [setChart, h]

theorem receive_published_self (s : PlotUI π) (k : PlotKind) (newData : DisplayData π)
    (sends : List (PlotKind × DisplayData π)) (i : ℕ) (chart : Chart π) :
    (s.receive k newData sends i chart).published k = s.published k ++ [newData] :=
  Function.update_self ..

theorem receive_published_ne (s : PlotUI π) {k k' : PlotKind} (h : k' ≠ k)
    (newData : DisplayData π) (sends : List (PlotKind × DisplayData π)) (i : ℕ) (chart : Chart π) :
    (s.receive k newData sends i chart).published k' = s.published k' :=
  Function.update_of_ne h ..

/-- The only chart of a kind changes to one that shows all. -/
theorem setChart_showsAll {i : ℕ} {chart chart' : Chart π}
    {published : PlotKind → List (DisplayData π)}
    (hone : ∀ k, ∃ chart, s.charts k = [chart] ∧ ShowsAll f (s.published k) chart)
    (hchart : (s.charts k)[i]? = some chart)
    (hother : ∀ k', k' ≠ k → published k' = s.published k')
    (hall : ShowsAll f (s.published k) chart → ShowsAll f (published k) chart') :
    ∀ k', ∃ chart, (s.setChart k i chart').charts k' = [chart] ∧
      ShowsAll f (published k') chart := by
  intro k'
  by_cases hk : k' = k
  · subst hk
    obtain ⟨only, hcharts, honly⟩ := hone k'
    rw [hcharts, List.getElem?_singleton] at hchart
    split_ifs at hchart with hi
    obtain rfl := Option.some.inj hchart
    refine ⟨chart', ?_, hall honly⟩
    rw [setChart_charts_self, hcharts, hi, List.set_cons_zero]
  · obtain ⟨only, hcharts, honly⟩ := hone k'
    refine ⟨only, ?_, by rwa [hother k' hk]⟩
    rw [setChart_charts_ne s hk, hcharts]

theorem OneFlow.step {a : PlotAction} (h : OneFlow f s) (hstep : s.step a = some t) :
    OneFlow f t := by
  rcases step_cases hstep with ⟨flow, rest, hsends, hflows, rfl⟩ |
    ⟨k, newData, sends, i, chart, hsends, hchart, hidle, rfl⟩ |
    ⟨k, newData, i, chart, hchart, hnew, rfl⟩
  · have hid : flow.flowId = f := h.flows flow (by simp [hflows])
    have hrest : ∀ flow ∈ rest, flow.flowId = f := fun flow hmem =>
      h.flows flow (by rw [hflows]; exact .tail _ hmem)
    have hupdates : ∀ send ∈ flow.updates, send.2.flowId = f := fun send hmem => by
      rw [flowId_of_mem_updates hmem, hid]
    rcases h.charts with ⟨hm, -, hnone⟩ | ⟨hm, hone⟩
    · rw [hm, if_neg (List.not_mem_nil), hid]
      refine ⟨hrest, hupdates, h.published, .inr ⟨by simp [newDetWids, hm], fun k => ?_⟩⟩
      refine ⟨{ flowId := f }, by simp [newDetWids, (hnone k).1], rfl, by simp, ?_⟩
      simp [newDetWids, (hnone k).2]
    · rw [hm, hid, if_pos (List.mem_singleton_self f)]
      exact ⟨hrest, hupdates, h.published, .inr ⟨hm, hone⟩⟩
  · have hid : newData.flowId = f := h.sends (k, newData) (by simp [hsends])
    rcases h.charts with ⟨-, hnil, -⟩ | ⟨hm, hone⟩
    · rw [hnil] at hsends
      cases hsends
    · have hother : ∀ k', k' ≠ k →
          (s.receive k newData sends i chart).published k' = s.published k' :=
        fun k' hk => receive_published_ne s hk newData sends i chart
      refine ⟨h.flows, fun send hmem => h.sends send (by rw [hsends]; exact .tail _ hmem),
        fun k' u hu => ?_, .inr ⟨hm, setChart_showsAll hone hchart hother fun hall => ?_⟩⟩
      · by_cases hk : k' = k
        · subst hk
          rw [receive_published_self, List.mem_append, List.mem_singleton] at hu
          rcases hu with hu | rfl
          · exact h.published k' u hu
          · exact hid
        · rw [hother k' hk] at hu
          exact h.published k' u hu
      · rw [receive_published_self]
        exact hall.receive hidle hid
  · refine ⟨h.flows, h.sends, h.published, ?_⟩
    rcases h.charts with ⟨-, -, hnone⟩ | ⟨hm, hone⟩
    · rw [(hnone k).1] at hchart
      cases hchart
    · exact .inr ⟨hm, setChart_showsAll hone hchart (fun _ _ => rfl) fun hall => hall.handle hnew⟩

theorem OneFlow.start {flows : List (FlowPointers π)} (h : ∀ flow ∈ flows, flow.flowId = f) :
    OneFlow f (start flows) :=
  ⟨h, by simp [PlotUI.start], by simp [PlotUI.start], .inl ⟨rfl, rfl, fun _ => ⟨rfl, rfl⟩⟩⟩

/-! ### A second flow -/

/-- All charts are those of the flow `f`, one of each kind, and they have nothing to work off. -/
structure Idle (f : Int32) (s : PlotUI π) : Prop where
  m : s.m = [f]
  charts : ∀ k, ∃ chart, s.charts k = [chart] ∧ chart.newData = none

/-- An update is sent and worked off. -/
theorem Idle.exchange (h : Idle f s) {newData : DisplayData π}
    {sends : List (PlotKind × DisplayData π)} (hsends : s.sends = (k, newData) :: sends) :
    ∃ t, run PlotUI.step s [.publish 0, .handle k 0] = some t ∧ Idle f t ∧ t.sends = sends ∧
      t.updateDataGraphs = s.updateDataGraphs := by
  obtain ⟨chart, hcharts, hidle⟩ := h.charts k
  have hpublish := step_publish hsends (i := 0) (by rw [hcharts]; rfl) hidle
  set u := s.receive k newData sends 0 chart with hu
  have hself : u.charts k = [{ chart with newData := some newData }] := by
    rw [hu, receive, setChart_charts_self, hcharts, List.set_cons_zero]
  have hhandle := step_handle (s := u) (i := 0) (by rw [hself]; rfl) rfl
  refine ⟨u.setChart k 0 (Chart.handle { chart with newData := some newData } newData), ?_,
    ⟨h.m, fun k' => ?_⟩, rfl, rfl⟩
  · rw [run_cons, hpublish, Option.bind_some, run_cons, hhandle]
    rfl
  · by_cases hk : k' = k
    · subst hk
      refine ⟨Chart.handle { chart with newData := some newData } newData, ?_, ?_⟩
      · rw [setChart_charts_self, hself, List.set_cons_zero]
      · unfold Chart.handle
        split_ifs <;> rfl
    · obtain ⟨other, hother, hnone⟩ := h.charts k'
      refine ⟨other, ?_, hnone⟩
      rw [setChart_charts_ne u hk, hu, receive, setChart_charts_ne s hk, hother]

/-- All updates of a flow are sent and worked off. -/
theorem Idle.drain (h : Idle f s) : ∃ as t, run PlotUI.step s as = some t ∧ Idle f t ∧
    t.sends = [] ∧ t.updateDataGraphs = s.updateDataGraphs := by
  generalize hsends : s.sends = sends
  induction sends generalizing s with
  | nil => exact ⟨[], s, rfl, h, hsends, rfl⟩
  | cons send sends ih =>
    obtain ⟨u, hrun, hidle, husends, hflows⟩ := h.exchange hsends
    obtain ⟨as, t, hrun', ht, htsends, htflows⟩ := ih hidle husends
    refine ⟨_, t, run_append_eq_some.mpr ⟨u, hrun, hrun'⟩, ht, htsends, ?_⟩
    rw [htflows, hflows]

/-- A further flow of the id is plotted. -/
theorem Idle.next (h : Idle f s) {flow : FlowPointers π} {rest : List (FlowPointers π)}
    (hsends : s.sends = []) (hflows : s.updateDataGraphs = flow :: rest) (hid : flow.flowId = f) :
    ∃ as t, run PlotUI.step s as = some t ∧ Idle f t ∧ t.sends = [] ∧
      t.updateDataGraphs = rest := by
  have htake := step_take hsends hflows
  rw [h.m, hid, if_pos (List.mem_singleton_self f)] at htake
  have htaken : Idle f { s with updateDataGraphs := rest, sends := flow.updates } :=
    ⟨h.m, h.charts⟩
  obtain ⟨as, t, hrun, ht, htsends, htflows⟩ := htaken.drain
  refine ⟨.take :: as, t, ?_, ht, htsends, htflows⟩
  rw [run_cons, htake]
  exact hrun

/-- **The chart of the first flow receives an update of another flow.** -/
theorem Idle.lost (h : Idle f s) {flow : FlowPointers π} {rest : List (FlowPointers π)}
    (hsends : s.sends = []) (hflows : s.updateDataGraphs = flow :: rest) (hid : flow.flowId ≠ f) :
    ∃ as t, run PlotUI.step s as = some t ∧ ¬ t.UpdatesReach := by
  obtain ⟨first, hcharts, hidle⟩ := h.charts .load
  have htake := step_take hsends hflows
  have hnew : flow.flowId ∉ s.m := by
    rw [h.m, List.mem_singleton]
    exact hid
  rw [if_neg hnew] at htake
  set u : PlotUI π := { s.newDetWids flow.flowId with
    updateDataGraphs := rest, sends := flow.updates } with hu
  have hload : u.charts .load = [first, { flowId := flow.flowId }] := by
    rw [hu]
    simp [newDetWids, hcharts]
  have hpublish := step_publish (s := u) (i := 0) rfl (by rw [hload]; rfl) hidle
  have htaken : run PlotUI.step s [.take] = some u := run_cons_eq_some.mpr ⟨u, htake, run_nil u⟩
  have hrun := run_concat htaken hpublish
  refine ⟨_, _, hrun, fun hreach => ?_⟩
  have hshown := hreach.shown .load { flowId := flow.flowId } (by
    rw [receive, setChart_charts_self, hload]
    simp)
  rw [receive_published_self, List.filter_append, List.flatMap_append] at hshown
  have hnil := List.append_eq_nil_iff.mp hshown.symm
  simp [DisplayData.seriesCalls] at hnil

/-- Sooner or later another flow comes. -/
theorem Idle.exists_lost (h : Idle f s) (hsends : s.sends = [])
    (hother : ∃ flow ∈ s.updateDataGraphs, flow.flowId ≠ f) :
    ∃ as t, run PlotUI.step s as = some t ∧ ¬ t.UpdatesReach := by
  generalize hflows : s.updateDataGraphs = flows at hother
  induction flows generalizing s with
  | nil => simp at hother
  | cons flow rest ih =>
    by_cases hid : flow.flowId = f
    · obtain ⟨as, u, hrun, hu, husends, huflows⟩ := h.next hsends hflows hid
      have hrest : ∃ flow ∈ rest, flow.flowId ≠ f := by simpa [hid] using hother
      obtain ⟨bs, t, hrun', ht⟩ := ih hu husends huflows hrest
      exact ⟨as ++ bs, t, run_append_eq_some.mpr ⟨u, hrun, hrun'⟩, ht⟩
    · exact h.lost hsends hflows hid

/-- The charts of the first flow. -/
theorem exists_idle_start (flow : FlowPointers π) (rest : List (FlowPointers π)) :
    ∃ as t, run PlotUI.step (start (flow :: rest)) as = some t ∧ Idle flow.flowId t ∧
      t.sends = [] ∧ t.updateDataGraphs = rest := by
  have htake := step_take (s := start (flow :: rest)) rfl rfl
  rw [if_neg (by simp [start])] at htake
  have htaken : Idle flow.flowId { (start (flow :: rest)).newDetWids flow.flowId with
      updateDataGraphs := rest, sends := flow.updates } :=
    ⟨rfl, fun k => ⟨{ flowId := flow.flowId }, rfl, rfl⟩⟩
  obtain ⟨as, t, hrun, ht, htsends, htflows⟩ := htaken.drain
  refine ⟨.take :: as, t, ?_, ht, htsends, htflows⟩
  rw [run_cons, htake]
  exact hrun

/-- A flow of another id than the first one can lose its update. -/
theorem exists_lost (flow : FlowPointers π) {rest : List (FlowPointers π)}
    (hother : ∃ other ∈ rest, other.flowId ≠ flow.flowId) :
    ∃ as t, run PlotUI.step (start (flow :: rest)) as = some t ∧ ¬ t.UpdatesReach := by
  obtain ⟨as, s, hrun, hs, hsends, hflows⟩ := exists_idle_start flow rest
  obtain ⟨bs, t, hrun', ht⟩ := hs.exists_lost hsends (by rwa [hflows])
  exact ⟨as ++ bs, t, run_append_eq_some.mpr ⟨s, hrun, hrun'⟩, ht⟩

/-- **All updates reach their charts, whoever receives them, exactly if all flows have one id.** -/
theorem updatesReach_iff (flows : List (FlowPointers π)) :
    (∀ as s, run PlotUI.step (start flows) as = some s → s.UpdatesReach) ↔
      ∀ a ∈ flows, ∀ b ∈ flows, a.flowId = b.flowId := by
  constructor
  · intro hreach
    cases flows with
    | nil => simp
    | cons flow rest =>
      have hone : ∀ other ∈ rest, other.flowId = flow.flowId := by
        by_contra hother
        push Not at hother
        obtain ⟨as, t, hrun, ht⟩ := exists_lost flow hother
        exact ht (hreach as t hrun)
      have hall : ∀ a ∈ flow :: rest, a.flowId = flow.flowId := by simpa using hone
      intro a ha b hb
      rw [hall a ha, hall b hb]
  · intro hone as s hrun
    cases flows with
    | nil =>
      have hstart : OneFlow 0 (start ([] : List (FlowPointers π))) := OneFlow.start (by simp)
      exact (run_invariant (fun _ _ _ h hstep => h.step hstep) hstart hrun).updatesReach
    | cons flow rest =>
      have hstart : OneFlow flow.flowId (start (flow :: rest)) :=
        OneFlow.start fun a ha => hone a ha flow List.mem_cons_self
      exact (run_invariant (fun _ _ _ h hstep => h.step hstep) hstart hrun).updatesReach

/-- **Two flows.**  The load chart of flow 1 receives an update of flow 2 and drops it; that of flow
2 shows nothing. -/
theorem load_received_by_other_chart :
    (run PlotUI.step (start [⟨1, 10, 11, 12, 13, 14, 15⟩, ⟨2, 20, 21, 22, 23, 24, 25⟩])
      [.take, .publish 0, .handle .load 0, .publish 0, .handle .delay 0, .publish 0,
        .handle .dropp 0, .publish 0, .handle .ecn 0, .publish 0, .handle .sojourn 0,
        .take, .publish 0, .handle .load 0]).map (fun s => s.charts .load) =
      some [⟨1, none, [⟨"1", 10, 1⟩, ⟨"Linkcapacity", 11, 15⟩]⟩, ⟨2, none, []⟩] ∧
    ¬ ∀ as s, run PlotUI.step
      (start [⟨1, 10, 11, 12, 13, 14, 15⟩, ⟨2, 20, 21, 22, 23, 24, 25⟩]) as = some s →
        s.UpdatesReach := by
  refine ⟨by decide, fun hreach => ?_⟩
  have hother : ∃ other ∈ [(⟨2, 20, 21, 22, 23, 24, 25⟩ : FlowPointers ℕ)], other.flowId ≠ 1 :=
    ⟨_, List.mem_singleton_self _, by decide⟩
  obtain ⟨as, t, hrun, ht⟩ := exists_lost ⟨1, 10, 11, 12, 13, 14, 15⟩ hother
  exact ht (hreach as t hrun)

end PlotUI

end Jens
