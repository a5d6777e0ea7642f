import Jens.Modes.Correct.Settles
import Jens.Modes.Correct.Updates

/-!
# The layout follows the selection

When everything is at rest each flow has its charts (`mem_m_of_rest`), and only the timer can give
rise to anything (`Quiet.timer_of_moves`).  So the next time it has come to rest after the timer,
the layout is that of the selected flow (`layout_after_tick`), whatever was drawn before.
-/

namespace Jens

open Steps

namespace PlotUI

variable {π : Type} {p q : PlotUI π}

/-- What was sent is for flows that have charts. -/
structure Served (p : PlotUI π) : Prop where
  sends : ∀ send ∈ p.sends, send.2.flowId ∈ p.m
  published : ∀ k, ∀ newData ∈ p.published k, newData.flowId ∈ p.m

theorem Served.take (h : Served p) (hstep : p.step .take = some q) : Served q := by
  have hkeep : ∀ {flowId}, flowId ∈ p.m → flowId ∈ q.m := m_take hstep
  obtain ⟨flow, rest, -, -, heq⟩ := take_cases hstep
  have hm : flow.flowId ∈ q.m := by
    rw [heq]
    split_ifs with hm
    · exact hm
    · exact List.mem_append_right _ (List.mem_singleton_self _)
  have hsends : q.sends = flow.updates := by rw [heq]
  have hpublished : q.published = p.published := by
    rw [heq]
    split_ifs <;> rfl
  refine ⟨fun send hsend => ?_, fun k newData hnew => hkeep (h.published k newData ?_)⟩
  · rw [hsends] at hsend
    rwa [flowId_of_mem_updates hsend]
  · rwa [← hpublished]

theorem Served.publish (h : Served p) {i : ℕ} (hstep : p.step (.publish i) = some q) :
    Served q := by
  obtain ⟨k, newData, sends, chart, hsends, -, -, rfl⟩ := publish_cases hstep
  refine ⟨fun send hsend => h.sends send ?_, fun k' newData' hnew => ?_⟩
  · rw [hsends]
    exact List.mem_cons_of_mem _ hsend
  · by_cases hk : k' = k
    · subst hk
      rw [receive_published_self, List.mem_append, List.mem_singleton] at hnew
      rcases hnew with hnew | rfl
      · exact h.published _ _ hnew
      · exact h.sends (k', newData') (by rw [hsends]; exact List.mem_cons_self)
    · rw [receive_published_ne _ hk] at hnew
      exact h.published _ _ hnew

theorem Served.handle (h : Served p) {k : PlotKind} {i : ℕ}
    (hstep : p.step (.handle k i) = some q) : Served q := by
  obtain ⟨chart, newData, -, -, rfl⟩ := handle_cases hstep
  exact ⟨h.sends, h.published⟩

end PlotUI

namespace PipeUI

variable {os : Os} {cv : F64 → Int64} {s t u : PipeUI}

/-! ### Each flow has its charts -/

theorem Sends.plots {who : PipeSender} {msg : PipeMessage} (h : Sends s who msg u) :
    u.plots = s.plots := by
  cases h <;> rfl

theorem served_of_moves (h : s.plots.Served) {a : PipeAction} (hm : Moves os cv s a t) :
    t.plots.Served := by
  cases hm with
  | take _ _ hplots => exact h.take hplots
  | chart hplots => exact h.handle hplots
  | @layout _ lt | @timer _ lt =>
    obtain ⟨layout, heq⟩ := setLayout_eq s lt
    rw [heq]
    exact h
  | send hs hr =>
    rw [← hs.plots] at h
    cases hr with
    | chart hplots => exact h.publish hplots
    | dataGraphs => exact ⟨h.sends, h.published⟩
    | _ => exact h
  | _ => exact h

theorem served_of_run {acts : List PipeAction} (h : run (step os cv) init acts = some s) :
    s.plots.Served := by
  refine run_invariant (s := init) (I := fun s => s.plots.Served) ?_ ?_ h
  · intro s a t hs hstep
    obtain ⟨-, hm | ⟨e, -, rfl⟩ | ⟨e, -, rfl⟩⟩ := step_cases hstep
    · exact served_of_moves hs hm
    · exact hs
    · exact hs
  · exact ⟨by simp [init], by simp [init]⟩

/-- Each flow has a line, hence an update, hence charts. -/
theorem mem_m_of_rest {acts : List PipeAction} (h : run (step os cv) init acts = some s)
    (hrest : AtRest s) {i : ℕ} (hi : i < s.flows.length) : s.flowId i ∈ s.plots.m := by
  have hreg := (ReadLoop.invariants_of_run (loop_of_run h)).1
  have hids := numbered_of_run h
  have hget : s.loop.man.flows[i]? = some s.flows[i] := List.getElem?_eq_getElem hi
  have hends := FlowManager.getElem?_ends hget
  -- the goroutine of one of its lines is done
  have hdone : 0 < s.loop.doneAt i := by
    have hmem : (s.flows[i]).ends ∈ s.loop.man.ends := List.mem_of_getElem? hends
    rw [hreg.ends, hrest.reading, ReadLoop.foundAt, List.append_nil, ReadLoop.mem_firstEnds] at hmem
    obtain ⟨q, hq, heq⟩ := hmem
    obtain ⟨r, hr, rfl⟩ := List.mem_map.mp hq
    rw [ReadLoop.doneAt, hends, Option.elim_some]
    refine List.length_pos_of_mem (List.mem_filterMap.mpr ⟨r, hr, ?_⟩) (a := r.x)
    exact if_pos ⟨hrest.routines r hr, heq⟩
  rw [← published_of_rest (accounted_of_run h) (settled_of_run h).ready hrest .load i,
    List.countP_pos_iff] at hdone
  obtain ⟨newData, hnew, hflow⟩ := hdone
  obtain ⟨v, hv⟩ := (accounted_of_run h).labelled.published .load newData hnew
  obtain rfl : v = i := (flow_of_mem_updates hv).symm.trans (of_decide_eq_true hflow)
  have hid : newData.flowId = s.flowId v :=
    (PlotUI.flowId_of_mem_updates hv).trans (hids.flowId v hi).symm
  rw [← hid]
  exact (served_of_run h).published .load newData hnew

/-! ### Nothing goes on at rest -/

/-- The read loop waits for a line, and its goroutines are done. -/
theorem Quiet.loop (h : Quiet s) {b : ReadAction} {loop : ReadLoop}
    (hline : ∀ line, b ≠ .line line) : s.loop.step os cv b ≠ some loop := by
  intro hloop
  have hreading := h.reading
  cases ReadLoop.moves_of_step hloop with
  | skip | line | panics => exact hline _ rfl
  | found hpc | missing hpc | append hpc | go hpc =>
    rw [hreading] at hpc
    cases hpc
  | get hr hpc | lock hr hpc | stmt hr hpc | unlock hr hpc =>
    rw [h.routines _ (List.mem_of_getElem? hr)] at hpc
    cases hpc

theorem Quiet.handler_ne (h : Quiet s) {pc : HandlerPc} (hpc : pc ≠ .returned) :
    s.handler ≠ some pc := by
  rcases h.handler with hh | hh <;> rw [hh]
  · simp
  · simpa using hpc.symm

theorem Quiet.not_sends (h : Quiet s) {who : PipeSender} {msg : PipeMessage} :
    ¬ Sends s who msg u := by
  intro hs
  cases hs with
  | newFlow hh | handlerList hh | handlerDetails hh | handlerRedraw hh | onEndOfDrpplayer hh =>
    exact h.handler_ne (by simp) hh
  | newData hj =>
    rw [h.newData] at hj
    cases hj
  | chart hg =>
    rw [h.graphs] at hg
    cases hg
  | refreshBoth hj | refreshList hj | refreshDetails hj =>
    rw [h.refreshes] at hj
    cases hj
  | redrawDetails hr =>
    rw [h.redraw] at hr
    cases hr
  | keyboardList hk | keyboardDetails hk | keyboardRedraw hk =>
    rw [h.keyboard] at hk
    cases hk

/-- Apart from the timer, nothing can go on. -/
theorem Quiet.timer_of_moves (h : Quiet s) {m : PipeMove} {ans : Answers}
    (hm : Moves os cv s (.move m ans) t) :
    ∃ lt, s.timer = some lt ∧ t = { s.setLayout lt with timer := none } := by
  cases hm with
  | timer ht => exact ⟨_, ht, rfl⟩
  | loop ha _ _ _ hloop =>
    refine absurd hloop (h.loop ?_)
    rintro line rfl
    cases m <;> cases ha
  | append hloop | unlock _ _ hloop => exact absurd hloop (h.loop (by simp))
  | notFirst hh | first hh | handlerSelected hh | onFirstFlowAdded hh =>
    exact absurd hh (h.handler_ne (by simp))
  | take hg | release hg | due hg | notDue hg =>
    rw [h.graphs] at hg
    cases hg
  | refresh hj | noRefresh hj =>
    rw [h.refreshes] at hj
    cases hj
  | redraw hr | layout hr =>
    rw [h.redraw] at hr
    cases hr
  | stays hk | selects hk | keyboardSelected hk | unlocking hk | after hk | noAfter hk =>
    rw [h.keyboard] at hk
    cases hk
  | list hl =>
    rw [h.list] at hl
    cases hl
  | details hd =>
    rw [h.details] at hd
    cases hd
  | text ht =>
    rw [h.text] at ht
    cases ht
  | chart hplots =>
    obtain ⟨chart, newData, hchart, hnew, -⟩ := PlotUI.handle_cases hplots
    rw [h.charts _ chart (List.mem_of_getElem? hchart)] at hnew
    cases hnew
  | send hs => exact absurd hs h.not_sends

theorem Quiet.not_fails (h : Quiet s) {n : ℕ} (hvalid : Valid n s) (hids : Numbered n s)
    {m : PipeMove} {ans : Answers} {e : Failure} : ¬ Fails s (.move m ans) e := by
  intro hf
  cases hf with
  | getSelected _ herr =>
    rcases hvalid.getSelectedFlow hids with ⟨-, hsel⟩ | ⟨v, -, -, hsel⟩ <;> rw [hsel] at herr <;>
      cases herr
  | first hh | onFirstFlowAdded hh => exact h.handler_ne (by simp) hh
  | redraw hr =>
    rw [h.redraw] at hr
    cases hr
  | navigate hk =>
    rw [h.keyboard] at hk
    cases hk
  | details hd =>
    rw [h.details] at hd
    cases hd

/-- A move of a quiet state is the timer's. -/
theorem Quiet.of_step (h : Quiet s) {n : ℕ} (hvalid : Valid n s) (hids : Numbered n s)
    {b : PipeAction} (hb : IsMove b) (hstep : s.step os cv b = some t) :
    ∃ lt, s.timer = some lt ∧ t = { s.setLayout lt with timer := none } := by
  obtain ⟨m, ans, rfl⟩ := hb
  obtain ⟨-, hm | ⟨e, hf, -⟩ | ⟨e, ⟨line, heq, -⟩, -⟩⟩ := step_cases hstep
  · exact h.timer_of_moves hm
  · exact absurd hf (h.not_fails hvalid hids)
  · cases heq

/-- The timer has got the selected flow. -/
theorem tick_of_rest {v : ℕ} (hsel : s.getSelectedFlow = .ok (some v))
    (hstep : s.step os cv .tick = some t) : t = { s with timer := some (s.flowId v) } := by
  obtain ⟨-, hm | ⟨e, hf, -⟩ | ⟨e, ⟨line, heq, -⟩, -⟩⟩ := step_cases hstep
  · cases hm with
    | loop ha => cases ha
    | noTick _ hsel' =>
      rw [hsel] at hsel'
      cases hsel'
    | tick _ hsel' =>
      rw [hsel] at hsel'
      cases hsel'
      rfl
  · cases hf with
    | getSelected _ herr =>
      rw [hsel] at herr
      cases herr
  · cases heq

/-- The timer draws, and then nothing goes on. -/
theorem Quiet.run_timer (h : Quiet s) {n : ℕ} (hvalid : Valid n s) (hids : Numbered n s)
    {lt : Int32} (htimer : s.timer = some lt) {bs : List PipeAction} (hbs : ∀ b ∈ bs, IsMove b)
    (hrun : run (step os cv) s bs = some t) (ht : AtRest t) :
    t = { s.setLayout lt with timer := none } := by
  cases bs with
  | nil =>
    obtain rfl := Option.some.inj hrun
    rw [ht.timer] at htimer
    cases htimer
  | cons b bs =>
    obtain ⟨hb, hbs⟩ := List.forall_mem_cons.mp hbs
    obtain ⟨u, hu, hrun⟩ := run_cons_eq_some.mp hrun
    obtain ⟨lt', hlt, rfl⟩ := h.of_step hvalid hids hb hu
    obtain rfl : lt = lt' := Option.some.inj (htimer.symm.trans hlt)
    obtain ⟨layout, heq⟩ := setLayout_eq s lt
    cases bs with
    | nil => exact (Option.some.inj hrun).symm
    | cons c cs =>
      obtain ⟨w, hw, -⟩ := run_cons_eq_some.mp hrun
      have hquiet : Quiet { s.setLayout lt with timer := none } := by
        rw [heq]
        exact { h with }
      have hids' : Numbered n { s.setLayout lt with timer := none } := by
        rw [heq]
        exact ⟨hids.length, hids.flowId⟩
      obtain ⟨lt', hlt', -⟩ := hquiet.of_step { hvalid.setLayout lt with } hids'
        (List.forall_mem_cons.mp hbs).1 hw
      cases hlt'

/-- **The next time everything has come to rest after the timer, the plots of the selected flow are
drawn.** -/
theorem layout_after_tick {acts : List PipeAction} (hrun : run (step os cv) init acts = some s)
    (hfew : FewFlows s) (hflows : s.flows ≠ []) (hrest : AtRest s) {bs : List PipeAction}
    (hbs : ∀ b ∈ bs, IsMove b) (hafter : run (step os cv) s (.tick :: bs) = some t)
    (ht : AtRest t) :
    ∃ v < s.flows.length, s.selectedFlowIndex = v ∧ t.layout = s.flowId v ∧
      t.plots.ChartsFor t.layout := by
  have hvalid := valid_of_run hrun hfew
  have hids := numbered_of_run hrun
  obtain ⟨u, hu, hbs'⟩ := run_cons_eq_some.mp hafter
  rcases hvalid.getSelectedFlow hids with ⟨hzero, -⟩ | ⟨v, hv, hindex, hsel⟩
  · exact absurd (List.length_eq_zero_iff.mp hzero) hflows
  · have hm : s.flowId v ∈ s.plots.m := mem_m_of_rest hrun hrest hv
    obtain rfl := tick_of_rest hsel hu
    have hquiet : Quiet { s with timer := some (s.flowId v) } := { hrest with }
    obtain rfl := hquiet.run_timer { hvalid with } ⟨hids.length, hids.flowId⟩ rfl hbs hbs' ht
    have hdraw : PipeUI.setLayout { s with timer := some (s.flowId v) } (s.flowId v) =
        { s with timer := some (s.flowId v), layout := s.flowId v } := if_pos (.inr hm)
    rw [hdraw]
    exact ⟨v, hv, hindex, rfl, (hvalid.plots.charted _ hm).2⟩

/-- The timer after the only line. -/
def drawn : List PipeAction := [.move .timer ⟨9, false, fun _ _ => .ok true⟩]

theorem layout_after_tick_oneLine :
    ∃ s t, run (step numbersOs fun _ => 0) init oneLine = some s ∧
      run (step numbersOs fun _ => 0) s (.tick :: drawn) = some t ∧
      ∃ v < s.flows.length, s.selectedFlowIndex = v ∧ t.layout = s.flowId v ∧
        t.plots.ChartsFor t.layout := by
  have hrest : ((run (step numbersOs fun _ => 0) init oneLine).bind fun s =>
      (run (step numbersOs fun _ => 0) s (.tick :: drawn)).map fun t =>
        decide (s.flows.length = 1 ∧ AtRest s ∧ AtRest t)) = some true := by decide +kernel
  obtain ⟨s, hs, hrest⟩ := Option.bind_eq_some_iff.mp hrest
  obtain ⟨t, ht, hrest⟩ := Option.map_eq_some_iff.mp hrest
  obtain ⟨hlen, hsrest, htrest⟩ := of_decide_eq_true hrest
  have hflows : s.flows ≠ [] := List.length_pos_iff.mp (by omega)
  have hmoves : ∀ b ∈ drawn, IsMove b := by
    intro b hb
    exact ⟨_, _, List.mem_singleton.mp hb⟩
  exact ⟨s, t, hs, ht, layout_after_tick hs (by rw [FewFlows, hlen]; decide) hflows hsrest hmoves ht
    htrest⟩

end PipeUI

end Jens
