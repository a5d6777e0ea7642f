import Jens.Modes.Correct.Progress

/-!
# The user interface comes to rest

Each step that no line, no key and no timer gives rise to uses something up (`liveRank_step`).  As
something can go on wherever not everything is at rest, that is `settles`.
-/

namespace Jens

open Steps

/-! ### The charts -/

namespace PlotUI

variable {π : Type} {p q : PlotUI π}

/-- The charts of one kind that have something to work off. -/
def pendingOf (p : PlotUI π) (k : PlotKind) : ℕ :=
  ((p.charts k).map fun chart => chart.newData.toList.length).sum

/-- The charts that have something to work off. -/
def pending (p : PlotUI π) : ℕ :=
  p.pendingOf .load + p.pendingOf .ecn + p.pendingOf .dropp + p.pendingOf .sojourn +
    p.pendingOf .delay

theorem pendingOf_newDetWids (p : PlotUI π) (flowId : Int32) (k : PlotKind) :
    (p.newDetWids flowId).pendingOf k = p.pendingOf k := by
  simp [pendingOf, newDetWids]

theorem pendingOf_setChart_ne (p : PlotUI π) {k k' : PlotKind} (h : k' ≠ k) (i : ℕ)
    (chart : Chart π) : (p.setChart k i chart).pendingOf k' = p.pendingOf k' := by
  rw [pendingOf, setChart_charts_ne p h, pendingOf]

theorem pendingOf_setChart_self {k : PlotKind} {i : ℕ} {chart : Chart π}
    (h : (p.charts k)[i]? = some chart) (chart' : Chart π) :
    (p.setChart k i chart').pendingOf k + chart.newData.toList.length =
      p.pendingOf k + chart'.newData.toList.length := by
  rw [pendingOf, setChart_charts_self]
  exact List.sum_map_set h (fun chart => chart.newData.toList.length) chart'

/-- A chart becomes another. -/
theorem pending_setChart {k : PlotKind} {i : ℕ} {chart : Chart π}
    (h : (p.charts k)[i]? = some chart) (chart' : Chart π) :
    (p.setChart k i chart').pending + chart.newData.toList.length =
      p.pending + chart'.newData.toList.length := by
  have hself := pendingOf_setChart_self h chart'
  have hne : ∀ k' ≠ k, (p.setChart k i chart').pendingOf k' = p.pendingOf k' :=
    fun k' hk => pendingOf_setChart_ne p hk i chart'
  unfold pending
  cases k <;>
    simp only [hne, ne_eq, reduceCtorEq, not_false_eq_true] <;> omega

theorem pending_take (h : p.step .take = some q) : q.pending = p.pending := by
  obtain ⟨flow, rest, -, -, rfl⟩ := take_cases h
  split_ifs
  · rfl
  · show (p.newDetWids flow.flowId).pending = p.pending
    simp only [pending, pendingOf_newDetWids]

theorem pending_publish {i : ℕ} (h : p.step (.publish i) = some q) :
    q.pending = p.pending + 1 ∧ q.sends.length + 1 = p.sends.length := by
  obtain ⟨k, newData, sends, chart, hsends, hchart, hidle, rfl⟩ := publish_cases h
  have hset := pending_setChart hchart { chart with newData := some newData }
  rw [hidle] at hset
  exact ⟨hset, by rw [hsends]; rfl⟩

theorem pending_handle {k : PlotKind} {i : ℕ} (h : p.step (.handle k i) = some q) :
    q.pending + 1 = p.pending ∧ q.sends = p.sends := by
  obtain ⟨chart, newData, hchart, hnew, rfl⟩ := handle_cases h
  have hset := pending_setChart hchart (chart.handle newData)
  have hnone : (chart.handle newData).newData = none := by
    unfold Chart.handle
    split_ifs <;> rfl
  rw [hnew, hnone] at hset
  exact ⟨hset, rfl⟩

end PlotUI

/-! ### The read loop

The weights count the steps that a goroutine has still to do, with those it is the reason for at
others. -/

namespace ReadLoop

variable {os : Os} {cv : F64 → Int64} {l l' : ReadLoop}

def readWeight : ReadPc → ℕ
  | .reading | .panicked _ => 0
  | .checking _ _ => 48
  | .appending _ _ => 47
  | .starting _ _ => 32

def appendWeight : AppendPc → ℕ
  | .started => 31
  | .got _ => 30
  | .writing _ rest => 20 + rest.length
  | .done => 0

def weight (l : ReadLoop) : ℕ :=
  readWeight l.pc + (l.routines.map fun r => appendWeight r.pc).sum

/-- What a step leaves for others to do. -/
def handedOver : ReadAction → ℕ
  | .append => 14
  | .unlock _ => 19
  | _ => 0

theorem weight_setPc {j : ℕ} {r : AppendRoutine} (hr : l.routines[j]? = some r) (pc : AppendPc) :
    (l.setPc j pc).weight + appendWeight r.pc = l.weight + appendWeight pc := by
  have hsum : ((l.setPc j pc).routines.map fun r => appendWeight r.pc).sum + appendWeight r.pc =
      (l.routines.map fun r => appendWeight r.pc).sum + appendWeight pc :=
    List.sum_map_modify hr (fun r => { r with pc := pc }) fun r => appendWeight r.pc
  have hpc : (l.setPc j pc).pc = l.pc := rfl
  simp only [weight, hpc]
  omega

theorem weight_step {b : ReadAction} (hline : ∀ line, b ≠ .line line)
    (h : l.step os cv b = some l') : l'.weight + handedOver b < l.weight := by
  cases moves_of_step h with
  | skip | line | panics => exact absurd rfl (hline _)
  | found hpc | missing hpc | append hpc =>
    simp only [weight, hpc, readWeight, handedOver]
    omega
  | go hpc =>
    simp only [weight, hpc, readWeight, handedOver, List.map_append, List.sum_append,
      List.map_singleton, List.sum_singleton, appendWeight]
    omega
  | @get j r hr hpc =>
    have hset := weight_setPc hr (.got (l.man.get r.f))
    simp only [hpc, appendWeight, handedOver] at hset ⊢
    omega
  | @lock j i r v hr hpc hv hfree =>
    have hset := weight_setPc hr (.writing i FlowDatapointsT.appendBody)
    have hlen : FlowDatapointsT.appendBody.length = 9 := rfl
    simp only [hpc, appendWeight, hlen] at hset
    show (l.setPc j (.writing i FlowDatapointsT.appendBody)).weight + 0 < l.weight
    omega
  | @stmt j i r stmt rest now hr hpc =>
    have hset := weight_setPc hr (.writing i rest)
    simp only [hpc, appendWeight, List.length_cons] at hset
    show (l.setPc j (.writing i rest)).weight + 0 < l.weight
    omega
  | @unlock j i r hr hpc =>
    have hset := weight_setPc hr .done
    simp only [hpc, appendWeight, List.length_nil] at hset
    show (l.setPc j .done).weight + 19 < l.weight
    omega

end ReadLoop

namespace PipeUI

variable {os : Os} {cv : F64 → Int64} {s t u : PipeUI}

/-! ### Each step uses something up -/

def handlerWeight : HandlerPc → ℕ
  | .newFlow => 14
  | .first => 12
  | .newFlowSelected .list => 11
  | .newFlowSelected .getSelected => 9
  | .newFlowSelected (.details _) => 8
  | .onFirstFlowAdded => 6
  | .redraw _ => 5
  | .onEndOfDrpplayer => 2
  | .returned => 0

def graphsWeight (sends : ℕ) : GraphsPc → ℕ
  | .idle => 0
  | .locking _ => 18
  | .sending _ => 2 * sends + 7
  | .timing _ => 6

def refreshWeight : RefreshPc → ℕ
  | .started _ => 5
  | .list _ _ => 4
  | .details _ => 2

def redrawWeight : RedrawPc → ℕ
  | .idle => 0
  | .getSelected _ => 4
  | .details _ _ => 3
  | .layout _ => 1

def keyboardWeight : KeyboardPc → ℕ
  | .idle => 0
  | .selecting _ => 13
  | .newFlowSelected .list => 12
  | .newFlowSelected .getSelected => 10
  | .newFlowSelected (.details _) => 9
  | .unlocking => 7
  | .after => 6
  | .redraw _ => 5

/-- The receiver of a message has that much more to do. -/
def messageWeight : PipeMessage → ℕ
  | .flowList | .flowDetails _ | .text => 1
  | .redraw _ => 4
  | .dataGraphs _ => 18
  | .chart => 0

def rank (s : PipeUI) : ℕ :=
  s.loop.weight + s.handler.elim 0 handlerWeight + 19 * s.newData.length +
    graphsWeight s.plots.sends.length s.graphs + s.plots.pending +
    (s.refreshes.map refreshWeight).sum + redrawWeight s.redraw + s.timer.toList.length +
    keyboardWeight s.keyboard + s.listBusy.toNat + s.details.toList.length + s.textBusy.toNat

theorem rank_send {who : PipeSender} {msg : PipeMessage} (hs : Sends s who msg u)
    (hmsg : msg ≠ .chart) : u.rank + messageWeight msg < s.rank := by
  cases hs with
  | newFlow hh | handlerList hh | handlerDetails hh | handlerRedraw hh | onEndOfDrpplayer hh =>
    simp only [rank, hh, Option.elim_some, Option.elim_none, handlerWeight,
      messageWeight]
    omega
  | newData hj =>
    have hlt := (List.getElem?_eq_some_iff.mp hj).1
    simp only [rank, List.length_eraseIdx_of_lt hlt, messageWeight]
    omega
  | chart => exact absurd rfl hmsg
  | @refreshBoth j v flow hj =>
    have hsum := List.sum_map_set hj refreshWeight (.details flow)
    simp only [rank, messageWeight, refreshWeight] at hsum ⊢
    omega
  | refreshList hj | refreshDetails hj =>
    have hsum := List.sum_map_eraseIdx hj refreshWeight
    simp only [rank, messageWeight, refreshWeight] at hsum ⊢
    omega
  | redrawDetails hr =>
    simp only [rank, hr, redrawWeight, messageWeight]
    omega
  | keyboardList hk | keyboardDetails hk | keyboardRedraw hk =>
    simp only [rank, hk, keyboardWeight, messageWeight]
    omega

theorem rank_receive {msg : PipeMessage} (hr : Receives s msg t) (hmsg : msg ≠ .chart) :
    t.rank ≤ s.rank + messageWeight msg := by
  cases hr with
  | flowList hl =>
    simp only [rank, hl, messageWeight, Bool.toNat_true, Bool.toNat_false]
    omega
  | flowDetails hd =>
    simp only [rank, hd, messageWeight, Option.toList_some, Option.toList_none,
      List.length_singleton, List.length_nil]
    omega
  | combined hr | redraw hr =>
    simp only [rank, hr, messageWeight, redrawWeight]
    omega
  | @dataGraphs v hg =>
    have hpending : PlotUI.pending { s.plots with updateDataGraphs := [s.pointers v] } =
        s.plots.pending := rfl
    simp only [rank, hg, messageWeight, graphsWeight, hpending]
    omega
  | chart => exact absurd rfl hmsg
  | text ht =>
    simp only [rank, ht, messageWeight, Bool.toNat_true, Bool.toNat_false]
    omega

theorem rank_setLayout (s : PipeUI) (lt : Int32) : (s.setLayout lt).rank = s.rank := by
  obtain ⟨layout, heq⟩ := setLayout_eq s lt
  rw [heq]
  rfl

theorem rank_loop {b : ReadAction} {loop : ReadLoop} (hline : ∀ line, b ≠ .line line)
    (h : s.loop.step os cv b = some loop) :
    rank { s with loop := loop } + ReadLoop.handedOver b < s.rank := by
  have hweight := ReadLoop.weight_step hline h
  simp only [rank]
  omega

/-- A move uses something up. -/
theorem rank_moves {m : PipeMove} {ans : Answers} (hm : Moves os cv s (.move m ans) t) :
    t.rank < s.rank := by
  cases hm with
  | @loop _ b _ ha _ _ _ hloop =>
    have hline : ∀ line, b ≠ .line line := by
      rintro line rfl
      cases m <;> cases ha
    have hlt := rank_loop hline hloop
    omega
  | append hloop =>
    have hlt := rank_loop (by simp) hloop
    simp only [rank, ReadLoop.handedOver, Option.elim_some, handlerWeight] at hlt ⊢
    omega
  | unlock _ _ hloop =>
    have hlt := rank_loop (by simp) hloop
    simp only [rank, ReadLoop.handedOver, List.length_append, List.length_singleton] at hlt ⊢
    omega
  | notFirst hh | first hh | handlerSelected hh | onFirstFlowAdded hh =>
    simp only [rank, hh, Option.elim_some, Option.elim_none, handlerWeight]
    omega
  | take hg _ hplots =>
    have hpending := PlotUI.pending_take hplots
    obtain ⟨flow, rest, -, -, heq⟩ := PlotUI.take_cases hplots
    have hsends : (_ : PlotUI ColumnPtr).sends.length = 5 := congrArg (·.sends.length) heq
    simp only [rank, hg, graphsWeight, hpending, hsends]
    omega
  | release hg hsends =>
    simp only [rank, hg, hsends, graphsWeight]
    omega
  | due hg =>
    simp only [rank, hg, graphsWeight, List.map_append, List.sum_append, List.map_singleton,
      List.sum_singleton, refreshWeight]
    omega
  | notDue hg =>
    simp only [rank, hg, graphsWeight]
    omega
  | @refresh _ j v flow hj =>
    have hsum := List.sum_map_set hj refreshWeight (.list v flow)
    simp only [rank, refreshWeight] at hsum ⊢
    omega
  | noRefresh hj =>
    have hsum := List.sum_map_eraseIdx hj refreshWeight
    simp only [rank, refreshWeight] at hsum ⊢
    omega
  | redraw hr =>
    simp only [rank, hr, redrawWeight]
    omega
  | @layout _ lt hr =>
    rw [← rank_setLayout s lt]
    obtain ⟨layout, heq⟩ := setLayout_eq s lt
    simp only [heq, rank, hr, redrawWeight]
    omega
  | @timer _ lt ht =>
    rw [← rank_setLayout s lt]
    obtain ⟨layout, heq⟩ := setLayout_eq s lt
    simp only [heq, rank, ht, Option.toList_some, Option.toList_none, List.length_singleton,
      List.length_nil]
    omega
  | stays hk | selects hk | keyboardSelected hk | unlocking hk | after hk | noAfter hk =>
    simp only [rank, hk, keyboardWeight]
    omega
  | list hl =>
    simp only [rank, hl, Bool.toNat_true, Bool.toNat_false]
    omega
  | details hd =>
    simp only [rank, hd, Option.toList_some, Option.toList_none, List.length_singleton,
      List.length_nil]
    omega
  | text ht =>
    simp only [rank, ht, Bool.toNat_true, Bool.toNat_false]
    omega
  | chart hplots =>
    obtain ⟨hpending, hsends⟩ := PlotUI.pending_handle hplots
    simp only [rank, hsends]
    omega
  | @send _ who i msg u t hs hr =>
    by_cases hmsg : msg = .chart
    · subst hmsg
      cases hs with
      | chart hg hsends =>
        cases hr with
        | chart hplots =>
          obtain ⟨hpending, hlength⟩ := PlotUI.pending_publish hplots
          simp only [rank, hg, graphsWeight]
          omega
    · have hsend := rank_send hs hmsg
      have hreceive := rank_receive hr hmsg
      omega

/-- The rank, with one more step for the end of the process. -/
def liveRank (s : PipeUI) : ℕ := s.rank + s.ended.elim 1 fun _ => 0

theorem liveRank_step {m : PipeMove} {ans : Answers} (h : s.step os cv (.move m ans) = some t) :
    t.liveRank < s.liveRank := by
  obtain ⟨hlive, hm | ⟨e, -, rfl⟩ | ⟨e, ⟨line, heq, -⟩, -⟩⟩ := step_cases h
  · have hlt := rank_moves hm
    rw [liveRank, liveRank, hm.ended]
    omega
  · have hrank : rank { s with ended := some e } = s.rank := rfl
    rw [liveRank, liveRank, hrank, hlive]
    exact Nat.lt_succ_self _
  · cases heq

/-! ### Runs -/

/-- Nobody outside gives rise to the action. -/
def IsMove (a : PipeAction) : Prop := ∃ m ans, a = .move m ans

/-- What goes on from `s` without a line, a key or the timer. -/
structure Settles (os : Os) (cv : F64 → Int64) (s : PipeUI) : Prop where
  /-- It has an end. -/
  bounded : ∃ n, ∀ as t, (∀ a ∈ as, IsMove a) → run (step os cv) s as = some t → as.length ≤ n
  /-- Wherever it has come to, something can go on whatever the answers are, unless everything is at
  rest or the process has ended. -/
  onward : ∀ as t, (∀ a ∈ as, IsMove a) → run (step os cv) s as = some t → t.ended = none →
    ¬ AtRest t → ∃ m, ∀ ans, (t.step os cv (.move m ans)).isSome
  /-- So it comes to rest whatever the answers are. -/
  rest : ∀ answers : PipeUI → Answers, ∃ ms t,
    run (fun s m => s.step os cv (.move m (answers s))) s ms = some t ∧
      (t.ended ≠ none ∨ AtRest t)

/-- **In every run, whatever is read and pressed, the goroutines do not block each other: they come
to rest after finitely many steps.** -/
theorem settles {acts : List PipeAction} (hrun : run (step os cv) init acts = some s) :
    Settles os cv s := by
  refine ⟨⟨s.liveRank, fun as t has h => ?_⟩, ?_, ?_⟩
  · have hlower : ∀ s a t, True → IsMove a → step os cv s a = some t →
        True ∧ t.liveRank < s.liveRank := by
      rintro s _ t - ⟨m, ans, rfl⟩ hstep
      exact ⟨trivial, liveRank_step hstep⟩
    have hle := length_add_rank_le liveRank hlower trivial has h
    omega
  · intro as t has h hlive hrest
    have hwhole := run_append_eq_some.mpr ⟨s, hrun, h⟩
    exact (settled_of_run hwhole).onward hlive hrest
  · intro answers
    let next : PipeUI → PipeMove → Option PipeUI := fun s m => s.step os cv (.move m (answers s))
    let Reached : PipeUI → Prop := fun s => ∃ acts, run (step os cv) init acts = some s
    have hlower : ∀ s m t, Reached s → True → next s m = some t →
        Reached t ∧ t.liveRank < s.liveRank := by
      rintro s m t ⟨acts, hacts⟩ - hstep
      exact ⟨⟨_, run_concat hacts hstep⟩, liveRank_step hstep⟩
    have honward : ∀ s, Reached s → ¬ (s.ended ≠ none ∨ AtRest s) →
        ∃ m, True ∧ (next s m).isSome := by
      rintro s ⟨acts, hacts⟩ hrest
      obtain ⟨hlive, hrest⟩ := not_or.mp hrest
      obtain ⟨m, hm⟩ := (settled_of_run hacts).onward (not_not.mp hlive) hrest
      exact ⟨m, trivial, hm (answers s)⟩
    obtain ⟨ms, t, -, h, ht⟩ := exists_run_to_rest liveRank hlower honward ⟨acts, hrun⟩
    exact ⟨ms, t, h, ht⟩

/-- After a line has been read. -/
theorem settles_line :
    ∃ s, run (step numbersOs fun _ => 0) init [.line "1 2 3 4 5 6 7 a:1-b:2"] = some s ∧
      Settles numbersOs (fun _ => 0) s := by
  have hsome : (run (step numbersOs fun _ => 0) init
      [.line "1 2 3 4 5 6 7 a:1-b:2"]).isSome = true := by decide +kernel
  obtain ⟨s, hs⟩ := Option.isSome_iff_exists.mp hsome
  exact ⟨s, hs, settles hs⟩

end PipeUI

end Jens
