import Jens.Modes.Correct.Moves
import Jens.Widgets.Correct.Charts

/-!
# What the goroutines of `modes/pipe` wait for

The mutex of the manager is with a goroutine exactly while it sends under it (`Guarded`), what the
goroutine of `NewUI` has to send has charts to go to (`Ready`), and the input ends between two lines
(`Finished`).  These, with what holds of the read loop, are `Settled`.
-/

namespace Jens

open Steps

/-! ### The plots -/

namespace PlotUI

variable {π : Type} {p q : PlotUI π}

theorem take_cases (h : p.step .take = some q) :
    ∃ flow rest, p.sends = [] ∧ p.updateDataGraphs = flow :: rest ∧
      q = { (if flow.flowId ∈ p.m then p else p.newDetWids flow.flowId) with
        updateDataGraphs := rest, sends := flow.updates } := by
  cases hsends : p.sends with
  | cons send sends => simp [step, hsends] at h
  | nil =>
    cases hflows : p.updateDataGraphs with
    | nil => simp [step, hsends, hflows] at h
    | cons flow rest =>
      rw [step_take hsends hflows] at h
      exact ⟨flow, rest, rfl, rfl, (Option.some.inj h).symm⟩

theorem publish_cases {i : ℕ} (h : p.step (.publish i) = some q) :
    ∃ k newData sends chart, p.sends = (k, newData) :: sends ∧ (p.charts k)[i]? = some chart ∧
      chart.newData = none ∧ q = p.receive k newData sends i chart := by
  simp only [step] at h
  split at h
  case h_1 => cases h
  case h_2 k newData sends hsends =>
    split at h
    case h_1 chart hchart =>
      obtain ⟨hidle, h⟩ := Option.ite_none_right_eq_some.mp h
      exact ⟨k, newData, sends, chart, hsends, hchart, by simpa using hidle,
        (Option.some.inj h).symm⟩
    case h_2 => cases h

theorem handle_cases {k : PlotKind} {i : ℕ} (h : p.step (.handle k i) = some q) :
    ∃ chart newData, (p.charts k)[i]? = some chart ∧ chart.newData = some newData ∧
      q = p.setChart k i (chart.handle newData) := by
  simp only [step] at h
  split at h
  case h_1 chart hchart =>
    obtain ⟨newData, hnew, rfl⟩ := Option.map_eq_some_iff.mp h
    exact ⟨chart, newData, hchart, hnew, rfl⟩
  case h_2 => cases h
/-- A flow has charts of all kinds as soon as it has been taken. -/
structure Charted (p : PlotUI π) : Prop where
  charts : p.m ≠ [] → ∀ k, p.charts k ≠ []
  sends : p.sends ≠ [] → p.m ≠ []

theorem Charted.take (h : Charted p) (hstep : p.step .take = some q) : Charted q := by
  obtain ⟨flow, rest, -, -, rfl⟩ := take_cases hstep
  split_ifs with hm
  · exact ⟨h.charts, fun _ => List.ne_nil_of_mem hm⟩
  · constructor <;> intros <;> simp [newDetWids]

theorem setChart_charts_ne_nil {k : PlotKind} {i : ℕ} {chart : Chart π} {k' : PlotKind}
    (h : p.charts k' ≠ []) : (p.setChart k i chart).charts k' ≠ [] := by
  by_cases hk : k' = k
  · rw [hk, setChart_charts_self]
    rw [hk] at h
    simpa using h
  · rwa [setChart_charts_ne p hk]

theorem Charted.publish (h : Charted p) {i : ℕ} (hstep : p.step (.publish i) = some q) :
    Charted q := by
  obtain ⟨k, newData, sends, chart, hsends, -, -, rfl⟩ := publish_cases hstep
  refine ⟨fun hm k' => setChart_charts_ne_nil (h.charts hm k'), fun _ => h.sends ?_⟩
  rw [hsends]
  exact List.cons_ne_nil _ _

theorem Charted.handle (h : Charted p) {k : PlotKind} {i : ℕ}
    (hstep : p.step (.handle k i) = some q) : Charted q := by
  obtain ⟨chart, newData, -, -, rfl⟩ := handle_cases hstep
  exact ⟨fun hm k' => setChart_charts_ne_nil (h.charts hm k'), h.sends⟩

end PlotUI

namespace PipeUI

variable {os : Os} {cv : F64 → Int64} {s t u : PipeUI}

/-! ### The mutex of the manager -/

/-- The handling of a key has the mutex. -/
def KeyboardHolds : KeyboardPc → Prop
  | .newFlowSelected _ | .unlocking => True
  | .idle | .selecting _ | .after | .redraw _ => False

/-- Who has the mutex. -/
structure Guarded (s : PipeUI) : Prop where
  graphs : s.mutex = some .graphs ↔ ∃ v, s.graphs = .sending v
  keyboard : s.mutex = some .keyboard ↔ KeyboardHolds s.keyboard

theorem guarded_init : Guarded init := ⟨by simp [init], by simp [init, KeyboardHolds]⟩

theorem Guarded.send (h : Guarded s) {who : PipeSender} {msg : PipeMessage}
    (hs : Sends s who msg u) : Guarded u := by
  cases hs with
  | keyboardList hk | keyboardDetails hk | keyboardRedraw hk =>
    exact ⟨h.graphs, h.keyboard.trans (by rw [hk]; simp [KeyboardHolds])⟩
  | _ => exact ⟨h.graphs, h.keyboard⟩

theorem Guarded.receive (h : Guarded s) {msg : PipeMessage} (hr : Receives s msg t) :
    Guarded t := by
  cases hr with
  | dataGraphs hg => exact ⟨h.graphs.trans (by rw [hg]; simp), h.keyboard⟩
  | _ => exact ⟨h.graphs, h.keyboard⟩

theorem Guarded.of_eq (h : Guarded s) (hmutex : t.mutex = s.mutex) (hgraphs : t.graphs = s.graphs)
    (hkeyboard : t.keyboard = s.keyboard) : Guarded t := by
  refine ⟨?_, ?_⟩
  · rw [hmutex, hgraphs]
    exact h.graphs
  · rw [hmutex, hkeyboard]
    exact h.keyboard

theorem setLayout_eq (s : PipeUI) (lt : Int32) : ∃ layout, s.setLayout lt = { s with layout } := by
  unfold setLayout
  split_ifs
  · exact ⟨lt, rfl⟩
  · exact ⟨s.layout, rfl⟩

theorem Moves.ended {a : PipeAction} (hm : Moves os cv s a t) : t.ended = s.ended := by
  cases hm with
  | @layout _ lt | @timer _ lt =>
    obtain ⟨layout, heq⟩ := setLayout_eq s lt
    rw [heq]
  | send hs hr => cases hr <;> cases hs <;> rfl
  | _ => rfl

/-- The mutex is free, so nobody is where it is needed. -/
theorem Guarded.free (h : Guarded s) (hmutex : s.mutex = none) :
    (∀ v, s.graphs ≠ .sending v) ∧ ¬ KeyboardHolds s.keyboard := by
  have hgraphs := h.graphs
  have hkeyboard := h.keyboard
  rw [hmutex] at hgraphs hkeyboard
  simpa using And.intro hgraphs hkeyboard

theorem Guarded.moves (h : Guarded s) {a : PipeAction} (hm : Moves os cv s a t) : Guarded t := by
  cases hm with
  | take hg hmutex hplots =>
    have hkeyboard := (h.free hmutex).2
    exact ⟨by simp, by simpa using hkeyboard⟩
  | @release _ v hg hsends =>
    have hmutex : s.mutex = some .graphs := h.graphs.mpr ⟨v, hg⟩
    have hkeyboard := h.keyboard
    rw [hmutex] at hkeyboard
    exact ⟨by simp, by simpa using hkeyboard⟩
  | selects hk hmutex hnav =>
    have hgraphs := (h.free hmutex).1
    exact ⟨by simpa using hgraphs, by simp [KeyboardHolds]⟩
  | unlocking hk =>
    have hmutex : s.mutex = some .keyboard := h.keyboard.mpr (hk ▸ trivial)
    have hgraphs := h.graphs
    rw [hmutex] at hgraphs
    exact ⟨by simpa using hgraphs, by simp [KeyboardHolds]⟩
  | due hg | notDue hg => exact ⟨h.graphs.trans (by rw [hg]; simp), h.keyboard⟩
  | arrow hk | space hk | stays hk | keyboardSelected hk | after hk | noAfter hk =>
    exact ⟨h.graphs, h.keyboard.trans (by rw [hk]; simp [KeyboardHolds])⟩
  | send hs hr => exact (h.send hs).receive hr
  | @layout _ lt | @timer _ lt =>
    obtain ⟨layout, heq⟩ := setLayout_eq s lt
    exact h.of_eq (by rw [heq]) (by rw [heq]) (by rw [heq])
  | _ => exact ⟨h.graphs, h.keyboard⟩
/-! ### What the goroutines have in hand -/

/-- The flow that the goroutine of `NewUI` has received and not taken yet. -/
def waiting : GraphsPc → List ℕ
  | .locking v => [v]
  | .idle | .sending _ | .timing _ => []

/-- The plots are where the goroutine of `NewUI` says. -/
structure Ready (s : PipeUI) : Prop where
  charted : s.plots.Charted
  queue : (s.plots.updateDataGraphs.map fun flow => flow.load.flow) = waiting s.graphs
  sends : s.plots.sends ≠ [] → ∃ v, s.graphs = .sending v

theorem ready_init : Ready init := ⟨⟨by simp [init], by simp [init]⟩, rfl, by simp [init]⟩

theorem Ready.send (h : Ready s) {who : PipeSender} {msg : PipeMessage}
    (hs : Sends s who msg u) : Ready u := by
  cases hs <;> exact ⟨h.charted, h.queue, h.sends⟩

theorem Ready.sends_eq_nil (h : Ready s) (hg : ∀ v, s.graphs ≠ .sending v) :
    s.plots.sends = [] := by
  by_contra hsends
  obtain ⟨v, hv⟩ := h.sends hsends
  exact hg v hv

theorem Ready.receive (h : Ready s) {msg : PipeMessage} (hr : Receives s msg t) : Ready t := by
  cases hr with
  | dataGraphs hg =>
    have hsends : s.plots.sends = [] := h.sends_eq_nil (by rw [hg]; simp)
    exact ⟨⟨h.charted.charts, h.charted.sends⟩, rfl, fun hne => absurd hsends hne⟩
  | chart hplots =>
    obtain ⟨k, newData, sends, chart, hsends, -, -, heq⟩ := PlotUI.publish_cases hplots
    refine ⟨h.charted.publish hplots, ?_, fun _ => h.sends ?_⟩
    · rw [heq]
      exact h.queue
    · rw [hsends]
      exact List.cons_ne_nil _ _
  | _ => exact ⟨h.charted, h.queue, h.sends⟩

theorem Ready.moves (h : Ready s) {a : PipeAction} (hm : Moves os cv s a t) : Ready t := by
  cases hm with
  | @take _ v _ hg hmutex hplots =>
    have hcharted := h.charted.take hplots
    obtain ⟨flow, rest, -, hflows, heq⟩ := PlotUI.take_cases hplots
    have hqueue := h.queue
    rw [hflows, hg] at hqueue
    have hrest : rest = [] := by simpa [waiting] using congrArg List.tail hqueue
    refine ⟨hcharted, ?_, fun _ => ⟨v, rfl⟩⟩
    rw [heq, hrest]
    rfl
  | release hg hsends =>
    have hqueue := h.queue
    rw [hg] at hqueue
    exact ⟨h.charted, hqueue, fun hne => absurd hsends hne⟩
  | due hg | notDue hg =>
    have hqueue := h.queue
    rw [hg] at hqueue
    exact ⟨h.charted, hqueue, fun hne => absurd (h.sends_eq_nil (by rw [hg]; simp)) hne⟩
  | chart hplots =>
    obtain ⟨chart, newData, -, -, heq⟩ := PlotUI.handle_cases hplots
    refine ⟨h.charted.handle hplots, ?_, ?_⟩
    · rw [heq]
      exact h.queue
    · rw [heq]
      exact h.sends
  | send hs hr => exact (h.send hs).receive hr
  | @layout _ lt | @timer _ lt =>
    obtain ⟨layout, heq⟩ := setLayout_eq s lt
    rw [heq]
    exact ⟨h.charted, h.queue, h.sends⟩
  | _ => exact ⟨h.charted, h.queue, h.sends⟩

/-- The input has ended between two lines. -/
def Finished (s : PipeUI) : Prop :=
  s.handler = some .onEndOfDrpplayer ∨ s.handler = some .returned → s.loop.pc = .reading

theorem finished_loop (h : Finished s) {b : ReadAction} {loop : ReadLoop}
    (hfree : (b = .go ∨ ∃ line, b = .line line) → s.handler = none)
    (hloop : s.loop.step os cv b = some loop) : Finished { s with loop := loop } := by
  intro hend
  have hpc := h hend
  have hsome : s.handler ≠ none := by rcases hend with hend | hend <;> rw [hend] <;> simp
  cases ReadLoop.moves_of_step hloop with
  | skip | line | panics => exact absurd (hfree (.inr ⟨_, rfl⟩)) hsome
  | go => exact absurd (hfree (.inl rfl)) hsome
  | found hc | missing hc | append hc =>
    rw [hpc] at hc
    cases hc
  | get | lock | stmt | unlock => exact hpc

theorem Finished.send (h : Finished s) {who : PipeSender} {msg : PipeMessage}
    (hs : Sends s who msg u) : Finished u := by
  cases hs with
  | newFlow | handlerList | handlerDetails | handlerRedraw => simp [Finished]
  | onEndOfDrpplayer hh => exact fun _ => h (.inl hh)
  | _ => exact h

theorem Finished.receive (h : Finished s) {msg : PipeMessage} (hr : Receives s msg t) :
    Finished t := by
  cases hr <;> exact h

theorem Finished.moves (h : Finished s) {a : PipeAction} (hm : Moves os cv s a t) :
    Finished t := by
  cases hm with
  | loop _ _ _ hfree hloop => exact finished_loop h hfree hloop
  | append hloop => simp [Finished]
  | unlock _ _ hloop => exact finished_loop h (by simp) hloop
  | eof _ hpc => exact fun _ => hpc
  | notFirst | first | handlerSelected | onFirstFlowAdded => simp [Finished]
  | send hs hr => exact (h.send hs).receive hr
  | @layout _ lt | @timer _ lt =>
    obtain ⟨layout, heq⟩ := setLayout_eq s lt
    rw [heq]
    exact h
  | _ => exact h

/-- As long as the process is alive, no line has made `ReadFromLine` panic. -/
def Unbroken (s : PipeUI) : Prop := s.ended = none → s.loop.panicked = none

theorem unbroken_loop {l l' : ReadLoop} {b : ReadAction} (hlive : l.panicked = none)
    (hline : ∀ line, b = .line line → l'.panicked = none) (h : l.step os cv b = some l') :
    l'.panicked = none := by
  cases ReadLoop.moves_of_step h with
  | line | panics => exact hline _ rfl
  | found | missing | append | go => rfl
  | skip | get | lock | stmt | unlock => exact hlive

theorem Unbroken.moves (h : Unbroken s) {a : PipeAction} (hm : Moves os cv s a t) :
    Unbroken t := by
  intro hlive
  have hold := h (hm.ended ▸ hlive)
  cases hm with
  | loop _ _ _ _ hloop hline => exact unbroken_loop hold hline hloop
  | append hloop | unlock _ _ hloop => exact unbroken_loop hold (by simp) hloop
  | send hs hr =>
    rw [hr.loop, hs.loop]
    exact hold
  | layout | timer =>
    rw [loop_setLayout]
    exact hold
  | _ => exact hold

/-- What holds in all states of a run. -/
structure Settled (s : PipeUI) : Prop where
  coherent : s.loop.Coherent
  guarded : Guarded s
  ready : Ready s
  finished : Finished s
  unbroken : Unbroken s

theorem settled_of_run {acts : List PipeAction} (h : run (step os cv) init acts = some s) :
    Settled s := by
  have hloop := (ReadLoop.invariants_of_run (loop_of_run h)).2
  have hrest : Guarded s ∧ Ready s ∧ Finished s ∧ Unbroken s := by
    refine run_invariant (I := fun s => Guarded s ∧ Ready s ∧ Finished s ∧ Unbroken s) ?_
      ⟨guarded_init, ready_init, by simp [Finished, init], fun _ => rfl⟩ h
    rintro s a t ⟨hguarded, hready, hfinished, hunbroken⟩ hstep
    obtain ⟨-, hm | ⟨e, -, rfl⟩ | ⟨e, ⟨-, -, hfree, -⟩, rfl⟩⟩ := step_cases hstep
    · exact ⟨hguarded.moves hm, hready.moves hm, hfinished.moves hm, hunbroken.moves hm⟩
    · exact ⟨⟨hguarded.graphs, hguarded.keyboard⟩, ⟨hready.charted, hready.queue, hready.sends⟩,
        hfinished, by simp [Unbroken]⟩
    · exact ⟨⟨hguarded.graphs, hguarded.keyboard⟩, ⟨hready.charted, hready.queue, hready.sends⟩,
        by simp [Finished, die, hfree], by simp [Unbroken, die]⟩
  exact ⟨hloop, hrest.1, hrest.2.1, hrest.2.2.1, hrest.2.2.2⟩

end PipeUI

end Jens
