import Jens.Modes.Correct.Waiting

/-!
# Something can go on

Whoever a goroutine sends to while it has the mutex of the manager needs nothing from the manager.
So the goroutines do not wait for each other in a circle: where nothing can go on, everything is at
rest (`Stuck.atRest`, `Settled.onward`).
-/

namespace Jens

namespace PipeUI

variable {os : Os} {cv : F64 → Int64} {s t u : PipeUI}

/-- Nobody but the timer has anything left to do. -/
structure Quiet (s : PipeUI) : Prop where
  reading : s.loop.pc = .reading
  routines : ∀ r ∈ s.loop.routines, r.pc = .done
  handler : s.handler = none ∨ s.handler = some .returned
  newData : s.newData = []
  graphs : s.graphs = .idle
  refreshes : s.refreshes = []
  redraw : s.redraw = .idle
  keyboard : s.keyboard = .idle
  list : s.listBusy = false
  details : s.details = none
  text : s.textBusy = false
  charts : ∀ k, ∀ chart ∈ s.plots.charts k, chart.newData = none

/-- Nobody has anything left to do. -/
structure AtRest (s : PipeUI) : Prop extends Quiet s where
  timer : s.timer = none

instance (s : PipeUI) : Decidable (Quiet s) :=
  decidable_of_iff
    (s.loop.pc = .reading ∧ (∀ r ∈ s.loop.routines, r.pc = .done) ∧
      (s.handler = none ∨ s.handler = some .returned) ∧ s.newData = [] ∧ s.graphs = .idle ∧
      s.refreshes = [] ∧ s.redraw = .idle ∧ s.keyboard = .idle ∧
      s.listBusy = false ∧ s.details = none ∧ s.textBusy = false ∧
      ∀ k ∈ [PlotKind.load, .ecn, .dropp, .sojourn, .delay], ∀ chart ∈ s.plots.charts k,
        chart.newData = none)
    ⟨fun ⟨h₁, h₂, h₃, h₄, h₅, h₆, h₇, h₈, h₉, h₁₀, h₁₁, h₁₂⟩ =>
        ⟨h₁, h₂, h₃, h₄, h₅, h₆, h₇, h₈, h₉, h₁₀, h₁₁, fun k => h₁₂ k (by cases k <;> simp)⟩,
      fun h => ⟨h.reading, h.routines, h.handler, h.newData, h.graphs, h.refreshes, h.redraw,
        h.keyboard, h.list, h.details, h.text, fun k _ => h.charts k⟩⟩

instance (s : PipeUI) : Decidable (AtRest s) :=
  decidable_of_iff (Quiet s ∧ s.timer = none) ⟨fun h => ⟨h.1, h.2⟩, fun h => ⟨h.toQuiet, h.timer⟩⟩

/-- Nothing can go on, whatever the answers are. -/
def Stuck (os : Os) (cv : F64 → Int64) (s : PipeUI) : Prop :=
  ∀ m, ∃ ans, s.move os cv ans m = none

namespace Stuck

variable (h : Stuck os cv s)

include h

theorem list : s.listBusy = false := by
  obtain ⟨ans, hm⟩ := h .list
  by_contra hbusy
  simp [move, hbusy] at hm

theorem details : s.details = none := by
  obtain ⟨ans, hm⟩ := h .details
  match hd : s.details with
  | none => rfl
  | some none | some (some flow) => simp [move, detailsStep, hd] at hm

theorem text : s.textBusy = false := by
  obtain ⟨ans, hm⟩ := h .text
  by_contra hbusy
  simp [move, hbusy] at hm

theorem timer : s.timer = none := by
  obtain ⟨ans, hm⟩ := h .timer
  simpa [move] using hm

theorem charts (k : PlotKind) : ∀ chart ∈ s.plots.charts k, chart.newData = none := by
  intro chart hchart
  obtain ⟨i, hi⟩ := List.mem_iff_getElem?.mp hchart
  obtain ⟨ans, hm⟩ := h (.chart k i)
  by_contra hnew
  obtain ⟨newData, hnew⟩ := Option.ne_none_iff_exists'.mp hnew
  rw [move, PlotUI.step_handle hi hnew] at hm
  cases hm

/-- Nobody stands before a send that its receiver waits for. -/
theorem outgoing (who : PipeSender) {msg : PipeMessage} (hout : s.outgoing who = some (msg, u)) :
    ∀ i, u.receive i msg = none := by
  intro i
  obtain ⟨ans, hm⟩ := h (.send who i)
  simpa [move, hout] using hm

theorem redraw : s.redraw = .idle := by
  obtain ⟨ans, hm⟩ := h .redraw
  cases hr : s.redraw with
  | idle => rfl
  | getSelected lt | layout lt => simp [move, redrawStep, hr] at hm
  | details f lt =>
    have hrecv := h.outgoing .redraw (by rw [PipeUI.outgoing, redrawOutgoing, hr]) 0
    simp [receive, h.details] at hrecv

theorem refreshes : s.refreshes = [] := by
  by_contra hne
  obtain ⟨r, hr⟩ : ∃ r, s.refreshes[0]? = some r := by
    obtain ⟨r, rest, heq⟩ := List.exists_cons_of_ne_nil hne
    exact ⟨r, by rw [heq]; rfl⟩
  cases r with
  | started v =>
    obtain ⟨ans, hm⟩ := h (.refresh 0)
    simp [move, refreshStep, hr] at hm
  | list v flow =>
    have hrecv := h.outgoing (.refresh 0) (by rw [PipeUI.outgoing, refreshOutgoing, hr]) 0
    simp [receive, h.list] at hrecv
  | details flow =>
    have hrecv := h.outgoing (.refresh 0) (by rw [PipeUI.outgoing, refreshOutgoing, hr]) 0
    simp [receive, h.details] at hrecv

theorem newFlowSelected {pc : SelectedPc} : s.keyboard ≠ .newFlowSelected pc := by
  intro hk
  cases pc with
  | list =>
    have hrecv := h.outgoing .keyboard (by rw [PipeUI.outgoing, keyboardOutgoing, hk]) 0
    simp [receive, h.list] at hrecv
  | getSelected =>
    obtain ⟨ans, hm⟩ := h .keyboard
    simp [move, keyboardStep, hk] at hm
  | details flow =>
    have hrecv := h.outgoing .keyboard (by rw [PipeUI.outgoing, keyboardOutgoing, hk]) 0
    simp [receive, h.details] at hrecv

/-- The goroutine of `NewUI` does not keep the mutex, as its charts wait for its updates. -/
theorem graphs_ne_sending (hready : Ready s) (v : ℕ) : s.graphs ≠ .sending v := by
  intro hg
  cases hsends : s.plots.sends with
  | nil =>
    obtain ⟨ans, hm⟩ := h .graphs
    simp [move, graphsStep, hg, hsends] at hm
  | cons send sends =>
    obtain ⟨k, newData⟩ := send
    have hne : s.plots.sends ≠ [] := by
      rw [hsends]
      exact List.cons_ne_nil _ _
    have hrecv := h.outgoing .graphs
      (by rw [PipeUI.outgoing, graphsOutgoing, hg]; exact if_neg hne) 0
    have hcharts := hready.charted.charts (hready.charted.sends hne) k
    obtain ⟨chart, rest, hcons⟩ := List.exists_cons_of_ne_nil hcharts
    have hchart : (s.plots.charts k)[0]? = some chart := by
      rw [hcons]
      rfl
    rw [receive, PlotUI.step_publish hsends hchart
      (h.charts k chart (List.mem_of_getElem? hchart))] at hrecv
    cases hrecv

theorem not_keyboardHolds : ¬ KeyboardHolds s.keyboard := by
  cases hk : s.keyboard with
  | newFlowSelected pc => exact absurd hk h.newFlowSelected
  | unlocking =>
    obtain ⟨ans, hm⟩ := h .keyboard
    simp [move, keyboardStep, hk] at hm
  | _ => simp [KeyboardHolds]

theorem mutex (hs : Settled s) : s.mutex = none := by
  cases hmutex : s.mutex with
  | none => rfl
  | some who =>
    cases who with
    | graphs =>
      obtain ⟨v, hv⟩ := hs.guarded.graphs.mp hmutex
      exact absurd hv (h.graphs_ne_sending hs.ready v)
    | keyboard => exact absurd (hs.guarded.keyboard.mp hmutex) h.not_keyboardHolds

theorem keyboard (hs : Settled s) : s.keyboard = .idle := by
  obtain ⟨ans, hm⟩ := h .keyboard
  cases hk : s.keyboard with
  | idle => rfl
  | selecting next => simp [move, keyboardStep, hk, h.mutex hs] at hm
  | newFlowSelected pc => exact absurd hk h.newFlowSelected
  | unlocking | after => simp [move, keyboardStep, hk] at hm
  | redraw lt =>
    have hrecv := h.outgoing .keyboard (by rw [PipeUI.outgoing, keyboardOutgoing, hk]) 0
    simp [receive, h.redraw] at hrecv

theorem graphs (hs : Settled s) : s.graphs = .idle := by
  obtain ⟨ans, hm⟩ := h .graphs
  cases hg : s.graphs with
  | idle => rfl
  | locking v =>
    have hqueue := hs.ready.queue
    rw [hg] at hqueue
    obtain ⟨flow, rest, hcons⟩ := List.exists_cons_of_ne_nil (l := s.plots.updateDataGraphs)
      (by rintro hnil; rw [hnil] at hqueue; cases hqueue)
    have hsends : s.plots.sends = [] := hs.ready.sends_eq_nil (by rw [hg]; simp)
    simp [move, graphsStep, hg, h.mutex hs, PlotUI.step_take hsends hcons] at hm
  | sending v => exact absurd hg (h.graphs_ne_sending hs.ready v)
  | timing v => simp [move, graphsStep, hg] at hm

theorem newData (hs : Settled s) : s.newData = [] := by
  by_contra hne
  obtain ⟨v, rest, heq⟩ := List.exists_cons_of_ne_nil hne
  have hrecv := h.outgoing (.newData 0) (by rw [PipeUI.outgoing, heq]; rfl) 0
  simp [receive, h.graphs hs] at hrecv

theorem handler : s.handler = none ∨ s.handler = some .returned := by
  obtain ⟨ans, hm⟩ := h .handler
  match hh : s.handler with
  | none => exact .inl rfl
  | some .returned => exact .inr rfl
  | some .first =>
    simp only [move, handlerStep, hh] at hm
    split_ifs at hm
  | some (.newFlowSelected .getSelected) | some .onFirstFlowAdded =>
    simp [move, handlerStep, hh] at hm
  | some .newFlow | some (.newFlowSelected .list) =>
    have hrecv := h.outgoing .handler (by rw [PipeUI.outgoing, handlerOutgoing, hh]) 0
    simp [receive, h.list] at hrecv
  | some (.newFlowSelected (.details flow)) =>
    have hrecv := h.outgoing .handler (by rw [PipeUI.outgoing, handlerOutgoing, hh]) 0
    simp [receive, h.details] at hrecv
  | some (.redraw lt) =>
    have hrecv := h.outgoing .handler (by rw [PipeUI.outgoing, handlerOutgoing, hh]) 0
    simp [receive, h.redraw] at hrecv
  | some .onEndOfDrpplayer =>
    have hrecv := h.outgoing .handler (by rw [PipeUI.outgoing, handlerOutgoing, hh]) 0
    simp [receive, h.text] at hrecv

/-- Whoever has the mutex of the data of a flow goes on. -/
theorem not_writing {j v : ℕ} {r : AppendRoutine} {rest : List AppendStmt}
    (hr : s.loop.routines[j]? = some r) : r.pc ≠ .writing v rest := by
  intro hpc
  cases rest with
  | nil =>
    obtain ⟨ans, hm⟩ := h (.unlock j)
    simp [move, loopStep, ReadLoop.step, ReadLoop.appendStep, hr, hpc] at hm
  | cons stmt rest =>
    obtain ⟨ans, hm⟩ := h (.stmt j)
    simp [move, loopStep, ReadLoop.step, ReadLoop.appendStep, hr, hpc] at hm

theorem routines (hs : Settled s) : ∀ r ∈ s.loop.routines, r.pc = .done := by
  intro r hmem
  obtain ⟨j, hr⟩ := List.mem_iff_getElem?.mp hmem
  cases hpc : r.pc with
  | done => rfl
  | started =>
    obtain ⟨ans, hm⟩ := h (.get j)
    simp [move, loopStep, ReadLoop.step, ReadLoop.appendStep, hr, hpc, h.mutex hs] at hm
  | writing v rest => exact absurd hpc (h.not_writing hr)
  | got v =>
    obtain ⟨i, rfl, hends⟩ := hs.coherent.got r hmem v hpc
    obtain ⟨f, hf, -⟩ := ReadLoop.exists_flow_of_ends hends
    obtain ⟨ans, hm⟩ := h (.lock j)
    cases hs.coherent.data i f hf with
    | free _ hfree _ _ =>
      simp [move, loopStep, ReadLoop.step, ReadLoop.appendStep, hr, hpc, hf, hfree] at hm
    | held _ _ hr' hpc' _ _ => exact absurd hpc' (h.not_writing hr')

theorem reading (hs : Settled s) (hlive : s.ended = none) : s.loop.pc = .reading := by
  rcases h.handler with hh | hh
  · cases hpc : s.loop.pc with
    | reading => rfl
    | checking f x =>
      obtain ⟨ans, hm⟩ := h .contains
      simp [move, loopStep, ReadLoop.step, ReadLoop.readStep, hpc, h.mutex hs] at hm
    | appending f x =>
      obtain ⟨ans, hm⟩ := h .append
      simp [move, loopStep, ReadLoop.step, ReadLoop.readStep, hpc, h.mutex hs] at hm
    | starting f x =>
      obtain ⟨ans, hm⟩ := h .go
      simp [move, loopStep, ReadLoop.step, ReadLoop.readStep, hpc, hh] at hm
    | panicked e =>
      have hnone := hs.unbroken hlive
      rw [ReadLoop.panicked, hpc] at hnone
      cases hnone
  · exact hs.finished (.inr hh)

theorem atRest (hs : Settled s) (hlive : s.ended = none) : AtRest s where
  reading := h.reading hs hlive
  routines := h.routines hs
  handler := h.handler
  newData := h.newData hs
  graphs := h.graphs hs
  refreshes := h.refreshes
  redraw := h.redraw
  timer := h.timer
  keyboard := h.keyboard hs
  list := h.list
  details := h.details
  text := h.text
  charts := h.charts

end Stuck

/-- Something can go on, whatever the clock and the eligibility checks say. -/
theorem Settled.onward (hs : Settled s) (hlive : s.ended = none) (hrest : ¬ AtRest s) :
    ∃ m, ∀ ans, (s.step os cv (.move m ans)).isSome := by
  by_contra hall
  have hstuck : Stuck os cv s → False := fun hstuck => hrest (hstuck.atRest hs hlive)
  refine hstuck fun m => ?_
  by_contra hne
  refine hall ⟨m, fun ans => ?_⟩
  rw [step, if_pos hlive, liveStep, Option.isSome_map, Option.isSome_iff_ne_none]
  exact fun hnone => hne ⟨ans, hnone⟩

end PipeUI

end Jens
