import Jens.Flowdata.Correct.ReadFromLine
import Jens.Flowdata.Correct.ReadLoop

/-!
# The data points under every schedule

A goroutine is started after its flow is there, so `get` finds it; and as the data of a flow have a
mutex, their columns are those of the goroutines that are done, with at most one more data point
that is being written (`Coherent`).  With what holds of the flows that gives `flows_and_data`.

A flow is made with seven columns of 8192 numbers, so `2 ^ 31` of them are beyond any memory, and
their ids do not overflow.
-/

namespace Jens.ReadLoop

open Steps

variable {os : Os} {cv : F64 → Int64} {s t : ReadLoop}

/-! ### The data points -/

/-- The data point of a goroutine that is done and had a flow with these ends. -/
def donePoint (e : NetEndPoint × NetEndPoint) (r : AppendRoutine) : Option DataPoint :=
  if r.pc = .done ∧ r.f.ends = e then some r.x else none

/-- The columns of the flow `v` at place `i`: nobody has their mutex, or one goroutine does. -/
inductive DataAt (rs : List AppendRoutine) (i : ℕ) (v : FlowT) : Prop
  | free {ps : List DataPoint} : ps.Perm (rs.filterMap (donePoint v.ends)) → v.d.mutex = false →
      v.d.Holds ps → (∀ r ∈ rs, ∀ rest, r.pc ≠ .writing i rest) → DataAt rs i v
  | held {ps : List DataPoint} {j : ℕ} {r : AppendRoutine} {rest : List AppendStmt} :
      ps.Perm (rs.filterMap (donePoint v.ends)) → v.d.mutex = true → rs[j]? = some r →
      r.pc = .writing i rest → v.d.Writing ps r.x rest →
      (∀ k u rest', rs[k]? = some u → u.pc = .writing i rest' → k = j) → DataAt rs i v

/-- The invariant of the goroutines that append. -/
structure Coherent (s : ReadLoop) : Prop where
  unique : UniqueBy FlowT.ends s.man.flows
  member : ∀ r ∈ s.routines, r.f.ends ∈ s.man.ends
  got : ∀ r ∈ s.routines, ∀ v, r.pc = .got v →
    ∃ i, v = some i ∧ s.man.ends[i]? = some r.f.ends
  writing : ∀ r ∈ s.routines, ∀ i rest, r.pc = .writing i rest →
    s.man.ends[i]? = some r.f.ends ∧ rest <:+ FlowDatapointsT.appendBody
  data : ∀ i v, s.man.flows[i]? = some v → DataAt s.routines i v

theorem coherent_init : Coherent init where
  unique := .nil _
  member _ h := by cases h
  got _ h := by cases h
  writing _ h := by cases h
  data i v h := by cases h

variable {j i : ℕ} {r : AppendRoutine} {v : FlowT} {pc : AppendPc}

theorem routines_setPc (s : ReadLoop) (j : ℕ) (pc : AppendPc) :
    (s.setPc j pc).routines = s.routines.modify j fun r => { r with pc := pc } := rfl

theorem getElem?_routines_setPc_self (hr : s.routines[j]? = some r) :
    (s.setPc j pc).routines[j]? = some { r with pc := pc } := by
  simp [routines_setPc, hr]

theorem getElem?_routines_setPc_of_ne {k : ℕ} (h : j ≠ k) :
    (s.setPc j pc).routines[k]? = s.routines[k]? := by
  simp [routines_setPc, h]

theorem mem_routines_setPc (hr : s.routines[j]? = some r) {u : AppendRoutine}
    (hu : u ∈ (s.setPc j pc).routines) : u ∈ s.routines ∨ u = { r with pc := pc } :=
  List.mem_or_eq_of_mem_modify hr hu

/-- A goroutine that goes on without being done, or that has another flow. -/
theorem donePoints_setPc (e : NetEndPoint × NetEndPoint) (hr : s.routines[j]? = some r)
    (hold : r.pc ≠ .done) (h : pc ≠ .done ∨ r.f.ends ≠ e) :
    (s.setPc j pc).routines.filterMap (donePoint e) = s.routines.filterMap (donePoint e) := by
  apply List.filterMap_modify_of_eq hr
  rcases h with h | h <;> simp [donePoint, hold, h]

/-- A goroutine that is done now. -/
theorem donePoints_setPc_done (hr : s.routines[j]? = some r) (hold : r.pc ≠ .done) :
    ((s.setPc j .done).routines.filterMap (donePoint r.f.ends)).Perm
      (s.routines.filterMap (donePoint r.f.ends) ++ [r.x]) := by
  refine List.perm_filterMap_modify hr ?_ ?_ <;> simp [donePoint, hold]

/-- A step of a goroutine that neither holds nor gets the mutex of this flow. -/
theorem DataAt.setPc (h : DataAt s.routines i v) (hr : s.routines[j]? = some r)
    (hold : ∀ rest, r.pc ≠ .writing i rest) (hnew : ∀ rest, pc ≠ .writing i rest)
    (hdone : (s.setPc j pc).routines.filterMap (donePoint v.ends) =
      s.routines.filterMap (donePoint v.ends)) : DataAt (s.setPc j pc).routines i v := by
  cases h with
  | free hps hmutex hholds hnone =>
    refine .free (hdone ▸ hps) hmutex hholds fun u hu rest => ?_
    rcases mem_routines_setPc hr hu with hu | rfl
    · exact hnone u hu rest
    · exact hnew rest
  | @held ps k u rest hps hmutex hu hpc hwriting honly =>
    have hjk : j ≠ k := by
      rintro rfl
      rw [hr] at hu
      exact hold rest (Option.some.inj hu ▸ hpc)
    refine .held (hdone ▸ hps) hmutex ((getElem?_routines_setPc_of_ne hjk).trans hu) hpc hwriting ?_
    intro l w rest' hw hwpc
    by_cases hjl : j = l
    · rw [← hjl, getElem?_routines_setPc_self hr] at hw
      rw [← Option.some.inj hw] at hwpc
      exact absurd hwpc (hnew rest')
    · rw [getElem?_routines_setPc_of_ne hjl] at hw
      exact honly l w rest' hw hwpc

/-- The goroutine `j` takes the mutex. -/
theorem DataAt.lock (h : DataAt s.routines i v) (hr : s.routines[j]? = some r)
    (hpc : r.pc = .got (some i)) (hmutex : v.d.mutex = false) :
    DataAt (s.setPc j (.writing i FlowDatapointsT.appendBody)).routines i
      { v with d := { v.d with mutex := true } } := by
  have hdone := donePoints_setPc v.ends hr (by rw [hpc]; simp)
    (.inl (show AppendPc.writing i FlowDatapointsT.appendBody ≠ .done by simp))
  cases h with
  | held _ htrue =>
    rw [hmutex] at htrue
    cases htrue
  | free hps _ hholds hnone =>
    have hwriting := hholds.writing (x := r.x)
    refine .held (hdone ▸ hps) rfl (getElem?_routines_setPc_self hr) rfl
      ⟨hwriting.timeStamp, hwriting.sojourn, hwriting.load, hwriting.ecn, hwriting.dropp,
        hwriting.delay, hwriting.capacity⟩ ?_
    intro k u rest hu hupc
    by_contra hjk
    rw [getElem?_routines_setPc_of_ne (Ne.symm hjk)] at hu
    exact hnone u (List.mem_of_getElem? hu) rest hupc

/-- The one goroutine that has the mutex. -/
theorem DataAt.of_writing {rs : List AppendRoutine} {rest : List AppendStmt} (h : DataAt rs i v)
    (hr : rs[j]? = some r) (hpc : r.pc = .writing i rest) :
    ∃ ps : List DataPoint, ps.Perm (rs.filterMap (donePoint v.ends)) ∧ v.d.mutex = true ∧
      v.d.Writing ps r.x rest ∧
      ∀ k u rest', rs[k]? = some u → u.pc = .writing i rest' → k = j := by
  cases h with
  | free _ _ _ hnone => exact absurd hpc (hnone r (List.mem_of_getElem? hr) rest)
  | @held ps k u rest' hps hmutex hu hupc hwriting honly =>
    have hjk : j = k := honly j r rest hr hpc
    rw [← hjk, hr] at hu
    have hru : r = u := Option.some.inj hu
    rw [← hru] at hupc hwriting
    have hrest : rest = rest' := by
      rw [hpc] at hupc
      injection hupc
    rw [← hrest] at hwriting
    rw [← hjk] at honly
    exact ⟨ps, hps, hmutex, hwriting, honly⟩

/-- It performs a statement. -/
theorem DataAt.stmt {stmt : AppendStmt} {rest : List AppendStmt} {now : Int64}
    (h : DataAt s.routines i v) (hr : s.routines[j]? = some r)
    (hpc : r.pc = .writing i (stmt :: rest)) (hstmt : stmt ∉ rest) :
    DataAt (s.setPc j (.writing i rest)).routines i { v with d := v.d.exec cv now r.x stmt } := by
  have hdone := donePoints_setPc v.ends hr (by rw [hpc]; simp)
    (.inl (show AppendPc.writing i rest ≠ .done by simp))
  obtain ⟨ps, hps, hmutex, hwriting, honly⟩ := h.of_writing hr hpc
  refine .held (hdone ▸ hps) ?_ (getElem?_routines_setPc_self hr) rfl (hwriting.exec hstmt) ?_
  · rw [← hmutex]
    exact FlowDatapointsT.mutex_exec ..
  · intro k u rest' hu hupc
    by_contra hjk
    rw [getElem?_routines_setPc_of_ne (Ne.symm hjk)] at hu
    exact hjk (honly k u rest' hu hupc)

/-- It gives the mutex back. -/
theorem DataAt.unlock (h : DataAt s.routines i v) (hr : s.routines[j]? = some r)
    (hpc : r.pc = .writing i []) (hends : r.f.ends = v.ends) :
    DataAt (s.setPc j .done).routines i { v with d := { v.d with mutex := false } } := by
  have hdone := donePoints_setPc_done hr (by rw [hpc]; simp)
  obtain ⟨ps, hps, -, hwriting, honly⟩ := h.of_writing hr hpc
  have hholds := hwriting.holds
  rw [hends] at hdone
  refine .free ((hps.append_right [r.x]).trans hdone.symm) rfl
    ⟨hholds.timeStamp, hholds.sojourn, hholds.load, hholds.ecn, hholds.dropp, hholds.delay,
      hholds.capacity⟩ ?_
  intro u hu rest hupc
  obtain ⟨k, hk⟩ := List.mem_iff_getElem?.mp hu
  by_cases hjk : j = k
  · rw [← hjk, getElem?_routines_setPc_self hr] at hk
    rw [← Option.some.inj hk] at hupc
    cases hupc
  · rw [getElem?_routines_setPc_of_ne hjk] at hk
    exact hjk (honly k u rest hk hupc).symm

/-- The invariant after a step of the goroutine `j`. -/
theorem Coherent.goOn (h : Coherent s) (hr : s.routines[j]? = some r) {man : FlowManager}
    (hends : man.ends = s.man.ends)
    (hgot : ∀ v, pc = .got v → ∃ i, v = some i ∧ s.man.ends[i]? = some r.f.ends)
    (hwriting : ∀ i rest, pc = .writing i rest →
      s.man.ends[i]? = some r.f.ends ∧ rest <:+ FlowDatapointsT.appendBody)
    (hdata : ∀ i v, man.flows[i]? = some v → DataAt (s.setPc j pc).routines i v) :
    Coherent ({ s with man := man }.setPc j pc) := by
  have hmem : r ∈ s.routines := List.mem_of_getElem? hr
  have hcases {u : AppendRoutine} (hu : u ∈ ({ s with man := man }.setPc j pc).routines) :
      u ∈ s.routines ∨ u = { r with pc := pc } := List.mem_or_eq_of_mem_modify hr hu
  refine ⟨?_, ?_, ?_, ?_, hdata⟩
  · show man.ends.Nodup
    rw [hends]
    exact h.unique
  · intro u hu
    show u.f.ends ∈ man.ends
    rw [hends]
    rcases hcases hu with hu | rfl
    · exact h.member u hu
    · exact h.member r hmem
  · intro u hu v hv
    show ∃ i, v = some i ∧ man.ends[i]? = some u.f.ends
    rw [hends]
    rcases hcases hu with hu | rfl
    · exact h.got u hu v hv
    · exact hgot v hv
  · intro u hu i rest hpc
    show man.ends[i]? = some u.f.ends ∧ _
    rw [hends]
    rcases hcases hu with hu | rfl
    · exact h.writing u hu i rest hpc
    · exact hwriting i rest hpc

/-- A goroutine changes the data of its flow `v` at place `i`; those of the others stay. -/
theorem Coherent.dataAt_modify (h : Coherent s) (hr : s.routines[j]? = some r)
    (hv : s.man.flows[i]? = some v) {g : FlowDatapointsT → FlowDatapointsT} (hne : r.pc ≠ .done)
    (hends : r.f.ends = v.ends) (hold : ∀ k rest, r.pc = .writing k rest → k = i)
    (hnew : ∀ k rest, pc = .writing k rest → k = i)
    (hthis : DataAt (s.setPc j pc).routines i { v with d := g v.d }) :
    ∀ k u, (s.man.modify i g).flows[k]? = some u → DataAt (s.setPc j pc).routines k u := by
  intro k u hu
  by_cases hik : i = k
  · rw [← hik, FlowManager.getElem?_modify_self hv] at hu
    rw [← hik, ← Option.some.inj hu]
    exact hthis
  · rw [FlowManager.getElem?_modify_of_ne hik] at hu
    have hother : r.f.ends ≠ u.ends := fun heq =>
      hik (FlowManager.eq_of_ends_eq h.unique hv hu (hends.symm.trans heq))
    exact (h.data k u hu).setPc hr (fun rest hpc => hik (hold k rest hpc).symm)
      (fun rest hpc => hik (hnew k rest hpc).symm) (donePoints_setPc _ hr hne (.inr hother))

/-- A goroutine that has found its flow or writes to it. -/
theorem exists_flow_of_ends {e : NetEndPoint × NetEndPoint} (h : s.man.ends[i]? = some e) :
    ∃ v, s.man.flows[i]? = some v ∧ e = v.ends := by
  rw [FlowManager.ends, List.getElem?_map, Option.map_eq_some_iff] at h
  obtain ⟨v, hv, heq⟩ := h
  exact ⟨v, hv, heq.symm⟩

/-- A new flow has no data points, and nobody writes to it. -/
theorem DataAt.new {rs : List AppendRoutine} (hmember : ∀ r ∈ rs, r.f.ends ≠ v.ends)
    (hwriting : ∀ r ∈ rs, ∀ rest, r.pc ≠ .writing i rest) (hd : v.d = newFlowDataPoints) :
    DataAt rs i v := by
  have hnone : rs.filterMap (donePoint v.ends) = [] := by
    apply List.filterMap_eq_nil_iff.mpr
    intro r hr
    simp [donePoint, hmember r hr]
  have hholds : v.d.Holds [] := by
    rw [hd]
    exact FlowDatapointsT.holds_new
  exact .free (hnone ▸ List.Perm.refl []) (by rw [hd]; rfl) hholds hwriting

/-- A goroutine that has just been started. -/
theorem DataAt.go {rs : List AppendRoutine} {u : AppendRoutine} (h : DataAt rs i v)
    (hu : u.pc = .started) : DataAt (rs ++ [u]) i v := by
  have hdone : (rs ++ [u]).filterMap (donePoint v.ends) = rs.filterMap (donePoint v.ends) := by
    have hnone : donePoint v.ends u = none := by simp [donePoint, hu]
    rw [List.filterMap_append, List.filterMap_cons_none hnone]
    exact List.append_nil _
  have hcases {k : ℕ} {w : AppendRoutine} {rest : List AppendStmt} (hw : (rs ++ [u])[k]? = some w)
      (hpc : w.pc = .writing i rest) : rs[k]? = some w := by
    rcases List.getElem?_concat_eq_some hw with hw | ⟨-, hw⟩
    · exact hw
    · rw [hw, hu] at hpc
      cases hpc
  cases h with
  | free hps hmutex hholds hnone =>
    refine .free (hdone ▸ hps) hmutex hholds fun w hw rest hpc => ?_
    obtain ⟨k, hk⟩ := List.mem_iff_getElem?.mp hw
    exact hnone w (List.mem_of_getElem? (hcases hk hpc)) rest hpc
  | held hps hmutex hr hpc hwriting honly =>
    refine .held (hdone ▸ hps) hmutex ?_ hpc hwriting fun k w rest' hw hwpc =>
      honly k w rest' (hcases hw hwpc) hwpc
    rw [List.getElem?_append_left (List.getElem?_eq_some_iff.mp hr).1, hr]

/-- A new flow, which no goroutine is for yet. -/
theorem Coherent.append (h : Coherent s) {f : FlowT} (hnew : f.ends ∉ s.man.ends)
    (hd : f.d = newFlowDataPoints) (pc : ReadPc) :
    Coherent { s with man := s.man.append f, pc := pc } := by
  have hends : (s.man.append f).ends = s.man.ends ++ [f.ends] := FlowManager.ends_append ..
  have hkeep {k : ℕ} {e : NetEndPoint × NetEndPoint} (hk : s.man.ends[k]? = some e) :
      (s.man.append f).ends[k]? = some e := by
    rw [hends, List.getElem?_append_left (List.getElem?_eq_some_iff.mp hk).1, hk]
  refine ⟨?_, ?_, ?_, ?_, ?_⟩
  · show (s.man.append f).ends.Nodup
    rw [hends, ← List.concat_eq_append, List.nodup_concat]
    exact ⟨hnew, h.unique⟩
  · intro r hr
    show r.f.ends ∈ (s.man.append f).ends
    rw [hends]
    exact List.mem_append_left _ (h.member r hr)
  · intro r hr v hv
    obtain ⟨i, hi, hget⟩ := h.got r hr v hv
    exact ⟨i, hi, hkeep hget⟩
  · intro r hr i rest hpc
    obtain ⟨hget, hrest⟩ := h.writing r hr i rest hpc
    exact ⟨hkeep hget, hrest⟩
  · intro i v hv
    rcases List.getElem?_concat_eq_some hv with hv | ⟨hi, hv⟩
    · exact h.data i v hv
    · have hvends : v.ends = f.ends := by
        rw [hv]
        rfl
      refine .new (fun r hr heq => hnew ?_) (fun r hr rest hpc => ?_) ?_
      · rw [← hvends, ← heq]
        exact h.member r hr
      · have hlt := (List.getElem?_eq_some_iff.mp (h.writing r hr i rest hpc).1).1
        rw [hi, FlowManager.ends, List.length_map] at hlt
        exact Nat.lt_irrefl _ hlt
      · rw [hv]
        exact hd

/-- A new goroutine for a flow that is there. -/
theorem Coherent.go (h : Coherent s) {f : FlowT} (hmem : f.ends ∈ s.man.ends) (x : DataPoint)
    (pc : ReadPc) :
    Coherent { s with pc := pc, routines := s.routines ++ [⟨f, x, .started⟩] } := by
  have hcases {r : AppendRoutine} (hr : r ∈ s.routines ++ [⟨f, x, .started⟩]) :
      r ∈ s.routines ∨ r = ⟨f, x, .started⟩ := by simpa using hr
  refine ⟨h.unique, ?_, ?_, ?_, fun i v hv => (h.data i v hv).go rfl⟩
  · intro r hr
    rcases hcases hr with hr | rfl
    · exact h.member r hr
    · exact hmem
  · intro r hr v hv
    rcases hcases hr with hr | rfl
    · exact h.got r hr v hv
    · cases hv
  · intro r hr i rest hrpc
    rcases hcases hr with hr | rfl
    · exact h.writing r hr i rest hrpc
    · cases hrpc

/-- The flow that a goroutine writes to. -/
theorem writing_inj {k : ℕ} {rest rest' : List AppendStmt}
    (h : AppendPc.writing i rest = .writing k rest') : k = i ∧ rest' = rest := by
  injection h with hk hrest
  exact ⟨hk.symm, hrest.symm⟩

theorem coherent_of_moves {acts : List ReadAction} {a : ReadAction} (hreg : Registered os acts s)
    (h : Coherent s) (hm : Moves os cv s a t) : Coherent t := by
  cases hm with
  | skip | line | panics | found | missing => exact ⟨h.unique, h.member, h.got, h.writing, h.data⟩
  | @append f x hpc =>
    exact h.append (hreg.missing f x hpc) (hreg.fresh (f, x) (hpc ▸ List.mem_singleton_self _)) _
  | @go f x hpc =>
    have hmem : f.ends ∈ s.man.ends := by
      rw [hreg.ends, hpc, mem_firstEnds]
      exact ⟨(f, x), List.mem_append_right _ (List.mem_singleton_self _), rfl⟩
    exact h.go hmem x _
  | @get j r hr hpc =>
    have hmem : r ∈ s.routines := List.mem_of_getElem? hr
    obtain ⟨i, v, hget, hv, hends⟩ := FlowManager.get_of_mem (h.member r hmem)
    refine h.goOn hr rfl ?_ (by simp) fun k u hu => ?_
    · intro v' hv'
      have heq : s.man.get r.f = v' := by injection hv'
      refine ⟨i, heq ▸ hget, ?_⟩
      rw [← hends]
      exact FlowManager.getElem?_ends hv
    · exact (h.data k u hu).setPc hr (by simp [hpc]) (by simp)
        (donePoints_setPc _ hr (by simp [hpc]) (.inl (by simp)))
  | @lock j i r v hr hpc hv hmutex =>
    have hmem : r ∈ s.routines := List.mem_of_getElem? hr
    obtain ⟨k, hk, hget⟩ := h.got r hmem _ hpc
    obtain rfl : i = k := by injection hk
    have hends : r.f.ends = v.ends :=
      Option.some.inj (hget.symm.trans (FlowManager.getElem?_ends hv))
    refine h.goOn hr FlowManager.ends_modify (by simp) ?_ ?_
    · intro k rest hk
      obtain ⟨rfl, rfl⟩ := writing_inj hk
      exact ⟨hget, List.suffix_rfl⟩
    · exact h.dataAt_modify hr hv (by simp [hpc]) hends (by simp [hpc])
        (fun k rest hk => (writing_inj hk).1) ((h.data i v hv).lock hr hpc hmutex)
  | @stmt j i r stmt rest now hr hpc =>
    have hmem : r ∈ s.routines := List.mem_of_getElem? hr
    obtain ⟨hget, hsuffix⟩ := h.writing r hmem i _ hpc
    obtain ⟨v, hv, hends⟩ := exists_flow_of_ends hget
    have hnodup : (stmt :: rest).Nodup := hsuffix.sublist.nodup (by decide)
    refine h.goOn hr FlowManager.ends_modify (by simp) ?_ ?_
    · intro k rest' hk
      obtain ⟨rfl, rfl⟩ := writing_inj hk
      exact ⟨hget, (List.suffix_cons stmt _).trans hsuffix⟩
    · exact h.dataAt_modify hr hv (by simp [hpc]) hends
        (fun k rest' hk => (writing_inj (hpc.symm.trans hk)).1)
        (fun k rest' hk => (writing_inj hk).1)
        ((h.data i v hv).stmt hr hpc (List.nodup_cons.mp hnodup).1)
  | @unlock j i r hr hpc =>
    have hmem : r ∈ s.routines := List.mem_of_getElem? hr
    obtain ⟨hget, -⟩ := h.writing r hmem i _ hpc
    obtain ⟨v, hv, hends⟩ := exists_flow_of_ends hget
    refine h.goOn hr FlowManager.ends_modify (by simp) (by simp) ?_
    exact h.dataAt_modify hr hv (by simp [hpc]) hends
      (fun k rest hk => (writing_inj (hpc.symm.trans hk)).1) (by simp)
      ((h.data i v hv).unlock hr hpc hends)

/-! ### Runs -/

theorem invariants_of_run {acts : List ReadAction} (hrun : run (step os cv) init acts = some s) :
    Registered os acts s ∧ Coherent s := by
  refine run_trace_invariant (I := fun acts s => Registered os acts s ∧ Coherent s) ?_
    ⟨registered_init, coherent_init⟩ hrun
  intro as s a t h hstep
  have hm := moves_of_step hstep
  exact ⟨registered_of_moves h.1 hm, coherent_of_moves h.1 h.2 hm⟩

/-- The data points of the measurements of a flow. -/
def pointsOf (e : NetEndPoint × NetEndPoint) (qs : List (FlowT × DataPoint)) : List DataPoint :=
  qs.filterMap fun q => if q.1.ends = e then some q.2 else none

/-- What holds of the flows after the steps `acts`. -/
structure FlowsAndData (os : Os) (acts : List ReadAction) (s : ReadLoop) : Prop where
  /-- There is one flow for the two ends of each measurement seen so far, in the order they were
  first seen in.  The one that is just being looked for is not counted yet. -/
  flows : ∃ seen, s.man.ends = (seen.map fun q => q.1.ends).eraseDups ∧
    (measurements os acts = seen ∨
      (∃ f x, s.pc = .checking f x ∨ s.pc = .appending f x) ∧
        ∃ q, measurements os acts = seen ++ [q])
  /-- The ids count the flows in 32 bits, -/
  flowId : ∀ i v, s.man.flows[i]? = some v → v.flowId = Int32.ofNat (i + 1)
  /-- so they are 1, 2, … for fewer than `2 ^ 31` flows, far more than a memory can hold. -/
  flowId_toInt : s.man.flows.length < 2 ^ 31 →
    ∀ (i : ℕ) (v : FlowT), s.man.flows[i]? = some v → v.flowId.toInt = (i : ℤ) + 1
  /-- No goroutine finds its flow missing. -/
  found : ∀ r ∈ s.routines, r.pc ≠ .got none
  /-- The columns of a flow that nobody is appending to have one length. -/
  inSync : ∀ v ∈ s.man.flows, v.d.mutex = false → v.d.InSync
  /-- When all goroutines are done, a flow has the data points of its measurements. -/
  conserved : s.pc = .reading → (∀ r ∈ s.routines, r.pc = .done) → ∀ v ∈ s.man.flows,
    ∃ ps, v.d.Holds ps ∧ ps.Perm (pointsOf v.ends (measurements os acts))

theorem Registered.flows {acts : List ReadAction} (h : Registered os acts s) :
    ∃ seen, s.man.ends = (seen.map fun q => q.1.ends).eraseDups ∧
      (measurements os acts = seen ∨ (∃ f x, s.pc = .checking f x ∨ s.pc = .appending f x) ∧
        ∃ q, measurements os acts = seen ++ [q]) := by
  refine ⟨s.started ++ foundAt s.pc, h.ends, ?_⟩
  have hread := h.read
  cases hpc : s.pc with
  | reading | starting | panicked =>
    rw [hpc] at hread
    exact .inl hread
  | checking f x =>
    rw [hpc] at hread
    exact .inr ⟨⟨f, x, .inl rfl⟩, (f, x), by rw [hread, foundAt, List.append_nil]; rfl⟩
  | appending f x =>
    rw [hpc] at hread
    exact .inr ⟨⟨f, x, .inr rfl⟩, (f, x), by rw [hread, foundAt, List.append_nil]; rfl⟩

/-- The columns of a flow that nobody is appending to. -/
theorem Coherent.holds (h : Coherent s) (hv : v ∈ s.man.flows) (hmutex : v.d.mutex = false) :
    ∃ ps, v.d.Holds ps ∧ ps.Perm (s.routines.filterMap (donePoint v.ends)) := by
  obtain ⟨i, hi⟩ := List.mem_iff_getElem?.mp hv
  cases h.data i v hi with
  | @free ps hps _ hholds => exact ⟨ps, hholds, hps⟩
  | held _ htrue =>
    rw [hmutex] at htrue
    cases htrue

/-- When all goroutines are done, nobody is appending. -/
theorem Coherent.mutex_of_done (h : Coherent s) (hdone : ∀ r ∈ s.routines, r.pc = .done)
    (hv : v ∈ s.man.flows) : v.d.mutex = false := by
  obtain ⟨i, hi⟩ := List.mem_iff_getElem?.mp hv
  cases h.data i v hi with
  | free _ hfree => exact hfree
  | held _ _ hr hpc =>
    rw [hdone _ (List.mem_of_getElem? hr)] at hpc
    cases hpc

theorem donePoints_of_done {e : NetEndPoint × NetEndPoint}
    (hdone : ∀ r ∈ s.routines, r.pc = .done) :
    s.routines.filterMap (donePoint e) = pointsOf e s.started := by
  rw [pointsOf, started, List.filterMap_map]
  apply List.filterMap_congr
  intro r hr
  simp [donePoint, hdone r hr]

/-- **In every run, under every schedule, the flows are those of the lines, and they lose no data.**
-/
theorem flows_and_data {acts : List ReadAction} (hrun : run (step os cv) init acts = some s) :
    FlowsAndData os acts s := by
  obtain ⟨hreg, hcoh⟩ := invariants_of_run hrun
  refine ⟨hreg.flows, hreg.flowId, ?_, ?_, ?_, ?_⟩
  · intro hlen i v hv
    have hlt := (List.getElem?_eq_some_iff.mp hv).1
    rw [hreg.flowId i v hv, Int32.toInt_ofNat_of_lt (by omega)]
    rfl
  · intro r hr hpc
    obtain ⟨i, hi, -⟩ := hcoh.got r hr none hpc
    cases hi
  · intro v hv hmutex
    obtain ⟨ps, hholds, -⟩ := hcoh.holds hv hmutex
    exact hholds.inSync
  · intro hpc hdone v hv
    obtain ⟨ps, hholds, hps⟩ := hcoh.holds hv (hcoh.mutex_of_done hdone hv)
    have hread : measurements os acts = s.started := by
      rw [hreg.read, hpc]
      exact List.append_nil _
    rw [donePoints_of_done hdone, ← hread] at hps
    exact ⟨ps, hholds, hps⟩

/-- Two lines of one flow are read. -/
def twoLines : List ReadAction :=
  [.line "1 2 3 4 5 6 7 a:1-b:2", .contains, .append, .go,
    .line "2 2 3 4 5 6 7 a:1-b:2", .contains, .go]

/-- The second of two lines is appended first. -/
theorem flows_and_data_twoLines :
    ∃ s, run (step numbersOs fun _ => 0) init
        (twoLines ++ [.get 1, .lock 1, .stmt 1 9, .get 0]) = some s ∧
      FlowsAndData numbersOs (twoLines ++ [.get 1, .lock 1, .stmt 1 9, .get 0]) s := by
  have hsome : (run (step numbersOs fun _ => 0) init
      (twoLines ++ [.get 1, .lock 1, .stmt 1 9, .get 0])).isSome = true := by decide +kernel
  obtain ⟨s, hs⟩ := Option.isSome_iff_exists.mp hsome
  exact ⟨s, hs, flows_and_data hs⟩

/-! ### As many flows as one likes -/

/-- A line of a flow that is not there. -/
theorem run_line (cv : F64 → Int64) {line : String} {f : FlowT} {x : DataPoint}
    (hparse : parseLine os line = .ok (.measurement f x)) (hpc : s.pc = .reading)
    (hmem : f.ends ∉ s.man.ends) :
    ∃ t, run (step os cv) s [.line line, .contains, .append, .go] = some t ∧ t.pc = .reading ∧
      t.man.ends = s.man.ends ++ [f.ends] := by
  have hcon : s.man.contains f = false := by
    rw [← Bool.not_eq_true]
    exact fun h => hmem (FlowManager.contains_iff.mp h)
  obtain ⟨man, pc, routines⟩ := s
  obtain rfl : pc = .reading := hpc
  refine ⟨⟨man.append f, .reading, routines ++ [⟨f, x, .started⟩]⟩, ?_, rfl,
    FlowManager.ends_append man f⟩
  simp only [run, step, readStep, hparse, Option.bind_some]
  rw [hcon]
  rfl

/-- The lines of different flows. -/
theorem exists_run_of_lines (cv : F64 → Int64) {line : ℕ → String} {f : ℕ → FlowT}
    {x : ℕ → DataPoint} {n : ℕ}
    (hparse : ∀ i < n, parseLine os (line i) = .ok (.measurement (f i) (x i)))
    (hne : ∀ i < n, ∀ k < i, (f k).ends ≠ (f i).ends) :
    ∃ acts s, run (step os cv) init acts = some s ∧ s.pc = .reading ∧
      s.man.ends = (List.range n).map fun i => (f i).ends := by
  induction n with
  | zero => exact ⟨[], init, rfl, rfl, rfl⟩
  | succ n ih =>
    obtain ⟨acts, s, hrun, hpc, hends⟩ := ih (fun i hi => hparse i (Nat.lt_succ_of_lt hi))
      fun i hi => hne i (Nat.lt_succ_of_lt hi)
    have hmem : (f n).ends ∉ s.man.ends := by
      rw [hends]
      intro h
      obtain ⟨k, hk, heq⟩ := List.mem_map.mp h
      exact hne n (Nat.lt_succ_self n) k (List.mem_range.mp hk) heq
    obtain ⟨t, hline, htpc, htends⟩ :=
      run_line cv (hparse n (Nat.lt_succ_self n)) hpc hmem
    refine ⟨acts ++ _, t, run_append_eq_some.mpr ⟨s, hrun, hline⟩, htpc, ?_⟩
    rw [htends, hends, List.range_succ, List.map_append]
    rfl

/-- The flow from port `i` of a host. -/
def portFlow (i : ℕ) : FlowT where
  d := newFlowDataPoints
  src := ⟨"a", i⟩
  dst := ⟨"b", 0⟩
  flowId := 0
  prio := 7

/-- A line of that flow. -/
def portLine (i : ℕ) : String :=
  " ".intercalate ["1", "2", "3", "4", "5", "6", "7", "a:" ++ toString i ++ "-b:0"]

theorem newFlow_port {i : ℕ} (h : i < 2 ^ 31) :
    newFlow ("a:" ++ toString i) "b:0" "7" = .ok (portFlow i) := by
  have hsrc : newNetEndPointFromString ("a:" ++ toString i) = .ok (some ⟨"a", i⟩) := by
    have hlist : ("a:" ++ toString i).toList = "a".toList ++ ':' :: (toString i).toList :=
      String.toList_append
    have hsplit : split ("a:" ++ toString i) ':' = ["a", toString i] := by
      apply split_of_splitOn
      rw [hlist]
      exact Text.splitOn_pair (by decide) (Text.notMem_toString_nat rfl i)
    rw [newNetEndPointFromString, hsplit]
    dsimp only
    rw [parseInt_toString h]
  have hdst : newNetEndPointFromString "b:0" = .ok (some ⟨"b", 0⟩) := by decide +kernel
  have hprio : atoi "7" = some 7 := by decide +kernel
  rw [newFlow, hsrc, hdst, hprio]
  rfl

/-- The data point of each of these lines. -/
def portPoint (os : Os) : DataPoint where
  ts := parseFloat os "1"
  sj := parseFloat os "2"
  ld := parseFloat os "3"
  ec := parseFloat os "5"
  dr := parseFloat os "6"
  cap := parseFloat os "4"

theorem parseLine_portLine (os : Os) {i : ℕ} (h : i < 2 ^ 31) :
    parseLine os (portLine i) = .ok (.measurement (portFlow i) (portPoint os)) := by
  have hdigit (c : Char) (hc : c.isDigit = false) : c ∉ (toString i).toList :=
    Text.notMem_toString_nat hc i
  have hnetw : ("a:" ++ toString i ++ "-b:0").toList =
      ("a:" ++ toString i).toList ++ '-' :: "b:0".toList := String.toList_append
  have hsrc {c : Char} (hc : c.isDigit = false) (hlit : c ∉ "a:".toList) :
      c ∉ ("a:" ++ toString i).toList := by
    rw [String.toList_append, List.mem_append, not_or]
    exact ⟨hlit, hdigit c hc⟩
  have hblank : ∀ field ∈ ["1", "2", "3", "4", "5", "6", "7", "a:" ++ toString i ++ "-b:0"],
      ' ' ∉ field.toList := by
    have hlast : ' ' ∉ ("a:" ++ toString i ++ "-b:0").toList := by
      rw [hnetw, List.mem_append, not_or]
      exact ⟨hsrc rfl (by decide), by decide⟩
    simp only [List.forall_mem_cons, hlast]
    decide
  have hfields : split (portLine i) ' ' =
      ["1", "2", "3", "4", "5", "6", "7", "a:" ++ toString i ++ "-b:0"] := by
    apply split_of_splitOn
    rw [portLine, String.toList_intercalate]
    exact List.splitOn_intercalate ' ' (by simpa using hblank) (by simp)
  have hends : split ("a:" ++ toString i ++ "-b:0") '-' = ["a:" ++ toString i, "b:0"] := by
    apply split_of_splitOn
    rw [hnetw]
    exact Text.splitOn_pair (hsrc rfl (by decide)) (by decide)
  have hfirst : ∃ rest, (portLine i).toList = '1' :: rest := by
    rw [portLine, String.intercalate_cons_cons, String.toList_append, String.toList_append]
    exact ⟨_, rfl⟩
  obtain ⟨rest, hrest⟩ := hfirst
  have hhttp := not_http_of_isDigit hrest rfl
  exact parseLine_of_split os hhttp hfields hends (newFlow_port h)

/-- The bound of `flowId_toInt` is sharp: here, where the memory has no end, the flow of the line
`2 ^ 31` does not get that id. -/
theorem flowId_wraps :
    ∃ acts s v, run (step numbersOs fun _ => 0) init acts = some s ∧
      s.man.flows[2 ^ 31 - 1]? = some v ∧ v.flowId.toInt = -2 ^ 31 := by
  have hne : ∀ i < 2 ^ 31, ∀ k < i, (portFlow k).ends ≠ (portFlow i).ends := by
    intro i _ k hk heq
    have hport : (k : ℤ) = i := congrArg (fun e => e.1.port) heq
    omega
  obtain ⟨acts, s, hrun, -, hends⟩ := exists_run_of_lines (fun _ => 0)
    (fun i hi => parseLine_portLine numbersOs hi) hne
  have hlen : s.man.flows.length = 2 ^ 31 := by
    have hlen := congrArg List.length hends
    rwa [FlowManager.ends, List.length_map, List.length_map, List.length_range] at hlen
  have hlt : 2 ^ 31 - 1 < s.man.flows.length := by omega
  refine ⟨acts, s, s.man.flows[2 ^ 31 - 1], hrun, List.getElem?_eq_getElem hlt, ?_⟩
  rw [(invariants_of_run hrun).1.flowId _ _ (List.getElem?_eq_getElem hlt)]
  decide

end Jens.ReadLoop
