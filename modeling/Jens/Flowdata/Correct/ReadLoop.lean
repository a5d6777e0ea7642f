import Jens.Flowdata.Correct.FlowManager
import Jens.Flowdata.ReadLoop
import Jens.Lib.Steps

/-!
# The flows under every schedule

Only the read loop adds flows, and it does so between two lines, hence a flow that `Contains` did
not find is still missing when `Append` adds it.  So there is one flow for the ends of each line, in
the order they first occur in (`Registered`).
-/

namespace Jens.ReadLoop

open Steps

variable {os : Os} {cv : F64 → Int64} {s t : ReadLoop}

/-! ### The step relation -/

/-- What a step does. -/
inductive Moves (os : Os) (cv : F64 → Int64) (s : ReadLoop) : ReadAction → ReadLoop → Prop
  | skip {line : String} {b : Bool} : s.pc = .reading → parseLine os line = .ok (.returns b) →
      Moves os cv s (.line line) s
  | line {line : String} {f : FlowT} {x : DataPoint} : s.pc = .reading →
      parseLine os line = .ok (.measurement f x) →
      Moves os cv s (.line line) { s with pc := .checking f x }
  | panics {line : String} {e : Failure} : s.pc = .reading → parseLine os line = .error e →
      Moves os cv s (.line line) { s with pc := .panicked e }
  | found {f : FlowT} {x : DataPoint} : s.pc = .checking f x → f.ends ∈ s.man.ends →
      Moves os cv s .contains { s with pc := .starting f x }
  | missing {f : FlowT} {x : DataPoint} : s.pc = .checking f x → f.ends ∉ s.man.ends →
      Moves os cv s .contains { s with pc := .appending f x }
  | append {f : FlowT} {x : DataPoint} : s.pc = .appending f x →
      Moves os cv s .append { s with man := s.man.append f, pc := .starting f x }
  | go {f : FlowT} {x : DataPoint} : s.pc = .starting f x →
      Moves os cv s .go { s with pc := .reading, routines := s.routines ++ [⟨f, x, .started⟩] }
  | get {j : ℕ} {r : AppendRoutine} : s.routines[j]? = some r → r.pc = .started →
      Moves os cv s (.get j) (s.setPc j (.got (s.man.get r.f)))
  | lock {j i : ℕ} {r : AppendRoutine} {v : FlowT} : s.routines[j]? = some r →
      r.pc = .got (some i) → s.man.flows[i]? = some v → v.d.mutex = false →
      Moves os cv s (.lock j)
        ({ s with man := s.man.modify i fun d => { d with mutex := true } }.setPc j
          (.writing i FlowDatapointsT.appendBody))
  | stmt {j i : ℕ} {r : AppendRoutine} {stmt : AppendStmt} {rest : List AppendStmt} {now : Int64} :
      s.routines[j]? = some r → r.pc = .writing i (stmt :: rest) →
      Moves os cv s (.stmt j now)
        ({ s with man := s.man.modify i fun d => d.exec cv now r.x stmt }.setPc j (.writing i rest))
  | unlock {j i : ℕ} {r : AppendRoutine} : s.routines[j]? = some r → r.pc = .writing i [] →
      Moves os cv s (.unlock j)
        ({ s with man := s.man.modify i fun d => { d with mutex := false } }.setPc j .done)

theorem moves_of_readStep {pc : ReadPc} {a : ReadAction} (hpc : s.pc = pc)
    (h : s.readStep os pc a = some t) : Moves os cv s a t := by
  unfold readStep at h
  split at h
  case h_1 line =>
    split at h
    case h_1 b hline =>
      rw [← Option.some.inj h]
      exact .skip hpc hline
    case h_2 f x hline =>
      rw [← Option.some.inj h]
      exact .line hpc hline
    case h_3 e hline =>
      rw [← Option.some.inj h]
      exact .panics hpc hline
  case h_2 f x =>
    rw [← Option.some.inj h]
    by_cases hmem : f.ends ∈ s.man.ends
    · rw [if_pos (FlowManager.contains_iff.mpr hmem)]
      exact .found hpc hmem
    · rw [if_neg fun hcon => hmem (FlowManager.contains_iff.mp hcon)]
      exact .missing hpc hmem
  case h_3 f x =>
    rw [← Option.some.inj h]
    exact .append hpc
  case h_4 f x =>
    rw [← Option.some.inj h]
    exact .go hpc
  case h_5 => cases h

theorem moves_of_appendStep {j : ℕ} {r : AppendRoutine} {a : ReadAction}
    (ha : a = .get j ∨ a = .lock j ∨ (∃ now, a = .stmt j now) ∨ a = .unlock j)
    (hr : s.routines[j]? = some r) {pc : AppendPc} (hpc : r.pc = pc)
    (h : s.appendStep cv j r pc a = some t) : Moves os cv s a t := by
  unfold appendStep at h
  split at h
  case h_1 k =>
    obtain rfl : k = j := by simpa using ha
    rw [← Option.some.inj h]
    exact .get hr hpc
  case h_2 i k =>
    obtain rfl : k = j := by simpa using ha
    obtain ⟨hmutex, h⟩ := Option.ite_none_right_eq_some.mp h
    obtain ⟨v, hv, hfree⟩ := Option.map_eq_some_iff.mp hmutex
    rw [← Option.some.inj h]
    exact .lock hr hpc hv hfree
  case h_3 i stmt rest k now =>
    obtain rfl : k = j := by simpa using ha
    rw [← Option.some.inj h]
    exact .stmt hr hpc
  case h_4 i k =>
    obtain rfl : k = j := by simpa using ha
    rw [← Option.some.inj h]
    exact .unlock hr hpc
  case h_5 => cases h

theorem moves_of_step {a : ReadAction} (h : s.step os cv a = some t) : Moves os cv s a t := by
  unfold step at h
  split at h
  case h_1 | h_2 | h_3 | h_4 => exact moves_of_readStep rfl h
  all_goals
    obtain ⟨r, hr, h⟩ := Option.bind_eq_some_iff.mp h
    exact moves_of_appendStep (by simp) hr rfl h

/-! ### The flows -/

/-- The samples whose goroutine was started. -/
def started (s : ReadLoop) : List (FlowT × DataPoint) := s.routines.map fun r => (r.f, r.x)

/-- The sample the read loop is working on. -/
def currentAt : ReadPc → List (FlowT × DataPoint)
  | .reading | .panicked _ => []
  | .checking f x | .appending f x | .starting f x => [(f, x)]

/-- The part of it whose flow was looked for and, where it was missing, added. -/
def foundAt : ReadPc → List (FlowT × DataPoint)
  | .reading | .checking _ _ | .appending _ _ | .panicked _ => []
  | .starting f x => [(f, x)]

/-- The ends that occur, in the order of their first occurrence. -/
def firstEnds (qs : List (FlowT × DataPoint)) : List (NetEndPoint × NetEndPoint) :=
  (qs.map fun q => q.1.ends).eraseDups

theorem mem_firstEnds {qs : List (FlowT × DataPoint)} {e : NetEndPoint × NetEndPoint} :
    e ∈ firstEnds qs ↔ ∃ q ∈ qs, q.1.ends = e := by
  simp [firstEnds, List.mem_eraseDups]

theorem firstEnds_concat (qs : List (FlowT × DataPoint)) (q : FlowT × DataPoint) :
    firstEnds (qs ++ [q]) =
      if q.1.ends ∈ firstEnds qs then firstEnds qs else firstEnds qs ++ [q.1.ends] := by
  have hmem : q.1.ends ∈ firstEnds qs ↔ q.1.ends ∈ qs.map fun q => q.1.ends := by
    rw [firstEnds, List.mem_eraseDups]
  rw [firstEnds, List.map_append, List.map_singleton, List.eraseDups_append]
  split_ifs with h
  · have hnil : [q.1.ends].removeAll (qs.map fun q => q.1.ends) = [] := by
      simpa [List.removeAll] using hmem.mp h
    rw [hnil]
    exact List.append_nil _
  · have hone : [q.1.ends].removeAll (qs.map fun q => q.1.ends) = [q.1.ends] := by
      simpa [List.removeAll] using fun h' => h (hmem.mpr h')
    rw [hone]
    rfl

/-- The invariant of the read loop. -/
structure Registered (os : Os) (acts : List ReadAction) (s : ReadLoop) : Prop where
  read : measurements os acts = s.started ++ currentAt s.pc
  ends : s.man.ends = firstEnds (s.started ++ foundAt s.pc)
  missing : ∀ f x, s.pc = .appending f x → f.ends ∉ s.man.ends
  fresh : ∀ q ∈ currentAt s.pc, q.1.d = newFlowDataPoints
  flowId : ∀ i v, s.man.flows[i]? = some v → v.flowId = Int32.ofNat (i + 1)

theorem registered_init : Registered os [] init where
  read := rfl
  ends := rfl
  missing _ _ h := by cases h
  fresh _ h := by cases h
  flowId i v h := by cases h

theorem measurements_concat (os : Os) (acts : List ReadAction) (a : ReadAction) :
    measurements os (acts ++ [a]) = measurements os acts ++ (measurementOf os a).toList := by
  rw [measurements, List.filterMap_append]
  cases h : measurementOf os a <;> simp [measurements, h]

@[simp] theorem started_setPc (s : ReadLoop) (j : ℕ) (pc : AppendPc) :
    (s.setPc j pc).started = s.started := by
  refine List.map_modify_of_eq ?_ s.routines j
  intro r
  rfl

theorem started_go (s : ReadLoop) (f : FlowT) (x : DataPoint) :
    started { s with pc := .reading, routines := s.routines ++ [⟨f, x, .started⟩] } =
      s.started ++ [(f, x)] := List.map_append

/-- A step that reads no sample. -/
theorem Registered.read_concat {acts : List ReadAction} {a : ReadAction} (h : Registered os acts s)
    (ha : measurementOf os a = none) :
    measurements os (acts ++ [a]) = s.started ++ currentAt s.pc := by
  rw [measurements_concat, ha]
  exact (List.append_nil _).trans h.read

/-- A step of a goroutine leaves the invariant of the read loop alone. -/
theorem Registered.frame {acts : List ReadAction} {a : ReadAction} (h : Registered os acts s)
    (ha : measurementOf os a = none) (hpc : t.pc = s.pc) (hstarted : t.started = s.started)
    (hends : t.man.ends = s.man.ends)
    (hids : t.man.flows.map FlowT.flowId = s.man.flows.map FlowT.flowId) :
    Registered os (acts ++ [a]) t := by
  refine ⟨?_, ?_, ?_, ?_, ?_⟩
  · rw [h.read_concat ha, hpc, hstarted]
  · rw [hends, hpc, hstarted]
    exact h.ends
  · rw [hpc, hends]
    exact h.missing
  · rw [hpc]
    exact h.fresh
  · intro i v hv
    have hid : (s.man.flows.map FlowT.flowId)[i]? = some v.flowId := by
      rw [← hids, List.getElem?_map, hv]
      rfl
    rw [List.getElem?_map, Option.map_eq_some_iff] at hid
    obtain ⟨u, hu, heq⟩ := hid
    rw [← heq]
    exact h.flowId i u hu

theorem registered_of_moves {acts : List ReadAction} {a : ReadAction} (h : Registered os acts s)
    (hm : Moves os cv s a t) : Registered os (acts ++ [a]) t := by
  have hread := h.read
  have hends := h.ends
  have hfresh := h.fresh
  cases hm with
  | @skip line b hpc hline =>
    have ha : measurementOf os (.line line) = none := by rw [measurementOf, hline]
    exact ⟨h.read_concat ha, hends, h.missing, hfresh, h.flowId⟩
  | @line line f x hpc hline =>
    rw [hpc] at hread hends
    have ha : measurementOf os (.line line) = some (f, x) := by rw [measurementOf, hline]
    refine ⟨?_, hends, ?_, ?_, h.flowId⟩
    · rw [measurements_concat, ha, hread]
      exact congrArg (· ++ [(f, x)]) (List.append_nil _)
    · rintro _ _ ⟨⟩
    · intro q hq
      rw [List.mem_singleton.mp hq]
      exact d_of_parseLine hline
  | @panics line e hpc hline =>
    have ha : measurementOf os (.line line) = none := by rw [measurementOf, hline]
    have hconcat := h.read_concat ha
    rw [hpc] at hconcat hends
    refine ⟨hconcat, hends, ?_, ?_, h.flowId⟩
    · rintro _ _ ⟨⟩
    · intro q hq
      cases hq
  | @found f x hpc hmem =>
    have hconcat := h.read_concat (a := .contains) rfl
    rw [hpc] at hconcat hends hfresh
    refine ⟨hconcat, ?_, ?_, hfresh, h.flowId⟩
    · show s.man.ends = firstEnds (s.started ++ [(f, x)])
      rw [hends] at hmem ⊢
      rw [foundAt, List.append_nil] at hmem ⊢
      rw [firstEnds_concat, if_pos hmem]
    · rintro _ _ ⟨⟩
  | @missing f x hpc hmem =>
    have hconcat := h.read_concat (a := .contains) rfl
    rw [hpc] at hconcat hends hfresh
    refine ⟨hconcat, hends, ?_, hfresh, h.flowId⟩
    rintro _ _ ⟨⟩
    exact hmem
  | @append f x hpc =>
    have hconcat := h.read_concat (a := .append) rfl
    have hmissing := h.missing f x hpc
    rw [hpc] at hconcat hends hfresh
    rw [hends, foundAt, List.append_nil] at hmissing
    refine ⟨hconcat, ?_, ?_, hfresh, ?_⟩
    · show (s.man.append f).ends = firstEnds (s.started ++ [(f, x)])
      rw [FlowManager.ends_append, firstEnds_concat, if_neg hmissing, hends, foundAt,
        List.append_nil]
    · rintro _ _ ⟨⟩
    · intro i v hv
      rcases List.getElem?_concat_eq_some hv with hv | ⟨hi, hv⟩
      · exact h.flowId i v hv
      · rw [hv, hi]
  | @go f x hpc =>
    have hconcat := h.read_concat (a := .go) rfl
    rw [hpc] at hconcat hends
    refine ⟨?_, ?_, ?_, ?_, h.flowId⟩
    · rw [hconcat, started_go]
      exact (List.append_nil _).symm
    · rw [started_go]
      exact hends.trans (congrArg firstEnds (List.append_nil _).symm)
    · rintro _ _ ⟨⟩
    · intro q hq
      cases hq
  | get _ _ => exact h.frame rfl rfl (started_setPc ..) rfl rfl
  | lock _ _ _ _ =>
    exact h.frame rfl rfl (started_setPc ..) FlowManager.ends_modify
      (FlowManager.map_modify fun _ _ => rfl)
  | stmt _ _ =>
    exact h.frame rfl rfl (started_setPc ..) FlowManager.ends_modify
      (FlowManager.map_modify fun _ _ => rfl)
  | unlock _ _ =>
    exact h.frame rfl rfl (started_setPc ..) FlowManager.ends_modify
      (FlowManager.map_modify fun _ _ => rfl)

end Jens.ReadLoop
