import Jens.Flowdata.Correct.Appends

/-!
# The order of the data points

The goroutines of a flow write in the order in which they get its mutex, so the time stamps are in
order if none of them gets it before an older one that was started earlier (`InOrder`).  The
invariant is `Ordered`: what is written is in order, and not newer than what is still to be written;
the same holds of the one goroutine that has the mutex and is about to write.
-/

namespace Jens.ReadLoop

open Steps

variable {os : Os} {cv : F64 → Int64} {s t : ReadLoop}

/-- A goroutine that has not written its time stamp. -/
def Unstamped (pc : AppendPc) : Prop :=
  match pc with
  | .started | .got _ => True
  | .writing _ rest => .timeStamp ∈ rest
  | .done => False

/-- No goroutine takes the mutex of its flow while an older data point of that flow, whose goroutine
was started earlier, is still to be written. -/
def InOrder (s : ReadLoop) : ReadAction → Prop
  | .lock j => ∀ r ∈ s.routines[j]?, ∀ k < j, ∀ u ∈ s.routines[k]?,
      u.f.ends = r.f.ends → Unstamped u.pc → F64.lt u.x.ts r.x.ts = false
  | _ => True

instance : DecidablePred Unstamped := by
  intro pc
  unfold Unstamped
  split <;> infer_instance

instance (a : ReadAction) : Decidable (InOrder s a) := by
  unfold InOrder
  split <;> infer_instance

/-- The time stamps are not decreasing. -/
def NonDecreasing (qs : List (FlowT × DataPoint)) : Prop :=
  qs.Pairwise fun q q' => F64.le q.2.ts q'.2.ts = true

/-- A goroutine that has a mutex and is about to write its time stamp is not newer than those that
are still to write to that flow. -/
def OldestWrites (rs : List AppendRoutine) : Prop :=
  ∀ (j : ℕ) (r : AppendRoutine) (i : ℕ) (rest : List AppendStmt), rs[j]? = some r →
    r.pc = .writing i rest → .timeStamp ∈ rest → ∀ (k : ℕ) (u : AppendRoutine), rs[k]? = some u →
      k ≠ j → u.f.ends = r.f.ends → Unstamped u.pc → F64.le r.x.ts u.x.ts = true

/-- The invariant. -/
structure Ordered (s : ReadLoop) : Prop where
  sorted : ∀ v ∈ s.man.flows, v.d.timeStamp.Pairwise fun a b => F64.le a b = true
  ahead : ∀ v ∈ s.man.flows, ∀ e ∈ v.d.timeStamp, ∀ r ∈ s.routines, r.f.ends = v.ends →
    Unstamped r.pc → F64.le e r.x.ts = true
  first : OldestWrites s.routines

theorem ordered_init : Ordered init where
  sorted _ h := by cases h
  ahead _ h := by cases h
  first j r i rest h := by cases h

variable {j i : ℕ} {r : AppendRoutine} {v : FlowT} {pc : AppendPc}

/-- Goroutines are started in the order of their time stamps. -/
theorem le_of_lt_of_nonDecreasing (h : NonDecreasing s.started) {k : ℕ} {u : AppendRoutine}
    (hk : s.routines[k]? = some u) (hj : s.routines[j]? = some r) (hlt : k < j) :
    F64.le u.x.ts r.x.ts = true := by
  have hk' : s.started[k]? = some (u.f, u.x) := by rw [started, List.getElem?_map, hk]; rfl
  have hj' : s.started[j]? = some (r.f, r.x) := by rw [started, List.getElem?_map, hj]; rfl
  obtain ⟨hklt, hkeq⟩ := List.getElem?_eq_some_iff.mp hk'
  obtain ⟨hjlt, hjeq⟩ := List.getElem?_eq_some_iff.mp hj'
  have hle := List.pairwise_iff_getElem.mp h k j hklt hjlt hlt
  rwa [hkeq, hjeq] at hle

/-- What is in a column was in a line. -/
theorem Coherent.exists_of_mem_timeStamp (h : Coherent s) (hv : v ∈ s.man.flows) {e : F64}
    (he : e ∈ v.d.timeStamp) : ∃ r ∈ s.routines, r.x.ts = e := by
  have hdone {ps : List DataPoint} (hps : ps.Perm (s.routines.filterMap (donePoint v.ends)))
      {x : DataPoint} (hx : x ∈ ps) : ∃ r ∈ s.routines, r.x = x := by
    obtain ⟨r, hr, heq⟩ := List.mem_filterMap.mp (hps.mem_iff.mp hx)
    obtain ⟨-, heq⟩ := Option.ite_none_right_eq_some.mp heq
    exact ⟨r, hr, Option.some.inj heq⟩
  obtain ⟨i, hi⟩ := List.mem_iff_getElem?.mp hv
  cases h.data i v hi with
  | free hps _ hholds =>
    rw [hholds.timeStamp] at he
    obtain ⟨x, hx, heq⟩ := List.mem_map.mp he
    obtain ⟨r, hr, hrx⟩ := hdone hps hx
    exact ⟨r, hr, by rw [hrx, heq]⟩
  | @held ps j r rest hps _ hr _ hwriting =>
    rw [hwriting.timeStamp] at he
    obtain ⟨x, hx, heq⟩ := List.mem_map.mp he
    have hcases : x ∈ ps ∨ x = r.x := by
      unfold FlowDatapointsT.written at hx
      split_ifs at hx
      · exact .inl hx
      · simpa using hx
    rcases hcases with hx | hx
    · obtain ⟨u, hu, hux⟩ := hdone hps hx
      exact ⟨u, hu, by rw [hux, heq]⟩
    · exact ⟨r, List.mem_of_getElem? hr, by rw [← heq, hx]⟩

/-- A goroutine after a step of the goroutine `j` and before. -/
theorem exists_of_routines_setPc (hr : s.routines[j]? = some r)
    (hpc : Unstamped pc → Unstamped r.pc) {k : ℕ} {u' : AppendRoutine}
    (hu : (s.setPc j pc).routines[k]? = some u') :
    ∃ u, s.routines[k]? = some u ∧ u'.f = u.f ∧ u'.x = u.x ∧ (Unstamped u'.pc → Unstamped u.pc) ∧
      (k ≠ j → u' = u) ∧ (k = j → u'.pc = pc ∧ u = r) := by
  by_cases hjk : j = k
  · rw [← hjk, getElem?_routines_setPc_self hr] at hu
    rw [← hjk, ← Option.some.inj hu]
    exact ⟨r, hr, rfl, rfl, hpc, fun hne => absurd rfl hne, fun _ => ⟨rfl, rfl⟩⟩
  · rw [getElem?_routines_setPc_of_ne hjk] at hu
    exact ⟨u', hu, rfl, rfl, id, fun _ => rfl, fun heq => absurd heq.symm hjk⟩

theorem OldestWrites.setPc (h : OldestWrites s.routines) (hr : s.routines[j]? = some r)
    (hpc : Unstamped pc → Unstamped r.pc)
    (hfirst : ∀ i rest, pc = .writing i rest → .timeStamp ∈ rest →
      ∀ (k : ℕ) (u : AppendRoutine), s.routines[k]? = some u → k ≠ j → u.f.ends = r.f.ends →
        Unstamped u.pc → F64.le r.x.ts u.x.ts = true) :
    OldestWrites (s.setPc j pc).routines := by
  intro l w' i rest hl hwpc hrest k u' hk hkl hends hun
  obtain ⟨w, hw, hwf, hwx, -, hwne, hweq⟩ := exists_of_routines_setPc hr hpc hl
  obtain ⟨u, hu, huf, hux, hold, -⟩ := exists_of_routines_setPc hr hpc hk
  rw [hwf, huf] at hends
  rw [hwx, hux]
  by_cases hlj : l = j
  · obtain ⟨hpcw, hwr⟩ := hweq hlj
    rw [hlj] at hkl
    rw [hwr] at hends ⊢
    exact hfirst i rest (hpcw ▸ hwpc) hrest k u hu hkl hends (hold hun)
  · rw [hwne hlj] at hwpc
    exact h l w i rest hw hwpc hrest k u hu hkl hends (hold hun)

/-- The goroutine `j` goes on and writes no time stamp. -/
theorem Ordered.goOn (h : Ordered s) (hr : s.routines[j]? = some r) {man : FlowManager}
    (hflows : ∀ v' ∈ man.flows, ∃ v ∈ s.man.flows, v'.ends = v.ends ∧
      v'.d.timeStamp = v.d.timeStamp)
    (hpc : Unstamped pc → Unstamped r.pc)
    (hfirst : ∀ i rest, pc = .writing i rest → .timeStamp ∈ rest →
      ∀ (k : ℕ) (u : AppendRoutine), s.routines[k]? = some u → k ≠ j → u.f.ends = r.f.ends →
        Unstamped u.pc → F64.le r.x.ts u.x.ts = true) :
    Ordered ({ s with man := man }.setPc j pc) := by
  refine ⟨?_, ?_, h.first.setPc hr hpc hfirst⟩
  · intro v' hv'
    obtain ⟨v, hv, -, hts⟩ := hflows v' hv'
    rw [hts]
    exact h.sorted v hv
  · intro v' hv' e he u' hu' hends hun
    obtain ⟨v, hv, hvends, hts⟩ := hflows v' hv'
    obtain ⟨k, hk⟩ := List.mem_iff_getElem?.mp hu'
    obtain ⟨u, hu, hf, hx, hold, -⟩ := exists_of_routines_setPc hr hpc hk
    rw [hts] at he
    rw [hf, hvends] at hends
    rw [hx]
    exact h.ahead v hv e he u (List.mem_of_getElem? hu) hends (hold hun)

/-- A change of the data that writes no time stamp. -/
theorem timeStamp_of_mem_modify {man : FlowManager} {g : FlowDatapointsT → FlowDatapointsT}
    (hg : ∀ d, (g d).timeStamp = d.timeStamp) :
    ∀ v' ∈ (man.modify i g).flows, ∃ v ∈ man.flows, v'.ends = v.ends ∧
      v'.d.timeStamp = v.d.timeStamp := by
  intro v' hv'
  obtain ⟨v, hv, heq | heq⟩ := FlowManager.exists_of_mem_modify hv'
  · exact ⟨v, hv, by rw [heq], by rw [heq]⟩
  · refine ⟨v, hv, ?_⟩
    rw [heq]
    exact ⟨rfl, hg v.d⟩

/-- The goroutine `j` writes its time stamp. -/
theorem Ordered.stamp (h : Ordered s) (hcoh : Coherent s) (hr : s.routines[j]? = some r)
    {rest : List AppendStmt} (hpc : r.pc = .writing i (.timeStamp :: rest))
    (hrest : .timeStamp ∉ rest) (now : Int64) :
    Ordered ({ s with man := s.man.modify i fun d => d.exec cv now r.x .timeStamp }.setPc j
      (.writing i rest)) := by
  have hmem : r ∈ s.routines := List.mem_of_getElem? hr
  obtain ⟨v, hv, hends⟩ := exists_flow_of_ends (hcoh.writing r hmem i _ hpc).1
  have hvmem : v ∈ s.man.flows := List.mem_of_getElem? hv
  have hun : Unstamped r.pc := by
    rw [hpc]
    exact List.mem_cons_self
  have hnew : Unstamped (.writing i rest) → Unstamped r.pc := fun hin => absurd hin hrest
  -- the goroutines that are still to write, of which `j` is none
  have hback {u' : AppendRoutine} (hu' : u' ∈ (s.setPc j (.writing i rest)).routines)
      (hun' : Unstamped u'.pc) : ∃ k, s.routines[k]? = some u' ∧ k ≠ j := by
    obtain ⟨k, hk⟩ := List.mem_iff_getElem?.mp hu'
    obtain ⟨u, hu, -, -, -, hne, heq⟩ := exists_of_routines_setPc hr hnew hk
    have hkj : k ≠ j := by
      intro hkj
      rw [(heq hkj).1] at hun'
      exact hrest hun'
    exact ⟨k, (hne hkj) ▸ hu, hkj⟩
  refine ⟨?_, ?_, ?_⟩
  · intro v' hv'
    rcases FlowManager.mem_modify hcoh.unique hv hv' with heq | ⟨hother, -⟩
    · rw [heq]
      show (v.d.timeStamp ++ [r.x.ts]).Pairwise _
      rw [List.pairwise_append]
      refine ⟨h.sorted v hvmem, List.pairwise_singleton .., fun e he e' he' => ?_⟩
      rw [List.mem_singleton.mp he']
      exact h.ahead v hvmem e he r hmem hends hun
    · exact h.sorted v' hother
  · intro v' hv' e he u' hu' huends hun'
    obtain ⟨k, hk, hkj⟩ := hback hu' hun'
    rcases FlowManager.mem_modify hcoh.unique hv hv' with heq | ⟨hother, -⟩
    · rw [heq] at he huends
      rcases List.mem_append.mp he with he | he
      · exact h.ahead v hvmem e he u' (List.mem_of_getElem? hk) huends hun'
      · rw [List.mem_singleton.mp he]
        exact h.first j r i _ hr hpc List.mem_cons_self k u' hk hkj (huends.trans hends.symm) hun'
    · exact h.ahead v' hother e he u' (List.mem_of_getElem? hk) huends hun'
  · apply h.first.setPc hr hnew
    intro k rest' hk hin
    rw [(writing_inj hk).2] at hin
    exact absurd hin hrest

/-- A new flow has no time stamp. -/
theorem Ordered.append (h : Ordered s) {f : FlowT} (hd : f.d = newFlowDataPoints) (pc : ReadPc) :
    Ordered { s with man := s.man.append f, pc := pc } := by
  have hcases {v : FlowT} (hv : v ∈ (s.man.append f).flows) :
      v ∈ s.man.flows ∨ v.d.timeStamp = [] := by
    rcases List.mem_append.mp hv with hv | hv
    · exact .inl hv
    · rw [List.mem_singleton.mp hv]
      exact .inr (congrArg FlowDatapointsT.timeStamp hd)
  refine ⟨?_, ?_, h.first⟩
  · intro v hv
    rcases hcases hv with hv | hnil
    · exact h.sorted v hv
    · rw [hnil]
      exact .nil
  · intro v hv e he
    rcases hcases hv with hv | hnil
    · exact h.ahead v hv e he
    · rw [hnil] at he
      cases he

/-- A new goroutine, for the newest line. -/
theorem Ordered.go (h : Ordered s) (hcoh : Coherent s) (f : FlowT) {x : DataPoint}
    (hnewest : ∀ r ∈ s.routines, F64.le r.x.ts x.ts = true) (pc : ReadPc) :
    Ordered { s with pc := pc, routines := s.routines ++ [⟨f, x, .started⟩] } := by
  refine ⟨h.sorted, ?_, ?_⟩
  · intro v hv e he r hr hends hun
    rcases List.mem_append.mp hr with hr | hr
    · exact h.ahead v hv e he r hr hends hun
    · obtain ⟨u, hu, hue⟩ := hcoh.exists_of_mem_timeStamp hv he
      rw [List.mem_singleton.mp hr, ← hue]
      exact hnewest u hu
  · intro j r i rest hr hrpc hmem k u hu hkj hends hun
    rcases List.getElem?_concat_eq_some hr with hr | ⟨-, hr⟩
    · rcases List.getElem?_concat_eq_some hu with hu | ⟨-, hu⟩
      · exact h.first j r i rest hr hrpc hmem k u hu hkj hends hun
      · rw [hu]
        exact hnewest r (List.mem_of_getElem? hr)
    · rw [hr] at hrpc
      cases hrpc

theorem ordered_of_moves {acts : List ReadAction} {a : ReadAction} (hreg : Registered os acts s)
    (hcoh : Coherent s) (h : Ordered s) (hts : NonDecreasing (measurements os (acts ++ [a])))
    (hC : InOrder s a) (hm : Moves os cv s a t) : Ordered t := by
  -- the goroutines there are were started in order
  have hstarted : NonDecreasing s.started := by
    rw [measurements_concat, hreg.read, NonDecreasing, List.append_assoc,
      List.pairwise_append] at hts
    exact hts.1
  cases hm with
  | skip | line | panics | found | missing => exact ⟨h.sorted, h.ahead, h.first⟩
  | @append f x hpc =>
    exact h.append (hreg.fresh (f, x) (hpc ▸ List.mem_singleton_self _)) _
  | @go f x hpc =>
    have hnewest : ∀ r ∈ s.routines, F64.le r.x.ts x.ts = true := by
      intro r hr
      rw [measurements_concat, hreg.read, hpc, NonDecreasing, List.append_assoc,
        List.pairwise_append] at hts
      exact hts.2.2 (r.f, r.x) (List.mem_map_of_mem hr) (f, x) List.mem_cons_self
    exact h.go hcoh f hnewest _
  | @get j r hr hpc =>
    exact h.goOn hr (fun v hv => ⟨v, hv, rfl, rfl⟩) (by simp [hpc, Unstamped]) (by simp)
  | @lock j i r v hr hpc hv hmutex =>
    refine h.goOn hr (timeStamp_of_mem_modify fun _ => rfl) (by simp [hpc, Unstamped]) ?_
    intro _ _ _ _ k u hu hkj hends hun
    rcases Nat.lt_or_gt_of_ne hkj with hlt | hgt
    · exact F64.le_of_not_lt (le_of_lt_of_nonDecreasing hstarted hu hr hlt)
        (hC r hr k hlt u hu hends hun)
    · exact le_of_lt_of_nonDecreasing hstarted hr hu hgt
  | @stmt j i r stmt rest now hr hpc =>
    by_cases hstmt : stmt = .timeStamp
    · rw [hstmt] at hpc ⊢
      have hsuffix := (hcoh.writing r (List.mem_of_getElem? hr) i _ hpc).2
      have hnodup : (AppendStmt.timeStamp :: rest).Nodup := hsuffix.sublist.nodup (by decide)
      exact h.stamp hcoh hr hpc (List.nodup_cons.mp hnodup).1 now
    · have hkeep : ∀ d : FlowDatapointsT, (d.exec cv now r.x stmt).timeStamp = d.timeStamp := by
        intro d
        cases stmt <;> simp only [FlowDatapointsT.exec]
        · exact absurd rfl hstmt
        · split_ifs <;> rfl
      refine h.goOn hr (timeStamp_of_mem_modify hkeep) ?_ ?_
      · intro hun
        rw [hpc]
        exact List.mem_cons_of_mem _ hun
      · intro k rest' hk hmem l u hu hlj hends hun
        rw [(writing_inj hk).2] at hmem
        exact h.first j r i _ hr hpc (List.mem_cons_of_mem _ hmem) l u hu hlj hends hun
  | @unlock j i r hr hpc =>
    refine h.goOn hr (timeStamp_of_mem_modify fun _ => rfl) ?_ (by simp)
    intro hun
    cases hun

/-! ### Runs -/

theorem ordered_of_run {acts : List ReadAction} (hrun : run (step os cv) init acts = some s)
    (hts : NonDecreasing (measurements os acts)) (hC : StepsMeet (step os cv) InOrder init acts) :
    Ordered s := by
  suffices hinv : (Registered os acts s ∧ Coherent s) ∧
      (NonDecreasing (measurements os acts) → Ordered s) by
    exact hinv.2 hts
  refine trace_invariant_of_stepsMeet (I := fun acts s => (Registered os acts s ∧ Coherent s) ∧
    (NonDecreasing (measurements os acts) → Ordered s)) ?_
    ⟨⟨registered_init, coherent_init⟩, fun _ => ordered_init⟩ hC hrun
  rintro as s a t ⟨⟨hreg, hcoh⟩, hord⟩ hC hstep
  have hm := moves_of_step hstep
  refine ⟨⟨registered_of_moves hreg hm, coherent_of_moves hreg hcoh hm⟩, fun hts => ?_⟩
  -- the lines read before were in order, too
  have hbefore : NonDecreasing (measurements os as) := by
    rw [measurements_concat, NonDecreasing, List.pairwise_append] at hts
    exact hts.1
  exact ordered_of_moves hreg hcoh (hord hbefore) hts hC hm

/-- **Where the goroutines of each flow take their turn in order, the time stamps of each flow are
in order, and the last one is the newest.**  The lines come in order. -/
theorem timeStamps_inOrder {acts : List ReadAction} (hrun : run (step os cv) init acts = some s)
    (hts : NonDecreasing (measurements os acts)) (hC : StepsMeet (step os cv) InOrder init acts) :
    ∀ v ∈ s.man.flows, v.d.timeStamp.Pairwise (fun a b => F64.le a b = true) ∧
      ∀ e ∈ v.d.timeStamp.getLast?, ∀ e' ∈ v.d.timeStamp, F64.lt e e' = false := by
  intro v hv
  have hsorted := (ordered_of_run hrun hts hC).sorted v hv
  refine ⟨hsorted, fun e he e' he' => ?_⟩
  obtain ⟨front, hfront⟩ := List.getLast?_eq_some_iff.mp he
  rw [hfront, List.pairwise_append] at hsorted
  rw [hfront] at he'
  rcases List.mem_append.mp he' with he' | he'
  · exact F64.lt_eq_false_of_le (hsorted.2.2 e' he' e (List.mem_singleton_self e))
  · rw [List.mem_singleton.mp he']
    exact F64.lt_self e

/-- Two lines whose goroutines take their turn in order. -/
theorem timeStamps_inOrder_twoLines :
    ∃ s, run (step numbersOs fun _ => 0) init
        (twoLines ++ [.get 0, .lock 0, .stmt 0 9, .get 1]) = some s ∧
      ∀ v ∈ s.man.flows, v.d.timeStamp.Pairwise (fun a b => F64.le a b = true) ∧
        ∀ e ∈ v.d.timeStamp.getLast?, ∀ e' ∈ v.d.timeStamp, F64.lt e e' = false := by
  have hsome : (run (step numbersOs fun _ => 0) init
      (twoLines ++ [.get 0, .lock 0, .stmt 0 9, .get 1])).isSome = true := by decide +kernel
  obtain ⟨s, hs⟩ := Option.isSome_iff_exists.mp hsome
  refine ⟨s, hs, timeStamps_inOrder hs ?_ ?_⟩
  · unfold NonDecreasing
    decide +kernel
  · decide +kernel

/-- The goroutine of the second line is through before that of the first gets the mutex. -/
def secondFirst : List ReadAction :=
  twoLines ++ [.get 1, .lock 1] ++ (FlowDatapointsT.appendBody.map fun _ => .stmt 1 9) ++
    [.unlock 1, .get 0, .lock 0, .stmt 0 9]

/-- **Then the time stamps are the other way round**, and one of them is newer than the last. -/
theorem timeStamps_reversed :
    NonDecreasing (measurements numbersOs secondFirst) ∧
      (run (step numbersOs fun _ => 0) init secondFirst).map
        (fun s => s.man.flows.map fun v => v.d.timeStamp) = some [[.fin 2, .fin 1]] := by
  unfold NonDecreasing
  decide +kernel

end Jens.ReadLoop
