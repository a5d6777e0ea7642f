import Mathlib.Data.List.Basic
import Mathlib.Tactic.Common

/-!
# Runs of a partial step function

A transition system is a function `step : σ → α → Option σ`: the action `α` resolves every choice
the system leaves open (which party moves, what the environment answers), and `none` says that the
action is not enabled.  `run step s as` performs the actions `as` from `s`.

The rules are `run_invariant` (an invariant preserved by every step holds after every run) and
`run_trace_invariant` (so does a relation to the actions performed), `invariant_of_stepsMeet` and
`trace_invariant_of_stepsMeet` (the same when every step of the run meets a condition),
`stepsMeet_of_invariant` (the steps then meet another one, too), `good_iff_stepsMeet` (the condition
is also necessary when a bad state has no successor), and `countP_le_rank` (a rank that some actions
decrease bounds how often they occur).  Where some internal action is enabled unless the system is
at rest, and all of them decrease a rank, they lead to rest (`exists_run_to_rest`).  What a run puts
out is the list `outputs`, which each further action extends (`outputs_concat`); it is good exactly
if each step puts out what is good (`forall_outputs_iff`).
-/

namespace Steps

variable {σ α : Type*}

/-- Perform the actions in order; `none` when one of them is not enabled. -/
def run (step : σ → α → Option σ) : σ → List α → Option σ
  | s, [] => some s
  | s, a :: as => (step s a).bind fun s' => run step s' as

section Run

variable {step : σ → α → Option σ}

@[simp] theorem run_nil (s : σ) : run step s [] = some s := rfl

theorem run_cons (s : σ) (a : α) (as : List α) :
    run step s (a :: as) = (step s a).bind fun s' => run step s' as := rfl

theorem run_cons_eq_some {s t : σ} {a : α} {as : List α} :
    run step s (a :: as) = some t ↔ ∃ s', step s a = some s' ∧ run step s' as = some t := by
  rw [run_cons, Option.bind_eq_some_iff]

theorem run_append (s : σ) (as bs : List α) :
    run step s (as ++ bs) = (run step s as).bind fun s' => run step s' bs := by
  induction as generalizing s with
  | nil => rfl
  | cons a as ih =>
    rw [List.cons_append, run_cons, run_cons, Option.bind_assoc]
    congr 1
    funext s'
    exact ih s'

theorem run_append_eq_some {s t : σ} {as bs : List α} :
    run step s (as ++ bs) = some t ↔ ∃ u, run step s as = some u ∧ run step u bs = some t := by
  rw [run_append, Option.bind_eq_some_iff]

/-- A run extended by one enabled action. -/
theorem run_concat {s t u : σ} {as : List α} {a : α} (h : run step s as = some t)
    (ha : step t a = some u) : run step s (as ++ [a]) = some u := by
  rw [run_append_eq_some]
  exact ⟨t, h, by rw [run_cons, ha]; rfl⟩

/-! ### Invariants -/

/-- What every step preserves holds after every run. -/
theorem run_invariant {I : σ → Prop} (hstep : ∀ s a s', I s → step s a = some s' → I s')
    {s t : σ} {as : List α} (hs : I s) (h : run step s as = some t) : I t := by
  induction as generalizing s with
  | nil => exact Option.some.inj h ▸ hs
  | cons a as ih =>
    obtain ⟨s', ha, h'⟩ := run_cons_eq_some.mp h
    exact ih (hstep s a s' hs ha) h'

/-- A relation between the actions performed and the state reached, kept by every step. -/
theorem run_trace_invariant {I : List α → σ → Prop}
    (hstep : ∀ as s a s', I as s → step s a = some s' → I (as ++ [a]) s')
    {s t : σ} (hs : I [] s) {as : List α} (h : run step s as = some t) : I as t := by
  suffices key : ∀ (as pre : List α) (s : σ), I pre s → run step s as = some t → I (pre ++ as) t by
    exact key as [] s hs h
  intro as
  induction as with
  | nil =>
    intro pre s hs h
    rw [List.append_nil]
    exact Option.some.inj h ▸ hs
  | cons a as ih =>
    intro pre s hs h
    obtain ⟨s', ha, h'⟩ := run_cons_eq_some.mp h
    have := ih (pre ++ [a]) s' (hstep pre s a s' hs ha) h'
    rwa [List.append_assoc] at this

/-! ### Runs whose steps meet a condition -/

/-- Every step of the run that performs `as` from `s` meets `C`, a condition on the action and the
state before it. -/
def StepsMeet (step : σ → α → Option σ) (C : σ → α → Prop) : σ → List α → Prop
  | _, [] => True
  | s, a :: as => C s a ∧ ∀ s' ∈ step s a, StepsMeet step C s' as

instance decidableStepsMeet (C : σ → α → Prop) [∀ s a, Decidable (C s a)] :
    ∀ (s : σ) (as : List α), Decidable (StepsMeet step C s as)
  | _, [] => inferInstanceAs (Decidable True)
  | s, a :: as =>
    match h : step s a with
    | none => decidable_of_iff (C s a) (by simp [StepsMeet, h])
    | some s' =>
      have := decidableStepsMeet C s' as
      decidable_of_iff (C s a ∧ StepsMeet step C s' as) (by simp [StepsMeet, h])

/-- A relation between the actions performed and the state reached, kept by every step that meets
`C`, holds after every run whose steps all meet `C`. -/
theorem trace_invariant_of_stepsMeet {C : σ → α → Prop} {I : List α → σ → Prop}
    (hstep : ∀ as s a s', I as s → C s a → step s a = some s' → I (as ++ [a]) s')
    {s t : σ} (hs : I [] s) {as : List α} (hC : StepsMeet step C s as)
    (h : run step s as = some t) : I as t := by
  suffices key : ∀ (as pre : List α) (s : σ), I pre s → StepsMeet step C s as →
      run step s as = some t → I (pre ++ as) t by
    exact key as [] s hs hC h
  intro as
  induction as with
  | nil =>
    intro pre s hs _ h
    rw [List.append_nil]
    exact Option.some.inj h ▸ hs
  | cons a as ih =>
    intro pre s hs hC h
    obtain ⟨s', ha, h'⟩ := run_cons_eq_some.mp h
    have := ih (pre ++ [a]) s' (hstep pre s a s' hs hC.1 ha) (hC.2 s' ha) h'
    rwa [List.append_assoc] at this

/-- What every step that meets `C` preserves holds after every run whose steps all meet `C`. -/
theorem invariant_of_stepsMeet {C : σ → α → Prop} {I : σ → Prop}
    (hstep : ∀ s a s', I s → C s a → step s a = some s' → I s')
    {s t : σ} {as : List α} (hs : I s) (hC : StepsMeet step C s as)
    (h : run step s as = some t) : I t :=
  trace_invariant_of_stepsMeet (I := fun _ s => I s) (fun _ => hstep) hs hC h

/-- A condition on the steps that follows, under an invariant, from another one. -/
theorem stepsMeet_of_invariant {C D : σ → α → Prop} {I : σ → Prop}
    (hstep : ∀ s a s', I s → C s a → step s a = some s' → I s')
    (hD : ∀ s a s', I s → C s a → step s a = some s' → D s a)
    {s t : σ} {as : List α} (hs : I s) (hC : StepsMeet step C s as)
    (h : run step s as = some t) : StepsMeet step D s as := by
  induction as generalizing s with
  | nil => trivial
  | cons a as ih =>
    obtain ⟨s', ha, h'⟩ := run_cons_eq_some.mp h
    refine ⟨hD s a s' hs hC.1 ha, fun u hu => ?_⟩
    obtain rfl : s' = u := Option.some.inj (ha.symm.trans hu)
    exact ih (hstep s a s' hs hC.1 ha) (hC.2 s' ha) h'

/-- What every step keeps when it is read backwards held before the run if it holds after it. -/
theorem of_run_of_back {J : σ → Prop} (hback : ∀ s a s', step s a = some s' → J s' → J s)
    {s t : σ} {as : List α} (h : run step s as = some t) (ht : J t) : J s := by
  induction as generalizing s with
  | nil => exact (Option.some.inj h).symm ▸ ht
  | cons a as ih =>
    obtain ⟨s', ha, h'⟩ := run_cons_eq_some.mp h
    exact hback s a s' ha (ih h')

/-- A run does not end well once it is in a bad state. -/
theorem not_good_of_run {I J G : σ → Prop}
    (hstep : ∀ s a s', I s → step s a = some s' → I s')
    (hback : ∀ s a s', step s a = some s' → J s' → J s)
    (hbad : ∀ s a s', I s → J s' → ¬ G s → step s a = some s' → ¬ G s')
    {s t : σ} {as : List α} (hs : I s) (ht : J t) (hg : ¬ G s) (h : run step s as = some t) :
    ¬ G t := by
  induction as generalizing s with
  | nil => exact Option.some.inj h ▸ hg
  | cons a as ih =>
    obtain ⟨s', ha, h'⟩ := run_cons_eq_some.mp h
    have hbad' : ¬ G s' := hbad s a s' hs (of_run_of_back hback h' ht) hg ha
    exact ih (hstep s a s' hs ha) hbad' h'

/-- If a step from a good state leads to a good one exactly when it meets `C`, and no step leads
from a bad state to a good one, then a run ends well exactly if all its steps meet `C`.  The steps
are those under an invariant `I`, to states from which the end of the run can be reached (`J`). -/
theorem good_iff_stepsMeet {C : σ → α → Prop} {I J G : σ → Prop}
    (hstep : ∀ s a s', I s → step s a = some s' → I s')
    (hback : ∀ s a s', step s a = some s' → J s' → J s)
    (hgood : ∀ s a s', I s → J s' → G s → step s a = some s' → (G s' ↔ C s a))
    (hbad : ∀ s a s', I s → J s' → ¬ G s → step s a = some s' → ¬ G s')
    {s t : σ} {as : List α} (hs : I s) (ht : J t) (hg : G s) (h : run step s as = some t) :
    G t ↔ StepsMeet step C s as := by
  induction as generalizing s with
  | nil =>
    obtain rfl := Option.some.inj h
    exact iff_of_true hg trivial
  | cons a as ih =>
    obtain ⟨s', ha, h'⟩ := run_cons_eq_some.mp h
    have hs' : I s' := hstep s a s' hs ha
    have hiff := hgood s a s' hs (of_run_of_back hback h' ht) hg ha
    by_cases hC : C s a
    · have hrest := ih hs' (hiff.mpr hC) h'
      simp [StepsMeet, ha, hC, hrest]
    · -- bad after this step, and bad it stays
      have hbad' : ¬ G s' := fun hg' => hC (hiff.mp hg')
      have hend : ¬ G t := not_good_of_run hstep hback hbad hs' ht hbad' h'
      exact iff_of_false hend fun hm => hC hm.1

/-! ### Outputs -/

/-- What the actions of a run put out, each from the state it is performed in. -/
def outputs {β : Type*} (step : σ → α → Option σ) (out : σ → α → Option β) : σ → List α → List β
  | _, [] => []
  | s, a :: as => (out s a).toList ++ (step s a).elim [] fun s' => outputs step out s' as

theorem outputs_concat {β : Type*} (out : σ → α → Option β) {s t : σ} {as : List α}
    (h : run step s as = some t) (a : α) :
    outputs step out s (as ++ [a]) = outputs step out s as ++ (out t a).toList := by
  induction as generalizing s with
  | nil =>
    obtain rfl := Option.some.inj h
    cases hstep : step s a <;> simp [outputs, hstep]
  | cons b as ih =>
    obtain ⟨s', hb, h'⟩ := run_cons_eq_some.mp h
    simp only [List.cons_append, outputs, hb, Option.elim_some, ih h', List.append_assoc]

/-- A run with a record kept beside it is the run without. -/
theorem run_of_map {τ : Type*} {step' : τ → α → Option τ} {f : τ → σ}
    (hmap : ∀ t a, (step' t a).map f = step (f t) a) (t : τ) (as : List α) :
    (run step' t as).map f = run step (f t) as := by
  induction as generalizing t with
  | nil => rfl
  | cons a as ih =>
    rw [run_cons, run_cons, ← hmap t a]
    cases step' t a with
    | none => rfl
    | some t' => exact ih t'

/-- The record puts nothing else out. -/
theorem outputs_of_map {τ β : Type*} {step' : τ → α → Option τ} {f : τ → σ}
    (hmap : ∀ t a, (step' t a).map f = step (f t) a) (out : σ → α → Option β) (t : τ)
    (as : List α) :
    outputs step' (fun t a => out (f t) a) t as = outputs step out (f t) as := by
  induction as generalizing t with
  | nil => rfl
  | cons a as ih =>
    rw [outputs, outputs, ← hmap t a]
    cases step' t a with
    | none => rfl
    | some t' => exact congrArg ((out (f t) a).toList ++ ·) (ih t')

/-- If what a step puts out is good exactly when the step meets `C`, then all that a run puts out is
good exactly if all its steps meet `C`. -/
theorem forall_outputs_iff {β : Type*} {out : σ → α → Option β} {G : β → Prop} {I : σ → Prop}
    {C : σ → α → Prop} (hstep : ∀ s a s', I s → step s a = some s' → I s')
    (hout : ∀ s a, I s → ((∀ b ∈ out s a, G b) ↔ C s a)) {s : σ} (hs : I s) (as : List α) :
    (∀ b ∈ outputs step out s as, G b) ↔ StepsMeet step C s as := by
  induction as generalizing s with
  | nil => simp [outputs, StepsMeet]
  | cons a as ih =>
    have hrest : (∀ b ∈ (step s a).elim [] fun s' => outputs step out s' as, G b) ↔
        ∀ s' ∈ step s a, StepsMeet step C s' as := by
      cases hs' : step s a with
      | none => simp
      | some s' => simpa using ih (hstep s a s' hs hs')
    rw [outputs, List.forall_mem_append, hrest, StepsMeet, ← hout s a hs]
    simp only [Option.mem_toList, Option.mem_def]

/-- A relation between the actions performed from `s` and the state reached, kept by every step. -/
theorem trace_invariant_from {s t : σ} {I : List α → σ → Prop}
    (hstep : ∀ as u a u', run step s as = some u → I as u → step u a = some u' → I (as ++ [a]) u')
    (hs : I [] s) {as : List α} (h : run step s as = some t) : I as t := by
  have hboth : run step s as = some t ∧ I as t := by
    refine run_trace_invariant (I := fun as u => run step s as = some u ∧ I as u) ?_ ⟨rfl, hs⟩ h
    intro as u a u' hu ha
    exact ⟨run_concat hu.1 ha, hstep as u a u' hu.1 hu.2 ha⟩
  exact hboth.2

/-! ### Ranks -/

/-- If, under an invariant, the actions `p` selects lower the rank and no other action raises it,
they occur at most `rank s` times. -/
theorem countP_le_rank {I : σ → Prop} (p : α → Bool) (rank : σ → ℕ)
    (hstep : ∀ s a s', I s → step s a = some s' → I s')
    (hdown : ∀ s a s', I s → step s a = some s' → p a → rank s' < rank s)
    (hkeep : ∀ s a s', I s → step s a = some s' → ¬ p a → rank s' ≤ rank s)
    {s t : σ} {as : List α} (hs : I s) (h : run step s as = some t) :
    as.countP p + rank t ≤ rank s := by
  induction as generalizing s with
  | nil =>
    obtain rfl := Option.some.inj h
    simp
  | cons a as ih =>
    obtain ⟨s', ha, h'⟩ := run_cons_eq_some.mp h
    have hrest := ih (hstep s a s' hs ha) h'
    by_cases hp : p a
    · have := hdown s a s' hs ha hp
      rw [List.countP_cons_of_pos hp]
      omega
    · have := hkeep s a s' hs ha hp
      rw [List.countP_cons_of_neg hp]
      omega

/-- What internal actions keep holds after a run of them. -/
theorem invariant_of_internal {I : σ → Prop} {internal : α → Prop}
    (hstep : ∀ s a s', I s → internal a → step s a = some s' → I s')
    {s t : σ} {as : List α} (hs : I s) (has : ∀ a ∈ as, internal a)
    (h : run step s as = some t) : I t := by
  induction as generalizing s with
  | nil => exact Option.some.inj h ▸ hs
  | cons a as ih =>
    obtain ⟨s', ha, h'⟩ := run_cons_eq_some.mp h
    obtain ⟨ha', has⟩ := List.forall_mem_cons.mp has
    exact ih (hstep s a s' hs ha' ha) has h'

/-- A run of internal actions, each of which lowers the rank, is no longer than the rank. -/
theorem length_add_rank_le {I : σ → Prop} {internal : α → Prop} (rank : σ → ℕ)
    (hstep : ∀ s a s', I s → internal a → step s a = some s' → I s' ∧ rank s' < rank s)
    {s t : σ} {as : List α} (hs : I s) (has : ∀ a ∈ as, internal a)
    (h : run step s as = some t) : as.length + rank t ≤ rank s := by
  induction as generalizing s with
  | nil =>
    obtain rfl := Option.some.inj h
    simp
  | cons a as ih =>
    obtain ⟨s', ha, h'⟩ := run_cons_eq_some.mp h
    obtain ⟨ha', has⟩ := List.forall_mem_cons.mp has
    obtain ⟨hs', hlt⟩ := hstep s a s' hs ha' ha
    have hrest := ih hs' has h'
    rw [List.length_cons]
    omega

/-- If some internal action is enabled wherever the system is not at rest, and internal actions
lower a rank, then internal actions lead to rest. -/
theorem exists_run_to_rest {I Rest : σ → Prop} {internal : α → Prop} (rank : σ → ℕ)
    (hstep : ∀ s a s', I s → internal a → step s a = some s' → I s' ∧ rank s' < rank s)
    (honward : ∀ s, I s → ¬ Rest s → ∃ a, internal a ∧ (step s a).isSome) {s : σ} (hs : I s) :
    ∃ as t, (∀ a ∈ as, internal a) ∧ run step s as = some t ∧ Rest t := by
  induction hr : rank s using Nat.strongRecOn generalizing s with
  | ind r ih =>
    by_cases hrest : Rest s
    · exact ⟨[], s, fun a h => absurd h List.not_mem_nil, rfl, hrest⟩
    · obtain ⟨a, ha, hsome⟩ := honward s hs hrest
      obtain ⟨u, hu⟩ := Option.isSome_iff_exists.mp hsome
      obtain ⟨hI, hlt⟩ := hstep s a u hs ha hu
      obtain ⟨as, t, has, hrun, ht⟩ := ih (rank u) (hr ▸ hlt) hI rfl
      exact ⟨a :: as, t, List.forall_mem_cons.mpr ⟨ha, has⟩, run_cons_eq_some.mpr ⟨u, hu, hrun⟩, ht⟩

end Run

end Steps
