import Mathlib.Data.List.Forall2
import Mathlib.Data.List.Induction
import Mathlib.Tactic.Common

/-!
# Successful computations that may fail

What `x = .ok a` says about the parts of a computation in `Except`: a sequence (`bind_eq_ok`), a
change of the result or of the error (`map_eq_ok`, `mapError_eq_ok`), a loop that collects its
results (`forall₂_of_mapM`), and a loop over a state (`exists_foldlM_eq_ok`,
`invariant_of_foldlM`).  What holds of all its inputs and what holds of all its results are compared
with `forall_mem_iff_of_forall₂`.

A computation that also changes a state (`EStateM`) ends in success or failure, and each end of a
sequence comes from one of its parts (`bind_eq_ok`, `bind_eq_error`).
-/

namespace Except

variable {ε ε' α β : Type}

theorem bind_eq_ok {x : Except ε α} {f : α → Except ε β} {b : β} :
    x >>= f = .ok b ↔ ∃ a, x = .ok a ∧ f a = .ok b := by
  constructor
  · intro h
    cases x with
    | error e => cases h
    | ok a => exact ⟨a, rfl, h⟩
  · rintro ⟨a, rfl, h⟩
    exact h

theorem map_eq_ok {x : Except ε α} {f : α → β} {b : β} :
    x.map f = .ok b ↔ ∃ a, x = .ok a ∧ f a = b := by
  cases x <;> simp [Except.map]

theorem mapError_eq_ok {x : Except ε α} {f : ε → ε'} {a : α} :
    x.mapError f = .ok a ↔ x = .ok a := by
  cases x <;> simp [Except.mapError]

theorem toOption_eq_some_iff {x : Except ε α} {a : α} : x.toOption = some a ↔ x = .ok a := by
  cases x <;> simp [Except.toOption]

/-- A check before a computation. -/
theorem ite_error_eq_ok {p : Prop} [Decidable p] {e : ε} {x : Except ε α} {a : α} :
    (if p then .error e else x) = .ok a ↔ ¬ p ∧ x = .ok a := by
  by_cases h : p <;> simp [h]

/-- A computation that is seen to succeed, with a result that passes a test. -/
theorem exists_ok_of_any {x : Except ε α} {p : α → Bool} (h : x.toOption.any p = true) :
    ∃ a, x = .ok a ∧ p a = true := by
  cases x with
  | error e => cases h
  | ok a => exact ⟨a, rfl, h⟩

/-- A loop that collects the results of its rounds. -/
theorem forall₂_of_mapM {f : α → Except ε β} {xs : List α} {ys : List β}
    (h : xs.mapM f = .ok ys) : List.Forall₂ (fun x y => f x = .ok y) xs ys := by
  induction xs generalizing ys with
  | nil =>
    obtain rfl := Except.ok.inj h
    exact .nil
  | cons x xs ih =>
    rw [List.mapM_cons, bind_eq_ok] at h
    obtain ⟨y, hy, h⟩ := h
    obtain ⟨ys', hys, h⟩ := bind_eq_ok.mp h
    obtain rfl := Except.ok.inj h
    exact .cons hy (ih hys)

/-- A loop whose rounds all succeed. -/
theorem mapM_eq_ok {f : α → Except ε β} {g : α → β} {xs : List α}
    (h : ∀ x ∈ xs, f x = .ok (g x)) : xs.mapM f = .ok (xs.map g) := by
  induction xs with
  | nil => rfl
  | cons x xs ih =>
    rw [List.forall_mem_cons] at h
    rw [List.mapM_cons, h.1, bind_eq_ok]
    exact ⟨g x, rfl, bind_eq_ok.mpr ⟨xs.map g, ih h.2, rfl⟩⟩

/-- A loop over the places of a list. -/
theorem mapM_range_eq_ok {f : ℕ → Except ε β} {g : α → β} {xs : List α}
    (h : ∀ i x, xs[i]? = some x → f i = .ok (g x)) :
    (List.range xs.length).mapM f = .ok (xs.map g) := by
  induction xs using List.reverseRecOn with
  | nil => rfl
  | append_singleton xs x ih =>
    have hlast : f xs.length = .ok (g x) := h _ _ List.getElem?_concat_length
    have hinit : (List.range xs.length).mapM f = .ok (xs.map g) := ih fun i y hy => by
      have hlt : i < xs.length := (List.getElem?_eq_some_iff.mp hy).1
      exact h i y (by rw [List.getElem?_append_left hlt, hy])
    rw [List.length_append, List.length_singleton, List.range_succ, List.mapM_append, hinit,
      List.mapM_cons, hlast, List.map_append]
    rfl

/-- What each round of a loop keeps holds at its end. -/
theorem invariant_of_foldlM {σ : Type} {f : σ → α → Except ε σ} {I : σ → Prop} {xs : List α}
    (hstep : ∀ s t, ∀ x ∈ xs, I s → f s x = .ok t → I t) {s t : σ} (hs : I s)
    (h : xs.foldlM f s = .ok t) : I t := by
  induction xs generalizing s with
  | nil =>
    obtain rfl := Except.ok.inj h
    exact hs
  | cons x xs ih =>
    rw [List.foldlM_cons, bind_eq_ok] at h
    obtain ⟨s', hx, h⟩ := h
    have hs' : I s' := hstep s s' x List.mem_cons_self hs hx
    exact ih (fun s t y hy => hstep s t y (List.mem_cons_of_mem _ hy)) hs' h

/-- A loop over a state whose rounds all succeed, with a relation between the inputs that are done
and the state. -/
theorem exists_foldlM_eq_ok {σ : Type} {f : σ → α → Except ε σ} {I : List α → σ → Prop}
    {xs : List α} {s : σ} (hs : I [] s)
    (hstep : ∀ done s, ∀ x ∈ xs, I done s → ∃ t, f s x = .ok t ∧ I (done ++ [x]) t) :
    ∃ t, xs.foldlM f s = .ok t ∧ I xs t := by
  suffices key : ∀ (todo done : List α) (s : σ), (∀ x ∈ todo, x ∈ xs) → I done s →
      ∃ t, todo.foldlM f s = .ok t ∧ I (done ++ todo) t by
    exact key xs [] s (fun _ hx => hx) hs
  intro todo
  induction todo with
  | nil =>
    intro done s _ hI
    exact ⟨s, rfl, by rwa [List.append_nil]⟩
  | cons x todo ih =>
    intro done s hmem hI
    rw [List.forall_mem_cons] at hmem
    obtain ⟨t, hx, ht⟩ := hstep done s x hmem.1 hI
    obtain ⟨u, hu, hI'⟩ := ih (done ++ [x]) t hmem.2 ht
    rw [List.append_assoc, List.singleton_append] at hI'
    exact ⟨u, by rw [List.foldlM_cons, bind_eq_ok]; exact ⟨t, hx, hu⟩, hI'⟩

end Except

namespace EStateM

variable {ε σ α β : Type}

theorem bind_eq_ok {x : EStateM ε σ α} {f : α → EStateM ε σ β} {b : β} {s t : σ} :
    (x >>= f) s = .ok b t ↔ ∃ a s', x s = .ok a s' ∧ f a s' = .ok b t := by
  rw [show (x >>= f) s = EStateM.bind x f s from rfl, EStateM.bind]
  cases h : x s with
  | ok a s' => simp
  | error e s' => simp

theorem bind_eq_error {x : EStateM ε σ α} {f : α → EStateM ε σ β} {e : ε} {s t : σ} :
    (x >>= f) s = .error e t ↔ x s = .error e t ∨ ∃ a s', x s = .ok a s' ∧ f a s' = .error e t := by
  rw [show (x >>= f) s = EStateM.bind x f s from rfl, EStateM.bind]
  cases h : x s with
  | ok a s' => simp
  | error e' s' => simp

end EStateM

/-- Two properties that agree on related elements hold of all elements of related lists alike. -/
theorem forall_mem_iff_of_forall₂ {α β : Type*} {R : α → β → Prop} {P : α → Prop} {Q : β → Prop}
    {xs : List α} {ys : List β} (h : List.Forall₂ R xs ys)
    (hPQ : ∀ x ∈ xs, ∀ y, R x y → (P x ↔ Q y)) :
    (∀ x ∈ xs, P x) ↔ ∀ y ∈ ys, Q y := by
  induction h with
  | nil => simp
  | cons hxy _ ih =>
    have hrest := ih fun x hx => hPQ x (List.mem_cons_of_mem _ hx)
    rw [List.forall_mem_cons, List.forall_mem_cons, hPQ _ List.mem_cons_self _ hxy, hrest]
