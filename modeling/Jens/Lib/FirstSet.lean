import Mathlib.Tactic.Common

/-!
# The first level that sets a value

A configuration with several levels takes each value from the first level that sets it, and from the
fallback when none does: `firstSet` (`FromFirst` says where a value comes from).  A program that
walks over the levels keeps, for each value, a flag beside it (`Fallback`); `value_foldl_consider`
says that this computes `firstSet`.
-/

variable {α : Type*}

/-- The value of the first level that sets one. -/
def firstSet? (levels : List (Option α)) : Option α := levels.findSome? id

/-- The value of the first level that sets one, or the fallback. -/
def firstSet (fallback : α) (levels : List (Option α)) : α := (firstSet? levels).getD fallback

@[simp] theorem firstSet?_nil : firstSet? ([] : List (Option α)) = none := rfl

@[simp] theorem firstSet?_cons_none (levels : List (Option α)) :
    firstSet? (none :: levels) = firstSet? levels := rfl

@[simp] theorem firstSet?_cons_some (x : α) (levels : List (Option α)) :
    firstSet? (some x :: levels) = some x := rfl

/-- What the fallback has, the value has if those that are set have it. -/
theorem firstSet_iff {P : α → Prop} {fallback : α} (h : P fallback) (levels : List (Option α)) :
    P (firstSet fallback levels) ↔ ∀ x ∈ firstSet? levels, P x := by
  rw [firstSet]
  cases firstSet? levels <;> simp [h]

/-- Where a value comes from: a level that is there and sets it, while no level before it does, or
the fallback if no level sets it. -/
inductive FromFirst {C : Type*} (fallback : α) (get : C → Option α) : List (Option C) → α → Prop
  | level {pre post : List (Option C)} {c : C} {v : α} (hc : get c = some v)
      (hpre : ∀ l ∈ pre, l.bind get = none) : FromFirst fallback get (pre ++ some c :: post) v
  | fallback {levels : List (Option C)} (h : ∀ l ∈ levels, l.bind get = none) :
      FromFirst fallback get levels fallback

theorem fromFirst_firstSet {C : Type*} (fallback : α) (get : C → Option α)
    (levels : List (Option C)) :
    FromFirst fallback get levels (firstSet fallback (levels.map fun l => l.bind get)) := by
  rw [firstSet]
  cases hfirst : firstSet? (levels.map fun l => l.bind get) with
  | none =>
    refine .fallback fun l hl => ?_
    exact List.findSome?_eq_none_iff.mp hfirst _ (List.mem_map_of_mem hl)
  | some v =>
    rw [firstSet?, List.findSome?_map] at hfirst
    obtain ⟨pre, l, post, rfl, hl, hpre⟩ := List.findSome?_eq_some_iff.mp hfirst
    cases l with
    | none => cases hl
    | some c => exact .level hl hpre

/-- A value, and whether a level has set it. -/
structure Fallback (α : Type*) where
  value : α
  isSet : Bool := false

/-- Walk over one more level. -/
def Fallback.consider (s : Fallback α) : Option α → Fallback α
  | some v => if s.isSet then s else ⟨v, true⟩
  | none => s

theorem Fallback.foldl_consider_of_isSet {s : Fallback α} (h : s.isSet = true)
    (levels : List (Option α)) : levels.foldl consider s = s := by
  induction levels with
  | nil => rfl
  | cons x levels ih =>
    have hx : s.consider x = s := by cases x <;> simp [consider, h]
    rw [List.foldl_cons, hx, ih]

/-- **The walk over the levels ends with the first one that sets the value.** -/
theorem Fallback.value_foldl_consider (fallback : α) (levels : List (Option α)) :
    (levels.foldl consider ⟨fallback, false⟩).value = firstSet fallback levels := by
  induction levels with
  | nil => rfl
  | cons x levels ih =>
    cases x with
    | none => exact ih
    | some v => exact congrArg Fallback.value (foldl_consider_of_isSet rfl levels)

/-- A loop over the levels that treats one value among others in this way. -/
theorem Fallback.value_foldl {σ β : Type*} {step : σ → β → σ} (get : σ → Fallback α)
    {opt : β → Option α} (hstep : ∀ s v, get (step s v) = (get s).consider (opt v)) {s : σ}
    {fallback : α} (hs : get s = ⟨fallback, false⟩) (levels : List β) :
    (get (levels.foldl step s)).value = firstSet fallback (levels.map opt) := by
  have hget : get (levels.foldl step s) = (levels.map opt).foldl consider (get s) := by
    rw [List.foldl_map]
    exact (List.foldl_hom get fun s v => (hstep s v).symm).symm
  rw [hget, hs, value_foldl_consider]

/-- So the value comes from the first level that sets it. -/
theorem Fallback.fromFirst_foldl {σ C : Type*} {step : σ → Option C → σ} (get : σ → Fallback α)
    {field : C → Option α} (hstep : ∀ s v, get (step s v) = (get s).consider (v.bind field))
    {s : σ} {fallback : α} (hs : get s = ⟨fallback, false⟩) (levels : List (Option C)) :
    FromFirst fallback field levels (get (levels.foldl step s)).value := by
  rw [value_foldl get hstep hs]
  exact fromFirst_firstSet fallback field levels
