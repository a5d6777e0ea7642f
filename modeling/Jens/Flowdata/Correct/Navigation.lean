import Jens.Flowdata.Correct.Eligibility
import Mathlib.Order.Bounds.Basic

/-!
# Moving the selection

The selection moves along the list of the eligible flows.  While the selected flow is in that list
both directions lead to its neighbours.  A selected flow that has left the list stands between two
places of it, and there `SelectNextFlowIndex` wraps around at the end, `SelectPreviousFlowIndex`
goes one flow too far, or off the list.  `navigationSafe_iff` and `movesToNeighbours_iff` say when
each of this happens.
-/

namespace Jens

theorem indexAt_append {α : Type} (xs : List α) (x : α) (ys : List α) {i : ℤ} (hi : i = xs.length) :
    indexAt (xs ++ x :: ys) i = .ok x := by
  rw [indexAt, hi, if_neg (by omega), Int.toNat_natCast, List.getElem?_append_right le_rfl,
    Nat.sub_self]
  rfl

theorem indexAt_neg {α : Type} (xs : List α) {i : ℤ} (hi : i < 0) :
    indexAt xs i = .error (indexOutOfRange i xs.length) := by
  rw [indexAt, if_pos hi]

theorem exactMatch_ne_nextMatch : RelativeIndexMatchType.exactMatch ≠ .nextMatch := by
  decide

section Parts

variable {eligible : ℕ → Bool} {sel : ℤ} {n : ℕ}

/-- At most one flow is the selected one. -/
theorem eligibleSelected_eq {k : ℕ} {rest : List ℕ}
    (h : eligibleSelected eligible sel n = k :: rest) : k = sel ∧ rest = [] := by
  have hmem {i : ℕ} (hi : i ∈ k :: rest) : (i : ℤ) = sel := (mem_eligibleSelected.mp (h ▸ hi)).2.2
  have hk := hmem List.mem_cons_self
  refine ⟨hk, List.eq_nil_iff_forall_not_mem.mpr fun i hi => ?_⟩
  have hnodup : (k :: rest).Nodup := h ▸ List.nodup_range.filter _
  have hik : i = k := Int.ofNat_inj.mp ((hmem (List.mem_cons_of_mem _ hi)).trans hk.symm)
  exact (List.nodup_cons.mp hnodup).1 (hik ▸ hi)

theorem isLeast_eligibleAbove {a : ℕ} {rest : List ℕ}
    (h : eligibleAbove eligible sel n = a :: rest) :
    IsLeast {i : ℕ | i < n ∧ eligible i = true ∧ sel < i} a := by
  have hsorted : (a :: rest).Pairwise (· < ·) := h ▸ List.pairwise_lt_range.filter _
  refine ⟨mem_eligibleAbove.mp (h ▸ List.mem_cons_self), fun i hi => ?_⟩
  rcases List.mem_cons.mp (h ▸ mem_eligibleAbove.mpr hi) with rfl | hrest
  · exact le_rfl
  · exact (List.rel_of_pairwise_cons hsorted hrest).le

theorem isGreatest_eligibleBelow {init : List ℕ} {b : ℕ}
    (h : eligibleBelow eligible sel n = init ++ [b]) :
    IsGreatest {i : ℕ | i < n ∧ eligible i = true ∧ i < sel} b := by
  have hsorted : (init ++ [b]).Pairwise (· < ·) := h ▸ List.pairwise_lt_range.filter _
  refine ⟨mem_eligibleBelow.mp (h ▸ List.mem_concat_self), fun i hi => ?_⟩
  rcases List.mem_append.mp (h ▸ mem_eligibleBelow.mpr hi) with hinit | hlast
  · exact ((List.pairwise_append.mp hsorted).2.2 i hinit b (List.mem_singleton_self _)).le
  · exact (List.mem_singleton.mp hlast).le

end Parts

/-! ### One step -/

/-- The list of the eligible flows is made of these parts. -/
structure Parted (test : ℕ → FlowT → Except Failure Bool) (man : FlowManager)
    (below selected above : List ℕ) (r : EligibleFlows) : Prop where
  result : man.eligibleFLows test = .ok r
  absoluteIndexes : r.absoluteIndexes = below ++ selected ++ above
  relative : r.relativeIndexOfSelected = placeOf below selected above

namespace Parted

variable {test : ℕ → FlowT → Except Failure Bool} {man : FlowManager} {r : EligibleFlows}
variable {below selected above : List ℕ} {a b c k : ℕ}

theorem next_of_few (h : Parted test man below selected above r)
    (hfew : (below ++ selected ++ above).length ≤ 1) :
    man.selectNextFlowIndex test = .ok (man, some "no Flows are eligable/ existent") := by
  refine Except.bind_eq_ok.mpr ⟨r, h.result, ?_⟩
  rw [h.absoluteIndexes, if_pos hfew]
  rfl

/-- The first flow above, if the selected one is listed. -/
theorem next_of_selected (h : Parted test man below [k] (a :: above) r) :
    man.selectNextFlowIndex test = .ok ({ man with selectedFlowIndex := a }, none) := by
  have hat : indexAt (below ++ [k] ++ a :: above) (below.length + 1) = .ok a :=
    indexAt_append _ _ _ (by simp)
  have hmany : ¬ (below ++ [k] ++ a :: above).length ≤ 1 := by simp; omega
  have hlast : ((below.length : ℤ)) ≠ (below ++ [k] ++ a :: above).length - 1 := by simp; omega
  refine Except.bind_eq_ok.mpr ⟨r, h.result, ?_⟩
  rw [h.absoluteIndexes, h.relative, if_neg hmany, placeOf, if_neg exactMatch_ne_nextMatch,
    if_neg hlast, hat]
  rfl

/-- The selected flow is the last one. -/
theorem next_of_last (h : Parted test man (b :: below) [k] [] r) :
    man.selectNextFlowIndex test =
      .ok (man, some "cant increment SelectedFlowIndex. It is the maxvalue") := by
  have hmany : ¬ (b :: below ++ [k] ++ []).length ≤ 1 := by simp
  have hlast : ((b :: below).length : ℤ) = (b :: below ++ [k] ++ []).length - 1 := by simp
  refine Except.bind_eq_ok.mpr ⟨r, h.result, ?_⟩
  rw [h.absoluteIndexes, h.relative, if_neg hmany, placeOf, if_neg exactMatch_ne_nextMatch,
    if_pos hlast]
  rfl

/-- The first flow above, if the selected one is not listed. -/
theorem next_of_above (h : Parted test man below [] (a :: above) r)
    (hmany : ¬ (below ++ [] ++ a :: above).length ≤ 1) :
    man.selectNextFlowIndex test = .ok ({ man with selectedFlowIndex := a }, none) := by
  have hat : indexAt (below ++ [] ++ a :: above) below.length = .ok a :=
    indexAt_append _ _ _ (by simp)
  refine Except.bind_eq_ok.mpr ⟨r, h.result, ?_⟩
  rw [h.absoluteIndexes, h.relative, if_neg hmany, placeOf, if_pos rfl, hat]
  rfl

/-- All flows are below: it starts again with the first one. -/
theorem next_wraps (h : Parted test man (a :: b :: below) [] [] r) :
    man.selectNextFlowIndex test = .ok ({ man with selectedFlowIndex := a }, none) := by
  have hat : indexAt (a :: b :: below ++ [] ++ []) (-1 + 1) = .ok a := rfl
  have hmany : ¬ (a :: b :: below ++ [] ++ []).length ≤ 1 := by simp
  have hlast : (-1 : ℤ) ≠ (a :: b :: below ++ [] ++ []).length - 1 := by simp; omega
  refine Except.bind_eq_ok.mpr ⟨r, h.result, ?_⟩
  rw [h.absoluteIndexes, h.relative, if_neg hmany, placeOf, if_neg exactMatch_ne_nextMatch,
    if_neg hlast, hat]
  rfl

/-- The error of `SelectPreviousFlowIndex`. -/
def noPrevious : String :=
  "cant decrement SelectedFlowIndex. Either no other flows or at the beginning"

/-- The index whose predecessor is taken. -/
def previousIndex (below : List ℕ) : List ℕ → List ℕ → ℤ
  | _ :: _, _ => below.length
  | [], _ :: _ => below.length - 1
  | [], [] => -1

/-- `SelectPreviousFlowIndex`, by the parts of the list. -/
theorem previous_eq (h : Parted test man below selected above r) :
    man.selectPreviousFlowIndex test =
      if (below ++ selected ++ above).length ≤ 1 ∨ previousIndex below selected above = 0 then
        .ok (man, some noPrevious)
      else
        (indexAt (below ++ selected ++ above) (previousIndex below selected above - 1)).map
          fun i => ({ man with selectedFlowIndex := i }, none) := by
  have hindex : (if (placeOf below selected above).matchType = .nextMatch then
      (placeOf below selected above).index - 1 else (placeOf below selected above).index) =
      previousIndex below selected above := by
    cases selected with
    | cons k rest => rfl
    | nil => cases above <;> rfl
  rw [FlowManager.selectPreviousFlowIndex, h.result]
  show (if _ then _ else _) = _
  rw [h.absoluteIndexes, h.relative, hindex]
  split_ifs
  · rfl
  · cases indexAt (below ++ selected ++ above) (previousIndex below selected above - 1) <;> rfl

theorem previous_of_few (h : Parted test man below selected above r)
    (hfew : (below ++ selected ++ above).length ≤ 1) :
    man.selectPreviousFlowIndex test = .ok (man, some noPrevious) := by
  rw [h.previous_eq, if_pos (.inl hfew)]

/-- The selected flow is the first one. -/
theorem previous_of_first (h : Parted test man [] [k] above r) :
    man.selectPreviousFlowIndex test = .ok (man, some noPrevious) := by
  rw [h.previous_eq, if_pos (.inr rfl)]

/-- The last flow below, if the selected one is listed. -/
theorem previous_of_selected (h : Parted test man (below ++ [b]) [k] above r) :
    man.selectPreviousFlowIndex test = .ok ({ man with selectedFlowIndex := b }, none) := by
  have hat : indexAt (below ++ [b] ++ [k] ++ above) ((below ++ [b]).length - 1) = .ok b := by
    rw [List.append_assoc, List.append_assoc]
    exact indexAt_append _ _ _ (by simp)
  have hmany : ¬ ((below ++ [b] ++ [k] ++ above).length ≤ 1 ∨ ((below ++ [b]).length : ℤ) = 0) := by
    simp; omega
  rw [h.previous_eq, previousIndex, if_neg hmany, hat]
  rfl

/-- One flow below, and the selected one is not listed. -/
theorem previous_of_one (h : Parted test man [b] [] (a :: above) r) :
    man.selectPreviousFlowIndex test = .ok (man, some noPrevious) := by
  rw [h.previous_eq, if_pos (.inr rfl)]

/-- Two flows below, and the selected one is not listed: it goes past the one next to it. -/
theorem previous_skips (h : Parted test man (below ++ [c, b]) [] (a :: above) r) :
    man.selectPreviousFlowIndex test = .ok ({ man with selectedFlowIndex := c }, none) := by
  have hat : indexAt (below ++ [c, b] ++ [] ++ a :: above)
      ((below ++ [c, b]).length - 1 - 1) = .ok c := by
    rw [List.append_nil, List.append_assoc]
    exact indexAt_append _ _ _ (by simp; omega)
  have hmany : ¬ ((below ++ [c, b] ++ [] ++ a :: above).length ≤ 1 ∨
      ((below ++ [c, b]).length : ℤ) - 1 = 0) := by
    simp; omega
  rw [h.previous_eq, previousIndex, if_neg hmany, hat]
  rfl

/-- The selected flow is not listed, and all others are on one side of it: it goes off the list. -/
theorem previous_panics (h : Parted test man below [] above r) (hside : below = [] ∨ above = [])
    (hmany : ¬ (below ++ above).length ≤ 1) :
    man.selectPreviousFlowIndex test =
      .error (indexOutOfRange (-2) (below ++ above).length) := by
  have hindex : previousIndex below [] above = -1 := by
    rcases hside with rfl | rfl
    · cases above <;> rfl
    · rfl
  have hat : indexAt (below ++ above) (-1 - 1) =
      .error (indexOutOfRange (-2) (below ++ above).length) := indexAt_neg _ (by omega)
  rw [h.previous_eq, hindex, List.append_nil, if_neg (not_or.mpr ⟨hmany, by omega⟩), hat]
  rfl

end Parted

/-! ### Every state -/

/-- The flow that is selected is there, or there are none. -/
def FlowManager.SelectionValid (man : FlowManager) : Prop :=
  man.flows = [] ∨ 0 ≤ man.selectedFlowIndex ∧ man.selectedFlowIndex < man.flows.length

/-- A step of the selection does not panic, leaves a valid selection, and does not move with an
error. -/
def StepSafe (man : FlowManager) (result : Except Failure (FlowManager × Option String)) : Prop :=
  ∃ man' err, result = .ok (man', err) ∧ man'.flows = man.flows ∧ man'.SelectionValid ∧
    (err ≠ none → man'.selectedFlowIndex = man.selectedFlowIndex)

theorem stepSafe_of_error {man : FlowManager} (h : man.SelectionValid) (msg : String) :
    StepSafe man (.ok (man, some msg)) :=
  ⟨man, some msg, rfl, rfl, h, fun _ => rfl⟩

theorem stepSafe_of_moved {man : FlowManager} {i : ℕ} (h : i < man.flows.length) :
    StepSafe man (.ok ({ man with selectedFlowIndex := i }, none)) :=
  ⟨_, none, rfl, rfl, .inr ⟨Int.natCast_nonneg i, Int.ofNat_lt.mpr h⟩, fun hne => absurd rfl hne⟩

/-- What returns an error has not moved. -/
theorem not_moved_of_error {man man' : FlowManager} {msg : String} :
    (man, some msg) ≠ (man', none) := by
  intro h
  cases congrArg Prod.snd h

section Navigation

variable (eligible : ℕ → Bool) (man : FlowManager)

/-- The eligible flows below the selected one. -/
def FlowManager.below : List ℕ := eligibleBelow eligible man.selectedFlowIndex man.flows.length

/-- The selected flow, if it is eligible. -/
def FlowManager.selected : List ℕ :=
  eligibleSelected eligible man.selectedFlowIndex man.flows.length

/-- The eligible flows above the selected one. -/
def FlowManager.above : List ℕ := eligibleAbove eligible man.selectedFlowIndex man.flows.length

/-- The neighbours of the selected flow are where the steps lead. -/
structure MovesToNeighbours (test : ℕ → FlowT → Except Failure Bool) : Prop where
  next : ∀ i : ℕ, IsLeast {i : ℕ | i < man.flows.length ∧ eligible i = true ∧
      man.selectedFlowIndex < i} i →
    man.selectNextFlowIndex test = .ok ({ man with selectedFlowIndex := i }, none)
  noNext : (∀ i < man.flows.length, eligible i = true → ¬ man.selectedFlowIndex < i) →
    ∃ msg, man.selectNextFlowIndex test = .ok (man, some msg)
  previous : (∀ e, man.selectPreviousFlowIndex test ≠ .error e) →
    ∀ i : ℕ, IsGreatest {i : ℕ | i < man.flows.length ∧ eligible i = true ∧
      i < man.selectedFlowIndex} i →
    man.selectPreviousFlowIndex test = .ok ({ man with selectedFlowIndex := i }, none)
  noPrevious : (∀ e, man.selectPreviousFlowIndex test ≠ .error e) →
    (∀ i < man.flows.length, eligible i = true → ¬ i < man.selectedFlowIndex) →
    ∃ msg, man.selectPreviousFlowIndex test = .ok (man, some msg)

variable {eligible man} {test : ℕ → FlowT → Except Failure Bool}

/-- A step back that has a result has gone to the nearest flow below. -/
theorem MovesToNeighbours.eq_of_previous (h : MovesToNeighbours eligible man test)
    {x : FlowManager × Option String} (hok : man.selectPreviousFlowIndex test = .ok x) {i : ℕ}
    (hi : IsGreatest {i : ℕ | i < man.flows.length ∧ eligible i = true ∧
      i < man.selectedFlowIndex} i) :
    x = ({ man with selectedFlowIndex := i }, none) := by
  have hne : ∀ e, man.selectPreviousFlowIndex test ≠ .error e := by
    intro e he
    rw [hok] at he
    cases he
  exact Except.ok.inj (hok.symm.trans (h.previous hne i hi))

theorem exists_parted (h : ∀ i f, man.flows[i]? = some f → test i f = .ok (eligible i)) :
    ∃ r, Parted test man (man.below eligible) (man.selected eligible) (man.above eligible) r := by
  obtain ⟨r, hr, hlisted⟩ := FlowManager.eligibleFLows_eq_ok h
  exact ⟨r, hr, hlisted.absoluteIndexes, hlisted.relative⟩

theorem selected_cases (eligible : ℕ → Bool) (man : FlowManager) :
    man.selected eligible = [] ∨ ∃ k, man.selected eligible = [k] := by
  cases hsel : man.selected eligible with
  | nil => exact .inl rfl
  | cons k rest =>
    obtain ⟨-, rfl⟩ := eligibleSelected_eq hsel
    exact .inr ⟨k, rfl⟩

section Safe

variable {r : EligibleFlows} (hvalid : man.SelectionValid)
  (hr : Parted test man (man.below eligible) (man.selected eligible) (man.above eligible) r)
include hvalid hr

theorem next_safe : StepSafe man (man.selectNextFlowIndex test) := by
  have hbelow : ∀ i ∈ man.below eligible, i < man.flows.length := fun i hi =>
    (mem_eligibleBelow.mp hi).1
  have habove : ∀ i ∈ man.above eligible, i < man.flows.length := fun i hi =>
    (mem_eligibleAbove.mp hi).1
  generalize man.below eligible = below at *
  generalize man.above eligible = above at *
  by_cases hfew : (below ++ man.selected eligible ++ above).length ≤ 1
  · rw [hr.next_of_few hfew]
    exact stepSafe_of_error hvalid _
  · rcases selected_cases eligible man with hsel | ⟨k, hsel⟩
    · rw [hsel] at hr hfew
      cases above with
      | cons a above =>
        rw [hr.next_of_above hfew]
        exact stepSafe_of_moved (habove a List.mem_cons_self)
      | nil =>
        match below with
        | [] | [_] => exact absurd (by simp) hfew
        | a :: b :: below =>
          rw [hr.next_wraps]
          exact stepSafe_of_moved (hbelow a List.mem_cons_self)
    · rw [hsel] at hr hfew
      cases above with
      | cons a above =>
        rw [hr.next_of_selected]
        exact stepSafe_of_moved (habove a List.mem_cons_self)
      | nil =>
        cases below with
        | nil => exact absurd (by simp) hfew
        | cons b below =>
          rw [hr.next_of_last]
          exact stepSafe_of_error hvalid _

theorem previous_safe (hside : man.selected eligible ≠ [] ∨
    man.below eligible ≠ [] ∧ man.above eligible ≠ []) :
    StepSafe man (man.selectPreviousFlowIndex test) := by
  have hbelow : ∀ i ∈ man.below eligible, i < man.flows.length := fun i hi =>
    (mem_eligibleBelow.mp hi).1
  generalize man.below eligible = below at *
  generalize man.above eligible = above at *
  rcases selected_cases eligible man with hsel | ⟨k, hsel⟩
  · obtain ⟨hne, hne'⟩ := hside.resolve_left (not_not_intro hsel)
    rw [hsel] at hr
    obtain ⟨a, above, rfl⟩ := List.exists_cons_of_ne_nil hne'
    obtain ⟨init, b, rfl⟩ := (List.eq_nil_or_concat' below).resolve_left hne
    rcases List.eq_nil_or_concat' init with rfl | ⟨init, c, rfl⟩
    · rw [hr.previous_of_one]
      exact stepSafe_of_error hvalid _
    · rw [List.append_assoc] at hr
      rw [hr.previous_skips]
      exact stepSafe_of_moved (hbelow c (by simp))
  · rw [hsel] at hr
    rcases List.eq_nil_or_concat' below with rfl | ⟨init, b, rfl⟩
    · rw [hr.previous_of_first]
      exact stepSafe_of_error hvalid _
    · rw [hr.previous_of_selected]
      exact stepSafe_of_moved (hbelow b (by simp))

end Safe

/-- **The steps are safe exactly if there are not two eligible flows, or the selected flow is
eligible, or there are eligible flows on both of its sides.** -/
theorem navigationSafe_iff (h : ∀ i f, man.flows[i]? = some f → test i f = .ok (eligible i))
    (hvalid : man.SelectionValid) :
    (StepSafe man (man.selectNextFlowIndex test) ∧
      StepSafe man (man.selectPreviousFlowIndex test)) ↔
      (man.below eligible ++ man.selected eligible ++ man.above eligible).length ≤ 1 ∨
        man.selected eligible ≠ [] ∨ man.below eligible ≠ [] ∧ man.above eligible ≠ [] := by
  obtain ⟨r, hr⟩ := exists_parted h
  rw [and_iff_right (next_safe hvalid hr)]
  constructor
  · rintro ⟨man', err, hok, -⟩
    by_contra hcond
    rw [not_or, not_or, not_not] at hcond
    obtain ⟨hmany, hsel, hside⟩ := hcond
    rw [hsel] at hr hmany
    rw [List.append_nil] at hmany
    rw [hr.previous_panics (by tauto) hmany] at hok
    cases hok
  · rintro (hfew | hside)
    · rw [hr.previous_of_few hfew]
      exact stepSafe_of_error hvalid _
    · exact previous_safe hvalid hr hside

section Neighbours

variable {r : EligibleFlows}
  (hr : Parted test man (man.below eligible) (man.selected eligible) (man.above eligible) r)
include hr

/-- Where the steps lead to the neighbours. -/
theorem movesToNeighbours_of (hcond : man.selected eligible ≠ [] ∨
    man.below eligible = [] ∧ (man.above eligible).length ≠ 1) :
    MovesToNeighbours eligible man test where
  next i hi := by
    have hmem : i ∈ man.above eligible := mem_eligibleAbove.mpr hi.1
    obtain ⟨a, rest, habove⟩ := List.exists_cons_of_ne_nil (List.ne_nil_of_mem hmem)
    obtain rfl := (isLeast_eligibleAbove habove).unique hi
    rw [habove] at hr hcond
    rcases selected_cases eligible man with hsel | ⟨k, hsel⟩
    · rw [hsel] at hr hcond
      obtain ⟨-, hlen⟩ := hcond.resolve_left (not_not_intro rfl)
      refine hr.next_of_above ?_
      simp only [List.length_append, List.length_cons, List.length_nil] at hlen ⊢
      omega
    · rw [hsel] at hr
      exact hr.next_of_selected
  noNext hnone := by
    have habove : man.above eligible = [] := List.eq_nil_iff_forall_not_mem.mpr fun i hi =>
      have hi := mem_eligibleAbove.mp hi
      hnone i hi.1 hi.2.1 hi.2.2
    rw [habove] at hr
    rcases selected_cases eligible man with hsel | ⟨k, hsel⟩
    · obtain ⟨hbelow, -⟩ := hcond.resolve_left (not_not_intro hsel)
      rw [hsel, hbelow] at hr
      exact ⟨_, hr.next_of_few (by simp)⟩
    · rw [hsel] at hr
      cases hbelow : man.below eligible with
      | nil =>
        rw [hbelow] at hr
        exact ⟨_, hr.next_of_few (by simp)⟩
      | cons b below =>
        rw [hbelow] at hr
        exact ⟨_, hr.next_of_last⟩
  previous _ i hi := by
    have hmem : i ∈ man.below eligible := mem_eligibleBelow.mpr hi.1
    obtain ⟨init, b, hbelow⟩ := (List.eq_nil_or_concat' _).resolve_left (List.ne_nil_of_mem hmem)
    obtain rfl := (isGreatest_eligibleBelow hbelow).unique hi
    rcases selected_cases eligible man with hsel | ⟨k, hsel⟩
    · obtain ⟨hnil, -⟩ := hcond.resolve_left (not_not_intro hsel)
      exact absurd hnil (List.ne_nil_of_mem hmem)
    · rw [hbelow, hsel] at hr
      exact hr.previous_of_selected
  noPrevious hok hnone := by
    have hbelow : man.below eligible = [] := List.eq_nil_iff_forall_not_mem.mpr fun i hi =>
      have hi := mem_eligibleBelow.mp hi
      hnone i hi.1 hi.2.1 hi.2.2
    rw [hbelow] at hr
    rcases selected_cases eligible man with hsel | ⟨k, hsel⟩
    · rw [hsel] at hr
      by_cases hfew : (man.above eligible).length ≤ 1
      · exact ⟨_, hr.previous_of_few (by simpa using hfew)⟩
      · exact absurd (hr.previous_panics (.inl rfl) (by simpa using hfew)) (hok _)
    · rw [hsel] at hr
      exact ⟨_, hr.previous_of_first⟩

/-- All eligible flows are below, and the selected one is not among them. -/
theorem not_movesToNeighbours_of_below (hsel : man.selected eligible = [])
    (hbelow : man.below eligible ≠ []) (habove : man.above eligible = []) :
    ¬ MovesToNeighbours eligible man test := by
  intro hmoves
  rw [hsel, habove] at hr
  have hnone : ∀ i < man.flows.length, eligible i = true → ¬ man.selectedFlowIndex < i := by
    intro i hi heligible hlt
    have hmem : i ∈ man.above eligible := mem_eligibleAbove.mpr ⟨hi, heligible, hlt⟩
    rw [habove] at hmem
    cases hmem
  obtain ⟨msg, herror⟩ := hmoves.noNext hnone
  match hlist : man.below eligible with
  | [] => exact hbelow hlist
  | [b] =>
    -- the step back does not move
    rw [hlist] at hr
    have hgreatest := isGreatest_eligibleBelow (hlist.trans (List.nil_append [b]).symm)
    have hback := hr.previous_of_few (by simp)
    exact not_moved_of_error (hmoves.eq_of_previous hback hgreatest)
  | a :: b :: below =>
    rw [hlist] at hr
    rw [hr.next_wraps] at herror
    exact not_moved_of_error (Except.ok.inj herror).symm

/-- The selected flow is not eligible, and there are eligible ones on both of its sides. -/
theorem not_movesToNeighbours_of_between (hsel : man.selected eligible = [])
    (hbelow : man.below eligible ≠ []) (habove : man.above eligible ≠ []) :
    ¬ MovesToNeighbours eligible man test := by
  intro hmoves
  obtain ⟨a, above, habove⟩ := List.exists_cons_of_ne_nil habove
  obtain ⟨init, b, hlist⟩ := (List.eq_nil_or_concat' _).resolve_left hbelow
  rw [hsel, habove, hlist] at hr
  have hgreatest := isGreatest_eligibleBelow hlist
  rcases List.eq_nil_or_concat' init with rfl | ⟨init, c, rfl⟩
  · exact not_moved_of_error (hmoves.eq_of_previous hr.previous_of_one hgreatest)
  · rw [List.append_assoc] at hr
    have hmoved := hmoves.eq_of_previous hr.previous_skips hgreatest
    -- it has gone to `c`, which is below `b`
    have hcb : c = b := by
      have hindex := congrArg (fun moved => moved.1.selectedFlowIndex) hmoved
      exact Int.ofNat_inj.mp hindex
    have hsorted : (init ++ [c] ++ [b]).Pairwise (· < ·) :=
      hlist ▸ List.pairwise_lt_range.filter _
    have hlt := (List.pairwise_append.mp hsorted).2.2 c (by simp) b (by simp)
    omega

/-- There is just one eligible flow, above the selected one. -/
theorem not_movesToNeighbours_of_one (hsel : man.selected eligible = [])
    (hbelow : man.below eligible = []) (habove : (man.above eligible).length = 1) :
    ¬ MovesToNeighbours eligible man test := by
  intro hmoves
  obtain ⟨a, habove⟩ := List.length_eq_one_iff.mp habove
  rw [hsel, hbelow, habove] at hr
  have hmoved := hmoves.next a (isLeast_eligibleAbove habove)
  rw [hr.next_of_few (by simp)] at hmoved
  exact not_moved_of_error (Except.ok.inj hmoved)

end Neighbours

/-- Three flows, of which one is selected. -/
def threeFlows (selected : ℤ) : FlowManager where
  flows := List.replicate 3 (flowOfPoints 0)
  selectedFlowIndex := selected
  version := 4

/-- All of three flows are eligible. -/
theorem navigationSafe_threeFlows :
    StepSafe (threeFlows 1) ((threeFlows 1).selectNextFlowIndex fun _ _ => .ok true) ∧
      StepSafe (threeFlows 1) ((threeFlows 1).selectPreviousFlowIndex fun _ _ => .ok true) :=
  (@navigationSafe_iff (fun _ => true) (threeFlows 1) (fun _ _ => .ok true) (fun _ _ _ => rfl)
    (.inr (by decide))).mpr (.inr (.inl (by decide)))

/-- **The first of three flows is selected, and not eligible.**  The step back takes the index `-2`.
-/
theorem previous_of_first_panics :
    (threeFlows 0).SelectionValid ∧
      (threeFlows 0).selectPreviousFlowIndex (fun i _ => .ok (decide (i ≠ 0))) =
        .error (.panic "runtime error: index out of range [-2]") ∧
      ¬ StepSafe (threeFlows 0)
        ((threeFlows 0).selectPreviousFlowIndex fun i _ => .ok (decide (i ≠ 0))) := by
  have hpanic : (threeFlows 0).selectPreviousFlowIndex (fun i _ => .ok (decide (i ≠ 0))) =
      .error (.panic "runtime error: index out of range [-2]") := by decide +kernel
  refine ⟨.inr (by decide), hpanic, ?_⟩
  rintro ⟨man', err, hok, -⟩
  rw [hpanic] at hok
  cases hok

/-- **The steps lead to the neighbours exactly if the selected flow is eligible, or no eligible flow
is below it and not just one above it.** -/
theorem movesToNeighbours_iff (h : ∀ i f, man.flows[i]? = some f → test i f = .ok (eligible i)) :
    MovesToNeighbours eligible man test ↔
      man.selected eligible ≠ [] ∨ man.below eligible = [] ∧ (man.above eligible).length ≠ 1 := by
  obtain ⟨r, hr⟩ := exists_parted h
  refine ⟨fun hmoves => ?_, movesToNeighbours_of hr⟩
  by_contra hcond
  rw [not_or, not_not] at hcond
  obtain ⟨hsel, hside⟩ := hcond
  by_cases hbelow : man.below eligible = []
  · have hone : (man.above eligible).length = 1 := by tauto
    exact not_movesToNeighbours_of_one hr hsel hbelow hone hmoves
  · by_cases habove : man.above eligible = []
    · exact not_movesToNeighbours_of_below hr hsel hbelow habove hmoves
    · exact not_movesToNeighbours_of_between hr hsel hbelow habove hmoves

/-- All of three flows are eligible. -/
theorem movesToNeighbours_threeFlows :
    MovesToNeighbours (fun _ => true) (threeFlows 1) fun _ _ => .ok true :=
  (movesToNeighbours_iff fun _ _ _ => rfl).mpr (.inl (by decide))

/-- **The second of three flows is selected, and not eligible.**  The step back finds no flow. -/
theorem previous_of_second_stays :
    (threeFlows 1).selectPreviousFlowIndex (fun i _ => .ok (decide (i ≠ 1))) =
        .ok (threeFlows 1,
          some "cant decrement SelectedFlowIndex. Either no other flows or at the beginning") ∧
      ¬ MovesToNeighbours (fun i => decide (i ≠ 1)) (threeFlows 1)
        fun i _ => .ok (decide (i ≠ 1)) := by
  have hback : (threeFlows 1).selectPreviousFlowIndex (fun i _ => .ok (decide (i ≠ 1))) =
      .ok (threeFlows 1,
        some "cant decrement SelectedFlowIndex. Either no other flows or at the beginning") := by
    decide +kernel
  refine ⟨hback, fun hmoves => ?_⟩
  have hgreatest : IsGreatest {i : ℕ | i < (threeFlows 1).flows.length ∧
      decide (i ≠ 1) = true ∧ (i : ℤ) < (threeFlows 1).selectedFlowIndex} 0 := by
    refine ⟨by decide, fun i hi => ?_⟩
    have hlt : (i : ℤ) < 1 := hi.2.2
    omega
  exact not_moved_of_error (hmoves.eq_of_previous hback hgreatest)

end Navigation

end Jens
