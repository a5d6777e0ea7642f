import Jens.Drp.Correct.PatternIterator

/-!
# What an iterator answers

`answers` are the results of a sequence of calls.  The iterator never looks at the values, so a
change of all values changes the answers in the same way (`answers_map`); and once `Next` has
returned its error every later call of `Next` does (`playsOut_nil_iff`).
-/

namespace Jens

namespace DataRatePatternIterator

variable {α β : Type*}

/-- The calls of a user of an iterator. -/
inductive Call
  | value
  | next
  | setLooping (endless : Bool)
  deriving DecidableEq, Repr

/-- What a call returns, and the iterator after it.  A call that returns an error changes
nothing. -/
def answer (s : DataRatePatternIterator α) :
    Call → Except NextError (Option α) × DataRatePatternIterator α
  | .value => (.ok (some s.value), s)
  | .next =>
    match s.next with
    | .ok (v, t) => (.ok (some v), t)
    | .error e => (.error e, s)
  | .setLooping endless => (.ok none, s.setLooping endless)

/-- What the calls return, one after the other. -/
def answers (s : DataRatePatternIterator α) : List Call → List (Except NextError (Option α))
  | [] => []
  | c :: calls => (s.answer c).1 :: (s.answer c).2.answers calls

theorem answer_next_of_ok {s t : DataRatePatternIterator α} {v : α} (h : s.next = .ok (v, t)) :
    s.answer .next = (.ok (some v), t) := by
  rw [answer, h]

theorem answer_next_of_error {s : DataRatePatternIterator α} {e : NextError}
    (h : s.next = .error e) : s.answer .next = (.error e, s) := by
  rw [answer, h]

/-! ### Other values -/

/-- The iterator over other values, at the same place. -/
def map (f : α → β) (s : DataRatePatternIterator α) : DataRatePatternIterator β where
  looping := s.looping
  operator := s.operator
  data := s.data.map (List.map f)
  position := s.position
  value := f s.value

theorem readIndex_map (f : α → β) (d : List α) (i : ℤ) :
    readIndex (d.map f) i = (readIndex d i).map f := by
  unfold readIndex
  split_ifs
  · exact List.getElem?_map
  · rfl

theorem next_map (f : α → β) (s : DataRatePatternIterator α) :
    (s.map f).next = s.next.map (Prod.map f (map f)) := by
  cases hd : s.data with
  | none => simp [next, map, hd, Except.map]
  | some d =>
    simp only [next, map, hd, Option.map_some, List.length_map, readIndex_map]
    split_ifs
    · simp [Except.map, map]
    · rfl
    · simp [Except.map, map]
    · cases readIndex d 0 <;> simp [Except.map, map]
    · cases readIndex d _ <;> simp [Except.map, map]

theorem answer_map (f : α → β) (s : DataRatePatternIterator α) (c : Call) :
    (s.map f).answer c = Prod.map (Except.map (Option.map f)) (map f) (s.answer c) := by
  cases c with
  | value => rfl
  | setLooping endless => rfl
  | next =>
    cases h : s.next with
    | ok r =>
      rw [answer_next_of_ok h, answer_next_of_ok (by rw [next_map, h]; rfl)]
      rfl
    | error e =>
      rw [answer_next_of_error h, answer_next_of_error (by rw [next_map, h]; rfl)]
      rfl

/-- **The answers of an iterator over other values.** -/
theorem answers_map (f : α → β) (s : DataRatePatternIterator α) (calls : List Call) :
    (s.map f).answers calls = (s.answers calls).map (Except.map (Option.map f)) := by
  induction calls generalizing s with
  | nil => rfl
  | cons c calls ih =>
    rw [answers, answers, answer_map, List.map_cons, Prod.map_fst, Prod.map_snd, ih]

/-! ### To the end -/

/-- The calls of `Next` return these values, and its error from then on. -/
def PlaysOut (s : DataRatePatternIterator α) (vs : List α) : Prop :=
  ∀ m, s.answers (List.replicate (vs.length + m) .next) =
    (vs.map fun v => Except.ok (some v)) ++ List.replicate m (.error .iterableStop)

theorem playsOut_nil_iff {s : DataRatePatternIterator α} :
    s.PlaysOut [] ↔ s.next = .error .iterableStop := by
  constructor
  · intro h
    have hone : [(s.answer .next).1] = [.error .iterableStop] := h 1
    cases hnext : s.next with
    | ok r =>
      rw [answer_next_of_ok hnext] at hone
      cases hone
    | error e =>
      rw [answer_next_of_error hnext] at hone
      cases hone
      rfl
  · intro h m
    rw [List.length_nil, Nat.zero_add, List.map_nil, List.nil_append]
    induction m with
    | zero => rfl
    | succ m ih =>
      rw [List.replicate_succ, answers, answer_next_of_error h, ih, ← List.replicate_succ]

theorem playsOut_cons_iff {s : DataRatePatternIterator α} {v : α} {vs : List α} :
    s.PlaysOut (v :: vs) ↔ ∃ t, s.next = .ok (v, t) ∧ t.PlaysOut vs := by
  have hcalls : ∀ m, List.replicate ((v :: vs).length + m) Call.next =
      .next :: List.replicate (vs.length + m) .next := by
    intro m
    rw [← List.replicate_succ, List.length_cons, Nat.succ_add_eq_add_succ]
    rfl
  constructor
  · intro h
    cases hnext : s.next with
    | error e =>
      have hone := h 0
      rw [hcalls, answers, answer_next_of_error hnext] at hone
      cases (List.cons.inj hone).1
    | ok r =>
      obtain ⟨w, t⟩ := r
      have hstep : ∀ m, Except.ok (some w) :: t.answers (List.replicate (vs.length + m) .next) =
          (.ok (some v) :: ((vs.map fun v => Except.ok (some v)) ++
            List.replicate m (.error .iterableStop)) : List (Except NextError (Option α))) := by
        intro m
        have hm := h m
        rwa [hcalls, answers, answer_next_of_ok hnext] at hm
      cases (List.cons.inj (hstep 0)).1
      exact ⟨t, rfl, fun m => (List.cons.inj (hstep m)).2⟩
  · rintro ⟨t, hnext, ht⟩ m
    rw [hcalls, answers, answer_next_of_ok hnext, ht m]
    rfl

end DataRatePatternIterator

end Jens
