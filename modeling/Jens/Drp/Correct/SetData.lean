import Jens.Drp.Correct.PatternIterator
import Jens.Drp.Pattern
import Jens.Lib.Steps

/-!
# Replacing the data of a pattern

`updateAndReset` sets the data, the position and the value, and leaves the direction as it is.  So
`SetData` restarts the playback of an iterator on its way forward; one on its way back gives the
first value twice and is then two values behind, or stops (`replays_iff`).

`Turned` is what every run of calls keeps of the direction (`turned_of_run`).
-/

namespace Jens

open Steps

namespace DataRatePatternIterator

variable {α : Type*}

/-- The iterator has the first value of `d` as its own, and the next calls return the values of `d`
in order. -/
def Replays (d : List α) (s : DataRatePatternIterator α) : Prop :=
  d[0]? = some s.value ∧
    ∀ k < d.length, ∃ t v t', s.advance k = .ok t ∧ t.next = .ok (v, t') ∧ d[k]? = some v

/-- The direction is one of the two. -/
def Turned (s : DataRatePatternIterator α) : Prop := s.operator = 1 ∨ s.operator = -1

theorem advance_succ_of_next {s t : DataRatePatternIterator α} {v : α} (h : s.next = .ok (v, t))
    (k : ℕ) : s.advance (k + 1) = t.advance k := by
  induction k with
  | zero => simp [advance, h, Except.map]
  | succ k ih => rw [advance, ih, advance]

/-- From the start, on the way forward, the values come in order; whether or not the iterator loops
makes no difference before the end. -/
theorem Playing.replays {d : List α} {s : DataRatePatternIterator α} (h : Playing d 0 s)
    (hop : s.operator = 1) : Replays d s := by
  have hrun : ∀ k ≤ d.length, ∃ t, s.advance k = .ok t ∧ t.operator = 1 ∧ Playing d k t := by
    intro k
    induction k with
    | zero => exact fun _ => ⟨s, rfl, hop, h⟩
    | succ k ih =>
      intro hk
      obtain ⟨t, ht, htop, hplay⟩ := ih (by omega)
      obtain ⟨v, t', hnext, -, -, hop', hplay'⟩ := hplay.next_of_lt htop (by omega)
      exact ⟨t', by simp [advance, ht, hnext, Except.map], hop', hplay'⟩
  refine ⟨h.value, fun k hk => ?_⟩
  obtain ⟨t, ht, htop, hplay⟩ := hrun k (by omega)
  obtain ⟨v, t', hnext, hv, -⟩ := hplay.next_of_lt htop hk
  exact ⟨t, v, t', ht, hnext, hv⟩

section Reset

variable {d : List α} {s t : DataRatePatternIterator α} (h : s.updateAndReset d = some t)
include h

theorem updateAndReset_fields :
    t.data = some d ∧ t.position = -1 ∧ d[0]? = some t.value ∧ t.operator = s.operator ∧
      t.looping = s.looping := by
  obtain ⟨v, hv, rfl⟩ := Option.map_eq_some_iff.mp h
  have hv0 : d[0]? = some v := (readIndex_natCast d 0).symm.trans hv
  exact ⟨rfl, rfl, hv0, rfl, rfl⟩

/-- The first call after a reset returns the first value, in either direction. -/
theorem next_of_updateAndReset :
    t.next = .ok (t.value, { t with position := -1 + s.operator * 2 }) := by
  obtain ⟨hdata, hpos, -, hop, -⟩ := updateAndReset_fields h
  rw [next_of_position_neg_one hdata hpos, hop]

/-- After a reset on the way back, the second call of a looping iterator turns it round and returns
the first value again; from there the data is played from its start. -/
theorem next_next_of_turnedBack (hop : s.operator = -1) (hl : s.looping = true) :
    ∃ u, ({ t with position := -1 + s.operator * 2 } : DataRatePatternIterator α).next =
        .ok (t.value, u) ∧ u.operator = 1 ∧ Playing d 0 u := by
  obtain ⟨hdata, hpos, hv, htop, htl⟩ := updateAndReset_fields h
  refine ⟨_, next_at_min hdata ?_ ?_ (htl.trans hl) hv, ?_, hdata, ?_, hv⟩
  · simp only [hop]
    omega
  · simp only [hop]
    omega
  · simp only [htop, hop]
    rfl
  · exact .start rfl (by simp only [htop, hop]; rfl) rfl

/-- One that does not loop stops at its second call. -/
theorem next_of_turnedBack_stop (hop : s.operator = -1) (hl : s.looping = false) :
    ({ t with position := -1 + s.operator * 2 } : DataRatePatternIterator α).next =
      .error .iterableStop := by
  obtain ⟨hdata, -, -, -, htl⟩ := updateAndReset_fields h
  simp only [next, hdata, hop]
  rw [if_neg (by omega), if_pos (Or.inr (by omega)), if_pos (by simp [htl, hl])]

/-- After a reset on the way back, a looping iterator is two calls behind. -/
theorem advance_of_turnedBack (hop : s.operator = -1) (hl : s.looping = true) :
    ∃ u u', t.advance 1 = .ok u ∧ u.next = .ok (t.value, u') ∧ Replays d u' ∧
      ∀ k, t.advance (k + 2) = u'.advance k := by
  have hfirst := next_of_updateAndReset h
  obtain ⟨u', hsecond, hu, hplay⟩ := next_next_of_turnedBack h hop hl
  refine ⟨_, u', advance_succ_of_next hfirst 0, hsecond, hplay.replays hu, fun k => ?_⟩
  rw [advance_succ_of_next hfirst, advance_succ_of_next hsecond]

theorem replays_of_single (hd : d.length = 1) : Replays d t := by
  have hv := (updateAndReset_fields h).2.2.1
  refine ⟨hv, fun k hk => ?_⟩
  obtain rfl : k = 0 := by omega
  exact ⟨t, _, _, rfl, next_of_updateAndReset h, hv⟩

theorem not_replays_of_stop (hop : s.operator = -1) (hl : s.looping = false) (hd : 1 < d.length) :
    ¬ Replays d t := by
  rintro ⟨-, hrep⟩
  obtain ⟨u, v, u', hadv, hnext, -⟩ := hrep 1 hd
  rw [advance_succ_of_next (next_of_updateAndReset h)] at hadv
  obtain rfl := Except.ok.inj hadv
  rw [next_of_turnedBack_stop h hop hl] at hnext
  cases hnext

theorem replays_of_turnedBack_iff (hop : s.operator = -1) (hl : s.looping = true) :
    Replays d t ↔ ∀ k < d.length, d[k]? = d[0]? := by
  have hv := (updateAndReset_fields h).2.2.1
  obtain ⟨u, u', hone, hsecond, hrest, hadv⟩ := advance_of_turnedBack h hop hl
  constructor
  · rintro ⟨-, hrep⟩ k
    -- the value at `k + 2` is the one the data has at `k`
    induction k using Nat.twoStepInduction with
    | zero => exact fun _ => rfl
    | one =>
      intro hk
      obtain ⟨w, v, w', hw, hnext, hval⟩ := hrep 1 hk
      rw [hone] at hw
      obtain rfl := Except.ok.inj hw
      rw [hsecond] at hnext
      rw [hval, hv, (Prod.mk.inj (Except.ok.inj hnext)).1]
    | more k ih _ =>
      intro hk
      obtain ⟨w, v, w', hw, hnext, hval⟩ := hrep (k + 2) hk
      obtain ⟨x, y, x', hx, hnext', hval'⟩ := hrest.2 k (by omega)
      rw [hadv, hx] at hw
      obtain rfl := Except.ok.inj hw
      rw [hnext'] at hnext
      rw [hval, ← (Prod.mk.inj (Except.ok.inj hnext)).1, ← hval', ih (by omega)]
  · intro hconst
    refine ⟨hv, fun k hk => ?_⟩
    rw [hconst k hk]
    match k, hk with
    | 0, _ => exact ⟨t, _, _, rfl, next_of_updateAndReset h, hv⟩
    | 1, _ => exact ⟨u, _, u', hone, hsecond, hv⟩
    | k + 2, hk =>
      obtain ⟨x, y, x', hx, hnext, hval⟩ := hrest.2 k (by omega)
      rw [hconst k (by omega)] at hval
      exact ⟨x, y, x', (hadv k).trans hx, hnext, hval⟩

/-- **A reset restarts the playback** of an iterator on its way forward.  One on its way back plays
the new data only if it has a single value, or if the iterator loops and all the values are one. -/
theorem replays_iff (hs : s.Turned) :
    Replays d t ↔ s.operator = 1 ∨ d.length = 1 ∨
      s.looping = true ∧ ∀ k < d.length, d[k]? = d[0]? := by
  obtain ⟨-, -, hv, htop, -⟩ := updateAndReset_fields h
  obtain ⟨hlen, -⟩ := List.getElem?_eq_some_iff.mp hv
  rcases hs with hop | hop
  · exact iff_of_true ((playing_of_updateAndReset hop h).replays (htop.trans hop)) (.inl hop)
  · have hne : s.operator ≠ 1 := by omega
    rw [or_iff_right hne]
    by_cases hd : d.length = 1
    · exact iff_of_true (replays_of_single h hd) (.inl hd)
    · rw [or_iff_right hd]
      cases hl : s.looping with
      | true => rw [replays_of_turnedBack_iff h hop hl, and_iff_right rfl]
      | false =>
        exact iff_of_false (not_replays_of_stop h hop hl (by omega)) fun hc => by cases hc.1

end Reset

/-! ### Runs -/

/-- A call keeps the direction or turns it round. -/
theorem operator_of_next {s t : DataRatePatternIterator α} {v : α} (h : s.next = .ok (v, t)) :
    t.operator = s.operator ∨ t.operator = -s.operator := by
  unfold next at h
  split at h
  · cases h
  · dsimp only at h
    split_ifs at h
    · obtain ⟨-, rfl⟩ := Prod.mk.inj (Except.ok.inj h)
      exact .inl rfl
    · obtain ⟨-, rfl⟩ := Prod.mk.inj (Except.ok.inj h)
      exact .inr rfl
    · split at h
      · cases h
      · obtain ⟨-, rfl⟩ := Prod.mk.inj (Except.ok.inj h)
        exact .inr rfl
    · split at h
      · cases h
      · obtain ⟨-, rfl⟩ := Prod.mk.inj (Except.ok.inj h)
        exact .inl rfl

theorem Turned.next {s t : DataRatePatternIterator α} {v : α} (hs : s.Turned)
    (h : s.next = .ok (v, t)) : t.Turned := by
  unfold Turned at hs ⊢
  have := operator_of_next h
  omega

end DataRatePatternIterator

namespace DataRatePattern

/-- What is called on a pattern between two loads. -/
inductive Call
  | next
  | setLooping (endless : Bool)
  | setData (d : List F64)
  deriving DecidableEq

/-- The pattern after a call; `none` is a panic.  At the end of the pattern `Next` returns its error
and changes nothing. -/
def call (s : DataRatePattern) : Call → Option DataRatePattern
  | .next =>
    let (it, p) := s.iterator
    match it.next with
    | .ok (_, it') => some { p with iter := some it' }
    | .error .iterableStop => some p
    | .error _ => none
  | .setLooping endless =>
    let (it, p) := s.iterator
    some { p with iter := some (it.setLooping endless) }
  | .setData d => s.setData d

/-- The iterator of the pattern, if there is one, has one of the two directions. -/
def Turned (s : DataRatePattern) : Prop := ∀ it ∈ s.iter, it.Turned

theorem operator_getD_updateAndReset (it : DataRatePatternIterator F64) (d : List F64) :
    ((it.updateAndReset d).getD it).operator = it.operator := by
  cases h : it.updateAndReset d with
  | none => rfl
  | some it' => exact (DataRatePatternIterator.updateAndReset_fields h).2.2.2.1

theorem Turned.iterator {s : DataRatePattern} (hs : s.Turned) :
    s.iterator.1.Turned ∧ s.iterator.2.iter = some s.iterator.1 := by
  unfold DataRatePattern.iterator
  cases hit : s.iter with
  | some it => exact ⟨hs it hit, hit⟩
  | none =>
    refine ⟨.inl ?_, rfl⟩
    cases s.data with
    | none => rfl
    | some d =>
      dsimp only
      split_ifs
      · exact operator_getD_updateAndReset _ d
      · rfl

theorem Turned.call {s t : DataRatePattern} {c : Call} (hs : s.Turned) (h : s.call c = some t) :
    t.Turned := by
  obtain ⟨hturned, hiter⟩ := hs.iterator
  intro it hit
  cases c with
  | next =>
    unfold DataRatePattern.call at h
    dsimp only at h
    split at h
    · rename_i v it' hnext
      obtain rfl := Option.some.inj h
      obtain rfl := Option.some.inj hit
      exact hturned.next hnext
    · obtain rfl := Option.some.inj h
      rw [hiter] at hit
      obtain rfl := Option.some.inj hit
      exact hturned
    · cases h
  | setLooping endless =>
    obtain rfl := Option.some.inj h
    obtain rfl := Option.some.inj hit
    exact hturned
  | setData d =>
    obtain ⟨it₀, hit₀, h⟩ := Option.bind_eq_some_iff.mp h
    obtain ⟨it', hreset, rfl⟩ := Option.map_eq_some_iff.mp h
    obtain rfl := Option.some.inj hit
    have hop : it'.operator = it₀.operator :=
      (DataRatePatternIterator.updateAndReset_fields hreset).2.2.2.1
    unfold DataRatePatternIterator.Turned
    rw [hop]
    exact hs it₀ hit₀

theorem turned_of_run {s t : DataRatePattern} {calls : List Call} (hnew : s.iter = none)
    (hrun : run call s calls = some t) : t.Turned := by
  refine run_invariant (I := Turned) ?_ ?_ hrun
  · intro s c s' hs h
    exact hs.call h
  · intro it hit
    rw [hnew] at hit
    cases hit

/-- **Replacing the data.**  Whatever was called on a pattern before, `SetData(d)` restarts its
iterator, so that `Value` is `d[0]` and the next `len(d)` calls return `d` in order, exactly if the
iterator is on its way forward, or `d` has a single value, or the iterator loops and all the values
of `d` are one. -/
theorem setData_replays_iff (s t : DataRatePattern) (calls : List Call)
    (it : DataRatePatternIterator F64) (d : List F64) (hnew : s.iter = none)
    (hrun : run call s calls = some t) (hit : t.iter = some it) (hd : d ≠ []) :
    (∃ u it', t.setData d = some u ∧ u.iter = some it' ∧ it'.Replays d) ↔
      it.operator = 1 ∨ d.length = 1 ∨ it.looping = true ∧ ∀ k < d.length, d[k]? = d[0]? := by
  have hturned : it.Turned := turned_of_run hnew hrun it hit
  have hpos : 0 < d.length := List.length_pos_iff.mpr hd
  obtain ⟨it', hreset⟩ : ∃ it', it.updateAndReset d = some it' := by
    rw [DataRatePatternIterator.updateAndReset, show (0 : ℤ) = (0 : ℕ) from rfl, readIndex_natCast,
      List.getElem?_eq_getElem hpos]
    exact ⟨_, rfl⟩
  have hset : t.setData d = some { t with data := some d, iter := some it' } := by
    rw [setData, hit, Option.bind_some, hreset, Option.map_some]
  rw [← DataRatePatternIterator.replays_iff hreset hturned, hset]
  constructor
  · rintro ⟨u, it'', hu, hiter, hrep⟩
    obtain rfl := Option.some.inj hu
    obtain rfl := Option.some.inj hiter
    exact hrep
  · exact fun hrep => ⟨_, it', rfl, rfl, hrep⟩

/-- A saw of two values, replaced before it turns round. -/
theorem setData_replays_iff_forward :
    ∃ t it, run call { data := some [.fin 10, .fin 20] } [.setLooping true, .next] = some t ∧
      t.iter = some it ∧
      ((∃ u it', t.setData [.fin 1, .fin 2, .fin 3] = some u ∧ u.iter = some it' ∧
          it'.Replays [.fin 1, .fin 2, .fin 3]) ↔
        it.operator = 1 ∨ [F64.fin 1, .fin 2, .fin 3].length = 1 ∨
          it.looping = true ∧ ∀ k < [F64.fin 1, .fin 2, .fin 3].length,
            [F64.fin 1, .fin 2, .fin 3][k]? = [F64.fin 1, .fin 2, .fin 3][0]?) :=
  ⟨_, _, rfl, rfl, setData_replays_iff { data := some [.fin 10, .fin 20] } _
    [.setLooping true, .next] _ [.fin 1, .fin 2, .fin 3] rfl rfl rfl (by simp)⟩

/-- **Replaced on the way back.**  After the third call the looping saw of two values is on its way
back; of the new data it plays the first value twice. -/
theorem setData_not_replayed :
    ∃ t u it' a b, run call { data := some [.fin 10, .fin 20] }
        [.setLooping true, .next, .next, .next] = some t ∧
      t.setData [.fin 1, .fin 2, .fin 3] = some u ∧ u.iter = some it' ∧
      it'.next = .ok (.fin 1, a) ∧ a.next = .ok (.fin 1, b) ∧
      ¬ it'.Replays [.fin 1, .fin 2, .fin 3] := by
  refine ⟨_, _, _, _, _, rfl, rfl, rfl, rfl, rfl, ?_⟩
  rintro ⟨-, hrep⟩
  obtain ⟨v, w, v', hv, hw, hval⟩ := hrep 1 (by decide)
  obtain rfl := Except.ok.inj hv
  obtain ⟨rfl, -⟩ := Prod.mk.inj (Except.ok.inj hw)
  simp at hval

end DataRatePattern

end Jens
