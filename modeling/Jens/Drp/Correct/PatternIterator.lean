import Jens.Drp.PatternIterator
import Mathlib.Data.List.Basic
import Mathlib.Tactic.Common

/-!
# Correctness of the data rate pattern iterator

With looping on, the values form an exact ping-pong: the `(k+1)`-th call of `next` returns `d[r]`
when `r < n` and `d[2n-1-r]` otherwise, for `r = k mod 2n` (`next_pingPong`).  With looping off the
first `n` calls return `d[0], ..., d[n-1]` and every later one stops (`Playing.next_of_lt`,
`Playing.next_of_eq`).

The invariant is `Playing d j s`: `s` stands in phase `j` of the cycle of length `2n` over `d`, and
the value it caches is the one at index `shown n j`.  Phase `0` is the start (position `-1`), phases
`1..n` run forward with the position one ahead of the index, phases `n+1..2n-1` run backward with
the position one behind it.  A pattern of length one has no backward phase: it leaves the far end
with position `-1` and the direction still turned round, and passes through position `-3` before it
is at the start again (`singleStart`, `singleForward`).
-/

namespace Jens

variable {α : Type*}

/-- The value a looping iterator over `d` returns at its call number `k`, counted from `0`. -/
def pingPong (d : List α) (k : ℕ) : Option α :=
  let r := k % (2 * d.length)
  if r < d.length then d[r]? else d[2 * d.length - 1 - r]?

/-- `pingPong` reads `d` followed by its reverse over and over. -/
theorem pingPong_eq_append_reverse (d : List α) (k : ℕ) (hd : d ≠ []) :
    pingPong d k = (d ++ d.reverse)[k % (2 * d.length)]? := by
  have hn : 0 < d.length := List.length_pos_iff.mpr hd
  have hr : k % (2 * d.length) < 2 * d.length := Nat.mod_lt _ (by omega)
  unfold pingPong
  simp only []
  split_ifs with h
  · rw [List.getElem?_append_left h]
  · rw [List.getElem?_append_right (by omega), List.getElem?_reverse (by omega)]
    congr 1
    omega

theorem readIndex_natCast (d : List α) (i : ℕ) : readIndex d (i : ℤ) = d[i]? := by
  rw [readIndex, if_pos (Int.natCast_nonneg i), Int.toNat_natCast]

namespace DataRatePatternIterator

/-- Where an iterator over `n` values stands: phase `j` of the cycle, direction and position. -/
inductive Phase (n j : ℕ) (operator position : ℤ) : Prop
  | start : j = 0 → operator = 1 → position = -1 → Phase n j operator position
  | forward : 1 ≤ j → j ≤ n → operator = 1 → position = j → Phase n j operator position
  | backward : n < j → j < 2 * n → operator = -1 → position = 2 * n - 1 - j →
      Phase n j operator position
  | singleStart : n = 1 → j = 0 → operator = -1 → position = -1 → Phase n j operator position
  | singleForward : n = 1 → j = 1 → operator = -1 → position = -3 → Phase n j operator position

/-- The index of the value last returned in phase `j` (of the value to come first, in phase `0`). -/
def shown (n j : ℕ) : ℕ := if j = 0 then 0 else if j ≤ n then j - 1 else 2 * n - j

theorem shown_lt {n j : ℕ} (hn : 0 < n) (hj : j < 2 * n) : shown n j < n := by
  rw [shown]
  split_ifs <;> omega

/-- The index shown after the call made in phase `j`. -/
theorem shown_succ {n j : ℕ} (hj : j < 2 * n) :
    shown n ((j + 1) % (2 * n)) = if j < n then j else 2 * n - 1 - j := by
  rcases Nat.lt_or_ge (j + 1) (2 * n) with h | h
  · rw [Nat.mod_eq_of_lt h, shown, if_neg (Nat.succ_ne_zero j)]
    split_ifs <;> omega
  · rw [show j + 1 = 2 * n by omega, Nat.mod_self, shown, if_pos rfl, if_neg (by omega)]
    omega

/-- `s` plays `d` and stands in phase `j`. -/
structure Playing (d : List α) (j : ℕ) (s : DataRatePatternIterator α) : Prop where
  data : s.data = some d
  phase : Phase d.length j s.operator s.position
  value : d[shown d.length j]? = some s.value

theorem Playing.pos {d : List α} {j : ℕ} {s : DataRatePatternIterator α} (h : Playing d j s) :
    0 < d.length := by
  obtain ⟨hlt, -⟩ := List.getElem?_eq_some_iff.mp h.value
  omega

theorem Playing.lt {d : List α} {j : ℕ} {s : DataRatePatternIterator α} (h : Playing d j s) :
    j < 2 * d.length := by
  have hn := h.pos
  cases h.phase <;> omega

/-- The iterator as `updateAndReset` leaves it, whatever it was before but for its direction. -/
theorem playing_of_updateAndReset {d : List α} {s t : DataRatePatternIterator α}
    (hop : s.operator = 1) (h : s.updateAndReset d = some t) : Playing d 0 t := by
  rw [updateAndReset, Option.map_eq_some_iff] at h
  obtain ⟨v, hv, rfl⟩ := h
  refine ⟨rfl, .start rfl hop rfl, ?_⟩
  rw [show (0 : ℤ) = (0 : ℕ) from rfl, readIndex_natCast] at hv
  exact hv

theorem Playing.setLooping {d : List α} {j : ℕ} {s : DataRatePatternIterator α} (h : Playing d j s)
    (b : Bool) : Playing d j (s.setLooping b) := ⟨h.data, h.phase, h.value⟩

/-! ### One call, by phase -/

/-- At position `-1` the cached value is returned and the position jumps by two. -/
theorem next_of_position_neg_one {d : List α} {s : DataRatePatternIterator α} (hd : s.data = some d)
    (hp : s.position = -1) :
    s.next = .ok (s.value, { s with position := -1 + s.operator * 2 }) := by
  simp [next, hd, hp]

/-- Strictly inside the range the value at the old position is returned. -/
theorem next_of_inside {d : List α} {s : DataRatePatternIterator α} {i : ℕ} {v : α}
    (hd : s.data = some d) (hp : s.position = i) (hi : 1 ≤ i) (hv : d[i]? = some v) :
    s.next = .ok (v, { s with position := i + s.operator, value := v }) := by
  obtain ⟨hlt, -⟩ := List.getElem?_eq_some_iff.mp hv
  have hidx :
      minInt ((d.length : ℤ) - 1) (absInt ((i : ℤ) + s.operator - s.operator)) = (i : ℤ) := by
    rw [add_sub_cancel_right, absInt_of_nonneg (by omega), minInt_of_le (by omega)]
  simp only [next, hd, hp]
  rw [if_neg (by omega), if_neg (by omega), hidx, readIndex_natCast, hv]

/-- At the far end a looping iterator turns round and repeats its value. -/
theorem next_at_max {d : List α} {s : DataRatePatternIterator α} (hd : s.data = some d)
    (hp : s.position = d.length) (hl : s.looping = true) :
    s.next = .ok (s.value,
      { s with operator := -s.operator, position := d.length + -s.operator * 2 }) := by
  simp only [next, hd, hp]
  rw [if_neg (by omega), if_pos (Or.inl le_rfl), if_neg (by simp [hl]), if_pos le_rfl]

/-- At the near end a looping iterator turns round and goes back to the first value. -/
theorem next_at_min {d : List α} {s : DataRatePatternIterator α} {v : α} (hd : s.data = some d)
    (hp : s.position ≤ 0) (hp' : s.position ≠ -1) (hl : s.looping = true) (hv : d[0]? = some v) :
    s.next = .ok (v, { s with operator := -s.operator, position := -1, value := v }) := by
  obtain ⟨hlt, -⟩ := List.getElem?_eq_some_iff.mp hv
  have hread : readIndex d 0 = some v := by rw [← hv]; exact readIndex_natCast d 0
  simp only [next, hd]
  rw [if_neg hp', if_pos (Or.inr hp), if_neg (by simp [hl]), if_neg (by omega), hread]

/-- At the far end, with looping off, the pattern is over. -/
theorem next_at_max_stop {d : List α} {s : DataRatePatternIterator α} (hd : s.data = some d)
    (hp : s.position = d.length) (hl : s.looping = false) : s.next = .error .iterableStop := by
  simp only [next, hd, hp]
  rw [if_neg (by omega), if_pos (Or.inl le_rfl), if_pos (by simp [hl])]

/-! ### The invariant -/

/-- **One call with looping on** returns the value of its phase and moves to the next phase. -/
theorem Playing.next_looping {d : List α} {j : ℕ} {s : DataRatePatternIterator α}
    (h : Playing d j s) (hl : s.looping = true) :
    ∃ v s', s.next = .ok (v, s') ∧ s'.value = v ∧ s'.looping = true ∧
      Playing d ((j + 1) % (2 * d.length)) s' := by
  have hn := h.pos
  have hj := h.lt
  obtain ⟨w, hw⟩ : ∃ w, d[shown d.length ((j + 1) % (2 * d.length))]? = some w :=
    ⟨_, List.getElem?_eq_getElem (shown_lt hn (Nat.mod_lt _ (by omega)))⟩
  have hw' := hw
  rw [shown_succ hj] at hw'
  have hval := h.value
  cases h.phase with
  | start hj0 hop hpos =>
    subst hj0
    rw [if_pos hn] at hw'
    rw [shown, if_pos rfl, hw'] at hval
    refine ⟨_, _, next_of_position_neg_one h.data hpos, rfl, hl, h.data, ?_, by rw [hw, ← hval]⟩
    rw [Nat.mod_eq_of_lt (by omega)]
    exact .forward le_rfl (by omega) hop (by simp only [hop]; rfl)
  | forward h1 h2 hop hpos =>
    rcases Nat.lt_or_ge j d.length with hlt | hge
    · rw [if_pos hlt] at hw'
      refine ⟨_, _, next_of_inside h.data hpos h1 hw', rfl, hl, h.data, ?_, hw⟩
      rw [Nat.mod_eq_of_lt (by omega)]
      exact .forward (by omega) (by omega) hop (by simp only [hop]; omega)
    · -- the far end: the last value again
      obtain rfl : j = d.length := by omega
      rw [if_neg (by omega), show 2 * d.length - 1 - d.length = d.length - 1 by omega] at hw'
      rw [shown, if_neg (by omega), if_pos le_rfl, hw'] at hval
      refine ⟨_, _, next_at_max h.data hpos hl, rfl, hl, h.data, ?_, by rw [hw, ← hval]⟩
      rcases Nat.lt_or_ge 1 d.length with h1' | h1'
      · rw [Nat.mod_eq_of_lt (by omega)]
        exact .backward (by omega) (by omega) (by simp only [hop]) (by simp only [hop]; omega)
      · exact .singleStart (by omega) (by rw [show d.length = 1 by omega]) (by simp only [hop])
          (by simp only [hop]; omega)
  | backward h1 h2 hop hpos =>
    rw [if_neg (by omega)] at hw'
    rcases Nat.lt_or_ge (j + 1) (2 * d.length) with hlt | hge
    · have hpos' : s.position = (2 * d.length - 1 - j : ℕ) := by omega
      refine ⟨_, _, next_of_inside h.data hpos' (by omega) hw', rfl, hl, h.data, ?_, hw⟩
      rw [Nat.mod_eq_of_lt hlt]
      exact .backward (by omega) hlt hop (by simp only [hop]; omega)
    · -- the near end: the first value again
      rw [show 2 * d.length - 1 - j = 0 by omega] at hw'
      refine ⟨_, _, next_at_min h.data (by omega) (by omega) hl hw', rfl, hl, h.data, ?_, hw⟩
      rw [show j + 1 = 2 * d.length by omega, Nat.mod_self]
      exact .start rfl (by simp only [hop]; rfl) rfl
  | singleStart hn1 hj0 hop hpos =>
    subst hj0
    rw [if_pos hn] at hw'
    rw [shown, if_pos rfl, hw'] at hval
    refine ⟨_, _, next_of_position_neg_one h.data hpos, rfl, hl, h.data, ?_, by rw [hw, ← hval]⟩
    rw [hn1]
    exact .singleForward rfl rfl hop (by simp only [hop]; rfl)
  | singleForward hn1 hj1 hop hpos =>
    subst hj1
    rw [if_neg (by omega), show 2 * d.length - 1 - 1 = 0 by omega] at hw'
    refine ⟨_, _, next_at_min h.data (by omega) (by omega) hl hw', rfl, hl, h.data, ?_, hw⟩
    rw [hn1]
    exact .start rfl (by simp only [hop]; rfl) rfl

/-- **One call with looping off**, before the end of the pattern. -/
theorem Playing.next_of_lt {d : List α} {j : ℕ} {s : DataRatePatternIterator α} (h : Playing d j s)
    (hop : s.operator = 1) (hj : j < d.length) :
    ∃ v s', s.next = .ok (v, s') ∧ d[j]? = some v ∧ s'.looping = s.looping ∧ s'.operator = 1 ∧
      Playing d (j + 1) s' := by
  have hn := h.pos
  obtain ⟨w, hw⟩ : ∃ w, d[j]? = some w := ⟨_, List.getElem?_eq_getElem hj⟩
  have hsucc : d[shown d.length (j + 1)]? = some w := by
    rw [shown, if_neg (Nat.succ_ne_zero j), if_pos (by omega), Nat.add_sub_cancel]
    exact hw
  have hval := h.value
  cases h.phase with
  | start hj0 _ hpos =>
    subst hj0
    rw [shown, if_pos rfl, hw] at hval
    refine ⟨_, _, next_of_position_neg_one h.data hpos, by rw [hw, ← hval], rfl, hop, h.data, ?_,
      by rw [hsucc, ← hval]⟩
    exact .forward le_rfl (by omega) hop (by simp only [hop]; rfl)
  | forward h1 h2 _ hpos =>
    refine ⟨_, _, next_of_inside h.data hpos h1 hw, hw, rfl, hop, h.data, ?_, hsucc⟩
    exact .forward (by omega) (by omega) hop (by simp only [hop]; omega)
  | backward h1 h2 hop' _ => omega
  | singleStart _ _ hop' _ => omega
  | singleForward _ _ hop' _ => omega

/-- **One call with looping off**, at the end of the pattern. -/
theorem Playing.next_of_eq {d : List α} {s : DataRatePatternIterator α}
    (h : Playing d d.length s) (hop : s.operator = 1) (hl : s.looping = false) :
    s.next = .error .iterableStop := by
  have hn := h.pos
  cases h.phase with
  | start hj0 _ _ => omega
  | forward _ _ _ hpos => exact next_at_max_stop h.data hpos hl
  | backward h1 _ _ _ => omega
  | singleStart _ _ hop' _ => omega
  | singleForward _ _ hop' _ => omega

/-! ### Whole runs -/

/-- After `k` calls a looping iterator stands in phase `k mod 2n`. -/
theorem Playing.advance_looping {d : List α} {s : DataRatePatternIterator α} (h : Playing d 0 s)
    (hl : s.looping = true) (k : ℕ) :
    ∃ t, s.advance k = .ok t ∧ t.looping = true ∧ Playing d (k % (2 * d.length)) t := by
  induction k with
  | zero => exact ⟨s, rfl, hl, by rwa [Nat.zero_mod]⟩
  | succ k ih =>
    obtain ⟨t, ht, htl, hph⟩ := ih
    obtain ⟨v, t', ht', -, htl', hph'⟩ := hph.next_looping htl
    refine ⟨t', ?_, htl', ?_⟩
    · rw [advance, ht]
      simp only [ht', Except.map]
    · rwa [Nat.mod_add_mod] at hph'

/-- **Endless playback is an exact ping-pong.**  After `updateAndReset` of a new iterator and
`SetLooping(true)`, the call number `k` (from `0`) meets no error and no index out of range, returns
`pingPong d k`, and `Value()` afterwards is the value returned. -/
theorem next_pingPong [Zero α] (d : List α) (hd : d ≠ []) (k : ℕ) :
    ∃ s t t', newDataRatePatternIterator.updateAndReset d = some s ∧
      (s.setLooping true).advance k = .ok t ∧ t.next = .ok (t'.value, t') ∧
      pingPong d k = some t'.value := by
  have hn : 0 < d.length := List.length_pos_iff.mpr hd
  obtain ⟨s, hs⟩ : ∃ s, (newDataRatePatternIterator : DataRatePatternIterator α).updateAndReset d
      = some s := by
    rw [updateAndReset, show (0 : ℤ) = (0 : ℕ) from rfl, readIndex_natCast,
      List.getElem?_eq_getElem hn]
    exact ⟨_, rfl⟩
  have hplay := (playing_of_updateAndReset rfl hs).setLooping true
  obtain ⟨t, ht, htl, hph⟩ := hplay.advance_looping rfl k
  obtain ⟨v, t', ht', rfl, -, hph'⟩ := hph.next_looping htl
  refine ⟨s, t, t', hs, ht, ht', ?_⟩
  have hval := hph'.value
  rw [shown_succ (Nat.mod_lt _ (by omega))] at hval
  unfold pingPong
  simp only []
  split_ifs with h
  · rwa [if_pos h] at hval
  · rwa [if_neg h] at hval

/-- Two values, played five times over: the turning points repeat, as in `TestIterator_saw_loop`. -/
theorem next_pingPong_two :
    ∃ s t t', (newDataRatePatternIterator (α := ℤ)).updateAndReset [10, 20] = some s ∧
      (s.setLooping true).advance 4 = .ok t ∧ t.next = .ok (t'.value, t') ∧
      pingPong [10, 20] 4 = some t'.value :=
  next_pingPong [10, 20] (by decide) 4

end DataRatePatternIterator

end Jens
