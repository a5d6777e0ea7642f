import Jens.Drp.Correct.Calls

/-!
# Looping switched off on the way

Switched off on the way forward, a looping iterator plays the rest of the data and stops.  On the
way back it stops before the first value, as position 0 counts as the end; and at the start of the
next round, when a pass has just ended there, it plays the data once more.  So the pass in progress
is finished exactly in the first half of the cycle (`finishesPass_iff`).
-/

namespace Jens

namespace DataRatePatternIterator

variable {α : Type*}

/-- What is missing of the pass in progress after `k` values: the passes are `d` and its reverse in
turn. -/
def passRest (d : List α) (k : ℕ) : List α :=
  let done := k % d.length
  if done = 0 then [] else (if k / d.length % 2 = 0 then d else d.reverse).drop done

/-- The pass in progress after `k` values, by the place in the cycle. -/
theorem passRest_eq (d : List α) (k : ℕ) (hd : d ≠ []) :
    passRest d k =
      let r := k % (2 * d.length)
      if r = 0 ∨ r = d.length then []
      else if r < d.length then d.drop r else (d.take (2 * d.length - r)).reverse := by
  have hn : 0 < d.length := List.length_pos_iff.mpr hd
  have hr : k % (2 * d.length) < 2 * d.length := Nat.mod_lt _ (by omega)
  have hmod : k % d.length = k % (2 * d.length) % d.length :=
    (Nat.mod_mod_of_dvd k (Dvd.intro_left 2 rfl)).symm
  have hdiv : k / d.length % 2 = k % (2 * d.length) / d.length := by
    rw [Nat.mul_comm, Nat.mod_mul_right_div_self]
  unfold passRest
  rw [hdiv, hmod]
  generalize k % (2 * d.length) = r at *
  dsimp only
  by_cases hlt : r < d.length
  · rw [Nat.mod_eq_of_lt hlt, Nat.div_eq_of_lt hlt, if_pos rfl, if_pos hlt]
    by_cases h0 : r = 0
    · rw [if_pos h0, if_pos (.inl h0)]
    · rw [if_neg h0, if_neg (by omega)]
  · have hmod' : r % d.length = r - d.length := by
      rw [Nat.mod_eq_sub_mod (by omega), Nat.mod_eq_of_lt (by omega)]
    have hdiv' : r / d.length = 1 := Nat.div_eq_of_lt_le (by omega) (by omega)
    rw [hmod', hdiv', if_neg one_ne_zero, if_neg hlt]
    by_cases hmid : r = d.length
    · rw [if_pos (by omega), if_pos (.inr hmid)]
    · rw [if_neg (by omega), if_neg (by omega), List.drop_reverse]
      congr 2
      omega

/-! ### On the way forward -/

/-- On the way forward an iterator that does not loop plays the rest of the data. -/
theorem Playing.playsOut {d : List α} {j : ℕ} {s : DataRatePatternIterator α} (h : Playing d j s)
    (hop : s.operator = 1) (hl : s.looping = false) (hj : j ≤ d.length) :
    s.PlaysOut (d.drop j) := by
  induction hm : d.length - j generalizing j s with
  | zero =>
    obtain rfl : j = d.length := by omega
    rw [List.drop_length, playsOut_nil_iff]
    exact h.next_of_eq hop hl
  | succ m ih =>
    have hlt : j < d.length := by omega
    obtain ⟨v, t, hnext, hv, htl, htop, hplay⟩ := h.next_of_lt hop hlt
    obtain ⟨_, rfl⟩ := List.getElem?_eq_some_iff.mp hv
    rw [List.drop_eq_getElem_cons hlt, playsOut_cons_iff]
    exact ⟨t, hnext, ih hplay htop (htl.trans hl) hlt (by omega)⟩

/-! ### On the way back -/

/-- On the way back an iterator that does not loop never returns the first value. -/
theorem not_playsOut_of_turnedBack {d : List α} {s : DataRatePatternIterator α} {i : ℕ}
    (hdata : s.data = some d) (hpos : s.position = i) (hop : s.operator = -1)
    (hl : s.looping = false) (hi : i < d.length) : ¬ s.PlaysOut (d.take (i + 1)).reverse := by
  induction i generalizing s with
  | zero =>
    intro h
    rw [List.take_succ_eq_append_getElem hi, List.reverse_append] at h
    obtain ⟨t, hnext, -⟩ := playsOut_cons_iff.mp h
    have hstop : s.next = .error .iterableStop := by
      have hend : ((0 : ℕ) : ℤ) ≥ d.length ∨ ((0 : ℕ) : ℤ) ≤ 0 := .inr (by omega)
      simp only [next, hdata, hpos]
      rw [if_neg (by omega), if_pos hend, if_pos (by simp [hl])]
    rw [hstop] at hnext
    cases hnext
  | succ i ih =>
    intro h
    rw [List.take_succ_eq_append_getElem hi, List.reverse_append] at h
    obtain ⟨t, hnext, ht⟩ := playsOut_cons_iff.mp h
    rw [next_of_inside hdata hpos (by omega) (List.getElem?_eq_getElem hi)] at hnext
    obtain ⟨-, rfl⟩ := Prod.mk.inj (Except.ok.inj hnext)
    refine ih ?_ ?_ ?_ ?_ (by omega) ht
    · exact hdata
    · simp only [hop]
      omega
    · exact hop
    · exact hl

/-- At the start of a round the first value is played again. -/
theorem not_playsOut_nil_of_position_neg_one {d : List α} {s : DataRatePatternIterator α}
    (hdata : s.data = some d) (hpos : s.position = -1) : ¬ s.PlaysOut [] := by
  rw [playsOut_nil_iff, next_of_position_neg_one hdata hpos]
  exact nofun

/-! ### Every number of calls -/

/-- **The pass in progress is finished** exactly if looping is switched off in the first half of
the cycle: on the way forward, its end included. -/
theorem finishesPass_iff [Zero α] {d : List α} {k : ℕ} {s t : DataRatePatternIterator α}
    (hd : 2 ≤ d.length) (hs : newDataRatePatternIterator.updateAndReset d = some s)
    (ht : (s.setLooping true).advance k = .ok t) :
    (t.setLooping false).PlaysOut (passRest d k) ↔
      1 ≤ k % (2 * d.length) ∧ k % (2 * d.length) ≤ d.length := by
  have hne : d ≠ [] := by
    rintro rfl
    simp at hd
  obtain ⟨t', ht', -, hplay⟩ :=
    ((playing_of_updateAndReset rfl hs).setLooping true).advance_looping rfl k
  obtain rfl := Except.ok.inj (ht.symm.trans ht')
  have hoff := hplay.setLooping false
  have hr : k % (2 * d.length) < 2 * d.length := Nat.mod_lt _ (by omega)
  rw [passRest_eq d k hne]
  generalize k % (2 * d.length) = r at *
  dsimp only
  cases hoff.phase with
  | start hj0 _ hpos =>
    rw [if_pos (.inl hj0)]
    exact iff_of_false (not_playsOut_nil_of_position_neg_one hoff.data hpos) (by omega)
  | forward h1 h2 hop _ =>
    have hrest := hoff.playsOut hop rfl h2
    refine iff_of_true ?_ ⟨h1, h2⟩
    by_cases hend : r = d.length
    · rw [if_pos (.inr hend)]
      rwa [hend, List.drop_length] at hrest
    · rwa [if_neg (by omega), if_pos (by omega)]
  | backward h1 h2 hop hpos =>
    rw [if_neg (by omega), if_neg (by omega)]
    have hlen : 2 * d.length - r = 2 * d.length - 1 - r + 1 := by omega
    rw [hlen]
    refine iff_of_false ?_ (by omega)
    exact not_playsOut_of_turnedBack hoff.data (by omega) hop rfl (by omega)
  | singleStart hn1 _ _ _ => omega
  | singleForward hn1 _ _ _ => omega

/-- Three values; looping is switched off after the second. -/
theorem finishesPass_iff_forward :
    ∃ s t, (newDataRatePatternIterator (α := ℤ)).updateAndReset [10, 20, 30] = some s ∧
      (s.setLooping true).advance 2 = .ok t ∧
      ((t.setLooping false).PlaysOut (passRest [10, 20, 30] 2) ↔ 1 ≤ 2 % 6 ∧ 2 % 6 ≤ 3) :=
  ⟨_, _, rfl, rfl, finishesPass_iff (d := [10, 20, 30]) (k := 2) (by decide) rfl rfl⟩

/-- **Two values; looping is switched off after the third.**  The first value is missing of the way
back, and the iterator stops at once. -/
theorem first_value_missing :
    ∃ s t, (newDataRatePatternIterator (α := ℤ)).updateAndReset [10, 20] = some s ∧
      (s.setLooping true).advance 3 = .ok t ∧ passRest ([10, 20] : List ℤ) 3 = [10] ∧
      (t.setLooping false).next = .error .iterableStop ∧
      ¬ (t.setLooping false).PlaysOut (passRest [10, 20] 3) := by
  refine ⟨_, _, rfl, rfl, rfl, rfl, ?_⟩
  intro h
  obtain ⟨t, hnext, -⟩ := playsOut_cons_iff.mp h
  cases hnext

end DataRatePatternIterator

end Jens
