import Jens.Lib.Steps
import Mathlib.Combinatorics.Pigeonhole
import Mathlib.Data.Finset.Range
import Mathlib.Tactic.Linarith

/-!
# Runs that climb

Outside a class `C` of states every step makes the state larger; inside it a rank goes up by one,
except that it starts again at 0 from below 0 and from `top` (`Climbs`).  Such a run comes back to a
state after more than `top` steps at the earliest (`Climbs.ne_of_run`), so it does not stay in a
finite set for more steps than the set has elements (`Climbs.le_card`).
-/

namespace Steps

variable {σ α : Type*}

/-- What a step does to the size of a state, or to its rank. -/
def Climbs (step : σ → α → Option σ) (C : σ → Prop) (size : σ → ℕ) (rank : σ → ℤ) (top : ℕ) :
    Prop :=
  ∀ s a t, step s a = some t →
    (¬ C s ∧ size s < size t) ∨
    (C s ∧ C t ∧ (rank t = rank s + 1 ∨ rank t = 0 ∧ (rank s < 0 ∨ rank s = top)))

namespace Climbs

variable {step : σ → α → Option σ} {C : σ → Prop} {size : σ → ℕ} {rank : σ → ℤ} {top : ℕ}

/-- Outside the class the size has grown with every step. -/
theorem size_of_run (h : Climbs step C size rank top) {s t : σ} {as : List α}
    (hrun : run step s as = some t) : C t ∨ size s + as.length ≤ size t := by
  refine run_trace_invariant (I := fun as t => C t ∨ size s + as.length ≤ size t) ?_ (.inr le_rfl)
    hrun
  intro as t a u hI hstep
  rcases h t a u hstep with ⟨hC, hlt⟩ | ⟨-, hC, -⟩
  · have hle : size s + as.length ≤ size t := hI.resolve_left hC
    rw [List.length_append, List.length_singleton]
    exact .inr (by omega)
  · exact .inl hC

/-- Inside the class the rank has grown with every step, or it has started again at 0: either it was
below 0, or the steps up to `top` are among those of the run. -/
theorem rank_of_run (h : Climbs step C size rank top) {s t : σ} (hs : C s) {as : List α}
    (hrun : run step s as = some t) :
    rank t = rank s + as.length ∨
      0 ≤ rank t ∧ (rank s < 0 ∨ rank t < rank s + as.length - top) := by
  refine (run_trace_invariant (I := fun as t => C t ∧ (rank t = rank s + as.length ∨
    0 ≤ rank t ∧ (rank s < 0 ∨ rank t < rank s + as.length - top))) ?_ ⟨hs, .inl (by simp)⟩ hrun).2
  rintro as t a u ⟨hC, hI⟩ hstep
  rcases h t a u hstep with ⟨hnC, -⟩ | ⟨-, hCu, hrank⟩
  · exact absurd hC hnC
  · rw [List.length_append, List.length_singleton]
    push_cast
    exact ⟨hCu, by omega⟩

/-- **A run of at most `top` steps does not come back.** -/
theorem ne_of_run (h : Climbs step C size rank top) {s t : σ} {as : List α}
    (hrun : run step s as = some t) (hne : as ≠ []) (hlen : as.length ≤ top) : t ≠ s := by
  rintro rfl
  have hpos : 0 < as.length := List.length_pos_of_ne_nil hne
  by_cases hC : C t
  · have hrank := h.rank_of_run hC hrun
    omega
  · have hsize := (h.size_of_run hrun).resolve_left hC
    omega

/-- **A run does not stay in a finite set for longer than the set has elements.** -/
theorem le_card (h : Climbs step C size rank top) {s : σ} {S : Finset σ} {a : ℕ → α} {n : ℕ}
    (hn : n ≤ top) (hS : ∀ k < n, ∃ x ∈ S, run step s ((List.range k).map a) = some x) :
    n ≤ S.card := by
  by_contra hlt
  have : Nonempty σ := ⟨s⟩
  choose! x hx hrun using hS
  have hcard : S.card < (Finset.range n).card := by
    rw [Finset.card_range]
    omega
  obtain ⟨j, hj, k, hk, hjk, heq⟩ := Finset.exists_ne_map_eq_of_card_lt_of_maps_to hcard
    fun k hk => hx k (Finset.mem_range.mp hk)
  -- the later of two equal states is reached from the earlier one
  have hback : ∀ j k, j < k → k < n → x j ≠ x k := by
    intro j k hjk hk heq
    have hk' := hrun k hk
    obtain ⟨d, rfl⟩ := Nat.exists_eq_add_of_le hjk.le
    rw [List.range_add, List.map_append, run_append_eq_some] at hk'
    obtain ⟨y, hy, hyk⟩ := hk'
    obtain rfl : x j = y := Option.some.inj ((hrun j (hjk.trans hk)).symm.trans hy)
    refine h.ne_of_run hyk (fun hnil => ?_) ?_ heq.symm
    · have hlen := congrArg List.length hnil
      simp only [List.length_map, List.length_range, List.length_nil] at hlen
      omega
    · simp only [List.length_map, List.length_range]
      omega
  rcases Nat.lt_or_gt_of_ne hjk with hlt' | hgt
  · exact hback j k hlt' (Finset.mem_range.mp hk) heq
  · exact hback k j hgt (Finset.mem_range.mp hj) heq.symm

end Climbs

end Steps
