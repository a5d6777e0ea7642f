import Jens.Drp.Correct.Calls
import Jens.Drp.Correct.SetData
import Mathlib.Algebra.BigOperators.Ring.List
import Mathlib.Algebra.Order.Field.Rat
import Mathlib.Tactic.FieldSimp

/-!
# Scaling a pattern

`Scale` multiplies the values in place.  The iterator has the same slice, but also a copy of one
value, which stays as it was: an iterator that is taken before the pattern is scaled gives that
value first, and goes on with the scaled ones.  So taking the iterator and scaling commute exactly
where the scale does not change the value (`scale_commutes_iff`).
-/

namespace Jens

open Steps

/-- `Next` keeps the slice. -/
theorem DataRatePatternIterator.data_of_next {α : Type*} {s t : DataRatePatternIterator α} {v : α}
    (h : s.next = .ok (v, t)) : t.data = s.data := by
  unfold next at h
  split at h
  · cases h
  · rename_i d hd
    dsimp only at h
    split_ifs at h
    · cases h
      rfl
    · cases h
      rfl
    · split at h <;> cases h
      rfl
    · split at h <;> cases h
      rfl

namespace DataRatePattern

variable {s t : DataRatePattern} {d : List F64}

/-! ### The slice the iterator has -/

/-- The iterator has the slice of the pattern. -/
def Shared (s : DataRatePattern) : Prop := ∀ it ∈ s.iter, ∀ d ∈ s.data, d ≠ [] → it.data = some d

/-- The value that the iterator has, or will have. -/
def heldValue (s : DataRatePattern) : F64 :=
  match s.iter with
  | some it => it.value
  | none => (s.data.getD []).headD (.fin 0)

/-- A new iterator starts with the first value. -/
theorem iterator_of_none (hiter : s.iter = none) (hdata : s.data = some d) (hne : d ≠ []) :
    s.iterator.1 = ⟨false, 1, some d, -1, s.heldValue⟩ := by
  obtain ⟨v, d, rfl⟩ := List.exists_cons_of_ne_nil hne
  have hreset : (newDataRatePatternIterator : DataRatePatternIterator F64).updateAndReset (v :: d) =
      some ⟨false, 1, some (v :: d), -1, v⟩ := rfl
  simp [iterator, heldValue, hiter, hdata, hreset]

theorem shared_of_none (h : s.iter = none) : s.Shared := by
  intro it hit
  rw [h] at hit
  cases hit

theorem iterator_of_some {it : DataRatePatternIterator F64} (hiter : s.iter = some it) :
    s.iterator = (it, s) := by
  rw [iterator, hiter]

theorem iterator_snd : s.iterator.2 = { s with iter := some s.iterator.1 } := by
  cases hiter : s.iter with
  | some it =>
    rw [iterator_of_some hiter]
    cases s
    cases hiter
    rfl
  | none => simp [iterator, hiter]

theorem Shared.iterator (hs : s.Shared) (hdata : s.data = some d) (hne : d ≠ []) :
    s.iterator.1.data = some d ∧ s.iterator.1.value = s.heldValue := by
  cases hiter : s.iter with
  | some it =>
    rw [iterator_of_some hiter, heldValue, hiter]
    exact ⟨hs it hiter d hdata hne, rfl⟩
  | none =>
    rw [iterator_of_none hiter hdata hne]
    exact ⟨rfl, rfl⟩

/-- A call keeps it so. -/
theorem Shared.call {c : Call} (hs : s.Shared) (h : s.call c = some t) : t.Shared := by
  have hiterator : s.iterator.2.Shared := by
    rw [iterator_snd]
    intro it hit d hd hne
    obtain rfl := Option.some.inj hit
    exact (hs.iterator hd hne).1
  have hiter : s.iterator.2.iter = some s.iterator.1 := by rw [iterator_snd]
  cases c with
  | next =>
    unfold DataRatePattern.call at h
    dsimp only at h
    split at h
    · rename_i v it' hnext
      obtain rfl := Option.some.inj h
      intro it hit d hd hne
      obtain rfl := Option.some.inj hit
      rw [DataRatePatternIterator.data_of_next hnext]
      exact hiterator _ hiter d hd hne
    · obtain rfl := Option.some.inj h
      exact hiterator
    · cases h
  | setLooping endless =>
    obtain rfl := Option.some.inj h
    intro it hit d hd hne
    obtain rfl := Option.some.inj hit
    exact hiterator _ hiter d hd hne
  | setData d =>
    obtain ⟨it₀, -, h⟩ := Option.bind_eq_some_iff.mp h
    obtain ⟨it', hreset, rfl⟩ := Option.map_eq_some_iff.mp h
    intro it hit d' hd' _
    obtain rfl := Option.some.inj hit
    obtain rfl := Option.some.inj hd'
    exact (DataRatePatternIterator.updateAndReset_fields hreset).1

/-- Whatever was called on a pattern before, its iterator has its slice. -/
theorem shared_of_run {calls : List Call} (hnew : s.iter = none)
    (hrun : run call s calls = some t) : t.Shared :=
  run_invariant (fun _ _ _ hs h => hs.call h) (shared_of_none hnew) hrun

/-! ### The iterator and the scaled pattern -/

section Scale

variable (md5 : List UInt8 → List UInt8) (toBits : F64 → UInt64) (factor : F64)

theorem Shared.scale (hs : s.Shared) (h : s.scale md5 toBits factor = some t) : t.Shared := by
  obtain ⟨d, hdata, rfl⟩ := Option.map_eq_some_iff.mp h
  intro it hit d' hd' hne
  obtain ⟨it₀, hit₀, rfl⟩ := Option.map_eq_some_iff.mp hit
  obtain rfl := Option.some.inj hd'
  have hne₀ : d ≠ [] := fun h0 => hne (by rw [h0, List.map_nil])
  dsimp only
  rw [hs it₀ hit₀ d hdata hne₀, Option.map_some]

variable {md5 toBits factor} (hdata : s.data = some d) (hne : d ≠ [])
include hdata hne

/-- The iterator that was taken before has the scaled values, and its own as it was. -/
theorem iterator_of_scale_after (hs : s.Shared)
    (h : s.iterator.2.scale md5 toBits factor = some t) :
    t.iterator.1 = { s.iterator.1.map factor.mul with value := s.heldValue } := by
  obtain ⟨hit, hvalue⟩ := hs.iterator hdata hne
  rw [iterator_snd] at h
  obtain ⟨d', hd', rfl⟩ := Option.map_eq_some_iff.mp h
  obtain rfl := Option.some.inj (hdata.symm.trans hd')
  rw [iterator_of_some rfl]
  simp [DataRatePatternIterator.map, hit, ← hvalue]

/-- One that is taken afterwards has all of them scaled, unless it was there before. -/
theorem iterator_of_scale (hs : s.Shared) (h : s.scale md5 toBits factor = some t) :
    t.iterator.1 = s.iterator.1.map factor.mul ∨
      t.iterator.1 = { s.iterator.1.map factor.mul with value := s.heldValue } := by
  obtain ⟨hit, hvalue⟩ := hs.iterator hdata hne
  obtain ⟨d', hd', rfl⟩ := Option.map_eq_some_iff.mp h
  obtain rfl := Option.some.inj (hdata.symm.trans hd')
  cases hiter : s.iter with
  | none =>
    left
    have hne' : d.map factor.mul ≠ [] := fun h0 => hne (List.map_eq_nil_iff.mp h0)
    obtain ⟨v, d, rfl⟩ := List.exists_cons_of_ne_nil hne
    rw [iterator_of_none hiter hdata hne, iterator_of_none rfl rfl hne']
    simp [DataRatePatternIterator.map, heldValue, hiter, hdata]
  | some it =>
    right
    rw [iterator_of_some hiter] at hit hvalue ⊢
    have hdata' : it.data = some d := hit
    simp [iterator, DataRatePatternIterator.map, hdata', ← hvalue]

end Scale

/-! ### The statistics -/

/-- The minimum, the maximum and the mean are those of these numbers. -/
structure StatisticsOf (s : DataRatePattern) (qs : List ℚ) : Prop where
  min : ∃ lo ∈ qs, s.min = .fin lo ∧ ∀ q ∈ qs, lo ≤ q
  max : ∃ hi ∈ qs, s.max = .fin hi ∧ ∀ q ∈ qs, q ≤ hi
  avg : s.avg = .fin (qs.sum / qs.length)

theorem statisticsOf_scale_iff {md5 : List UInt8 → List UInt8} {toBits : F64 → UInt64}
    {qs : List ℚ} {k : ℚ} (hk : 0 < k) (h : s.scale md5 toBits (.fin k) = some t) :
    t.StatisticsOf (qs.map (k * ·)) ↔ s.StatisticsOf qs := by
  obtain ⟨d, -, rfl⟩ := Option.map_eq_some_iff.mp h
  have hcancel : ∀ q : ℚ, k * q / k = q := fun q => mul_div_cancel_left₀ q hk.ne'
  constructor
  · rintro ⟨⟨_, hmem, hmin, hle⟩, ⟨_, hmem', hmax, hge⟩, havg⟩
    obtain ⟨lo, hlo, rfl⟩ := List.mem_map.mp hmem
    obtain ⟨hi, hhi, rfl⟩ := List.mem_map.mp hmem'
    rw [F64.mul_fin_eq_fin_iff hk.ne', hcancel] at hmin hmax
    rw [F64.mul_fin_eq_fin_iff hk.ne', List.sum_map_mul_left, List.length_map] at havg
    refine ⟨⟨lo, hlo, hmin, fun q hq => ?_⟩, ⟨hi, hhi, hmax, fun q hq => ?_⟩, ?_⟩
    · exact le_of_mul_le_mul_left (hle (k * q) (List.mem_map_of_mem hq)) hk
    · exact le_of_mul_le_mul_left (hge (k * q) (List.mem_map_of_mem hq)) hk
    · rw [havg, mul_div_assoc, hcancel, List.map_id']
  · rintro ⟨⟨lo, hlo, hmin, hle⟩, ⟨hi, hhi, hmax, hge⟩, havg⟩
    refine ⟨⟨k * lo, List.mem_map_of_mem hlo, ?_, ?_⟩,
      ⟨k * hi, List.mem_map_of_mem hhi, ?_, ?_⟩, ?_⟩
    · rw [F64.mul_fin_eq_fin_iff hk.ne', hcancel]
      exact hmin
    · intro _ hmem
      obtain ⟨q, hq, rfl⟩ := List.mem_map.mp hmem
      exact mul_le_mul_of_nonneg_left (hle q hq) hk.le
    · rw [F64.mul_fin_eq_fin_iff hk.ne', hcancel]
      exact hmax
    · intro _ hmem
      obtain ⟨q, hq, rfl⟩ := List.mem_map.mp hmem
      exact mul_le_mul_of_nonneg_left (hge q hq) hk.le
    · rw [F64.mul_fin_eq_fin_iff hk.ne', List.sum_map_mul_left, List.length_map, mul_div_assoc,
        hcancel, List.map_id']
      exact havg

/-! ### Both orders -/

/-- **Taking the iterator and scaling commute**: in either order the iterator answers as that of the
pattern does with each of its values scaled, and the statistics are those of the scaled data. -/
structure ScaleCommutes (md5 : List UInt8 → List UInt8) (toBits : F64 → UInt64)
    (s : DataRatePattern) (qs : List ℚ) (k : ℚ) (after before : DataRatePattern) : Prop where
  /-- `Iterator()`, then `Scale`. -/
  iteratorFirst : s.iterator.2.scale md5 toBits (.fin k) = some after
  /-- `Scale`, then `Iterator()`. -/
  scaleFirst : s.scale md5 toBits (.fin k) = some before
  same : ∀ calls, after.iterator.1.answers calls = before.iterator.1.answers calls
  playback : ∀ calls, before.iterator.1.answers calls =
    (s.iterator.1.map (F64.fin k).mul).answers calls
  statistics : after.StatisticsOf (qs.map (k * ·)) ∧ before.StatisticsOf (qs.map (k * ·))

/-- **They commute exactly if the scale leaves the value of the iterator as it is**, and the
statistics were right before. -/
theorem scale_commutes_iff (md5 : List UInt8 → List UInt8) (toBits : F64 → UInt64)
    {qs : List ℚ} {k : ℚ} (hdata : s.data = some (qs.map .fin)) (hne : qs ≠ []) (hk : 0 < k)
    (hs : s.Shared) :
    (∃ after before, ScaleCommutes md5 toBits s qs k after before) ↔
      (k = 1 ∨ ∀ q, s.heldValue = .fin q → q = 0) ∧ s.StatisticsOf qs := by
  have hne' : qs.map F64.fin ≠ [] := fun h0 => hne (List.map_eq_nil_iff.mp h0)
  obtain ⟨-, hvalue⟩ := hs.iterator hdata hne'
  have hsame : { s.iterator.1.map (F64.fin k).mul with value := s.heldValue } =
      s.iterator.1.map (F64.fin k).mul ↔ (F64.fin k).mul s.heldValue = s.heldValue := by
    rw [DataRatePatternIterator.map, hvalue]
    simp [eq_comm]
  rw [← F64.fin_mul_eq_self_iff hk, ← hsame]
  constructor
  · rintro ⟨after, before, h⟩
    refine ⟨?_, (statisticsOf_scale_iff hk h.scaleFirst).mp h.statistics.2⟩
    -- the value it has is seen at once
    have hfirst := (h.same [.value]).trans (h.playback [.value])
    rw [iterator_of_scale_after hdata hne' hs h.iteratorFirst] at hfirst
    have hheld : s.heldValue = (F64.fin k).mul s.iterator.1.value :=
      Option.some.inj (Except.ok.inj (List.cons.inj hfirst).1)
    rw [hsame, ← hvalue, ← hheld, hvalue]
  · rintro ⟨hheld, hstat⟩
    obtain ⟨after, hafter⟩ : ∃ t, s.iterator.2.scale md5 toBits (.fin k) = some t := by
      rw [iterator_snd, scale]
      exact ⟨_, by rw [hdata]; rfl⟩
    obtain ⟨before, hbefore⟩ : ∃ t, s.scale md5 toBits (.fin k) = some t := by
      rw [scale]
      exact ⟨_, by rw [hdata]; rfl⟩
    have hit : after.iterator.1 = s.iterator.1.map (F64.fin k).mul :=
      (iterator_of_scale_after hdata hne' hs hafter).trans hheld
    have hit' : before.iterator.1 = s.iterator.1.map (F64.fin k).mul := by
      rcases iterator_of_scale hdata hne' hs hbefore with h | h
      · exact h
      · exact h.trans hheld
    have hstat' : s.iterator.2.StatisticsOf qs := by
      rw [iterator_snd]
      exact ⟨hstat.min, hstat.max, hstat.avg⟩
    refine ⟨after, before, hafter, hbefore,
      fun calls => by rw [hit, hit'], fun calls => by rw [hit'],
      (statisticsOf_scale_iff hk hafter).mpr hstat', (statisticsOf_scale_iff hk hbefore).mpr hstat⟩

/-- A pattern that starts with 0. -/
theorem scale_commutes_zero :
    ∃ after before, ScaleCommutes (fun _ => []) (fun _ => 0)
      { data := some [.fin 0, .fin 20], min := .fin 0, max := .fin 20, avg := .fin 10 } [0, 20] 2
      after before := by
  refine (scale_commutes_iff (fun _ => []) (fun _ => 0) rfl (by decide) (by norm_num)
    (shared_of_none rfl)).mpr
    ⟨.inr ?_, ⟨0, by simp, rfl, by simp⟩, ⟨20, by simp, rfl, by simp⟩, by norm_num⟩
  intro q hq
  exact (F64.fin.inj hq).symm

/-- The values 10 and 20, with their statistics. -/
def tenTwenty : DataRatePattern :=
  { data := some [.fin 10, .fin 20], min := .fin 10, max := .fin 20, avg := .fin 15 }

/-- **The values 10 and 20, scaled by 2.**  The iterator that was taken before starts with 10, the
one that is taken afterwards with 20. -/
theorem first_value_not_scaled :
    (∃ after before, tenTwenty.iterator.2.scale (fun _ => []) (fun _ => 0) (.fin 2) = some after ∧
      tenTwenty.scale (fun _ => []) (fun _ => 0) (.fin 2) = some before ∧
      after.iterator.1.answers [.next, .next] = [.ok (some (.fin 10)), .ok (some (.fin 40))] ∧
      before.iterator.1.answers [.next, .next] = [.ok (some (.fin 20)), .ok (some (.fin 40))]) ∧
    ¬ ∃ after before, ScaleCommutes (fun _ => []) (fun _ => 0) tenTwenty [10, 20] 2 after
      before := by
  refine ⟨⟨_, _, rfl, rfl, by decide +kernel, by decide +kernel⟩, ?_⟩
  rintro ⟨after, before, h⟩
  obtain rfl := Option.some.inj h.iteratorFirst
  obtain rfl := Option.some.inj h.scaleFirst
  exact absurd (h.same [.value]) (by decide +kernel)

end DataRatePattern

end Jens
