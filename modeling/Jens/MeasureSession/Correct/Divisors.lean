import Jens.MeasureSession.Correct.Isolation

/-!
# The divisors of a sample

`toDB_measure_packet` divides by the number of samples and by the duration in 32 bits.  The range
over the map skips the aggregates without a sample, and the duration is 10 at least; but what is cut
to 32 bits is 0 if the first and the last packet of the flow lie a multiple of 2^32 milliseconds
apart (`ofInt_sampleDuration_eq_zero_iff`).  So no divisor of a run is zero exactly if no window has
such a flow when its sample is made (`divisors_ne_zero_iff`).
-/

namespace Jens

open Steps

/-! ### The aggregate of a flow -/

theorem collected_eq_none {xs : List Addition} (h : collected xs = none) : xs = [] := by
  rcases List.eq_nil_or_concat xs with hnil | ⟨xs, x, rfl⟩
  · exact hnil
  · rw [List.concat_eq_append, collected_concat] at h
    cases h

/-- But for its priority, the aggregate of a flow is what `add` makes of the packets. -/
theorem exists_collected_eq {xs : List Addition} {a : AggregateMeasure}
    (h : collected xs = some a) :
    ∃ flow prio, a = ((AggregateMeasure.new flow).addAll (xs.map Addition.call)).withPrio prio := by
  induction xs using List.reverseRecOn generalizing a with
  | nil => cases h
  | append_singleton xs x ih =>
    rw [collected_concat] at h
    obtain rfl := Option.some.inj h
    have hcall : (xs ++ [x]).map Addition.call = xs.map Addition.call ++ [x.call] := by simp
    simp only [hcall, AggregateMeasure.addAll_concat]
    cases hprev : collected xs with
    | none =>
      obtain rfl := collected_eq_none hprev
      exact ⟨x.message.netFlow, x.message.netFlow.prio,
        (AggregateMeasure.add_withPrio (.new x.message.netFlow) _ _ _)⟩
    | some b =>
      obtain ⟨flow, prio, rfl⟩ := ih hprev
      refine ⟨flow, if x.cached then x.message.netFlow.prio else prio, ?_⟩
      rw [← AggregateMeasure.add_withPrio]
      rfl

/-- The signed time from the first to the last packet of the flow `k`. -/
def spanMs (k : String) (adds : List Addition) : ℤ :=
  let arrivals := (ofKey k adds).map Addition.call
  (AggregateMeasure.lastTimestamp arrivals - AggregateMeasure.firstTimestamp arrivals).toInt64.toInt

/-- The duration of a sample vanishes in 32 bits. -/
theorem ofInt_sampleDuration_eq_zero_iff {k : String} {adds : List Addition} {a : AggregateMeasure}
    (h : aggregateOf k adds = some a) :
    UInt32.ofInt a.sampleDuration = 0 ↔ 0 < spanMs k adds ∧ 2 ^ 32 ∣ spanMs k adds := by
  obtain ⟨flow, prio, rfl⟩ := exists_collected_eq h
  have hduration := AggregateMeasure.sampleDuration_addAll flow ((ofKey k adds).map Addition.call)
  have hsame (a : AggregateMeasure) : (a.withPrio prio).sampleDuration = a.sampleDuration := rfl
  rw [hsame, hduration, AggregateMeasure.ofInt_natCast, AggregateMeasure.ofNat_eq_zero_iff,
    AggregateMeasure.duration, spanMs]
  generalize
    (AggregateMeasure.lastTimestamp _ - AggregateMeasure.firstTimestamp _).toInt64.toInt = x
  omega

namespace Aggregator

/-! ### The calls of `toDB_measure_packet` -/

/-- The aggregate on which a step calls `toDB_measure_packet`. -/
def sampled (s : Aggregator) (e : AggregatorEvent) : Option AggregateMeasure :=
  match s.pc, e with
  | .emitting _ rest, .next i => rest[i]?.filter fun a => a.sampleCount ≠ 0
  | _, _ => none

theorem sampled_eq_some {s : Aggregator} {e : AggregatorEvent} {a : AggregateMeasure}
    (h : s.sampled e = some a) :
    ∃ w rest i, s.pc = .emitting w rest ∧ e = .next i ∧ rest[i]? = some a ∧ a.sampleCount ≠ 0 := by
  unfold sampled at h
  split at h
  · rename_i w rest i hpc
    rw [Option.filter_eq_some_iff] at h
    exact ⟨w, rest, i, hpc, rfl, h.1, of_decide_eq_true h.2⟩
  · cases h

/-- The run ends in a panic there just if the duration vanishes. -/
theorem panicked_iff_of_sampled {p : SessionParams} {s t : Aggregator} {e : AggregatorEvent}
    {a : AggregateMeasure} (ha : s.sampled e = some a) (hs : s.step p e = some t) :
    t.pc = .panicked ↔ UInt32.ofInt a.sampleDuration = 0 := by
  obtain ⟨w, rest, i, hpc, rfl, hi, hcount⟩ := sampled_eq_some ha
  have hnone := a.toDbMeasurePacket_eq_none_iff (w.message.timestampMs + p.timeDiff)
  rw [or_iff_left hcount] at hnone
  simp only [step, hpc, hi, Option.map_some, Option.some.injEq] at hs
  rw [← hnone, ← hs, onNext, if_neg hcount]
  cases a.toDbMeasurePacket (w.message.timestampMs + p.timeDiff) with
  | none => exact iff_of_true rfl rfl
  | some sample =>
    dsimp only
    split_ifs <;> simp

/-! ### The packets of the window -/

/-- The packets added since the window was opened, after a step from `s`. -/
def additionsAfter (s : Aggregator) (adds : List Addition) (e : AggregatorEvent) : List Addition :=
  match s.pc with
  | .opening => []
  | _ => adds ++ (s.addition e).toList

/-- The aggregator beside the packets added since its window was opened. -/
def stepAdding (p : SessionParams) (s : Aggregator × List Addition) (e : AggregatorEvent) :
    Option (Aggregator × List Addition) :=
  (step p s.1 e).map fun t => (t, s.1.additionsAfter s.2 e)

theorem additionsAfter_of_ne {s : Aggregator} (hpc : s.pc ≠ .opening) (adds : List Addition)
    (e : AggregatorEvent) : s.additionsAfter adds e = adds ++ (s.addition e).toList := by
  unfold additionsAfter
  split
  · rename_i h
    exact absurd h hpc
  · rfl

/-- The aggregates are those of the packets added. -/
def AddsHold (s : Aggregator) (adds : List Addition) : Prop :=
  match s.pc with
  | .reading w | .persisting w _ => w.Collects adds
  | .emitting _ rest | .sending _ _ rest =>
    ∀ a ∈ rest, aggregateOf a.netFlow.measureIdStr adds = some a
  | _ => True

/-- The aggregates that are ranged over. -/
theorem aggregateOf_of_mem_entries {w : Window} {adds : List Addition} (h : w.Collects adds) :
    ∀ a ∈ w.mapMeasures.entries.map Sigma.snd,
      aggregateOf a.netFlow.measureIdStr adds = some a := by
  intro a ha
  obtain ⟨⟨k, b⟩, hb, rfl⟩ := List.mem_map.mp ha
  have hlookup : w.mapMeasures.lookup k = some b := AList.mem_lookup_iff.mpr hb
  have hof : aggregateOf k adds = some b := (h k).symm.trans hlookup
  rw [measureIdStr_aggregateOf hof]
  exact hof

theorem AddsHold.step {p : SessionParams} {s t : Aggregator} {adds : List Addition}
    {e : AggregatorEvent} (h : AddsHold s adds) (hs : s.step p e = some t) :
    AddsHold t (s.additionsAfter adds e) := by
  unfold AddsHold at h
  cases moves_of_step hs with
  | persistence _ | noPersistence _ | tick _ | openedClosed _ | readClosed _ | flowFailed _
  | rangeDone _ | close _ | wgDone _ => trivial
  | @opened m hpc =>
    show (Window.opened m).Collects (s.additionsAfter adds _)
    rw [additionsAfter, hpc]
    exact fun k => rfl
  | @read m w hpc =>
    rw [hpc] at h
    have hsame : ({ w with message := m } : Window).Collects adds := h
    show ({ w with message := m } : Window).Collects (s.additionsAfter adds _)
    rw [additionsAfter_of_ne (by simp [hpc])]
    simpa [addition, hpc] using hsame
  | @empty w hpc =>
    rw [hpc] at h
    show ∀ a ∈ _, aggregateOf _ (s.additionsAfter adds _) = some a
    rw [additionsAfter_of_ne (by simp [hpc])]
    simpa [addition, hpc] using aggregateOf_of_mem_entries h
  | @flowPersisted w readMessages cached flowId capacity hpc =>
    rw [hpc] at h
    have hadd := h.add flowId cached capacity
    have hafter : s.additionsAfter adds (.flowPersisted flowId cached capacity) =
        adds ++ [⟨(w.persisted flowId cached).message, cached, capacity⟩] := by
      rw [additionsAfter_of_ne (by simp [hpc])]
      simp [addition, hpc]
    rw [hafter]
    cases readMessages with
    | true => exact hadd
    | false => exact aggregateOf_of_mem_entries hadd
  | @next w rest i a hpc hi =>
    rw [hpc] at h
    have hafter : s.additionsAfter adds (.next i) = adds := by
      rw [additionsAfter_of_ne (by simp [hpc])]
      simp [addition, hpc]
    have hrest : ∀ b ∈ rest.eraseIdx i, aggregateOf b.netFlow.measureIdStr adds = some b :=
      fun b hb => h b (List.mem_of_mem_eraseIdx hb)
    rw [hafter]
    rcases onNext_cases p w a (rest.eraseIdx i) with hn | hn | ⟨sample, hn⟩
    · simpa [AddsHold, hn] using hrest
    · simp [AddsHold, hn]
    · simpa [AddsHold, hn] using hrest
  | @sent w sample rest hpc =>
    rw [hpc] at h
    show ∀ a ∈ rest, aggregateOf _ (s.additionsAfter adds _) = some a
    rw [additionsAfter_of_ne (by simp [hpc])]
    simpa [addition, hpc] using h

/-! ### All calls -/

/-- The flow whose sample is made has no first and last packet that lie a multiple of 2^32
milliseconds apart. -/
def SpanFits (s : Aggregator × List Addition) (e : AggregatorEvent) : Prop :=
  ∀ a ∈ s.1.sampled e, ¬ (0 < spanMs a.netFlow.measureIdStr s.2 ∧
    2 ^ 32 ∣ spanMs a.netFlow.measureIdStr s.2)

/-- **No divisor is zero in a run exactly if the spans of all flows that are sampled fit.** -/
theorem divisors_ne_zero_iff (p : SessionParams) (es : List AggregatorEvent) :
    (∀ a ∈ outputs (step p) sampled init es,
      a.sampleCount ≠ 0 ∧ UInt32.ofInt a.sampleDuration ≠ 0) ↔
    StepsMeet (stepAdding p) SpanFits (init, []) es := by
  have hmap : ∀ s e, (stepAdding p s e).map Prod.fst = step p s.1 e := by
    intro s e
    rw [stepAdding, Option.map_map]
    exact Option.map_id'
  rw [← outputs_of_map (f := Prod.fst) hmap sampled (init, [])]
  refine forall_outputs_iff (I := fun s => AddsHold s.1 s.2) ?_ ?_ ?_ es
  · intro s e s' h hs
    obtain ⟨t, ht, rfl⟩ := Option.map_eq_some_iff.mp hs
    exact h.step ht
  · intro s e h
    refine forall₂_congr fun a ha => ?_
    obtain ⟨w, rest, i, hpc, -, hi, hcount⟩ := sampled_eq_some ha
    rw [AddsHold, hpc] at h
    rw [← ofInt_sampleDuration_eq_zero_iff (h a (List.mem_of_getElem? hi))]
    exact and_iff_right hcount
  · trivial

/-- A window with two packets of one flow, 2^32 milliseconds apart. -/
def windowFarApart : List AggregatorEvent :=
  [.persistence true, .tick, .recv (onePacket 1), .recv (onePacket 1), .flowPersisted 1 false 1000,
    .recv (onePacket 4294967297), .flowPersisted 1 true 1000, .next 0]

/-- **Two packets 2^32 milliseconds apart.**  The goroutine divides by zero. -/
theorem division_by_zero :
    (run (step ⟨1, 0, false⟩) init windowFarApart).map Aggregator.pc = some .panicked ∧
    ¬ ∀ a ∈ outputs (step ⟨1, 0, false⟩) sampled init windowFarApart,
      a.sampleCount ≠ 0 ∧ UInt32.ofInt a.sampleDuration ≠ 0 :=
  ⟨by decide +kernel, by decide +kernel⟩

end Aggregator

end Jens
