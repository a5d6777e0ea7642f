import Jens.MeasureSession.Correct.Aggregator
import Jens.MeasureSession.Correct.AggregateMeasure
import Jens.Lib.Keyed

/-!
# What a window sends

`stepLogged` runs the aggregator beside a log of the current window: the packets added since the
last flush and the samples sent since.  `Counted` relates the map of the window to the packets, and
`Sent` the samples to the part of the map already visited.

A flush conserves the drops exactly of the flows that had a forwarded packet in the window
(`drops_conserved_iff`), and the window in which the channel is found closed is not flushed at all
(`lastFlushed_iff`).
-/

namespace Jens

open Steps

/-- What has happened since the last flush. -/
structure WindowLog where
  added : List PacketMeasure
  sent : List DbMeasurePacket
  deriving DecidableEq, Repr

namespace WindowLog

def empty : WindowLog := ⟨[], []⟩

/-- The log after a step of the aggregator from `s`. -/
def step (l : WindowLog) (s : Aggregator) (e : AggregatorEvent) : WindowLog :=
  match s.pc, e with
  | .persisting w _, .flowPersisted flowId cached _ =>
    { l with added := l.added ++ [(w.persisted flowId cached).message] }
  | .sending _ sample _, .sent => { l with sent := l.sent ++ [sample] }
  | .emitting _ [], .rangeDone => empty
  | _, _ => l

/-- The forwarded packets of the flow `k`. -/
def forwardedOf (l : WindowLog) (k : String) : ℕ :=
  l.added.countP fun m => m.netFlow.measureIdStr = k ∧ m.drop = false

/-- The dropped packets of the flow `k`. -/
def dropsOf (l : WindowLog) (k : String) : ℕ :=
  l.added.countP fun m => m.netFlow.measureIdStr = k ∧ m.drop = true

/-- The drops in the samples of the flow `k`. -/
def sentDrops (l : WindowLog) (k : String) : ℕ :=
  ((l.sent.filter fun x => x.netFlowString = k).map fun x => x.dropped.toNat).sum

/-- The samples sent have the drops of the packets added, for each flow and in total. -/
structure DropsConserved (l : WindowLog) : Prop where
  perFlow : ∀ k, l.sentDrops k = l.dropsOf k
  total : (l.sent.map fun x => x.dropped.toNat).sum = l.added.countP fun m => m.drop

/-- Every flow with a forwarded packet has its sample. -/
def LastFlushed (l : WindowLog) : Prop :=
  ∀ m ∈ l.added, m.drop = false → ∃ x ∈ l.sent, x.netFlowString = m.netFlow.measureIdStr

end WindowLog

namespace WindowLog

section Concat

variable (l : WindowLog) (m : PacketMeasure) (k : String)

theorem forwardedOf_concat :
    { l with added := l.added ++ [m] }.forwardedOf k =
      l.forwardedOf k + if m.netFlow.measureIdStr = k ∧ m.drop = false then 1 else 0 := by
  simp [forwardedOf, List.countP_append, List.countP_singleton]

theorem dropsOf_concat :
    { l with added := l.added ++ [m] }.dropsOf k =
      l.dropsOf k + if m.netFlow.measureIdStr = k ∧ m.drop = true then 1 else 0 := by
  simp [dropsOf, List.countP_append, List.countP_singleton]

theorem sentDrops_concat (x : DbMeasurePacket) :
    { l with sent := l.sent ++ [x] }.sentDrops k =
      l.sentDrops k + if x.netFlowString = k then x.dropped.toNat else 0 := by
  by_cases h : x.netFlowString = k <;> simp [sentDrops, List.filter_append, h]

end Concat

/-- Conserved for each flow, the drops are conserved in total. -/
theorem total_of_perFlow {l : WindowLog} (h : ∀ k, l.sentDrops k = l.dropsOf k) :
    (l.sent.map fun x => x.dropped.toNat).sum = l.added.countP fun m => m.drop := by
  let keys : Finset String := (l.sent.map DbMeasurePacket.netFlowString).toFinset ∪
    ((l.added.filter fun m => m.drop).map fun m => m.netFlow.measureIdStr).toFinset
  have hsent := sum_filter_key DbMeasurePacket.netFlowString (fun x => x.dropped.toNat) l.sent keys
    fun x hx => Finset.mem_union_left _ (List.mem_toFinset.mpr (List.mem_map_of_mem hx))
  have hadded := sum_filter_key (fun m : PacketMeasure => m.netFlow.measureIdStr) (fun _ => 1)
    (l.added.filter fun m => m.drop) keys
    fun m hm => Finset.mem_union_right _ (List.mem_toFinset.mpr (List.mem_map_of_mem hm))
  have hdrops : ∀ k, (((l.added.filter fun m => m.drop).filter
      fun m => m.netFlow.measureIdStr = k).map fun _ => 1).sum = l.dropsOf k := by
    intro k
    simp [dropsOf, List.countP_eq_length_filter]
  calc (l.sent.map fun x => x.dropped.toNat).sum = ∑ k ∈ keys, l.sentDrops k := hsent.symm
    _ = ∑ k ∈ keys, l.dropsOf k := Finset.sum_congr rfl fun k _ => h k
    _ = ((l.added.filter fun m => m.drop).map fun _ => 1).sum := by
      rw [← hadded, Finset.sum_congr rfl fun k _ => hdrops k]
    _ = l.added.countP fun m => m.drop := by simp [List.countP_eq_length_filter]

end WindowLog

namespace Window

/-- `Persist` changes at most the priority in the aggregate of the packet's own flow. -/
theorem lookup_persisted (w : Window) (flowId : ℤ) (cached : Bool) (k : String) :
    (w.persisted flowId cached).mapMeasures.lookup k =
      (w.mapMeasures.lookup k).map fun a =>
        { a with netFlow := { a.netFlow with
            prio := if k = w.key ∧ cached then w.message.netFlow.prio else a.netFlow.prio } } := by
  unfold persisted
  dsimp only
  cases hm : w.mapMeasures.lookup w.key with
  | none =>
    obtain rfl | hk := eq_or_ne k w.key
    · rw [hm]
      rfl
    · simp [hk]
  | some measure =>
    dsimp only
    cases cached with
    | false => simp
    | true =>
      obtain rfl | hk := eq_or_ne k w.key
      · rw [hm, if_pos rfl, AList.lookup_insert]
        simp
      · rw [if_pos rfl, AList.lookup_insert_ne hk]
        simp [hk]

/-- What the map of the window has counted of the packets added. -/
structure Counted (w : Window) (l : WindowLog) : Prop where
  keys : ∀ k, ∀ a ∈ w.mapMeasures.lookup k, a.netFlow.measureIdStr = k
  forwarded : ∀ k, (w.mapMeasures.lookup k).elim 0 AggregateMeasure.sampleCount =
    UInt32.ofNat (l.forwardedOf k)
  drops : ∀ k, (w.mapMeasures.lookup k).elim 0 AggregateMeasure.sumDropped =
    UInt32.ofNat (l.dropsOf k)

theorem counted_opened (m : PacketMeasure) : (opened m).Counted .empty where
  keys k a h := by simp [opened] at h
  forwarded k := by simp [opened, WindowLog.forwardedOf, WindowLog.empty]
  drops k := by simp [opened, WindowLog.dropsOf, WindowLog.empty]

theorem Counted.persisted {w : Window} {l : WindowLog} (h : w.Counted l) (flowId : ℤ)
    (cached : Bool) : (w.persisted flowId cached).Counted l where
  keys k a ha := by
    rw [lookup_persisted] at ha
    obtain ⟨b, hb, rfl⟩ := Option.map_eq_some_iff.mp ha
    exact h.keys k b hb
  forwarded k := by
    rw [lookup_persisted, Option.elim_map, ← h.forwarded k]
    rfl
  drops k := by
    rw [lookup_persisted, Option.elim_map, ← h.drops k]
    rfl

/-- A sum that `add` increases by `δ` of the packet. -/
theorem elim_addMessage {f : AggregateMeasure → UInt32} {δ : PacketMeasure → UInt32}
    (hnew : ∀ flow, f (.new flow) = 0) (hadd : ∀ a pm capacity, f (a.add pm capacity) = f a + δ pm)
    (w : Window) (capacity : UInt64) (k : String) :
    ((w.addMessage capacity).mapMeasures.lookup k).elim 0 f =
      (w.mapMeasures.lookup k).elim 0 f + if w.key = k then δ w.message else 0 := by
  rw [lookup_addMessage, if_congr eq_comm rfl rfl]
  split_ifs
  · cases w.mapMeasures.lookup k with
    | none => simp [hadd, hnew]
    | some a => simp [hadd]
  · rw [UInt32.add_zero]

/-- One more packet is added to the aggregate of its own flow. -/
theorem Counted.addMessage {w : Window} {l : WindowLog} (h : w.Counted l) (capacity : UInt64) :
    (w.addMessage capacity).Counted { l with added := l.added ++ [w.message] } where
  keys k a ha := by
    rw [lookup_addMessage] at ha
    split_ifs at ha with hk
    · obtain rfl := Option.some.inj ha
      rw [AggregateMeasure.add_netFlow]
      cases hl : w.mapMeasures.lookup k with
      | none => exact hk.symm
      | some b => exact h.keys k b hl
    · exact h.keys k a ha
  forwarded k := by
    rw [elim_addMessage (fun _ => rfl) AggregateMeasure.add_sampleCount, h.forwarded k,
      WindowLog.forwardedOf_concat, UInt32.ofNat_add]
    congr 1
    unfold key
    cases w.message.drop <;> simp [apply_ite]
  drops k := by
    rw [elim_addMessage (fun _ => rfl) AggregateMeasure.add_sumDropped, h.drops k,
      WindowLog.dropsOf_concat, UInt32.ofNat_add]
    congr 1
    unfold key
    cases w.message.drop <;> simp [apply_ite]

end Window

/-! ### The flush -/

/-- The drops the aggregate brings when the range comes to it. -/
def AggregateMeasure.owed (a : AggregateMeasure) : ℕ :=
  if a.sampleCount = 0 then 0 else a.sumDropped.toNat

/-- The drops of the flow `k` still to come from the aggregates not yet visited. -/
def owedOf (k : String) (rest : List AggregateMeasure) : ℕ :=
  ((rest.filter fun a => a.netFlow.measureIdStr = k).map AggregateMeasure.owed).sum

theorem owedOf_cons (k : String) (a : AggregateMeasure) (rest : List AggregateMeasure) :
    owedOf k (a :: rest) = (if a.netFlow.measureIdStr = k then a.owed else 0) + owedOf k rest := by
  by_cases h : a.netFlow.measureIdStr = k <;> simp [owedOf, h]

theorem owedOf_eraseIdx {k : String} {rest : List AggregateMeasure} {i : ℕ} {a : AggregateMeasure}
    (h : rest[i]? = some a) :
    owedOf k rest = (if a.netFlow.measureIdStr = k then a.owed else 0)
      + owedOf k (rest.eraseIdx i) := by
  obtain ⟨hi, rfl⟩ := List.getElem?_eq_some_iff.mp h
  rw [← owedOf_cons]
  exact (((List.getElem_cons_eraseIdx_perm hi).filter _).map _).sum_eq.symm

namespace WindowLog

/-- The drops of the flow `k` that a flush sends: none without a forwarded packet. -/
def due (l : WindowLog) (k : String) : ℕ :=
  if 2 ^ 32 ∣ l.forwardedOf k then 0 else l.dropsOf k % 2 ^ 32

end WindowLog

/-- At the start of a flush every drop that is due is in the map. -/
theorem Window.Counted.owedOf_entries {w : Window} {l : WindowLog} (h : w.Counted l) (k : String) :
    owedOf k (w.mapMeasures.entries.map Sigma.snd) = l.due k := by
  rw [owedOf, filter_key_entries h.keys]
  have hf := h.forwarded k
  have hd := h.drops k
  cases hl : w.mapMeasures.lookup k with
  | none =>
    rw [hl] at hf
    exact (if_pos ((AggregateMeasure.ofNat_eq_zero_iff _).mp hf.symm)).symm
  | some a =>
    rw [hl] at hf hd
    change a.sampleCount = _ at hf
    change a.sumDropped = _ at hd
    show a.owed + 0 = _
    rw [add_zero, AggregateMeasure.owed, hf, hd, UInt32.toNat_ofNat', WindowLog.due]
    exact if_congr (AggregateMeasure.ofNat_eq_zero_iff _) rfl rfl

namespace Aggregator

/-- The aggregator beside the log of its window. -/
def stepLogged (p : SessionParams) (s : Aggregator × WindowLog) (e : AggregatorEvent) :
    Option (Aggregator × WindowLog) :=
  (step p s.1 e).map fun t => (t, s.2.step s.1 e)

theorem stepLogged_eq_some {p : SessionParams} {s s' : Aggregator × WindowLog}
    {e : AggregatorEvent} :
    stepLogged p s e = some s' ↔ ∃ t, s.1.step p e = some t ∧ (t, s.2.step s.1 e) = s' := by
  rw [stepLogged, Option.map_eq_some_iff]

/-- The log is a record beside the run: the aggregator runs as it does without. -/
theorem run_stepLogged {p : SessionParams} {s : Aggregator} {l : WindowLog}
    {es : List AggregatorEvent} :
    (run (stepLogged p) (s, l) es).map Prod.fst = run (step p) s es := by
  refine run_of_map (fun s e => ?_) (s, l) es
  rw [stepLogged, Option.map_map]
  exact Option.map_id_apply

/-- One aggregate of the range, without csv files. -/
theorem onNext_of_not_csv {p : SessionParams} (hcsv : p.csvOutput = false) (w : Window)
    (a : AggregateMeasure) (rest : List AggregateMeasure) :
    a.sampleCount = 0 ∧ onNext p w a rest = .emitting w rest ∨ onNext p w a rest = .panicked ∨
      ∃ sample, a.sampleCount ≠ 0 ∧ onNext p w a rest = .sending w sample rest ∧
        sample.netFlowString = a.netFlow.measureIdStr ∧ sample.dropped = a.sumDropped := by
  unfold onNext
  split_ifs with hn
  · exact .inl ⟨hn, rfl⟩
  · split
    · exact .inr (.inl rfl)
    · rename_i sample hs
      obtain ⟨_, _, hs⟩ := Option.bind_eq_some_iff.mp hs
      obtain ⟨_, _, hs⟩ := Option.bind_eq_some_iff.mp hs
      obtain ⟨_, _, rfl⟩ := Option.map_eq_some_iff.mp hs
      rw [if_neg (by simp [hcsv])]
      exact .inr (.inr ⟨_, hn, rfl, rfl, rfl⟩)

/-- What the log holds where the goroutine stands. -/
def LogHolds (s : Aggregator) (l : WindowLog) : Prop :=
  match s.pc with
  | .start | .ticker | .opening => l = .empty
  | .reading w | .persisting w _ => w.Counted l ∧ l.sent = []
  | .emitting _ rest => ∀ k, l.sentDrops k + owedOf k rest = l.due k
  | .sending _ sample rest => ∀ k,
    l.sentDrops k + ((if sample.netFlowString = k then sample.dropped.toNat else 0) + owedOf k rest)
      = l.due k
  | .closing | .leaving | .returned | .panicked => True

theorem flush_starts {w : Window} {l : WindowLog} (h : w.Counted l) (hsent : l.sent = [])
    (k : String) :
    l.sentDrops k + owedOf k (w.mapMeasures.entries.map Sigma.snd) = l.due k := by
  have hnone : l.sentDrops k = 0 := by simp [WindowLog.sentDrops, hsent]
  rw [hnone, h.owedOf_entries k, zero_add]

theorem LogHolds.step {p : SessionParams} (hcsv : p.csvOutput = false) {s t : Aggregator}
    {l : WindowLog} {e : AggregatorEvent} (h : LogHolds s l) (hs : s.step p e = some t) :
    LogHolds t (l.step s e) := by
  unfold LogHolds at h
  cases moves_of_step hs with
  | persistence hpc | tick hpc => simpa [LogHolds, WindowLog.step, hpc] using h
  | noPersistence hpc | openedClosed hpc | readClosed hpc | flowFailed hpc | close hpc
  | wgDone hpc => trivial
  | @opened m hpc =>
    rw [hpc] at h
    obtain rfl : l = .empty := h
    simpa [LogHolds, WindowLog.step, hpc] using ⟨Window.counted_opened m, rfl⟩
  | @read m w hpc =>
    -- the map is that of the window before
    rw [hpc] at h
    simpa [LogHolds, WindowLog.step, hpc] using
      (⟨⟨h.1.keys, h.1.forwarded, h.1.drops⟩, h.2⟩ :
        ({ w with message := m } : Window).Counted l ∧ l.sent = [])
  | @empty w hpc =>
    rw [hpc] at h
    obtain ⟨hcounted, hsent⟩ := h
    simpa [LogHolds, WindowLog.step, hpc, emit] using flush_starts hcounted hsent
  | @flowPersisted w readMessages cached flowId capacity hpc =>
    rw [hpc] at h
    obtain ⟨hcounted, hsent⟩ := h
    have hadd := (hcounted.persisted flowId cached).addMessage capacity
    cases readMessages with
    | true => simpa [LogHolds, WindowLog.step, hpc] using ⟨hadd, hsent⟩
    | false => simpa [LogHolds, WindowLog.step, hpc, emit] using flush_starts hadd hsent
  | @next w rest i measure hpc hm =>
    rw [hpc] at h
    have hlog : l.step s (.next i) = l := by simp [WindowLog.step, hpc]
    rw [hlog]
    rcases onNext_of_not_csv hcsv w measure (rest.eraseIdx i) with
      ⟨hzero, hn⟩ | hn | ⟨sample, hne, hn, hkey, hdropped⟩
    · rw [hn]
      intro k
      have hk := h k
      rw [owedOf_eraseIdx hm, AggregateMeasure.owed, if_pos hzero, ite_self, zero_add] at hk
      exact hk
    · rw [hn]
      trivial
    · rw [hn]
      intro k
      have hk := h k
      rw [owedOf_eraseIdx hm, AggregateMeasure.owed, if_neg hne, ← hkey, ← hdropped] at hk
      exact hk
  | rangeDone hpc => simp [LogHolds, WindowLog.step, hpc]
  | @sent w sample rest hpc =>
    rw [hpc] at h
    simp only [LogHolds, WindowLog.step, hpc]
    intro k
    rw [WindowLog.sentDrops_concat, Nat.add_assoc]
    exact h k

theorem logHolds_init : LogHolds init .empty := rfl

theorem logHolds_of_run {p : SessionParams} (hcsv : p.csvOutput = false)
    {es : List AggregatorEvent} {s : Aggregator} {l : WindowLog}
    (hrun : run (stepLogged p) (init, .empty) es = some (s, l)) : LogHolds s l := by
  refine run_invariant (I := fun sl : Aggregator × WindowLog => LogHolds sl.1 sl.2) ?_ ?_ hrun
  · intro sl e sl' h hs
    obtain ⟨t, ht, rfl⟩ := stepLogged_eq_some.mp hs
    exact h.step hcsv ht
  · exact logHolds_init

/-- **The drops of a flush.**  When a flush has come to its end, the samples it sent have as many
drops as were added, flow by flow and in total, exactly if every flow with a drop also had a
forwarded packet in the window (as the machine counts: not a multiple of `2 ^ 32`, and fewer drops
than that). -/
theorem drops_conserved_iff (p : SessionParams) (hcsv : p.csvOutput = false)
    (es : List AggregatorEvent) (s : Aggregator) (l : WindowLog) (w : Window)
    (hrun : run (stepLogged p) (init, .empty) es = some (s, l)) (hpc : s.pc = .emitting w []) :
    l.DropsConserved ↔
      ∀ k, l.dropsOf k = 0 ∨ ¬ 2 ^ 32 ∣ l.forwardedOf k ∧ l.dropsOf k < 2 ^ 32 := by
  have hlog := logHolds_of_run hcsv hrun
  unfold LogHolds at hlog
  rw [hpc] at hlog
  have hflow : ∀ k, l.sentDrops k = l.dropsOf k ↔
      l.dropsOf k = 0 ∨ ¬ 2 ^ 32 ∣ l.forwardedOf k ∧ l.dropsOf k < 2 ^ 32 := by
    intro k
    have hsent : l.sentDrops k = l.due k := hlog k
    rw [hsent, WindowLog.due]
    split_ifs with hf <;> omega
  constructor
  · intro h k
    exact (hflow k).mp (h.perFlow k)
  · intro h
    have hper := fun k => (hflow k).mpr (h k)
    exact ⟨hper, WindowLog.total_of_perFlow hper⟩

/-- The same packet, dropped. -/
def droppedPacket (timestampMs : UInt64) : PacketMeasure :=
  { onePacket timestampMs with drop := true }

/-- A flow with a forwarded and a dropped packet. -/
theorem drops_conserved_iff_mixed :
    ∃ s l w, run (stepLogged ⟨1, 0, false⟩) (init, .empty)
        [.persistence true, .tick, .recv (onePacket 5), .recv (onePacket 6),
          .flowPersisted 1 false 1000, .recv (droppedPacket 7), .flowPersisted 1 false 1000, .empty,
          .next 0, .sent] = some (s, l) ∧ s.pc = .emitting w [] ∧
      (l.DropsConserved ↔
        ∀ k, l.dropsOf k = 0 ∨ ¬ 2 ^ 32 ∣ l.forwardedOf k ∧ l.dropsOf k < 2 ^ 32) :=
  ⟨_, _, _, rfl, rfl, drops_conserved_iff ⟨1, 0, false⟩ rfl
    [.persistence true, .tick, .recv (onePacket 5), .recv (onePacket 6),
      .flowPersisted 1 false 1000, .recv (droppedPacket 7), .flowPersisted 1 false 1000, .empty,
      .next 0, .sent] _ _ _ rfl rfl⟩

/-- **Drops lost.**  All the packets of the flow are dropped in the window: the range skips its
aggregate, and no sample has the drop. -/
theorem drops_not_conserved :
    ∃ s l w, run (stepLogged ⟨1, 0, false⟩) (init, .empty)
        [.persistence true, .tick, .recv (onePacket 5), .recv (droppedPacket 6),
          .flowPersisted 1 false 1000, .empty, .next 0] = some (s, l) ∧
      s.pc = .emitting w [] ∧ l.added.map PacketMeasure.drop = [true] ∧ l.sent = [] ∧
      ¬ l.DropsConserved :=
  ⟨_, _, _, rfl, rfl, rfl, rfl, fun h => absurd h.total (by decide)⟩

/-! ### The last window -/

/-- The channel is not found closed in a window that holds a forwarded packet. -/
def ClosedBetween (sl : Aggregator × WindowLog) (e : AggregatorEvent) : Prop :=
  e = .recvClosed → sl.1.pc ≠ .opening → ∀ m ∈ sl.2.added, m.drop = true

/-- The samples owed have been sent, once the goroutine has left. -/
def FlushedIfLeft (sl : Aggregator × WindowLog) : Prop := sl.1.left = true → sl.2.LastFlushed

/-- A goroutine that has left writes nothing more. -/
theorem step_of_left {p : SessionParams} {s t : Aggregator} {e : AggregatorEvent}
    (hs : s.step p e = some t) (hleft : s.left = true) (l : WindowLog) :
    t.left = true ∧ l.step s e = l ∧ e ≠ .recvClosed := by
  unfold left at hleft
  cases moves_of_step hs with
  | close hpc | wgDone hpc => exact ⟨rfl, by simp [WindowLog.step, hpc], by simp⟩
  | persistence hpc | noPersistence hpc | tick hpc | opened hpc | openedClosed hpc | read hpc
  | readClosed hpc | empty hpc | flowPersisted hpc | flowFailed hpc | next hpc _ | rangeDone hpc
  | sent hpc => simp [hpc] at hleft

theorem failed_of_step {p : SessionParams} {s t : Aggregator} {e : AggregatorEvent}
    (hs : s.step p e = some t) (ht : t.failed = false) : s.failed = false := by
  cases moves_of_step hs with
  | noPersistence _ | flowFailed _ => cases ht
  | _ => exact ht

/-- The goroutine leaves without an error only when it finds the channel closed, between two windows
or in one. -/
theorem leaves_cases {p : SessionParams} {s t : Aggregator} {e : AggregatorEvent}
    (hs : s.step p e = some t) (hin : s.left = false) (ht : t.failed = false) :
    t.left = false ∧ e ≠ .recvClosed ∨
      e = .recvClosed ∧ t.left = true ∧ (s.pc = .opening ∨ ∃ w, s.pc = .reading w) := by
  unfold left at hin
  cases moves_of_step hs with
  | noPersistence _ | flowFailed _ => cases ht
  | openedClosed hpc => exact .inr ⟨rfl, rfl, .inl hpc⟩
  | @readClosed w hpc => exact .inr ⟨rfl, rfl, .inr ⟨w, hpc⟩⟩
  | close hpc | wgDone hpc => simp [hpc] at hin
  | @next w rest i measure hpc _ =>
    refine .inl ⟨?_, by simp⟩
    rcases onNext_cases p w measure (rest.eraseIdx i) with hn | hn | ⟨_, hn⟩ <;> simp [left, hn]
  | @flowPersisted w readMessages cached flowId capacity hpc =>
    refine .inl ⟨?_, by simp⟩
    cases readMessages <;> rfl
  | persistence _ | tick _ | opened _ | read _ | empty _ | rangeDone _ | sent _ =>
    exact .inl ⟨rfl, by simp⟩

theorem flushedIfLeft_step_iff {p : SessionParams} {s t : Aggregator} {l : WindowLog}
    {e : AggregatorEvent} (hlog : LogHolds s l) (ht : t.failed = false)
    (hgood : FlushedIfLeft (s, l)) (hs : s.step p e = some t) :
    FlushedIfLeft (t, l.step s e) ↔ ClosedBetween (s, l) e := by
  unfold FlushedIfLeft ClosedBetween
  dsimp only
  cases hin : s.left with
  | true =>
    obtain ⟨-, hl, hne⟩ := step_of_left hs hin l
    rw [hl]
    exact iff_of_true (fun _ => hgood hin) fun he => absurd he hne
  | false =>
    rcases leaves_cases hs hin ht with ⟨hstay, hne⟩ | ⟨rfl, hleaves, hpc⟩
    · exact iff_of_true (fun h => by simp [hstay] at h) fun he => absurd he hne
    · have hl : l.step s .recvClosed = l := by
        rcases hpc with hpc | ⟨w, hpc⟩ <;> simp [WindowLog.step, hpc]
      rw [hl]
      unfold LogHolds at hlog
      rcases hpc with hpc | ⟨w, hpc⟩
      · -- between two windows nothing is owed
        rw [hpc] at hlog
        obtain rfl : l = .empty := hlog
        refine iff_of_true (fun _ m hm => ?_) fun _ h => absurd hpc h
        simp [WindowLog.empty] at hm
      · -- in a window nothing has been sent
        rw [hpc] at hlog
        have hsent : l.sent = [] := hlog.2
        rw [hpc]
        simp [WindowLog.LastFlushed, hsent, hleaves]

/-- **The last window.**  When the goroutine leaves because the channel is closed, the flows with a
forwarded packet since the last flush have been sent exactly if the close was found between two
windows, or in one with no forwarded packet so far. -/
theorem lastFlushed_iff (p : SessionParams) (hcsv : p.csvOutput = false)
    (es : List AggregatorEvent) (s : Aggregator) (l : WindowLog)
    (hrun : run (stepLogged p) (init, .empty) es = some (s, l)) (hok : s.failed = false)
    (hleft : s.left = true) :
    l.LastFlushed ↔ StepsMeet (stepLogged p) ClosedBetween (init, .empty) es := by
  have hgood : l.LastFlushed ↔ FlushedIfLeft (s, l) := ⟨fun h _ => h, fun h => h hleft⟩
  have hinit : FlushedIfLeft (init, .empty) := fun h => by simp [left, init] at h
  rw [hgood]
  refine good_iff_stepsMeet (I := fun sl => LogHolds sl.1 sl.2) (J := fun sl => sl.1.failed = false)
    ?_ ?_ ?_ ?_ logHolds_init hok hinit hrun
  · intro sl e sl' h hs
    obtain ⟨t, ht, rfl⟩ := stepLogged_eq_some.mp hs
    exact h.step hcsv ht
  · intro sl e sl' hs hfailed
    obtain ⟨t, ht, rfl⟩ := stepLogged_eq_some.mp hs
    exact failed_of_step ht hfailed
  · intro sl e sl' h hfailed hgood hs
    obtain ⟨t, ht, rfl⟩ := stepLogged_eq_some.mp hs
    exact flushedIfLeft_step_iff h hfailed hgood ht
  · intro sl e sl' _ _ hbad hs hgood
    obtain ⟨t, ht, rfl⟩ := stepLogged_eq_some.mp hs
    refine hbad fun hin => ?_
    obtain ⟨hstays, hl, -⟩ := step_of_left ht hin sl.2
    have := hgood hstays
    rwa [hl] at this

/-- The channel is found closed after the flush of the only window. -/
theorem lastFlushed_iff_between :
    ∃ s l, run (stepLogged ⟨1, 0, false⟩) (init, .empty)
        [.persistence true, .tick, .recv (onePacket 5), .recv (onePacket 6),
          .flowPersisted 1 false 1000, .empty, .next 0, .sent, .rangeDone, .tick, .recvClosed,
          .close] = some (s, l) ∧
      (l.LastFlushed ↔ StepsMeet (stepLogged ⟨1, 0, false⟩) ClosedBetween (init, .empty)
        [.persistence true, .tick, .recv (onePacket 5), .recv (onePacket 6),
          .flowPersisted 1 false 1000, .empty, .next 0, .sent, .rangeDone, .tick, .recvClosed,
          .close]) :=
  ⟨_, _, rfl, lastFlushed_iff ⟨1, 0, false⟩ rfl
    [.persistence true, .tick, .recv (onePacket 5), .recv (onePacket 6),
      .flowPersisted 1 false 1000, .empty, .next 0, .sent, .rangeDone, .tick, .recvClosed,
      .close] _ _ rfl rfl rfl⟩

/-- **The last window is dropped.**  The channel is closed behind two packets of one window; the
aggregate of the second is never sent. -/
theorem last_window_not_flushed :
    ∃ s l, run (stepLogged ⟨1, 0, false⟩) (init, .empty)
        [.persistence true, .tick, .recv (onePacket 5), .recv (onePacket 6),
          .flowPersisted 1 false 1000, .recvClosed, .close, .wgDone] = some (s, l) ∧
      s.pc = .returned ∧ s.failed = false ∧ l.added.map PacketMeasure.drop = [false] ∧
      l.sent = [] ∧ ¬ l.LastFlushed := by
  refine ⟨_, _, rfl, rfl, rfl, rfl, rfl, fun h => ?_⟩
  obtain ⟨x, hx, -⟩ := h _ (List.mem_singleton_self _) rfl
  exact List.not_mem_nil hx

end Aggregator

end Jens
