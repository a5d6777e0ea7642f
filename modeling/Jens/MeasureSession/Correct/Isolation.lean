import Jens.Datatypes.Correct.Measure
import Jens.MeasureSession.Correct.Flush

/-!
# Flows in one window

What a window sends for a flow is made of the packets of that flow alone, whatever packets of other
flows come between them (`aggregateOf`, `samples_eq`).  Two windows with the same packets of a flow
send the same for it, but for the time and, in one case, the priority: the flow of an aggregate is
an object that the cache of the database may hold as well, and then `Persist` writes the priority of
later packets into it (`window_isolated`).
-/

namespace Jens

open Steps

/-- A call of `add`: the packet with the id of its flow, whether `Persist` has found the object of
the aggregate in the cache, and the capacity. -/
structure Addition where
  message : PacketMeasure
  cached : Bool
  capacity : UInt64
  deriving DecidableEq, Repr

namespace Addition

/-- The key of the packet. -/
def key (x : Addition) : String := x.message.netFlow.measureIdStr

/-- The aggregate after the call. -/
def collect (acc : Option AggregateMeasure) (x : Addition) : AggregateMeasure :=
  match acc with
  | none => (AggregateMeasure.new x.message.netFlow).add x.message x.capacity
  | some a =>
    AggregateMeasure.add
      { a with netFlow := { a.netFlow with
          prio := if x.cached then x.message.netFlow.prio else a.netFlow.prio } }
      x.message x.capacity

end Addition

/-- The calls for the flow `k`. -/
def ofKey (k : String) (xs : List Addition) : List Addition := xs.filter fun x => x.key = k

/-- The aggregate these calls make. -/
def collected (xs : List Addition) : Option AggregateMeasure :=
  xs.foldl (fun acc x => some (x.collect acc)) none

/-- The aggregate of the flow `k`. -/
def aggregateOf (k : String) (xs : List Addition) : Option AggregateMeasure :=
  collected (ofKey k xs)

theorem collected_concat (xs : List Addition) (x : Addition) :
    collected (xs ++ [x]) = some (x.collect (collected xs)) := by
  rw [collected, List.foldl_concat]
  rfl

theorem aggregateOf_concat (k : String) (xs : List Addition) (x : Addition) :
    aggregateOf k (xs ++ [x]) =
      if x.key = k then some (x.collect (aggregateOf k xs)) else aggregateOf k xs := by
  unfold aggregateOf ofKey
  rw [List.filter_append]
  split_ifs with hk
  · rw [List.filter_cons_of_pos (by simpa using hk), List.filter_nil, collected_concat]
  · rw [List.filter_cons_of_neg (by simpa using hk), List.filter_nil, List.append_nil]

theorem measureIdStr_collect (acc : Option AggregateMeasure) (x : Addition) :
    (x.collect acc).netFlow.measureIdStr = acc.elim x.key fun a => a.netFlow.measureIdStr := by
  cases acc with
  | none => exact congrArg DbNetworkFlow.measureIdStr (AggregateMeasure.add_netFlow _ _ _)
  | some a =>
    -- the string has no priority in it
    exact (congrArg DbNetworkFlow.measureIdStr (AggregateMeasure.add_netFlow _ _ _)).trans rfl

/-- The aggregate of a flow has its key. -/
theorem measureIdStr_aggregateOf {k : String} {xs : List Addition} {a : AggregateMeasure}
    (h : aggregateOf k xs = some a) : a.netFlow.measureIdStr = k := by
  induction xs using List.reverseRecOn generalizing a with
  | nil => cases h
  | append_singleton xs x ih =>
    rw [aggregateOf_concat] at h
    split_ifs at h with hk
    · obtain rfl := Option.some.inj h
      rw [measureIdStr_collect]
      cases hprev : aggregateOf k xs with
      | none => exact hk
      | some b => exact ih hprev
    · exact ih h

/-! ### The map of a window -/

/-- The map has the aggregate of each flow. -/
def Window.Collects (w : Window) (xs : List Addition) : Prop :=
  ∀ k, w.mapMeasures.lookup k = aggregateOf k xs

/-- One more packet. -/
theorem Window.Collects.add {w : Window} {xs : List Addition} (h : w.Collects xs) (flowId : ℤ)
    (cached : Bool) (capacity : UInt64) :
    ((w.persisted flowId cached).addMessage capacity).Collects
      (xs ++ [⟨(w.persisted flowId cached).message, cached, capacity⟩]) := by
  intro k
  rw [lookup_addMessage, lookup_persisted, aggregateOf_concat, ← h k]
  have hkey : (w.persisted flowId cached).key = w.key := rfl
  rw [hkey]
  obtain rfl | hk := eq_or_ne k w.key
  · have hx : Addition.key ⟨(w.persisted flowId cached).message, cached, capacity⟩ = w.key := rfl
    rw [if_pos rfl, if_pos hx]
    cases w.mapMeasures.lookup w.key with
    | none => rfl
    | some a => simp [Addition.collect, persisted]
  · have hx : Addition.key ⟨(w.persisted flowId cached).message, cached, capacity⟩ ≠ k := hk.symm
    rw [if_neg hk, if_neg hx]
    simp [hk]

/-! ### The flush -/

/-- The sample of an aggregate, if there is one. -/
def emitted (p : SessionParams) (time : UInt64) (a : AggregateMeasure) : Option DbMeasurePacket :=
  if a.sampleCount = 0 then none
  else (a.toDbMeasurePacket time).filter fun x => ¬ (p.csvOutput ∧ x.capacitykbits = 0)

theorem netFlowString_of_toDbMeasurePacket {a : AggregateMeasure} {time : UInt64}
    {x : DbMeasurePacket} (h : a.toDbMeasurePacket time = some x) :
    x.netFlowString = a.netFlow.measureIdStr := by
  obtain ⟨_, _, h⟩ := Option.bind_eq_some_iff.mp h
  obtain ⟨_, _, h⟩ := Option.bind_eq_some_iff.mp h
  obtain ⟨_, _, rfl⟩ := Option.map_eq_some_iff.mp h
  rfl

/-- The time the samples of a window have. -/
def Window.sampleTime (p : SessionParams) (w : Window) : UInt64 :=
  w.message.timestampMs + p.timeDiff

/-- What the range does with an aggregate. -/
theorem Aggregator.onNext_emitted (p : SessionParams) (w : Window) (a : AggregateMeasure)
    (rest : List AggregateMeasure) :
    Aggregator.onNext p w a rest = .panicked ∨
      Aggregator.onNext p w a rest = .emitting w rest ∧ emitted p (w.sampleTime p) a = none ∨
      ∃ x, Aggregator.onNext p w a rest = .sending w x rest ∧
        emitted p (w.sampleTime p) a = some x ∧ x.netFlowString = a.netFlow.measureIdStr := by
  unfold Aggregator.onNext emitted Window.sampleTime
  split_ifs with hcount
  · exact .inr (.inl ⟨rfl, rfl⟩)
  · cases hx : a.toDbMeasurePacket (w.message.timestampMs + p.timeDiff) with
    | none => exact .inl rfl
    | some x =>
      dsimp only
      split_ifs with hcsv
      · exact .inr (.inl ⟨rfl, by simp [hcsv]⟩)
      · refine .inr (.inr ⟨x, rfl, ?_, netFlowString_of_toDbMeasurePacket hx⟩)
        exact Option.filter_some_pos (decide_eq_true hcsv)

/-- The samples of the flow `k`. -/
def samplesFor (k : String) (xs : List DbMeasurePacket) : List DbMeasurePacket :=
  xs.filter fun x => x.netFlowString = k

/-- The samples to come for the flow `k`. -/
def toCome (p : SessionParams) (w : Window) (k : String) (rest : List AggregateMeasure) :
    List DbMeasurePacket :=
  (rest.filter fun a => a.netFlow.measureIdStr = k).filterMap (emitted p (w.sampleTime p))

theorem toCome_cons (p : SessionParams) (w : Window) (k : String) (a : AggregateMeasure)
    (rest : List AggregateMeasure) :
    toCome p w k (a :: rest) =
      (if a.netFlow.measureIdStr = k then (emitted p (w.sampleTime p) a).toList else [])
        ++ toCome p w k rest := by
  unfold toCome
  split_ifs with hk
  · rw [List.filter_cons_of_pos (by simpa using hk)]
    cases he : emitted p (w.sampleTime p) a <;> simp [he]
  · rw [List.filter_cons_of_neg (by simpa using hk), List.nil_append]

theorem toCome_eraseIdx {p : SessionParams} {w : Window} {k : String}
    {rest : List AggregateMeasure} {i : ℕ} {a : AggregateMeasure} (h : rest[i]? = some a) :
    (toCome p w k rest).Perm (toCome p w k (a :: rest.eraseIdx i)) := by
  obtain ⟨hi, rfl⟩ := List.getElem?_eq_some_iff.mp h
  exact ((List.getElem_cons_eraseIdx_perm hi).symm.filter _).filterMap _

/-- The samples sent and to come for each flow are those of its aggregate. -/
def Sends (p : SessionParams) (w : Window) (adds : List Addition) (sent : List DbMeasurePacket)
    (rest : List AggregateMeasure) : Prop :=
  ∀ k, (samplesFor k sent ++ toCome p w k rest).Perm
    ((aggregateOf k adds).bind (emitted p (w.sampleTime p))).toList

theorem samplesFor_concat (k : String) (sent : List DbMeasurePacket) (x : DbMeasurePacket) :
    samplesFor k (sent ++ [x]) = samplesFor k sent ++ if x.netFlowString = k then [x] else [] := by
  unfold samplesFor
  rw [List.filter_append, List.filter_singleton]
  simp

section Range

variable {p : SessionParams} {w : Window} {adds : List Addition} {sent : List DbMeasurePacket}
variable {rest : List AggregateMeasure} {i : ℕ} {a : AggregateMeasure}

/-- The range comes to an aggregate without a sample. -/
theorem Sends.skip (h : Sends p w adds sent rest) (hi : rest[i]? = some a)
    (hnone : emitted p (w.sampleTime p) a = none) : Sends p w adds sent (rest.eraseIdx i) := by
  intro k
  have hperm := toCome_eraseIdx (p := p) (w := w) (k := k) hi
  rw [toCome_cons, hnone, Option.toList_none, ite_self, List.nil_append] at hperm
  exact (hperm.symm.append_left _).trans (h k)

/-- The range comes to an aggregate with one. -/
theorem Sends.send (h : Sends p w adds sent rest) (hi : rest[i]? = some a) {x : DbMeasurePacket}
    (hsome : emitted p (w.sampleTime p) a = some x)
    (hkey : x.netFlowString = a.netFlow.measureIdStr) :
    Sends p w adds (sent ++ [x]) (rest.eraseIdx i) := by
  intro k
  have hperm := toCome_eraseIdx (p := p) (w := w) (k := k) hi
  rw [toCome_cons, hsome, Option.toList_some, ← hkey] at hperm
  rw [samplesFor_concat, List.append_assoc]
  exact (hperm.symm.append_left _).trans (h k)

end Range

/-- A flush starts with all samples to come. -/
theorem Window.Collects.sends {w : Window} {adds : List Addition} (h : w.Collects adds)
    (p : SessionParams) : Sends p w adds [] (w.mapMeasures.entries.map Sigma.snd) := by
  intro k
  have hkey : ∀ k a, w.mapMeasures.lookup k = some a → a.netFlow.measureIdStr = k := fun k _ ha =>
    measureIdStr_aggregateOf ((h k).symm.trans ha)
  rw [toCome, filter_key_entries hkey, ← h k]
  show ([] ++ ((w.mapMeasures.lookup k).toList).filterMap _).Perm _
  cases w.mapMeasures.lookup k with
  | none => exact .refl _
  | some a => cases he : emitted p (w.sampleTime p) a <;> simp [he]

/-! ### A window -/

namespace Aggregator

/-- The call of `add` of a step. -/
def addition (s : Aggregator) (e : AggregatorEvent) : Option Addition :=
  match s.pc, e with
  | .persisting w _, .flowPersisted flowId cached capacity =>
    some ⟨(w.persisted flowId cached).message, cached, capacity⟩
  | _, _ => none

/-- The sample a step sends. -/
def sentSample (s : Aggregator) (e : AggregatorEvent) : Option DbMeasurePacket :=
  match s.pc, e with
  | .sending _ sample _, .sent => some sample
  | _, _ => none

/-- From a blocking receive through the flush to the wait for the ticker. -/
structure IsWindow (p : SessionParams) (s : Aggregator) (es : List AggregatorEvent)
    (t : Aggregator) : Prop where
  opening : s.pc = .opening
  run : run (step p) s es = some t
  flushed : t.pc = .ticker
  one : .tick ∉ es

/-- The packets added in a window. -/
def additions (p : SessionParams) (s : Aggregator) (es : List AggregatorEvent) : List Addition :=
  outputs (step p) addition s es

/-- The samples sent in a window. -/
def sentSamples (p : SessionParams) (s : Aggregator) (es : List AggregatorEvent) :
    List DbMeasurePacket := outputs (step p) sentSample s es

/-- What has been added and sent where the goroutine stands. -/
def WindowHolds (p : SessionParams) (adds : List Addition) (sent : List DbMeasurePacket)
    (t : Aggregator) : Prop :=
  match t.pc with
  | .opening => adds = [] ∧ sent = []
  | .reading w | .persisting w _ => w.Collects adds ∧ sent = []
  | .emitting w rest => Sends p w adds sent rest
  | .sending w sample rest => Sends p w adds (sent ++ [sample]) rest
  | .ticker => ∃ w, Sends p w adds sent []
  | .closing | .leaving | .returned | .panicked => True
  | .start => False

theorem WindowHolds.step {p : SessionParams} {s t : Aggregator} {e : AggregatorEvent}
    {adds : List Addition} {sent : List DbMeasurePacket} (h : WindowHolds p adds sent s)
    (he : e ≠ .tick) (hs : s.step p e = some t) :
    WindowHolds p (adds ++ (s.addition e).toList) (sent ++ (s.sentSample e).toList) t := by
  unfold WindowHolds at h
  cases moves_of_step hs with
  | tick _ => exact absurd rfl he
  | persistence hpc => simp [hpc] at h
  | noPersistence hpc | openedClosed hpc | readClosed hpc | flowFailed hpc | close hpc
  | wgDone hpc => trivial
  | @opened m hpc =>
    rw [hpc] at h
    obtain ⟨rfl, rfl⟩ := h
    have hnone : (Window.opened m).Collects [] := fun k => rfl
    simpa [WindowHolds, addition, sentSample, hpc] using hnone
  | @read m w hpc =>
    rw [hpc] at h
    have hsame : ({ w with message := m } : Window).Collects adds := h.1
    simpa [WindowHolds, addition, sentSample, hpc] using ⟨hsame, h.2⟩
  | @empty w hpc =>
    rw [hpc] at h
    obtain ⟨hcollects, rfl⟩ := h
    simpa [WindowHolds, addition, sentSample, hpc, emit] using hcollects.sends p
  | @flowPersisted w readMessages cached flowId capacity hpc =>
    rw [hpc] at h
    obtain ⟨hcollects, rfl⟩ := h
    have hadd := hcollects.add flowId cached capacity
    cases readMessages with
    | true => simpa [WindowHolds, addition, sentSample, hpc] using hadd
    | false => simpa [WindowHolds, addition, sentSample, hpc, emit] using hadd.sends p
  | @next w rest i a hpc hi =>
    rw [hpc] at h
    have hstep : s.addition (.next i) = none ∧ s.sentSample (.next i) = none := by
      simp [addition, sentSample, hpc]
    rw [hstep.1, hstep.2]
    simp only [Option.toList_none, List.append_nil]
    rcases onNext_emitted p w a (rest.eraseIdx i) with hn | ⟨hn, hnone⟩ | ⟨x, hn, hsome, hkey⟩
    · simp [WindowHolds, hn]
    · simpa [WindowHolds, hn] using h.skip hi hnone
    · simpa [WindowHolds, hn] using h.send hi hsome hkey
  | @rangeDone w hpc =>
    rw [hpc] at h
    simpa [WindowHolds, addition, sentSample, hpc] using ⟨w, h⟩
  | @sent w sample rest hpc =>
    rw [hpc] at h
    simpa [WindowHolds, addition, sentSample, hpc] using h

/-- **What a window sends for a flow is the sample of the aggregate of its packets.** -/
theorem IsWindow.samples_eq {p : SessionParams} {s t : Aggregator} {es : List AggregatorEvent}
    (h : IsWindow p s es t) :
    ∃ time, ∀ k, samplesFor k (sentSamples p s es) =
      ((aggregateOf k (additions p s es)).bind (emitted p time)).toList := by
  have hholds : .tick ∉ es → WindowHolds p (additions p s es) (sentSamples p s es) t := by
    refine trace_invariant_from (I := fun es t => .tick ∉ es →
      WindowHolds p (additions p s es) (sentSamples p s es) t) ?_ (fun _ => ?_) h.run
    · intro es u e u' hu hholds hstep hone
      rw [List.mem_append, List.mem_singleton, not_or] at hone
      rw [additions, sentSamples, outputs_concat _ hu, outputs_concat _ hu]
      exact (hholds hone.1).step (fun he => hone.2 he.symm) hstep
    · rw [WindowHolds, h.opening]
      exact ⟨rfl, rfl⟩
  have hend := hholds h.one
  rw [WindowHolds, h.flushed] at hend
  obtain ⟨w, hsends⟩ := hend
  refine ⟨w.sampleTime p, fun k => ?_⟩
  have hperm := hsends k
  rw [toCome, List.filter_nil, List.filterMap_nil, List.append_nil] at hperm
  cases he : (aggregateOf k (additions p s es)).bind (emitted p (w.sampleTime p)) with
  | none =>
    rw [he] at hperm
    exact List.perm_nil.mp hperm
  | some x =>
    rw [he] at hperm
    exact List.perm_singleton.mp hperm

end Aggregator

/-! ### Two windows -/

/-- The aggregate with another priority of its flow. -/
def AggregateMeasure.withPrio (a : AggregateMeasure) (prio : UInt8) : AggregateMeasure :=
  { a with netFlow := { a.netFlow with prio := prio } }

theorem AggregateMeasure.add_withPrio (a : AggregateMeasure) (prio : UInt8) (pm : PacketMeasure)
    (capacity : UInt64) :
    (a.withPrio prio).add pm capacity = (a.add pm capacity).withPrio prio := by
  unfold AggregateMeasure.add
  by_cases ht : a.tStart = 0
  · by_cases hd : pm.drop = true <;> simp [withPrio, ht, hd]
  · by_cases hd : pm.drop = true <;> simp [withPrio, ht, hd]

/-- The time and the priority of a sample are all that it has from the time and the priority. -/
theorem emitted_withPrio (p : SessionParams) (time time' : UInt64) (a : AggregateMeasure)
    (prio : UInt8) :
    emitted p time (a.withPrio prio) =
      (emitted p time' a).map fun x => { x with time := time, netFlowPrio := prio } := by
  have hcount : (a.withPrio prio).sampleCount = a.sampleCount := rfl
  have hsample : (a.withPrio prio).toDbMeasurePacket time =
      (a.toDbMeasurePacket time').map fun x => { x with time := time, netFlowPrio := prio } := by
    have hload : (a.withPrio prio).loadKbits = a.loadKbits := rfl
    have hcapacity : (a.withPrio prio).sampleCapacityKbits = a.sampleCapacityKbits := rfl
    rw [AggregateMeasure.toDbMeasurePacket, AggregateMeasure.toDbMeasurePacket, hload, hcapacity]
    cases a.loadKbits with
    | none => rfl
    | some loadKbits =>
      cases hc : a.sampleCapacityKbits loadKbits with
      | none => simp [hc]
      | some capacityKbits =>
        simp only [Option.bind_some, hc, Option.map_map]
        rfl
  rw [emitted, emitted, hcount, hsample]
  split_ifs
  · rfl
  · cases a.toDbMeasurePacket time' with
    | none => rfl
    | some x =>
      rw [Option.map_some, Option.filter_some, Option.filter_some]
      split_ifs <;> rfl

namespace Addition

/-- The arguments of `add`. -/
def call (x : Addition) : PacketMeasure × UInt64 := (x.message, x.capacity)

/-- The same call on the same aggregate, but for its priority. -/
theorem collect_withPrio {x y : Addition} (h : x.call = y.call) (acc : Option AggregateMeasure)
    (prio : UInt8) :
    ∃ prio', y.collect (acc.map fun a => a.withPrio prio) = (x.collect acc).withPrio prio' := by
  obtain ⟨hm, hc⟩ := Prod.mk.inj h
  cases acc with
  | none =>
    refine ⟨x.message.netFlow.prio, ?_⟩
    have hadd := AggregateMeasure.add_withPrio (.new x.message.netFlow) x.message.netFlow.prio
      x.message x.capacity
    rw [Option.map_none, collect, collect, ← hm, ← hc]
    exact hadd
  | some a =>
    refine ⟨if y.cached then y.message.netFlow.prio else prio, ?_⟩
    rw [Option.map_some, collect, collect, ← hm, ← hc, ← AggregateMeasure.add_withPrio]
    rfl

end Addition

/-- The same calls make the same aggregate, but for its priority. -/
theorem collected_withPrio {xs ys : List Addition}
    (h : xs.map Addition.call = ys.map Addition.call) :
    ∃ prio, collected ys = (collected xs).map fun a => a.withPrio prio := by
  induction xs using List.reverseRecOn generalizing ys with
  | nil =>
    obtain rfl := List.map_eq_nil_iff.mp h.symm
    exact ⟨0, rfl⟩
  | append_singleton xs x ih =>
    rw [List.map_append, List.map_singleton] at h
    obtain ⟨ys, rest, rfl, hys, hrest⟩ := List.map_eq_append_iff.mp h.symm
    obtain ⟨y, rfl, hy⟩ := List.map_eq_singleton_iff.mp hrest
    obtain ⟨prio, hprio⟩ := ih hys.symm
    obtain ⟨prio', hprio'⟩ := Addition.collect_withPrio hy.symm (collected xs) prio
    exact ⟨prio', by rw [collected_concat, collected_concat, hprio, hprio']; rfl⟩

/-- The priority of an aggregate all of whose packets have one. -/
theorem prio_of_collected {xs : List Addition} {prio : UInt8}
    (h : ∀ x ∈ xs, x.message.netFlow.prio = prio) {a : AggregateMeasure}
    (ha : collected xs = some a) : a.netFlow.prio = prio := by
  induction xs using List.reverseRecOn generalizing a with
  | nil => cases ha
  | append_singleton xs x ih =>
    have hx : x.message.netFlow.prio = prio := h x (by simp)
    rw [collected_concat] at ha
    obtain rfl := Option.some.inj ha
    cases hprev : collected xs with
    | none =>
      rw [Addition.collect, AggregateMeasure.add_netFlow]
      exact hx
    | some b =>
      have hb := ih (fun y hy => h y (List.mem_append_left _ hy)) hprev
      rw [Addition.collect, AggregateMeasure.add_netFlow, hx]
      show (if x.cached then prio else b.netFlow.prio) = prio
      rw [hb, ite_self]

/-- The endpoints of a flow. -/
def DbNetworkFlow.endpoints (s : DbNetworkFlow) : (String × UInt16) × String × UInt16 :=
  ((s.sourceIp, s.sourcePort), s.destinationIp, s.destinationPort)

/-- The calls for the flow `f`. -/
def ofFlow (f : DbNetworkFlow) (xs : List Addition) : List Addition :=
  xs.filter fun x => x.message.netFlow.endpoints = f.endpoints

/-- The key of the map tells the flows of dotted addresses apart. -/
theorem ofKey_measureIdStr {f : DbNetworkFlow} (hf : f.Dotted) {xs : List Addition}
    (hxs : ∀ x ∈ xs, x.message.netFlow.Dotted) : ofKey f.measureIdStr xs = ofFlow f xs := by
  refine List.filter_congr fun x hx => ?_
  rw [decide_eq_decide]
  constructor
  · intro hkey
    obtain ⟨⟨hsrc, hsport⟩, hdst, hdport⟩ := DbNetworkFlow.measureIdStr_inj (hxs x hx) hf hkey
    rw [DbNetworkFlow.endpoints, DbNetworkFlow.endpoints, hsrc, hsport, hdst, hdport]
  · intro hends
    simp only [DbNetworkFlow.endpoints, Prod.mk.injEq] at hends
    obtain ⟨⟨hsrc, hsport⟩, hdst, hdport⟩ := hends
    rw [Addition.key, DbNetworkFlow.measureIdStr, DbNetworkFlow.measureIdStr, hsrc, hsport, hdst,
      hdport]

namespace DbMeasurePacket

/-- The sample but for its time. -/
def withoutTime (x : DbMeasurePacket) : DbMeasurePacket := { x with time := 0 }

/-- The sample but for its time and its priority. -/
def withoutTimeAndPrio (x : DbMeasurePacket) : DbMeasurePacket :=
  { x with time := 0, netFlowPrio := 0 }

end DbMeasurePacket

/-- What tells two calls apart. -/
theorem Addition.eq_of_call_of_cached {xs ys : List Addition}
    (hcall : xs.map Addition.call = ys.map Addition.call)
    (hcached : xs.map Addition.cached = ys.map Addition.cached) : xs = ys := by
  induction xs generalizing ys with
  | nil => exact (List.map_eq_nil_iff.mp hcall.symm).symm
  | cons x xs ih =>
    obtain ⟨y, ys, rfl, hy, hys⟩ := List.map_eq_cons_iff.mp hcall.symm
    rw [List.map_cons, List.map_cons, List.cons.injEq] at hcached
    rw [ih hys.symm hcached.2]
    obtain ⟨hm, hc⟩ := Prod.mk.inj hy
    cases x
    cases y
    simp_all

/-- The sample of an aggregate at another time. -/
theorem map_withoutTime_emitted (p : SessionParams) (time₁ time₂ : UInt64)
    (a : Option AggregateMeasure) :
    (a.bind (emitted p time₁)).toList.map DbMeasurePacket.withoutTime =
      (a.bind (emitted p time₂)).toList.map DbMeasurePacket.withoutTime := by
  cases a with
  | none => rfl
  | some a =>
    have hsame (time : UInt64) : emitted p time a =
        (emitted p 0 a).map fun x => { x with time := time, netFlowPrio := a.netFlow.prio } :=
      emitted_withPrio p time 0 a a.netFlow.prio
    rw [Option.bind_some, Option.bind_some, hsame time₁, hsame time₂]
    cases emitted p 0 a <;> rfl

namespace Aggregator

section TwoWindows

variable {p : SessionParams} {f : DbNetworkFlow} {s₁ t₁ s₂ t₂ : Aggregator}
variable {es₁ es₂ : List AggregatorEvent}

/-- **Flows do not influence each other in a window.**  Two windows with the same packets of a flow,
and the same capacities for them, send the same samples for it, but for the time and the priority.
The priority is the same, too, if `Persist` finds the object of the aggregate in the cache for the
same packets, or if all these packets have one priority. -/
theorem window_isolated (hf : f.Dotted) (h₁ : IsWindow p s₁ es₁ t₁) (h₂ : IsWindow p s₂ es₂ t₂)
    (hd₁ : ∀ x ∈ additions p s₁ es₁, x.message.netFlow.Dotted)
    (hd₂ : ∀ x ∈ additions p s₂ es₂, x.message.netFlow.Dotted)
    (hsame : (ofFlow f (additions p s₁ es₁)).map Addition.call =
      (ofFlow f (additions p s₂ es₂)).map Addition.call) :
    (samplesFor f.measureIdStr (sentSamples p s₁ es₁)).map DbMeasurePacket.withoutTimeAndPrio =
        (samplesFor f.measureIdStr (sentSamples p s₂ es₂)).map
          DbMeasurePacket.withoutTimeAndPrio ∧
      ((ofFlow f (additions p s₁ es₁)).map Addition.cached =
          (ofFlow f (additions p s₂ es₂)).map Addition.cached ∨
        (∃ prio, ∀ x ∈ ofFlow f (additions p s₁ es₁), x.message.netFlow.prio = prio) →
        (samplesFor f.measureIdStr (sentSamples p s₁ es₁)).map DbMeasurePacket.withoutTime =
          (samplesFor f.measureIdStr (sentSamples p s₂ es₂)).map
            DbMeasurePacket.withoutTime) := by
  obtain ⟨time₁, hsamples₁⟩ := h₁.samples_eq
  obtain ⟨time₂, hsamples₂⟩ := h₂.samples_eq
  rw [hsamples₁, hsamples₂, aggregateOf, aggregateOf, ofKey_measureIdStr hf hd₁,
    ofKey_measureIdStr hf hd₂]
  generalize ofFlow f (additions p s₁ es₁) = xs at *
  generalize ofFlow f (additions p s₂ es₂) = ys at *
  obtain ⟨prio, hprio⟩ := collected_withPrio hsame
  constructor
  · rw [hprio]
    cases collected xs with
    | none => rfl
    | some a =>
      rw [Option.map_some, Option.bind_some, Option.bind_some, emitted_withPrio p time₂ time₁]
      cases emitted p time₁ a <;> rfl
  · intro hcond
    have hcollected : collected ys = collected xs := by
      rcases hcond with hcached | ⟨q, hq⟩
      · rw [Addition.eq_of_call_of_cached hsame hcached]
      · cases hxs : collected xs with
        | none => rw [hprio, hxs, Option.map_none]
        | some a =>
          -- the one priority of the packets is that of both aggregates
          have hys : ∀ y ∈ ys, y.message.netFlow.prio = q := by
            intro y hy
            have hmem : y.call ∈ xs.map Addition.call := hsame ▸ List.mem_map_of_mem hy
            obtain ⟨x, hx, hcall⟩ := List.mem_map.mp hmem
            rw [← (Prod.mk.inj hcall).1]
            exact hq x hx
          rw [hxs, Option.map_some] at hprio
          have hprio' : prio = a.netFlow.prio :=
            (prio_of_collected hys hprio).trans (prio_of_collected hq hxs).symm
          rw [hprio, hprio']
          rfl
    rw [hcollected]
    exact map_withoutTime_emitted p time₁ time₂ (collected xs)

end TwoWindows

/-- A packet of this priority, all of one flow. -/
def packetOfPrio (timestampMs : UInt64) (prio : UInt8) : PacketMeasure :=
  { onePacket timestampMs with netFlow := { (onePacket timestampMs).netFlow with prio := prio } }

/-- A packet of another flow. -/
def otherPacket (timestampMs : UInt64) : PacketMeasure :=
  { onePacket timestampMs with netFlow := ⟨0, 1, "10.0.0.3", 80, "10.0.0.2", 4000, 0⟩ }

/-- The goroutine at the blocking receive. -/
def atOpening : Aggregator := ⟨.opening, [], [], false⟩

/-- A window with a packet of another flow behind the one of the flow. -/
def windowBefore : List AggregatorEvent :=
  [.recv (onePacket 5), .recv (packetOfPrio 6 0), .flowPersisted 1 false 1000,
    .recv (otherPacket 7), .flowPersisted 2 false 500, .empty, .next 0, .sent, .next 0, .sent,
    .rangeDone]

/-- A window with such a packet in front of it. -/
def windowBehind : List AggregatorEvent :=
  [.recv (otherPacket 5), .recv (otherPacket 5), .flowPersisted 2 false 700,
    .recv (packetOfPrio 6 0), .flowPersisted 1 false 1000, .empty, .next 1, .sent, .next 0, .sent,
    .rangeDone]

/-- The packet of another flow makes no difference. -/
theorem window_isolated_other :
    ∃ t₁ t₂, IsWindow ⟨1, 0, false⟩ atOpening windowBefore t₁ ∧
      IsWindow ⟨1, 0, false⟩ atOpening windowBehind t₂ ∧
      (samplesFor (onePacket 0).netFlow.measureIdStr
          (sentSamples ⟨1, 0, false⟩ atOpening windowBefore)).map DbMeasurePacket.withoutTime =
        (samplesFor (onePacket 0).netFlow.measureIdStr
          (sentSamples ⟨1, 0, false⟩ atOpening windowBehind)).map DbMeasurePacket.withoutTime := by
  have hdotted : IsDotted "10.0.0.1" ∧ IsDotted "10.0.0.2" ∧ IsDotted "10.0.0.3" :=
    ⟨⟨10, 0, 0, 1, by decide +kernel⟩, ⟨10, 0, 0, 2, by decide +kernel⟩,
      ⟨10, 0, 0, 3, by decide +kernel⟩⟩
  have hflow : (onePacket 0).netFlow.Dotted := ⟨hdotted.1, hdotted.2.1⟩
  obtain ⟨t₁, h₁⟩ : ∃ t, IsWindow ⟨1, 0, false⟩ atOpening windowBefore t :=
    ⟨_, rfl, rfl, rfl, by decide⟩
  obtain ⟨t₂, h₂⟩ : ∃ t, IsWindow ⟨1, 0, false⟩ atOpening windowBehind t :=
    ⟨_, rfl, rfl, rfl, by decide⟩
  have hadds₁ : (additions ⟨1, 0, false⟩ atOpening windowBefore).map
      (fun x => (x.message.netFlow.sourceIp, x.message.netFlow.destinationIp)) =
        [("10.0.0.1", "10.0.0.2"), ("10.0.0.3", "10.0.0.2")] := rfl
  have hadds₂ : (additions ⟨1, 0, false⟩ atOpening windowBehind).map
      (fun x => (x.message.netFlow.sourceIp, x.message.netFlow.destinationIp)) =
        [("10.0.0.3", "10.0.0.2"), ("10.0.0.1", "10.0.0.2")] := rfl
  have hdotted_of {xs : List Addition}
      (h : ∀ q ∈ xs.map fun x => (x.message.netFlow.sourceIp, x.message.netFlow.destinationIp),
        IsDotted q.1 ∧ IsDotted q.2) : ∀ x ∈ xs, x.message.netFlow.Dotted := fun x hx =>
    ⟨(h _ (List.mem_map_of_mem hx)).1, (h _ (List.mem_map_of_mem hx)).2⟩
  exact ⟨t₁, t₂, h₁, h₂, (window_isolated hflow h₁ h₂
    (hdotted_of (by rw [hadds₁]; simp [hdotted])) (hdotted_of (by rw [hadds₂]; simp [hdotted]))
    (by decide +kernel)).2 (.inl (by decide +kernel))⟩

/-- A window with two packets of one flow. -/
def windowOfTwo (cached : Bool) : List AggregatorEvent :=
  [.recv (onePacket 5), .recv (packetOfPrio 6 0), .flowPersisted 1 false 1000,
    .recv (packetOfPrio 7 1), .flowPersisted 1 cached 1000, .empty, .next 0, .sent, .rangeDone]

section WindowOfTwo

variable (received : List Receipt) (added : List (String × PacketMeasure)) (failed cached : Bool)

theorem isWindow_windowOfTwo :
    ∃ t, IsWindow ⟨1, 0, false⟩ ⟨.opening, received, added, failed⟩ (windowOfTwo cached) t := by
  cases cached <;> exact ⟨_, rfl, rfl, rfl, by decide⟩

theorem additions_windowOfTwo :
    additions ⟨1, 0, false⟩ ⟨.opening, received, added, failed⟩ (windowOfTwo cached) =
      [⟨{ packetOfPrio 6 0 with netFlow := { (packetOfPrio 6 0).netFlow with flowId := 1 } }, false,
          1000⟩,
        ⟨{ packetOfPrio 7 1 with netFlow := { (packetOfPrio 7 1).netFlow with flowId := 1 } },
          cached, 1000⟩] := by
  cases cached <;> rfl

/-- The sample has the priority of the second packet if its flow is the object in the cache. -/
theorem prio_windowOfTwo :
    (samplesFor (onePacket 0).netFlow.measureIdStr (sentSamples ⟨1, 0, false⟩
      ⟨.opening, received, added, failed⟩ (windowOfTwo cached))).map DbMeasurePacket.netFlowPrio =
        [if cached then 1 else 0] := by
  cases cached <;> rfl

end WindowOfTwo

/-- **Another priority for the same packets.**  In the first window of a run the flow is new: its
object goes into the cache, and takes the priority of the second packet.  In the window after it the
cache has that object still, and the new one keeps the priority of the first packet. -/
theorem same_packets_other_prio :
    ∃ s₁ t₁ s₂ t₂, run (step ⟨1, 0, false⟩) init [.persistence true, .tick] = some s₁ ∧
      IsWindow ⟨1, 0, false⟩ s₁ (windowOfTwo true) t₁ ∧ t₁.step ⟨1, 0, false⟩ .tick = some s₂ ∧
      IsWindow ⟨1, 0, false⟩ s₂ (windowOfTwo false) t₂ ∧
      (additions ⟨1, 0, false⟩ s₁ (windowOfTwo true)).map Addition.call =
        (additions ⟨1, 0, false⟩ s₂ (windowOfTwo false)).map Addition.call ∧
      (samplesFor (onePacket 0).netFlow.measureIdStr
          (sentSamples ⟨1, 0, false⟩ s₁ (windowOfTwo true))).map DbMeasurePacket.withoutTime ≠
        (samplesFor (onePacket 0).netFlow.measureIdStr
          (sentSamples ⟨1, 0, false⟩ s₂ (windowOfTwo false))).map DbMeasurePacket.withoutTime := by
  obtain ⟨⟨pc, received, added, failed⟩, h₁⟩ := isWindow_windowOfTwo [] [] false true
  obtain rfl : pc = .ticker := h₁.flushed
  obtain ⟨t₂, h₂⟩ := isWindow_windowOfTwo received added failed false
  refine ⟨atOpening, _, ⟨.opening, received, added, failed⟩, t₂, rfl, h₁, rfl, h₂, ?_,
    fun hsame => ?_⟩
  · rw [atOpening, additions_windowOfTwo, additions_windowOfTwo]
    rfl
  · have hprio := congrArg (List.map DbMeasurePacket.netFlowPrio) hsame
    rw [List.map_map, List.map_map] at hprio
    have hone := (prio_windowOfTwo [] [] false true).symm.trans
      (hprio.trans (prio_windowOfTwo received added failed false))
    exact absurd hone (by decide)

end Aggregator

end Jens
