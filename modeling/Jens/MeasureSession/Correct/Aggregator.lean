import Jens.MeasureSession.Aggregator
import Jens.MeasureSession.Correct.AggregateMeasure
import Jens.Lib.Steps

/-!
# Which packets the aggregator counts

`Conserved` says that every packet received so far has been passed to `add` exactly once, in order
and under the key of its own flow, but for the one in hand.  What holds of every run is less: the
packets that open a window are never added, and all the others are (`accounted_of_run`).  So the
aggregator conserves packets exactly as long as it receives none (`conserved_iff`).

`Moves` is the step relation of the goroutine, one constructor a transition; `lookup_addMessage` is
what one call of `add` does to the map of the window.
-/

namespace Jens

open Steps

/-! ### The map of a window -/

namespace Window

/-- `addMessage` changes the aggregate of the packet's own flow, and no other. -/
theorem lookup_addMessage (w : Window) (capacity : UInt64) (k : String) :
    (w.addMessage capacity).mapMeasures.lookup k =
      if k = w.key then
        some (((w.mapMeasures.lookup k).getD (.new w.message.netFlow)).add w.message capacity)
      else w.mapMeasures.lookup k := by
  unfold addMessage
  split_ifs with hk
  · rw [hk]
    exact AList.lookup_insert _
  · exact AList.lookup_insert_ne hk

end Window

namespace Aggregator

/-! ### The step relation -/

/-- The steps of the goroutine. -/
inductive Moves (p : SessionParams) (s : Aggregator) : AggregatorEvent → Aggregator → Prop
  | persistence : s.pc = .start → Moves p s (.persistence true) { s with pc := .ticker }
  | noPersistence : s.pc = .start →
      Moves p s (.persistence false) { s with pc := .closing, failed := true }
  | tick : s.pc = .ticker → Moves p s .tick { s with pc := .opening }
  | opened {m : PacketMeasure} : s.pc = .opening →
      Moves p s (.recv m)
        { s with pc := .reading (.opened m), received := s.received ++ [⟨m, true⟩] }
  | openedClosed : s.pc = .opening → Moves p s .recvClosed { s with pc := .closing }
  | read {m : PacketMeasure} {w : Window} : s.pc = .reading w →
      Moves p s (.recv m)
        { s with pc := .persisting { w with message := m } (!w.ends m),
                 received := s.received ++ [⟨m, false⟩] }
  | readClosed {w : Window} : s.pc = .reading w → Moves p s .recvClosed { s with pc := .closing }
  | empty {w : Window} : s.pc = .reading w → Moves p s .empty { s with pc := emit w }
  | flowPersisted {w : Window} {readMessages cached : Bool} {flowId : ℤ} {capacity : UInt64} :
      s.pc = .persisting w readMessages →
      Moves p s (.flowPersisted flowId cached capacity)
        { s with pc :=
                   if readMessages then .reading ((w.persisted flowId cached).addMessage capacity)
                   else emit ((w.persisted flowId cached).addMessage capacity),
                 added := s.added ++ [(w.key, w.message)] }
  | flowFailed {w : Window} {readMessages : Bool} : s.pc = .persisting w readMessages →
      Moves p s .flowFailed { s with pc := .closing, failed := true }
  | next {w : Window} {rest : List AggregateMeasure} {i : ℕ} {measure : AggregateMeasure} :
      s.pc = .emitting w rest → rest[i]? = some measure →
      Moves p s (.next i) { s with pc := onNext p w measure (rest.eraseIdx i) }
  | rangeDone {w : Window} : s.pc = .emitting w [] → Moves p s .rangeDone { s with pc := .ticker }
  | sent {w : Window} {sample : DbMeasurePacket} {rest : List AggregateMeasure} :
      s.pc = .sending w sample rest → Moves p s .sent { s with pc := .emitting w rest }
  | close : s.pc = .closing → Moves p s .close { s with pc := .leaving }
  | wgDone : s.pc = .leaving → Moves p s .wgDone { s with pc := .returned }

theorem moves_of_step {p : SessionParams} {s t : Aggregator} {e : AggregatorEvent}
    (h : s.step p e = some t) : Moves p s e t := by
  unfold step at h
  split at h <;> rename_i hpc
  case h_1 ok =>
    obtain rfl := Option.some.inj h
    cases ok with
    | false => exact .noPersistence hpc
    | true => exact .persistence hpc
  case h_10 =>
    obtain ⟨measure, hm, rfl⟩ := Option.map_eq_some_iff.mp h
    exact .next hpc hm
  case h_15 => cases h
  all_goals obtain rfl := Option.some.inj h
  case h_2 => exact .tick hpc
  case h_3 => exact .opened hpc
  case h_4 => exact .openedClosed hpc
  case h_5 => exact .read hpc
  case h_6 => exact .readClosed hpc
  case h_7 => exact .empty hpc
  case h_8 => exact .flowPersisted hpc
  case h_9 => exact .flowFailed hpc
  case h_11 => exact .rangeDone hpc
  case h_12 => exact .sent hpc
  case h_13 => exact .close hpc
  case h_14 => exact .wgDone hpc

/-! ### The accounting -/

/-- The packet received but not yet added. -/
def inHand (s : Aggregator) : Option PacketMeasure :=
  match s.pc with
  | .persisting w _ => some w.message
  | _ => none

/-- The packets received inside a window, that is by another receive than the one that opens it. -/
def receivedInside (s : Aggregator) : List PacketMeasure :=
  (s.received.filter fun r => !r.opens).map Receipt.message

/-- The packets received inside a window are added once each, in order, under their own key. -/
structure Accounted (s : Aggregator) : Prop where
  inside : s.receivedInside = s.added.map Prod.snd ++ s.inHand.toList
  keys : ∀ e ∈ s.added, e.1 = e.2.netFlow.measureIdStr

/-- **Conservation.**  Every packet received is added once, in order, under its own key. -/
structure Conserved (s : Aggregator) : Prop where
  received : s.received.map Receipt.message = s.added.map Prod.snd ++ s.inHand.toList
  keys : ∀ e ∈ s.added, e.1 = e.2.netFlow.measureIdStr

/-- An aggregate of the range is skipped, panics or becomes a sample to send. -/
theorem onNext_cases (p : SessionParams) (w : Window) (measure : AggregateMeasure)
    (rest : List AggregateMeasure) :
    onNext p w measure rest = .emitting w rest ∨ onNext p w measure rest = .panicked ∨
      ∃ sample, onNext p w measure rest = .sending w sample rest := by
  unfold onNext
  split_ifs
  · exact .inl rfl
  · split
    · exact .inr (.inl rfl)
    · rename_i sample _
      split_ifs
      · exact .inl rfl
      · exact .inr (.inr ⟨sample, rfl⟩)

/-- A step that receives nothing and adds nothing, between places where no packet is in hand. -/
theorem Accounted.congr {s t : Aggregator} (h : Accounted s) (hr : t.received = s.received)
    (ha : t.added = s.added) (hs : s.inHand = none) (ht : t.inHand = none) : Accounted t := by
  refine ⟨?_, ha ▸ h.keys⟩
  have := h.inside
  rw [hs] at this
  rw [receivedInside, hr, ha, ht]
  exact this

theorem Accounted.step {p : SessionParams} {s t : Aggregator} {e : AggregatorEvent}
    (h : Accounted s) (he : e ≠ .flowFailed) (hs : s.step p e = some t) : Accounted t := by
  have hin := h.inside
  unfold receivedInside inHand at hin
  cases moves_of_step hs with
  | flowFailed _ => exact absurd rfl he
  | @opened m hpc =>
    -- the filter drops the packet that opens the window
    refine ⟨?_, h.keys⟩
    simpa [receivedInside, inHand, hpc] using hin
  | @read m w hpc =>
    refine ⟨?_, h.keys⟩
    simpa [receivedInside, inHand, hpc] using hin
  | @flowPersisted w readMessages cached flowId capacity hpc =>
    refine ⟨?_, ?_⟩
    · cases readMessages <;> simpa [receivedInside, inHand, emit, hpc] using hin
    · intro e' he'
      -- the window has looked the key up in the packet in hand
      rcases List.mem_append.mp he' with h' | h'
      · exact h.keys e' h'
      · obtain rfl := List.mem_singleton.mp h'
        rfl
  | @next w rest i measure hpc _ =>
    refine h.congr rfl rfl (by simp [inHand, hpc]) ?_
    rcases onNext_cases p w measure (rest.eraseIdx i) with hn | hn | ⟨_, hn⟩ <;> simp [inHand, hn]
  | persistence hpc | noPersistence hpc | tick hpc | openedClosed hpc | readClosed hpc | empty hpc
  | rangeDone hpc | sent hpc | close hpc | wgDone hpc =>
    exact h.congr rfl rfl (by simp [inHand, hpc]) rfl

/-- Whatever the events, as long as no `Persist` fails: every packet received inside a window is
added exactly once and in order, under the key of its own flow. -/
theorem accounted_of_run {p : SessionParams} {es : List AggregatorEvent} {s : Aggregator}
    (hrun : run (step p) init es = some s) (hok : .flowFailed ∉ es) : Accounted s := by
  refine run_trace_invariant (I := fun es s => .flowFailed ∉ es → Accounted s) ?_ ?_ hrun hok
  · intro es s e s' hi hs hok
    rw [List.mem_append, List.mem_singleton, not_or] at hok
    exact (hi hok.1).step (fun h => hok.2 h.symm) hs
  · intro _
    exact ⟨rfl, fun e he => absurd he List.not_mem_nil⟩

/-! ### The packets that open a window -/

/-- The goroutine is between two receives of one window. -/
def inWindow (s : Aggregator) : Bool :=
  match s.pc with
  | .reading _ | .persisting _ _ | .emitting _ _ | .sending _ _ _ => true
  | _ => false

/-- Nothing has been received, or some packet opened a window. -/
def Opened (s : Aggregator) : Prop :=
  s.received = [] ∧ s.inWindow = false ∨ ∃ r ∈ s.received, r.opens = true

theorem Opened.step {p : SessionParams} {s t : Aggregator} {e : AggregatorEvent} (h : Opened s)
    (hs : s.step p e = some t) : Opened t := by
  rcases h with ⟨hr, hw⟩ | ⟨r, hr, ho⟩
  · unfold inWindow at hw
    cases moves_of_step hs with
    | @opened m hpc => exact .inr ⟨⟨m, true⟩, by simp, rfl⟩
    | read hpc | readClosed hpc | empty hpc | flowPersisted hpc | flowFailed hpc | next hpc _
    | rangeDone hpc | sent hpc => simp [hpc] at hw
    | persistence | noPersistence | tick | openedClosed | close | wgDone => exact .inl ⟨hr, rfl⟩
  · refine .inr ⟨r, ?_, ho⟩
    cases moves_of_step hs with
    | opened _ | read _ => exact List.mem_append_left _ hr
    | _ => exact hr

theorem opened_of_run {p : SessionParams} {es : List AggregatorEvent} {s : Aggregator}
    (hrun : run (step p) init es = some s) : Opened s := by
  refine run_invariant (I := Opened) ?_ (.inl ⟨rfl, rfl⟩) hrun
  intro s e s' hi hs
  exact hi.step hs

theorem received_eq_nil_iff {p : SessionParams} {es : List AggregatorEvent} {s : Aggregator}
    (hrun : run (step p) init es = some s) : s.received = [] ↔ ∀ m, .recv m ∉ es := by
  refine run_trace_invariant
    (I := fun es (s : Aggregator) => s.received = [] ↔ ∀ m, AggregatorEvent.recv m ∉ es)
    ?_ (by simp [init]) hrun
  intro es s e s' hi hs
  simp only [List.mem_append, List.mem_singleton, not_or, forall_and]
  cases moves_of_step hs <;> simp [hi]

/-- **Conservation holds only as long as nothing is received.**  In a run without a failed
`Persist`, every packet received has been added exactly once and under its own key if and only if no
packet has been received: the packet that opens the first window is never added. -/
theorem conserved_iff (p : SessionParams) (es : List AggregatorEvent) (s : Aggregator)
    (hrun : run (step p) init es = some s) (hok : .flowFailed ∉ es) :
    Conserved s ↔ ∀ m, .recv m ∉ es := by
  have hacc := accounted_of_run hrun hok
  rw [← received_eq_nil_iff hrun]
  constructor
  · intro hcons
    by_contra hne
    obtain ⟨r, hr, ho⟩ : ∃ r ∈ s.received, r.opens = true :=
      (opened_of_run hrun).resolve_left fun h => hne h.1
    -- as many packets are received inside a window as altogether, though `r` opens one
    have hlen : (s.received.filter fun r => !r.opens).length = s.received.length := by
      have h1 := congrArg List.length hacc.inside
      have h2 := congrArg List.length hcons.received
      rw [receivedInside, List.length_map] at h1
      rw [List.length_map] at h2
      rw [h1, h2]
    have hall := List.length_filter_eq_length_iff.mp hlen r hr
    simp [ho] at hall
  · intro hnil
    refine ⟨?_, hacc.keys⟩
    rw [← hacc.inside, receivedInside, hnil]
    rfl

/-- A forwarded packet of 1000 bytes. -/
def onePacket (timestampMs : UInt64) : PacketMeasure := AggregateMeasure.packetOf timestampMs 1000

/-- A window of two packets, of which the second is added. -/
theorem conserved_iff_two_packets :
    ∃ s, run (step ⟨1, 0, false⟩) init
        [.persistence true, .tick, .recv (onePacket 5), .recv (onePacket 6),
          .flowPersisted 1 false 1000, .empty] = some s ∧
      (Conserved s ↔ ∀ m, .recv m ∉ ([.persistence true, .tick, .recv (onePacket 5),
        .recv (onePacket 6), .flowPersisted 1 false 1000, .empty] : List AggregatorEvent)) :=
  ⟨_, rfl, conserved_iff ⟨1, 0, false⟩
    [.persistence true, .tick, .recv (onePacket 5), .recv (onePacket 6),
      .flowPersisted 1 false 1000, .empty] _ rfl (by decide)⟩

/-- **The packet that opens a window is lost.**  One packet is received and the channel closed:
`add` is never called. -/
theorem opener_not_added :
    ∃ s, run (step ⟨1, 0, false⟩) init
        [.persistence true, .tick, .recv (onePacket 5), .recvClosed, .close, .wgDone] = some s ∧
      s.received.map Receipt.message = [onePacket 5] ∧ s.added = [] ∧ ¬ Conserved s :=
  ⟨_, rfl, rfl, rfl, fun h => by simpa [inHand, init] using h.received⟩

end Aggregator

end Jens
