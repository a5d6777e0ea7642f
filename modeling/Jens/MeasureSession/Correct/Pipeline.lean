import Jens.MeasureSession.Correct.Session

/-!
# From the records to the persistor, in order

Between two goroutines of a session a value is at the send, in the channel or received.  For
`chan_to_aggregation` these three account for every packet that `poll` has decoded, in the order of
the records (`packets_in_order`), and `aggregateMeasures` has them all once it has left without an
error (`aggregated_all`).

`chan_to_persistence` has two senders, so the order is that in which the sends complete: what has
been sent is what the persistor was handed, followed by what the channel holds
(`samples_in_order`).  The queue samples among them are those of the records, in order, but for at
most one at the end: the sample in hand when `poll` sees `should_end` (`queues_in_order`).
-/

namespace Jens

open Steps

/-- The packet sample. -/
def Sample.asPacket : Sample → Option DbMeasurePacket
  | .packet p => some p
  | _ => none

/-- The queue sample. -/
def Sample.asQueue : Sample → Option DbMeasureQueue
  | .queue q => some q
  | _ => none

/-! ### What `poll` makes of the records -/

/-- The packet at the send. -/
def PollPc.packet : PollPc → Option PacketMeasure
  | .sendingPacket m => some m
  | _ => none

/-- The queue sample on its way to the send. -/
def PollPc.queue : PollPc → Option DbMeasureQueue
  | .checking q | .sendingQueue q => some q
  | _ => none

/-- The packet decoded from a record. -/
def PollEvent.packet (p : SessionParams) : PollEvent → Option PacketMeasure
  | .record r => (PollPc.onRecord p r).packet
  | _ => none

/-- The queue sample made of a record. -/
def PollEvent.queue (p : SessionParams) : PollEvent → Option DbMeasureQueue
  | .record r => (PollPc.onRecord p r).queue
  | _ => none

theorem PollPc.packet_of_step {p : SessionParams} {shouldEnd : Bool} {pc pc' : PollPc}
    {e : PollEvent} (h : pc.step p shouldEnd e = some pc') (he : e ≠ .sent) :
    pc'.packet.toList = pc.packet.toList ++ (e.packet p).toList := by
  unfold step at h
  split at h
  case h_11 => cases h
  case h_7 | h_8 => exact absurd rfl he
  all_goals obtain rfl := Option.some.inj h
  case h_2 | h_6 => split_ifs <;> rfl
  all_goals rfl

/-- A queue sample on its way stays on it, unless `poll` sees `should_end`. -/
theorem PollPc.queue_of_step {p : SessionParams} {shouldEnd : Bool} {pc pc' : PollPc}
    {e : PollEvent} (h : pc.step p shouldEnd e = some pc') (he : e ≠ .sent) :
    pc'.queue.toList = pc.queue.toList ++ (e.queue p).toList ∨
      pc' = .leaving ∧ e.queue p = none ∧ ∃ q, pc.queue = some q := by
  unfold step at h
  split at h
  case h_11 => cases h
  case h_7 | h_8 => exact absurd rfl he
  all_goals obtain rfl := Option.some.inj h
  case h_6 q =>
    split_ifs
    · exact .inr ⟨rfl, rfl, q, rfl⟩
    · exact .inl rfl
  case h_2 => left; split_ifs <;> rfl
  all_goals exact .inl rfl

/-- Once `poll` leaves, it reads no further record. -/
def PollPc.ended : PollPc → Bool
  | .leaving | .closing | .returned => true
  | _ => false

theorem PollPc.ended_of_step {p : SessionParams} {shouldEnd : Bool} {pc pc' : PollPc}
    {e : PollEvent} (h : pc.step p shouldEnd e = some pc') (hpc : pc.ended = true) :
    pc'.ended = true ∧ pc'.queue = none ∧ e.queue p = none := by
  unfold step at h
  split at h
  case h_11 => cases h
  case h_9 | h_10 => obtain rfl := Option.some.inj h; exact ⟨rfl, rfl, rfl⟩
  all_goals cases hpc

/-- The packets received grow by the one the event brings. -/
theorem Aggregator.received_of_step {p : SessionParams} {s t : Aggregator} {e : AggregatorEvent}
    (h : s.step p e = some t) :
    t.received.map Receipt.message =
      s.received.map Receipt.message ++ (match e with | .recv m => [m] | _ => []) := by
  cases moves_of_step h <;> simp

namespace SessionAction

/-- The packet of the record the action reads. -/
def packet (p : SessionParams) : SessionAction → Option PacketMeasure
  | .poll e => e.packet p
  | _ => none

/-- The queue sample of the record the action reads. -/
def queue (p : SessionParams) : SessionAction → Option DbMeasureQueue
  | .poll e => e.queue p
  | _ => none

end SessionAction

namespace MeasureSession

variable {capA capP : ℕ} {capacity : UInt64}

/-! ### A send that meets a receive -/

theorem step_handPacket {p : SessionParams} {s t : MeasureSession capA capP}
    (h : s.step p .handPacket = some t) : s.toAggregation.buf = [] := by
  obtain ⟨-, h⟩ := Option.ite_none_left_eq_some.mp h
  simp only [stepHandPacket] at h
  split at h
  · exact (Option.ite_none_right_eq_some.mp h).1.2
  · cases h

theorem step_handQueue {p : SessionParams} {s t : MeasureSession capA capP}
    (h : s.step p .handQueue = some t) : s.toPersistence.buf = [] := by
  obtain ⟨-, h⟩ := Option.ite_none_left_eq_some.mp h
  simp only [stepHandQueue] at h
  split at h
  · exact (Option.ite_none_right_eq_some.mp h).1.2
  · cases h

theorem step_handSample {p : SessionParams} {s t : MeasureSession capA capP}
    (h : s.step p .handSample = some t) : s.toPersistence.buf = [] := by
  obtain ⟨-, h⟩ := Option.ite_none_left_eq_some.mp h
  simp only [stepHandSample] at h
  split at h
  · exact (Option.ite_none_right_eq_some.mp h).1.2
  · cases h

/-! ### The packets -/

/-- Every packet decoded is received, in the channel or at the send, in this order. -/
def PacketsInOrder (p : SessionParams) (acts : List SessionAction) (s : MeasureSession capA capP) :
    Prop :=
  acts.filterMap (SessionAction.packet p) =
    s.aggregator.received.map Receipt.message ++ s.toAggregation.buf ++ s.poll.packet.toList

/-- A step that reads no packet and leaves what is received and what is on its way. -/
theorem PacketsInOrder.keep {p : SessionParams} {acts : List SessionAction} {a : SessionAction}
    {s t : MeasureSession capA capP} (h : PacketsInOrder p acts s) (ha : a.packet p = none)
    (hrec : t.aggregator.received.map Receipt.message =
      s.aggregator.received.map Receipt.message)
    (hbuf : t.toAggregation.buf = s.toAggregation.buf) (hpoll : t.poll.packet = s.poll.packet) :
    PacketsInOrder p (acts ++ [a]) t := by
  unfold PacketsInOrder at *
  rw [List.filterMap_append, List.filterMap_cons_none ha, List.filterMap_nil, List.append_nil, h,
    hrec, hbuf, hpoll]

theorem PacketsInOrder.step {p : SessionParams} {acts : List SessionAction} {a : SessionAction}
    {s t : MeasureSession capA capP} (h : PacketsInOrder p acts s) (hs : s.step p a = some t) :
    PacketsInOrder p (acts ++ [a]) t := by
  have hcount : (acts ++ [a]).filterMap (SessionAction.packet p) =
      s.aggregator.received.map Receipt.message ++ s.toAggregation.buf ++ s.poll.packet.toList ++
        (a.packet p).toList := by
    rw [List.filterMap_append, h]
    cases hp : a.packet p <;> simp [hp]
  cases (moves_of_step hs).2 with
  | poll hpc hsent _ =>
    unfold PacketsInOrder
    rw [hcount, List.append_assoc _ _ (Option.toList _)]
    exact congrArg _ (PollPc.packet_of_step hpc hsent).symm
  | pollPacket hpc hc =>
    unfold PacketsInOrder
    rw [hcount, (Chan.send_eq_sent hc).2.2.1, hpc]
    simp [PollPc.packet, SessionAction.packet, PollEvent.packet]
  | pollQueue hpc hc => exact h.keep rfl rfl rfl (by rw [hpc]; rfl)
  | pollClose hpc hc =>
    exact h.keep rfl rfl (Chan.close_eq_some hc).2.1 (by rw [hpc]; rfl)
  | recv ha hc =>
    unfold PacketsInOrder
    rw [hcount, Aggregator.received_of_step ha, (Chan.recv_eq_value hc).1]
    simp [SessionAction.packet]
  | handPacket hpc _ ha =>
    unfold PacketsInOrder
    rw [hcount, step_handPacket hs, Aggregator.received_of_step ha, hpc]
    simp [PollPc.packet, SessionAction.packet]
  | handQueue hpc _ _ => exact h.keep rfl rfl rfl (by rw [hpc]; rfl)
  | aggregate ha hrecv _ _ _ =>
    refine h.keep rfl ?_ rfl rfl
    rw [Aggregator.received_of_step ha]
    split
    · exact absurd rfl (hrecv _)
    · exact List.append_nil _
  | recvClosed ha _ | close ha _ =>
    exact h.keep rfl (by rw [Aggregator.received_of_step ha]; simp) rfl rfl
  | pollPacketPanic _ _ | pollQueuePanic _ _ | pollClosePanic _ _ => exact h.keep rfl rfl rfl rfl
  | _ => exact h.keep rfl rfl rfl rfl

/-- **No packet is lost, doubled or overtaken.**  In every run, whatever the capacities of the
channels and however the goroutines are interleaved, the packets of the records read so far are
those `aggregateMeasures` has received, then those in the channel, then the one `poll` is
sending. -/
theorem packets_in_order (capA capP : ℕ) (capacity : UInt64) (p : SessionParams)
    (acts : List SessionAction) (s : MeasureSession capA capP)
    (hrun : run (step p) (init capacity) acts = some s) :
    acts.filterMap (SessionAction.packet p) =
      s.aggregator.received.map Receipt.message ++ s.toAggregation.buf ++ s.poll.packet.toList :=
  run_trace_invariant (I := PacketsInOrder p) (fun _ _ _ _ h hs => h.step hs)
    (by simp [PacketsInOrder, init, Chan.make, Aggregator.init, PollPc.packet]) hrun

/-- A packet is read and sent, with room for one. -/
theorem packets_in_order_packet :
    ∃ s : MeasureSession 1 1,
      run (step ⟨0, 0, false⟩) (init 0) (.poll .opened :: pollPacketActions) = some s ∧
      (SessionAction.poll .opened :: pollPacketActions).filterMap
          (SessionAction.packet ⟨0, 0, false⟩) =
        s.aggregator.received.map Receipt.message ++ s.toAggregation.buf ++ s.poll.packet.toList :=
  ⟨_, rfl, packets_in_order 1 1 0 ⟨0, 0, false⟩ (.poll .opened :: pollPacketActions) _ rfl⟩

/-- `aggregateMeasures` leaves without an error only when the channel is closed and empty. -/
def Drained (s : MeasureSession capA capP) : Prop :=
  s.aggregator.left = true → s.aggregator.failed = false →
    s.toAggregation.closed = true ∧ s.toAggregation.buf = []

/-- A step of `aggregateMeasures` that receives no packet. -/
theorem Drained.aggregate {p : SessionParams} {s t : MeasureSession capA capP}
    {e : AggregatorEvent} (h : Drained s) (ha : s.aggregator.step p e = some t.aggregator)
    (hA : t.toAggregation = s.toAggregation)
    (hrecv : e = .recvClosed → s.toAggregation.closed = true ∧ s.toAggregation.buf = []) :
    Drained t := by
  intro hleft hfail
  rw [hA]
  rcases Aggregator.left_of_step ha hleft with ⟨hl, hf⟩ | he | ⟨hf, -⟩
  · exact h hl (hf ▸ hfail)
  · exact hrecv he
  · rw [hf] at hfail
    cases hfail

/-- After a receive `aggregateMeasures` has not left. -/
theorem left_of_recv {p : SessionParams} {a b : Aggregator} {m : PacketMeasure}
    (h : a.step p (.recv m) = some b) : b.left = false := by
  cases Aggregator.moves_of_step h <;> rfl

theorem Drained.step {p : SessionParams} {s t : MeasureSession capA capP} {a : SessionAction}
    (h : Drained s) (hs : s.step p a = some t) : Drained t := by
  cases (moves_of_step hs).2 with
  | pollPacket hpc hc =>
    intro hl hf
    have hclosed := (h hl hf).1
    rw [(Chan.send_eq_sent hc).1] at hclosed
    cases hclosed
  | pollClose hpc hc =>
    obtain ⟨-, hbuf, hclosed⟩ := Chan.close_eq_some hc
    exact fun hl hf => ⟨hclosed, hbuf ▸ (h hl hf).2⟩
  | recv ha hc => intro hl; rw [left_of_recv ha] at hl; cases hl
  | handPacket hpc hopen ha => intro hl; rw [left_of_recv ha] at hl; cases hl
  | recvClosed ha hc =>
    obtain ⟨hbuf, hclosed⟩ := Chan.recv_eq_closed hc
    exact h.aggregate ha rfl fun _ => ⟨hclosed, hbuf⟩
  | aggregate ha _ hrecv _ hclose => exact h.aggregate ha rfl fun he => absurd he hrecv
  | close ha hc => exact h.aggregate ha rfl (by simp)
  | sample hpc hc => intro hl; cases hl
  | handSample hpc hopen hr => intro hl; cases hl
  | _ => exact h

/-- **A session that ends without an error has received every packet.**  When `aggregateMeasures`
has left and has not failed, it has received the packets of all records read, in their order. -/
theorem aggregated_all (capA capP : ℕ) (capacity : UInt64) (p : SessionParams)
    (acts : List SessionAction) (s : MeasureSession capA capP)
    (hrun : run (step p) (init capacity) acts = some s)
    (hleft : s.aggregator.left = true) (hfail : s.aggregator.failed = false) :
    s.aggregator.received.map Receipt.message = acts.filterMap (SessionAction.packet p) := by
  have hdrained : Drained s := by
    refine run_invariant (I := Drained) (fun _ _ _ hi hs => hi.step hs) ?_ hrun
    intro hl
    cases hl
  have howners : Owners s :=
    run_invariant (I := Owners) (fun _ _ _ hi hs => hi.step hs) Owners.init hrun
  obtain ⟨hclosed, hbuf⟩ := hdrained hleft hfail
  have hpoll : s.poll.packet = none := by rw [howners.aggregation.mp hclosed]; rfl
  rw [packets_in_order capA capP capacity p acts s hrun, hbuf, hpoll]
  simp

/-- A session with one packet, to its end. -/
def endedActions : List SessionAction :=
  .poll .opened :: pollPacketActions ++
    [.externExit, .endSession, .poll .loop, .poll .wgDone, .poll .close,
      .aggregate (.persistence true), .aggregate .tick, .aggregate (.recv packetOfRecord),
      .aggregate .recvClosed]

/-- The packet has been received when the session ends. -/
theorem aggregated_all_ended :
    ∃ s : MeasureSession 1 1, run (step ⟨0, 0, false⟩) (init 0) endedActions = some s ∧
      s.aggregator.received.map Receipt.message =
        endedActions.filterMap (SessionAction.packet ⟨0, 0, false⟩) :=
  ⟨_, rfl, aggregated_all 1 1 0 ⟨0, 0, false⟩ endedActions _ rfl rfl rfl⟩

/-! ### The samples -/

/-- The value a step sends to `chan_to_persistence`. -/
def sentSample (s : MeasureSession capA capP) (a : SessionAction) : Option Sample :=
  if s.toPersistence.closed then none
  else
    match a, s.poll, s.aggregator.pc with
    | .poll .sent, .sendingQueue q, _ => some (.queue q)
    | .handQueue, .sendingQueue q, _ => some (.queue q)
    | .aggregate .sent, _, .sending _ sample _ => some (.packet sample)
    | .handSample, _, .sending _ sample _ => some (.packet sample)
    | _, _, _ => none

/-- A sample is sent from where one of the two senders holds it. -/
theorem of_sentSample {s : MeasureSession capA capP} {a : SessionAction} {x : Sample}
    (h : s.sentSample a = some x) :
    (∃ q, x = .queue q ∧ s.poll = .sendingQueue q) ∨
      ∃ w q rest, x = .packet q ∧ s.aggregator.pc = .sending w q rest := by
  unfold sentSample at h
  split_ifs at h
  split at h
  case h_1 hpoll | h_2 hpoll =>
    obtain rfl := Option.some.inj h
    exact .inl ⟨_, rfl, hpoll⟩
  case h_3 hpc | h_4 hpc =>
    obtain rfl := Option.some.inj h
    exact .inr ⟨_, _, _, rfl, hpc⟩
  case h_5 => cases h

/-- What has been sent is handed to `persist` or in the channel, in this order; and `persist` takes
all of it. -/
structure SamplesInOrder (sent : List Sample) (s : MeasureSession capA capP) : Prop where
  order : sent = s.persistor.handed ++ s.toPersistence.buf
  measures : ∀ x ∈ sent, x.isMeasure = true

/-- A step that sends nothing and receives nothing. -/
theorem SamplesInOrder.keep {sent : List Sample} {s t : MeasureSession capA capP}
    (h : SamplesInOrder sent s) (hper : t.persistor.handed = s.persistor.handed)
    (hbuf : t.toPersistence.buf = s.toPersistence.buf) : SamplesInOrder sent t :=
  ⟨by rw [hper, hbuf]; exact h.order, h.measures⟩

/-- A step that puts a value behind what the channel holds. -/
theorem SamplesInOrder.send {sent : List Sample} {s t : MeasureSession capA capP} {x : Sample}
    (h : SamplesInOrder sent s) (hx : x.isMeasure = true)
    (hper : t.persistor.handed = s.persistor.handed)
    (hbuf : t.toPersistence.buf = s.toPersistence.buf ++ [x]) : SamplesInOrder (sent ++ [x]) t where
  order := by rw [hper, hbuf, h.order, List.append_assoc]
  measures y hy := (List.mem_append.mp hy).elim (h.measures y) fun hy =>
    List.mem_singleton.mp hy ▸ hx

/-- A send that meets the receive, with nothing in the channel. -/
theorem SamplesInOrder.hand {sent : List Sample} {s t : MeasureSession capA capP} {x : Sample}
    (h : SamplesInOrder sent s) (hx : x.isMeasure = true) (hempty : s.toPersistence.buf = [])
    (hper : s.persistor.step (.recv x) = some t.persistor)
    (hbuf : t.toPersistence.buf = s.toPersistence.buf) : SamplesInOrder (sent ++ [x]) t where
  order := by
    rw [Persistor.handed_of_step hper, hbuf, h.order, hempty]
    simp [Persistor.measures, Persistor.receives, hx]
  measures y hy := (List.mem_append.mp hy).elim (h.measures y) fun hy =>
    List.mem_singleton.mp hy ▸ hx

/-- A step of the persistor on the channel. -/
theorem SamplesInOrder.persist {sent : List Sample} {s : MeasureSession capA capP}
    {e : PersistorEvent} {r : Persistor} {c : Chan Sample capP} (h : SamplesInOrder sent s)
    (hr : s.persistor.Interacts s.exitPersistor s.toPersistence e r c) :
    SamplesInOrder sent { s with persistor := r, toPersistence := c } := by
  refine ⟨?_, h.measures⟩
  rw [h.order]
  cases hr with
  | exit _ hs | recvClosed _ _ hs =>
    rw [Persistor.handed_of_step hs]
    simp [Persistor.measures, Persistor.receives]
  | @recv _ x c hbuf _ hs =>
    have hx : x.isMeasure = true := h.measures x (by rw [h.order, hbuf]; simp)
    rw [Persistor.handed_of_step hs, hbuf]
    simp [Persistor.measures, Persistor.receives, hx]
  | other _ hrecv _ hs =>
    rw [Persistor.handed_of_step hs]
    cases e with
    | recv x => exact absurd rfl (hrecv x)
    | _ => simp [Persistor.measures, Persistor.receives]

theorem SamplesInOrder.step {p : SessionParams} {sent : List Sample} {a : SessionAction}
    {s t : MeasureSession capA capP} (h : SamplesInOrder sent s) (hs : s.step p a = some t) :
    SamplesInOrder (sent ++ (s.sentSample a).toList) t := by
  have hnone : s.sentSample a = none → SamplesInOrder sent t →
      SamplesInOrder (sent ++ (s.sentSample a).toList) t := by
    intro ha ht
    rw [ha]
    exact (List.append_nil sent).symm ▸ ht
  cases (moves_of_step hs).2 with
  | pollQueue hpc hc =>
    obtain ⟨hopen, -, hbuf, -⟩ := Chan.send_eq_sent hc
    simp only [sentSample, hopen, hpc]
    exact h.send rfl rfl hbuf
  | sample hpc hc =>
    obtain ⟨hopen, -, hbuf, -⟩ := Chan.send_eq_sent hc
    simp only [sentSample, hopen, hpc]
    exact h.send rfl rfl hbuf
  | handQueue hpc hopen hr =>
    simp only [sentSample, hopen, hpc]
    exact h.hand rfl (step_handQueue hs) hr rfl
  | handSample hpc hopen hr =>
    simp only [sentSample, hopen, hpc]
    exact h.hand rfl (step_handSample hs) hr rfl
  | poll hpc hsent _ =>
    refine hnone ?_ (h.keep rfl rfl)
    unfold sentSample
    split_ifs
    · rfl
    · split <;> simp_all
  | pollPacket hpc _ | pollClose hpc _ | pollPacketPanic hpc _ | pollClosePanic hpc _ =>
    exact hnone (by simp [sentSample, hpc]) (h.keep rfl rfl)
  | pollQueuePanic _ hclosed | samplePanic _ hclosed =>
    exact hnone (by simp [sentSample, hclosed]) (h.keep rfl rfl)
  | aggregate _ _ _ hsent _ =>
    refine hnone ?_ (h.keep rfl rfl)
    unfold sentSample
    split_ifs
    · rfl
    · split <;> simp_all
  | close _ hc =>
    exact hnone (by simp [sentSample]) (h.keep rfl (Chan.close_eq_some hc).2.1)
  | persist hr => exact hnone (by simp [sentSample]) (h.persist hr)
  | _ => exact hnone (by simp [sentSample]) (h.keep rfl rfl)

/-- **Every sample sent reaches the persistor in order.**  In every run, the samples sent to
`chan_to_persistence`, by `poll` and by `aggregateMeasures` and in the order in which their sends
complete, are those handed to `persist`, then those in the channel. -/
theorem samples_in_order (capA capP : ℕ) (capacity : UInt64) (p : SessionParams)
    (acts : List SessionAction) (s : MeasureSession capA capP)
    (hrun : run (step p) (init capacity) acts = some s) :
    outputs (step p) sentSample (init capacity : MeasureSession capA capP) acts =
      s.persistor.handed ++ s.toPersistence.buf := by
  refine SamplesInOrder.order (trace_invariant_from
    (s := (init capacity : MeasureSession capA capP))
    (I := fun acts s => SamplesInOrder (outputs (step p) sentSample (init capacity) acts) s)
    ?_ ?_ hrun)
  · intro acts s a t hrun hi hs
    rw [outputs_concat sentSample hrun]
    exact hi.step hs
  · exact ⟨rfl, fun x hx => absurd hx List.not_mem_nil⟩

/-- A queue sample is sent, with room for one. -/
theorem samples_in_order_queue :
    ∃ s : MeasureSession 1 1,
      run (step ⟨0, 0, false⟩) (init 0) (.poll .opened :: pollQueueActions) = some s ∧
      outputs (step ⟨0, 0, false⟩) sentSample (init 0 : MeasureSession 1 1)
          (.poll .opened :: pollQueueActions) =
        s.persistor.handed ++ s.toPersistence.buf :=
  ⟨_, rfl, samples_in_order 1 1 0 ⟨0, 0, false⟩ (.poll .opened :: pollQueueActions) _ rfl⟩

/-! ### The queue samples among them -/

/-- The queue samples of the records are sent or on their way to the send, but for one, which was in
hand when `poll` left. -/
def QueuesInOrder (p : SessionParams) (acts : List SessionAction) (sent : List Sample)
    (s : MeasureSession capA capP) : Prop :=
  ∃ lost : Option DbMeasureQueue, (lost.isSome = true → s.poll.ended = true) ∧
    acts.filterMap (SessionAction.queue p) =
      sent.filterMap Sample.asQueue ++ s.poll.queue.toList ++ lost.toList

/-- A step of another goroutine, or of `poll` on a packet. -/
theorem QueuesInOrder.keep {p : SessionParams} {acts : List SessionAction} {sent : List Sample}
    {a : SessionAction} {s t : MeasureSession capA capP} (h : QueuesInOrder p acts sent s)
    (ha : a.queue p = none) (hsent : (s.sentSample a).bind Sample.asQueue = none)
    (hpoll : t.poll.queue = s.poll.queue) (hended : s.poll.ended = true → t.poll.ended = true) :
    QueuesInOrder p (acts ++ [a]) (sent ++ (s.sentSample a).toList) t := by
  obtain ⟨lost, hlost, heq⟩ := h
  refine ⟨lost, fun hl => hended (hlost hl), ?_⟩
  have hnone : (s.sentSample a).toList.filterMap Sample.asQueue = [] := by
    cases hx : s.sentSample a with
    | none => rfl
    | some x => rw [hx] at hsent; simpa using hsent
  rw [List.filterMap_append, List.filterMap_append, hnone, hpoll, heq]
  simp [ha]

/-- The send of a queue sample completes. -/
theorem QueuesInOrder.send {p : SessionParams} {acts : List SessionAction} {sent : List Sample}
    {a : SessionAction} {s t : MeasureSession capA capP} {q : DbMeasureQueue}
    (h : QueuesInOrder p acts sent s) (hq : s.poll = .sendingQueue q)
    (ha : a.queue p = none) (hsent : s.sentSample a = some (.queue q)) (hpoll : t.poll = .atLoop) :
    QueuesInOrder p (acts ++ [a]) (sent ++ (s.sentSample a).toList) t := by
  obtain ⟨lost, hlost, heq⟩ := h
  have hl : lost = none := by
    cases lost with
    | none => rfl
    | some l => have := hlost rfl; simp [hq, PollPc.ended] at this
  subst hl
  refine ⟨none, by simp, ?_⟩
  rw [List.filterMap_append, List.filterMap_append, heq, hsent, hpoll, hq]
  simp [ha, Sample.asQueue, PollPc.queue]

/-- A step of `poll` that is neither a send nor its last. -/
theorem QueuesInOrder.poll {p : SessionParams} {acts : List SessionAction} {sent : List Sample}
    {e : PollEvent} {pc : PollPc} {s t : MeasureSession capA capP} (h : QueuesInOrder p acts sent s)
    (hpc : s.poll.step p s.shouldEnd e = some pc) (he : e ≠ .sent) (ht : t.poll = pc) :
    QueuesInOrder p (acts ++ [.poll e]) sent t := by
  obtain ⟨lost, hlost, heq⟩ := h
  have hcount : (acts ++ [SessionAction.poll e]).filterMap (SessionAction.queue p) =
      acts.filterMap (SessionAction.queue p) ++ (e.queue p).toList := by
    rw [List.filterMap_append]
    cases hq : e.queue p <;> simp [SessionAction.queue, hq]
  cases hl : lost with
  | some q =>
    -- `poll` has left, and reads nothing more
    obtain ⟨h1, h2, h3⟩ := PollPc.ended_of_step hpc (hlost (by rw [hl]; rfl))
    have hs : s.poll.queue = none := by
      have := hlost (by rw [hl]; rfl)
      unfold PollPc.ended at this
      split at this <;> simp_all [PollPc.queue]
    refine ⟨some q, fun _ => by rw [ht]; exact h1, ?_⟩
    rw [hcount, heq, ht, h2, h3, hs, hl]
    simp
  | none =>
    rcases PollPc.queue_of_step hpc he with hq | ⟨hleave, hq, q, hs⟩
    · refine ⟨none, by simp, ?_⟩
      rw [hcount, heq, ht, hq, hl]
      simp
    · refine ⟨some q, fun _ => by rw [ht, hleave]; rfl, ?_⟩
      rw [hcount, heq, ht, hleave, hq, hs, hl]
      simp [PollPc.queue]

theorem QueuesInOrder.step {p : SessionParams} {acts : List SessionAction} {sent : List Sample}
    {a : SessionAction} {s t : MeasureSession capA capP} (h : QueuesInOrder p acts sent s)
    (hs : s.step p a = some t) :
    QueuesInOrder p (acts ++ [a]) (sent ++ (s.sentSample a).toList) t := by
  cases (moves_of_step hs).2 with
  | @poll e pc capacity hpc hsent hclose =>
    have hnone : s.sentSample (.poll e) = none := by
      unfold sentSample
      split_ifs
      · rfl
      · split <;> simp_all
    rw [hnone]
    simpa using h.poll hpc hsent rfl
  | pollQueue hpc hc =>
    exact h.send hpc rfl (by simp [sentSample, (Chan.send_eq_sent hc).1, hpc]) rfl
  | handQueue hpc hopen hr => exact h.send hpc rfl (by simp [sentSample, hopen, hpc]) rfl
  | pollPacket hpc _ | handPacket hpc _ _ =>
    refine h.keep rfl (by simp [sentSample, hpc]) (by rw [hpc]; rfl) ?_
    rw [hpc]
    exact fun he => by cases he
  | pollClose hpc hc =>
    refine h.keep rfl (by simp [sentSample]) (by rw [hpc]; rfl) fun _ => rfl
  | pollPacketPanic hpc _ | pollClosePanic hpc _ =>
    exact h.keep rfl (by simp [sentSample, hpc]) rfl id
  | pollQueuePanic _ hclosed | samplePanic _ hclosed =>
    exact h.keep rfl (by simp [sentSample, hclosed]) rfl id
  | sample hpc hc =>
    exact h.keep rfl (by simp [sentSample, (Chan.send_eq_sent hc).1, hpc, Sample.asQueue]) rfl id
  | handSample hpc hopen _ =>
    exact h.keep rfl (by simp [sentSample, hopen, hpc, Sample.asQueue]) rfl id
  | aggregate _ _ _ hsent _ =>
    refine h.keep rfl ?_ rfl id
    unfold sentSample
    split_ifs
    · rfl
    · split <;> simp_all
  | _ => exact h.keep rfl (by simp [sentSample]) rfl id

/-- **At most one queue sample is dropped.**  In every run, the queue samples of the records read
are those sent, in their order, then the one on its way to the send; and when `poll` has left there
may be one more, the last. -/
theorem queues_in_order (capA capP : ℕ) (capacity : UInt64) (p : SessionParams)
    (acts : List SessionAction) (s : MeasureSession capA capP)
    (hrun : run (step p) (init capacity) acts = some s) :
    ∃ lost : Option DbMeasureQueue, (lost.isSome = true → s.poll.ended = true) ∧
      acts.filterMap (SessionAction.queue p) =
        (outputs (step p) sentSample
            (init capacity : MeasureSession capA capP) acts).filterMap Sample.asQueue ++
          s.poll.queue.toList ++ lost.toList := by
  refine trace_invariant_from (s := (init capacity : MeasureSession capA capP))
    (I := fun acts s => QueuesInOrder p acts (outputs (step p) sentSample (init capacity) acts) s)
    ?_ ?_ hrun
  · intro acts s a t hrun hi hs
    rw [outputs_concat sentSample hrun]
    exact hi.step hs
  · exact ⟨none, by simp, rfl⟩

/-- The session of one queue sample. -/
theorem queues_in_order_queue :
    ∃ s : MeasureSession 1 1,
      run (step ⟨0, 0, false⟩) (init 0) (.poll .opened :: pollQueueActions) = some s ∧
      ∃ lost : Option DbMeasureQueue, (lost.isSome = true → s.poll.ended = true) ∧
        (SessionAction.poll .opened :: pollQueueActions).filterMap
            (SessionAction.queue ⟨0, 0, false⟩) =
          (outputs (step ⟨0, 0, false⟩) sentSample (init 0 : MeasureSession 1 1)
              (.poll .opened :: pollQueueActions)).filterMap Sample.asQueue ++
            s.poll.queue.toList ++ lost.toList :=
  ⟨_, rfl, queues_in_order 1 1 0 ⟨0, 0, false⟩ (.poll .opened :: pollQueueActions) _ rfl⟩

end MeasureSession

end Jens
