import Jens.MeasureSession.Correct.Session

/-!
# Senders and readers that leave

A sender is stuck when it stands at its send, the channel is full and its only reader has left.  The
invariant `Room` excludes that: once the reader of an open channel has left, there is room for every
sender standing at its send.  It is kept by the steps that meet `roomLeft`, which looks at the steps
where a reader leaves and at those where a sender comes to its send (`no_sender_stuck`).

`failure_fills_channel` is the run without it: `aggregateMeasures` leaves because a flow cannot be
persisted, `poll` goes on reading packets until the channel is full, and then it is stuck.
-/

namespace Jens

open Steps

/-! ### Who stands at a send -/

namespace PollPc

/-- The packets that stand at the send to `chan_to_aggregation`. -/
def packetsAtSend : PollPc → ℕ
  | .sendingPacket _ => 1
  | _ => 0

/-- The samples of `poll` that stand at the send to `chan_to_persistence`. -/
def samplesAtSend : PollPc → ℕ
  | .sendingQueue _ => 1
  | _ => 0

/-- The packets at the send after a step that sends and closes nothing. -/
def packetsAfter (p : SessionParams) : PollEvent → ℕ
  | .record r => (onRecord p r).packetsAtSend
  | _ => 0

/-- The samples at the send after such a step. -/
def samplesAfter (shouldEnd : Bool) : PollEvent → ℕ
  | .check => if shouldEnd then 0 else 1
  | _ => 0

theorem samplesAtSend_onRecord (p : SessionParams) (r : RecordArray) :
    (onRecord p r).samplesAtSend = 0 := by
  unfold onRecord
  split_ifs
  · split <;> rfl
  · rfl
  · rfl

theorem atSend_of_step {p : SessionParams} {shouldEnd : Bool} {pc pc' : PollPc} {e : PollEvent}
    (h : pc.step p shouldEnd e = some pc') :
    pc'.packetsAtSend = packetsAfter p e ∧ pc'.samplesAtSend = samplesAfter shouldEnd e := by
  unfold step at h
  split at h
  case h_11 => cases h
  all_goals obtain rfl := Option.some.inj h
  case h_2 => cases shouldEnd <;> exact ⟨rfl, rfl⟩
  case h_5 r => exact ⟨rfl, samplesAtSend_onRecord p r⟩
  case h_6 => cases shouldEnd <;> exact ⟨rfl, rfl⟩
  all_goals exact ⟨rfl, rfl⟩

end PollPc

namespace AggregatorPc

/-- The samples that stand at the send to `chan_to_persistence`. -/
def samplesAtSend : AggregatorPc → ℕ
  | .sending _ _ _ => 1
  | _ => 0

end AggregatorPc

namespace Aggregator

/-- The samples at the send after a step: the one the range over the map has come to. -/
def samplesAfter (p : SessionParams) (s : Aggregator) : AggregatorEvent → ℕ
  | .next i =>
    match s.pc with
    | .emitting w rest =>
      match rest[i]? with
      | some measure => (onNext p w measure (rest.eraseIdx i)).samplesAtSend
      | none => 0
    | _ => 0
  | _ => 0

theorem atSend_of_step {p : SessionParams} {s t : Aggregator} {e : AggregatorEvent}
    (h : s.step p e = some t) : t.pc.samplesAtSend = samplesAfter p s e := by
  cases moves_of_step h with
  | next hpc hm => simp [samplesAfter, hpc, hm]
  | @flowPersisted w readMessages _ _ _ _ => cases readMessages <;> rfl
  | _ => rfl

end Aggregator

namespace MeasureSession

variable {capA capP : ℕ} {capacity : UInt64}

/-- The samples that stand at the send to `chan_to_persistence`. -/
def samplesAtSend (s : MeasureSession capA capP) : ℕ :=
  s.poll.samplesAtSend + s.aggregator.pc.samplesAtSend

/-- A goroutine stands at its send to a full channel whose reader has left. -/
def Stuck (s : MeasureSession capA capP) : Prop :=
  s.poll.packetsAtSend ≠ 0 ∧ s.toAggregation.closed = false ∧ s.toAggregation.Full ∧
      s.aggregator.left = true ∨
    s.samplesAtSend ≠ 0 ∧ s.toPersistence.closed = false ∧ s.toPersistence.Full ∧
      s.persistor.left = true

/-! ### The invariant -/

/-- **The condition on a step.**  A reader leaves, by an error or by the exit signal, only if there
is room for whoever stands at a send to it; and nobody comes to a send without room after its reader
has left. -/
def roomLeft (p : SessionParams) (s : MeasureSession capA capP) : SessionAction → Bool
  | .aggregate (.persistence ok) =>
    ok || s.toAggregation.buf.length + s.poll.packetsAtSend ≤ capA
  | .aggregate .flowFailed => s.toAggregation.buf.length + s.poll.packetsAtSend ≤ capA
  | .aggregate (.next i) =>
    !s.persistor.left ||
      s.toPersistence.buf.length
        + (s.poll.samplesAtSend + s.aggregator.samplesAfter p (.next i)) ≤ capP
  | .poll (.record r) =>
    !s.aggregator.left || s.toAggregation.buf.length + PollPc.packetsAfter p (.record r) ≤ capA
  | .poll .check =>
    !s.persistor.left ||
      s.toPersistence.buf.length
        + (PollPc.samplesAfter s.shouldEnd .check + s.aggregator.pc.samplesAtSend) ≤ capP
  | .persist .exit => s.toPersistence.buf.length + s.samplesAtSend ≤ capP
  | _ => true

/-- Once the reader of an open channel has left, there is room for every sender at its send. -/
structure Room (s : MeasureSession capA capP) : Prop where
  aggregation : s.aggregator.left = true → s.toAggregation.closed = false →
    s.toAggregation.buf.length + s.poll.packetsAtSend ≤ capA
  persistence : s.persistor.left = true → s.toPersistence.closed = false →
    s.toPersistence.buf.length + s.samplesAtSend ≤ capP

theorem Room.not_stuck {s : MeasureSession capA capP} (h : Room s) : ¬ Stuck s := by
  rintro (⟨hsend, hopen, hfull, hleft⟩ | ⟨hsend, hopen, hfull, hleft⟩)
  · have := h.aggregation hleft hopen
    unfold Chan.Full at hfull
    omega
  · have := h.persistence hleft hopen
    unfold Chan.Full at hfull
    omega

/-- The room in `chan_to_aggregation` after a step of `aggregateMeasures`, which may be its last. -/
theorem Room.aggregation_of_step {p : SessionParams} {s : MeasureSession capA capP}
    {e : AggregatorEvent} {a : Aggregator} (h : Room s) (hc : roomLeft p s (.aggregate e))
    (ha : s.aggregator.step p e = some a) (hrecv : e = .recvClosed → s.toAggregation.closed = true)
    (hleft : a.left = true) (hopen : s.toAggregation.closed = false) :
    s.toAggregation.buf.length + s.poll.packetsAtSend ≤ capA := by
  rcases Aggregator.left_of_step ha hleft with ⟨hl, -⟩ | he | ⟨-, rfl | rfl⟩
  · exact h.aggregation hl hopen
  · rw [hrecv he] at hopen
    cases hopen
  -- it leaves on an error: the condition asks for the room
  · simpa [roomLeft] using hc
  · simpa [roomLeft] using hc

/-- The room in `chan_to_persistence` after a step of `aggregateMeasures`, which may have come to a
send. -/
theorem Room.persistence_of_step {p : SessionParams} {s : MeasureSession capA capP}
    {e : AggregatorEvent} {a : Aggregator} (h : Room s) (hc : roomLeft p s (.aggregate e))
    (ha : s.aggregator.step p e = some a) (hleft : s.persistor.left = true)
    (hopen : s.toPersistence.closed = false) :
    s.toPersistence.buf.length + (s.poll.samplesAtSend + a.pc.samplesAtSend) ≤ capP := by
  have hsend := Aggregator.atSend_of_step ha
  have hroom := h.persistence hleft hopen
  unfold samplesAtSend at hroom
  cases e with
  | next i => simpa [roomLeft, hleft, hsend] using hc
  | _ =>
    -- no other step comes to a send
    simp only [Aggregator.samplesAfter] at hsend
    omega

/-- Steps of `aggregateMeasures` that send and close nothing. -/
theorem Room.aggregate {p : SessionParams} {s t : MeasureSession capA capP} {e : AggregatorEvent}
    (h : Room s) (hc : roomLeft p s (.aggregate e)) (ha : s.aggregator.step p e = some t.aggregator)
    (hpoll : t.poll = s.poll) (hpers : t.persistor = s.persistor)
    (hbuf : t.toAggregation.buf.length ≤ s.toAggregation.buf.length)
    (hclosed : t.toAggregation.closed = s.toAggregation.closed)
    (hP : t.toPersistence = s.toPersistence)
    (hrecv : e = .recvClosed → s.toAggregation.closed = true) : Room t where
  aggregation := by
    intro hleft hopen
    have := h.aggregation_of_step hc ha hrecv hleft (hclosed ▸ hopen)
    rw [hpoll]
    omega
  persistence := by
    intro hleft hopen
    rw [hP] at hopen ⊢
    rw [samplesAtSend, hpoll]
    exact h.persistence_of_step hc ha (hpers ▸ hleft) hopen

theorem Room.poll {p : SessionParams} {s : MeasureSession capA capP} {e : PollEvent} {pc : PollPc}
    {capacity : UInt64} (h : Room s) (hc : roomLeft p s (.poll e))
    (hpc : s.poll.step p s.shouldEnd e = some pc) :
    Room { s with poll := pc, currentCapacityKbits := capacity } := by
  obtain ⟨hpackets, hsamples⟩ := PollPc.atSend_of_step hpc
  constructor
  · intro hleft hopen
    have hroom := h.aggregation hleft hopen
    show s.toAggregation.buf.length + pc.packetsAtSend ≤ capA
    rw [hpackets]
    cases e with
    | record r =>
      have hl : s.aggregator.left = true := hleft
      simpa [roomLeft, hl] using hc
    | _ =>
      simp only [PollPc.packetsAfter]
      omega
  · intro hleft hopen
    have hroom := h.persistence hleft hopen
    show s.toPersistence.buf.length + (pc.samplesAtSend + s.aggregator.pc.samplesAtSend) ≤ capP
    unfold samplesAtSend at hroom
    rw [hsamples]
    cases e with
    | check =>
      have hl : s.persistor.left = true := hleft
      simpa [roomLeft, hl] using hc
    | _ =>
      simp only [PollPc.samplesAfter]
      omega

theorem Room.persist {p : SessionParams} {s : MeasureSession capA capP} {e : PersistorEvent}
    {r : Persistor} {c : Chan Sample capP} (h : Room s) (hc : roomLeft p s (.persist e))
    (hr : s.persistor.Interacts s.exitPersistor s.toPersistence e r c) :
    Room { s with persistor := r, toPersistence := c } where
  aggregation := h.aggregation
  persistence := by
    intro hleft hopen
    have hopen' : s.toPersistence.closed = false := hr.closed_eq.symm.trans hopen
    show c.buf.length + s.samplesAtSend ≤ capP
    cases hr with
    | exit _ _ => simpa [roomLeft] using hc
    | recvClosed _ hclosed _ =>
      rw [hclosed] at hopen'
      cases hopen'
    | recv _ _ hstep => simp [(Persistor.not_left_of_recv hstep).2] at hleft
    | other hexit _ hclosed hstep =>
      rcases Persistor.left_of_step hstep hleft with hl | he | he
      · exact h.persistence hl hopen'
      · exact absurd he hexit
      · exact absurd he hclosed

theorem Room.step {p : SessionParams} {s t : MeasureSession capA capP} {a : SessionAction}
    (h : Room s) (hc : roomLeft p s a) (hs : s.step p a = some t) : Room t := by
  cases (moves_of_step hs).2 with
  | externExit | endSession | exitPersistor => exact ⟨h.aggregation, h.persistence⟩
  | pollPacketPanic _ _ | pollQueuePanic _ _ | pollClosePanic _ _ | samplePanic _ _
  | closePanic _ _ => exact ⟨h.aggregation, h.persistence⟩
  | poll hpc _ _ => exact h.poll hc hpc
  | pollPacket hpc hsend =>
    obtain ⟨hopen, -, hbuf, -⟩ := Chan.send_eq_sent hsend
    refine ⟨fun hleft _ => ?_, fun hleft hopen' => ?_⟩
    -- the packet goes from the send into the channel, which leaves their sum as it is
    · have hroom := h.aggregation hleft hopen
      rw [hpc] at hroom
      simpa [hbuf, PollPc.packetsAtSend] using hroom
    · have hroom := h.persistence hleft hopen'
      simpa [samplesAtSend, hpc, PollPc.samplesAtSend] using hroom
  | pollQueue hpc hsend =>
    obtain ⟨hopen, -, hbuf, -⟩ := Chan.send_eq_sent hsend
    refine ⟨fun hleft hopen' => ?_, fun hleft _ => ?_⟩
    · have hroom := h.aggregation hleft hopen'
      simpa [hpc, PollPc.packetsAtSend] using hroom
    · have hroom := h.persistence hleft hopen
      simp only [samplesAtSend, hpc, PollPc.samplesAtSend] at hroom
      simp only [samplesAtSend, hbuf, PollPc.samplesAtSend, List.length_append,
        List.length_singleton]
      omega
  | pollClose hpc hcl =>
    obtain ⟨-, -, hclosed⟩ := Chan.close_eq_some hcl
    refine ⟨fun _ hopen => ?_, fun hleft hopen => ?_⟩
    · rw [hclosed] at hopen
      cases hopen
    · have hroom := h.persistence hleft hopen
      simpa [samplesAtSend, hpc, PollPc.samplesAtSend] using hroom
  | aggregate ha _ hrecv _ _ =>
    exact h.aggregate hc ha rfl rfl le_rfl rfl rfl (fun he => absurd he hrecv)
  | recv ha hr =>
    obtain ⟨hbuf, hclosed⟩ := Chan.recv_eq_value hr
    exact h.aggregate hc ha rfl rfl (by simp [hbuf]) hclosed rfl (by simp)
  | recvClosed ha hr =>
    exact h.aggregate hc ha rfl rfl le_rfl rfl rfl (fun _ => (Chan.recv_eq_closed hr).2)
  | sample hpc hsend =>
    obtain ⟨hopen, -, hbuf, -⟩ := Chan.send_eq_sent hsend
    refine ⟨fun hleft => (by cases hleft), fun hleft _ => ?_⟩
    have hroom := h.persistence hleft hopen
    simp only [samplesAtSend, hpc, AggregatorPc.samplesAtSend] at hroom
    simp only [samplesAtSend, hbuf, AggregatorPc.samplesAtSend, List.length_append,
      List.length_singleton]
    omega
  | close ha hcl =>
    obtain ⟨-, -, hclosed⟩ := Chan.close_eq_some hcl
    refine ⟨h.aggregation_of_step hc ha (by simp), fun _ hopen => ?_⟩
    rw [hclosed] at hopen
    cases hopen
  | persist hr => exact h.persist hc hr
  | @handPacket m _ hpc hopen ha =>
    -- for the receiver this is a receive, on which there is no condition
    have hc' : roomLeft p s (.aggregate (.recv m)) := rfl
    refine ⟨fun hleft hopen' => ?_, fun hleft hopen' => ?_⟩
    · have hroom := h.aggregation_of_step hc' ha (by simp) hleft hopen'
      exact le_trans (Nat.le_add_right _ _) hroom
    · have hroom := h.persistence_of_step hc' ha hleft hopen'
      simpa [samplesAtSend, hpc, PollPc.samplesAtSend] using hroom
  | handQueue hpc hopen hr =>
    refine ⟨fun hleft hopen' => ?_, fun hleft _ => ?_⟩
    · have hroom := h.aggregation hleft hopen'
      exact le_trans (Nat.le_add_right _ _) hroom
    · simp [(Persistor.not_left_of_recv hr).2] at hleft
  | handSample hpc hopen hr =>
    refine ⟨fun hleft => (by cases hleft), fun hleft _ => ?_⟩
    simp [(Persistor.not_left_of_recv hr).2] at hleft

theorem Room.init : Room (init capacity : MeasureSession capA capP) :=
  ⟨fun hleft => (by cases hleft), fun hleft => (by cases hleft)⟩

/-- **No goroutine is stuck on a dead channel**, whatever the capacities and the schedule, in any
state reached by steps that meet `roomLeft`. -/
theorem no_sender_stuck (capA capP : ℕ) (capacity : UInt64) (p : SessionParams)
    (acts : List SessionAction) (s : MeasureSession capA capP)
    (hroom : StepsMeet (step p) (fun s a => roomLeft p s a)
      (init capacity : MeasureSession capA capP) acts)
    (hrun : run (step p) (init capacity) acts = some s) : ¬ Stuck s := by
  have hinv : Room s := by
    refine invariant_of_stepsMeet (I := Room) ?_ Room.init hroom hrun
    intro s a s' hi hc hs
    exact hi.step hc hs
  exact hinv.not_stuck

/-- A queue sample is sent and the persistor leaves by the exit signal, with room for another. -/
theorem no_sender_stuck_exit :
    ∃ s : MeasureSession 1 2, run (step ⟨0, 0, false⟩) (init 0)
        ((.poll .opened :: pollQueueActions) ++ [.persist (.persistence true), .externExit,
          .endSession, .exitPersistor, .persist .exit, .persist .close, .persist .done]) = some s ∧
      ¬ Stuck s :=
  ⟨_, rfl, no_sender_stuck 1 2 0 ⟨0, 0, false⟩
    ((.poll .opened :: pollQueueActions) ++ [.persist (.persistence true), .externExit,
      .endSession, .exitPersistor, .persist .exit, .persist .close, .persist .done]) _
    (by decide +kernel) rfl⟩

/-! ### A run that fills a channel without a reader -/

/-- `poll` is about to read its next record, and nobody reads the channel it sends packets to. -/
structure Unread (s : MeasureSession capA capP) : Prop where
  dead : s.dead = false
  shouldEnd : s.shouldEnd = false
  poll : s.poll = .atLoop
  opened : s.toAggregation.closed = false
  left : s.aggregator.left = true

/-- The actions by which `poll` reads a packet record and comes to its send. -/
def readPacketActions : List SessionAction := [.poll .loop, .poll (.record packetRecord)]

theorem onRecord_packetRecord :
    PollPc.onRecord ⟨0, 0, false⟩ packetRecord = .sendingPacket packetOfRecord := by
  decide +kernel

theorem Unread.run_readPacket {s : MeasureSession capA capP} (h : Unread s) :
    run (step ⟨0, 0, false⟩) s readPacketActions
      = some { s with poll := .sendingPacket packetOfRecord } := by
  have hloop : step ⟨0, 0, false⟩ s (.poll .loop) = some { s with poll := .polling } := by
    simp [step, h.dead, stepPoll, h.poll, PollPc.step, h.shouldEnd]
  have htype : ¬ packetRecord.typeId = RecordArray.recordTypeQ := by decide +kernel
  have hread : step ⟨0, 0, false⟩ { s with poll := .polling } (.poll (.record packetRecord))
      = some { s with poll := .sendingPacket packetOfRecord } := by
    have hdead : ({ s with poll := .polling } : MeasureSession capA capP).dead = false := h.dead
    simp [step, hdead, stepPoll, PollPc.step, onRecord_packetRecord, htype]
  rw [readPacketActions, run_cons, hloop, Option.bind_some, run_cons, hread]
  rfl

/-- As long as there is room, one more packet goes into the channel. -/
theorem Unread.run_sendPacket {s : MeasureSession capA capP} (h : Unread s)
    (hroom : s.toAggregation.buf.length < capA) :
    ∃ t, run (step ⟨0, 0, false⟩) s pollPacketActions = some t ∧ Unread t ∧
      t.toAggregation.buf.length = s.toAggregation.buf.length + 1 := by
  have hsend : ∃ c, s.toAggregation.send packetOfRecord = .sent c := by
    simp [Chan.send, h.opened, hroom]
  obtain ⟨c, hc⟩ := hsend
  obtain ⟨-, -, hbuf, hopen⟩ := Chan.send_eq_sent hc
  refine ⟨{ s with poll := .atLoop, toAggregation := c }, ?_,
    ⟨h.dead, h.shouldEnd, rfl, hopen, h.left⟩, by simp [hbuf]⟩
  have hdead : ({ s with poll := .sendingPacket packetOfRecord } :
      MeasureSession capA capP).dead = false := h.dead
  apply run_concat h.run_readPacket
  simp [step, hdead, stepPoll, PollPc.step, sendPacket, hc]

/-- A channel nobody reads is filled and its sender gets stuck, whatever the capacity. -/
theorem Unread.exists_stuck {s : MeasureSession capA capP} (h : Unread s) :
    ∃ acts t, run (step ⟨0, 0, false⟩) s acts = some t ∧ Stuck t := by
  obtain ⟨n, hn⟩ : ∃ n, n + s.toAggregation.buf.length = capA :=
    ⟨capA - s.toAggregation.buf.length, Nat.sub_add_cancel s.toAggregation.length_le⟩
  induction n generalizing s with
  | zero =>
    -- no room is left: the next packet stays at its send
    refine ⟨readPacketActions, _, h.run_readPacket, .inl ⟨Nat.one_ne_zero, h.opened, ?_, h.left⟩⟩
    show s.toAggregation.buf.length = capA
    omega
  | succ n ih =>
    obtain ⟨t, ht, hu, hlen⟩ := h.run_sendPacket (by omega)
    obtain ⟨acts, u, hrun, hstuck⟩ := ih hu (by omega)
    exact ⟨pollPacketActions ++ acts, u, run_append_eq_some.mpr ⟨t, ht, hrun⟩, hstuck⟩

/-- **Packets read after a failed `Persist` of a flow fill the channel**, with the capacities of
`NewMeasureSession`: nobody reads them, and `poll` is stuck. -/
theorem failure_fills_channel :
    ∃ acts, ∃ s : MeasureSession 10000 10000,
      run (step ⟨0, 0, false⟩) (init 0) acts = some s ∧ Stuck s := by
  have hfail : ∃ s : MeasureSession 10000 10000, run (step ⟨0, 0, false⟩) (init 0)
      ([.poll .opened, .aggregate (.persistence true), .aggregate .tick] ++ readPacketActions
        ++ [.handPacket] ++ readPacketActions
        ++ [.handPacket, .aggregate .flowFailed, .aggregate .close, .aggregate .wgDone]) = some s ∧
      Unread s := ⟨_, rfl, rfl, rfl, rfl, rfl, rfl⟩
  obtain ⟨s, hs, hu⟩ := hfail
  obtain ⟨acts, t, ht, hstuck⟩ := hu.exists_stuck
  exact ⟨_ ++ acts, t, run_append_eq_some.mpr ⟨s, hs, ht⟩, hstuck⟩

end MeasureSession

end Jens
