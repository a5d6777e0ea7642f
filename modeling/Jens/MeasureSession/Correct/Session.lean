import Jens.MeasureSession.Session
import Jens.MeasureSession.Correct.Aggregator
import Jens.MeasureSession.Correct.Persistor

/-!
# Who closes the channels of a session

`chan_to_aggregation` is closed by its only sender, `poll`, when it returns.  `chan_to_persistence`
has two senders and is closed by one of them, `aggregateMeasures`; after a return because of the
closed `chan_to_aggregation` the other sender is gone, after a return on an error it is not.  The
invariant `Owners` says so, and with it a run is free of the panics of the channels if and only if
`poll` sends no queue sample after `aggregateMeasures` has failed (`no_crash_iff`).

`Moves` is the step relation of the session, one constructor a way a step can go.
-/

namespace Jens

open Steps

/-! ### What one goroutine does -/

theorem PollPc.step_of_ne_close {p : SessionParams} {shouldEnd : Bool} {pc pc' : PollPc}
    {e : PollEvent} (h : pc.step p shouldEnd e = some pc') (he : e ≠ .close) :
    pc ≠ .returned ∧ pc' ≠ .returned := by
  unfold step at h
  split at h
  case h_11 => cases h
  all_goals obtain rfl := Option.some.inj h
  case h_2 | h_6 => split_ifs <;> simp
  case h_5 =>
    refine ⟨by simp, ?_⟩
    unfold onRecord
    split_ifs
    · split <;> simp
    · simp
    · simp
  case h_10 => exact absurd rfl he
  all_goals simp

theorem PollPc.step_close {p : SessionParams} {shouldEnd : Bool} {pc pc' : PollPc}
    (h : pc.step p shouldEnd .close = some pc') : pc = .closing ∧ pc' = .returned := by
  cases pc with
  | closing => exact ⟨rfl, (Option.some.inj h).symm⟩
  | _ => cases h

theorem PollPc.step_sent {p : SessionParams} {shouldEnd : Bool} {pc pc' : PollPc}
    (h : pc.step p shouldEnd .sent = some pc') :
    ((∃ m, pc = .sendingPacket m) ∨ ∃ q, pc = .sendingQueue q) ∧ pc' = .atLoop := by
  cases pc with
  | sendingPacket m => exact ⟨.inl ⟨m, rfl⟩, (Option.some.inj h).symm⟩
  | sendingQueue q => exact ⟨.inr ⟨q, rfl⟩, (Option.some.inj h).symm⟩
  | _ => cases h

namespace Aggregator

/-- The goroutine has closed `chan_to_persistence`. -/
def hasClosed (s : Aggregator) : Bool :=
  match s.pc with
  | .leaving | .returned => true
  | _ => false

theorem hasClosed_of_step {p : SessionParams} {s t : Aggregator} {e : AggregatorEvent}
    (h : s.step p e = some t) : t.hasClosed = true ↔ s.hasClosed = true ∨ e = .close := by
  cases moves_of_step h with
  | @next w rest i measure hpc _ =>
    rcases onNext_cases p w measure (rest.eraseIdx i) with hn | hn | ⟨_, hn⟩ <;>
      simp [hasClosed, hpc, hn]
  | @flowPersisted w readMessages cached flowId capacity hpc =>
    cases readMessages <;> simp [hasClosed, hpc, emit]
  | persistence hpc | noPersistence hpc | tick hpc | opened hpc | openedClosed hpc | read hpc
  | readClosed hpc | empty hpc | flowFailed hpc | rangeDone hpc | sent hpc | close hpc
  | wgDone hpc => simp [hasClosed, hpc, emit]

/-- The goroutine leaves because the channel is closed or because of an error. -/
theorem left_of_step {p : SessionParams} {s t : Aggregator} {e : AggregatorEvent}
    (h : s.step p e = some t) (ht : t.left = true) :
    s.left = true ∧ t.failed = s.failed ∨ e = .recvClosed ∨
      t.failed = true ∧ (e = .persistence false ∨ e = .flowFailed) := by
  cases moves_of_step h with
  | openedClosed _ | readClosed _ => exact .inr (.inl rfl)
  | noPersistence _ => exact .inr (.inr ⟨rfl, .inl rfl⟩)
  | flowFailed _ => exact .inr (.inr ⟨rfl, .inr rfl⟩)
  | close hpc | wgDone hpc => exact .inl ⟨by simp [left, hpc], rfl⟩
  | @next w rest i measure hpc _ =>
    rcases onNext_cases p w measure (rest.eraseIdx i) with hn | hn | ⟨_, hn⟩ <;>
      simp [left, hn] at ht
  | @flowPersisted w readMessages cached flowId capacity hpc =>
    cases readMessages <;> simp [left, emit] at ht
  | _ => simp [left, emit] at ht

theorem left_of_hasClosed {s : Aggregator} (h : s.hasClosed = true) : s.left = true := by
  unfold hasClosed at h
  unfold left
  split at h <;> simp_all

theorem step_close {p : SessionParams} {s t : Aggregator} (h : s.step p .close = some t) :
    s.pc = .closing := by
  cases moves_of_step h with
  | close hpc => exact hpc

theorem step_sent {p : SessionParams} {s t : Aggregator} (h : s.step p .sent = some t) :
    ∃ w sample rest, s.pc = .sending w sample rest ∧ t = { s with pc := .emitting w rest } := by
  cases moves_of_step h with
  | sent hpc => exact ⟨_, _, _, hpc, rfl⟩

end Aggregator

theorem Persistor.Interacts.closed_eq {cap : ℕ} {s t : Persistor} {exitPersistor : Bool}
    {samples c : Chan Sample cap} {e : PersistorEvent}
    (h : s.Interacts exitPersistor samples e t c) :
    c.closed = samples.closed := by
  cases h with
  | recv _ hc _ => exact hc
  | _ => rfl

namespace MeasureSession

variable {capA capP : ℕ} {capacity : UInt64}

/-! ### The step relation -/

/-- The ways a step of the session can go. -/
inductive Moves (p : SessionParams) (s : MeasureSession capA capP) :
    SessionAction → MeasureSession capA capP → Prop
  | externExit : Moves p s .externExit { s with onExternExit := true }
  | endSession : Moves p s .endSession { s with shouldEnd := true, exiter := .exiting }
  | exitPersistor : Moves p s .exitPersistor { s with exitPersistor := true, exiter := .returned }
  | poll {e : PollEvent} {pc : PollPc} {capacity : UInt64} :
      s.poll.step p s.shouldEnd e = some pc → e ≠ .sent → e ≠ .close →
      Moves p s (.poll e) { s with poll := pc, currentCapacityKbits := capacity }
  | pollPacket {m : PacketMeasure} {c : Chan PacketMeasure capA} : s.poll = .sendingPacket m →
      s.toAggregation.send m = .sent c →
      Moves p s (.poll .sent) { s with poll := .atLoop, toAggregation := c }
  | pollQueue {q : DbMeasureQueue} {c : Chan Sample capP} : s.poll = .sendingQueue q →
      s.toPersistence.send (.queue q) = .sent c →
      Moves p s (.poll .sent) { s with poll := .atLoop, toPersistence := c }
  | pollPacketPanic {m : PacketMeasure} : s.poll = .sendingPacket m →
      s.toAggregation.closed = true → Moves p s (.poll .sent) { s with crash := some .sendOnClosed }
  | pollQueuePanic {q : DbMeasureQueue} : s.poll = .sendingQueue q →
      s.toPersistence.closed = true → Moves p s (.poll .sent) { s with crash := some .sendOnClosed }
  | pollClose {c : Chan PacketMeasure capA} : s.poll = .closing → s.toAggregation.close = some c →
      Moves p s (.poll .close) { s with poll := .returned, toAggregation := c }
  | pollClosePanic : s.poll = .closing → s.toAggregation.closed = true →
      Moves p s (.poll .close) { s with crash := some .closeOfClosed }
  | aggregate {e : AggregatorEvent} {a : Aggregator} : s.aggregator.step p e = some a →
      (∀ m, e ≠ .recv m) → e ≠ .recvClosed → e ≠ .sent → e ≠ .close →
      Moves p s (.aggregate e) { s with aggregator := a }
  | recv {m : PacketMeasure} {a : Aggregator} {c : Chan PacketMeasure capA} :
      s.aggregator.step p (.recv m) = some a → s.toAggregation.recv = .value m c →
      Moves p s (.aggregate (.recv m)) { s with aggregator := a, toAggregation := c }
  | recvClosed {a : Aggregator} : s.aggregator.step p .recvClosed = some a →
      s.toAggregation.recv = .closed →
      Moves p s (.aggregate .recvClosed) { s with aggregator := a }
  | sample {w : Window} {sample : DbMeasurePacket} {rest : List AggregateMeasure}
      {c : Chan Sample capP} : s.aggregator.pc = .sending w sample rest →
      s.toPersistence.send (.packet sample) = .sent c →
      Moves p s (.aggregate .sent)
        { s with aggregator := { s.aggregator with pc := .emitting w rest }, toPersistence := c }
  | samplePanic {w : Window} {sample : DbMeasurePacket} {rest : List AggregateMeasure} :
      s.aggregator.pc = .sending w sample rest → s.toPersistence.closed = true →
      Moves p s (.aggregate .sent) { s with crash := some .sendOnClosed }
  | close {a : Aggregator} {c : Chan Sample capP} : s.aggregator.step p .close = some a →
      s.toPersistence.close = some c →
      Moves p s (.aggregate .close) { s with aggregator := a, toPersistence := c }
  | closePanic : s.aggregator.pc = .closing → s.toPersistence.closed = true →
      Moves p s (.aggregate .close) { s with crash := some .closeOfClosed }
  | persist {e : PersistorEvent} {r : Persistor} {c : Chan Sample capP} :
      s.persistor.Interacts s.exitPersistor s.toPersistence e r c →
      Moves p s (.persist e) { s with persistor := r, toPersistence := c }
  | handPacket {m : PacketMeasure} {a : Aggregator} : s.poll = .sendingPacket m →
      s.toAggregation.closed = false → s.aggregator.step p (.recv m) = some a →
      Moves p s .handPacket { s with poll := .atLoop, aggregator := a }
  | handQueue {q : DbMeasureQueue} {r : Persistor} : s.poll = .sendingQueue q →
      s.toPersistence.closed = false → s.persistor.step (.recv (.queue q)) = some r →
      Moves p s .handQueue { s with poll := .atLoop, persistor := r }
  | handSample {w : Window} {sample : DbMeasurePacket} {rest : List AggregateMeasure}
      {r : Persistor} : s.aggregator.pc = .sending w sample rest → s.toPersistence.closed = false →
      s.persistor.step (.recv (.packet sample)) = some r →
      Moves p s .handSample
        { s with aggregator := { s.aggregator with pc := .emitting w rest }, persistor := r }

theorem moves_of_stepPoll {p : SessionParams} {s t : MeasureSession capA capP} {e : PollEvent}
    (h : s.stepPoll p e = some t) : Moves p s (.poll e) t := by
  rw [stepPoll, Option.bind_eq_some_iff] at h
  obtain ⟨pc, hpc, h⟩ := h
  split at h
  -- a record, which may bring a new capacity
  · obtain rfl := Option.some.inj h
    exact .poll hpc (by simp) (by simp)
  -- the send of a packet
  · rename_i m hm
    obtain ⟨-, rfl⟩ := PollPc.step_sent hpc
    unfold sendPacket at h
    split at h
    · rename_i c hc
      obtain rfl := Option.some.inj h
      exact .pollPacket hm hc
    · cases h
    · rename_i hc
      obtain rfl := Option.some.inj h
      exact .pollPacketPanic hm (Chan.send_eq_panics.mp hc)
  -- the send of a queue sample
  · rename_i q hq
    obtain ⟨-, rfl⟩ := PollPc.step_sent hpc
    unfold sendQueue at h
    split at h
    · rename_i c hc
      obtain rfl := Option.some.inj h
      exact .pollQueue hq hc
    · cases h
    · rename_i hc
      obtain rfl := Option.some.inj h
      exact .pollQueuePanic hq (Chan.send_eq_panics.mp hc)
  -- the close of the channel of packets
  · obtain ⟨hcl, rfl⟩ := PollPc.step_close hpc
    split at h
    · rename_i c hc
      obtain rfl := Option.some.inj h
      exact .pollClose hcl hc
    · rename_i hc
      obtain rfl := Option.some.inj h
      exact .pollClosePanic hcl (Chan.close_eq_none.mp hc)
  -- what touches no channel; a `.sent` is one of the two sends
  · rename_i hclose hpacket hqueue
    obtain rfl := Option.some.inj h
    refine .poll hpc ?_ hclose
    rintro rfl
    obtain ⟨⟨m, hm⟩ | ⟨q, hq⟩, -⟩ := PollPc.step_sent hpc
    · exact hpacket m rfl hm
    · exact hqueue q rfl hq

theorem moves_of_stepAggregator {p : SessionParams} {s t : MeasureSession capA capP}
    {e : AggregatorEvent} (h : s.stepAggregator p e = some t) : Moves p s (.aggregate e) t := by
  rw [stepAggregator, Option.bind_eq_some_iff] at h
  obtain ⟨a, ha, h⟩ := h
  split at h
  -- a receive, of the packet the channel holds first
  · split at h
    · rename_i m _ m' c hrecv
      rw [Option.ite_none_right_eq_some] at h
      obtain ⟨rfl, h⟩ := h
      obtain rfl := Option.some.inj h
      exact .recv ha hrecv
    · cases h
  -- a receive from the closed channel
  · split at h
    · rename_i hrecv
      obtain rfl := Option.some.inj h
      exact .recvClosed ha hrecv
    · cases h
  -- the channel found empty
  · split at h
    · obtain rfl := Option.some.inj h
      exact .aggregate ha (by simp) (by simp) (by simp) (by simp)
    · cases h
  -- the flow persisted, at the capacity `poll` has stored
  · rw [Option.ite_none_right_eq_some] at h
    obtain ⟨-, h⟩ := h
    obtain rfl := Option.some.inj h
    exact .aggregate ha (by simp) (by simp) (by simp) (by simp)
  -- the send of a sample
  · rename_i w sample rest hpc
    obtain ⟨w', sample', rest', hpc', rfl⟩ := Aggregator.step_sent ha
    obtain ⟨rfl, rfl, rfl⟩ := AggregatorPc.sending.inj (hpc.symm.trans hpc')
    unfold sendSample at h
    split at h
    · rename_i c hc
      obtain rfl := Option.some.inj h
      exact .sample hpc hc
    · cases h
    · rename_i hc
      obtain rfl := Option.some.inj h
      exact .samplePanic hpc (Chan.send_eq_panics.mp hc)
  -- the close of the channel of samples
  · split at h
    · rename_i c hc
      obtain rfl := Option.some.inj h
      exact .close ha hc
    · rename_i hc
      obtain rfl := Option.some.inj h
      exact .closePanic (Aggregator.step_close ha) (Chan.close_eq_none.mp hc)
  -- what touches no channel
  · rename_i hrecv hclosed _ _ hclose hsent
    obtain rfl := Option.some.inj h
    refine .aggregate ha (fun m => hrecv m) hclosed ?_ hclose
    rintro rfl
    obtain ⟨w, sample, rest, hpc, -⟩ := Aggregator.step_sent ha
    exact hsent w sample rest rfl hpc

theorem moves_of_step {p : SessionParams} {s t : MeasureSession capA capP} {a : SessionAction}
    (h : s.step p a = some t) : s.dead = false ∧ Moves p s a t := by
  unfold step at h
  obtain ⟨hdead, h⟩ := Option.ite_none_left_eq_some.mp h
  refine ⟨by simpa using hdead, ?_⟩
  cases a with
  | externExit =>
    obtain ⟨-, h⟩ := Option.ite_none_left_eq_some.mp h
    obtain rfl := Option.some.inj h
    exact .externExit
  | endSession =>
    obtain ⟨-, h⟩ := Option.ite_none_right_eq_some.mp h
    obtain rfl := Option.some.inj h
    exact .endSession
  | exitPersistor =>
    obtain ⟨-, h⟩ := Option.ite_none_right_eq_some.mp h
    obtain rfl := Option.some.inj h
    exact .exitPersistor
  | poll e => exact moves_of_stepPoll h
  | aggregate e => exact moves_of_stepAggregator h
  | persist e =>
    obtain ⟨⟨r, c⟩, hr, rfl⟩ := Option.map_eq_some_iff.mp h
    exact .persist (Persistor.interacts_of_interact hr)
  | handPacket =>
    simp only [stepHandPacket] at h
    split at h
    · rename_i m hm
      rw [Option.ite_none_right_eq_some, Option.map_eq_some_iff] at h
      obtain ⟨⟨hopen, -⟩, a, ha, rfl⟩ := h
      exact .handPacket hm hopen ha
    · cases h
  | handQueue =>
    simp only [stepHandQueue] at h
    split at h
    · rename_i q hq
      rw [Option.ite_none_right_eq_some, Option.map_eq_some_iff] at h
      obtain ⟨⟨hopen, -⟩, r, hr, rfl⟩ := h
      exact .handQueue hq hopen hr
    · cases h
  | handSample =>
    simp only [stepHandSample] at h
    split at h
    · rename_i w sample rest hpc
      rw [Option.ite_none_right_eq_some, Option.bind_eq_some_iff] at h
      obtain ⟨⟨hopen, -⟩, a, ha, h⟩ := h
      obtain ⟨r, hr, rfl⟩ := Option.map_eq_some_iff.mp h
      obtain ⟨w', sample', rest', hpc', rfl⟩ := Aggregator.step_sent ha
      obtain ⟨rfl, rfl, rfl⟩ := AggregatorPc.sending.inj (hpc.symm.trans hpc')
      exact .handSample hpc hopen hr
    · cases h

/-! ### The invariant -/

/-- `poll` closes one channel when it returns, `aggregateMeasures` the other; and unless it has
failed, `aggregateMeasures` leaves only after `poll` has. -/
structure Owners (s : MeasureSession capA capP) : Prop where
  aggregation : s.toAggregation.closed = true ↔ s.poll = .returned
  persistence : s.toPersistence.closed = true ↔ s.aggregator.hasClosed = true
  left : s.aggregator.left = true → s.aggregator.failed = false → s.toAggregation.closed = true

theorem Owners.init : Owners (init capacity : MeasureSession capA capP) where
  aggregation := iff_of_false Bool.false_ne_true (by simp [MeasureSession.init])
  persistence := Iff.rfl
  left := fun h => by cases h

/-- A step of `aggregateMeasures` that leaves `chan_to_aggregation` open or closed as it is. -/
theorem Owners.aggregate {p : SessionParams} {s t : MeasureSession capA capP} {e : AggregatorEvent}
    (h : Owners s) (ha : s.aggregator.step p e = some t.aggregator) (hpoll : t.poll = s.poll)
    (hA : t.toAggregation.closed = s.toAggregation.closed)
    (hP : t.toPersistence.closed = true ↔ s.toPersistence.closed = true ∨ e = .close)
    (hrecv : e = .recvClosed → s.toAggregation.closed = true) : Owners t where
  aggregation := by rw [hA, hpoll, h.aggregation]
  persistence := by rw [hP, Aggregator.hasClosed_of_step ha, h.persistence]
  left := by
    intro hleft hfail
    rw [hA]
    -- it has left before, or meets the closed channel now; an error would show in `failed`
    rcases Aggregator.left_of_step ha hleft with ⟨hl, hf⟩ | he | ⟨hf, -⟩
    · exact h.left hl (hf ▸ hfail)
    · exact hrecv he
    · rw [hf] at hfail
      cases hfail

/-- A step of `poll` that closes nothing. -/
theorem Owners.poll {s t : MeasureSession capA capP} (h : Owners s) (hs : s.poll ≠ .returned)
    (ht : t.poll ≠ .returned) (hagg : t.aggregator = s.aggregator)
    (hA : t.toAggregation.closed = s.toAggregation.closed)
    (hP : t.toPersistence.closed = s.toPersistence.closed) : Owners t where
  aggregation := by rw [hA, h.aggregation]; exact iff_of_false hs ht
  persistence := by rw [hP, hagg, h.persistence]
  left := by rw [hA, hagg]; exact h.left

theorem Owners.step {p : SessionParams} {s t : MeasureSession capA capP} {a : SessionAction}
    (h : Owners s) (hs : s.step p a = some t) : Owners t := by
  cases (moves_of_step hs).2 with
  | externExit | endSession | exitPersistor => exact ⟨h.aggregation, h.persistence, h.left⟩
  | pollPacketPanic _ _ | pollQueuePanic _ _ | pollClosePanic _ _ | samplePanic _ _
  | closePanic _ _ => exact ⟨h.aggregation, h.persistence, h.left⟩
  | poll hpc _ hclose =>
    obtain ⟨h1, h2⟩ := PollPc.step_of_ne_close hpc hclose
    exact h.poll h1 h2 rfl rfl rfl
  | pollPacket hpc hc =>
    obtain ⟨hopen, -, -, hopen'⟩ := Chan.send_eq_sent hc
    exact h.poll (by simp [hpc]) (by simp) rfl (hopen'.trans hopen.symm) rfl
  | pollQueue hpc hc =>
    obtain ⟨hopen, -, -, hopen'⟩ := Chan.send_eq_sent hc
    exact h.poll (by simp [hpc]) (by simp) rfl rfl (hopen'.trans hopen.symm)
  | pollClose hpc hc =>
    obtain ⟨-, -, hclosed⟩ := Chan.close_eq_some hc
    exact ⟨iff_of_true hclosed rfl, h.persistence, fun _ _ => hclosed⟩
  | aggregate ha _ hrecv _ hclose =>
    exact h.aggregate ha rfl rfl (by simp [hclose]) (fun he => absurd he hrecv)
  | recv ha hc =>
    obtain ⟨-, hclosed⟩ := Chan.recv_eq_value hc
    exact h.aggregate ha rfl hclosed (by simp) (by simp)
  | recvClosed ha hc =>
    exact h.aggregate ha rfl rfl (by simp) (fun _ => (Chan.recv_eq_closed hc).2)
  | sample hpc hc =>
    obtain ⟨hopen, -, -, hopen'⟩ := Chan.send_eq_sent hc
    refine ⟨h.aggregation, ?_, fun hl => by cases hl⟩
    simp [hopen', Aggregator.hasClosed]
  | close ha hc =>
    obtain ⟨-, -, hclosed⟩ := Chan.close_eq_some hc
    exact h.aggregate ha rfl rfl (by simp [hclosed]) (by simp)
  | persist hr => exact ⟨h.aggregation, by rw [hr.closed_eq, h.persistence], h.left⟩
  | handPacket hpc hopen ha =>
    have hpoll := h.poll (t := { s with poll := .atLoop }) (by simp [hpc]) (by simp) rfl rfl rfl
    exact hpoll.aggregate ha rfl rfl (by simp) (by simp)
  | handQueue hpc hopen hr => exact h.poll (by simp [hpc]) (by simp) rfl rfl rfl
  | handSample hpc hopen hr =>
    refine ⟨h.aggregation, ?_, fun hl => by cases hl⟩
    simp [hopen, Aggregator.hasClosed]

/-! ### Sends on a closed channel -/

/-- `poll` sends a queue sample after `aggregateMeasures` has returned on an error. -/
def sendsAfterFailure (s : MeasureSession capA capP) (a : SessionAction) : Bool :=
  match a, s.poll with
  | .poll .sent, .sendingQueue _ => s.aggregator.failed && s.aggregator.hasClosed
  | _, _ => false

/-- A step panics on a channel exactly if it is such a send. -/
theorem crash_eq_none_iff {p : SessionParams} {s t : MeasureSession capA capP} {a : SessionAction}
    (h : Owners s) (hcrash : s.crash = none) (hs : s.step p a = some t) :
    t.crash = none ↔ sendsAfterFailure s a = false := by
  cases (moves_of_step hs).2 with
  -- who closes a channel does not send on it, nor close it again
  | pollPacketPanic hpc hclosed => simp [h.aggregation.mp hclosed] at hpc
  | pollClosePanic hpc hclosed => simp [h.aggregation.mp hclosed] at hpc
  | samplePanic hpc hclosed =>
    have := h.persistence.mp hclosed
    simp [Aggregator.hasClosed, hpc] at this
  | closePanic hpc hclosed =>
    have := h.persistence.mp hclosed
    simp [Aggregator.hasClosed, hpc] at this
  | pollQueuePanic hpc hclosed =>
    have hhas := h.persistence.mp hclosed
    -- without a failure the channel is closed only after `poll` has returned, but `poll` is sending
    have hfail : s.aggregator.failed = true := by
      by_contra hf
      have hret := h.aggregation.mp (h.left (Aggregator.left_of_hasClosed hhas) (by simpa using hf))
      simp [hpc] at hret
    simp [sendsAfterFailure, hpc, hhas, hfail]
  | pollQueue hpc hc =>
    have hhas : s.aggregator.hasClosed = false := by
      by_contra hh
      have hclosed := h.persistence.mpr (by simpa using hh)
      rw [(Chan.send_eq_sent hc).1] at hclosed
      cases hclosed
    simp [sendsAfterFailure, hpc, hhas, hcrash]
  | pollPacket hpc _ => simp [sendsAfterFailure, hpc, hcrash]
  | poll _ hsent _ => simp [sendsAfterFailure, hsent, hcrash]
  | _ => simp [sendsAfterFailure, hcrash]

theorem crash_of_not_dead {s : MeasureSession capA capP} (h : s.dead = false) : s.crash = none := by
  simp only [dead, Bool.or_eq_false_iff] at h
  simpa using h.1.1

/-- **No panic on a channel but by a queue sample after a failure.**  A run sends on no closed
channel and closes none twice if and only if `poll` sends no queue sample after `aggregateMeasures`
has returned on an error. -/
theorem no_crash_iff (capA capP : ℕ) (capacity : UInt64) (p : SessionParams)
    (acts : List SessionAction) (s : MeasureSession capA capP)
    (hrun : run (step p) (init capacity) acts = some s) :
    s.crash = none ↔
      StepsMeet (step p) (fun s a => sendsAfterFailure s a = false)
        (init capacity : MeasureSession capA capP) acts := by
  refine good_iff_stepsMeet (I := Owners) (J := fun _ => True) (G := fun s => s.crash = none)
    ?_ (fun _ _ _ _ _ => trivial) ?_ ?_ Owners.init trivial rfl hrun
  · intro s a s' hi hs
    exact hi.step hs
  · intro s a s' hi _ hg hs
    exact crash_eq_none_iff hi hg hs
  · intro s a s' _ _ hcrash hs
    -- a session that has crashed makes no step
    exact absurd (crash_of_not_dead (moves_of_step hs).1) hcrash

/-- A packet record of an IP packet from `10.0.0.0`. -/
def packetRecord : RecordArray :=
  ((Vector.replicate 64 0).setIfInBounds 8 7).setIfInBounds 28 10

/-- The packet it is decoded to, in a session without id. -/
def packetOfRecord : PacketMeasure :=
  { AggregateMeasure.packetOf 0 0 with
    sojournTimeMs := 0
    ipVersion := 0
    netFlow := ⟨0, 0, "10.0.0.0", 0, "0.0.0.0", 0, 0⟩ }

/-- A queue record. -/
def queueRecord : RecordArray := (Vector.replicate 64 0).setIfInBounds 8 6

/-- The actions by which `poll` reads a packet record and sends the packet. -/
def pollPacketActions : List SessionAction :=
  [.poll .loop, .poll (.record packetRecord), .poll .sent]

/-- The actions by which `poll` reads a queue record and sends the sample. -/
def pollQueueActions : List SessionAction :=
  [.poll .loop, .poll (.record queueRecord), .poll .check, .poll .sent]

/-- A queue sample is sent, with room for one. -/
theorem no_crash_iff_queue :
    ∃ s : MeasureSession 1 1,
      run (step ⟨0, 0, false⟩) (init 0) (.poll .opened :: pollQueueActions) = some s ∧
      (s.crash = none ↔ StepsMeet (step ⟨0, 0, false⟩) (fun s a => sendsAfterFailure s a = false)
        (init 0 : MeasureSession 1 1) (.poll .opened :: pollQueueActions)) :=
  ⟨_, rfl, no_crash_iff 1 1 0 ⟨0, 0, false⟩ (.poll .opened :: pollQueueActions) _ rfl⟩

/-- **A queue record after a failed `Persist` of a flow panics.**  Two packets open a window; the
flow of the second cannot be persisted, and `aggregateMeasures` closes `chan_to_persistence`. -/
theorem queue_after_failure_panics :
    (run (step ⟨0, 0, false⟩) (init 0 : MeasureSession 2 1)
      ((.poll .opened :: pollPacketActions) ++ pollPacketActions ++
        [.aggregate (.persistence true), .aggregate .tick, .aggregate (.recv packetOfRecord),
          .aggregate (.recv packetOfRecord), .aggregate .flowFailed, .aggregate .close]
        ++ pollQueueActions)).map (fun s => s.crash) = some (some .sendOnClosed) := by
  decide +kernel

end MeasureSession

end Jens
