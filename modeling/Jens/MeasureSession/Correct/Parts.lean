import Jens.Datatypes.Correct.Measure
import Jens.MeasureSession.Correct.Pipeline

/-!
# What a step of a session does to each of its goroutines

What `poll` has in hand is of the session (`polled_of_run`).  `aggregateMeasures` takes a step of
its own or none (`aggregator_of_step`), the samples sent grow by the one that a step sends
(`samples_of_step`), and those that the persistor is done with grow by the returns of `persist`
(`settled_of_step`, `Persistor.settled_of_persisted`).
-/

namespace Jens

open Steps

/-! ### The persistor -/

namespace Persistor

/-- The samples for which `persist` has returned. -/
def settled (s : Persistor) : List Sample :=
  match s.pc with
  | .persisting => s.handed.dropLast
  | _ => s.handed

theorem settled_of_step {s t : Persistor} {e : PersistorEvent} (hs : s.step e = some t)
    (he : ∀ ok, e ≠ .persisted ok) : t.settled = s.settled := by
  cases moves_of_step hs with
  | @handed x hpc _ =>
    rw [settled, settled, hpc]
    exact List.dropLast_concat
  | persisted hpc _ => exact absurd rfl (he _)
  | commit hpc hnext | close hpc hnext =>
    rw [settled, settled, hpc]
    rcases hnext with rfl | rfl <;> rfl
  | _ hpc => simp [settled, hpc]

/-- When `persist` returns, it returns for the last sample; without a persistence it panics. -/
theorem settled_of_persisted {s t : Persistor} {ok : Bool} (hs : s.step (.persisted ok) = some t) :
    s.settled = s.handed.dropLast ∧ t.settled = s.handed ∧ (t.pc = .panicked ↔ s.db = false) := by
  cases moves_of_step hs with
  | @persisted _ pc hpc hnext =>
    have ht : settled { s with pc := pc } = s.handed := by
      rcases hnext with rfl | rfl | rfl <;> rfl
    have hpanic : pc = .panicked ↔ s.db = false := by
      simp only [step, hpc] at hs
      have hpc' := congrArg Persistor.pc (Option.some.inj hs)
      change _ = pc at hpc'
      rw [← hpc']
      cases s.db <;> cases ok <;> simp
    exact ⟨by rw [settled, hpc], ht, hpanic⟩

end Persistor

/-! ### What `poll` sends -/

namespace MeasureSession

variable {capA capP : ℕ} {capacity : UInt64}

/-- What `poll` has sent or sends is of the session. -/
structure Polled (p : SessionParams) (s : MeasureSession capA capP) : Prop where
  packets : ∀ m ∈ s.toAggregation.buf ++ s.poll.packet.toList, m.netFlow.sessionId = p.sessionId
  queues : ∀ q ∈ s.poll.queue, q.fkSessionTagId = p.sessionId

theorem sessionId_of_packet {p : SessionParams} {a : SessionAction} {m : PacketMeasure}
    (h : a.packet p = some m) : m.netFlow.sessionId = p.sessionId := by
  cases a with
  | poll e =>
    cases e with
    | record r =>
      change (PollPc.onRecord p r).packet = some m at h
      unfold PollPc.onRecord at h
      split_ifs at h
      · split at h
        · rename_i m' hm
          obtain rfl := Option.some.inj h
          exact (RecordArray.netFlow_of_asPacketMeasure hm).2.1
        · cases h
      · cases h
      · cases h
    | _ => cases h
  | _ => cases h

theorem fkSessionTagId_of_queue {p : SessionParams} {e : PollEvent} {q : DbMeasureQueue}
    (h : e.queue p = some q) : q.fkSessionTagId = p.sessionId := by
  cases e with
  | record r =>
    change (PollPc.onRecord p r).queue = some q at h
    unfold PollPc.onRecord at h
    split_ifs at h
    · split at h <;> cases h
    · obtain rfl := Option.some.inj h
      rfl
    · cases h
  | _ => cases h

/-- The queue sample that `poll` has in hand. -/
theorem queue_of_step {p : SessionParams} {s t : MeasureSession capA capP} {a : SessionAction}
    (h : ∀ q ∈ s.poll.queue, q.fkSessionTagId = p.sessionId) (hs : s.step p a = some t) :
    ∀ q ∈ t.poll.queue, q.fkSessionTagId = p.sessionId := by
  cases (moves_of_step hs).2 with
  | @poll e pc capacity hpc he _ =>
    rcases PollPc.queue_of_step hpc he with heq | ⟨rfl, -, -⟩
    · intro q hq
      have hmem : q ∈ s.poll.queue.toList ++ (e.queue p).toList := by
        rw [← heq]
        exact Option.mem_toList.mpr hq
      rcases List.mem_append.mp hmem with hq | hq
      · exact h q (Option.mem_toList.mp hq)
      · exact fkSessionTagId_of_queue (Option.mem_toList.mp hq)
    · intro q hq
      cases hq
  | pollPacket _ _ | pollQueue _ _ | pollClose _ _ | handPacket _ _ _ | handQueue _ _ _ =>
    intro q hq
    cases hq
  | _ => exact h

theorem polled_of_run {p : SessionParams} {acts : List SessionAction} {s : MeasureSession capA capP}
    (hrun : run (step p) (init capacity) acts = some s) : Polled p s := by
  have hpackets : PacketsInOrder p acts s :=
    run_trace_invariant (I := PacketsInOrder p) (fun _ _ _ _ h hs => h.step hs)
      (by simp [PacketsInOrder, init, Chan.make, Aggregator.init, PollPc.packet]) hrun
  have hqueues : ∀ q ∈ s.poll.queue, q.fkSessionTagId = p.sessionId := by
    refine run_invariant (I := fun s => ∀ q ∈ s.poll.queue, q.fkSessionTagId = p.sessionId)
      (fun _ _ _ h hs => queue_of_step h hs) ?_ hrun
    intro q hq
    cases hq
  refine ⟨fun m hm => ?_, hqueues⟩
  have hmem : m ∈ acts.filterMap (SessionAction.packet p) := by
    rw [hpackets, List.append_assoc]
    exact List.mem_append_right _ hm
  obtain ⟨a, -, ha⟩ := List.mem_filterMap.mp hmem
  exact sessionId_of_packet ha

/-- What a step does to `aggregateMeasures`. -/
theorem aggregator_of_step {p : SessionParams} {s t : MeasureSession capA capP} {a : SessionAction}
    (hs : s.step p a = some t) :
    t.aggregator = s.aggregator ∨ ∃ e, s.aggregator.step p e = some t.aggregator ∧
      (∀ m, e = .recv m → m ∈ s.toAggregation.buf ++ s.poll.packet.toList) ∧
      (a = .aggregate e ∨ (∃ m, e = .recv m) ∨ e = .sent) := by
  cases (moves_of_step hs).2 with
  | @aggregate e b ha hrecv _ _ _ =>
    exact .inr ⟨e, ha, fun m hm => absurd hm (hrecv m), .inl rfl⟩
  | @recv m b c ha hc =>
    obtain ⟨hbuf, -⟩ := Chan.recv_eq_value hc
    refine .inr ⟨.recv m, ha, ?_, .inl rfl⟩
    rintro _ ⟨⟩
    rw [hbuf]
    exact List.mem_append_left _ List.mem_cons_self
  | recvClosed ha _ => exact .inr ⟨.recvClosed, ha, by simp, .inl rfl⟩
  | @sample w q rest c hpc _ =>
    exact .inr ⟨.sent, by simp [Aggregator.step, hpc], by simp, .inl rfl⟩
  | close ha _ => exact .inr ⟨.close, ha, by simp, .inl rfl⟩
  | @handPacket m b hpc _ ha =>
    refine .inr ⟨.recv m, ha, ?_, .inr (.inl ⟨m, rfl⟩)⟩
    rintro _ ⟨⟩
    rw [hpc]
    exact List.mem_append_right _ (List.mem_singleton_self _)
  | @handSample w q rest r hpc _ _ =>
    exact .inr ⟨.sent, by simp [Aggregator.step, hpc], by simp, .inr (.inr rfl)⟩
  | _ => exact .inl rfl

/-- What has been sent to the persistor. -/
def samples (s : MeasureSession capA capP) : List Sample :=
  s.persistor.handed ++ s.toPersistence.buf

theorem samples_of_step {p : SessionParams} {s t : MeasureSession capA capP} {a : SessionAction}
    (hm : ∀ x ∈ s.samples, x.isMeasure = true) (hs : s.step p a = some t) :
    t.samples = s.samples ++ (s.sentSample a).toList :=
  (SamplesInOrder.step ⟨rfl, hm⟩ hs).order.symm

/-! ### What the persistor is done with -/

/-- What a step does to the persistor. -/
theorem persistor_of_step {p : SessionParams} {s t : MeasureSession capA capP}
    {a : SessionAction} (hs : s.step p a = some t) :
    (t.persistor = s.persistor ∧ ∀ e, a ≠ .persist e) ∨
      ∃ e, s.persistor.step e = some t.persistor ∧
        (a = .persist e ∨ (∃ x, e = .recv x) ∧ ∀ e, a ≠ .persist e) := by
  cases (moves_of_step hs).2 with
  | persist hr =>
    cases hr with
    | exit _ hp | recv _ _ hp | recvClosed _ _ hp | other _ _ _ hp => exact .inr ⟨_, hp, .inl rfl⟩
  | handQueue _ _ hp | handSample _ _ hp => exact .inr ⟨_, hp, .inr ⟨⟨_, rfl⟩, by simp⟩⟩
  | _ => exact .inl ⟨rfl, by simp⟩

/-- No sample is settled but by the return of `persist`. -/
theorem settled_of_step {p : SessionParams} {s t : MeasureSession capA capP}
    {a : SessionAction} (hs : s.step p a = some t) (ha : ∀ ok, a ≠ .persist (.persisted ok)) :
    t.persistor.settled = s.persistor.settled ∧
      (t.persistor.pc ≠ .panicked → s.persistor.pc ≠ .panicked) := by
  rcases persistor_of_step hs with ⟨heq, -⟩ | ⟨e, he, hact⟩
  · rw [heq]
    exact ⟨rfl, id⟩
  · refine ⟨Persistor.settled_of_step he ?_, fun _ => Persistor.not_panicked_of_step he⟩
    rintro ok rfl
    rcases hact with hact | ⟨⟨x, hx⟩, -⟩
    · exact ha ok hact
    · cases hx

theorem persisted_of_step {p : SessionParams} {s t : MeasureSession capA capP}
    {ok : Bool} (hs : s.step p (.persist (.persisted ok)) = some t) :
    s.persistor.step (.persisted ok) = some t.persistor := by
  rcases persistor_of_step hs with ⟨-, hne⟩ | ⟨e, he, hact | ⟨-, hne⟩⟩
  · exact absurd rfl (hne _)
  · cases hact
    exact he
  · exact absurd rfl (hne _)

end MeasureSession

end Jens
