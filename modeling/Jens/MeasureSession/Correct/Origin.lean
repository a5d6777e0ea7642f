import Jens.MeasureSession.Correct.Carried
import Jens.MeasureSession.Correct.Pipeline

/-!
# Where the samples come from

What `aggregateMeasures` does to the flow of a packet leaves its string as it is, so the string of
every aggregate, and of every sample made of one, is that of a packet received (`Known`).  With the
order of the packets this makes every sample that the persistor is handed one of a flow whose
packets are among the records (`handed_of_records`).
-/

namespace Jens

open Steps

/-- The string of the flow of a packet. -/
def PacketMeasure.idStr (m : PacketMeasure) : String := m.netFlow.measureIdStr

namespace Aggregator

/-- The strings of the packets received. -/
def ids (s : Aggregator) : List String := s.received.map fun r => r.message.idStr

/-- What the goroutine has in its variables comes from the packets received. -/
def Known (s : Aggregator) : Prop :=
  Carries (fun f => f.measureIdStr ∈ s.ids) (fun f => f.measureIdStr ∈ s.ids) s.pc

theorem ids_subset_of_step {p : SessionParams} {s t : Aggregator} {e : AggregatorEvent}
    (hs : s.step p e = some t) : s.ids ⊆ t.ids := by
  cases moves_of_step hs with
  | opened _ | read _ => simp [ids]
  | _ => exact fun _ h => h

theorem Known.step {p : SessionParams} {s t : Aggregator} {e : AggregatorEvent} (h : s.Known)
    (hs : s.step p e = some t) : t.Known := by
  have hsub := ids_subset_of_step hs
  have hmono : Carries (fun f => f.measureIdStr ∈ t.ids) (fun f => f.measureIdStr ∈ t.ids) s.pc :=
    Carries.mono h (fun _ hf => hsub hf) fun _ hf => hsub hf
  refine hmono.step (fun f id hf => hf) (fun f prio hf => hf) hs ?_ ?_
  · rintro m rfl
    cases moves_of_step hs <;> simp [ids, PacketMeasure.idStr]
  · intro w readMessages flowId cached capacity hpc he
    rw [hpc] at hmono
    exact hmono.message

end Aggregator

namespace MeasureSession

variable {capA capP : ℕ} {capacity : UInt64}

/-- The strings of the flows of the records read. -/
def idsRead (p : SessionParams) (acts : List SessionAction) : List String :=
  (acts.filterMap (SessionAction.packet p)).map PacketMeasure.idStr

theorem PacketsInOrder.ids_subset {p : SessionParams} {acts : List SessionAction}
    {s : MeasureSession capA capP} (h : PacketsInOrder p acts s) :
    s.aggregator.ids ⊆ idsRead p acts := by
  rw [idsRead, h, List.map_append, List.map_append, List.map_map, List.append_assoc]
  exact List.subset_append_left _ _

/-- The samples sent are of flows whose packets have been read. -/
structure FromRecords (p : SessionParams) (acts : List SessionAction) (sent : List Sample)
    (s : MeasureSession capA capP) : Prop where
  packets : PacketsInOrder p acts s
  known : s.aggregator.Known
  sent : ∀ q, .packet q ∈ sent → q.netFlowString ∈ idsRead p acts

theorem known_of_step {p : SessionParams} {s t : MeasureSession capA capP} {a : SessionAction}
    (h : s.aggregator.Known) (hs : s.step p a = some t) : t.aggregator.Known := by
  cases (moves_of_step hs).2 with
  | aggregate ha _ _ _ _ | recv ha _ | recvClosed ha _ | close ha _ | handPacket _ _ ha =>
    exact h.step ha
  | sample hpc _ | handSample hpc _ _ =>
    exact h.step (p := p) (e := .sent) (by simp [Aggregator.step, hpc])
  | _ => exact h

theorem FromRecords.step {p : SessionParams} {acts : List SessionAction} {sent : List Sample}
    {a : SessionAction} {s t : MeasureSession capA capP} (h : FromRecords p acts sent s)
    (hs : s.step p a = some t) :
    FromRecords p (acts ++ [a]) (sent ++ (s.sentSample a).toList) t where
  packets := h.packets.step hs
  known := known_of_step h.known hs
  sent q hq := by
    have hsub : idsRead p acts ⊆ idsRead p (acts ++ [a]) := by
      rw [idsRead, idsRead, List.filterMap_append, List.map_append]
      exact List.subset_append_left _ _
    rcases List.mem_append.mp hq with hq | hq
    · exact hsub (h.sent q hq)
    · rcases of_sentSample (Option.mem_toList.mp hq) with ⟨q', hq', -⟩ | ⟨w, q', rest, hq', hpc⟩
      · cases hq'
      obtain rfl := Sample.packet.inj hq'
      have hknown := h.known
      rw [Aggregator.Known, hpc] at hknown
      obtain ⟨⟨flow, hflow, hof⟩, -⟩ := hknown
      rw [hof.netFlowString]
      exact hsub (h.packets.ids_subset hflow)

/-- **No sample without a packet.**  In every run, every packet sample that the persistor is handed
is one of a flow of which a packet has been read from the kernel. -/
theorem handed_of_records (capA capP : ℕ) (capacity : UInt64) (p : SessionParams)
    (acts : List SessionAction) (s : MeasureSession capA capP)
    (hrun : run (step p) (init capacity) acts = some s) :
    ∀ q, .packet q ∈ s.persistor.handed →
      ∃ m ∈ acts.filterMap (SessionAction.packet p), q.netFlowString = m.netFlow.measureIdStr := by
  let sent := outputs (step p) sentSample (init capacity : MeasureSession capA capP) acts
  have hsent : SamplesInOrder sent s ∧ FromRecords p acts sent s := by
    refine trace_invariant_from (s := (init capacity : MeasureSession capA capP))
      (I := fun acts s => SamplesInOrder (outputs (step p) sentSample (init capacity) acts) s ∧
        FromRecords p acts (outputs (step p) sentSample (init capacity) acts) s) ?_ ?_ hrun
    · intro acts s a t hrun hi hs
      rw [outputs_concat sentSample hrun]
      exact ⟨hi.1.step hs, hi.2.step hs⟩
    · refine ⟨⟨rfl, fun x hx => absurd hx List.not_mem_nil⟩, ⟨?_, trivial, ?_⟩⟩
      · simp [PacketsInOrder, init, Chan.make, Aggregator.init, PollPc.packet]
      · exact fun q hq => absurd hq List.not_mem_nil
  intro q hq
  have hmem : .packet q ∈ sent := by
    rw [hsent.1.order]
    exact List.mem_append_left _ hq
  obtain ⟨m, hm, hid⟩ := List.mem_map.mp (hsent.2.sent q hmem)
  exact ⟨m, hm, hid.symm⟩

end MeasureSession

end Jens
