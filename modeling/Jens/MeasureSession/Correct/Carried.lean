import Jens.MeasureSession.Correct.Aggregator

/-!
# The flows that go from the packets into the samples

`aggregateMeasures` takes the flow of a packet into the aggregate it opens for it, and from there
the id and the string of the flow go into the sample.  On the way `Persist` writes the id into the
flow, and later priorities.  So what holds of the flows of all packets (`M`, whatever the id is) and
of each flow once it is persisted (`F`, whatever the priority is) holds of the flows of all
aggregates, and every sample is one of such a flow (`Carries.step`).
-/

namespace Jens

/-- The sample has the id and the string of the flow. -/
structure DbMeasurePacket.Of (q : DbMeasurePacket) (flow : DbNetworkFlow) : Prop where
  fkFlowId : q.fkFlowId = flow.flowId
  netFlowString : q.netFlowString = flow.measureIdStr

namespace AggregateMeasure

theorem of_toDbMeasurePacket {s : AggregateMeasure} {time : UInt64} {q : DbMeasurePacket}
    (h : s.toDbMeasurePacket time = some q) : q.Of s.netFlow := by
  simp only [toDbMeasurePacket, Option.bind_eq_some_iff, Option.map_eq_some_iff] at h
  obtain ⟨_, -, _, -, _, -, rfl⟩ := h
  exact ⟨rfl, rfl⟩

end AggregateMeasure

/-! ### The aggregates of a window -/

/-- `M` holds of the flow of the packet in hand, and `F` of those of the aggregates. -/
structure Window.Carries (M F : DbNetworkFlow → Prop) (w : Window) : Prop where
  message : M w.message.netFlow
  measures : ∀ k a, w.mapMeasures.lookup k = some a → F a.netFlow

section Carries

variable {M F : DbNetworkFlow → Prop}

namespace Window.Carries

variable {w : Window}

theorem mono {M' F' : DbNetworkFlow → Prop} (h : Carries M F w) (hM : ∀ f, M f → M' f)
    (hF : ∀ f, F f → F' f) : Carries M' F' w :=
  ⟨hM _ h.message, fun k a ha => hF _ (h.measures k a ha)⟩

theorem opened {m : PacketMeasure} (h : M m.netFlow) : Carries M F (.opened m) :=
  ⟨h, fun k a ha => by cases ha⟩

theorem insert (h : Carries M F w) {k : String} {a : AggregateMeasure} (ha : F a.netFlow)
    {message : PacketMeasure} (hm : M message.netFlow) :
    Carries M F { w with message := message, mapMeasures := w.mapMeasures.insert k a } := by
  refine ⟨hm, fun k' a' ha' => ?_⟩
  by_cases hk : k' = k
  · subst hk
    rw [AList.lookup_insert] at ha'
    exact Option.some.inj ha' ▸ ha
  · rw [AList.lookup_insert_ne hk] at ha'
    exact h.measures k' a' ha'

theorem persisted (h : Carries M F w) (hM : ∀ f id, M f → M { f with flowId := id })
    (hF : ∀ f prio, F f → F { f with prio := prio }) (flowId : ℤ) (cached : Bool) :
    Carries M F (w.persisted flowId cached) := by
  have hm : M { w.message.netFlow with flowId := flowId } := hM _ _ h.message
  unfold Window.persisted
  cases hl : w.mapMeasures.lookup w.key with
  | none => exact ⟨hm, h.measures⟩
  | some a =>
    cases cached with
    | false => exact ⟨hm, h.measures⟩
    | true =>
      exact h.insert (a := { a with netFlow := { a.netFlow with prio := w.message.netFlow.prio } })
        (hF _ _ (h.measures _ _ hl)) hm

/-- The packet in hand may open an aggregate with its flow. -/
theorem addMessage (h : Carries M F w) (hm : F w.message.netFlow) (capacity : UInt64) :
    Carries M F (w.addMessage capacity) := by
  refine h.insert ?_ h.message
  rw [AggregateMeasure.add_netFlow]
  cases hl : w.mapMeasures.lookup w.key with
  | none => exact hm
  | some a => exact h.measures _ _ hl

/-- The aggregates that are visited. -/
theorem rest (h : Carries M F w) : ∀ a ∈ w.mapMeasures.entries.map Sigma.snd, F a.netFlow := by
  intro a ha
  obtain ⟨e, he, rfl⟩ := List.mem_map.mp ha
  exact h.measures e.1 e.2 (AList.mem_lookup_iff.mpr he)

end Window.Carries

namespace Aggregator

/-! ### The goroutine -/

/-- What the goroutine has in its variables. -/
def Carries (M F : DbNetworkFlow → Prop) : AggregatorPc → Prop
  | .reading w | .persisting w _ => w.Carries M F
  | .emitting _ rest => ∀ a ∈ rest, F a.netFlow
  | .sending _ sample rest => (∃ flow, F flow ∧ sample.Of flow) ∧ ∀ a ∈ rest, F a.netFlow
  | _ => True

theorem Carries.mono {M' F' : DbNetworkFlow → Prop} {pc : AggregatorPc} (h : Carries M F pc)
    (hM : ∀ f, M f → M' f) (hF : ∀ f, F f → F' f) : Carries M' F' pc := by
  cases pc with
  | reading w | persisting w _ => exact Window.Carries.mono h hM hF
  | emitting w rest => exact fun a ha => hF _ (h a ha)
  | sending w sample rest =>
    obtain ⟨⟨flow, hflow, hof⟩, hrest⟩ := h
    exact ⟨⟨flow, hF _ hflow, hof⟩, fun a ha => hF _ (hrest a ha)⟩
  | _ => trivial

theorem Carries.onNext (p : SessionParams) (w : Window) {a : AggregateMeasure}
    {rest : List AggregateMeasure} (ha : F a.netFlow) (hrest : ∀ a ∈ rest, F a.netFlow) :
    Carries M F (onNext p w a rest) := by
  unfold Aggregator.onNext
  split_ifs
  · exact hrest
  · split
    · trivial
    · rename_i sample hsample
      split_ifs
      · exact hrest
      · exact ⟨⟨_, ha, AggregateMeasure.of_toDbMeasurePacket hsample⟩, hrest⟩

/-- One step, with what it takes from outside: the packet received, and the id that a flow gets. -/
theorem Carries.step {p : SessionParams} {s t : Aggregator} {e : AggregatorEvent}
    (h : Carries M F s.pc) (hM : ∀ f id, M f → M { f with flowId := id })
    (hF : ∀ f prio, F f → F { f with prio := prio }) (hs : s.step p e = some t)
    (hrecv : ∀ m, e = .recv m → M m.netFlow)
    (hadd : ∀ w readMessages flowId cached capacity, s.pc = .persisting w readMessages →
      e = .flowPersisted flowId cached capacity → F { w.message.netFlow with flowId := flowId }) :
    Carries M F t.pc := by
  cases moves_of_step hs with
  | opened hpc => exact Window.Carries.opened (hrecv _ rfl)
  | read hpc =>
    rw [hpc] at h
    exact ⟨hrecv _ rfl, h.measures⟩
  | empty hpc =>
    rw [hpc] at h
    exact Window.Carries.rest h
  | @flowPersisted w readMessages cached flowId capacity hpc =>
    have hflow := hadd w readMessages flowId cached capacity hpc rfl
    rw [hpc] at h
    have hw := (Window.Carries.persisted h hM hF flowId cached).addMessage hflow capacity
    cases readMessages with
    | true => exact hw
    | false => exact hw.rest
  | @next w rest i a hpc ha =>
    rw [hpc] at h
    apply Carries.onNext p w (h a (List.mem_of_getElem? ha))
    intro b hb
    exact h b (List.mem_of_mem_eraseIdx hb)
  | sent hpc =>
    rw [hpc] at h
    exact h.2
  | _ => trivial

end Aggregator

end Carries

/-- Once it has left, it only goes on leaving. -/
theorem Aggregator.not_left_of_step {p : SessionParams} {s t : Aggregator} {e : AggregatorEvent}
    (hs : s.step p e = some t) (ht : t.left = false) : s.left = false := by
  cases moves_of_step hs with
  | close _ | wgDone _ => cases ht
  | _ =>
    unfold left
    simp_all

end Jens
