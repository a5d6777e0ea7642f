import Jens.MeasureSession.Correct.Carried
import Jens.MeasureSession.Correct.Parts
import Jens.Psql.Correct.FlowIds
import Jens.Psql.Stored

/-!
# The rows of a measure session

A flow gets its id from `persistFlow` and takes it through the aggregate into the sample
(`Linked`), so every sample that the persistor is handed names the row of its flow, in its session.
The rows that are made of the samples are in their order, at most one for each; without failing
statements only the samples without a capacity are left out (`Rows`).  `stored_of_run` has both.
-/

namespace Jens

open Steps

/-! ### The rows of the samples -/

/-- A row is made of it, unless the statement fails. -/
def Sample.isStored : Sample → Bool
  | .packet q => q.fkFlowId ≠ -1 ∧ q.capacitykbits ≠ 0
  | .queue _ => true
  | .other => false

/-- With the rows of the samples behind those that are there. -/
def SessionStore.add (s : SessionStore) (xs : List Sample) : SessionStore :=
  { s with
    packets := s.packets ++ xs.filterMap Sample.asPacket
    queues := s.queues ++ xs.filterMap Sample.asQueue }

theorem SessionStore.persist_eq (answers : StoreAnswers) (s : SessionStore) (x : Sample) :
    (s.persist answers x).1 = if x.isStored ∧ answers.exec = none then s.add [x] else s := by
  cases x with
  | packet q =>
    show (s.persistMeasurePacket answers q).1 = _
    unfold persistMeasurePacket
    by_cases hfk : q.fkFlowId = -1
    · simp [Sample.isStored, hfk]
    · by_cases hcap : q.capacitykbits = 0
      · simp [Sample.isStored, hfk, hcap]
      · cases hexec : answers.exec with
        | some err => simp [hfk, hcap]
        | none => simp [Sample.isStored, hfk, hcap, add, Sample.asPacket, Sample.asQueue]
  | queue q =>
    show (s.persistMeasurequeue answers q).1 = _
    unfold persistMeasurequeue
    cases hexec : answers.exec with
    | some err => simp
    | none => simp [Sample.isStored, add, Sample.asPacket, Sample.asQueue]
  | other => rfl

/-! ### The session and the tables -/

/-- The sample names a flow of the session, or the session. -/
def Sample.Links (t : FlowTable) (sessionId : ℤ) : Sample → Prop
  | .packet q => t.Names sessionId q.fkFlowId q.netFlowString
  | .queue q => q.fkSessionTagId = sessionId
  | .other => False

theorem Sample.Links.isMeasure {t : FlowTable} {sessionId : ℤ} {x : Sample}
    (h : x.Links t sessionId) : x.isMeasure = true := by
  cases x with
  | other => cases h
  | _ => rfl

theorem Sample.Links.mono {t u : FlowTable} {sessionId : ℤ} {x : Sample} (h : x.Links t sessionId)
    (htu : t.Changes sessionId u) : x.Links u sessionId := by
  cases x with
  | packet q => exact htu.names h
  | _ => exact h

namespace StoredSession

variable {capA capP : ℕ} {capacity : UInt64} {p : SessionParams} {s t : StoredSession capA capP}
  {a : SessionAction × StoreAnswers}

/-- What a step does to the tables. -/
inductive Stores (s : StoredSession capA capP) (answers : StoreAnswers) :
    SessionAction → SessionStore → Prop
  | flowPersisted {w : Window} {readMessages cached : Bool} {capacity : UInt64} {flowId : ℤ}
      {flows : FlowStore} {flow : DbNetworkFlow} :
      s.session.aggregator.pc = .persisting w readMessages →
      s.store.flows.persistFlow answers.toFlowAnswers w.message.netFlow = (flows, flow, none) →
      flow.flowId = flowId →
      Stores s answers (.aggregate (.flowPersisted flowId cached capacity))
        { s.store with flows := flows }
  | flowFailed {w : Window} {readMessages : Bool} {flows : FlowStore} {flow : DbNetworkFlow}
      {err : String} : s.session.aggregator.pc = .persisting w readMessages →
      s.store.flows.persistFlow answers.toFlowAnswers w.message.netFlow = (flows, flow, some err) →
      Stores s answers (.aggregate .flowFailed) { s.store with flows := flows }
  | persisted {ok : Bool} {sample : Sample} : s.session.persistor.db = true →
      s.session.persistor.handed.getLast? = some sample →
      Stores s answers (.persist (.persisted ok)) (s.store.persist answers sample).1
  | noPersistence {ok : Bool} : s.session.persistor.db = false →
      Stores s answers (.persist (.persisted ok)) s.store
  | other {a : SessionAction} :
      (∀ flowId cached capacity, a ≠ .aggregate (.flowPersisted flowId cached capacity)) →
      a ≠ .aggregate .flowFailed → (∀ ok, a ≠ .persist (.persisted ok)) → Stores s answers a s.store

theorem stores_of_answer {answers : StoreAnswers} {action : SessionAction} {store : SessionStore}
    (h : s.store.answer answers s.session action = some store) : Stores s answers action store := by
  unfold SessionStore.answer at h
  split at h
  · split at h
    · rename_i hpc
      split at h
      · rename_i hpersist
        obtain ⟨hid, hstore⟩ := Option.ite_none_right_eq_some.mp h
        obtain rfl := Option.some.inj hstore
        exact .flowPersisted hpc hpersist hid
      · cases h
    · cases h
  · split at h
    · rename_i hpc
      split at h
      · rename_i hpersist
        obtain rfl := Option.some.inj h
        exact .flowFailed hpc hpersist
      · cases h
    · cases h
  · by_cases hdb : s.session.persistor.db = false
    · rw [if_pos hdb] at h
      obtain rfl := Option.some.inj h
      exact .noPersistence hdb
    · rw [if_neg hdb] at h
      rw [Bool.not_eq_false] at hdb
      split at h
      · rename_i sample hlast
        have hstore : (s.store.persist answers sample).1 = store := by
          split at h
          · rename_i hpersist
            rw [hpersist]
            exact Option.some.inj h
          · rename_i hpersist
            rw [hpersist]
            split at h
            · cases h
            · exact Option.some.inj h
        rw [← hstore]
        exact .persisted hdb hlast
      · cases h
  · rename_i h1 h2 h3
    obtain rfl := Option.some.inj h
    exact .other (fun _ _ _ he => h1 _ _ _ he) h2 (fun _ he => h3 _ he)

theorem step_cases (h : s.step p a = some t) :
    s.session.step p a.1 = some t.session ∧ Stores s a.2 a.1 t.store := by
  obtain ⟨session, hsession, h⟩ := Option.bind_eq_some_iff.mp h
  obtain ⟨store, hstore, rfl⟩ := Option.map_eq_some_iff.mp h
  exact ⟨hsession, stores_of_answer hstore⟩

/-- The tables but for `network_flow` have nothing to do with the cache. -/
theorem flows_persist {answers : StoreAnswers} {store : SessionStore} {x : Sample} :
    (store.persist answers x).1.flows = store.flows := by
  cases x with
  | packet q =>
    show (store.persistMeasurePacket answers q).1.flows = store.flows
    unfold SessionStore.persistMeasurePacket
    split_ifs
    · rfl
    · rfl
    · split <;> rfl
  | queue q =>
    show (store.persistMeasurequeue answers q).1.flows = store.flows
    unfold SessionStore.persistMeasurequeue
    split <;> rfl
  | other => rfl

theorem session_of_run {acts : List (SessionAction × StoreAnswers)}
    (h : run (step p) s acts = some t) :
    run (MeasureSession.step p) s.session (acts.map Prod.fst) = some t.session := by
  induction acts generalizing s with
  | nil => exact congrArg (fun s => some (session s)) (Option.some.inj h)
  | cons a acts ih =>
    obtain ⟨u, hu, hrun⟩ := run_cons_eq_some.mp h
    exact run_cons_eq_some.mpr ⟨u.session, (step_cases hu).1, ih hrun⟩

/-- The invariant: as long as `aggregateMeasures` has not left, the cache has the ids of rows, and
so have the aggregates and the samples. -/
structure Linked (p : SessionParams) (s : StoredSession capA capP) : Prop where
  serial : s.store.flows.table.Serial
  cache : s.session.aggregator.left = false → s.store.flows.Linked p.sessionId
  carries : Aggregator.Carries (fun f => f.sessionId = p.sessionId)
    (fun f => s.store.flows.table.Names p.sessionId f.flowId f.measureIdStr) s.session.aggregator.pc
  samples : ∀ x ∈ s.session.samples, x.Links s.store.flows.table p.sessionId

/-- The flow that is persisted gets the id of its row, and the cache stays right. -/
theorem Linked.persisted (h : Linked p s) {w : Window} {readMessages : Bool} {flows : FlowStore}
    {flow : DbNetworkFlow} {answers : FlowAnswers}
    (hpc : s.session.aggregator.pc = .persisting w readMessages)
    (hpersist : s.store.flows.persistFlow answers w.message.netFlow = (flows, flow, none)) :
    flows.Linked p.sessionId ∧
      flows.table.Names p.sessionId flow.flowId w.message.netFlow.measureIdStr := by
  have hcarries := h.carries
  rw [hpc] at hcarries
  have hsession : w.message.netFlow.sessionId = p.sessionId := hcarries.message
  have hcache := h.cache (by rw [Aggregator.left, hpc])
  rw [← hsession] at hcache ⊢
  have herr : (s.store.flows.persistFlow answers w.message.netFlow).2.2 = none := by rw [hpersist]
  have hlinked := hcache.persistFlow herr
  rwa [hpersist] at hlinked

/-- The statements are for flows of the session. -/
theorem Linked.changes (h : Linked p s) {answers : StoreAnswers} {action : SessionAction}
    {store : SessionStore} (hstores : Stores s answers action store) :
    s.store.flows.table.Changes p.sessionId store.flows.table := by
  have hcarries := h.carries
  cases hstores with
  | @flowPersisted w _ _ _ _ _ _ hpc hpersist _ | @flowFailed w _ _ _ _ hpc hpersist =>
    rw [hpc] at hcarries
    have hsession : w.message.netFlow.sessionId = p.sessionId := hcarries.message
    have hchanges := FlowStore.changes_of_persistFlow s.store.flows answers.toFlowAnswers
      w.message.netFlow
    rwa [hpersist, hsession] at hchanges
  | persisted _ _ =>
    rw [flows_persist]
    exact .keep
  | _ => exact .keep

theorem Linked.cache_of_step (h : Linked p s) (hs : s.step p a = some t)
    (hleft : t.session.aggregator.left = false) : t.store.flows.Linked p.sessionId := by
  obtain ⟨hsession, hstores⟩ := step_cases hs
  obtain ⟨action, answers⟩ := a
  obtain ⟨session', store'⟩ := t
  have hkeep : s.session.aggregator.left = false := by
    rcases MeasureSession.aggregator_of_step hsession with heq | ⟨e, he, -, -⟩
    · rw [← heq]
      exact hleft
    · exact Aggregator.not_left_of_step he hleft
  cases hstores with
  | flowPersisted hpc hpersist _ => exact (h.persisted hpc hpersist).1
  | flowFailed _ _ =>
    -- after the error `aggregateMeasures` leaves
    cases (MeasureSession.moves_of_step hsession).2 with
    | aggregate ha _ _ _ _ => cases Aggregator.moves_of_step ha with | flowFailed _ => cases hleft
  | persisted _ _ =>
    rw [flows_persist]
    exact h.cache hkeep
  | _ => exact h.cache hkeep

theorem Linked.carries_of_step (h : Linked p s) (hpolled : s.session.Polled p)
    (hs : s.step p a = some t) :
    Aggregator.Carries (fun f => f.sessionId = p.sessionId)
      (fun f => t.store.flows.table.Names p.sessionId f.flowId f.measureIdStr)
      t.session.aggregator.pc := by
  obtain ⟨hsession, hstores⟩ := step_cases hs
  have hcarries := h.carries.mono (fun _ hf => hf) fun _ hf => (h.changes hstores).names hf
  rcases MeasureSession.aggregator_of_step hsession with heq | ⟨e, he, hrecv, hact⟩
  · rwa [heq]
  · refine hcarries.step (fun f id hf => hf) (fun f prio hf => hf) he ?_ ?_
    · exact fun m hm => hpolled.packets m (hrecv m hm)
    · rintro w readMessages flowId cached capacity hpc rfl
      obtain ⟨action, answers⟩ := a
      obtain ⟨session', store'⟩ := t
      rcases hact with rfl | ⟨m, hm⟩ | hm
      · cases hstores with
        | flowPersisted hpc' hpersist hid =>
          obtain ⟨rfl, -⟩ := AggregatorPc.persisting.inj (hpc.symm.trans hpc')
          rw [← hid]
          exact (h.persisted hpc hpersist).2
        | other hne _ _ => exact absurd rfl (hne flowId cached capacity)
      · cases hm
      · cases hm

theorem Linked.samples_of_step (h : Linked p s) (hpolled : s.session.Polled p)
    (hs : s.step p a = some t) :
    ∀ x ∈ t.session.samples, x.Links t.store.flows.table p.sessionId := by
  obtain ⟨hsession, hstores⟩ := step_cases hs
  intro x hx
  suffices hold : x.Links s.store.flows.table p.sessionId from hold.mono (h.changes hstores)
  rw [MeasureSession.samples_of_step (fun x hx => (h.samples x hx).isMeasure) hsession,
    List.mem_append, Option.mem_toList] at hx
  rcases hx with hx | hx
  · exact h.samples x hx
  · rcases MeasureSession.of_sentSample hx with ⟨q, rfl, hpoll⟩ | ⟨w, q, rest, rfl, hpc⟩
    · exact hpolled.queues q (by rw [hpoll]; rfl)
    · have hcarries := h.carries
      rw [hpc] at hcarries
      obtain ⟨⟨flow, hnames, hof⟩, -⟩ := hcarries
      rw [Sample.Links, hof.fkFlowId, hof.netFlowString]
      exact hnames

theorem Linked.step (h : Linked p s) (hpolled : s.session.Polled p) (hs : s.step p a = some t) :
    Linked p t where
  serial := (h.changes (step_cases hs).2).serial h.serial
  cache := h.cache_of_step hs
  carries := h.carries_of_step hpolled hs
  samples := h.samples_of_step hpolled hs

/-- The rows are those there were, then rows of the samples for which `persist` has returned, in
their order; of all that are stored at all, if no statement fails. -/
def Rows (store₀ : SessionStore) (acts : List (SessionAction × StoreAnswers))
    (s : StoredSession capA capP) : Prop :=
  ∃ xs : List Sample, xs.Sublist s.session.persistor.settled ∧
    s.store.packets = (store₀.add xs).packets ∧ s.store.queues = (store₀.add xs).queues ∧
    ((∀ a ∈ acts, a.2.exec = none) → s.session.persistor.pc ≠ .panicked →
      xs = s.session.persistor.settled.filter Sample.isStored)

/-- A step in which `persist` does not return. -/
theorem Rows.keep {store₀ : SessionStore} {acts : List (SessionAction × StoreAnswers)}
    (h : Rows store₀ acts s) (hsession : s.session.step p a.1 = some t.session)
    (ha : ∀ ok, a.1 ≠ .persist (.persisted ok)) (hpackets : t.store.packets = s.store.packets)
    (hqueues : t.store.queues = s.store.queues) : Rows store₀ (acts ++ [a]) t := by
  obtain ⟨xs, hsub, hp, hq, hall⟩ := h
  obtain ⟨hsettled, hpanic⟩ := MeasureSession.settled_of_step hsession ha
  refine ⟨xs, hsettled ▸ hsub, hpackets.trans hp, hqueues.trans hq, fun hexec hpc => ?_⟩
  rw [hsettled]
  exact hall (fun b hb => hexec b (List.mem_append_left _ hb)) (hpanic hpc)

/-- `persist` returns for `x`. -/
theorem Rows.persisted {store₀ : SessionStore} {acts : List (SessionAction × StoreAnswers)}
    {ok : Bool} {x : Sample} (h : Rows store₀ acts s) (ha : a.1 = .persist (.persisted ok))
    (hsession : s.session.step p a.1 = some t.session)
    (hlast : s.session.persistor.handed.getLast? = some x)
    (hstore : t.store = (s.store.persist a.2 x).1) : Rows store₀ (acts ++ [a]) t := by
  obtain ⟨xs, hsub, hpackets, hqueues, hall⟩ := h
  rw [ha] at hsession
  have hpersisted := MeasureSession.persisted_of_step hsession
  obtain ⟨hs, ht, -⟩ := Persistor.settled_of_persisted hpersisted
  have hpc := Persistor.not_panicked_of_step hpersisted
  have hsettled : t.session.persistor.settled = s.session.persistor.settled ++ [x] := by
    rw [hs, ht]
    exact (List.dropLast_append_getLast? x hlast).symm
  have hxs : (∀ b ∈ acts ++ [a], b.2.exec = none) →
      xs = s.session.persistor.settled.filter Sample.isStored := fun hexec =>
    hall (fun b hb => hexec b (List.mem_append_left _ hb)) hpc
  rw [SessionStore.persist_eq] at hstore
  by_cases hx : x.isStored = true ∧ a.2.exec = none
  · rw [if_pos hx] at hstore
    refine ⟨xs ++ [x], hsettled ▸ hsub.append (List.Sublist.refl [x]), ?_, ?_, fun hexec _ => ?_⟩
    · simp [hstore, SessionStore.add, hpackets]
    · simp [hstore, SessionStore.add, hqueues]
    · rw [hsettled, List.filter_append, ← hxs hexec]
      simp [hx.1]
  · rw [if_neg hx] at hstore
    refine ⟨xs, ?_, hstore ▸ hpackets, hstore ▸ hqueues, fun hexec _ => ?_⟩
    · rw [hsettled]
      exact hsub.trans (List.sublist_append_left _ _)
    · have hexec' := hexec a (List.mem_append_right _ (List.mem_singleton_self _))
      have hnot : x.isStored = false := by
        rw [← Bool.not_eq_true]
        exact fun hstored => hx ⟨hstored, hexec'⟩
      rw [hsettled, List.filter_append, ← hxs hexec]
      simp [hnot]

theorem Rows.step {store₀ : SessionStore} {acts : List (SessionAction × StoreAnswers)}
    (h : Rows store₀ acts s) (hs : s.step p a = some t) : Rows store₀ (acts ++ [a]) t := by
  obtain ⟨hsession, hstores⟩ := step_cases hs
  obtain ⟨action, answers⟩ := a
  obtain ⟨session', store'⟩ := t
  cases hstores with
  | flowPersisted _ _ _ | flowFailed _ _ => exact h.keep hsession (by simp) rfl rfl
  | other _ _ hne => exact h.keep hsession hne rfl rfl
  | persisted _ hlast => exact h.persisted rfl hsession hlast rfl
  | noPersistence hdb =>
    obtain ⟨xs, hsub, hpackets, hqueues, -⟩ := h
    have hpersisted := MeasureSession.persisted_of_step hsession
    obtain ⟨hs', ht', hpanic⟩ := Persistor.settled_of_persisted hpersisted
    rw [hs'] at hsub
    refine ⟨xs, ?_, hpackets, hqueues, fun _ hpc => absurd (hpanic.mpr hdb) hpc⟩
    show xs.Sublist session'.persistor.settled
    rw [ht']
    exact hsub.trans (List.dropLast_sublist _)

/-! ### Runs -/

/-- What a session has put into the tables. -/
structure Stored (p : SessionParams) (store₀ : SessionStore)
    (acts : List (SessionAction × StoreAnswers)) (s : StoredSession capA capP) : Prop where
  /-- A packet sample names the one row of its flow, in its session. -/
  packets : ∀ q, .packet q ∈ s.session.persistor.handed →
    ∃ row, (∀ r, r ∈ s.store.flows.table.rows ∧ r.flowId = q.fkFlowId ↔ r = row) ∧
      row.sessionId = p.sessionId ∧ row.measureIdStr = q.netFlowString
  /-- A queue sample names its session. -/
  queues : ∀ q, .queue q ∈ s.session.persistor.handed → q.fkSessionTagId = p.sessionId
  rows : Rows store₀ acts s
  /-- The rows of other flows are still there. -/
  kept : ∀ r ∈ store₀.flows.table.rows,
    ∃ r' ∈ s.store.flows.table.rows, r'.flowId = r.flowId ∧ r'.key = r.key

theorem linked_init {store₀ : SessionStore} (hserial : store₀.flows.table.Serial)
    (hcache : store₀.flows.Linked p.sessionId) :
    Linked p (init capacity store₀ : StoredSession capA capP) :=
  ⟨hserial, fun _ => hcache, trivial, fun _ hx => absurd hx List.not_mem_nil⟩

theorem linked_of_run {store₀ : SessionStore} (hserial : store₀.flows.table.Serial)
    (hcache : store₀.flows.Linked p.sessionId) {acts : List (SessionAction × StoreAnswers)}
    (hrun : run (step p) (init capacity store₀ : StoredSession capA capP) acts = some s) :
    Linked p s := by
  refine trace_invariant_from (I := fun _ s => Linked p s) ?_ (linked_init hserial hcache) hrun
  intro as u a t hu h hs
  exact h.step (MeasureSession.polled_of_run (session_of_run hu)) hs

theorem kept_of_run {store₀ : SessionStore} (hserial : store₀.flows.table.Serial)
    (hcache : store₀.flows.Linked p.sessionId) {acts : List (SessionAction × StoreAnswers)}
    (hrun : run (step p) (init capacity store₀ : StoredSession capA capP) acts = some s) :
    ∀ r ∈ store₀.flows.table.rows,
      ∃ r' ∈ s.store.flows.table.rows, r'.flowId = r.flowId ∧ r'.key = r.key := by
  intro r hr
  refine trace_invariant_from (I := fun _ s => ∃ r' ∈ s.store.flows.table.rows,
    r'.flowId = r.flowId ∧ r'.key = r.key) ?_ ⟨r, hr, rfl, rfl⟩ hrun
  rintro as u a t hu ⟨r', hr', hid, hkey⟩ hs
  have hlinked := linked_of_run hserial hcache hu
  obtain ⟨r'', hr'', hid', hkey'⟩ := (hlinked.changes (step_cases hs).2).row hr'
  exact ⟨r'', hr'', hid'.trans hid, hkey'.trans hkey⟩

/-- **Every sample goes into the tables under its flow and its session, in order and once.**
Whatever the capacities of the channels, however the goroutines are interleaved and whichever
statements fail. -/
theorem stored_of_run (capA capP : ℕ) (capacity : UInt64) (p : SessionParams)
    {store₀ : SessionStore} (hserial : store₀.flows.table.Serial)
    (hcache : ∀ str, store₀.flows.knownFlowsByMeasureId str = none)
    (acts : List (SessionAction × StoreAnswers)) (s : StoredSession capA capP)
    (hrun : run (step p) (init capacity store₀) acts = some s) : Stored p store₀ acts s := by
  have hlinks : store₀.flows.Linked p.sessionId := FlowStore.linked_of_empty hcache
  have hlinked := linked_of_run hserial hlinks hrun
  refine ⟨fun q hq => ?_, fun q hq => ?_, ?_, kept_of_run hserial hlinks hrun⟩
  · exact hlinked.serial.existsUnique (hlinked.samples _ (List.mem_append_left _ hq))
  · exact hlinked.samples _ (List.mem_append_left _ hq)
  · refine run_trace_invariant (I := Rows store₀) (fun _ _ _ _ h hs => h.step hs) ?_ hrun
    refine ⟨[], List.nil_sublist _, ?_, ?_, fun _ _ => rfl⟩
    · exact (List.append_nil _).symm
    · exact (List.append_nil _).symm

/-- Tables without rows. -/
def emptyStore : SessionStore := ⟨⟨⟨[], 1⟩, fun _ => none⟩, [], []⟩

/-- Two packets of a flow, which is persisted with the second, and a queue record. -/
def flowActions : List (SessionAction × StoreAnswers) :=
  let received : SessionAction := .aggregate (.recv MeasureSession.packetOfRecord)
  let acts : List SessionAction := .poll .opened :: MeasureSession.pollPacketActions ++
    [.aggregate (.persistence true), .aggregate .tick, received] ++
    MeasureSession.pollPacketActions ++ [received, .aggregate (.flowPersisted 1 true 0)] ++
    MeasureSession.pollQueueActions ++ [.persist (.persistence true), .persist .tick,
      .persist (.recv (.queue ⟨0, 0, 0, 0, 0⟩)), .persist (.persisted true)]
  acts.map fun a => (a, {})

theorem stored_of_run_flow :
    ∃ s : StoredSession 1 1, run (step ⟨0, 0, false⟩) (init 0 emptyStore) flowActions = some s ∧
      Stored ⟨0, 0, false⟩ emptyStore flowActions s := by
  have hrows : (run (step ⟨0, 0, false⟩) (init 0 emptyStore : StoredSession 1 1) flowActions).map
      (fun s => (s.store.flows.table.rows.length, s.store.queues.length)) = some (1, 1) := by
    decide +kernel
  obtain ⟨s, hs, -⟩ := Option.map_eq_some_iff.mp hrows
  have hserial : emptyStore.flows.table.Serial := ⟨fun r hr => absurd hr List.not_mem_nil, .nil _⟩
  exact ⟨s, hs, stored_of_run 1 1 0 _ hserial (fun _ => rfl) _ s hs⟩

end StoredSession

end Jens
