import Jens.Psql.Correct.Stored
import Jens.Psql.Tables

/-!
# What a benchmark leaves in the database

Every reference of a row leads to a row: a session refers to its benchmark and its pattern, a flow
and a queue sample to their session, a packet sample to its flow (`Referential`).  This holds in
every state that a run comes to, also in the middle of a measure session, whatever fails.  The
sessions that could be stored are stored once, in their order and with what they were given
(`Recorded`).
-/

namespace Jens

open Steps

/-! ### The rows of the measure sessions -/

/-- The references of the rows, to sessions that are known and to flows. -/
structure SessionStore.Refers (known : ℤ → Prop) (s : SessionStore) : Prop where
  flows : ∀ r ∈ s.flows.table.rows, known r.sessionId
  packets : ∀ q ∈ s.packets,
    ∃ r ∈ s.flows.table.rows, r.flowId = q.fkFlowId ∧ r.measureIdStr = q.netFlowString
  queues : ∀ q ∈ s.queues, known q.fkSessionTagId

theorem SessionStore.Refers.mono {known known' : ℤ → Prop} {s : SessionStore} (h : s.Refers known)
    (hsub : ∀ id, known id → known' id) : s.Refers known' where
  flows r hr := hsub _ (h.flows r hr)
  packets := h.packets
  queues q hq := hsub _ (h.queues q hq)

namespace StoredSession

variable {capA capP : ℕ} {p : SessionParams} {s t : StoredSession capA capP} {known : ℤ → Prop}
  {a : SessionAction × StoreAnswers}

/-- A row that is added is one of the last sample handed to `persist`. -/
theorem mem_of_stores {answers : StoreAnswers} {action : SessionAction} {store : SessionStore}
    (h : Stores s answers action store) :
    (∀ q ∈ store.packets, q ∈ s.store.packets ∨ .packet q ∈ s.session.persistor.handed) ∧
      ∀ q ∈ store.queues, q ∈ s.store.queues ∨ .queue q ∈ s.session.persistor.handed := by
  cases h with
  | @persisted ok x _ hlast =>
    have hmem : x ∈ s.session.persistor.handed := List.mem_of_getLast? hlast
    rw [SessionStore.persist_eq]
    split_ifs
    · constructor
      · intro q hq
        rcases List.mem_append.mp hq with hq | hq
        · exact .inl hq
        · obtain ⟨y, hy, hyq⟩ := List.mem_filterMap.mp hq
          obtain rfl := List.mem_singleton.mp hy
          cases y with
          | packet q' =>
            obtain rfl := Option.some.inj hyq
            exact .inr hmem
          | _ => cases hyq
      · intro q hq
        rcases List.mem_append.mp hq with hq | hq
        · exact .inl hq
        · obtain ⟨y, hy, hyq⟩ := List.mem_filterMap.mp hq
          obtain rfl := List.mem_singleton.mp hy
          cases y with
          | queue q' =>
            obtain rfl := Option.some.inj hyq
            exact .inr hmem
          | _ => cases hyq
    · exact ⟨fun q hq => .inl hq, fun q hq => .inl hq⟩
  | _ => exact ⟨fun q hq => .inl hq, fun q hq => .inl hq⟩

theorem refers_of_step (h : s.store.Refers known) (hlinked : Linked p s)
    (hknown : known p.sessionId) (hs : s.step p a = some t) : t.store.Refers known := by
  obtain ⟨-, hstores⟩ := step_cases hs
  have hchanges := hlinked.changes hstores
  obtain ⟨hpackets, hqueues⟩ := mem_of_stores hstores
  refine ⟨fun r hr => ?_, fun q hq => ?_, fun q hq => ?_⟩
  · rcases hchanges.session hr with ⟨r', hr', hid⟩ | hid
    · exact hid ▸ h.flows r' hr'
    · exact hid ▸ hknown
  · have hold : ∃ r ∈ s.store.flows.table.rows,
        r.flowId = q.fkFlowId ∧ r.measureIdStr = q.netFlowString := by
      rcases hpackets q hq with hq | hq
      · exact h.packets q hq
      · obtain ⟨r, hr, hid, -, hstr⟩ := hlinked.samples _ (List.mem_append_left _ hq)
        exact ⟨r, hr, hid, hstr⟩
    obtain ⟨r, hr, hid, hstr⟩ := hold
    obtain ⟨r', hr', hid', hkey⟩ := hchanges.row hr
    exact ⟨r', hr', hid'.trans hid, (DbNetworkFlow.measureIdStr_of_key_eq hkey).trans hstr⟩
  · rcases hqueues q hq with hq | hq
    · exact h.queues q hq
    · have hlinks : q.fkSessionTagId = p.sessionId :=
        hlinked.samples _ (List.mem_append_left _ hq)
      exact hlinks ▸ hknown

end StoredSession

/-! ### Inserting -/

namespace Tables

/-- The references of the tables. -/
structure Referential (t : Tables) : Prop where
  benchmark : ∀ r ∈ t.sessions.rows, ∀ id ∈ r.2.benchmarkId,
    ∃ row ∈ t.benchmarks.rows, row.benchmarkId = id
  pattern : ∀ r ∈ t.sessions.rows, r.2.drpId ∈ t.patterns.ids
  store : t.store.Refers (· ∈ t.sessions.ids)

variable {t u : Tables} {answers : SessionAnswers} {benchmarkId : ℤ} {time : UInt64} {v : DbSession}

/-- How `DB_session.Insert` ends. -/
inductive Inserts (t : Tables) (benchmarkId : ℤ) (time : UInt64) (v : DbSession)
    (answers : SessionAnswers) : Tables → Except String ℤ → Prop
  | noPattern {err : String} : answers.pattern = some err →
      Inserts t benchmarkId time v answers t (.error err)
  | noSession {err : String} : answers.session = some err →
      Inserts t benchmarkId time v answers
        { t with patterns := t.patterns.insert v.childDrp.row } (.error err)
  | inserted :
      Inserts t benchmarkId time v answers
        { t with
          patterns := t.patterns.insert v.childDrp.row
          sessions := t.sessions.insert (v.row benchmarkId time t.patterns.nextId) }
        (.ok t.sessions.nextId)

theorem inserts_of_insertSession {result : Except String ℤ}
    (h : t.insertSession answers benchmarkId time v = (u, result)) :
    Inserts t benchmarkId time v answers u result := by
  unfold insertSession at h
  split at h
  · rename_i herr
    cases h
    exact .noPattern herr
  · dsimp only at h
    split at h
    · rename_i herr
      cases h
      exact .noSession herr
    · cases h
      exact .inserted

/-- What is inserted refers to what has been inserted before. -/
theorem Referential.inserts {result : Except String ℤ} (h : t.Referential)
    (hbm : ∀ id ∈ getFkNullable benchmarkId, ∃ row ∈ t.benchmarks.rows, row.benchmarkId = id)
    (hu : Inserts t benchmarkId time v answers u result) : u.Referential := by
  have hpattern : ∀ id ∈ t.patterns.ids, id ∈ (t.patterns.insert v.childDrp.row).ids :=
    fun id hid => (t.patterns.mem_ids_insert _).mpr (.inl hid)
  cases hu with
  | noPattern _ => exact h
  | noSession _ => exact ⟨h.benchmark, fun r hr => hpattern _ (h.pattern r hr), h.store⟩
  | inserted =>
    refine ⟨fun r hr => ?_, fun r hr => ?_, h.store.mono fun id hid => ?_⟩
    · rcases List.mem_append.mp hr with hr | hr
      · exact h.benchmark r hr
      · rw [List.mem_singleton.mp hr]
        exact hbm
    · rcases List.mem_append.mp hr with hr | hr
      · exact hpattern _ (h.pattern r hr)
      · rw [List.mem_singleton.mp hr]
        exact (t.patterns.mem_ids_insert _).mpr (.inr rfl)
    · exact (t.sessions.mem_ids_insert _).mpr (.inl hid)

/-- The row of a benchmark. -/
def benchmarkRow (benchmarkId : ℤ) (bm : DbBenchmark) : BenchmarkRow :=
  ⟨benchmarkId, bm.name.toUTF8.toList, bm.tag.toUTF8.toList⟩

/-- A benchmark that is inserted gets the next number. -/
theorem rows_insertBenchmark (t : Tables) (benchmarkId : ℤ) (bm : DbBenchmark) :
    (t.insertBenchmark none benchmarkId bm).1.benchmarks.rows =
      t.benchmarks.rows ++ [benchmarkRow (t.insertBenchmark none benchmarkId bm).2 bm] := rfl

end Tables

/-! ### The steps of `Play` -/

namespace StoredBenchmark

variable {capA capP : ℕ} {bm : DbBenchmark} {csvOutput : Bool} {s t : StoredBenchmark capA capP}
  {a : StoredAction}

/-- The steps of `Play`. -/
inductive Moves (bm : DbBenchmark) (csvOutput : Bool) (s : StoredBenchmark capA capP) :
    StoredAction → StoredBenchmark capA capP → Prop
  | persistBenchmark {err : Option String} : s.pc = .persistBenchmark →
      Moves bm csvOutput s (.persistBenchmark err)
        { s with
          pc := .session 0
          benchmarkId := (s.tables.insertBenchmark err s.benchmarkId bm).2
          tables := (s.tables.insertBenchmark err s.benchmarkId bm).1 }
  | finish {time : UInt64} {answers : SessionAnswers} {i : ℕ} : s.pc = .session i →
      bm.sessions[i]? = none →
      Moves bm csvOutput s (.persistSession time answers) { s with pc := .finished }
  | stored {time : UInt64} {answers : SessionAnswers} {i : ℕ} {v : DbSession} {sessionId : ℤ}
      {tables : Tables} : s.pc = .session i → bm.sessions[i]? = some v →
      s.tables.Inserts s.benchmarkId time v answers tables (.ok sessionId) →
      Moves bm csvOutput s (.persistSession time answers)
        { s with pc := .start i v sessionId, tables := tables }
  | notStored {time : UInt64} {answers : SessionAnswers} {i : ℕ} {v : DbSession} {err : String}
      {tables : Tables} : s.pc = .session i → bm.sessions[i]? = some v →
      s.tables.Inserts s.benchmarkId time v answers tables (.error err) →
      Moves bm csvOutput s (.persistSession time answers)
        { s with pc := .session (i + 1), tables := tables }
  | startFails {i : ℕ} {v : DbSession} {sessionId : ℤ} : s.pc = .start i v sessionId →
      Moves bm csvOutput s .startFails { s with pc := .session (i + 1) }
  | started {i : ℕ} {v : DbSession} {sessionId : ℤ} {timeDiff : Option UInt64} :
      s.pc = .start i v sessionId →
      Moves bm csvOutput s (.started timeDiff)
        { s with
          pc := .wait i ⟨sessionId, timeDiff.getD 0, csvOutput⟩
            (timeDiff.map fun _ => .init s.currentCapacityKbits) }
  | measure {i : ℕ} {p : SessionParams} {session : MeasureSession capA capP}
      {action : SessionAction} {answers : StoreAnswers} {u : StoredSession capA capP} :
      s.pc = .wait i p (some session) →
      StoredSession.step p ⟨session, s.tables.store⟩ (action, answers) = some u →
      Moves bm csvOutput s (.measure action answers)
        { s with
          pc := .wait i p (some u.session)
          tables := { s.tables with store := u.store } }
  | waitReturns {i : ℕ} {p : SessionParams} {session : Option (MeasureSession capA capP)} :
      s.pc = .wait i p session →
      Moves bm csvOutput s .waitReturns
        { s with
          pc := .session (i + 1)
          tables := { s.tables with store := s.tables.store.clearCache }
          currentCapacityKbits :=
            session.elim s.currentCapacityKbits MeasureSession.currentCapacityKbits }

theorem moves_of_step (h : s.step bm csvOutput a = some t) : Moves bm csvOutput s a t := by
  unfold step at h
  split at h <;> rename_i hpc
  case h_1 =>
    obtain rfl := Option.some.inj h
    exact .persistBenchmark hpc
  case h_2 i time answers =>
    split at h
    · rename_i hv
      obtain rfl := Option.some.inj h
      exact .finish hpc hv
    · rename_i v hv
      split at h
      · rename_i hinsert
        obtain rfl := Option.some.inj h
        exact .stored hpc hv (Tables.inserts_of_insertSession hinsert)
      · rename_i hinsert
        obtain rfl := Option.some.inj h
        exact .notStored hpc hv (Tables.inserts_of_insertSession hinsert)
  case h_3 =>
    obtain rfl := Option.some.inj h
    exact .startFails hpc
  case h_4 =>
    obtain ⟨-, h⟩ := Option.ite_none_left_eq_some.mp h
    obtain rfl := Option.some.inj h
    exact .started hpc
  case h_5 =>
    obtain ⟨u, hu, rfl⟩ := Option.map_eq_some_iff.mp h
    exact .measure hpc hu
  case h_6 =>
    obtain ⟨-, h⟩ := Option.ite_none_right_eq_some.mp h
    obtain rfl := Option.some.inj h
    exact .waitReturns hpc
  case h_7 => cases h

/-! ### References -/

/-- What holds at each place. -/
def PcSound (t : Tables) : StoredPc capA capP → Prop
  | .persistBenchmark | .session _ => ∀ str, t.store.flows.knownFlowsByMeasureId str = none
  | .start _ _ sessionId =>
    sessionId ∈ t.sessions.ids ∧ ∀ str, t.store.flows.knownFlowsByMeasureId str = none
  | .wait _ p session =>
    p.sessionId ∈ t.sessions.ids ∧ ∀ m ∈ session, StoredSession.Linked p ⟨m, t.store⟩ ∧
      ∃ capacity acts, run (MeasureSession.step p) (.init capacity) acts = some m
  | .finished => True

/-- The invariant. -/
structure Sound (s : StoredBenchmark capA capP) : Prop where
  referential : s.tables.Referential
  serial : s.tables.store.flows.table.Serial
  benchmark : ∀ id ∈ getFkNullable s.benchmarkId,
    ∃ row ∈ s.tables.benchmarks.rows, row.benchmarkId = id
  pc : PcSound s.tables s.pc

/-- The tables before a benchmark: their references and serials are right, and nothing is in the
cache. -/
structure Start (t : Tables) : Prop where
  referential : t.Referential
  serial : t.store.flows.table.Serial
  cache : ∀ str, t.store.flows.knownFlowsByMeasureId str = none

theorem Start.sound {t : Tables} (h : Start t) : Sound (init t : StoredBenchmark capA capP) := by
  refine ⟨h.referential, h.serial, fun id hid => ?_, h.cache⟩
  cases hid

theorem mem_getFkNullable {benchmarkId id : ℤ} (h : id ∈ getFkNullable benchmarkId) :
    benchmarkId = id := by
  unfold getFkNullable at h
  split_ifs at h
  · exact Option.some.inj h
  · cases h

theorem Sound.persistBenchmark (h : Sound s) (hpc : s.pc = .persistBenchmark)
    (err : Option String) :
    Sound ({ s with
      pc := .session 0
      benchmarkId := (s.tables.insertBenchmark err s.benchmarkId bm).2
      tables := (s.tables.insertBenchmark err s.benchmarkId bm).1 } :
        StoredBenchmark capA capP) := by
  have hcache := h.pc
  rw [hpc] at hcache
  cases err with
  | some err => exact ⟨h.referential, h.serial, h.benchmark, hcache⟩
  | none =>
    have hrows := s.tables.rows_insertBenchmark s.benchmarkId bm
    refine ⟨⟨fun r hr id hid => ?_, h.referential.pattern, h.referential.store⟩, h.serial,
      fun id hid => ?_, hcache⟩
    · obtain ⟨row, hrow, hid⟩ := h.referential.benchmark r hr id hid
      exact ⟨row, by rw [hrows]; exact List.mem_append_left _ hrow, hid⟩
    · obtain rfl := mem_getFkNullable hid
      exact ⟨_, by rw [hrows]; exact List.mem_append_right _ (List.mem_singleton_self _), rfl⟩

/-- What `DB_session.Insert` leaves alone. -/
theorem inserts_keeps {t u : Tables} {benchmarkId : ℤ} {time : UInt64} {v : DbSession}
    {answers : SessionAnswers} {result : Except String ℤ}
    (h : t.Inserts benchmarkId time v answers u result) :
    u.store = t.store ∧ u.benchmarks = t.benchmarks ∧
      ∀ id, result = .ok id → id ∈ u.sessions.ids := by
  cases h with
  | inserted =>
    refine ⟨rfl, rfl, fun id hid => ?_⟩
    rw [← Except.ok.inj hid]
    exact (t.sessions.mem_ids_insert _).mpr (.inr rfl)
  | _ => exact ⟨rfl, rfl, fun id hid => by cases hid⟩

theorem Sound.step (h : Sound s) (hs : s.step bm csvOutput a = some t) : Sound t := by
  have hpcs := h.pc
  cases moves_of_step hs with
  | persistBenchmark hpc => exact h.persistBenchmark hpc _
  | finish hpc _ => exact ⟨h.referential, h.serial, h.benchmark, trivial⟩
  | @stored _ _ i v sessionId tables hpc _ hinserts =>
    rw [hpc] at hpcs
    obtain ⟨hstore, hbms, hmem⟩ := inserts_keeps hinserts
    refine ⟨h.referential.inserts h.benchmark hinserts, ?_, ?_, hmem _ rfl, ?_⟩
    · exact hstore ▸ h.serial
    · exact hbms ▸ h.benchmark
    · exact hstore ▸ hpcs
  | @notStored _ _ i v err tables hpc _ hinserts =>
    rw [hpc] at hpcs
    obtain ⟨hstore, hbms, -⟩ := inserts_keeps hinserts
    refine ⟨h.referential.inserts h.benchmark hinserts, ?_, ?_, ?_⟩
    · exact hstore ▸ h.serial
    · exact hbms ▸ h.benchmark
    · show ∀ str, tables.store.flows.knownFlowsByMeasureId str = none
      rw [hstore]
      exact hpcs
  | startFails hpc =>
    rw [hpc] at hpcs
    exact ⟨h.referential, h.serial, h.benchmark, hpcs.2⟩
  | @started i v sessionId timeDiff hpc =>
    rw [hpc] at hpcs
    refine ⟨h.referential, h.serial, h.benchmark, hpcs.1, fun m hm => ?_⟩
    obtain ⟨td, -, rfl⟩ := Option.map_eq_some_iff.mp hm
    exact ⟨StoredSession.linked_init h.serial (FlowStore.linked_of_empty hpcs.2),
      s.currentCapacityKbits, [], rfl⟩
  | @measure i p session action answers u hpc hu =>
    rw [hpc] at hpcs
    obtain ⟨hid, hm⟩ := hpcs
    obtain ⟨hlinked, capacity, acts, hacts⟩ := hm session rfl
    have hlinked' := hlinked.step (MeasureSession.polled_of_run hacts) hu
    have hrefers := StoredSession.refers_of_step h.referential.store hlinked hid hu
    refine ⟨⟨h.referential.benchmark, h.referential.pattern, hrefers⟩, hlinked'.serial, h.benchmark,
      hid, fun m hm => ?_⟩
    obtain rfl := Option.some.inj hm
    exact ⟨hlinked', capacity, _, run_concat hacts (StoredSession.step_cases hu).1⟩
  | waitReturns hpc =>
    exact ⟨⟨h.referential.benchmark, h.referential.pattern, { h.referential.store with }⟩,
      h.serial, h.benchmark, fun str => rfl⟩

/-! ### What is recorded -/

/-- The row is one of the session, and its pattern is there. -/
def StoredAs (t : Tables) (benchmarkId : ℤ) (r : ℤ × SessionRow) (v : DbSession) : Prop :=
  ∃ time drpId, r.2 = v.row benchmarkId time drpId ∧ (drpId, v.childDrp.row) ∈ t.patterns.rows

theorem StoredAs.mono {t u : Tables} {benchmarkId : ℤ} {r : ℤ × SessionRow} {v : DbSession}
    (h : StoredAs t benchmarkId r v) (hsub : ∀ r ∈ t.patterns.rows, r ∈ u.patterns.rows) :
    StoredAs u benchmarkId r v := by
  obtain ⟨time, drpId, hr, hmem⟩ := h
  exact ⟨time, drpId, hr, hsub _ hmem⟩

/-- The sessions that have been persisted, or could not be. -/
def past (bm : DbBenchmark) : StoredPc capA capP → List DbSession
  | .persistBenchmark => []
  | .session i => bm.sessions.take i
  | .start i _ _ | .wait i _ _ => bm.sessions.take (i + 1)
  | .finished => bm.sessions

/-- No statement of an `Insert` of the action fails. -/
def Inserting : StoredAction → Prop
  | .persistBenchmark err => err = none
  | .persistSession _ answers => answers = {}
  | _ => True

/-- What has been recorded of the benchmark and its sessions. -/
structure Recorded (bm : DbBenchmark) (tables₀ : Tables) (acts : List StoredAction)
    (s : StoredBenchmark capA capP) : Prop where
  /-- The benchmark has no row and no id, or one row with its id. -/
  benchmark : s.benchmarkId = 0 ∧ s.tables.benchmarks.rows = tables₀.benchmarks.rows ∨
    s.tables.benchmarks.rows =
      tables₀.benchmarks.rows ++ [Tables.benchmarkRow s.benchmarkId bm]
  /-- The rows of its sessions come behind those there were, in their order; all of them do, if
  nothing fails. -/
  sessions : ∃ rows vs, s.tables.sessions.rows = tables₀.sessions.rows ++ rows ∧
    List.Forall₂ (StoredAs s.tables s.benchmarkId) rows vs ∧ vs.Sublist (past bm s.pc) ∧
    ((∀ a ∈ acts, Inserting a) → vs = past bm s.pc)

/-- `Play` inserts the benchmark first. -/
theorem not_persistBenchmark_of_step (hs : s.step bm csvOutput a = some t) :
    t.pc ≠ .persistBenchmark := by
  intro ht
  cases moves_of_step hs <;> cases ht

theorem Recorded.keep {tables₀ : Tables} {acts : List StoredAction} (h : Recorded bm tables₀ acts s)
    (hid : t.benchmarkId = s.benchmarkId) (hbms : t.tables.benchmarks = s.tables.benchmarks)
    (hpatterns : ∀ r ∈ s.tables.patterns.rows, r ∈ t.tables.patterns.rows)
    (hsessions : t.tables.sessions = s.tables.sessions)
    (hpast : (past bm s.pc).Sublist (past bm t.pc))
    (hall : Inserting a → past bm t.pc = past bm s.pc) :
    Recorded bm tables₀ (acts ++ [a]) t := by
  obtain ⟨hbm, rows, vs, hrows, hforall, hsub, heq⟩ := h
  refine ⟨?_, rows, vs, ?_, ?_, hsub.trans hpast, fun hb => ?_⟩
  · rw [hid, hbms]
    exact hbm
  · rw [hsessions]
    exact hrows
  · rw [hid]
    exact hforall.imp fun _ _ hr => hr.mono hpatterns
  · rw [hall (hb a (List.mem_append_right _ (List.mem_singleton_self _)))]
    exact heq fun b hb' => hb b (List.mem_append_left _ hb')

theorem recorded_init (bm : DbBenchmark) (tables₀ : Tables) :
    Recorded bm tables₀ [] (init tables₀ : StoredBenchmark capA capP) where
  benchmark := .inl ⟨rfl, rfl⟩
  sessions := ⟨[], [], (List.append_nil _).symm, .nil, List.nil_sublist _, fun _ => rfl⟩

/-- The benchmark is inserted, or could not be. -/
theorem recorded_persistBenchmark (bm : DbBenchmark) (tables₀ : Tables) (err : Option String) :
    Recorded bm tables₀ [.persistBenchmark err]
      (⟨.session 0, (tables₀.insertBenchmark err 0 bm).2, (tables₀.insertBenchmark err 0 bm).1, 0⟩ :
        StoredBenchmark capA capP) := by
  cases err with
  | some err =>
    exact ⟨.inl ⟨rfl, rfl⟩,
      [], [], (List.append_nil _).symm, .nil, List.nil_sublist _, fun _ => rfl⟩
  | none =>
    exact ⟨.inr (tables₀.rows_insertBenchmark 0 bm),
      [], [], (List.append_nil _).symm, .nil, List.nil_sublist _, fun _ => rfl⟩

theorem past_session_succ {i : ℕ} {v : DbSession} (hv : bm.sessions[i]? = some v) :
    bm.sessions.take (i + 1) = bm.sessions.take i ++ [v] := by
  rw [List.take_add_one, hv]
  rfl

/-- The next session is stored. -/
theorem Recorded.stored {tables₀ tables : Tables} {acts : List StoredAction} {i : ℕ} {v : DbSession}
    {sessionId : ℤ} {time : UInt64} {answers : SessionAnswers} (h : Recorded bm tables₀ acts s)
    (hpc : s.pc = .session i) (hv : bm.sessions[i]? = some v)
    (hinserts : s.tables.Inserts s.benchmarkId time v answers tables (.ok sessionId)) :
    Recorded bm tables₀ (acts ++ [a])
      ({ s with pc := .start i v sessionId, tables := tables } : StoredBenchmark capA capP) := by
  obtain ⟨hbm, rows, vs, hrows, hforall, hsub, heq⟩ := h
  rw [hpc] at hsub heq
  have hpast := past_session_succ hv
  cases hinserts with
  | inserted =>
    have hmono : ∀ r ∈ s.tables.patterns.rows, r ∈ (s.tables.patterns.insert v.childDrp.row).rows :=
      fun r hr => s.tables.patterns.mem_insert_of_mem _ hr
    refine ⟨hbm, rows ++ [(s.tables.sessions.nextId, v.row s.benchmarkId time
      s.tables.patterns.nextId)], vs ++ [v], ?_, ?_, ?_, fun hb => ?_⟩
    · show s.tables.sessions.rows ++ _ = _
      rw [hrows, List.append_assoc]
    · apply List.rel_append
      · exact hforall.imp fun _ _ hr => hr.mono hmono
      · exact .cons ⟨time, _, rfl, s.tables.patterns.mem_insert_self _⟩ .nil
    · show (vs ++ [v]).Sublist (bm.sessions.take (i + 1))
      rw [hpast]
      exact hsub.append (List.Sublist.refl [v])
    · show vs ++ [v] = bm.sessions.take (i + 1)
      rw [hpast, heq fun b hb' => hb b (List.mem_append_left _ hb')]
      rfl

theorem Recorded.step {tables₀ : Tables} {acts : List StoredAction} (h : Recorded bm tables₀ acts s)
    (hpersisted : s.pc ≠ .persistBenchmark) (hs : s.step bm csvOutput a = some t) :
    Recorded bm tables₀ (acts ++ [a]) t := by
  cases moves_of_step hs with
  | persistBenchmark hpc => exact absurd hpc hpersisted
  | @finish time answers i hpc hv =>
    have hpast : past bm s.pc = bm.sessions := by
      rw [hpc]
      exact List.take_of_length_le (List.getElem?_eq_none_iff.mp hv)
    refine h.keep rfl rfl (fun _ hr => hr) rfl ?_ fun _ => hpast.symm
    rw [hpast]
    exact List.Sublist.refl _
  | stored hpc hv hinserts => exact h.stored hpc hv hinserts
  | @notStored time answers i v err tables hpc hv hinserts =>
    have hpast : (past bm s.pc).Sublist (bm.sessions.take (i + 1)) := by
      rw [hpc, past_session_succ hv]
      exact List.sublist_append_left _ _
    cases hinserts with
    | noPattern herr =>
      refine h.keep rfl rfl (fun _ hr => hr) rfl hpast ?_
      rintro rfl
      cases herr
    | noSession herr =>
      refine h.keep rfl rfl (fun r hr => s.tables.patterns.mem_insert_of_mem _ hr) rfl hpast ?_
      rintro rfl
      cases herr
  | startFails hpc | started hpc | waitReturns hpc | measure hpc _ =>
    refine h.keep rfl rfl (fun _ hr => hr) rfl ?_ fun _ => ?_
    · rw [hpc]
      exact List.Sublist.refl _
    · rw [hpc]
      rfl

/-- **In every state of a run every reference of the tables leads to a row, and of the sessions
those that could be stored are, once and in their order.**  Whatever the measure sessions measure,
however their goroutines are interleaved and whichever statements fail. -/
theorem recorded_of_run (capA capP : ℕ) (bm : DbBenchmark) (csvOutput : Bool) {tables₀ : Tables}
    (hstart : Start tables₀) (acts : List StoredAction) (s : StoredBenchmark capA capP)
    (hrun : run (step bm csvOutput) (init tables₀) acts = some s) :
    s.tables.Referential ∧ Recorded bm tables₀ acts s := by
  have hsound : Sound s :=
    run_invariant (fun _ _ _ h hs => h.step hs) hstart.sound hrun
  refine ⟨hsound.referential, ?_⟩
  have htrace : (acts = [] ∧ s = init tables₀) ∨
      (s.pc ≠ .persistBenchmark ∧ Recorded bm tables₀ acts s) := by
    refine run_trace_invariant (I := fun acts s => (acts = [] ∧ s = init tables₀) ∨
      (s.pc ≠ .persistBenchmark ∧ Recorded bm tables₀ acts s)) ?_ (.inl ⟨rfl, rfl⟩) hrun
    intro as u a t hu hs
    refine .inr ⟨not_persistBenchmark_of_step hs, ?_⟩
    rcases hu with ⟨rfl, rfl⟩ | ⟨hpc, hrecorded⟩
    · cases moves_of_step hs with
      | persistBenchmark _ => exact recorded_persistBenchmark bm tables₀ _
      | finish hpc _ | stored hpc _ _ | notStored hpc _ _ | startFails hpc | started hpc
      | measure hpc _ | waitReturns hpc => cases hpc
    · exact hrecorded.step hpc hs
  rcases htrace with ⟨rfl, rfl⟩ | ⟨-, hrecorded⟩
  · exact recorded_init bm tables₀
  · exact hrecorded

/-- A database without rows. -/
def emptyTables : Tables where
  benchmarks := ⟨[], 1, fun _ hr => absurd hr List.not_mem_nil⟩
  patterns := ⟨[], 1, fun _ hr => absurd hr List.not_mem_nil, .nil _⟩
  sessions := ⟨[], 1, fun _ hr => absurd hr List.not_mem_nil, .nil _⟩
  store := StoredSession.emptyStore

theorem start_emptyTables : Start emptyTables where
  referential :=
    ⟨fun _ hr => absurd hr List.not_mem_nil, fun _ hr => absurd hr List.not_mem_nil,
      fun _ hr => absurd hr List.not_mem_nil, fun _ hr => absurd hr List.not_mem_nil,
      fun _ hr => absurd hr List.not_mem_nil⟩
  serial := ⟨fun _ hr => absurd hr List.not_mem_nil, .nil _⟩
  cache _ := rfl

/-- A benchmark of one session, which measures the queue once. -/
def queueBenchmark : DbBenchmark :=
  ⟨"queue", "once", [{ childDrp := newDbDataRatePattern }], false, ""⟩

def queueBenchmarkActions : List StoredAction :=
  let measured : List SessionAction := .poll .opened :: MeasureSession.pollQueueActions ++
    [.persist (.persistence true), .persist .tick, .persist (.recv (.queue ⟨0, 0, 0, 0, 1⟩)),
      .persist (.persisted true)]
  [.persistBenchmark none, .persistSession 5 {}, .started (some 0)] ++
    measured.map fun a => .measure a {}

theorem recorded_of_run_queue :
    ∃ s : StoredBenchmark 1 1,
      run (step queueBenchmark false) (init emptyTables) queueBenchmarkActions = some s ∧
      s.tables.Referential ∧ Recorded queueBenchmark emptyTables queueBenchmarkActions s := by
  have hrows : (run (step queueBenchmark false) (init emptyTables : StoredBenchmark 1 1)
      queueBenchmarkActions).map (fun s => (s.tables.sessions.rows.length,
        s.tables.store.queues.length)) = some (1, 1) := by
    decide +kernel
  obtain ⟨s, hs, -⟩ := Option.map_eq_some_iff.mp hrows
  exact ⟨s, hs, recorded_of_run 1 1 queueBenchmark false start_emptyTables _ s hs⟩

end StoredBenchmark

end Jens
