import Jens.Datatypes.Correct.Measure
import Jens.Lib.Keyed
import Jens.Lib.Steps
import Jens.Psql.Flows

/-!
# The cache of flows and the table agree

The key of the cache has no session in it, and the table has the flows of all sessions.  They agree
because the cache is empty when a session begins and no other session writes to it: at any time it
holds exactly the rows of the session that is played, each under the string of its endpoints
(`FlowStore.Coherent`).  That string names the endpoints, so a flow that is found in the cache is
the flow that was asked for, and one that is not found has no row yet
(`FlowStore.persistFlow_of_hit`, `FlowStore.persistFlow_of_miss`).
-/

namespace Jens

open Steps

/-- What the string of a flow is made of is in its key. -/
theorem DbNetworkFlow.measureIdStr_of_key_eq {r s : DbNetworkFlow} (h : r.key = s.key) :
    r.measureIdStr = s.measureIdStr := by
  injection h with _ hsrc hsport hdst hdport
  rw [measureIdStr, measureIdStr, hsrc, hsport, hdst, hdport]

theorem DbNetworkFlow.Dotted.of_key_eq {r s : DbNetworkFlow} (hs : s.Dotted) (h : r.key = s.key) :
    r.Dotted := by
  injection h with _ hsrc _ hdst _
  exact ⟨hsrc ▸ hs.source, hdst ▸ hs.destination⟩

/-- Flows of one session with the same string have the same key. -/
theorem DbNetworkFlow.key_eq_of_measureIdStr_eq {r s : DbNetworkFlow} (hr : r.Dotted)
    (hs : s.Dotted) (hid : r.sessionId = s.sessionId) (hstr : r.measureIdStr = s.measureIdStr) :
    r.key = s.key := by
  obtain ⟨⟨hsrc, hsport⟩, hdst, hdport⟩ := measureIdStr_inj hr hs hstr
  rw [key, key, hid, hsrc, hsport, hdst, hdport]

namespace FlowStore

/-! ### The invariant -/

/-- The invariant of the store while `session` is played. -/
structure Coherent (s : FlowStore) (session : Option ℤ) : Prop where
  flowId_lt : ∀ r ∈ s.table.rows, r.flowId < s.table.nextId
  uniqueId : UniqueBy DbNetworkFlow.flowId s.table.rows
  uniqueKey : UniqueBy DbNetworkFlow.key s.table.rows
  /-- The cache has rows of the session only, -/
  cached : ∀ str c, s.knownFlowsByMeasureId str = some c →
    c ∈ s.table.rows ∧ session = some c.sessionId ∧ c.measureIdStr = str ∧ c.Dotted
  /-- and it has all of them. -/
  complete : ∀ r ∈ s.table.rows, session = some r.sessionId →
    s.knownFlowsByMeasureId r.measureIdStr = some r

variable {s : FlowStore} {session : Option ℤ} {flow c : DbNetworkFlow}

/-- The flow that is found in the cache is the flow that was asked for. -/
theorem Coherent.key_eq_of_hit (hs : s.Coherent (some flow.sessionId)) (hflow : flow.Dotted)
    (hc : s.knownFlowsByMeasureId flow.measureIdStr = some c) : c.key = flow.key := by
  obtain ⟨-, hid, hstr, hdot⟩ := hs.cached _ _ hc
  have hsession : c.sessionId = flow.sessionId := (Option.some.inj hid).symm
  exact DbNetworkFlow.key_eq_of_measureIdStr_eq hdot hflow hsession hstr

/-- A flow that is not found has no row. -/
theorem Coherent.key_ne_of_miss (hs : s.Coherent (some flow.sessionId))
    (hc : s.knownFlowsByMeasureId flow.measureIdStr = none) :
    ∀ r ∈ s.table.rows, r.key ≠ flow.key := by
  intro r hr hkey
  have hid : r.sessionId = flow.sessionId := congrArg FlowKey.sessionId hkey
  have hhit := hs.complete r hr (congrArg some hid.symm)
  rw [DbNetworkFlow.measureIdStr_of_key_eq hkey, hc] at hhit
  cases hhit

/-! ### A change of the rows -/

/-- The store after a change of its rows, in the table and in the cache. -/
def map (s : FlowStore) (f : DbNetworkFlow → DbNetworkFlow) : FlowStore where
  table := { s.table with rows := s.table.rows.map f }
  knownFlowsByMeasureId := fun str => (s.knownFlowsByMeasureId str).map f

/-- A change that keeps the ids and the keys keeps the invariant. -/
theorem Coherent.map (hs : s.Coherent session) {f : DbNetworkFlow → DbNetworkFlow}
    (hid : ∀ r, (f r).flowId = r.flowId) (hkey : ∀ r, (f r).key = r.key) :
    (s.map f).Coherent session := by
  have hsession (r : DbNetworkFlow) : (f r).sessionId = r.sessionId :=
    congrArg FlowKey.sessionId (hkey r)
  have hstr (r : DbNetworkFlow) : (f r).measureIdStr = r.measureIdStr :=
    DbNetworkFlow.measureIdStr_of_key_eq (hkey r)
  refine ⟨?_, hs.uniqueId.map fun r _ => hid r, hs.uniqueKey.map fun r _ => hkey r, ?_, ?_⟩
  · intro r' hr'
    obtain ⟨r, hr, rfl⟩ := List.mem_map.mp hr'
    rw [hid]
    exact hs.flowId_lt r hr
  · intro str c' hc'
    obtain ⟨c, hc, rfl⟩ := Option.map_eq_some_iff.mp hc'
    obtain ⟨hmem, hses, hcstr, hdot⟩ := hs.cached str c hc
    rw [hsession, hstr]
    exact ⟨List.mem_map_of_mem hmem, hses, hcstr, hdot.of_key_eq (hkey c)⟩
  · intro r' hr' hses
    obtain ⟨r, hr, rfl⟩ := List.mem_map.mp hr'
    rw [hsession] at hses
    show (s.knownFlowsByMeasureId (f r).measureIdStr).map f = some (f r)
    rw [hstr, hs.complete r hr hses]
    rfl

/-! ### `persistFlow` -/

/-- What `Update` does to a row. -/
def withPrio (flowId : ℤ) (prio : UInt8) (r : DbNetworkFlow) : DbNetworkFlow :=
  if r.flowId = flowId then { r with prio := prio } else r

theorem flowId_withPrio (id : ℤ) (prio : UInt8) (r : DbNetworkFlow) :
    (withPrio id prio r).flowId = r.flowId := by
  unfold withPrio
  split_ifs <;> rfl

theorem key_withPrio (id : ℤ) (prio : UInt8) (r : DbNetworkFlow) :
    (withPrio id prio r).key = r.key := by
  unfold withPrio
  split_ifs <;> rfl

theorem withPrio_self (prio : UInt8) (r : DbNetworkFlow) :
    withPrio r.flowId prio r = { r with prio := prio } := if_pos rfl

theorem withPrio_of_ne {id : ℤ} {prio : UInt8} {r : DbNetworkFlow} (h : r.flowId ≠ id) :
    withPrio id prio r = r := if_neg h

/-- A flow that is in the cache gets the id of its row, and the row gets its priority. -/
theorem persistFlow_of_hit (hs : s.Coherent session)
    (hc : s.knownFlowsByMeasureId flow.measureIdStr = some c) :
    s.persistFlow {} flow =
      (s.map (withPrio c.flowId flow.prio), { flow with flowId := c.flowId }, none) := by
  have hmem : c ∈ s.table.rows := (hs.cached _ _ hc).1
  -- an id belongs to one row
  have hother {r : DbNetworkFlow} (hr : r ∈ s.table.rows) (hne : r ≠ c) :
      withPrio c.flowId flow.prio r = r :=
    withPrio_of_ne fun hid => hne (hs.uniqueId.eq_of_key_eq hr hmem hid)
  have hcache : (fun str => (s.knownFlowsByMeasureId str).map (withPrio c.flowId flow.prio)) =
      Function.update s.knownFlowsByMeasureId flow.measureIdStr
        (some { c with prio := flow.prio }) := by
    funext str
    by_cases hstr : str = flow.measureIdStr
    · rw [hstr, Function.update_self, hc, Option.map_some, withPrio_self]
    · rw [Function.update_of_ne hstr]
      cases he : s.knownFlowsByMeasureId str with
      | none => rfl
      | some e =>
        obtain ⟨hemem, -, hestr, -⟩ := hs.cached _ _ he
        have hne : e ≠ c := by
          intro heq
          rw [heq, (hs.cached _ _ hc).2.2.1] at hestr
          exact hstr hestr.symm
        rw [Option.map_some, hother hemem hne]
  rw [persistFlow, hc]
  dsimp only
  by_cases hprio : flow.prio = c.prio
  -- nothing is written, and there is nothing to write
  · have hsame : { c with prio := flow.prio } = c := by rw [hprio]
    have hrows : s.table.rows.map (withPrio c.flowId flow.prio) = s.table.rows := by
      refine (List.map_congr_left fun r hr => ?_).trans (List.map_id _)
      show withPrio c.flowId flow.prio r = r
      by_cases hrc : r = c
      · rw [hrc, withPrio_self, hsame]
      · exact hother hr hrc
    rw [if_neg (not_not.mpr hprio), map, hcache, hsame, hrows, ← hc, Function.update_eq_self]
  · rw [if_pos hprio, map, hcache]
    rfl

/-- The store with a new row, in the table and in the cache. -/
def withRow (s : FlowStore) (row : DbNetworkFlow) : FlowStore where
  table := { rows := s.table.rows ++ [row], nextId := s.table.nextId + 1 }
  knownFlowsByMeasureId := Function.update s.knownFlowsByMeasureId row.measureIdStr (some row)

/-- A flow that is not in the cache gets a row. -/
theorem persistFlow_of_miss (hs : s.Coherent (some flow.sessionId))
    (hc : s.knownFlowsByMeasureId flow.measureIdStr = none) :
    s.persistFlow {} flow = (s.withRow { flow with flowId := s.table.nextId },
      { flow with flowId := s.table.nextId }, none) := by
  have hfind : (s.table.rows.find? fun r => r.key = flow.key) = none := by
    rw [List.find?_eq_none]
    intro r hr
    simpa using hs.key_ne_of_miss hc r hr
  have hselect : s.table.select {} flow = .error FlowTable.noRows := by
    rw [FlowTable.select, hfind]
  have hsync : s.table.sync {} flow = s.table.insert {} flow := by
    rw [FlowTable.sync, hselect]
    exact if_pos rfl
  rw [persistFlow, hc, hsync]
  rfl

/-- A new row of the session keeps the invariant. -/
theorem Coherent.withRow {row : DbNetworkFlow} (hs : s.Coherent (some row.sessionId))
    (hrow : row.Dotted) (hid : row.flowId = s.table.nextId)
    (hc : s.knownFlowsByMeasureId row.measureIdStr = none) :
    (s.withRow row).Coherent (some row.sessionId) := by
  have hfresh : ∀ r ∈ s.table.rows, r.flowId ≠ row.flowId := by
    intro r hr
    rw [hid]
    exact (hs.flowId_lt r hr).ne
  refine ⟨?_, hs.uniqueId.concat hfresh, hs.uniqueKey.concat (hs.key_ne_of_miss hc), ?_, ?_⟩
  · intro r hr
    show r.flowId < s.table.nextId + 1
    rcases List.mem_append.mp hr with hr | hr
    · have := hs.flowId_lt r hr
      omega
    · rw [List.mem_singleton.mp hr]
      omega
  · intro str c hc'
    change Function.update s.knownFlowsByMeasureId row.measureIdStr (some row) str = some c at hc'
    by_cases hstr : str = row.measureIdStr
    · rw [hstr, Function.update_self] at hc'
      have heq : c = row := (Option.some.inj hc').symm
      rw [heq]
      exact ⟨List.mem_append_right _ (List.mem_singleton_self row), rfl, hstr.symm, hrow⟩
    · rw [Function.update_of_ne hstr] at hc'
      obtain ⟨hmem, hrest⟩ := hs.cached str c hc'
      exact ⟨List.mem_append_left _ hmem, hrest⟩
  · intro r hr hses
    show Function.update _ _ _ _ = _
    rcases List.mem_append.mp hr with hr | hr
    -- another row has another string, else the flow would have been found
    · have hold := hs.complete r hr hses
      have hstr : r.measureIdStr ≠ row.measureIdStr := by
        intro heq
        rw [heq, hc] at hold
        cases hold
      rw [Function.update_of_ne hstr, hold]
    · rw [List.mem_singleton.mp hr]
      exact Function.update_self _ _ _

/-- What a call of `persistFlow` leaves: the store `t`, the flow with its id, and no error. -/
structure Persisted (flow : DbNetworkFlow) (t : FlowStore) (flow' : DbNetworkFlow)
    (err : Option String) : Prop where
  noError : err = none
  /-- One row has the session and the endpoints of the flow; the id is the one of that row, which
  has the priority of the flow and is in the cache. -/
  row : ∃ row, (∀ r, r ∈ t.table.rows ∧ r.key = flow.key ↔ r = row) ∧
    flow'.flowId = row.flowId ∧ row.prio = flow.prio ∧
    t.knownFlowsByMeasureId flow.measureIdStr = some row
  /-- The id is not one of another session. -/
  session : ∀ r ∈ t.table.rows, r.flowId = flow'.flowId → r.sessionId = flow.sessionId

theorem Persisted.of_row {t : FlowStore} (ht : t.Coherent session) {row flow' : DbNetworkFlow}
    (hmem : row ∈ t.table.rows) (hkey : row.key = flow.key) (hid : flow'.flowId = row.flowId)
    (hprio : row.prio = flow.prio)
    (hcache : t.knownFlowsByMeasureId flow.measureIdStr = some row) :
    Persisted flow t flow' none := by
  refine ⟨rfl, ⟨row, fun r => ⟨?_, ?_⟩, hid, hprio, hcache⟩, ?_⟩
  · rintro ⟨hr, hrkey⟩
    exact ht.uniqueKey.eq_of_key_eq hr hmem (hrkey.trans hkey.symm)
  · intro hr
    rw [hr]
    exact ⟨hmem, hkey⟩
  · intro r hr hrid
    rw [ht.uniqueId.eq_of_key_eq hr hmem (hrid.trans hid)]
    exact congrArg FlowKey.sessionId hkey

/-- A call keeps the invariant, and settles the flow. -/
theorem persistFlow_spec (hs : s.Coherent (some flow.sessionId)) (hflow : flow.Dotted) :
    (s.persistFlow {} flow).1.Coherent (some flow.sessionId) ∧
      Persisted flow (s.persistFlow {} flow).1 (s.persistFlow {} flow).2.1
        (s.persistFlow {} flow).2.2 := by
  cases hc : s.knownFlowsByMeasureId flow.measureIdStr with
  | some c =>
    have ht := hs.map (flowId_withPrio c.flowId flow.prio) (key_withPrio c.flowId flow.prio)
    have hrow : withPrio c.flowId flow.prio c ∈ (s.map (withPrio c.flowId flow.prio)).table.rows :=
      List.mem_map_of_mem (hs.cached _ _ hc).1
    have hkey : (withPrio c.flowId flow.prio c).key = flow.key := by
      rw [key_withPrio]
      exact hs.key_eq_of_hit hflow hc
    have hcache : (s.map (withPrio c.flowId flow.prio)).knownFlowsByMeasureId flow.measureIdStr =
        some (withPrio c.flowId flow.prio c) := congrArg (Option.map _) hc
    rw [withPrio_self] at hrow hkey hcache
    rw [persistFlow_of_hit hs hc]
    exact ⟨ht, .of_row ht hrow hkey rfl rfl hcache⟩
  | none =>
    have hs' : s.Coherent (some { flow with flowId := s.table.nextId }.sessionId) := hs
    have ht := hs'.withRow (hflow.of_key_eq rfl) rfl hc
    have hrow := List.mem_append_right s.table.rows
      (List.mem_singleton_self { flow with flowId := s.table.nextId })
    rw [persistFlow_of_miss hs hc]
    exact ⟨ht, .of_row ht hrow rfl rfl rfl (Function.update_self _ _ _)⟩

end FlowStore

/-! ### Runs -/

namespace FlowSessions

/-- The invariant of the store over the sessions of a process. -/
structure WellFormed (s : FlowSessions) : Prop where
  coherent : s.store.Coherent s.session
  session : ∀ id ∈ s.session, id ∈ s.known
  known : ∀ r ∈ s.store.table.rows, r.sessionId ∈ s.known

theorem Start.wellFormed {s : FlowSessions} (h : s.Start) : s.WellFormed := by
  refine ⟨⟨h.nextId, h.nodup_flowId, h.nodup_key, ?_, ?_⟩, ?_, h.known⟩
  · intro str c hc
    rw [h.cache] at hc
    cases hc
  · intro r _ hses
    rw [h.session] at hses
    cases hses
  · intro id hid
    rw [h.session] at hid
    cases hid

/-- A new session has no rows, and its cache is empty. -/
theorem WellFormed.begin {s : FlowSessions} (hs : s.WellFormed) {id : ℤ} (hid : id ∉ s.known) :
    (s.begin id).WellFormed := by
  refine ⟨⟨hs.coherent.flowId_lt, hs.coherent.uniqueId, hs.coherent.uniqueKey, ?_, ?_⟩, ?_, ?_⟩
  · intro str c hc
    cases hc
  · intro r hr hses
    rw [Option.some.inj hses] at hid
    exact absurd (hs.known r hr) hid
  · intro id' hid'
    rw [← Option.some.inj hid']
    exact List.mem_cons_self
  · intro r hr
    exact List.mem_cons_of_mem id (hs.known r hr)

/-- The rows after a call are of sessions there have been. -/
theorem sessionId_of_mem_persistFlow {s : FlowStore} {flow : DbNetworkFlow} {known : List ℤ}
    (hs : s.Coherent (some flow.sessionId)) (hknown : ∀ r ∈ s.table.rows, r.sessionId ∈ known)
    (hflow : flow.sessionId ∈ known) :
    ∀ r ∈ (s.persistFlow {} flow).1.table.rows, r.sessionId ∈ known := by
  intro r hr
  cases hc : s.knownFlowsByMeasureId flow.measureIdStr with
  | some c =>
    rw [FlowStore.persistFlow_of_hit hs hc] at hr
    obtain ⟨r', hr', rfl⟩ := List.mem_map.mp hr
    have hsession : (FlowStore.withPrio c.flowId flow.prio r').sessionId = r'.sessionId :=
      congrArg FlowKey.sessionId (FlowStore.key_withPrio _ _ _)
    rw [hsession]
    exact hknown r' hr'
  | none =>
    rw [FlowStore.persistFlow_of_miss hs hc] at hr
    rcases List.mem_append.mp hr with hr | hr
    · exact hknown r hr
    · rw [List.mem_singleton.mp hr]
      exact hflow

theorem wellFormed_of_step (s : FlowSessions) (a : FlowAction) (t : FlowSessions)
    (hs : s.WellFormed) (h : s.step a = some t) : t.WellFormed := by
  cases a with
  | session id =>
    rw [step, Option.ite_none_left_eq_some] at h
    rw [← Option.some.inj h.2]
    exact hs.begin h.1
  | persistFlow record =>
    obtain ⟨id, hid, h⟩ := Option.bind_eq_some_iff.mp h
    split at h
    case h_2 => cases h
    case h_1 pm hpm =>
      rw [← Option.some.inj h]
      have hnet := RecordArray.netFlow_of_asPacketMeasure hpm
      have hsession : s.session = some pm.netFlow.sessionId := by rw [hid, hnet.2.1]
      have hcoh : s.store.Coherent (some pm.netFlow.sessionId) := hsession ▸ hs.coherent
      refine ⟨?_, hs.session, ?_⟩
      · show FlowStore.Coherent _ s.session
        rw [hsession]
        exact (FlowStore.persistFlow_spec hcoh hnet.1).1
      · exact sessionId_of_mem_persistFlow hcoh hs.known (hs.session _ hsession)

/-- **In every run, a call of `persistFlow` leaves one row for the flow.**  It has the session and
the endpoints of the flow, the id that is returned and the priority of the flow, and the cache has
that row; no row of another session has that id, and no two rows have the same session and
endpoints, before the call and after it. -/
theorem persistFlow_coherent {s₀ s : FlowSessions} {acts : List FlowAction} (hstart : s₀.Start)
    (hrun : run step s₀ acts = some s) {record : RecordArray} {id : ℤ} {pm : PacketMeasure}
    (hid : s.session = some id) (hpm : record.asPacketMeasure id = .ok (some pm)) :
    FlowStore.Persisted pm.netFlow (s.store.persistFlow {} pm.netFlow).1
        (s.store.persistFlow {} pm.netFlow).2.1 (s.store.persistFlow {} pm.netFlow).2.2 ∧
      UniqueBy DbNetworkFlow.key s.store.table.rows ∧
      UniqueBy DbNetworkFlow.key (s.store.persistFlow {} pm.netFlow).1.table.rows := by
  have hs : s.WellFormed := run_invariant wellFormed_of_step hstart.wellFormed hrun
  have hnet := RecordArray.netFlow_of_asPacketMeasure hpm
  have hsession : s.session = some pm.netFlow.sessionId := by rw [hid, hnet.2.1]
  have hcoh : s.store.Coherent (some pm.netFlow.sessionId) := hsession ▸ hs.coherent
  have hspec := FlowStore.persistFlow_spec hcoh hnet.1
  exact ⟨hspec.2, hs.coherent.uniqueKey, hspec.1.uniqueKey⟩

/-- The record of a packet from 10.0.0.1:80 to 10.0.0.2:81, with the priority in its byte 51. -/
def tcpRecord (byte : UInt8) : RecordArray :=
  [(8, RecordArray.recordTypeP), (28, 10), (31, 1), (44, 10), (47, 2), (51, byte), (53, 6),
    (54, 80), (56, 81)].foldl (fun r p => r.setIfInBounds p.1 p.2) (Vector.replicate 64 0)

/-- Two sessions with the same flow, whose priority changes in the second. -/
theorem persistFlow_coherent_twoSessions : ∃ s : FlowSessions,
    let flow : DbNetworkFlow := ⟨0, 2, "10.0.0.1", 80, "10.0.0.2", 81, 1⟩
    run step ⟨⟨⟨[], 1⟩, fun _ => none⟩, none, []⟩ [.session 1, .persistFlow (tcpRecord 0),
        .session 2, .persistFlow (tcpRecord 0)] = some s ∧
      FlowStore.Persisted flow (s.store.persistFlow {} flow).1 (s.store.persistFlow {} flow).2.1
        (s.store.persistFlow {} flow).2.2 := by
  have hsome : (run step ⟨⟨⟨[], 1⟩, fun _ => none⟩, none, []⟩ [.session 1,
      .persistFlow (tcpRecord 0), .session 2, .persistFlow (tcpRecord 0)]).map
        FlowSessions.session = some (some 2) := by decide +kernel
  obtain ⟨s, hrun, hid⟩ := Option.map_eq_some_iff.mp hsome
  have hstart : Start ⟨⟨⟨[], 1⟩, fun _ => none⟩, none, []⟩ := by
    refine ⟨fun _ => rfl, rfl, ?_, ?_, List.nodup_nil, List.nodup_nil⟩ <;> simp
  have hpm : (tcpRecord 64).asPacketMeasure 2 = .ok (some ⟨0, 0, 0, 0, false, false, false, false,
      0, 0, ⟨0, 2, "10.0.0.1", 80, "10.0.0.2", 81, 1⟩⟩) := by decide +kernel
  exact ⟨s, hrun, (persistFlow_coherent hstart hrun hid hpm).1⟩

end FlowSessions

end Jens
