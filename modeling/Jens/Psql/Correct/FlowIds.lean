import Jens.Psql.Correct.Flows

/-!
# The ids of the flows

Whichever statements fail, a call of `persistFlow` takes no row of `network_flow` away and gives no
id twice (`FlowTable.Changes`).  If it returns without an error, the id it has found or made is the
one of a row for the flow in its session, and the cache has such ids only (`Linked.persistFlow`).
-/

namespace Jens

/-! ### The table of the flows -/

namespace FlowTable

/-- The serial of the table works. -/
structure Serial (t : FlowTable) : Prop where
  flowId_lt : ∀ r ∈ t.rows, r.flowId < t.nextId
  uniqueId : UniqueBy DbNetworkFlow.flowId t.rows

/-- The id is the one of a row of the session for the flow with this string. -/
def Names (t : FlowTable) (sessionId id : ℤ) (str : String) : Prop :=
  ∃ r ∈ t.rows, r.flowId = id ∧ r.sessionId = sessionId ∧ r.measureIdStr = str

/-- What the statements for a flow of the session do to the table. -/
inductive Changes (t : FlowTable) (sessionId : ℤ) : FlowTable → Prop
  | keep : Changes t sessionId t
  | insert (s : DbNetworkFlow) : s.sessionId = sessionId →
      Changes t sessionId ⟨t.rows ++ [{ s with flowId := t.nextId }], t.nextId + 1⟩
  | update (flowId : ℤ) (prio : UInt8) :
      Changes t sessionId { t with
        rows := t.rows.map fun r => if r.flowId = flowId then { r with prio := prio } else r }

variable {t u : FlowTable} {answers : FlowAnswers} {s : DbNetworkFlow} {sessionId : ℤ}

theorem changes_of_insert : t.Changes s.sessionId (t.insert answers s).1 := by
  unfold insert
  split
  · exact .keep
  · exact .insert s rfl

theorem changes_of_update {flowId : ℤ} {prio : UInt8} :
    t.Changes sessionId (t.update answers flowId prio) := by
  unfold update
  split
  · exact .keep
  · exact .update flowId prio

theorem changes_of_sync : t.Changes s.sessionId (t.sync answers s).1 := by
  unfold sync
  split
  · exact .keep
  · split_ifs
    · exact changes_of_insert
    · exact .keep

theorem Changes.serial (h : t.Changes sessionId u) (ht : t.Serial) : u.Serial := by
  cases h with
  | keep => exact ht
  | insert s _ =>
    have hnew : ∀ r ∈ t.rows, r.flowId ≠ t.nextId := fun r hr => (ht.flowId_lt r hr).ne
    refine ⟨fun r hr => ?_, ht.uniqueId.concat hnew⟩
    rcases List.mem_append.mp hr with hr | hr
    · have hlt := ht.flowId_lt r hr
      show r.flowId < t.nextId + 1
      omega
    · rw [List.mem_singleton.mp hr]
      show t.nextId < t.nextId + 1
      omega
  | update flowId prio =>
    have hid : ∀ r : DbNetworkFlow,
        (if r.flowId = flowId then { r with prio := prio } else r).flowId = r.flowId := by
      intro r
      split_ifs <;> rfl
    refine ⟨fun r hr => ?_, ht.uniqueId.map fun r _ => hid r⟩
    obtain ⟨r', hr', rfl⟩ := List.mem_map.mp hr
    rw [hid]
    exact ht.flowId_lt r' hr'

/-- No statement takes a row away, or its id, session or endpoints. -/
theorem Changes.row (h : t.Changes sessionId u) {r : DbNetworkFlow} (hr : r ∈ t.rows) :
    ∃ r' ∈ u.rows, r'.flowId = r.flowId ∧ r'.key = r.key := by
  cases h with
  | keep => exact ⟨r, hr, rfl, rfl⟩
  | insert s _ => exact ⟨r, List.mem_append_left _ hr, rfl, rfl⟩
  | update flowId prio =>
    refine ⟨_, List.mem_map_of_mem hr, ?_, ?_⟩
    · split_ifs <;> rfl
    · split_ifs <;> rfl

/-- A new row is one of the session. -/
theorem Changes.session (h : t.Changes sessionId u) {r : DbNetworkFlow} (hr : r ∈ u.rows) :
    (∃ r' ∈ t.rows, r'.sessionId = r.sessionId) ∨ r.sessionId = sessionId := by
  cases h with
  | keep => exact .inl ⟨r, hr, rfl⟩
  | insert s hs =>
    rcases List.mem_append.mp hr with hr | hr
    · exact .inl ⟨r, hr, rfl⟩
    · rw [List.mem_singleton.mp hr]
      exact .inr hs
  | update flowId prio =>
    obtain ⟨r', hr', rfl⟩ := List.mem_map.mp hr
    refine .inl ⟨r', hr', ?_⟩
    split_ifs <;> rfl

theorem Changes.names (h : t.Changes sessionId u) {session id : ℤ} {str : String}
    (hn : t.Names session id str) : u.Names session id str := by
  obtain ⟨r, hr, rfl, rfl, rfl⟩ := hn
  obtain ⟨r', hr', hid, hkey⟩ := h.row hr
  exact ⟨r', hr', hid, congrArg FlowKey.sessionId hkey, DbNetworkFlow.measureIdStr_of_key_eq hkey⟩

/-- A row with an id is the only one. -/
theorem Serial.existsUnique (h : t.Serial) {id : ℤ} {str : String}
    (hn : t.Names sessionId id str) :
    ∃ row, (∀ r, r ∈ t.rows ∧ r.flowId = id ↔ r = row) ∧
      row.sessionId = sessionId ∧ row.measureIdStr = str := by
  obtain ⟨row, hrow, hid, hsession, hstr⟩ := hn
  refine ⟨row, fun r => ⟨?_, ?_⟩, hsession, hstr⟩
  · rintro ⟨hr, hrid⟩
    exact h.uniqueId.eq_of_key_eq hr hrow (hrid.trans hid.symm)
  · rintro rfl
    exact ⟨hrow, hid⟩

/-- A flow that is synced without an error has the id of its row. -/
theorem names_of_sync (h : (t.sync answers s).2.2 = none) :
    (t.sync answers s).1.Names s.sessionId (t.sync answers s).2.1.flowId s.measureIdStr := by
  unfold sync at h ⊢
  split
  · rename_i flowId hselect
    unfold select at hselect
    split at hselect
    · cases hselect
    · split at hselect
      · rename_i r hfind
        obtain rfl := Except.ok.inj hselect
        have hkey : r.key = s.key := by simpa using List.find?_some hfind
        exact ⟨r, List.mem_of_find?_eq_some hfind, rfl, congrArg FlowKey.sessionId hkey,
          DbNetworkFlow.measureIdStr_of_key_eq hkey⟩
      · cases hselect
  · rename_i err hselect
    rw [hselect] at h
    dsimp only at h
    split_ifs at h ⊢ with herr
    unfold insert at h ⊢
    split
    · rename_i hans
      rw [hans] at h
      cases h
    · exact ⟨_, List.mem_append_right _ (List.mem_singleton_self _), rfl, rfl, rfl⟩

end FlowTable

/-! ### The cache -/

namespace FlowStore

variable {s : FlowStore} {answers : FlowAnswers} {flow : DbNetworkFlow} {sessionId : ℤ}

/-- The ids in the cache are those of rows of the session. -/
def Linked (s : FlowStore) (sessionId : ℤ) : Prop :=
  ∀ str c, s.knownFlowsByMeasureId str = some c → s.table.Names sessionId c.flowId str

/-- An empty cache. -/
theorem linked_of_empty (h : ∀ str, s.knownFlowsByMeasureId str = none) : s.Linked sessionId := by
  intro str c hc
  rw [h] at hc
  cases hc

theorem changes_of_persistFlow (s : FlowStore) (answers : FlowAnswers) (flow : DbNetworkFlow) :
    s.table.Changes flow.sessionId (s.persistFlow answers flow).1.table := by
  unfold persistFlow
  split
  · split_ifs
    · exact FlowTable.changes_of_update
    · exact .keep
  · exact FlowTable.changes_of_sync

/-- A change of the table and a new entry that names a row. -/
theorem Linked.update (h : s.Linked sessionId) {t : FlowTable} (ht : s.table.Changes sessionId t)
    {str : String} {c : DbNetworkFlow} (hc : t.Names sessionId c.flowId str) :
    Linked ⟨t, Function.update s.knownFlowsByMeasureId str (some c)⟩ sessionId := by
  intro str' c' hc'
  change Function.update s.knownFlowsByMeasureId str (some c) str' = some c' at hc'
  by_cases hstr : str' = str
  · subst hstr
    rw [Function.update_self] at hc'
    exact Option.some.inj hc' ▸ hc
  · rw [Function.update_of_ne hstr] at hc'
    exact ht.names (h str' c' hc')

/-- A call without an error keeps the cache right and gives the flow the id of its row. -/
theorem Linked.persistFlow (h : s.Linked flow.sessionId)
    (herr : (s.persistFlow answers flow).2.2 = none) :
    (s.persistFlow answers flow).1.Linked flow.sessionId ∧
      (s.persistFlow answers flow).1.table.Names flow.sessionId
        (s.persistFlow answers flow).2.1.flowId flow.measureIdStr := by
  unfold FlowStore.persistFlow at herr ⊢
  split
  · rename_i c hc
    have hnames := h _ c hc
    split_ifs
    · have ht : s.table.Changes flow.sessionId (s.table.update answers c.flowId flow.prio) :=
        FlowTable.changes_of_update
      exact ⟨h.update ht (ht.names hnames), ht.names hnames⟩
    · exact ⟨h, hnames⟩
  · rename_i hc
    rw [hc] at herr
    have hnames := FlowTable.names_of_sync herr
    exact ⟨h.update FlowTable.changes_of_sync hnames, hnames⟩

end FlowStore

end Jens
