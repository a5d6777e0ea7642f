import Jens.Psql.Correct.Flows

/-!
# `persist_flow` when the database fails

`Fails` says that a statement `persist_flow` needs fails: the `Update` of a flow whose priority has
changed, the `SELECT` for a flow that is not in the cache, or the `INSERT` of one that has no row.
A failed call should report its error and leave the cache as it was (`KeepsCache`), and none does
(`keepsCache_iff`): the error of `Update` is thrown away, and a flow that `Sync` could not find or
insert is cached with the id it came with.

As long as none of these statements fails, a call does what it does on a sound database, so in such
a run the cache holds rows of the table only (`coherent_of_run_answered`).
-/

namespace Jens

open Steps

namespace FlowStore

/-- A statement that the call needs fails. -/
def Fails (answers : FlowAnswers) (s : FlowStore) (flow : DbNetworkFlow) : Prop :=
  match s.knownFlowsByMeasureId flow.measureIdStr with
  | some flowInCache => flow.prio ≠ flowInCache.prio ∧ answers.update ≠ none
  | none => answers.select ≠ none ∨
      (∀ r ∈ s.table.rows, r.key ≠ flow.key) ∧ answers.insert ≠ none

instance (answers : FlowAnswers) (s : FlowStore) (flow : DbNetworkFlow) :
    Decidable (Fails answers s flow) := by
  unfold Fails
  split <;> infer_instance

/-- A call that fails reports an error and leaves the cache as it was. -/
def KeepsCache (answers : FlowAnswers) (s : FlowStore) (flow : DbNetworkFlow) : Prop :=
  Fails answers s flow → (s.persistFlow answers flow).2.2 ≠ none ∧
    (s.persistFlow answers flow).1.knownFlowsByMeasureId = s.knownFlowsByMeasureId

variable {answers : FlowAnswers} {s : FlowStore} {flow c : DbNetworkFlow}

/-- A call for a cached flow never reports an error. -/
theorem persistFlow_hit_noError (hc : s.knownFlowsByMeasureId flow.measureIdStr = some c) :
    (s.persistFlow answers flow).2.2 = none := by
  rw [persistFlow, hc]
  dsimp only
  split_ifs <;> rfl

/-- After a call for a flow that was not in the cache there is something under its string. -/
theorem persistFlow_miss_cached (hc : s.knownFlowsByMeasureId flow.measureIdStr = none) :
    (s.persistFlow answers flow).1.knownFlowsByMeasureId flow.measureIdStr =
      some (s.table.sync answers flow).2.1 := by
  rw [persistFlow, hc]
  exact Function.update_self _ _ _

/-- **A call that fails never keeps the cache.** -/
theorem not_kept_of_fails (h : Fails answers s flow) : ¬ KeepsCache answers s flow := by
  intro hkeeps
  obtain ⟨herr, hcache⟩ := hkeeps h
  cases hc : s.knownFlowsByMeasureId flow.measureIdStr with
  | some c => exact herr (persistFlow_hit_noError hc)
  | none =>
    have hnew : (s.persistFlow answers flow).1.knownFlowsByMeasureId flow.measureIdStr =
        some (s.table.sync answers flow).2.1 := persistFlow_miss_cached hc
    rw [hcache, hc] at hnew
    cases hnew

/-- **What a failure leaves.**  A call reports its failure and keeps the cache exactly if nothing it
needs fails. -/
theorem keepsCache_iff (answers : FlowAnswers) (s : FlowStore) (flow : DbNetworkFlow) :
    KeepsCache answers s flow ↔ ¬ Fails answers s flow :=
  ⟨fun hkeeps h => not_kept_of_fails h hkeeps, fun h hf => absurd hf h⟩

/-! ### Calls that do not fail -/

theorem sync_of_not_fails (hc : s.knownFlowsByMeasureId flow.measureIdStr = none)
    (h : ¬ Fails answers s flow) : s.table.sync answers flow = s.table.sync {} flow := by
  unfold Fails at h
  rw [hc] at h
  obtain ⟨hselect, hinsert⟩ := not_or.mp h
  have hsel : s.table.select answers flow = s.table.select {} flow := by
    rw [FlowTable.select, not_not.mp hselect]
    rfl
  unfold FlowTable.sync
  rw [hsel]
  cases hrow : s.table.rows.find? fun r => r.key = flow.key with
  | some r =>
    have hfound : s.table.select {} flow = .ok r.flowId := by rw [FlowTable.select, hrow]
    rw [hfound]
  | none =>
    have habsent : ∀ r ∈ s.table.rows, r.key ≠ flow.key := by simpa using hrow
    have hins : answers.insert = none := not_not.mp fun hne => hinsert ⟨habsent, hne⟩
    have hnone : s.table.insert answers flow = s.table.insert {} flow := by
      rw [FlowTable.insert, hins]
      rfl
    rw [hnone]

/-- A call none of whose statements fails does what it does on a sound database. -/
theorem persistFlow_of_not_fails (h : ¬ Fails answers s flow) :
    s.persistFlow answers flow = s.persistFlow {} flow := by
  cases hc : s.knownFlowsByMeasureId flow.measureIdStr with
  | some c =>
    unfold Fails at h
    rw [hc] at h
    rw [persistFlow, persistFlow, hc]
    dsimp only
    by_cases hprio : flow.prio = c.prio
    · rw [if_neg (not_not.mpr hprio), if_neg (not_not.mpr hprio)]
    · have hupd : answers.update = none := not_not.mp fun hne => h ⟨hprio, hne⟩
      have hnone : s.table.update answers c.flowId flow.prio =
          s.table.update {} c.flowId flow.prio := by
        rw [FlowTable.update, hupd]
        rfl
      rw [hnone]
  | none =>
    have hsync := sync_of_not_fails hc h
    rw [persistFlow, persistFlow, hc]
    dsimp only
    rw [hsync]

end FlowStore

/-! ### Runs -/

namespace FlowSessions

/-- One step, with the answers of the database. -/
def stepAnswered (s : FlowSessions) (a : FlowAction × FlowAnswers) : Option FlowSessions :=
  match a.1 with
  | .session id => if id ∈ s.known then none else some (s.begin id)
  | .persistFlow record =>
    s.session.bind fun id =>
      match record.asPacketMeasure id with
      | .ok (some pm) => some { s with store := (s.store.persistFlow a.2 pm.netFlow).1 }
      | _ => none

/-- No statement that the step needs fails. -/
def NoFailure (s : FlowSessions) (a : FlowAction × FlowAnswers) : Prop :=
  ∀ record id pm, a.1 = .persistFlow record → s.session = some id →
    record.asPacketMeasure id = .ok (some pm) → ¬ FlowStore.Fails a.2 s.store pm.netFlow

theorem stepAnswered_of_noFailure {s : FlowSessions} {a : FlowAction × FlowAnswers}
    (h : NoFailure s a) : s.stepAnswered a = s.step a.1 := by
  obtain ⟨action, answers⟩ := a
  cases action with
  | session id => rfl
  | persistFlow record =>
    cases hid : s.session with
    | none => simp [stepAnswered, step, hid]
    | some id =>
      unfold stepAnswered step
      simp only [hid, Option.bind_some]
      cases hpm : record.asPacketMeasure id with
      | error err => rfl
      | ok decoded =>
        cases decoded with
        | none => rfl
        | some pm =>
          have hno : ¬ FlowStore.Fails answers s.store pm.netFlow := h record id pm rfl hid hpm
          dsimp only
          rw [FlowStore.persistFlow_of_not_fails hno]

/-- In a run in which nothing that is needed fails, the cache holds rows of the table only, with
their ids and priorities. -/
theorem coherent_of_run_answered {s₀ s : FlowSessions} {acts : List (FlowAction × FlowAnswers)}
    (hstart : s₀.Start) (hrun : run stepAnswered s₀ acts = some s)
    (hmeet : StepsMeet stepAnswered NoFailure s₀ acts) : s.store.Coherent s.session := by
  refine (invariant_of_stepsMeet (I := WellFormed) ?_ hstart.wellFormed hmeet hrun).coherent
  intro s a s' hs hno h
  rw [stepAnswered_of_noFailure hno] at h
  exact wellFormed_of_step s a.1 s' hs h

end FlowSessions

namespace FlowStore

/-- **The id of no row.**  The insert fails, which is reported; but the flow is cached with the id 0
it came with, and the next call, on a sound database, returns that id without an error. -/
theorem insert_failure_cached :
    let s : FlowStore := ⟨⟨[], 1⟩, fun _ => none⟩
    let flow : DbNetworkFlow := ⟨0, 1, "10.0.0.1", 80, "10.0.0.2", 81, 0⟩
    let failed := s.persistFlow { insert := some "connection reset" } flow
    let later := failed.1.persistFlow {} flow
    ¬ KeepsCache { insert := some "connection reset" } s flow ∧
      failed.2.2 = some "connection reset" ∧ later.2.2 = none ∧ later.2.1.flowId = 0 ∧
      later.1.table.rows = [] := by
  refine ⟨not_kept_of_fails ?_, by decide, by decide, by decide, by decide⟩
  decide

/-- **The priority of no row.**  The update fails; that is not reported, and the cache has the new
priority all the same. -/
theorem update_failure_cached :
    let row : DbNetworkFlow := ⟨7, 1, "10.0.0.1", 80, "10.0.0.2", 81, 0⟩
    let s : FlowStore := ⟨⟨[row], 8⟩, fun str => if str = row.measureIdStr then some row else none⟩
    let failed := s.persistFlow { update := some "connection reset" } { row with prio := 1 }
    failed.2.2 = none ∧ failed.1.table.rows = [row] ∧
      (failed.1.knownFlowsByMeasureId row.measureIdStr).map DbNetworkFlow.prio = some 1 := by
  decide

end FlowStore

end Jens
