import Jens.Psql.Commit

/-!
# Which samples are committed when `Wait` returns

A row belongs to the transaction that is open when its `Persist` succeeds, and that transaction is
committed by the next `tx.Commit` of its kind (`committed_iff_of_run`).  `Commit` does not wait for
the goroutines that do so, hence at the end of a session the samples are committed exactly if the
schedule let a goroutine commit after each of them, and none was skipped (`durable_iff`).

The invariant is `WellFormed`: the open transactions are not committed, the two kinds have different
ones, and a statement belongs to the open transaction of its kind or to a committed one.
-/

namespace Jens.DataBase

open Steps

/-! ### The invariant -/

/-- What holds of each kind between two steps. -/
structure BulkWellFormed (s : DataBase) (k : Bulk) : Prop where
  tx_lt : (s.bulk k).tx < s.nextTx
  begun : (s.bulk k).tx ∈ s.committed ↔ (s.bulk k).holder = some .beginning
  stmt : (s.bulk k).stmt = (s.bulk k).tx ∨ (s.bulk k).stmt ∈ s.committed

/-- The invariant of the store. -/
structure WellFormed (s : DataBase) : Prop where
  bulk : ∀ k, s.BulkWellFormed k
  committed_lt : ∀ i ∈ s.committed, i < s.nextTx
  ne : (s.bulk .packet).tx ≠ (s.bulk .queue).tx

theorem WellFormed.tx_ne {s : DataBase} (hs : s.WellFormed) {k k' : Bulk} (hk : k' ≠ k) :
    (s.bulk k').tx ≠ (s.bulk k).tx := by
  cases k <;> cases k' <;> simp_all [hs.ne, hs.ne.symm]

theorem init_wellFormed : init.WellFormed where
  bulk k := by cases k <;> exact ⟨by decide, by decide, by decide⟩
  committed_lt i hi := by cases hi
  ne := by decide

/-! ### The step relation -/

/-- What a step does to the transactions. -/
inductive Moves (s : DataBase) : DbAction → DataBase → Prop
  | commit {k : Bulk} : (s.bulk k).holder = some .committing →
      Moves s (.commit k) { s.update k { s.bulk k with holder := some .beginning } with
        committed := (s.bulk k).tx :: s.committed }
  | begin {k : Bulk} : (s.bulk k).holder = some .beginning →
      Moves s (.begin k)
        { s.update k { s.bulk k with tx := s.nextTx, holder := some .preparing } with
          nextTx := s.nextTx + 1 }
  | other {a : DbAction} {t : DataBase} : (∀ k, a ≠ .commit k) →
      t.nextTx = s.nextTx → t.committed = s.committed →
      (∀ k, (t.bulk k).tx = (s.bulk k).tx) →
      (∀ k, (t.bulk k).holder = some .beginning ↔ (s.bulk k).holder = some .beginning) →
      (∀ k, (t.bulk k).stmt = (s.bulk k).stmt ∨ (t.bulk k).stmt = (s.bulk k).tx) → Moves s a t

/-- A change of one kind that leaves its transaction alone. -/
theorem Moves.update {s : DataBase} {k : Bulk} {b : BulkTx} {a : DbAction} (ha : ∀ k, a ≠ .commit k)
    (htx : b.tx = (s.bulk k).tx) (hs : (s.bulk k).holder ≠ some .beginning)
    (hb : b.holder ≠ some .beginning) (hstmt : b.stmt = (s.bulk k).stmt ∨ b.stmt = (s.bulk k).tx) :
    Moves s a (s.update k b) := by
  refine .other ha rfl rfl (fun k' => ?_) (fun k' => ?_) fun k' => ?_ <;>
    by_cases hk : k' = k
  · subst hk
    simpa [DataBase.update] using htx
  · simp [DataBase.update, hk]
  · subst hk
    simp [DataBase.update, hs, hb]
  · simp [DataBase.update, hk]
  · subst hk
    simpa [DataBase.update] using hstmt
  · simp [DataBase.update, hk]

theorem moves_of_step {s t : DataBase} {a : DbAction} (h : s.step a = some t) : Moves s a t := by
  have hother {a : DbAction} {t : DataBase} (ha : ∀ k, a ≠ .commit k) (hn : t.nextTx = s.nextTx)
      (hc : t.committed = s.committed) (htx : ∀ k, (t.bulk k).tx = (s.bulk k).tx)
      (hh : ∀ k, (t.bulk k).holder = (s.bulk k).holder)
      (hs : ∀ k, (t.bulk k).stmt = (s.bulk k).stmt) : Moves s a t :=
    .other ha hn hc htx (fun k => by rw [hh]) fun k => .inl (hs k)
  unfold step at h
  split at h
  case h_1 x =>
    rw [Option.ite_none_right_eq_some] at h
    obtain ⟨-, h⟩ := h
    split at h <;> obtain rfl := Option.some.inj h <;>
      exact hother (by simp) rfl rfl (fun _ => rfl) (fun _ => rfl) fun _ => rfl
  case h_2 =>
    obtain rfl := Option.some.inj h
    exact hother (by simp) rfl rfl (fun _ => rfl) (fun _ => rfl) fun _ => rfl
  case h_6 k =>
    obtain ⟨⟨-, hnone⟩, h⟩ := Option.ite_none_right_eq_some.mp h
    obtain rfl := Option.some.inj h
    exact .update (by simp) rfl (by simp [hnone]) (by simp) (.inl rfl)
  case h_7 k =>
    obtain ⟨hpc, h⟩ := Option.ite_none_right_eq_some.mp h
    obtain rfl := Option.some.inj h
    exact .commit hpc
  case h_8 k =>
    obtain ⟨hpc, h⟩ := Option.ite_none_right_eq_some.mp h
    obtain rfl := Option.some.inj h
    exact .begin hpc
  case h_9 k =>
    obtain ⟨hpc, h⟩ := Option.ite_none_right_eq_some.mp h
    obtain rfl := Option.some.inj h
    exact .update (by simp) rfl (by simp [hpc]) (by simp) (.inr rfl)
  -- the calls that end a session
  all_goals
    obtain ⟨-, h⟩ := Option.ite_none_right_eq_some.mp h
    obtain rfl := Option.some.inj h
    exact hother (by simp) rfl rfl (fun _ => rfl) (fun _ => rfl) fun _ => rfl

theorem wellFormed_of_step {s t : DataBase} {a : DbAction} (hs : s.WellFormed)
    (h : s.step a = some t) : t.WellFormed := by
  cases moves_of_step h with
  | @commit k hpc =>
    refine ⟨fun k' => ?_, ?_, ?_⟩
    · have hb := hs.bulk k'
      by_cases hk : k' = k
      · subst hk
        refine ⟨?_, ?_, ?_⟩
        · simpa [update] using hb.tx_lt
        -- the transaction of this kind is committed now, and its goroutine before `db.Begin`
        · simp [update]
        · simpa [update] using hb.stmt
      · have hne := hs.tx_ne hk
        refine ⟨?_, ?_, ?_⟩
        · simpa [update, hk] using hb.tx_lt
        · simpa [update, hk, hne] using hb.begun
        · have hstmt := hb.stmt.imp_right (List.mem_cons_of_mem (s.bulk k).tx)
          simpa [update, hk] using hstmt
    · simpa [update] using ⟨(hs.bulk k).tx_lt, hs.committed_lt⟩
    · cases k <;> simpa [update] using hs.ne
  | @begin k hpc =>
    have hfresh : s.nextTx ∉ s.committed := fun h => Nat.lt_irrefl _ (hs.committed_lt _ h)
    refine ⟨fun k' => ?_, ?_, ?_⟩
    · have hb := hs.bulk k'
      by_cases hk : k' = k
      · subst hk
        -- the statement still belongs to the old transaction, which is over
        have hover : (s.bulk k').stmt ∈ s.committed := by
          rcases hb.stmt with heq | hmem
          · rw [heq]
            exact hb.begun.mpr hpc
          · exact hmem
        refine ⟨?_, ?_, .inr ?_⟩
        · simp [update]
        · simpa [update] using hfresh
        · simpa [update] using hover
      · have hlt := hb.tx_lt
        refine ⟨?_, ?_, ?_⟩
        · simp only [update, Function.update_of_ne hk]
          omega
        · simpa [update, hk] using hb.begun
        · simpa [update, hk] using hb.stmt
    · intro i hi
      have := hs.committed_lt i hi
      show i < s.nextTx + 1
      omega
    · have := (hs.bulk .packet).tx_lt
      have := (hs.bulk .queue).tx_lt
      cases k <;> simp [update] <;> omega
  | other ha hn hc htx hh hstmt =>
    refine ⟨fun k => ⟨?_, ?_, ?_⟩, ?_, ?_⟩
    · rw [htx, hn]
      exact (hs.bulk k).tx_lt
    · rw [htx, hc, hh]
      exact (hs.bulk k).begun
    · rw [htx, hc]
      rcases hstmt k with heq | heq <;> rw [heq]
      · exact (hs.bulk k).stmt
      · exact .inl rfl
    · rw [hc, hn]
      exact hs.committed_lt
    · rw [htx, htx]
      exact hs.ne

theorem SessionStart.wellFormed {s : DataBase} (hs : SessionStart s) : s.WellFormed := by
  induction hs with
  | first => exact init_wellFormed
  | next _ hrun _ ih =>
    have ht := run_invariant (fun _ _ _ => wellFormed_of_step) ih hrun
    exact ⟨fun k => ⟨(ht.bulk k).tx_lt, (ht.bulk k).begun, (ht.bulk k).stmt⟩, ht.committed_lt,
      ht.ne⟩

theorem SessionStart.persisted {s : DataBase} (hs : SessionStart s) : s.persisted = [] := by
  cases hs <;> rfl

/-! ### One transaction -/

/-- The open transaction of the kind is `i`, and not committed. -/
def Pending (s : DataBase) (k : Bulk) (i : ℕ) : Prop := (s.bulk k).tx = i ∧ i ∉ s.committed

theorem committed_of_step {s t : DataBase} {a : DbAction} (h : s.step a = some t) {i : ℕ}
    (hi : i ∈ s.committed) : i ∈ t.committed := by
  cases moves_of_step h with
  | commit _ => exact List.mem_cons_of_mem _ hi
  | begin _ => exact hi
  | other _ _ hc => rwa [hc]

/-- The next `tx.Commit` of its kind commits a pending transaction. -/
theorem committed_of_commit {s t : DataBase} {k : Bulk} {i : ℕ} (hi : s.Pending k i)
    (h : s.step (.commit k) = some t) : i ∈ t.committed := by
  cases moves_of_step h with
  | commit _ => exact List.mem_cons.mpr (.inl hi.1.symm)
  | other ha => exact absurd rfl (ha k)

/-- Nothing else ends it. -/
theorem pending_of_step {s t : DataBase} {a : DbAction} {k : Bulk} {i : ℕ} (hs : s.WellFormed)
    (hi : s.Pending k i) (ha : a ≠ .commit k) (h : s.step a = some t) : t.Pending k i := by
  obtain ⟨htx, hfresh⟩ := hi
  cases moves_of_step h with
  | @commit k' _ =>
    have hk : k ≠ k' := fun hk => ha (by rw [hk])
    have hne : i ≠ (s.bulk k').tx := htx ▸ hs.tx_ne hk
    exact ⟨by simpa [update, hk] using htx, by simp [hne, hfresh]⟩
  | @begin k' hpc =>
    have hk : k ≠ k' := fun hk => hfresh (htx ▸ (hs.bulk k).begun.mpr (hk ▸ hpc))
    exact ⟨by simpa [update, hk] using htx, hfresh⟩
  | other _ _ hc htx' => exact ⟨by rw [htx', htx], by rwa [hc]⟩

/-- A pending transaction is committed by a run exactly if a `tx.Commit` of its kind is in it. -/
theorem committed_iff_of_run {s t : DataBase} {k : Bulk} {i : ℕ} {acts : List DbAction}
    (hs : s.WellFormed) (hi : s.Pending k i) (h : run step s acts = some t) :
    i ∈ t.committed ↔ .commit k ∈ acts := by
  induction acts generalizing s with
  | nil =>
    obtain rfl := Option.some.inj h
    simpa using hi.2
  | cons a acts ih =>
    obtain ⟨s', ha, h'⟩ := run_cons_eq_some.mp h
    by_cases hk : a = .commit k
    · subst hk
      -- committed here, and committed it stays
      have hmem : i ∈ s'.committed := committed_of_commit hi ha
      have hkeep : i ∈ t.committed :=
        run_invariant (I := fun s => i ∈ s.committed)
          (fun _ _ _ hi h => committed_of_step h hi) hmem h'
      simpa using hkeep
    -- still pending after any other step, so the rest of the run decides
    · rw [ih (wellFormed_of_step hs ha) (pending_of_step hs hi hk ha) h']
      simp [Ne.symm hk]

/-! ### The samples of a session -/

/-- What a step adds to `persisted`. -/
def record (s : DataBase) : DbAction → List Persisted
  | .persist x =>
    match s.persist x with
    | .failed => []
    | .skipped => [⟨x, none⟩]
    | .stored _ tx => [⟨x, some tx⟩]
  | _ => []

theorem persisted_of_step {s t : DataBase} {a : DbAction} (h : s.step a = some t) :
    t.persisted = s.persisted ++ s.record a := by
  unfold step at h
  split at h
  case h_1 x =>
    obtain ⟨-, h⟩ := Option.ite_none_right_eq_some.mp h
    split at h <;> rename_i hx <;> obtain rfl := Option.some.inj h <;> simp [record, hx]
  case h_2 =>
    obtain rfl := Option.some.inj h
    simp [record, commit]
  all_goals
    obtain ⟨-, h⟩ := Option.ite_none_right_eq_some.mp h
    obtain rfl := Option.some.inj h
    simp [record, commit, update]

/-- A row is stored in the open transaction of its kind. -/
theorem pending_of_persist {s : DataBase} {x : Sample} {k : Bulk} {i : ℕ} (hs : s.WellFormed)
    (h : s.persist x = .stored k i) : s.Pending k i := by
  have hexec {k' : Bulk} (h : s.exec k' = .stored k i) : s.Pending k i := by
    unfold exec at h
    split_ifs at h with hlive
    obtain ⟨rfl, rfl⟩ := PersistOutcome.stored.inj h
    have hopen : (s.bulk k').stmt = (s.bulk k').tx := (hs.bulk k').stmt.resolve_right hlive
    exact ⟨hopen.symm, hlive⟩
  cases x with
  | packet p =>
    rw [persist] at h
    split_ifs at h
    exact hexec h
  | queue q => exact hexec h
  | other => cases h

/-- What has been persisted is what the steps have recorded. -/
theorem mem_persisted_iff {s t : DataBase} {acts : List DbAction} (h : run step s acts = some t)
    (r : Persisted) : r ∈ t.persisted ↔ r ∈ s.persisted ∨ ∃ pre a post u,
      acts = pre ++ a :: post ∧ run step s pre = some u ∧ r ∈ u.record a := by
  induction acts generalizing s with
  | nil =>
    obtain rfl := Option.some.inj h
    simp
  | cons a acts ih =>
    obtain ⟨s', ha, h'⟩ := run_cons_eq_some.mp h
    rw [ih h', persisted_of_step ha, List.mem_append, or_assoc]
    refine or_congr_right ⟨?_, ?_⟩
    · rintro (hr | ⟨pre, b, post, u, rfl, hu, hr⟩)
      · exact ⟨[], a, acts, s, rfl, rfl, hr⟩
      · exact ⟨a :: pre, b, post, u, rfl, run_cons_eq_some.mpr ⟨s', ha, hu⟩, hr⟩
    · rintro ⟨pre, b, post, u, heq, hu, hr⟩
      cases pre with
      | nil =>
        obtain ⟨rfl, rfl⟩ := List.cons.inj heq
        obtain rfl := Option.some.inj hu
        exact .inl hr
      | cons c pre =>
        obtain ⟨rfl, rfl⟩ := List.cons.inj heq
        obtain ⟨s'', hc, hu⟩ := run_cons_eq_some.mp hu
        obtain rfl := Option.some.inj (ha.symm.trans hc)
        exact .inr ⟨pre, b, post, u, rfl, hu, hr⟩

/-- Every sample whose `Persist` returned `nil` belongs to a committed transaction. -/
def Durable (s : DataBase) : Prop := ∀ r ∈ s.persisted, ∃ i, r.tx = some i ∧ i ∈ s.committed

/-- A call of `Persist` did not skip its sample, and if it stored a row, a goroutine commits the
transaction of its kind among the steps that follow. -/
def FollowedBy (acts : List DbAction) : PersistOutcome → Prop
  | .failed => True
  | .skipped => False
  | .stored k _ => .commit k ∈ acts

/-- So it is with every call of `Persist` in the run that performs `acts` from `s`. -/
def Followed (s : DataBase) (acts : List DbAction) : Prop :=
  ∀ pre x post u, acts = pre ++ .persist x :: post → run step s pre = some u →
    FollowedBy post (u.persist x)

/-- **When `Wait` returns, every sample whose `Persist` returned `nil` belongs to a committed
transaction if and only if none was skipped and each was followed by a `tx.Commit` of its kind.** -/
theorem durable_iff {s₀ s t : DataBase} {acts : List DbAction} (hstart : SessionStart s₀)
    (hrun : run step s₀ acts = some s) (hret : s.step .waitReturns = some t) :
    t.Durable ↔ s₀.Followed acts := by
  obtain ⟨-, hret⟩ := Option.ite_none_right_eq_some.mp hret
  obtain rfl := Option.some.inj hret
  have hcommitted {pre post : List DbAction} {x : Sample} {u : DataBase} {k : Bulk} {i : ℕ}
      (heq : acts = pre ++ .persist x :: post) (hu : run step s₀ pre = some u)
      (hx : u.persist x = .stored k i) : i ∈ s.committed ↔ .commit k ∈ post := by
    have huw : u.WellFormed := run_invariant (fun _ _ _ => wellFormed_of_step) hstart.wellFormed hu
    have hpost : run step u (.persist x :: post) = some s := by
      rw [heq, run_append, hu] at hrun
      exact hrun
    simpa using committed_iff_of_run huw (pending_of_persist huw hx) hpost
  -- one call of `Persist`: its record is durable exactly if it meets the condition
  have hone {pre post : List DbAction} {x : Sample} {u : DataBase}
      (heq : acts = pre ++ .persist x :: post) (hu : run step s₀ pre = some u) :
      (∀ r ∈ u.record (.persist x), ∃ i, r.tx = some i ∧ i ∈ s.committed) ↔
        FollowedBy post (u.persist x) := by
    cases hx : u.persist x with
    | failed => simp [record, hx, FollowedBy]
    | skipped => simp [record, hx, FollowedBy]
    | stored k i => simp [record, hx, FollowedBy, hcommitted heq hu hx]
  -- the records of the run are those of its calls, as the session starts without any
  have hmem := mem_persisted_iff hrun
  constructor
  · intro hdur pre x post u heq hu
    exact (hone heq hu).mp fun r hr =>
      hdur r ((hmem r).mpr (.inr ⟨pre, .persist x, post, u, heq, hu, hr⟩))
  · intro hfol r hr
    rcases (hmem r).mp hr with hr | ⟨pre, a, post, u, heq, hu, hr⟩
    · rw [hstart.persisted] at hr
      cases hr
    · cases a with
      | persist x => exact (hone heq hu).mpr (hfol pre x post u heq hu) r hr
      | _ => cases hr

/-- A queue sample and a packet, and both transactions committed while `close` runs. -/
theorem durable_iff_committed :
    ∃ s t, SessionStart init ∧ run step init [.persist (.queue ⟨1, 0, 0, 0, 0⟩), .closePersistor,
        .exitClean, .lock .queue, .commit .queue] = some s ∧
      s.step .waitReturns = some t ∧ (t.Durable ↔ init.Followed [.persist (.queue ⟨1, 0, 0, 0, 0⟩),
        .closePersistor, .exitClean, .lock .queue, .commit .queue]) :=
  ⟨_, _, .first, rfl, rfl, durable_iff .first rfl rfl⟩

/-- **`Wait` may return before any of the goroutines has got its mutex**, and the sample of the
session belongs to no committed transaction. -/
theorem wait_before_commit :
    ∃ s t, SessionStart init ∧ run step init [.persist (.queue ⟨1, 0, 0, 0, 0⟩), .closePersistor,
        .exitClean] = some s ∧
      s.step .waitReturns = some t ∧ ¬ t.Durable :=
  ⟨_, _, .first, rfl, rfl, fun h => by
    obtain ⟨i, -, hi⟩ := h ⟨.queue ⟨1, 0, 0, 0, 0⟩, some 0⟩ (by decide)
    exact List.not_mem_nil hi⟩

end Jens.DataBase
