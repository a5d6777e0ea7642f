import Jens.Lib.Outcome
import Jens.TrafficControl.TrafficControl

/-!
# What the commands leave on the host

`init_eq_ok` and `init_eq_error` give the host after an `Init` that succeeds and after one that
fails, for all answers of the commands.  Only the first command of `CreateNftRuleECT` changes which
tables exist, so it is the one that decides what a failure leaves (`createNftRuleECT_eq_error`).
-/

namespace Jens

variable {ι : Type} {answers : Command → Bool} {me : ι}

/-! ### Single commands -/

theorem execCommand_eq_ok {c : Command} {h t : Host ι} :
    execCommand answers me c h = .ok () t ↔ answers c = true ∧ t = h.exec me c := by
  unfold execCommand
  split_ifs with hc
  · simp [hc, eq_comm]
  · simp [hc]

theorem execCommand_eq_error {c : Command} {e : StartError} {h t : Host ι} :
    execCommand answers me c h = .error e t ↔
      answers c = false ∧ e = .command c ∧ t = h := by
  unfold execCommand
  split_ifs with hc
  · simp [hc]
  · simp [hc, eq_comm]

/-- The host after a command whose error is only logged. -/
def Host.attempt (answers : Command → Bool) (me : ι) (h : Host ι) (c : Command) : Host ι :=
  if answers c then h.exec me c else h

/-- `nft` leaves the qdiscs alone. -/
theorem Host.rootQdisc_attempt_nftAddTable (h : Host ι) (table : String) :
    (h.attempt answers me (.nftAddTable table)).rootQdisc = h.rootQdisc := by
  unfold attempt
  split_ifs <;> rfl

/-- `tc` leaves the tables alone. -/
theorem Host.table_attempt_tcQdiscDelete (h : Host ι) (dev : String) :
    (h.attempt answers me (.tcQdiscDelete dev)).table = h.table := by
  unfold attempt
  split_ifs <;> rfl

theorem Host.table_attempt_tcQdiscAdd (h : Host ι) (dev : String) (args : List String) :
    (h.attempt answers me (.tcQdiscAdd dev args)).table = h.table := by
  unfold attempt
  split_ifs <;> rfl

/-! ### Sequences of commands -/

/-- The command changes nothing that the host keeps. -/
def Command.Inert (c : Command) : Prop := ∀ (ι : Type) (me : ι) (h : Host ι), h.exec me c = h

theorem forM_execCommand_cons (c : Command) (cs : List Command) :
    (c :: cs).forM (execCommand answers me) =
      (execCommand answers me c >>= fun _ => cs.forM (execCommand answers me) : HostM ι Unit) := rfl

theorem forM_execCommand_eq_ok {cs : List Command} (hcs : ∀ c ∈ cs, c.Inert) {h t : Host ι} :
    cs.forM (execCommand answers me) h = .ok () t ↔ (∀ c ∈ cs, answers c = true) ∧ t = h := by
  induction cs with
  | nil =>
    constructor
    · intro hrun
      obtain ⟨-, rfl⟩ := EStateM.Result.ok.inj hrun
      exact ⟨by simp, rfl⟩
    · rintro ⟨-, rfl⟩
      rfl
  | cons c cs ih =>
    rw [List.forall_mem_cons] at hcs ⊢
    rw [forM_execCommand_cons, EStateM.bind_eq_ok]
    constructor
    · rintro ⟨_, s, hc, hrest⟩
      obtain ⟨hans, rfl⟩ := execCommand_eq_ok.mp hc
      rw [hcs.1] at hrest
      obtain ⟨hall, rfl⟩ := (ih hcs.2).mp hrest
      exact ⟨⟨hans, hall⟩, rfl⟩
    · rintro ⟨⟨hans, hall⟩, rfl⟩
      have hc : execCommand answers me c t = .ok () t :=
        execCommand_eq_ok.mpr ⟨hans, (hcs.1 ι me t).symm⟩
      exact ⟨(), t, hc, (ih hcs.2).mpr ⟨hall, rfl⟩⟩

theorem forM_execCommand_eq_error {cs : List Command} (hcs : ∀ c ∈ cs, c.Inert) {e : StartError}
    {h t : Host ι} (hrun : cs.forM (execCommand answers me) h = .error e t) :
    (∃ c ∈ cs, answers c = false) ∧ t = h := by
  induction cs with
  | nil => cases hrun
  | cons c cs ih =>
    rw [List.forall_mem_cons] at hcs
    rw [forM_execCommand_cons, EStateM.bind_eq_error] at hrun
    rcases hrun with hc | ⟨_, s, hc, hrest⟩
    · obtain ⟨hans, -, rfl⟩ := execCommand_eq_error.mp hc
      exact ⟨⟨c, List.mem_cons_self, hans⟩, rfl⟩
    · obtain ⟨-, rfl⟩ := execCommand_eq_ok.mp hc
      rw [hcs.1] at hrest
      obtain ⟨⟨c', hmem, hans⟩, rfl⟩ := ih hcs.2 hrest
      exact ⟨⟨c', List.mem_cons_of_mem c hmem, hans⟩, rfl⟩

/-! ### `CreateNftRuleECT` -/

section CreateNftRule

variable {dev table fwd out ect prio : String}

/-- All commands but the first. -/
theorem inert_of_mem_tail {c : Command} (h : c ∈ (nftRuleECT dev table fwd out ect prio).tail) :
    c.Inert := by
  simp only [nftRuleECT, List.tail_cons, List.mem_cons, List.not_mem_nil, or_false] at h
  rcases h with rfl | rfl | rfl | rfl <;> exact fun _ _ _ => rfl

theorem nftRuleECT_eq : nftRuleECT dev table fwd out ect prio =
    .nftAddTable table :: (nftRuleECT dev table fwd out ect prio).tail := rfl

theorem createNftRuleECT_eq_ok {h t : Host ι} :
    createNftRuleECT answers me dev table fwd out ect prio h = .ok () t ↔
      (∀ c ∈ nftRuleECT dev table fwd out ect prio, answers c = true) ∧
        t = h.exec me (.nftAddTable table) := by
  rw [createNftRuleECT, nftRuleECT_eq, forM_execCommand_cons, EStateM.bind_eq_ok,
    List.forall_mem_cons]
  constructor
  · rintro ⟨_, s, hc, hrest⟩
    obtain ⟨hans, rfl⟩ := execCommand_eq_ok.mp hc
    obtain ⟨hall, rfl⟩ := (forM_execCommand_eq_ok fun c => inert_of_mem_tail).mp hrest
    exact ⟨⟨hans, hall⟩, rfl⟩
  · rintro ⟨⟨hans, hall⟩, rfl⟩
    exact ⟨(), _, execCommand_eq_ok.mpr ⟨hans, rfl⟩,
      (forM_execCommand_eq_ok fun c => inert_of_mem_tail).mpr ⟨hall, rfl⟩⟩

/-- A failure leaves the table if it could be added. -/
theorem createNftRuleECT_eq_error {e : StartError} {h t : Host ι}
    (hrun : createNftRuleECT answers me dev table fwd out ect prio h = .error e t) :
    (∃ c ∈ nftRuleECT dev table fwd out ect prio, answers c = false) ∧
      t = h.attempt answers me (.nftAddTable table) := by
  rw [createNftRuleECT, nftRuleECT_eq, forM_execCommand_cons, EStateM.bind_eq_error] at hrun
  rw [nftRuleECT_eq]
  rcases hrun with hc | ⟨_, s, hc, hrest⟩
  · obtain ⟨hans, -, rfl⟩ := execCommand_eq_error.mp hc
    exact ⟨⟨_, List.mem_cons_self, hans⟩, by simp [Host.attempt, hans]⟩
  · obtain ⟨hans, rfl⟩ := execCommand_eq_ok.mp hc
    obtain ⟨⟨c, hmem, hc⟩, rfl⟩ := forM_execCommand_eq_error (fun c => inert_of_mem_tail) hrest
    exact ⟨⟨c, List.mem_cons_of_mem _ hmem, hc⟩, by simp [Host.attempt, hans]⟩

end CreateNftRule

/-! ### `Init` -/

/-- The commands that mark with `ect1` from the start. -/
def premarkCommands (dev : String) : List Command :=
  nftRuleECT dev nftTablePremark nftChainForward nftChainOutput "ect1" "0"

namespace TrafficControl

section Init

variable {tc tc' : TrafficControl} {params : TrafficControlStartParams} {nft : NftStartParams}
  {h t : Host ι}

/-- The host when `Init` has reset the marking. -/
def unmarked (answers : Command → Bool) (me : ι) (h : Host ι) : Host ι :=
  h.attempt answers me (.nftDeleteTable nftTablePremark)

/-- The host when `Init` has set up the marking. -/
def premarked (answers : Command → Bool) (me : ι) (nft : NftStartParams) (h : Host ι) : Host ι :=
  if nft.l4sPremarking then (unmarked answers me h).exec me (.nftAddTable nftTablePremark)
  else unmarked answers me h

/-- The host when `Init` adds the qdisc. -/
def cleared (answers : Command → Bool) (me : ι) (tc : TrafficControl) (nft : NftStartParams)
    (h : Host ι) : Host ι :=
  (premarked answers me nft h).attempt answers me (.tcQdiscDelete tc.dev)

/-- What `Init` does from the validation on. -/
def initChecked (answers : Command → Bool) (me : ι) (tc : TrafficControl)
    (params : TrafficControlStartParams) : HostM ι TrafficControl :=
  match params.validate with
  | .error msg => throw (.userInput msg)
  | .ok () => do
    tc.reset answers me
    execCommand answers me (.tcQdiscAdd tc.dev params.asArgs)
    execCommand answers me .openControlFile
    return { tc with controlFile := true }

/-- `Init` when no marking is requested. -/
theorem init_of_not_premark (hnft : nft.l4sPremarking = false) :
    tc.init answers me params nft h = initChecked answers me tc params (unmarked answers me h) := by
  simp [init, hnft]
  rfl

/-- `Init` when marking is requested. -/
theorem init_of_premark (hnft : nft.l4sPremarking = true) :
    tc.init answers me params nft h =
      (createNftRuleECT answers me tc.dev nftTablePremark nftChainForward nftChainOutput "ect1" "0"
        >>= fun _ => initChecked answers me tc params) (unmarked answers me h) := by
  simp [init, hnft]
  rfl

theorem initChecked_of_validate (hval : params.validate = .ok ()) :
    initChecked answers me tc params h =
      (execCommand answers me (.tcQdiscAdd tc.dev params.asArgs) >>= fun _ =>
        execCommand answers me .openControlFile >>= fun _ =>
          pure { tc with controlFile := true } : HostM ι TrafficControl)
        (h.attempt answers me (.tcQdiscDelete tc.dev)) := by
  unfold initChecked
  rw [hval]
  rfl

theorem initChecked_eq_ok (hrun : initChecked answers me tc params h = .ok tc' t) :
    tc' = { tc with controlFile := true } ∧
      t = (h.attempt answers me (.tcQdiscDelete tc.dev)).exec me
        (.tcQdiscAdd tc.dev params.asArgs) := by
  cases hval : params.validate with
  | error msg =>
    rw [initChecked, hval] at hrun
    cases hrun
  | ok u =>
    rw [initChecked_of_validate hval, EStateM.bind_eq_ok] at hrun
    obtain ⟨_, s, hadd, hrun⟩ := hrun
    obtain ⟨_, s', hopen, hrun⟩ := EStateM.bind_eq_ok.mp hrun
    obtain ⟨-, rfl⟩ := execCommand_eq_ok.mp hadd
    obtain ⟨-, rfl⟩ := execCommand_eq_ok.mp hopen
    obtain ⟨rfl, rfl⟩ := EStateM.Result.ok.inj hrun
    exact ⟨rfl, rfl⟩

/-- From the validation on, a failure leaves the qdisc exactly if the qdisc could be added. -/
theorem initChecked_eq_error {e : StartError}
    (hrun : initChecked answers me tc params h = .error e t) :
    (params.validate ≠ .ok () ∧ t = h) ∨
      (params.validate = .ok () ∧ t = (h.attempt answers me (.tcQdiscDelete tc.dev)).attempt
        answers me (.tcQdiscAdd tc.dev params.asArgs)) := by
  cases hval : params.validate with
  | error msg =>
    rw [initChecked, hval] at hrun
    obtain ⟨-, rfl⟩ := EStateM.Result.error.inj hrun
    exact .inl ⟨by simp, rfl⟩
  | ok u =>
    rw [initChecked_of_validate hval, EStateM.bind_eq_error] at hrun
    refine .inr ⟨rfl, ?_⟩
    rcases hrun with hadd | ⟨_, s, hadd, hrun⟩
    · obtain ⟨hans, -, rfl⟩ := execCommand_eq_error.mp hadd
      simp [Host.attempt, hans]
    · obtain ⟨hans, rfl⟩ := execCommand_eq_ok.mp hadd
      rcases EStateM.bind_eq_error.mp hrun with hopen | ⟨_, s', -, hret⟩
      · obtain ⟨-, -, rfl⟩ := execCommand_eq_error.mp hopen
        simp [Host.attempt, hans]
      · cases hret

/-- `Init` succeeds when every command does and the parameters are valid. -/
theorem exists_init_eq_ok (hans : ∀ c, answers c = true) (hval : params.validate = .ok ()) :
    ∃ s, tc.init answers me params nft h = .ok { tc with controlFile := true } s := by
  have hexec (c : Command) (s : Host ι) : execCommand answers me c s = .ok () (s.exec me c) :=
    execCommand_eq_ok.mpr ⟨hans c, rfl⟩
  have hchecked (s : Host ι) :
      ∃ s', initChecked answers me tc params s = .ok { tc with controlFile := true } s' := by
    rw [initChecked_of_validate hval]
    exact ⟨_, EStateM.bind_eq_ok.mpr ⟨_, _, hexec _ _, EStateM.bind_eq_ok.mpr
      ⟨_, _, hexec _ _, rfl⟩⟩⟩
  cases hnft : nft.l4sPremarking with
  | false =>
    rw [init_of_not_premark hnft]
    exact hchecked _
  | true =>
    rw [init_of_premark hnft]
    obtain ⟨s, hs⟩ := hchecked ((unmarked answers me h).exec me (.nftAddTable nftTablePremark))
    exact ⟨s, EStateM.bind_eq_ok.mpr
      ⟨(), _, createNftRuleECT_eq_ok.mpr ⟨fun c _ => hans c, rfl⟩, hs⟩⟩

/-- `Init` rejects the parameters when the marking is set up already. -/
theorem init_eq_error_of_validate {msg : String} (hans : ∀ c, answers c = true)
    (hval : params.validate = .error msg) :
    tc.init answers me params nft h = .error (.userInput msg) (premarked answers me nft h) := by
  have hchecked (s : Host ι) :
      initChecked answers me tc params s = .error (.userInput msg) s := by
    unfold initChecked
    rw [hval]
    rfl
  cases hnft : nft.l4sPremarking with
  | false =>
    rw [init_of_not_premark hnft, hchecked, premarked, hnft]
    rfl
  | true =>
    rw [init_of_premark hnft, EStateM.bind_eq_error, premarked, if_pos hnft]
    exact .inr ⟨(), _, createNftRuleECT_eq_ok.mpr ⟨fun c _ => hans c, rfl⟩, hchecked _⟩

/-- **The host after an `Init` that succeeds.** -/
theorem init_eq_ok (hrun : tc.init answers me params nft h = .ok tc' t) :
    tc' = { tc with controlFile := true } ∧
      t = (cleared answers me tc nft h).exec me (.tcQdiscAdd tc.dev params.asArgs) := by
  unfold cleared premarked
  cases hnft : nft.l4sPremarking with
  | false =>
    rw [init_of_not_premark hnft] at hrun
    exact initChecked_eq_ok hrun
  | true =>
    rw [init_of_premark hnft, EStateM.bind_eq_ok] at hrun
    obtain ⟨_, s, hrule, hrun⟩ := hrun
    obtain ⟨-, rfl⟩ := createNftRuleECT_eq_ok.mp hrule
    exact initChecked_eq_ok hrun

/-- **The host after an `Init` that fails**, in the setup of the marking, in the validation or
later. -/
theorem init_eq_error {e : StartError} (hrun : tc.init answers me params nft h = .error e t) :
    (nft.l4sPremarking = true ∧ (∃ c ∈ premarkCommands tc.dev, answers c = false) ∧
        t = (unmarked answers me h).attempt answers me (.nftAddTable nftTablePremark)) ∨
      ((nft.l4sPremarking = true → ∀ c ∈ premarkCommands tc.dev, answers c = true) ∧
        ((params.validate ≠ .ok () ∧ t = premarked answers me nft h) ∨
          (params.validate = .ok () ∧ t = (cleared answers me tc nft h).attempt answers me
            (.tcQdiscAdd tc.dev params.asArgs)))) := by
  unfold cleared premarked
  cases hnft : nft.l4sPremarking with
  | false =>
    rw [init_of_not_premark hnft] at hrun
    exact .inr ⟨by simp, initChecked_eq_error hrun⟩
  | true =>
    rw [init_of_premark hnft, EStateM.bind_eq_error] at hrun
    rcases hrun with hrule | ⟨_, s, hrule, hrun⟩
    · obtain ⟨hfail, rfl⟩ := createNftRuleECT_eq_error hrule
      exact .inl ⟨rfl, hfail, rfl⟩
    · obtain ⟨hall, rfl⟩ := createNftRuleECT_eq_ok.mp hrule
      exact .inr ⟨fun _ => hall, initChecked_eq_error hrun⟩

end Init

end TrafficControl

end Jens
