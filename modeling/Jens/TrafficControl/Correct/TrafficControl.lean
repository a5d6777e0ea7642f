import Jens.Lib.Steps
import Jens.TrafficControl.Correct.Host

/-!
# The nft options over the life of a `TrafficControl`

`Init` receives the nft options and acts on them, but it does not store them: the field `nft`, which
`LaunchChangeLoop` and `Close` look at, keeps its zero value (`Forgetful`).  So the signal table is
never made, and `Close` deletes neither table.  `honoured_iff` says for which options and on which
hosts this goes unnoticed.
-/

namespace Jens

namespace TrafficControl

variable {ι : Type} {answers : Command → Bool} {me : ι} {tc : TrafficControl}
  {nft : NftStartParams} {h : Host ι}

/-- `Close` of a `TrafficControl` that has no options stored. -/
theorem close_of_nft_eq (hnft : tc.nft = ⟨false, false⟩) :
    tc.close answers me h = .ok () (h.attempt answers me (.tcQdiscDelete tc.dev)) := by
  simp [close, hnft]
  rfl

/-- `Init` touches one table only. -/
theorem table_cleared_of_ne {t : String} (ht : t ≠ nftTablePremark) :
    (cleared answers me tc nft h).table t = h.table t := by
  rw [cleared, Host.table_attempt_tcQdiscDelete]
  unfold premarked unmarked Host.attempt
  split_ifs <;> simp [ht]

/-- Where every command succeeds, the table is there after `Init` exactly if it was requested. -/
theorem isSome_table_cleared (hans : ∀ c, answers c = true) :
    ((cleared answers me tc nft h).table nftTablePremark).isSome = nft.l4sPremarking := by
  rw [cleared, Host.table_attempt_tcQdiscDelete]
  unfold premarked unmarked Host.attempt
  simp only [hans, ↓reduceIte]
  cases nft.l4sPremarking <;> simp

end TrafficControl

namespace Life

variable {ι : Type} {me : ι} {params : TrafficControlStartParams} {nft : NftStartParams}
  {dev : String} {host : Host ι} {s t : Life ι}

/-- What the nft options ask for, at every point of the life. -/
structure Honours (nft : NftStartParams) (s : Life ι) : Prop where
  /-- Once `Init` has succeeded, and until `Close`, the premark table exists iff requested. -/
  premark : s.inited = true → s.closed = false →
    ((s.host.table nftTablePremark).isSome = true ↔ nft.l4sPremarking = true)
  /-- The start of `LaunchChangeLoop`, with what it spawns, has installed the signal table iff
  requested. -/
  signal : s.launched = true → s.signal = [] →
    (.nftAddTable nftTableSignal ∈ s.executed ↔ nft.signalStart = true)
  /-- After `Close` neither table exists. -/
  closed : s.closed = true →
    s.host.table nftTablePremark = none ∧ s.host.table nftTableSignal = none

/-- No options are stored, no signal goroutine runs, and the tables are as `Init` left them. -/
structure Forgetful (nft : NftStartParams) (host : Host ι) (s : Life ι) : Prop where
  stored : s.tc.nft = ⟨false, false⟩
  signal : s.signal = []
  executed : s.executed = []
  premark : s.inited = true →
    (s.host.table nftTablePremark).isSome = nft.l4sPremarking
  table : s.host.table nftTableSignal = host.table nftTableSignal
  inited_of_closed : s.closed = true → s.inited = true

theorem forgetful_new (dev : String) (nft : NftStartParams) (host : Host ι) :
    Forgetful nft host (new dev host) where
  stored := rfl
  signal := rfl
  executed := rfl
  premark := by simp [new]
  table := rfl
  inited_of_closed := by simp [new]

theorem Forgetful.step {a : LifeAction} (hs : Forgetful nft host s)
    (ha : s.step me params nft a = some t) : Forgetful nft host t := by
  cases a with
  | init =>
    rw [Life.step] at ha
    by_cases hi : s.inited = true
    · simp [hi] at ha
    · rw [if_neg hi] at ha
      cases hrun : s.tc.init (fun _ => true) me params nft s.host with
      | error e h' =>
        rw [hrun] at ha
        cases ha
      | ok tc h' =>
        rw [hrun] at ha
        obtain rfl := Option.some.inj ha
        obtain ⟨rfl, rfl⟩ := TrafficControl.init_eq_ok hrun
        have htable : (TrafficControl.cleared (fun _ => true) me s.tc nft s.host).table
            nftTableSignal = s.host.table nftTableSignal :=
          TrafficControl.table_cleared_of_ne (by decide)
        have hpremark : ((TrafficControl.cleared (fun _ => true) me s.tc nft s.host).table
            nftTablePremark).isSome = nft.l4sPremarking :=
          TrafficControl.isSome_table_cleared fun _ => rfl
        exact
          { stored := hs.stored
            signal := hs.signal
            executed := hs.executed
            premark := fun _ => hpremark
            table := htable.trans hs.table
            inited_of_closed := fun _ => rfl }
  | launch =>
    rw [Life.step] at ha
    by_cases hl : s.inited ∧ ¬ s.launched
    · rw [if_pos hl] at ha
      obtain rfl := Option.some.inj ha
      have hcommands : s.tc.signalCommands = [] := by
        simp [TrafficControl.signalCommands, hs.stored]
      exact { hs with signal := hcommands }
    · rw [if_neg hl] at ha
      cases ha
  | signal =>
    -- there is no signal goroutine
    rw [Life.step, hs.signal] at ha
    cases ha
  | close =>
    rw [Life.step] at ha
    by_cases hi : s.inited = true
    · rw [if_pos hi, TrafficControl.close_of_nft_eq hs.stored] at ha
      obtain rfl := Option.some.inj ha
      exact { hs with inited_of_closed := fun _ => hi }
    · rw [if_neg hi] at ha
      cases ha

theorem forgetful_of_run {as : List LifeAction}
    (h : Steps.run (step me params nft) (new dev host) as = some s) : Forgetful nft host s :=
  Steps.run_invariant (fun _ _ _ => Forgetful.step) (forgetful_new dev nft host) h

/-- A life with `Init`, the launch and `Close`. -/
theorem exists_run_closed (me : ι) (nft : NftStartParams) (dev : String) (host : Host ι)
    (hval : params.validate = .ok ()) :
    ∃ s, Steps.run (step me params nft) (new dev host) [.init, .launch, .close] = some s ∧
      s.launched = true ∧ s.closed = true := by
  have hinit : ∃ h', (newTrafficControl dev).init (fun _ => true) me params nft host =
      .ok { newTrafficControl dev with controlFile := true } h' :=
    TrafficControl.exists_init_eq_ok (fun _ => rfl) hval
  obtain ⟨h', hrun⟩ := hinit
  have hstep : step me params nft (new dev host) .init =
      some { new dev host with
        tc := { newTrafficControl dev with controlFile := true }, host := h', inited := true } := by
    rw [step, if_neg (by simp [new]), show (new dev host).tc = newTrafficControl dev from rfl,
      show (new dev host).host = host from rfl, hrun]
  rw [Steps.run_cons, hstep]
  exact ⟨_, rfl, rfl, rfl⟩

/-- **When the nft options are honoured**: over every life with them, exactly if none of the two is
requested and no signal table is on the host. -/
theorem honoured_iff (hval : params.validate = .ok ()) :
    (∀ as s, Steps.run (step me params nft) (new dev host) as = some s → s.Honours nft) ↔
      nft.l4sPremarking = false ∧ nft.signalStart = false ∧ host.table nftTableSignal = none := by
  constructor
  · intro hall
    obtain ⟨s, hrun, hlaunched, hclosed⟩ := exists_run_closed me nft dev host hval
    have hs := forgetful_of_run hrun
    have hhon := hall _ _ hrun
    have hpremark := hs.premark (hs.inited_of_closed hclosed)
    have hsignal := hhon.signal hlaunched hs.signal
    obtain ⟨hnoPremark, hnoSignal⟩ := hhon.closed hclosed
    rw [hnoPremark] at hpremark
    rw [hs.executed] at hsignal
    exact ⟨hpremark.symm, by simpa using hsignal, hs.table ▸ hnoSignal⟩
  · rintro ⟨hpre, hsig, htable⟩ as s hrun
    have hs := forgetful_of_run hrun
    exact
      { premark := fun hi _ => by rw [hs.premark hi]
        signal := fun _ _ => by simp [hs.executed, hsig]
        closed := fun hc => by
          have hpremark := hs.premark (hs.inited_of_closed hc)
          rw [hpre, Option.isSome_eq_false_iff, Option.isNone_iff_eq_none] at hpremark
          exact ⟨hpremark, hs.table.trans htable⟩ }

/-- A host without tables and qdiscs. -/
def bareHost : Host Unit := ⟨fun _ => none, fun _ => none⟩

/-- A rate of 1 Mbit/s and nothing else. -/
def plainParams : TrafficControlStartParams := ⟨1000, 0, 0, 0, 0, 0⟩

theorem honoured_iff_bare :
    (∀ as s, Steps.run (step () plainParams ⟨false, false⟩) (new "eth0" bareHost) as = some s →
        s.Honours ⟨false, false⟩) ↔
      (⟨false, false⟩ : NftStartParams).l4sPremarking = false ∧
        (⟨false, false⟩ : NftStartParams).signalStart = false ∧
        bareHost.table nftTableSignal = none :=
  honoured_iff (by decide)

/-- Both options requested: the signal table is never installed, and `Close` leaves the premark
table. -/
theorem options_not_stored : plainParams.validate = .ok () ∧
    ∃ s, Steps.run (step () plainParams ⟨true, true⟩) (new "eth0" bareHost)
        [.init, .launch, .close] = some s ∧
      s.launched = true ∧ s.signal = [] ∧ .nftAddTable nftTableSignal ∉ s.executed ∧
      s.closed = true ∧ s.host.table nftTablePremark = some () ∧ ¬ s.Honours ⟨true, true⟩ := by
  have hval : plainParams.validate = .ok () := by decide
  obtain ⟨s, hrun, hlaunched, hclosed⟩ :=
    exists_run_closed () ⟨true, true⟩ "eth0" bareHost hval
  have hs := forgetful_of_run hrun
  have hnot : .nftAddTable nftTableSignal ∉ s.executed := by simp [hs.executed]
  have hpremark : s.host.table nftTablePremark = some () := by
    obtain ⟨u, hu⟩ := Option.isSome_iff_exists.mp (hs.premark (hs.inited_of_closed hclosed))
    exact hu
  refine ⟨hval, s, hrun, hlaunched, hs.signal, hnot, hclosed, hpremark, fun hhon => ?_⟩
  exact hnot ((hhon.signal hlaunched hs.signal).mpr rfl)

end Life

end Jens
