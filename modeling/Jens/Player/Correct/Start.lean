import Jens.Player.Start
import Jens.TrafficControl.Correct.Host

/-!
# What a failed start leaves behind

Neither `Init` nor `Start` nor one of the callers undoes anything after an error, so the host is
left as the failing step found it.  `failed_start_iff` says for which answers of the commands
nothing of this start is left.
-/

namespace Jens

/-- Nothing on the host was made by this one. -/
structure Host.FreeOf {ι : Type} (me : ι) (h : Host ι) : Prop where
  table (t : String) : h.table t ≠ some me
  rootQdisc (dev : String) : h.rootQdisc dev ≠ some me

variable {ι : Type} {answers : Command → Bool} {me : ι} {h t : Host ι}

/-! ### Tables -/

theorem table_unmarked_ne (hfree : ∀ t, h.table t ≠ some me) (t : String) :
    (TrafficControl.unmarked answers me h).table t ≠ some me := by
  unfold TrafficControl.unmarked Host.attempt
  split_ifs
  · rw [Host.table_exec_nftDeleteTable, Function.update_apply]
    split_ifs
    · simp
    · exact hfree t
  · exact hfree t

/-- The premark table of an earlier `Init` survives only a reset that fails. -/
theorem isSome_table_unmarked :
    ((TrafficControl.unmarked answers me h).table nftTablePremark).isSome = true ↔
      answers (.nftDeleteTable nftTablePremark) = false ∧
        (h.table nftTablePremark).isSome = true := by
  unfold TrafficControl.unmarked Host.attempt
  cases hans : answers (.nftDeleteTable nftTablePremark) <;> simp

/-- Adding a table makes it ours unless it is there. -/
theorem table_exec_nftAddTable_ne {table : String} (hfree : ∀ t, h.table t ≠ some me) :
    (∀ t, (h.exec me (.nftAddTable table)).table t ≠ some me) ↔ (h.table table).isSome = true := by
  have hsame : (h.exec me (.nftAddTable table)).table table = some ((h.table table).getD me) := by
    simp
  constructor
  · intro hall
    have hne := hall table
    rw [hsame] at hne
    cases htable : h.table table with
    | none => simp [htable] at hne
    | some m => rfl
  · intro hsome t
    by_cases ht : t = table
    · obtain ⟨m, hm⟩ := Option.isSome_iff_exists.mp hsome
      have hme := hfree table
      rw [ht, hsame, hm]
      rwa [hm] at hme
    · rw [Host.table_exec_nftAddTable, Function.update_of_ne ht]
      exact hfree t

theorem table_attempt_nftAddTable_ne {table : String} (hfree : ∀ t, h.table t ≠ some me) :
    (∀ t, (h.attempt answers me (.nftAddTable table)).table t ≠ some me) ↔
      (answers (.nftAddTable table) = true → (h.table table).isSome = true) := by
  unfold Host.attempt
  by_cases hans : answers (.nftAddTable table) = true
  · rw [if_pos hans, table_exec_nftAddTable_ne hfree]
    simp [hans]
  · rw [if_neg hans]
    simp [hans, hfree]

/-! ### Qdiscs -/

theorem rootQdisc_attempt_tcQdiscDelete_ne {dev : String} (hfree : ∀ d, h.rootQdisc d ≠ some me)
    (d : String) : (h.attempt answers me (.tcQdiscDelete dev)).rootQdisc d ≠ some me := by
  unfold Host.attempt
  split_ifs
  · rw [Host.rootQdisc_exec_tcQdiscDelete, Function.update_apply]
    split_ifs
    · simp
    · exact hfree d
  · exact hfree d

theorem rootQdisc_attempt_tcQdiscAdd_ne {dev : String} {args : List String}
    (hfree : ∀ d, h.rootQdisc d ≠ some me) :
    (∀ d, (h.attempt answers me (.tcQdiscAdd dev args)).rootQdisc d ≠ some me) ↔
      answers (.tcQdiscAdd dev args) = false := by
  unfold Host.attempt
  cases hans : answers (.tcQdiscAdd dev args) with
  | false => simpa using hfree
  | true =>
    refine iff_of_false (fun hall => hall dev ?_) (by simp)
    simp

theorem rootQdisc_unmarked :
    (TrafficControl.unmarked answers me h).rootQdisc = h.rootQdisc := by
  unfold TrafficControl.unmarked Host.attempt
  split_ifs <;> rfl

theorem rootQdisc_premarked {nft : NftStartParams} :
    (TrafficControl.premarked answers me nft h).rootQdisc = h.rootQdisc := by
  unfold TrafficControl.premarked
  split_ifs
  · exact rootQdisc_unmarked
  · exact rootQdisc_unmarked

/-! ### The ends of `Init` -/

/-- An older premark table is still in place after the reset. -/
def Host.KeepsPremark (answers : Command → Bool) (h : Host ι) : Prop :=
  answers (.nftDeleteTable nftTablePremark) = false ∧ (h.table nftTablePremark).isSome = true

theorem freeOf_marking (hfree : h.FreeOf me) :
    ((TrafficControl.unmarked answers me h).attempt answers me
        (.nftAddTable nftTablePremark)).FreeOf me ↔
      (answers (.nftAddTable nftTablePremark) = true → h.KeepsPremark answers) := by
  have htable : (∀ t, ((TrafficControl.unmarked answers me h).attempt answers me
      (.nftAddTable nftTablePremark)).table t ≠ some me) ↔ _ :=
    table_attempt_nftAddTable_ne (table_unmarked_ne hfree.table)
  rw [isSome_table_unmarked] at htable
  constructor
  · intro hf
    exact htable.mp hf.table
  · intro hkeeps
    refine ⟨htable.mpr hkeeps, fun dev => ?_⟩
    rw [Host.rootQdisc_attempt_nftAddTable, rootQdisc_unmarked]
    exact hfree.rootQdisc dev

theorem freeOf_premarked {nft : NftStartParams} (hfree : h.FreeOf me) :
    (TrafficControl.premarked answers me nft h).FreeOf me ↔
      (nft.l4sPremarking = true → h.KeepsPremark answers) := by
  have hunmarked : ∀ t, (TrafficControl.unmarked answers me h).table t ≠ some me :=
    table_unmarked_ne hfree.table
  have htable : (∀ t, (TrafficControl.premarked answers me nft h).table t ≠ some me) ↔
      (nft.l4sPremarking = true → h.KeepsPremark answers) := by
    unfold TrafficControl.premarked
    by_cases hnft : nft.l4sPremarking = true
    · rw [if_pos hnft, table_exec_nftAddTable_ne hunmarked, isSome_table_unmarked]
      simp [hnft, Host.KeepsPremark]
    · rw [if_neg hnft]
      simp [hnft, hunmarked]
  constructor
  · intro hf
    exact htable.mp hf.table
  · intro hkeeps
    refine ⟨htable.mpr hkeeps, fun dev => ?_⟩
    rw [rootQdisc_premarked]
    exact hfree.rootQdisc dev

theorem freeOf_qdisc {tc : TrafficControl} {nft : NftStartParams} {args : List String}
    (hfree : h.FreeOf me) :
    ((TrafficControl.cleared answers me tc nft h).attempt answers me
        (.tcQdiscAdd tc.dev args)).FreeOf me ↔
      (nft.l4sPremarking = true → h.KeepsPremark answers) ∧
        answers (.tcQdiscAdd tc.dev args) = false := by
  have hpremarked : ∀ d, (TrafficControl.premarked answers me nft h).rootQdisc d ≠ some me := by
    rw [rootQdisc_premarked]
    exact hfree.rootQdisc
  have hqdisc : (∀ d, ((TrafficControl.cleared answers me tc nft h).attempt answers me
      (.tcQdiscAdd tc.dev args)).rootQdisc d ≠ some me) ↔ _ :=
    rootQdisc_attempt_tcQdiscAdd_ne (rootQdisc_attempt_tcQdiscDelete_ne hpremarked)
  have htable : ((TrafficControl.cleared answers me tc nft h).attempt answers me
      (.tcQdiscAdd tc.dev args)).table = (TrafficControl.premarked answers me nft h).table := by
    rw [Host.table_attempt_tcQdiscAdd, TrafficControl.cleared, Host.table_attempt_tcQdiscDelete]
  rw [← freeOf_premarked hfree, ← hqdisc]
  constructor
  · intro hf
    exact ⟨⟨fun t => htable ▸ hf.table t, hpremarked⟩, hf.rootQdisc⟩
  · rintro ⟨hf, hq⟩
    exact ⟨fun t => htable ▸ hf.table t, hq⟩

/-! ### The start of a session -/

/-- Nothing is made, or what was made is undone by the next command: marking is not requested, or
its table could not be added, or an older table stayed in place; and a step before the opening of
the control file fails. -/
def DbSession.LeavesNothing (answers : Command → Bool) (cv : F64.FloatConv) (s : DbSession)
    (h : Host ι) : Prop :=
  (s.l4sEnablePreMarking = true → answers (.nftAddTable nftTablePremark) = true →
    h.KeepsPremark answers) ∧
  ((s.l4sEnablePreMarking = true ∧ ∃ c ∈ premarkCommands s.dev, answers c = false) ∨
    (s.initTc cv).validate ≠ .ok () ∨
    answers (.tcQdiscAdd s.dev (s.initTc cv).asArgs) = false)

namespace DbSession

variable {cv : F64.FloatConv} {s : DbSession} {e : StartError}

/-- **The host after a start that failed.** -/
theorem freeOf_iff_of_start_eq_error (hfree : h.FreeOf me)
    (hstart : s.start answers me cv h = .error e t) :
    t.FreeOf me ↔ s.LeavesNothing answers cv h := by
  unfold LeavesNothing
  rcases TrafficControl.init_eq_error hstart with
    ⟨hnft, hfail, rfl⟩ | ⟨hall, ⟨hval, rfl⟩ | ⟨hval, rfl⟩⟩
  · -- in the setup of the marking
    rw [freeOf_marking hfree]
    have hl4s : s.l4sEnablePreMarking = true := hnft
    constructor
    · intro hkeeps
      exact ⟨fun _ => hkeeps, .inl ⟨hnft, hfail⟩⟩
    · rintro ⟨hkeeps, -⟩
      exact hkeeps hl4s
  · -- in the validation
    rw [freeOf_premarked hfree]
    constructor
    · intro hkeeps
      exact ⟨fun hl4s _ => hkeeps hl4s, .inr (.inl hval)⟩
    · rintro ⟨hkeeps, -⟩ hl4s
      exact hkeeps hl4s (hall hl4s _ List.mem_cons_self)
  · -- at the qdisc or the control file
    rw [freeOf_qdisc hfree]
    constructor
    · rintro ⟨hkeeps, hans⟩
      exact ⟨fun hl4s _ => hkeeps hl4s, .inr (.inr hans)⟩
    · rintro ⟨hkeeps, hfail⟩
      refine ⟨fun hl4s => hkeeps hl4s (hall hl4s _ List.mem_cons_self), ?_⟩
      rcases hfail with ⟨hl4s, c, hc, hans⟩ | hbad | hans
      · rw [hall hl4s c hc] at hans
        cases hans
      · exact absurd hval hbad
      · exact hans

/-! ### The callers -/

theorem drplayMain_eq_error {answersExit : Command → Bool}
    (hstart : s.start answers me cv h = .error e t) :
    s.drplayMain answers me cv answersExit true h = .error e t :=
  EStateM.bind_eq_error.mpr (.inl hstart)

theorem playSession_eq_error {answersExit : Command → Bool}
    (hstart : s.start answers me cv h = .error e t) :
    s.playSession answers me cv answersExit true h = .error e t :=
  EStateM.bind_eq_error.mpr (.inl hstart)

/-- **When a failed start leaves nothing behind**: both callers have given the session up, and
neither a table nor a qdisc of this start is on the host, exactly if the start leaves nothing. -/
theorem failed_start_iff (answersExit : Command → Bool) (hfree : h.FreeOf me)
    (hstart : s.start answers me cv h = .error e t) :
    ((∃ u, s.drplayMain answers me cv answersExit true h = .error e u ∧ u.FreeOf me) ∧
        ∃ u, s.playSession answers me cv answersExit true h = .error e u ∧ u.FreeOf me) ↔
      s.LeavesNothing answers cv h := by
  rw [drplayMain_eq_error hstart, playSession_eq_error hstart,
    ← freeOf_iff_of_start_eq_error hfree hstart]
  constructor
  · rintro ⟨⟨u, hu, hfree⟩, -⟩
    obtain ⟨-, rfl⟩ := EStateM.Result.error.inj hu
    exact hfree
  · intro hfree
    exact ⟨⟨t, rfl, hfree⟩, t, rfl, hfree⟩

/-- A session with marking and with `markfree` above `markfull`. -/
def misconfigured : DbSession where
  dev := "eth0"
  markfree := 30
  markfull := 4
  l4sEnablePreMarking := true
  childDrp :=
    { newDbDataRatePattern with
      drPattern :=
        { (newDataRatePattern ⟨.fin 0, .fin 1, "a.csv"⟩) with data := some [.fin 1000] } }

/-- Nothing out of range is converted here. -/
def plainConv : F64.FloatConv where
  toUint64 _ := 0
  toUint32 _ := 0
  toInt32 _ := 0

theorem start_misconfigured :
    misconfigured.start (fun _ => true) () plainConv ⟨fun _ => none, fun _ => none⟩ =
      .error (.userInput "Markfree should not be greater Markfull")
        (TrafficControl.premarked (fun _ => true) () misconfigured.nftParams
          ⟨fun _ => none, fun _ => none⟩) :=
  TrafficControl.init_eq_error_of_validate (fun _ => rfl) (by decide +kernel)

theorem failed_start_iff_misconfigured :
    ∃ (e : StartError) (t : Host Unit),
      misconfigured.start (fun _ => true) () plainConv ⟨fun _ => none, fun _ => none⟩ =
        .error e t ∧
      (((∃ u, misconfigured.drplayMain (fun _ => true) () plainConv (fun _ => true) true
            ⟨fun _ => none, fun _ => none⟩ = .error e u ∧ u.FreeOf ()) ∧
          ∃ u, misconfigured.playSession (fun _ => true) () plainConv (fun _ => true) true
            ⟨fun _ => none, fun _ => none⟩ = .error e u ∧ u.FreeOf ()) ↔
        misconfigured.LeavesNothing (fun _ => true) plainConv
          (⟨fun _ => none, fun _ => none⟩ : Host Unit)) :=
  ⟨_, _, start_misconfigured,
    failed_start_iff _ ⟨fun _ => by simp, fun _ => by simp⟩ start_misconfigured⟩

/-- Every command succeeds, the parameters are rejected, and the premark table stays: after the
process has exited, and after `play_session` has returned. -/
theorem premark_left_behind :
    ∃ (e : StartError) (t : Host Unit),
      misconfigured.start (fun _ => true) () plainConv ⟨fun _ => none, fun _ => none⟩ =
        .error e t ∧
      misconfigured.drplayMain (fun _ => true) () plainConv (fun _ => true) true
        ⟨fun _ => none, fun _ => none⟩ = .error e t ∧
      misconfigured.playSession (fun _ => true) () plainConv (fun _ => true) true
        ⟨fun _ => none, fun _ => none⟩ = .error e t ∧
      t.table nftTablePremark = some () :=
  ⟨_, _, start_misconfigured, drplayMain_eq_error start_misconfigured,
    playSession_eq_error start_misconfigured, rfl⟩

end DbSession

end Jens
