import Jens.Drp.Correct.PatternProvider
import Jens.Persistence.Correct.Generic
import Jens.Player.Drplay

/-!
# The frequency `drplay` is started with

Nothing between the flags and the player looks at the frequency (`exists_main_noError_iff`), so the
player is started with whatever was given (`main_freq`), and its ticker starts just for the
frequencies from 1 to 1000 (`ticks_iff`).  The check of `Validate`, which `drbenchmark` makes, is
not made here: `frequencyChecked_iff`.  Even an error of `ArgParse` need not keep `main` from
starting the player (`main_of_argParse_error`).
-/

namespace Jens

/-! ### The tick -/

/-- The frequencies of which 1000 is at least one multiple. -/
theorem tdiv_pos_iff (freq : ℤ) : 0 < Int.tdiv 1000 freq ↔ 1 ≤ freq ∧ freq ≤ 1000 := by
  rcases lt_trichotomy freq 0 with hneg | rfl | hpos
  · have hle : Int.tdiv 1000 freq ≤ 0 := by
      rw [← neg_neg freq, Int.tdiv_neg]
      have := Int.tdiv_nonneg (a := 1000) (b := -freq) (by omega) (by omega)
      omega
    omega
  · decide
  · rw [Int.tdiv_eq_ediv_of_nonneg (by omega)]
    constructor
    · intro h
      have hmul : 1 * freq ≤ 1000 := (Int.le_ediv_iff_mul_le hpos).mp h
      omega
    · rintro ⟨-, hle⟩
      exact (Int.le_ediv_iff_mul_le hpos).mpr (by omega)

/-- The period is computed without a panic and starts a ticker. -/
def DbSession.Ticks (s : DbSession) : Prop :=
  ∃ d, s.tickPeriod = .ok d ∧ 0 < d ∧ newTicker d = .ok d

theorem DbSession.ticks_iff (s : DbSession) :
    s.Ticks ↔ 1 ≤ s.childDrp.freq ∧ s.childDrp.freq ≤ 1000 := by
  rw [← tdiv_pos_iff]
  constructor
  · rintro ⟨d, hd, hpos, -⟩
    rw [tickPeriod] at hd
    split at hd
    case isTrue => cases hd
    case isFalse =>
      have hval := Except.ok.inj hd
      omega
  · intro hpos
    have hne : s.childDrp.freq ≠ 0 := by
      intro h0
      rw [h0] at hpos
      exact absurd hpos (by decide)
    have hd : 0 < Int.tdiv 1000 s.childDrp.freq * 1000000 := by omega
    exact ⟨_, if_neg hne, hd, if_neg (by omega)⟩

namespace Drplay

variable {env : DrplayEnv} {cfg : PlayCfg} {fl : DrplayFlags} {s : DbSession}

/-! ### From the flags to the player -/

/-- What ends `drplay` before it starts the player, or makes `ArgParse` return an error; none of it
is about the frequency, but for the integers that no flag takes. -/
inductive Stopped (env : DrplayEnv) (cfg : PlayCfg) (fl : DrplayFlags) : Prop
  | noInt (h : fl.freq < -2 ^ 63 ∨ 2 ^ 63 ≤ fl.freq)
  | version (h : fl.v = true)
  | noDev (h : fl.dev = "")
  | init (err : String) (h : (setCall env cfg fl).initErr Store.init = some err)
  | scale (h : fl.scale.le (.fin 0) = true)
  | pattern (err : Failure)
      (h : provide env.os fl.pattern fl.scale cfg.aSession.childDrp.intialMinRateKbits = .error err)
  | persist (hpsql : fl.psql = true) (err : String) (h : env.insert = some err)

theorem setPersistenceTo_setCall :
    Singleton.setPersistenceTo Store.init {} (setCall env cfg fl) =
      ((setCall env cfg fl).initErr Store.init,
        { persistenceStore := some (setCall env cfg fl).v
          inits := [((setCall env cfg fl).v, (setCall env cfg fl).initErr Store.init)] }) := rfl

/-- Whatever `ArgParse` returns, the singleton is taken. -/
theorem store_of_argParse {r : Option String × Singleton Store × PlayCfg}
    (h : argParse env cfg fl = .ok r) :
    r.2.1.persistenceStore = some (setCall env cfg fl).v := by
  rw [argParse, Except.ite_error_eq_ok, Except.ite_error_eq_ok, Except.ite_error_eq_ok,
    setPersistenceTo_setCall] at h
  obtain ⟨-, -, -, h⟩ := h
  dsimp only at h
  split at h
  case h_1 err store heq =>
    obtain rfl := Except.ok.inj h
    rw [← (Prod.mk.inj heq).2]
  case h_2 store heq =>
    rw [← (Prod.mk.inj heq).2] at h
    split at h
    case h_1 => cases h
    case h_2 => obtain rfl := Except.ok.inj h; rfl
    case h_3 => obtain rfl := Except.ok.inj h; rfl

/-- What `ArgParse` has done when it returns without error. -/
theorem argParse_noError_iff {store : Singleton Store} {cfg' : PlayCfg} :
    argParse env cfg fl = .ok (none, store, cfg') ↔
      ¬ (fl.freq < -2 ^ 63 ∨ 2 ^ 63 ≤ fl.freq) ∧ ¬ fl.v = true ∧ ¬ fl.dev = "" ∧
      (setCall env cfg fl).initErr Store.init = none ∧
      ∃ drp, (session cfg fl).childDrp.parseDrp env.os fl.pattern = .ok drp ∧
        store = ⟨some (setCall env cfg fl).v, [((setCall env cfg fl).v, none)]⟩ ∧
        cfg' = { cfg with
          aSession := { session cfg fl with childDrp := drp.setLooping fl.loop }
          csvOutput := fl.csv } := by
  rw [argParse, Except.ite_error_eq_ok, Except.ite_error_eq_ok, Except.ite_error_eq_ok,
    setPersistenceTo_setCall]
  refine and_congr_right fun _ => and_congr_right fun _ => and_congr_right fun _ => ?_
  cases (setCall env cfg fl).initErr Store.init with
  | some err => simp
  | none =>
    cases hparse : (session cfg fl).childDrp.parseDrp env.os fl.pattern with
    | error err => cases err <;> simp [hparse]
    | ok drp => simp [hparse, eq_comm]

/-- `main` comes to the player when the session is stored, also after an error of `ArgParse` if the
exit function answers in time. -/
theorem main_eq_ok_iff {started : Started} :
    main env cfg fl = .ok started ↔
      ∃ err store cfg' db, argParse env cfg fl = .ok (err, store, cfg') ∧
        ¬ (err ≠ none ∧ env.exitTimesOut = true) ∧ store.persistenceStore = some db ∧
        persist env cfg' db = none ∧ started = ⟨err, cfg'.aSession⟩ := by
  rw [main, Except.bind_eq_ok]
  constructor
  · rintro ⟨⟨err, store, cfg'⟩, hargs, h⟩
    dsimp only at h
    rw [Except.ite_error_eq_ok, Singleton.getPersistence, store_of_argParse hargs] at h
    obtain ⟨hexit, h⟩ := h
    refine ⟨err, store, cfg', _, hargs, hexit, store_of_argParse hargs, ?_⟩
    cases hpersist : persist env cfg' (setCall env cfg fl).v with
    | some e => simp [hpersist] at h
    | none => simpa [hpersist, eq_comm] using h
  · rintro ⟨err, store, cfg', db, hargs, hexit, hdb, hpersist, rfl⟩
    refine ⟨_, hargs, ?_⟩
    dsimp only
    rw [Except.ite_error_eq_ok, Singleton.getPersistence, hdb]
    exact ⟨hexit, by simp [hpersist]⟩

/-- **An error of `ArgParse` does not keep the mock player from being started.** -/
theorem main_of_argParse_error {err : String} {store : Singleton Store} {cfg' : PlayCfg}
    (hmock : fl.psql = false) (hargs : argParse env cfg fl = .ok (some err, store, cfg'))
    (hexit : env.exitTimesOut = false) :
    main env cfg fl = .ok ⟨some err, cfg'.aSession⟩ := by
  have hstore : store.persistenceStore = some (.mock 0) := by
    rw [store_of_argParse hargs, setCall, hmock]
    rfl
  have htime : ¬ (some err ≠ none ∧ env.exitTimesOut = true) := fun h => by
    rw [hexit] at h
    exact absurd h.2 (by decide)
  exact main_eq_ok_iff.mpr ⟨_, store, cfg', _, hargs, htime, hstore, rfl, rfl⟩

/-- An initialised store takes the session if the database does. -/
theorem persist_setCall {cfg' : PlayCfg} (hpsql : cfg'.psql = cfg.psql)
    (hinit : (setCall env cfg fl).initErr Store.init = none) :
    persist env cfg' (setCall env cfg fl).v = if fl.psql then env.insert else none := by
  unfold setCall at hinit ⊢
  split_ifs at hinit ⊢ with h
  · have hconnected := PsqlHandles.afterInit_of_noError hinit
    rw [persist, hpsql, hconnected]
    rfl
  · rfl

/-- The player is started after an `ArgParse` without error. -/
theorem main_noError_iff :
    main env cfg fl = .ok ⟨none, s⟩ ↔
      ¬ (fl.freq < -2 ^ 63 ∨ 2 ^ 63 ≤ fl.freq) ∧ ¬ fl.v = true ∧ ¬ fl.dev = "" ∧
      (setCall env cfg fl).initErr Store.init = none ∧
      ∃ drp, (session cfg fl).childDrp.parseDrp env.os fl.pattern = .ok drp ∧
        (if fl.psql then env.insert else none) = none ∧
        s = { session cfg fl with childDrp := drp.setLooping fl.loop } := by
  rw [main_eq_ok_iff]
  constructor
  · rintro ⟨err, store, cfg', db, hargs, -, hdb, hpersist, hs⟩
    obtain ⟨rfl, rfl⟩ := Started.mk.inj hs
    obtain ⟨hint, hv, hdev, hinit, drp, hdrp, rfl, rfl⟩ := argParse_noError_iff.mp hargs
    obtain rfl := Option.some.inj hdb
    have hif := (persist_setCall (by rfl) hinit).symm.trans hpersist
    exact ⟨hint, hv, hdev, hinit, drp, hdrp, hif, rfl⟩
  · rintro ⟨hint, hv, hdev, hinit, drp, hdrp, hpersist, rfl⟩
    refine ⟨none, _, _, _, argParse_noError_iff.mpr ⟨hint, hv, hdev, hinit, drp, hdrp, rfl, rfl⟩,
      fun h => h.1 rfl, rfl, ?_, rfl⟩
    exact (persist_setCall (by rfl) hinit).trans hpersist

/-- The session has the frequency of the flag. -/
theorem main_freq (h : main env cfg fl = .ok ⟨none, s⟩) : s.childDrp.freq = fl.freq := by
  obtain ⟨-, -, -, -, drp, hdrp, -, rfl⟩ := main_noError_iff.mp h
  obtain ⟨-, p, -, rfl⟩ := parseDrp_eq_ok_iff.mp hdrp
  rfl

/-- What `main` has got past is no reason to stop. -/
theorem not_stopped_of_main (h : main env cfg fl = .ok ⟨none, s⟩) : ¬ Stopped env cfg fl := by
  obtain ⟨hint, hv, hdev, hinit, drp, hdrp, hpersist, -⟩ := main_noError_iff.mp h
  obtain ⟨hscale, p, hp, -⟩ := parseDrp_eq_ok_iff.mp hdrp
  intro hstop
  cases hstop with
  | noInt h => exact hint h
  | version h => exact hv h
  | noDev h => exact hdev h
  | init err h => exact absurd (hinit.symm.trans h) (Option.some_ne_none err).symm
  | scale h => exact hscale h
  | pattern err h =>
    have hboth := hp.symm.trans h
    cases hboth
  | persist hpsql err h =>
    rw [if_pos hpsql] at hpersist
    exact absurd (hpersist.symm.trans h) (Option.some_ne_none err).symm

/-- The frequency is no reason to stop. -/
theorem exists_main_noError_iff :
    (∃ s, main env cfg fl = .ok ⟨none, s⟩) ↔ ¬ Stopped env cfg fl := by
  constructor
  · rintro ⟨s, hs⟩
    exact not_stopped_of_main hs
  · intro hgo
    have hinit : (setCall env cfg fl).initErr Store.init = none :=
      Option.eq_none_iff_forall_ne_some.mpr fun err h => hgo (.init err h)
    have hpersist : (if fl.psql then env.insert else none) = none := by
      split_ifs with hpsql
      · exact Option.eq_none_iff_forall_ne_some.mpr fun err h => hgo (.persist hpsql err h)
      · rfl
    cases hp : provide env.os fl.pattern fl.scale cfg.aSession.childDrp.intialMinRateKbits with
    | error err => exact absurd (.pattern err hp) hgo
    | ok p =>
      have hdrp : (session cfg fl).childDrp.parseDrp env.os fl.pattern =
          .ok { (session cfg fl).childDrp with drPattern := p } :=
        parseDrp_eq_ok_iff.mpr ⟨fun h => hgo (.scale h), p, hp, rfl⟩
      exact ⟨_, main_noError_iff.mpr ⟨fun h => hgo (.noInt h), fun h => hgo (.version h),
        fun h => hgo (.noDev h), hinit, _, hdrp, hpersist, rfl⟩⟩

/-! ### The frequency -/

/-- After an `ArgParse` without error only frequencies of the documented interval come to the
player, where their ticker can be started; with any other frequency `drplay` stops before, or
`ArgParse` has returned an error. -/
structure FrequencyChecked (env : DrplayEnv) (cfg : PlayCfg) (fl : DrplayFlags) : Prop where
  playable : ∀ s, main env cfg fl = .ok ⟨none, s⟩ →
    s.Ticks ∧ 1 ≤ s.childDrp.freq ∧ s.childDrp.freq ≤ 100
  rejected : ¬ (1 ≤ fl.freq ∧ fl.freq ≤ 100) →
    (∃ stop, main env cfg fl = .error stop) ∨ ∃ err s, main env cfg fl = .ok ⟨some err, s⟩

/-- **The frequency is checked just if there is nothing to check**: it lies in the interval, or
something else is wrong. -/
theorem frequencyChecked_iff (env : DrplayEnv) (cfg : PlayCfg) (fl : DrplayFlags) :
    FrequencyChecked env cfg fl ↔ (1 ≤ fl.freq ∧ fl.freq ≤ 100) ∨ Stopped env cfg fl := by
  constructor
  · intro hchecked
    by_cases hstop : Stopped env cfg fl
    · exact .inr hstop
    · obtain ⟨s, hs⟩ := exists_main_noError_iff.mpr hstop
      have hfreq := (hchecked.playable s hs).2
      rw [main_freq hs] at hfreq
      exact .inl hfreq
  · intro h
    refine ⟨fun s hs => ?_, fun hout => ?_⟩
    · have hrange : 1 ≤ fl.freq ∧ fl.freq ≤ 100 := h.resolve_right (not_stopped_of_main hs)
      rw [← main_freq hs] at hrange
      exact ⟨s.ticks_iff.mpr ⟨hrange.1, by omega⟩, hrange⟩
    · have hstop : Stopped env cfg fl := h.resolve_left hout
      cases hmain : main env cfg fl with
      | error stop => exact .inl ⟨stop, rfl⟩
      | ok started =>
        obtain ⟨err, s⟩ := started
        cases err with
        | none => exact absurd hstop (not_stopped_of_main hmain)
        | some err => exact .inr ⟨err, s, rfl⟩

/-- A machine with one pattern, of one value. -/
def sawOs : Os where
  readFile path := if path = "saw.csv" then .ok "100\n" else .error "no such file or directory"
  notExist path := path ≠ "saw.csv"
  interfaceByName name := if name = "lo" then none else some "no such network interface"
  csv _ := .ok [["100"]]
  parseFloat cell := if cell = "100" then some 0x4059000000000000 else none
  parseJson _ := .error "EOF"
  render _ := []
  md5 bytes := bytes.take 16
  round := F64.nearest

/-- `drplay -dev lo -pattern saw.csv -freq 0`: the player is started and divides by zero. -/
theorem zero_frequency_started :
    let cfg : PlayCfg := { psql := {}, aSession := { childDrp := newDbDataRatePattern } }
    let fl : DrplayFlags := { dev := "lo", pattern := "saw.csv", freq := 0, tag := "" }
    (∃ s, main { os := sawOs } cfg fl = .ok ⟨none, s⟩ ∧
      s.tickPeriod = .error (.panic "runtime error: integer divide by zero")) ∧
    ¬ FrequencyChecked { os := sawOs } cfg fl := by
  intro cfg fl
  have hmain : ∃ s, main { os := sawOs } cfg fl = .ok ⟨none, s⟩ ∧
      s.tickPeriod = .error (.panic "runtime error: integer divide by zero") := ⟨_, rfl, rfl⟩
  refine ⟨hmain, fun hchecked => ?_⟩
  obtain ⟨s, hs, htick⟩ := hmain
  obtain ⟨d, hd, -⟩ := (hchecked.playable s hs).1
  rw [htick] at hd
  cases hd

end Drplay

end Jens
