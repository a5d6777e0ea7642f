import Jens.Datatypes.Session
import Jens.Persistence.Stores

/-!
# `drplay`, from its flags to the player

`argParse` and `main` (`cmd/drplay/main.go`) up to the call of `DrpPlayer.Start`, and the tick of
the change loop, which `Start` computes and `LaunchChangeLoop` makes a ticker of.  `main` hands an
error of `ArgParse` to `FATAL.Exit`, which calls the exit function of the logger; that is still the
one that does nothing, so if it answers in time `FATAL.Exit` returns and `main` goes on.
-/

namespace Jens

/-- The command line of `drplay`. -/
structure DrplayFlags where
  v : Bool := false
  dev : String := ""
  pattern : String := "/etc/jens-cli/drp_3valleys.csv"
  freq : ℤ := 10
  /-- The default is the current time. -/
  tag : String
  loop : Bool := false
  csv : Bool := false
  scale : F64 := .fin 1
  psql : Bool := false
  nomeasure : Bool := false
  deriving DecidableEq

/-- What `config.PlayCfg` holds for `drplay`. -/
structure PlayCfg where
  psql : Login
  /-- `A_Session`. -/
  aSession : DbSession
  /-- `A_Session.ParentBenchmark.CsvOuptut`. -/
  csvOutput : Bool := false
  deriving DecidableEq

/-- What `drplay` meets. -/
structure DrplayEnv where
  os : Os
  connection : Connection := {}
  /-- The error of inserting the session, with its pattern, into the database. -/
  insert : Option String := none
  /-- The pattern that `ParseDRP` leaves when it fails. -/
  failedPattern : DataRatePattern := {}
  /-- The exit function of the logger takes longer than `FATAL.Exit` waits. -/
  exitTimesOut : Bool := false

/-- How `drplay` ends before it starts the player. -/
inductive Stop
  /-- `os.Exit`, with what was written before. -/
  | exit (code : ℤ) (msg : String)
  | panic (msg : String)
  deriving DecidableEq, Repr

/-- `ArgParse` and `main` have come to the player. -/
structure Started where
  /-- The error that `ArgParse` has returned. -/
  argParseErr : Option String
  session : DbSession
  deriving DecidableEq

namespace Drplay

/-- The call of `SetPersistenceTo`. -/
def setCall (env : DrplayEnv) (cfg : PlayCfg) (fl : DrplayFlags) : SetCall Connection Store :=
  if fl.psql then ⟨.psql 0, some cfg.psql, env.connection⟩
  else ⟨.mock 0, some {}, env.connection⟩

/-- The session with the values of the flags, before the pattern is loaded. -/
def session (cfg : PlayCfg) (fl : DrplayFlags) : DbSession :=
  { cfg.aSession with
    dev := fl.dev
    name := fl.tag
    childDrp := { cfg.aSession.childDrp with
      freq := fl.freq
      initialScale := fl.scale
      nomeasure := fl.nomeasure } }

/-- `ArgParse`: the error it returns, and what it leaves of the singleton and the configuration.
`flag.Parse` refuses an integer of more than 64 bits. -/
def argParse (env : DrplayEnv) (cfg : PlayCfg) (fl : DrplayFlags) :
    Except Stop (Option String × Singleton Store × PlayCfg) :=
  if fl.freq < -2 ^ 63 ∨ 2 ^ 63 ≤ fl.freq then
    .error (.exit 2 ("invalid value \"" ++ toString fl.freq ++
      "\" for flag -freq: value out of range"))
  else if fl.v then .error (.exit 0 "")
  else if fl.dev = "" then .error (.exit 2 "Flag: 'dev' was not set")
  else
    let result := session cfg fl
    let left := { cfg with aSession := result, csvOutput := fl.csv }
    match Singleton.setPersistenceTo Store.init {} (setCall env cfg fl) with
    | (some err, store) => .ok (some err, store, left)
    | (none, store) =>
      match result.childDrp.parseDrp env.os fl.pattern with
      | .error (.panic msg) => .error (.panic msg)
      | .error (.error err) =>
        let drp := { result.childDrp with drPattern := env.failedPattern }
        .ok (some err, store,
          { left with aSession := { result with childDrp := drp.setLooping fl.loop } })
      | .ok drp =>
        .ok (none, store,
          { left with aSession := { result with childDrp := drp.setLooping fl.loop } })

/-- `Persist` of a session: the mock does nothing. -/
def persist (env : DrplayEnv) (cfg : PlayCfg) : Store → Option String
  | .psql _ =>
    if (PsqlHandles.afterInit env.connection (some cfg.psql)).db then env.insert
    else some "no connection to db"
  | .mock _ => none

/-- `main`, up to `player.Start`. -/
def main (env : DrplayEnv) (cfg : PlayCfg) (fl : DrplayFlags) : Except Stop Started := do
  let (err, store, cfg) ← argParse env cfg fl
  if err ≠ none ∧ env.exitTimesOut then
    .error (.exit (-1) "Ungraceful shutdown: Timout Exceeded")
  else
    match store.getPersistence with
    | .error err => .error (.exit 4 err)
    | .ok db =>
      match persist env cfg db with
      | some err => .error (.exit 1 err)
      | none => .ok ⟨err, cfg.aSession⟩

end Drplay

/-- `time.Duration(1000/Freq) * time.Millisecond` in `Start`, in nanoseconds. -/
def DbSession.tickPeriod (s : DbSession) : Except Failure ℤ :=
  if s.childDrp.freq = 0 then .error (.panic "runtime error: integer divide by zero")
  else .ok (Int.tdiv 1000 s.childDrp.freq * 1000000)

/-- `time.NewTicker`: the period of the ticker. -/
def newTicker (d : ℤ) : Except Failure ℤ :=
  if d ≤ 0 then .error (.panic "non-positive interval for NewTicker") else .ok d

end Jens
