import Jens.Benchmark.Play
import Jens.Datatypes.Benchmark
import Jens.Lib.Serial
import Jens.Psql.Stored

/-!
# A benchmark on the tables of the database

`Tables` has every table that the program writes.  `StoredBenchmark.step` is `Play` of `drbenchmark`
as the database sees it: it inserts the benchmark, and for each session the data rate pattern, the
session and what the measure session stores.  A statement that fails is an answer of the database.

`Play` goes on after a benchmark that could not be inserted: `FATAL.Exit` calls the exit function
and returns, and without one of `drbenchmark`'s own it does nothing.
-/

namespace Jens

/-- The columns of `data_rate_pattern`, but for the serial. -/
structure PatternRow where
  drpSha256 : List UInt8
  name : String
  description : Option String
  loop : Bool
  freq : ℤ
  scale : F64
  minrateKbits : F64
  thMqLatency : String
  thP95Latency : String
  thP99Latency : String
  thP999Latency : String
  thLinkUsage : String
  deriving DecidableEq

/-- The columns of `session_tag`, but for the serial. -/
structure SessionRow where
  benchmarkId : Option ℤ
  name : String
  time : UInt64
  drpId : ℤ
  dev : String
  markfree : Int32
  markfull : Int32
  extralatency : Int32
  qosmode : UInt8
  l4sEnablePreMarking : Bool
  deriving DecidableEq

namespace DbDataRatePattern

/-- `GetDescription`. -/
def getDescription (s : DbDataRatePattern) : Option String :=
  if s.drPattern.description ≠ "" then some s.drPattern.description else none

/-- The arguments of `DB_data_rate_pattern.Insert`. -/
def row (s : DbDataRatePattern) : PatternRow where
  drpSha256 := s.drPattern.sha256
  name := s.drPattern.name
  description := s.getDescription
  loop := s.isLooping
  freq := s.freq
  scale := s.drPattern.getScale
  minrateKbits := s.drPattern.loadParameters.minRateKbits
  thMqLatency := s.getThMqLatency
  thP95Latency := s.getThP95Latency
  thP99Latency := s.getThP99Latency
  thP999Latency := s.getThP999Latency
  thLinkUsage := s.getThLinkUsage

end DbDataRatePattern

/-- `GetFkNullable` of a benchmark with this id. -/
def getFkNullable (benchmarkId : ℤ) : Option ℤ := if benchmarkId > 0 then some benchmarkId else none

/-- The arguments of `DB_session.Insert`, with the id that the pattern has got. -/
def DbSession.row (s : DbSession) (benchmarkId : ℤ) (time : UInt64) (drpId : ℤ) : SessionRow where
  benchmarkId := getFkNullable benchmarkId
  name := s.name
  time := time
  drpId := drpId
  dev := s.dev
  markfree := s.markfree
  markfull := s.markfull
  extralatency := s.extralatencyMs
  qosmode := s.qosmode
  l4sEnablePreMarking := s.l4sEnablePreMarking

/-- The errors of the two statements of `DB_session.Insert`. -/
structure SessionAnswers where
  pattern : Option String := none
  session : Option String := none
  deriving DecidableEq, Repr

/-- The tables of the database. -/
structure Tables where
  benchmarks : BenchmarkTable
  patterns : SerialTable PatternRow
  sessions : SerialTable SessionRow
  store : SessionStore

namespace Tables

/-- `DB_session.Insert`: the tables, and the id of the session or the error. -/
def insertSession (answers : SessionAnswers) (t : Tables) (benchmarkId : ℤ) (time : UInt64)
    (s : DbSession) : Tables × Except String ℤ :=
  match answers.pattern with
  | some err => (t, .error err)
  | none =>
    let drpId := t.patterns.nextId
    let t := { t with patterns := t.patterns.insert s.childDrp.row }
    match answers.session with
    | some err => (t, .error err)
    | none =>
      let sessionId := t.sessions.nextId
      ({ t with sessions := t.sessions.insert (s.row benchmarkId time drpId) }, .ok sessionId)

/-- `DB_benchmark.Insert` of a benchmark with this name and tag: the tables, and the id that it has
afterwards. -/
def insertBenchmark (err : Option String) (t : Tables) (benchmarkId : ℤ) (bm : DbBenchmark) :
    Tables × ℤ :=
  match err with
  | some _ => (t, benchmarkId)
  | none =>
    let row : BenchmarkRow := ⟨benchmarkId, bm.name.toUTF8.toList, bm.tag.toUTF8.toList⟩
    let (_, row, benchmarks) := row.insert t.benchmarks
    ({ t with benchmarks := benchmarks }, row.benchmarkId)

end Tables

/-- What `Wait` waits for: each of the three goroutines has called `Done`. -/
def MeasureSession.done {capA capP : ℕ} (s : MeasureSession capA capP) : Bool :=
  (s.poll = .closing ∨ s.poll = .returned) ∧ s.aggregator.pc = .returned ∧
    s.persistor.pc = .returned

/-- Where `Play` is. -/
inductive StoredPc (capA capP : ℕ)
  /-- Before `Persist` of the benchmark. -/
  | persistBenchmark
  /-- At the head of the loop, before the session at place `i`. -/
  | session (i : ℕ)
  /-- In `play_session`, before `Start`. -/
  | start (i : ℕ) (v : DbSession) (sessionId : ℤ)
  /-- In `Wait`, with the measure session if there is one. -/
  | wait (i : ℕ) (p : SessionParams) (session : Option (MeasureSession capA capP))
  | finished

/-- `Play`, with the id that the benchmark has got and the tables. -/
structure StoredBenchmark (capA capP : ℕ) where
  pc : StoredPc capA capP
  benchmarkId : ℤ
  tables : Tables
  /-- What the last measure session has left of the variable of its package. -/
  currentCapacityKbits : UInt64

inductive StoredAction
  /-- `Persist` of the benchmark. -/
  | persistBenchmark (err : Option String)
  /-- `Persist` of the next session, at this time; after the last one the loop is left. -/
  | persistSession (time : UInt64) (answers : SessionAnswers)
  /-- `Start` fails. -/
  | startFails
  /-- `Start` returns; with the `time_diff` of the measure session, if there is one. -/
  | started (timeDiff : Option UInt64)
  | measure (a : SessionAction) (answers : StoreAnswers)
  /-- `Wait` returns, and the cache of the flows is cleared. -/
  | waitReturns

namespace StoredBenchmark

variable {capA capP : ℕ}

/-- `Play` begins. -/
def init (tables : Tables) : StoredBenchmark capA capP where
  pc := .persistBenchmark
  benchmarkId := 0
  tables := tables
  currentCapacityKbits := 0

/-- One step; `csvOutput` is the `CsvOuptut` of the benchmark. -/
def step (bm : DbBenchmark) (csvOutput : Bool) (s : StoredBenchmark capA capP) (a : StoredAction) :
    Option (StoredBenchmark capA capP) :=
  match s.pc, a with
  | .persistBenchmark, .persistBenchmark err =>
    let (tables, benchmarkId) := s.tables.insertBenchmark err s.benchmarkId bm
    some { s with pc := .session 0, benchmarkId := benchmarkId, tables := tables }
  | .session i, .persistSession time answers =>
    match bm.sessions[i]? with
    | none => some { s with pc := .finished }
    | some v =>
      match s.tables.insertSession answers s.benchmarkId time v with
      | (tables, .ok sessionId) => some { s with pc := .start i v sessionId, tables := tables }
      | (tables, .error _) => some { s with pc := .session (i + 1), tables := tables }
  | .start i _ _, .startFails => some { s with pc := .session (i + 1) }
  | .start i v sessionId, .started timeDiff =>
    if v.childDrp.nomeasure ∧ timeDiff.isSome then none
    else
      some { s with
        pc := .wait i ⟨sessionId, timeDiff.getD 0, csvOutput⟩
          (timeDiff.map fun _ => .init s.currentCapacityKbits) }
  | .wait i p (some session), .measure a answers =>
    (StoredSession.step p ⟨session, s.tables.store⟩ (a, answers)).map fun t =>
      { s with
        pc := .wait i p (some t.session)
        tables := { s.tables with store := t.store } }
  | .wait i _ session, .waitReturns =>
    if session.all MeasureSession.done then
      some { s with
        pc := .session (i + 1)
        tables := { s.tables with store := s.tables.store.clearCache }
        currentCapacityKbits :=
          session.elim s.currentCapacityKbits MeasureSession.currentCapacityKbits }
    else none
  | _, _ => none

end StoredBenchmark

end Jens
