import Jens.Drp.PatternProvider

/-!
# Sessions and benchmarks

`DbSession` and `DbBenchmark` are `DB_session` and `DB_benchmark` with the fields that loading,
validating and starting a session read.
-/

namespace Jens

/-- `datatypes.DB_session`; the defaults are the zero values of the language. -/
structure DbSession where
  name : String := ""
  dev : String := ""
  markfree : Int32 := 0
  markfull : Int32 := 0
  queuesizepackets : Int32 := 0
  extralatencyMs : Int32 := 0
  qosmode : UInt8 := 0
  l4sEnablePreMarking : Bool := false
  signalDrpStart : Bool := false
  childDrp : DbDataRatePattern
  deriving DecidableEq

/-- `DB_session.Validate`. -/
def DbSession.validate (os : Os) (s : DbSession) : Except Failure Unit :=
  match os.interfaceByName s.dev with
  | some err => .error (.error ("'" ++ s.dev ++ "' is not a recognized interface -> " ++ err))
  | none => s.childDrp.validate

/-- `datatypes.DB_benchmark`. -/
structure DbBenchmark where
  name : String
  tag : String
  sessions : List DbSession
  printToStdOut : Bool
  hash : String
  deriving DecidableEq

/-- `DB_benchmark.Validate`: the first session that fails gives the error. -/
def DbBenchmark.validate (os : Os) (s : DbBenchmark) : Except Failure Unit :=
  s.sessions.forM fun v => v.validate os

/-- What `config.PlayCfg` and `config.BenchmarkCfg` hold for a benchmark. -/
structure Config where
  /-- `PlayCfg().A_Session`, the values of `config.toml`. -/
  aSession : DbSession
  aTag : String
  aDev : String
  deriving DecidableEq

end Jens
