import Jens.Drp.PatternIterator
import Jens.Lib.F64
import Jens.Lib.LittleEndian

/-!
# Data rate patterns

`DataRatePattern` is the pattern a provider loads (`pkg/drp/pattern.go`), `DbDataRatePattern` the
database object around it (`internal/persistence/datatypes/data_rate_pattern.go`).  The iterator is
made on the first use and stored in the pattern, so `iterator` returns the pattern as well.
-/

namespace Jens

/-- The parameters a pattern was loaded with. -/
structure LoadParameters where
  minRateKbits : F64
  scale : F64
  origin : String
  deriving DecidableEq

/-- `drp.DataRatePattern`; `iter` and `data` are `none` while the pointer is `nil`.  The defaults
are the zero values of the language. -/
structure DataRatePattern where
  iter : Option (DataRatePatternIterator F64) := none
  name : String := ""
  data : Option (List F64) := none
  min : F64 := .fin 0
  max : F64 := .fin 0
  avg : F64 := .fin 0
  length : ℕ := 0
  sha256 : List UInt8 := []
  description : String := ""
  mapping : List (String × String) := []
  loadParameters : LoadParameters := ⟨.fin 0, .fin 0, ""⟩
  deriving DecidableEq

namespace DataRatePattern

/-- `Iterator`: the stored iterator, or a new one over the data when there is none. -/
def iterator (s : DataRatePattern) : DataRatePatternIterator F64 × DataRatePattern :=
  match s.iter with
  | some it => (it, s)
  | none =>
    let it : DataRatePatternIterator F64 := newDataRatePatternIterator
    let it' := match s.data with
      | some d => if d.length ≠ 0 then (it.updateAndReset d).getD it else it
      | none => it
    (it', { s with iter := some it' })

/-- `SetData`; the panics are a `nil` iterator and empty data. -/
def setData (s : DataRatePattern) (d : List F64) : Option DataRatePattern :=
  s.iter.bind fun it =>
    (it.updateAndReset d).map fun it' => { s with data := some d, iter := some it' }

/-- `Scale`, with products that are not rounded; the iterator, if it has data, has the same slice as
the pattern.  `toBits` is the encoding of a number, and a `nil` data pointer panics. -/
def scale (md5 : List UInt8 → List UInt8) (toBits : F64 → UInt64) (s : DataRatePattern)
    (scale : F64) : Option DataRatePattern :=
  s.data.map fun data =>
    let data := data.map scale.mul
    { s with
      data := some data
      iter := s.iter.map fun it => { it with data := it.data.map fun _ => data }
      sha256 := md5 (data.flatMap fun v => leBytes 8 (toBits v).toNat)
      avg := s.avg.mul scale
      max := s.max.mul scale
      min := s.min.mul scale }

/-- `SampleCount`; `none` is the panic on a `nil` data pointer. -/
def sampleCount (s : DataRatePattern) : Option ℕ := s.data.map List.length

/-- `GetScale`. -/
def getScale (s : DataRatePattern) : F64 := s.loadParameters.scale

/-- `GetMappingValue`. -/
def getMappingValue (s : DataRatePattern) (name fallback : String) : String :=
  (s.mapping.lookup name).getD fallback

end DataRatePattern

/-- `drp.NewDataRatePattern`: the name is the last part of the origin, without its extension. -/
def newDataRatePattern (params : LoadParameters) : DataRatePattern :=
  let filename := (params.origin.toList.splitOn '/').getLastD [] |>.splitOn '.'
  { name := String.ofList filename.dropLast.flatten
    mapping := [("th_mq_latency", "\x7b2,4\x7d"), ("th_p95_latency", "\x7b10,20\x7d"),
      ("th_p99_latency", "\x7b10,20\x7d"), ("th_p999_latency", "\x7b10,20\x7d"),
      ("th_link_usage", "\x7b60,80\x7d")]
    loadParameters := params }

/-- `datatypes.DB_data_rate_pattern`. -/
structure DbDataRatePattern where
  freq : ℤ := 0
  nomeasure : Bool := false
  drPattern : DataRatePattern := {}
  warmupTimeMs : Int32 := 0
  intialMinRateKbits : F64 := .fin 0
  initialScale : F64 := .fin 0
  deriving DecidableEq

/-- `datatypes.NewDB_data_rate_pattern`. -/
def newDbDataRatePattern : DbDataRatePattern where
  initialScale := .fin 1
  drPattern := newDataRatePattern ⟨.fin 0, .fin 1, "memory"⟩

namespace DbDataRatePattern

/-- `Next`. -/
def next (drp : DbDataRatePattern) : Except NextError (F64 × DbDataRatePattern) :=
  let (it, p) := drp.drPattern.iterator
  match it.next with
  | .error e => .error e
  | .ok (v, it') => .ok (v, { drp with drPattern := { p with iter := some it' } })

/-- `Peek`. -/
def peek (drp : DbDataRatePattern) : F64 := drp.drPattern.iterator.1.value

/-- `SetLooping`. -/
def setLooping (drp : DbDataRatePattern) (endless : Bool) : DbDataRatePattern :=
  let (it, p) := drp.drPattern.iterator
  { drp with drPattern := { p with iter := some (it.setLooping endless) } }

/-- `GetTh_mq_latency`. -/
def getThMqLatency (s : DbDataRatePattern) : String :=
  s.drPattern.getMappingValue "th_mq_latency" "\x7b\x7d"

/-- `GetTh_p95_latency`. -/
def getThP95Latency (s : DbDataRatePattern) : String :=
  s.drPattern.getMappingValue "th_p95_latency" "\x7b\x7d"

/-- `GetTh_p99_latency`. -/
def getThP99Latency (s : DbDataRatePattern) : String :=
  s.drPattern.getMappingValue "th_p99_latency" "\x7b\x7d"

/-- `GetTh_p999_latency`. -/
def getThP999Latency (s : DbDataRatePattern) : String :=
  s.drPattern.getMappingValue "th_p999_latency" "\x7b\x7d"

/-- `GetTh_link_usage`. -/
def getThLinkUsage (s : DbDataRatePattern) : String :=
  s.drPattern.getMappingValue "th_link_usage" "\x7b\x7d"

/-- `IsLooping`. -/
def isLooping (drp : DbDataRatePattern) : Bool := drp.drPattern.iterator.1.looping

end DbDataRatePattern

end Jens
