import Jens.Jsonp.Settings

/-!
# Benchmark definitions and how a benchmark is made of one

`BenchmarkPattern`, `BenchmarkDefinition` and `BenchmarkDefinitionWrapper` are what a benchmark file
holds; `loadDbBenchmarkFromJson` reads, validates and merges it with the configuration into the
sessions to play.  A check returns the value it leaves behind; after an error the value is given up,
so there is none.
-/

namespace Jens

/-- `fmt.Errorf` with an error in parentheses; a panic is not caught. -/
def Failure.wrap (msg : String) : Failure → Failure
  | .error e => .error (msg ++ " (" ++ e ++ ")")
  | .panic e => .panic e

/-! ### Patterns -/

structure BenchmarkPattern where
  path : String := ""
  hash : List UInt8 := []
  hashStr : String := ""
  setting : DrplaySetting := {}
  pattern : Option DbDataRatePattern := none
  deriving DecidableEq

namespace BenchmarkPattern

/-- `loadPattern`. -/
def loadPattern (os : Os) (bp : BenchmarkPattern) : Except Failure DbDataRatePattern :=
  if bp.path = "" then .error (.error "can't load a pattern without a path")
  else
    let pattern : DbDataRatePattern :=
      { intialMinRateKbits := .fin 0.9652, initialScale := .fin 0.9999965 }
    pattern.parseDrp os bp.path

/-- `checkOrCalcHash`. -/
def checkOrCalcHash (os : Os) (bp : BenchmarkPattern) : Except Failure BenchmarkPattern := do
  let pattern ← match bp.pattern with
    | some pattern => .ok pattern
    | none => bp.loadPattern os
  let hash := if bp.hash = [] then pattern.drPattern.sha256 else bp.hash
  let calcedHash := hexEncodeToString hash
  if bp.hashStr = "" then
    return { bp with pattern := some pattern, hash := hash, hashStr := calcedHash }
  else if calcedHash ≠ bp.hashStr then
    .error (.error ("DRP-Hash is incorrect. Cant Use the pattern " ++ bp.path ++ " (" ++ calcedHash
      ++ ") as (" ++ bp.hashStr ++ ")"))
  else return { bp with pattern := some pattern, hash := hash }

/-- `GetHashOfLoadedPattern`. -/
def getHashOfLoadedPattern (bp : BenchmarkPattern) : List UInt8 :=
  match bp.pattern with
  | some pattern => pattern.drPattern.sha256
  | none => []

/-- `Validate`. -/
def validate (os : Os) (bp : BenchmarkPattern) : Except Failure BenchmarkPattern := do
  let bp ← bp.checkOrCalcHash os
  let loadedHash := bp.getHashOfLoadedPattern
  if os.notExist bp.path then
    .error (.error ("BenchmarkPattern: File " ++ bp.path ++ " does not exit"))
  else if bp.hash ≠ [] ∧ bp.hash ≠ loadedHash then
    .error (.error ("BenchmarkPattern: DRP-Hash is incorrect. Cant Use the pattern " ++ bp.path
      ++ " (" ++ hexEncodeToString loadedHash ++ ") as (" ++ bp.hashStr ++ ")"))
  else
    bp.setting.validate.mapError Failure.error
    return { bp with hash := if bp.hash = [] then loadedHash else bp.hash }

def fields (os : Os) : List (Json.Slot BenchmarkPattern) :=
  [ .field "Path" path (fun s x => { s with path := x }) .ofStr,
    .field "Hash" hashStr (fun s x => { s with hashStr := x }) .ofStr,
    .field "Setting" setting (fun s x => { s with setting := x }) (DrplaySetting.decode os) ]

def decode (os : Os) : Json.Decoder BenchmarkPattern :=
  .ofObj "jsonp.BenchmarkPattern" (fields os)

def marshal (bp : BenchmarkPattern) : Except String Json := do
  return .obj [("Path", .str bp.path), ("Hash", .str bp.hashStr), ("Setting", ← bp.setting.marshal)]

end BenchmarkPattern

/-! ### Definitions -/

/-- No patterns stand for a `nil` slice. -/
structure BenchmarkDefinition where
  name : String := ""
  maxApplicationBitrate : ℤ := 0
  maxBitrateEstimationTimeS : ℤ := 0
  patterns : List BenchmarkPattern := []
  /-- What the memory of `patterns` holds behind its elements; decoding once more writes over it. -/
  spare : List BenchmarkPattern := []
  drplaySetting : DrplaySetting := {}
  deriving DecidableEq

namespace BenchmarkDefinition

def fields (os : Os) : List (Json.Slot BenchmarkDefinition) :=
  [ .field "Name" name (fun s x => { s with name := x }) .ofStr,
    .field "Max_application_bitrate" maxApplicationBitrate
      (fun s x => { s with maxApplicationBitrate := x }) .ofGoInt,
    .field "MaxBitrateEstimationTimeS" maxBitrateEstimationTimeS
      (fun s x => { s with maxBitrateEstimationTimeS := x }) .ofGoInt,
    .field "Patterns" (fun s => ⟨s.patterns, s.spare⟩)
      (fun s x => { s with patterns := x.elems, spare := x.spare })
      (.ofSlice "jsonp.BenchmarkPattern" {} (BenchmarkPattern.decode os)),
    .field "DrplaySetting" drplaySetting (fun s x => { s with drplaySetting := x })
      (DrplaySetting.decode os) ]

def decode (os : Os) : Json.Decoder BenchmarkDefinition :=
  .ofObj "jsonp.BenchmarkDefinition" (fields os)

def marshal (bcfg : BenchmarkDefinition) : Except String Json := do
  let patterns ← bcfg.patterns.mapM BenchmarkPattern.marshal
  return .obj [("Name", .str bcfg.name),
    ("Max_application_bitrate", .int bcfg.maxApplicationBitrate),
    ("MaxBitrateEstimationTimeS", .int bcfg.maxBitrateEstimationTimeS),
    ("Patterns", if patterns = [] then .null else .arr patterns),
    ("DrplaySetting", ← bcfg.drplaySetting.marshal)]

/-- `CalcMd5`. -/
def calcMd5 (os : Os) (bcfg : BenchmarkDefinition) : Except String (List UInt8) :=
  bcfg.marshal.map fun data => os.md5 (os.render data)

/-- `Validate`; the setting of the top level is not looked at. -/
def validate (os : Os) (bcfg : BenchmarkDefinition) : Except Failure BenchmarkDefinition :=
  if bcfg.name = "" then .error (.error "BenchmarkCfg: name is not set")
  else if bcfg.maxBitrateEstimationTimeS = 0 then
    .error (.error "BenchmarkCfg: MaxBitrateEstimationTimeS not set or equal to 0")
  else if bcfg.patterns = [] then .error (.error "BenchmarkCfg: No Patterns in loaded file")
  else
    (bcfg.patterns.mapM (BenchmarkPattern.validate os)).map fun ps => { bcfg with patterns := ps }

end BenchmarkDefinition

structure BenchmarkDefinitionWrapper where
  hash : List UInt8 := []
  hashStr : String := ""
  inner : BenchmarkDefinition := {}
  deriving DecidableEq

namespace BenchmarkDefinitionWrapper

def fields (os : Os) : List (Json.Slot BenchmarkDefinitionWrapper) :=
  [ .field "Hash" hashStr (fun s x => { s with hashStr := x }) .ofStr,
    .field "Inner" inner (fun s x => { s with inner := x })
      (BenchmarkDefinition.decode os) ]

def decode (os : Os) : Json.Decoder BenchmarkDefinitionWrapper :=
  .ofObj "jsonp.BenchmarkDefinitionWrapper" (fields os)

/-- `CheckOrCalcHash`. -/
def checkOrCalcHash (os : Os) (bmdw : BenchmarkDefinitionWrapper) :
    Except String BenchmarkDefinitionWrapper := do
  let hash ← if bmdw.hash = [] then bmdw.inner.calcMd5 os else .ok bmdw.hash
  let generatedHashStr := hexEncodeToString hash
  if bmdw.hashStr = "" then return { bmdw with hash := hash, hashStr := generatedHashStr }
  else if bmdw.hashStr ≠ generatedHashStr then
    .error ("TopLevelHashes dont match: " ++ bmdw.hashStr ++ " != " ++ generatedHashStr
      ++ " (set != calculated)")
  else return { bmdw with hash := hash }

/-- What a `CheckOrCalcHash` whose error is only logged leaves: the digest, if one could be
computed, is stored all the same. -/
def tryCheckOrCalcHash (os : Os) (bmdw : BenchmarkDefinitionWrapper) : BenchmarkDefinitionWrapper :=
  match bmdw.checkOrCalcHash os with
  | .ok bmdw => bmdw
  | .error _ =>
    if bmdw.hash = [] then { bmdw with hash := (bmdw.inner.calcMd5 os).toOption.getD [] } else bmdw

/-- `Validate`; a missing hash is computed when everything else is done. -/
def validate (os : Os) (wbcfg : BenchmarkDefinitionWrapper) :
    Except Failure BenchmarkDefinitionWrapper := do
  if wbcfg.hash = [] then
    let inner ← wbcfg.inner.validate os
    return { wbcfg with inner := inner }.tryCheckOrCalcHash os
  else
    let calculated ← (wbcfg.inner.calcMd5 os).mapError Failure.error
    if wbcfg.hash ≠ calculated then
      .error (.error ("invalid Benchmark hash: is '" ++ hexEncodeToString calculated
        ++ "', should be '" ++ wbcfg.hashStr ++ "'"))
    else
      let inner ← wbcfg.inner.validate os
      return { wbcfg with inner := inner }

def marshal (s : BenchmarkDefinitionWrapper) : Except String Json := do
  return .obj [("Hash", .str s.hashStr), ("Inner", ← s.inner.marshal)]

end BenchmarkDefinitionWrapper

/-- `NewBenchmarkDefinitionWrapper`; the wrapper that is returned has the hash that is computed in
the same `return` statement. -/
def newBenchmarkDefinitionWrapper (os : Os) (defn : BenchmarkDefinition) :
    Except String BenchmarkDefinitionWrapper :=
  { inner := defn : BenchmarkDefinitionWrapper }.checkOrCalcHash os

/-! ### Loading -/

/-- `LoadBenchmarkDefinitionFromJsonData`: the definition and its hash. -/
def loadBenchmarkDefinitionFromJsonData (os : Os) (dat : String) :
    Except String (BenchmarkDefinition × String) := do
  let j ← os.parseJson dat
  let res ← BenchmarkDefinitionWrapper.decode os {} j
  let res ← res.checkOrCalcHash os
  return (res.inner, res.hashStr)

/-- The first half of `LoadDB_benchmarkFromJson`: the definition, validated, and its hash. -/
def loadDefinition (os : Os) (path : String) : Except Failure (BenchmarkDefinition × String) := do
  let data ← (os.readFile path).mapError fun e => (Failure.error e).wrap "Could not read file"
  let (defintion, hash) ← (loadBenchmarkDefinitionFromJsonData os data).mapError fun e =>
    (Failure.error e).wrap "Supplied path is not a valid json"
  let defintion ← (defintion.validate os).mapError
    (Failure.wrap "Contents of json could not be validated")
  return (defintion, hash)

/-- One round of the loop of `LoadDB_benchmarkFromJson`: the session of the pattern `v`. -/
def loadSession (os : Os) (cv : F64.FloatConv) (cfg : Config) (defintion : BenchmarkDefinition)
    (v : BenchmarkPattern) (i : ℕ) : Except Failure DbSession := do
  let drpValues := readDrpValuesWithFallbacks cv cfg.aSession.childDrp
    [v.setting.drp, defintion.drplaySetting.drp]
  let dbDrp : DbDataRatePattern :=
    { newDbDataRatePattern.setLooping false with
      freq := drpValues.freq.value
      initialScale := drpValues.scale.value
      intialMinRateKbits := drpValues.minrate.value
      warmupTimeMs := drpValues.warmup.value }
  let dbDrp ← dbDrp.parseDrp os v.path
  let tcValues := readTcValuesWithFallbacks cfg.aSession [v.setting.tc, defintion.drplaySetting.tc]
  -- `Qosmode` and `Nomeasure` are left at their zero values
  return {
    markfree := tcValues.markFree.value
    markfull := tcValues.markFull.value
    extralatencyMs := tcValues.extralatency.value
    l4sEnablePreMarking := tcValues.l4spre.value
    signalDrpStart := tcValues.signalstart.value
    dev := cfg.aDev
    childDrp := dbDrp
    name := defintion.name ++ ":" ++ cfg.aTag ++ " (" ++ toString (i + 1) ++ "/"
      ++ toString defintion.patterns.length ++ ")"
    queuesizepackets := tcValues.queueSize.value }

/-- `LoadDB_benchmarkFromJson`. -/
def loadDbBenchmarkFromJson (os : Os) (cv : F64.FloatConv) (cfg : Config) (path : String) :
    Except Failure DbBenchmark := do
  let (defintion, hash) ← loadDefinition os path
  let sessions ← defintion.patterns.zipIdx.mapM fun (v, i) => loadSession os cv cfg defintion v i
  return {
    printToStdOut := false
    name := defintion.name
    tag := cfg.aTag
    sessions := sessions
    hash := hash }

end Jens
