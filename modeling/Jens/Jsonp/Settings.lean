import Jens.Datatypes.Session
import Jens.Lib.FirstSet

/-!
# The settings of a benchmark definition

`DrPlayTrafficControlConfig` (`TCSetting.go`), `DrPlayDataRateConfig` (`DRPconfig.go`) and
`DrplaySetting` (`BenchmarkDrplaySetting.go`) with their checks, their JSON forms and the fallbacks
over several levels (`ReadTcValuesWithFallbacks`, `ReadDrpValuesWithFallbacks`).
-/

namespace Jens

/-! ### Traffic control -/

structure DrPlayTrafficControlConfig where
  markfree : Option Int32 := none
  markfull : Option Int32 := none
  extralatency : Option Int32 := none
  l4sEnablePreMarking : Option Bool := none
  signalDrpStart : Option Bool := none
  queuesizepackets : Option UInt64 := none
  deriving DecidableEq

namespace DrPlayTrafficControlConfig

/-- `Validate`. -/
def validate (tcSet : DrPlayTrafficControlConfig) : Except String Unit :=
  if tcSet.markfree.any fun free => tcSet.markfull.any fun full => free > full then
    .error "tcDrPlaySetting: Markfree can not be greater or equal to Markfull"
  else
    -- no number is both below 0 and above 100
    match tcSet.extralatency.filter fun l => l < 0 && l > 100 with
    | some l =>
      .error ("tcDrPlaySetting: Extralatency should be inbetween 0 and 100; is "
        ++ toString l.toInt)
    | none => .ok ()

def fields : List (Json.Slot DrPlayTrafficControlConfig) :=
  [ .field "Markfree" markfree (fun s x => { s with markfree := x }) (.ofPtr 0 .ofInt32),
    .field "Markfull" markfull (fun s x => { s with markfull := x }) (.ofPtr 0 .ofInt32),
    .field "Extralatency" extralatency (fun s x => { s with extralatency := x })
      (.ofPtr 0 .ofInt32),
    .field "L4sEnablePreMarking" l4sEnablePreMarking
      (fun s x => { s with l4sEnablePreMarking := x }) (.ofPtr false .ofBool),
    .field "SignalDrpStart" signalDrpStart (fun s x => { s with signalDrpStart := x })
      (.ofPtr false .ofBool),
    .field "Queuesizepackets" queuesizepackets (fun s x => { s with queuesizepackets := x })
      (.ofPtr 0 .ofUInt64) ]

def decode : Json.Decoder DrPlayTrafficControlConfig :=
  .ofObj "jsonp.DrPlayTrafficControlConfig" fields

def marshal (s : DrPlayTrafficControlConfig) : Except String Json := do
  let int32 (x : Int32) : Except String Json := .ok (.int x.toInt)
  let bool (b : Bool) : Except String Json := .ok (.bool b)
  return .obj ((← Json.omitempty "Markfree" s.markfree int32)
    ++ (← Json.omitempty "Markfull" s.markfull int32)
    ++ (← Json.omitempty "Extralatency" s.extralatency int32)
    ++ (← Json.omitempty "L4sEnablePreMarking" s.l4sEnablePreMarking bool)
    ++ (← Json.omitempty "SignalDrpStart" s.signalDrpStart bool)
    ++ (← Json.omitempty "Queuesizepackets" s.queuesizepackets fun q => .ok (.int q.toNat)))

end DrPlayTrafficControlConfig

/-! ### The data rate -/

structure DrPlayDataRateConfig where
  warmupBeforeDrpMs : Option F64 := none
  frequency : Option ℤ := none
  scale : Option F64 := none
  minRateKbits : Option F64 := none
  deriving DecidableEq

namespace DrPlayDataRateConfig

/-- `Validate`. -/
def validate (bdrp : DrPlayDataRateConfig) : Except String Unit :=
  if bdrp.frequency.any fun f => f > 100 || f < 0 then
    .error "BenchmarkDrplaySetting: Invalid Frequency range [0-100]"
  else if bdrp.scale.any fun x => x.lt (.fin (1 / 10)) then
    .error "BenchmarkDrplaySetting: Scale must be >= 0.1"
  else if bdrp.minRateKbits.any fun x => x.lt (.fin 0) then
    .error "BenchmarkDrplaySetting: MinRateKbits can't be less than 0"
  else if bdrp.warmupBeforeDrpMs.any fun x => x.lt (.fin 0) then
    .error "BenchmarkDrplaySetting: WarmupBeforeDrpMs can't be less than 0"
  else .ok ()

def fields (os : Os) : List (Json.Slot DrPlayDataRateConfig) :=
  [ .field "WarmupBeforeDrpMs" warmupBeforeDrpMs (fun s x => { s with warmupBeforeDrpMs := x })
      (.ofPtr (.fin 0) (.ofFloat os.round)),
    .field "Frequency" frequency (fun s x => { s with frequency := x }) (.ofPtr 0 .ofGoInt),
    .field "Scale" scale (fun s x => { s with scale := x }) (.ofPtr (.fin 0) (.ofFloat os.round)),
    .field "MinRateKbits" minRateKbits (fun s x => { s with minRateKbits := x })
      (.ofPtr (.fin 0) (.ofFloat os.round)) ]

def decode (os : Os) : Json.Decoder DrPlayDataRateConfig :=
  .ofObj "jsonp.DrPlayDataRateConfig" (fields os)

def marshal (s : DrPlayDataRateConfig) : Except String Json := do
  return .obj ((← Json.omitempty "WarmupBeforeDrpMs" s.warmupBeforeDrpMs Json.marshalFloat)
    ++ (← Json.omitempty "Frequency" s.frequency fun f => .ok (.int f))
    ++ (← Json.omitempty "Scale" s.scale Json.marshalFloat)
    ++ (← Json.omitempty "MinRateKbits" s.minRateKbits Json.marshalFloat))

end DrPlayDataRateConfig

/-! ### Both -/

structure DrplaySetting where
  tc : Option DrPlayTrafficControlConfig := none
  drp : Option DrPlayDataRateConfig := none
  deriving DecidableEq

namespace DrplaySetting

/-- `Validate`: the traffic control first. -/
def validate (bdrp : DrplaySetting) : Except String Unit := do
  if let some tc := bdrp.tc then tc.validate
  if let some drp := bdrp.drp then drp.validate

def fields (os : Os) : List (Json.Slot DrplaySetting) :=
  [ .field "TC" tc (fun s x => { s with tc := x }) (.ofPtr {} DrPlayTrafficControlConfig.decode),
    .field "DRP" drp (fun s x => { s with drp := x }) (.ofPtr {} (DrPlayDataRateConfig.decode os)) ]

def decode (os : Os) : Json.Decoder DrplaySetting :=
  .ofObj "jsonp.DrplaySetting" (fields os)

def marshal (s : DrplaySetting) : Except String Json := do
  return .obj ((← Json.omitempty "TC" s.tc DrPlayTrafficControlConfig.marshal)
    ++ (← Json.omitempty "DRP" s.drp DrPlayDataRateConfig.marshal))

end DrplaySetting

/-! ### Fallbacks -/

/-- The values `ReadTcValuesWithFallbacks` returns, each with its flag. -/
structure TcValues where
  markFree : Fallback Int32
  markFull : Fallback Int32
  extralatency : Fallback Int32
  l4spre : Fallback Bool
  signalstart : Fallback Bool
  queueSize : Fallback Int32

/-- One round of the loop; a `nil` level sets nothing. -/
def TcValues.consider (s : TcValues) (v : Option DrPlayTrafficControlConfig) : TcValues where
  markFree := s.markFree.consider (v.bind (·.markfree))
  markFull := s.markFull.consider (v.bind (·.markfull))
  extralatency := s.extralatency.consider (v.bind (·.extralatency))
  queueSize := s.queueSize.consider ((v.bind (·.queuesizepackets)).map fun q => q.toUInt32.toInt32)
  l4spre := s.l4spre.consider (v.bind (·.l4sEnablePreMarking))
  signalstart := s.signalstart.consider (v.bind (·.signalDrpStart))

/-- `ReadTcValuesWithFallbacks`. -/
def readTcValuesWithFallbacks (fb : DbSession) (tc : List (Option DrPlayTrafficControlConfig)) :
    TcValues :=
  tc.foldl TcValues.consider
    { markFree := ⟨fb.markfree, false⟩
      markFull := ⟨fb.markfull, false⟩
      extralatency := ⟨fb.extralatencyMs, false⟩
      queueSize := ⟨fb.queuesizepackets, false⟩
      l4spre := ⟨fb.l4sEnablePreMarking, false⟩
      signalstart := ⟨fb.signalDrpStart, false⟩ }

/-- The values `ReadDrpValuesWithFallbacks` returns, each with its flag. -/
structure DrpValues where
  scale : Fallback F64
  freq : Fallback ℤ
  minrate : Fallback F64
  warmup : Fallback Int32

/-- One round of the loop; a `nil` level sets nothing. -/
def DrpValues.consider (cv : F64.FloatConv) (s : DrpValues) (v : Option DrPlayDataRateConfig) :
    DrpValues where
  freq := s.freq.consider (v.bind (·.frequency))
  scale := s.scale.consider (v.bind (·.scale))
  minrate := s.minrate.consider (v.bind (·.minRateKbits))
  warmup := s.warmup.consider ((v.bind (·.warmupBeforeDrpMs)).map (F64.toInt32 cv))

/-- `ReadDrpValuesWithFallbacks`. -/
def readDrpValuesWithFallbacks (cv : F64.FloatConv) (fb : DbDataRatePattern)
    (drp : List (Option DrPlayDataRateConfig)) : DrpValues :=
  drp.foldl (DrpValues.consider cv)
    { freq := ⟨fb.freq, false⟩
      scale := ⟨fb.initialScale, false⟩
      minrate := ⟨fb.intialMinRateKbits, false⟩
      warmup := ⟨fb.warmupTimeMs, false⟩ }

end Jens
