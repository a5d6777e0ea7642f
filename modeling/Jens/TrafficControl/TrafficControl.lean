import Jens.TrafficControl.Host
import Jens.TrafficControl.Params

/-!
# `TrafficControl`: from `Init` to `Close`

`Init` and `Close` are computations on the host.  `Life` is a whole life of a `TrafficControl` on a
host where every command succeeds: `Init`, the start of `LaunchChangeLoop` with the goroutine it
spawns for the signal table, and `Close`, which is called more than once when the player is asked to
exit.  The goroutine's commands interleave with the rest.
-/

namespace Jens

/-- `trafficcontrol.NftStartParams` -/
structure NftStartParams where
  l4sPremarking : Bool
  signalStart : Bool
  deriving DecidableEq, Repr

/-- `trafficcontrol.TrafficControl`, less the current data rate. -/
structure TrafficControl where
  dev : String
  /-- The control file has been opened. -/
  controlFile : Bool
  nft : NftStartParams
  deriving DecidableEq, Repr

/-- `NewTrafficControl` -/
def newTrafficControl (dev : String) : TrafficControl where
  dev := dev
  controlFile := false
  nft := ⟨false, false⟩

namespace TrafficControl

section Host

variable {ι : Type} (answers : Command → Bool) (me : ι)

/-- `Reset` -/
def reset (tc : TrafficControl) : HostM ι Unit := tryCommand answers me (.tcQdiscDelete tc.dev)

/-- `Init` -/
def init (tc : TrafficControl) (params : TrafficControlStartParams) (nft : NftStartParams) :
    HostM ι TrafficControl := do
  resetECTMarking answers me nftTablePremark
  if nft.l4sPremarking then
    createNftRuleECT answers me tc.dev nftTablePremark nftChainForward nftChainOutput "ect1" "0"
  match params.validate with
  | .error msg => throw (.userInput msg)
  | .ok () =>
    tc.reset answers me
    execCommand answers me (.tcQdiscAdd tc.dev params.asArgs)
    execCommand answers me .openControlFile
    return { tc with controlFile := true }

/-- `Close` -/
def close (tc : TrafficControl) : HostM ι Unit := do
  if tc.nft.l4sPremarking then resetECTMarking answers me nftTablePremark
  if tc.nft.signalStart then resetECTMarking answers me nftTableSignal
  tc.reset answers me

end Host

/-- The commands of the goroutine `LaunchChangeLoop` spawns; the last one comes after a timer of
200 ms. -/
def signalCommands (tc : TrafficControl) : List Command :=
  if tc.nft.signalStart then
    .nftDeleteTable nftTableSignal
      :: nftRuleECT tc.dev nftTableSignal nftChainForward nftChainOutput "ect0" "1"
      ++ [.nftDeleteTable nftTableSignal]
  else []

end TrafficControl

/-- A `TrafficControl` and the host it works on. -/
structure Life (ι : Type) where
  tc : TrafficControl
  host : Host ι
  inited : Bool
  launched : Bool
  closed : Bool
  /-- What the signal goroutine has still to execute. -/
  signal : List Command
  /-- What the signal goroutine has executed. -/
  executed : List Command

inductive LifeAction
  | init
  /-- `LaunchChangeLoop` starts. -/
  | launch
  /-- The signal goroutine executes its next command. -/
  | signal
  | close
  deriving DecidableEq, Repr

namespace Life

variable {ι : Type}

/-- A new `TrafficControl` on a host. -/
def new (dev : String) (host : Host ι) : Life ι where
  tc := newTrafficControl dev
  host := host
  inited := false
  launched := false
  closed := false
  signal := []
  executed := []

/-- One step; every command succeeds.  `none` when the action is not enabled. -/
def step (me : ι) (params : TrafficControlStartParams) (nft : NftStartParams) (s : Life ι) :
    LifeAction → Option (Life ι)
  | .init =>
    if s.inited then none
    else match s.tc.init (fun _ => true) me params nft s.host with
      | .ok tc host => some { s with tc := tc, host := host, inited := true }
      | .error _ _ => none
  | .launch =>
    if s.inited ∧ ¬ s.launched then
      some { s with launched := true, signal := s.tc.signalCommands }
    else none
  | .signal =>
    match s.signal with
    | [] => none
    | c :: cs =>
      some { s with host := s.host.exec me c, signal := cs, executed := s.executed ++ [c] }
  | .close =>
    if s.inited then
      match s.tc.close (fun _ => true) me s.host with
      | .ok () host => some { s with host := host, closed := true }
      | .error _ _ => none
    else none

end Life

end Jens
