import Mathlib.Logic.Function.Basic
import Mathlib.Tactic.Common

/-!
# The host: nft tables, root qdiscs and the commands that change them

`Command` lists the command lines the player executes (`nft_commands.go`, `tc.go`); opening the
control file stands among them.  `Host` is what they change.  A table and a qdisc carry the one who
made them, so that what an earlier session left can be told from what this one made.

Every command may fail: `answers` says which ones do.  `nft` and `tc` either do all a command says
or change nothing.
-/

namespace Jens

/-- `assets.NFT_TABLE_PREMARK` -/
def nftTablePremark : String := "premarkect1"

/-- `assets.NFT_TABLE_SIGNAL` -/
def nftTableSignal : String := "signalect0"

/-- `assets.NFT_CHAIN_FORWARD` -/
def nftChainForward : String := "forward"

/-- `assets.NFT_CHAIN_OUTPUT` -/
def nftChainOutput : String := "output"

inductive Command
  /-- `nft add table inet T` -/
  | nftAddTable (table : String)
  /-- `nft add chain inet T C`, with the hook and the priority of a filter chain. -/
  | nftAddChain (table chain hook priority : String)
  /-- `nft add rule inet T C ip ecn set ECT oifname DEV` -/
  | nftAddRule (table chain ect dev : String)
  /-- `nft delete table inet T` -/
  | nftDeleteTable (table : String)
  /-- `tc qdisc add dev DEV root handle 1: janz ARGS` -/
  | tcQdiscAdd (dev : String) (args : List String)
  /-- `tc qdisc delete dev DEV root` -/
  | tcQdiscDelete (dev : String)
  /-- `os.OpenFile(CTRL_FILE, os.O_WRONLY, os.ModeAppend)` -/
  | openControlFile
  deriving DecidableEq, Repr

/-- The state of the host, with the maker (of type `ι`) of everything in it. -/
structure Host (ι : Type) where
  /-- The nft tables of the family `inet`. -/
  table : String → Option ι
  /-- The janz qdiscs at the root of a device. -/
  rootQdisc : String → Option ι

/-- Why a start fails. -/
inductive StartError
  /-- This command failed. -/
  | command (c : Command)
  /-- `errortypes.UserInputError` -/
  | userInput (msg : String)
  /-- The session could not be persisted. -/
  | persist
  deriving DecidableEq, Repr

/-- Computations on the host that may fail; what was done before the failure stays done. -/
abbrev HostM (ι : Type) := EStateM StartError (Host ι)

section Commands

variable {ι : Type}

/-- What a command that succeeds does.  `nft add table` leaves a table that exists as it is. -/
def Host.exec (me : ι) (h : Host ι) : Command → Host ι
  | .nftAddTable t => { h with table := Function.update h.table t (some ((h.table t).getD me)) }
  | .nftDeleteTable t => { h with table := Function.update h.table t none }
  | .tcQdiscAdd dev _ => { h with rootQdisc := Function.update h.rootQdisc dev (some me) }
  | .tcQdiscDelete dev => { h with rootQdisc := Function.update h.rootQdisc dev none }
  | .nftAddChain _ _ _ _ => h
  | .nftAddRule _ _ _ _ => h
  | .openControlFile => h

section Exec

variable (me : ι) (h : Host ι)

@[simp] theorem Host.table_exec_nftAddTable (t : String) :
    (h.exec me (.nftAddTable t)).table =
      Function.update h.table t (some ((h.table t).getD me)) := rfl

@[simp] theorem Host.table_exec_nftDeleteTable (t : String) :
    (h.exec me (.nftDeleteTable t)).table = Function.update h.table t none := rfl

@[simp] theorem Host.rootQdisc_exec_tcQdiscAdd (dev : String) (args : List String) :
    (h.exec me (.tcQdiscAdd dev args)).rootQdisc =
      Function.update h.rootQdisc dev (some me) := rfl

@[simp] theorem Host.rootQdisc_exec_tcQdiscDelete (dev : String) :
    (h.exec me (.tcQdiscDelete dev)).rootQdisc = Function.update h.rootQdisc dev none := rfl

end Exec

variable (answers : Command → Bool) (me : ι)

/-- `ExecCommand`, with its error passed on. -/
def execCommand (c : Command) : HostM ι Unit := fun h =>
  if answers c then .ok () (h.exec me c) else .error (.command c) h

/-- `ExecCommand`, with its error only logged. -/
def tryCommand (c : Command) : HostM ι Unit := fun h =>
  .ok () (if answers c then h.exec me c else h)

/-- The commands of `CreateNftRuleECT`, in their order. -/
def nftRuleECT (dev nftTable chainForward chainOutput ect priority : String) : List Command :=
  [.nftAddTable nftTable,
    .nftAddChain nftTable chainForward "forward" priority,
    .nftAddChain nftTable chainOutput "output" priority,
    .nftAddRule nftTable chainForward ect dev,
    .nftAddRule nftTable chainOutput ect dev]

/-- `CreateNftRuleECT`: the first command that fails ends it. -/
def createNftRuleECT (dev nftTable chainForward chainOutput ect priority : String) :
    HostM ι Unit :=
  (nftRuleECT dev nftTable chainForward chainOutput ect priority).forM (execCommand answers me)

/-- `ResetECTMarking` -/
def resetECTMarking (nftTable : String) : HostM ι Unit :=
  tryCommand answers me (.nftDeleteTable nftTable)

end Commands

end Jens
