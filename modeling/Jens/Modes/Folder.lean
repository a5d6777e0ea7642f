import Jens.Drp.PatternList
import Jens.Lib.Steps

/-!
# `modes/folder`: the patterns of a folder

The goroutine of `Run` sends the list and the details of the first pattern and then waits in
`termdash.Run`, which hands the keys to `navigator`, one after the other.  At the other ends of
`UpdateDrpList` and `UpdateDrpDetails` are the goroutines of two text boxes; `NewStaticDrpChannels`
makes no channel for the chart, so `UpdateDrpGlobally` sends the details only.

No channel has a buffer, so a send is one step together with its receive; a box that has received
prints before it receives again, and after `cancel` it may return.  `Write` is taken to accept what
is printed.  A run is followed until `termdash.Run` returns or the process panics.
-/

namespace Jens

/-- The keys, as `navigator` tells them apart. -/
inductive FolderKey
  | arrowUp
  | arrowDown
  | exit
  | other
  deriving DecidableEq, Repr

/-- How a text is written into a box. -/
inductive CellOpts
  | plain
  | bold
  | blink
  deriving DecidableEq, Repr

/-- What the box of `NewDrpListTextBox` writes for a list. -/
def drpListText (event : DrpListT) : List (String × CellOpts) :=
  event.drps.zipIdx.flatMap fun drp =>
    if drp.2 = event.selected then [(">", .blink), ("  " ++ drp.1.name ++ "\n", .bold)]
    else [(">", .plain), ("  " ++ drp.1.name ++ "\n", .plain)]

/-- What the box of `NewDrpDetailsTextBox` writes for a pattern; `label` is `FormatLabelISOKilo`. -/
def drpDetailsText (label : F64 → String) (drp : DataRatePattern) : Except Failure String :=
  match drp.sampleCount with
  | none => .error (.panic "invalid memory address or nil pointer dereference")
  | some n =>
    .ok ("Pattern: " ++ drp.name ++ "\nSamples: " ++ toString n ++ "\nMinimum: " ++ label drp.min ++
      "\nMaximum: " ++ label drp.max ++ "\nAverage: " ++ label drp.avg ++
      "\nPath:    " ++ drp.loadParameters.origin)

/-- What `Layout` draws beside the boxes: the title and the number of the chart. -/
structure FolderLayout where
  title : String
  chart : ℕ
  deriving DecidableEq, Repr

/-- `Layout`, with a chart for each pattern; no value is the panic of an index out of range. -/
def folderLayout (patterns : DrpListT) : Option FolderLayout := do
  let drp ← patterns.getSelected
  let chart ← readIndex (List.range patterns.drps.length) patterns.selected
  return ⟨drp.name, chart⟩

/-- What a goroutine that sends the list and the details has still to do. -/
inductive FolderPc
  /-- Before `UpdateDrpList <- *drpList`, in `Run`. -/
  | firstList (l : DrpListT)
  /-- Before `UpdateDrpDetails <- drp`, in `Run`. -/
  | firstDetails (drp : DataRatePattern)
  /-- In `termdash.Run`, with no key to handle. -/
  | idle
  /-- Before `UpdateDrpDetails <- drp`, in `navigator`. -/
  | details (drp : DataRatePattern)
  /-- Before `UpdateDrpList <- *drpList`, in `navigator`. -/
  | list (l : DrpListT)
  /-- Before `ui.Layout`. -/
  | layout
  /-- `termdash.Run` has returned. -/
  | returned
  deriving DecidableEq

/-- The goroutine of `Run` is in `termdash.Run`. -/
def FolderPc.inTermdash : FolderPc → Bool
  | .idle | .details _ | .list _ | .layout => true
  | _ => false

/-- A text box and its goroutine. -/
structure TextBox (α β : Type) where
  /-- What it has received and not printed yet. -/
  event : Option α := none
  /-- What it shows. -/
  text : β
  returned : Bool := false
  deriving DecidableEq

structure FolderUI where
  drpList : DrpListT
  pc : FolderPc
  cancelled : Bool := false
  list : TextBox DrpListT (List (String × CellOpts))
  details : TextBox DataRatePattern String
  layout : FolderLayout
  /-- The panic that has ended the process. -/
  panicked : Option Failure := none
  deriving DecidableEq

inductive FolderAction
  /-- The next send is received. -/
  | send
  /-- `navigator` is called. -/
  | key (k : FolderKey)
  /-- The last steps of `navigator`. -/
  | layout
  | printList
  | printDetails
  /-- The goroutine of a box finds the context done. -/
  | listReturns
  | detailsReturns
  /-- `termdash.Run` finds the context done. -/
  | returns
  deriving DecidableEq, Repr

namespace FolderUI

/-- `drpList.Drps[drpList.Selected]`, and what is done with it. -/
def withSelected (s : FolderUI) (f : DataRatePattern → FolderUI) : FolderUI :=
  match s.drpList.getSelected with
  | some drp => f drp
  | none => { s with panicked := some (.panic "index out of range") }

/-- The first two cases of `navigator`. -/
def select (l : DrpListT) : FolderKey → DrpListT
  | .arrowUp =>
    let newI := l.selected - 1
    if newI < 0 then l else { l with selected := newI }
  | .arrowDown =>
    let newI := l.selected + 1
    if newI ≥ l.drps.length then l else { l with selected := newI }
  | _ => l

/-- `navigator`, up to its first send. -/
def navigator (s : FolderUI) (k : FolderKey) : FolderUI :=
  let s := { s with
    cancelled := s.cancelled || k == FolderKey.exit
    drpList := select s.drpList k }
  s.withSelected fun drp => { s with pc := .details drp }

/-- A box that waits receives. -/
def receive {α β : Type} (box : TextBox α β) (event : α) : Option (TextBox α β) :=
  match box.event, box.returned with
  | none, false => some { box with event := some event }
  | _, _ => none

/-- A send together with its receive. -/
def send (s : FolderUI) : Option FolderUI :=
  match s.pc with
  | .firstList l =>
    (receive s.list l).map fun box =>
      { s with list := box }.withSelected fun drp => { s with list := box, pc := .firstDetails drp }
  | .firstDetails drp =>
    (receive s.details drp).map fun box => { s with details := box, pc := .idle }
  | .details drp =>
    (receive s.details drp).map fun box => { s with details := box, pc := .list s.drpList }
  | .list l => (receive s.list l).map fun box => { s with list := box, pc := .layout }
  | _ => none

/-- The last steps of `navigator`. -/
def draw (s : FolderUI) : FolderUI :=
  match folderLayout s.drpList with
  | some layout => { s with layout := layout, pc := .idle }
  | none => { s with panicked := some (.panic "index out of range") }

/-- The box of the details prints `drp`. -/
def printDetails (label : F64 → String) (s : FolderUI) (drp : DataRatePattern) : FolderUI :=
  match drpDetailsText label drp with
  | .ok text => { s with details := { s.details with event := none, text := text } }
  | .error e => { s with panicked := some e }

/-- One step. -/
def step (label : F64 → String) (s : FolderUI) (a : FolderAction) : Option FolderUI :=
  if s.panicked.isSome then none
  else match a with
    | .send => s.send
    | .key k => if s.pc = .idle then some (s.navigator k) else none
    | .layout => if s.pc = .layout then some s.draw else none
    | .printList =>
      s.list.event.map fun event =>
        { s with list := { s.list with event := none, text := drpListText event } }
    | .printDetails => s.details.event.map (s.printDetails label)
    | .listReturns =>
      if s.cancelled = true ∧ s.list.event.isNone = true then
        some { s with list.returned := true }
      else none
    | .detailsReturns =>
      if s.cancelled = true ∧ s.details.event.isNone = true then
        some { s with details.returned := true }
      else none
    | .returns =>
      if s.cancelled = true ∧ s.pc.inTermdash = true then some { s with pc := .returned } else none

/-- `Run`, up to its first send; the channels and the widgets can be made. -/
def init (drpList : DrpListT) : Except Failure FolderUI :=
  if drpList.selected = -1 then .error (.error "no pattern(s) found")
  else
    match folderLayout drpList with
    | none => .error (.panic "index out of range")
    | some layout =>
      .ok {
        drpList := drpList
        pc := .firstList drpList
        list := { text := [("Waiting for Flows", .plain)] }
        details := { text := "No Flow selected" }
        layout := layout }

/-- `Run` with a folder. -/
def start (os : Os) (glob : String → Except String (List String)) (path : String) :
    Except Failure FolderUI :=
  newDrpListFromFolder os glob path >>= init

/-- No key is handled, and the boxes have printed what they received. -/
structure AtRest (s : FolderUI) : Prop where
  pc : s.pc = .idle
  list : s.list.event = none
  details : s.details.event = none

end FolderUI

/-- The key that the action gives to `navigator`. -/
def FolderAction.pressed : FolderAction → Option FolderKey
  | .key k => some k
  | _ => none

end Jens
