import Jens.Flowdata.FlowManager

/-!
# `flow_manager_flow_eligibility.go`: which flows are listed, and the selected one

`isFlowEligible` decides about one flow, and `eligibleFLows` lists the flows that pass, together
with where the selected one stands among them.  `selectNextFlowIndex` and `selectPreviousFlowIndex`
move the selection along that list.  They are written for any test of the flows: the one of the
program is `isFlowEligible`, at the time at which the loop has come to the flow.  The bound that the
last time stamp is compared with is taken as it is, where `float64` of an `int64` above `2^53` is
rounded.
-/

namespace Jens

/-- `showConfigFlowEligibilityEntryT`. -/
structure FlowEligibilityEntry where
  additionalCount : Int64
  timePastMaxInSec : Int64
  minimumFlowLength : Int64
  deriving DecidableEq

/-- `showConfigFlowEligibilityT`. -/
structure FlowEligibility where
  level0Until : Int64
  level1 : FlowEligibilityEntry
  level2 : FlowEligibilityEntry
  level3 : FlowEligibilityEntry
  deriving DecidableEq

/-- `Equals` of a flow behind a pointer. -/
def equalsOfPointer (self : Option FlowT) (other : FlowT) : Except Failure Bool :=
  (deref self).map fun self => self.equals other

/-- The panic of an access behind the end of a slice, or before its start. -/
def indexOutOfRange (i : ℤ) (length : ℕ) : Failure :=
  .panic ("runtime error: index out of range [" ++ toString i ++ "]"
    ++ if i < 0 then "" else " with length " ++ toString length)

/-- `xs[i]`. -/
def indexAt {α : Type} (xs : List α) (i : ℤ) : Except Failure α :=
  if i < 0 then .error (indexOutOfRange i xs.length)
  else
    match xs[i.toNat]? with
    | some x => .ok x
    | none => .error (indexOutOfRange i xs.length)

/-- `isFromLastNSecsAndHasMoreThen3`. -/
def isFromLastNSecsAndHasMoreThen3 (now : Int64) (flow : FlowT) (n : Int64) :
    Except Failure Bool := do
  let length ← flow.d.readLength
  if length = 0 then pure true
  else
    let ts ← indexAt flow.d.timeStamp (length - 1)
    pure (F64.lt (.fin (now - n * 1000).toInt) ts && decide (3 < length))

/-- The check of a level. -/
def FlowEligibilityEntry.check (cfg : FlowEligibilityEntry) (now : Int64) (flow : FlowT)
    (flowLength : ℕ) : Except Failure Bool :=
  if cfg.minimumFlowLength.toInt < flowLength then .ok true
  else isFromLastNSecsAndHasMoreThen3 now flow cfg.timePastMaxInSec

namespace FlowManager

/-- `GetSelectedFlow`. -/
def getSelectedFlow (man : FlowManager) : Except Failure (Option FlowT × Option String) :=
  if man.selectedFlowIndex = -1 ∨ man.flows.length ≤ man.selectedFlowIndex then
    .ok (none, some ("cant get flow with index=" ++ toString man.selectedFlowIndex))
  else
    (indexAt man.flows man.selectedFlowIndex).map fun flow => (some flow, none)

/-- `isFlowEligible`, at the time `now` in milliseconds. -/
def isFlowEligible (cfg : FlowEligibility) (now : Int64) (self : FlowManager) (flow : FlowT) :
    Except Failure Bool :=
  if flow.d.hasLoadGreater1 = false then .ok false
  else if self.flows.length < cfg.level0Until.toInt then .ok true
  else do
    let (selected, err) ← self.getSelectedFlow
    if ← if err.isSome then equalsOfPointer selected flow else pure false then pure true
    else
      let flowLength ← flow.d.readLength
      if self.flows.length < (cfg.level0Until + cfg.level1.additionalCount).toInt then
        cfg.level1.check now flow flowLength
      else if self.flows.length <
          (cfg.level0Until + cfg.level1.additionalCount + cfg.level2.additionalCount).toInt then
        cfg.level2.check now flow flowLength
      else cfg.level3.check now flow flowLength

end FlowManager

/-- `relativeIndexMatchType`. -/
inductive RelativeIndexMatchType
  | exactMatch
  | previousMatch
  | nextMatch
  deriving DecidableEq, Repr

/-- `relativeIndexOfSelectedType`. -/
structure RelativeIndexOfSelected where
  index : ℤ
  matchType : RelativeIndexMatchType
  deriving DecidableEq, Repr

/-- What `EligibleFLows` returns. -/
structure EligibleFlows where
  relativeIndexOfSelected : RelativeIndexOfSelected
  absoluteIndexes : List ℕ
  eligibleFlows : List FlowT
  deriving DecidableEq

/-- A turn of the loop of `EligibleFLows` with an eligible flow. -/
def EligibleFlows.visit (selectedFlowIndex : ℤ) (r : EligibleFlows) (flow : FlowT) (i : ℕ) :
    EligibleFlows :=
  let absoluteIndexes := r.absoluteIndexes ++ [i]
  let eligibleFlows := r.eligibleFlows ++ [flow]
  let here : ℤ := absoluteIndexes.length - 1
  let rel := r.relativeIndexOfSelected
  let rel := if i = selectedFlowIndex then { rel with index := here } else rel
  let rel := if selectedFlowIndex < i ∧ rel.index = -1 then ⟨here, .nextMatch⟩ else rel
  ⟨rel, absoluteIndexes, eligibleFlows⟩

namespace FlowManager

section Navigation

variable (test : ℕ → FlowT → Except Failure Bool) (man : FlowManager)

/-- `EligibleFLows`. -/
def eligibleFLows : Except Failure EligibleFlows :=
  man.flows.zipIdx.foldlM (fun r flow => do
    if ← test flow.2 flow.1 then pure (r.visit man.selectedFlowIndex flow.1 flow.2) else pure r)
    ⟨⟨-1, .exactMatch⟩, [], []⟩

/-- `SelectNextFlowIndex`: the manager, and the error that is returned. -/
def selectNextFlowIndex : Except Failure (FlowManager × Option String) := do
  let r ← man.eligibleFLows test
  let rel := r.relativeIndexOfSelected
  if r.absoluteIndexes.length ≤ 1 then pure (man, some "no Flows are eligable/ existent")
  else if rel.matchType = .nextMatch then
    let i ← indexAt r.absoluteIndexes rel.index
    pure ({ man with selectedFlowIndex := i }, none)
  else if rel.index = r.absoluteIndexes.length - 1 then
    pure (man, some "cant increment SelectedFlowIndex. It is the maxvalue")
  else
    let i ← indexAt r.absoluteIndexes (rel.index + 1)
    pure ({ man with selectedFlowIndex := i }, none)

/-- `SelectPreviousFlowIndex`. -/
def selectPreviousFlowIndex : Except Failure (FlowManager × Option String) := do
  let r ← man.eligibleFLows test
  let rel := r.relativeIndexOfSelected
  let index := if rel.matchType = .nextMatch then rel.index - 1 else rel.index
  if r.absoluteIndexes.length ≤ 1 ∨ index = 0 then
    pure (man, some
      "cant decrement SelectedFlowIndex. Either no other flows or at the beginning")
  else
    let i ← indexAt r.absoluteIndexes (index - 1)
    pure ({ man with selectedFlowIndex := i }, none)

end Navigation

end FlowManager

end Jens
