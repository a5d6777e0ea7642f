import Jens.Drp.PatternProvider

/-!
# Lists of patterns

`newDrpList` is `NewDrpList`, which asks each of its providers for a pattern and may leave out those
that have none; `newDrpListFromFolder` is `NewDrpListFromFolder`, with a provider for each file of a
folder.
-/

namespace Jens

/-- `drp.DrpListT`. -/
structure DrpListT where
  drps : List DataRatePattern
  selected : ℤ
  deriving DecidableEq

/-- `NewDrpListT`. -/
def newDrpListT : DrpListT where
  drps := []
  selected := -1

/-- `GetSelected`; no value is the panic of an index out of range. -/
def DrpListT.getSelected (s : DrpListT) : Option DataRatePattern := readIndex s.drps s.selected

/-- A `DataRatePatternProvider`: its `Provide`. -/
abbrev DataRatePatternProvider := F64 → F64 → Except Failure DataRatePattern

/-- What the provider number `i` answers: one pair of arguments is for all of them. -/
def answerOf (args : List (F64 × F64)) (v : DataRatePatternProvider × ℕ) :
    Except Failure DataRatePattern :=
  match readIndex args (if args.length = 1 then 0 else v.2) with
  | some (scale, minrateKb) => v.1 scale minrateKb
  | none => .error (.panic "index out of range")

/-- What a turn of the loop does with an answer. -/
def appendAnswer (skipOnFaultyDrp : Bool) (drps : List DataRatePattern) :
    Except Failure DataRatePattern → Except Failure (List DataRatePattern)
  | .ok drp => .ok (drps ++ [drp])
  | .error (.panic msg) => .error (.panic msg)
  | .error (.error err) =>
    if skipOnFaultyDrp then .ok drps else .error (.error ("Got a faluty DRP: " ++ err))

/-- `NewDrpList`. -/
def newDrpList (providers : List DataRatePatternProvider) (args : List (F64 × F64))
    (skipOnFaultyDrp : Bool) : Except Failure DrpListT :=
  if providers.length ≠ args.length ∧ args.length ≠ 1 then
    .error (.error "Length of providers and args do not match.")
  else
    match providers.zipIdx.foldlM
        (fun drps v => appendAnswer skipOnFaultyDrp drps (answerOf args v)) newDrpListT.drps with
    | .error e => .error e
    | .ok drps =>
      if drps.length ≤ 0 then .error (.error "No DRPs were loaded")
      else .ok { newDrpListT with drps := drps, selected := 0 }

/-- `NewDrpListFromFolder`; `glob` is `filepath.Glob`. -/
def newDrpListFromFolder (os : Os) (glob : String → Except String (List String)) (path : String) :
    Except Failure DrpListT :=
  match glob (path ++ "/*.csv") with
  | .error err => .error (.error err)
  | .ok folders => newDrpList (folders.map (provide os)) [(.fin 1, .fin 0)] true

end Jens
