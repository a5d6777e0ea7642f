import Jens.Util.Math

/-!
# The data rate pattern iterator

`DataRatePatternIterator` plays the values of a pattern in order; with looping on it turns round at
both ends.  The iterator keeps a position, a direction (`operator`, `+1` or `-1`) and the value last
returned; `next` is the four-way `switch` of the source, in its order.  The iterator never looks at
the values it hands out, so the definitions are over any type of values.

A read of `data` is checked: an index outside the data is the run-time panic `indexOutOfRange`, a
`nil` data pointer the panic `nilData`, and neither is mixed up with the end of the pattern.
-/

namespace Jens

/-- Why `Next` returns no value.  Only `iterableStop` is an error value of the program
(`errortypes.IterableStopError`); the other two are run-time panics. -/
inductive NextError
  | iterableStop
  | nilData
  | indexOutOfRange
  deriving DecidableEq, Repr

/-- `drp.DataRatePatternIterator`; `data` is `none` while the pointer is `nil`. -/
structure DataRatePatternIterator (α : Type*) where
  looping : Bool
  operator : ℤ
  data : Option (List α)
  position : ℤ
  value : α
  deriving DecidableEq, Repr

/-- `drp.NewDataRatePatternIterator`. -/
def newDataRatePatternIterator {α : Type*} [Zero α] : DataRatePatternIterator α where
  looping := false
  operator := 1
  data := none
  position := -1
  value := 0

/-- `data[i]` with the bounds check of the language. -/
def readIndex {α : Type*} (data : List α) (i : ℤ) : Option α :=
  if 0 ≤ i then data[i.toNat]? else none

namespace DataRatePatternIterator

variable {α : Type*}

/-- `updateAndReset`; reading `(*drp)[0]` of empty data panics (`none`). -/
def updateAndReset (s : DataRatePatternIterator α) (drp : List α) :
    Option (DataRatePatternIterator α) :=
  (readIndex drp 0).map fun v => { s with data := some drp, position := -1, value := v }

/-- `Next`: the value returned and the iterator after the call. -/
def next (s : DataRatePatternIterator α) : Except NextError (α × DataRatePatternIterator α) :=
  match s.data with
  | none => .error .nilData
  | some data =>
    let maxI : ℤ := data.length
    if s.position = -1 then
      .ok (s.value, { s with position := s.position + s.operator * 2 })
    else if s.position ≥ maxI ∨ s.position ≤ 0 then
      -- the end of a cycle
      if !s.looping then .error .iterableStop
      else if s.position ≥ maxI then
        -- double the last value and continue at the one before it
        .ok (s.value,
          { s with operator := -s.operator, position := s.position + -s.operator * 2 })
      else
        -- start back up at index 0, doubling it
        match readIndex data 0 with
        | none => .error .indexOutOfRange
        | some v => .ok (v, { s with operator := -s.operator, position := -1, value := v })
    else
      let position := s.position + s.operator
      let index := minInt (maxI - 1) (absInt (position - s.operator))
      match readIndex data index with
      | none => .error .indexOutOfRange
      | some v => .ok (v, { s with position := position, value := v })

/-- `SetLooping`. -/
def setLooping (s : DataRatePatternIterator α) (endless : Bool) : DataRatePatternIterator α :=
  { s with looping := endless }

/-- `SetDone`: later calls of `Next` stop at once. -/
def setDone (s : DataRatePatternIterator α) : Option (DataRatePatternIterator α) :=
  s.data.map fun data =>
    { s.setLooping false with operator := 1, position := data.length }

/-- The iterator after `k` calls of `Next`. -/
def advance (s : DataRatePatternIterator α) : ℕ → Except NextError (DataRatePatternIterator α)
  | 0 => .ok s
  | k + 1 =>
    match s.advance k with
    | .error e => .error e
    | .ok t => t.next.map Prod.snd

end DataRatePatternIterator

end Jens
