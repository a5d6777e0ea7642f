import Jens.Flowdata.Eligibility

/-!
# `list_text.go`: the list of the eligible flows

The flows stand in a table of columns with `rowC` cells; a cell without a flow holds nil.
`convertFlowsTo2dArray` fills the table and `print2dArrayOfFlows` writes it line by line.  An access
out of range and `strings.Repeat` with a negative count end in a panic.
-/

namespace Jens

/-- `[][]*flowdata.FlowT`; `none` is nil. -/
abbrev DataTable (α : Type) := List (List (Option α))

/-- `t[col][line] = &flow`. -/
def DataTable.setCell {α : Type} (t : DataTable α) (col line : ℕ) (flow : α) :
    Except Failure (DataTable α) := do
  let column ← indexAt t col
  let _ ← indexAt column line
  pure (t.set col (column.set line (some flow)))

/-- `convertFlowsTo2dArray`: the columns, the lines and the table, which may be a nil pointer. -/
def convertFlowsTo2dArray {α : Type} (eligibleFlows : List α) (rowC : ℕ) :
    Except Failure (ℕ × ℕ × Option (DataTable α)) :=
  if eligibleFlows.length = 0 then .ok (0, 0, none)
  else if rowC = 0 then .error (.panic "runtime error: integer divide by zero")
  else do
    let colC := eligibleFlows.length / rowC
    let colC := if eligibleFlows.length % rowC ≠ 0 then colC + 1 else colC
    let t : DataTable α := List.replicate colC (List.replicate rowC none)
    let t ← eligibleFlows.zipIdx.foldlM
      (fun t flow => t.setCell (flow.2 / rowC) (flow.2 % rowC) flow.1) t
    pure (colC, rowC, some t)

/-- A turn of the loop of `writeLine`; `visit` is what is done with a flow, and a cell without one
is skipped. -/
def visitCell {α ω : Type} (visit : α → Except Failure (List ω)) (lineNbr : ℕ)
    (column : List (Option α)) : Except Failure (List ω) := do
  match ← indexAt column lineNbr with
  | none => pure []
  | some flow => visit flow

/-- The loop of `writeLine` over the columns. -/
def DataTable.visitLine {α ω : Type} (visit : α → Except Failure (List ω)) (t : DataTable α)
    (lineNbr : ℕ) : Except Failure (List ω) := (t.mapM (visitCell visit lineNbr)).map List.flatten

/-! ### Writing -/

/-- What is given to `Write` of the widget, with its options. -/
structure TextWrite where
  text : String
  /-- Bold and on black. -/
  highlighted : Bool := false
  color : Option UInt8 := none
  deriving DecidableEq, Repr

/-- `writeHighlightedIf`. -/
def writeHighlightedIf (b : Bool) (t : String) : TextWrite := { text := t, highlighted := b }

/-- `writeHiglightedColoredIf`. -/
def writeHiglightedColoredIf (b : Bool) (t : String) (color : UInt8) : TextWrite :=
  { text := t, highlighted := b, color := if b then some color else none }

/-- `fmt.Sprintf("%04d", i)`. -/
def sprintf04d (i : Int32) : String :=
  let digits := (toString i.toInt.natAbs).toList
  if i < 0 then String.ofList ('-' :: digits.leftpad 3 '0')
  else String.ofList (digits.leftpad 4 '0')

/-- `fmt.Sprintf("% 5s", s)`. -/
def sprintf5s (s : String) : String := String.ofList (s.toList.leftpad 5 ' ')

/-- `strings.Repeat`. -/
def stringsRepeat (s : String) (count : ℤ) : Except Failure String :=
  if count < 0 then .error (.panic "strings: negative Repeat count")
  else .ok (String.join (List.replicate count.toNat s))

section Print

-- `util.FormatLabelISOShorter(float64(n))`
variable (label : ℕ → String)

/-- What `writeLine` writes of a flow. -/
def writeFlow (selectedFlow : Option FlowT) (flow : FlowT) : Except Failure (List TextWrite) := do
  let isSelectedFlow := selectedFlow.any flow.equals
  let length ← flow.d.readLength
  pure [writeHighlightedIf isSelectedFlow (sprintf04d flow.flowId),
    writeHiglightedColoredIf isSelectedFlow "(" flow.color,
    writeHighlightedIf isSelectedFlow (sprintf5s (label length)),
    writeHiglightedColoredIf isSelectedFlow ")" flow.color,
    { text := "▍", color := some flow.color }]

/-- `writeLine`. -/
def writeLine (selectedFlow : Option FlowT) (dataTable : DataTable FlowT) (lineNbr : ℕ) :
    Except Failure (List TextWrite) :=
  (dataTable.visitLine (writeFlow label selectedFlow) lineNbr).map (· ++ [{ text := "\n" }])

/-- `print2dArrayOfFlows`: what is written. -/
def print2dArrayOfFlows (dataTable : DataTable FlowT) (rowC colC : ℕ) (m : FlowManager) :
    Except Failure (List TextWrite) := do
  let (selectedFlow, _) ← m.getSelectedFlow
  let lines ← (List.range rowC).mapM (writeLine label selectedFlow dataTable)
  let last ← stringsRepeat "       ⤻    " (colC - 1)
  pure (lines.flatten ++ [{ text := last }])

end Print

end Jens
