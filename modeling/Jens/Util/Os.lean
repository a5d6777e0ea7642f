import Jens.Lib.Json

/-!
# The surroundings of the program

`Os` is what the program finds outside itself (files, network interfaces), together with what
nothing here depends on the inner workings of: the grammars of CSV, JSON and floating-point
literals, MD5, and how the arithmetic of floating-point numbers rounds.  On a real machine that is
`F64.nearest`; `Os.exact` does not round.
-/

namespace Jens

/-- How a call fails. -/
inductive Failure
  /-- It returns an error with this text. -/
  | error (msg : String)
  /-- The process panics. -/
  | panic (msg : String)
  deriving DecidableEq, Repr

structure Os where
  /-- `os.ReadFile`.  A byte that is not UTF-8 stands as the U+FFFD that a range over the text
  reads. -/
  readFile : String → Except String String
  /-- `os.Stat` says `os.ErrNotExist`. -/
  notExist : String → Bool
  /-- `net.InterfaceByName`: the error, if any. -/
  interfaceByName : String → Option String
  /-- `csv.Reader.ReadAll` of a text, with `#` for comments. -/
  csv : String → Except String (List (List String))
  /-- `strconv.ParseFloat`: the 64 bits of the number. -/
  parseFloat : String → Option UInt64
  /-- The first JSON value of a text. -/
  parseJson : String → Except String Json
  /-- The text `json.Marshal` makes of a value. -/
  render : Json → List UInt8
  /-- `md5.Sum`. -/
  md5 : List UInt8 → List UInt8
  /-- The `float64` that the exact result of an operation is rounded to. -/
  round : ℚ → F64

namespace Os

/-- `x * y`. -/
def mul (os : Os) (x y : F64) : F64 := (x.mul y).rounded os.round

/-- `x + y`. -/
def add (os : Os) (x y : F64) : F64 := (x.add y).rounded os.round

/-- `x / y`. -/
def div (os : Os) (x y : F64) : F64 := (x.div y).rounded os.round

/-- The same surroundings, with arithmetic over the rationals. -/
def exact (os : Os) : Os := { os with round := .fin }

@[simp] theorem exact_mul (os : Os) : os.exact.mul = F64.mul := by
  funext x y
  exact F64.rounded_fin _

@[simp] theorem exact_add (os : Os) : os.exact.add = F64.add := by
  funext x y
  exact F64.rounded_fin _

@[simp] theorem exact_div (os : Os) : os.exact.div = F64.div := by
  funext x y
  exact F64.rounded_fin _

end Os

/-- `hex.EncodeToString`. -/
def hexEncodeToString (bytes : List UInt8) : String :=
  String.ofList (bytes.flatMap fun b =>
    [Nat.digitChar (b.toNat / 16), Nat.digitChar (b.toNat % 16)])

end Jens
