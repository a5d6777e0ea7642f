import Jens.Lib.Ascii
import Jens.Lib.LittleEndian
import Jens.Util.Strconv

/-!
# `IterateTagName`

A name is its bytes here: what `IterateTagName` cuts off is a byte, not a character.
-/

namespace Jens

/-- The 64 characters of `base64.StdEncoding`. -/
def base64Alphabet : List UInt8 :=
  ascii "ABCDEFGHIJKLMNOPQRSTUVWXYZabcdefghijklmnopqrstuvwxyz0123456789+/"

/-- The character of the six low bits of a number. -/
def base64Char (n : ℕ) : UInt8 := base64Alphabet.getD (n % 64) 0

/-- `base64.StdEncoding.EncodeToString`. -/
def base64Encode : List UInt8 → List UInt8
  | a :: b :: c :: rest =>
    let n := a.toNat * 65536 + b.toNat * 256 + c.toNat
    [base64Char (n / 262144), base64Char (n / 4096), base64Char (n / 64), base64Char n]
      ++ base64Encode rest
  | [a, b] =>
    let n := a.toNat * 65536 + b.toNat * 256
    [base64Char (n / 262144), base64Char (n / 4096), base64Char (n / 64), '='.toUInt8]
  | [a] =>
    let n := a.toNat * 65536
    [base64Char (n / 262144), base64Char (n / 4096), '='.toUInt8, '='.toUInt8]
  | [] => []

/-- `strconv.Atoi` of bytes. -/
def atoiBytes (s : List UInt8) : Option ℤ := atoi (ofBytes s)

/-- A digit, as a byte. -/
def isDigitByte (b : UInt8) : Bool := (Char.ofUInt8 b).isDigit

/-- `[0-9]+\)` at the start of a text. -/
def startsWithNumber (s : List UInt8) : Bool :=
  s.head?.any isDigitByte && (s.dropWhile isDigitByte).head? = some ')'.toUInt8

/-- `regexp.MatchString(".*\\([0-9]+\\)", name)`: nothing anchors the pattern. -/
def matchesTag : List UInt8 → Bool
  | [] => false
  | b :: rest => (b = '('.toUInt8 && startsWithNumber rest) || matchesTag rest

/-- `IterateTagName`; `now` is `uint64(time.Now().Unix())`.  The sum `i+1` wraps around. -/
def iterateTagName (now : UInt64) (name : List UInt8) : Except String (List UInt8) :=
  if matchesTag name then
    let split := name.splitOn '('.toUInt8
    let si := split.getLastD []
    if si = [] then .error "runtime error: slice bounds out of range [:-1]"
    else
      match atoiBytes si.dropLast with
      | none => .ok (name ++ base64Encode (leBytes 8 now.toNat))
      | some i =>
        .ok (split.headD [] ++ ascii ("(" ++ toString ((i + 1).bmod (2 ^ 64)) ++ ")"))
  else .ok (name ++ ascii "(1)")

end Jens
