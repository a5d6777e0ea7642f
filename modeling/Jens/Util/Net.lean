import Jens.Util.Strings

/-!
# `net.ParseIP`

Whether a text is an IP address: four decimal fields with dots between them, or groups of up to four
hexadecimal digits with colons between them, where `::` stands for missing groups once and the last
two groups may be an IPv4 address.  A text is its bytes here.
-/

namespace Jens

/-- A hexadecimal digit, as a byte. -/
def isHexByte (b : UInt8) : Bool :=
  isDigitByte b || ('a'.toUInt8 ≤ b && b ≤ 'f'.toUInt8) || ('A'.toUInt8 ≤ b && b ≤ 'F'.toUInt8)

/-- A field of an IPv4 address: a number of at most 255, without a leading zero. -/
def isOctet (field : List UInt8) : Bool :=
  !field.isEmpty && field.all isDigitByte &&
    (field.length == 1 || field.head? != some '0'.toUInt8) &&
    field.foldl (fun value b => value * 10 + (b.toNat - '0'.toNat)) 0 ≤ 255

/-- An IPv4 address. -/
def parseIPv4 (s : List UInt8) : Bool :=
  let fields := s.splitOn '.'.toUInt8
  fields.length == 4 && fields.all isOctet

/-- The rest of an IPv6 address of which `n` groups are not read; `ellipsis` says that `::` was
read. -/
def parseGroups : ℕ → Bool → List UInt8 → Bool
  | 0, _, _ => false
  | n + 1, ellipsis, s =>
    let digits := s.takeWhile isHexByte
    if digits.length = 0 ∨ 4 < digits.length then false
    else
      match s.dropWhile isHexByte with
      -- no group is missing, or `::` stands for those that are
      | [] => ellipsis == decide (0 < n)
      | c :: rest =>
        if c = '.'.toUInt8 then decide (0 < n) && ellipsis == decide (1 < n) && parseIPv4 s
        else if c = ':'.toUInt8 then
          match rest with
          | [] => false
          | d :: rest' =>
            if d = ':'.toUInt8 then
              !ellipsis && if rest'.isEmpty then decide (0 < n) else parseGroups n true rest'
            else parseGroups n ellipsis rest
        else false

/-- An IPv6 address without a zone. -/
def parseIPv6 (s : List UInt8) : Bool :=
  if (ascii "::").isPrefixOf s then
    if s.length = 2 then true else parseGroups 8 true (s.drop 2)
  else parseGroups 8 false s

/-- `net.ParseIP(s) != nil`: the first dot, colon or percent sign decides what the text is. -/
def parseIP (s : List UInt8) : Bool :=
  match s.find? fun b => b = '.'.toUInt8 ∨ b = ':'.toUInt8 ∨ b = '%'.toUInt8 with
  | none => false
  | some b =>
    if b = '.'.toUInt8 then parseIPv4 s
    else if b = ':'.toUInt8 then parseIPv6 s
    else false

end Jens
