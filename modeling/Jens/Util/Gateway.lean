import Jens.Util.Net
import Jens.Util.Os

/-!
# `gateway_name.go`: where Grafana can be reached

`sh` runs a command with `bash -c`; the results of commands are bytes.
-/

namespace Jens

/-- `commands.CommandResult`: the error and the output. -/
structure CommandResult where
  err : Option String
  sOut : List UInt8
  deriving DecidableEq, Repr

/-- `assets.CMD_GET_USERS`. -/
def cmdGetUsers : List UInt8 := ascii "w --no-header --short | awk '{print $3}'"

/-- `fmt.Sprintf(assets.CMD_GET_GATEWAY, usr)`. -/
def cmdGetGateway (usr : List UInt8) : List UInt8 :=
  ascii "ip --brief route get " ++ usr ++ ascii " | rev | awk '{print $3}' | rev"

/-- `isIpOrJens`. -/
def isIpOrJens (adr : List UInt8) : Bool := parseIP adr || adr = ascii "jens"

/-- `strings.SplitAfter(s, sep)`, for a separator of one byte. -/
def splitAfter (s : List UInt8) (sep : UInt8) : List (List UInt8) :=
  let fields := s.splitOn sep
  fields.dropLast.map (· ++ [sep]) ++ [fields.getLastD []]

/-- `strings.TrimRight(s, cutset)`, for a cutset of one byte. -/
def trimRight (s : List UInt8) (c : UInt8) : List UInt8 := (s.reverse.dropWhile (· = c)).reverse

section Gateway

variable (sh : List UInt8 → CommandResult)

/-- `get_user`. -/
def getUser : Except Failure (List UInt8) :=
  let res := sh cmdGetUsers
  if res.err.isSome then .ok (ascii "jens")
  else
    let lines := res.sOut.splitOn '\n'.toUInt8
    -- `lines[:len(lines)-1]`
    if lines.isEmpty then .error (.panic "runtime error: slice bounds out of range [:-1]")
    else
      match lines.dropLast with
      | [] => .ok (ascii "jens")
      | [line] =>
        match splitAfter line ' '.toUInt8 with
        | l :: _ => .ok l
        | [] => .error (.panic "runtime error: index out of range [0] with length 0")
      | _ :: line :: _ => .ok line

/-- `get_gateway`. -/
def getGateway (usr : List UInt8) : List UInt8 :=
  if isIpOrJens usr then
    let res := sh (cmdGetGateway usr)
    if res.err.isSome then ascii "localhost" else trimRight res.sOut '\n'.toUInt8
  else ascii "jens"

/-- The user whose gateway is asked for. -/
def localUser (usr : List UInt8) : List UInt8 := if usr = ascii "-" then ascii "localhost" else usr

/-- `RetrieveMostLikelyGatewayIp`. -/
def retrieveMostLikelyGatewayIp : Except Failure (List UInt8) := do
  let usr ← getUser sh
  let gw := getGateway sh (localUser usr)
  if isIpOrJens gw then pure (ascii "jens") else pure gw

end Gateway

end Jens
