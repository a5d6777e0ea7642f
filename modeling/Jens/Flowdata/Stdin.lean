import Jens.Drp.PatternProvider
import Jens.Flowdata.FlowManager
import Jens.Lib.Delimited

/-!
# `drshow` on the output of `drplay`

`drshow` reads its standard input through a `bufio.Reader`.  `ValidateDrpPlayerPipedIn` skips what
comes before the line with the heading, and `MainSTDinReadLoop` hands every line behind it to
`ReadFromLine`, until the end of the input or until `ReadFromLine` panics.

A `Reader` is what the standard input is going to give, character by character, with the errors of
the reads other than the end in their places, and then its end.  So it gives finitely many errors:
an input that fails again and again, which the loop goes on reading for ever, is none.  The time
`ValidateDrpPlayerPipedIn` waits for the heading is taken to be long enough.
-/

namespace Jens

/-- `bufio.Reader`. -/
abbrev Reader := List (Char ⊕ String)

/-- `ReadString` with a newline. -/
def readString (r : Reader) : List Char × Delimited.End String × Reader := Delimited.read '\n' r

/-- `strings.Fields`. -/
def fields (s : String) : List String :=
  ((s.toList.splitOnP isSpace).filter fun field => field ≠ []).map String.ofList

/-- `isMagicHeader`. -/
def isMagicHeader (arr : List String) : Bool :=
  if arr.length ≠ constHeading.length then false
  else (constHeading.zip arr).all fun v => v.1 = v.2

/-- `skipToMeasures`: the reader behind the heading, or at the end of the input the lines it has
collected. -/
def skipToMeasures (lines : List String) (r : Reader) : Except (List String) Reader :=
  let line := trimNewline (String.ofList (readString r).1)
  if heof : (readString r).2.1 = .eof then .error (lines ++ [line])
  else
    have : (readString r).2.2.length < r.length := Delimited.length_read_lt heof
    if isMagicHeader (fields line) then .ok (readString r).2.2
    else skipToMeasures (lines ++ [line]) (readString r).2.2
termination_by r.length

/-- `ValidateDrpPlayerPipedIn`: the reader, and whether the heading has been found. -/
def validateDrpPlayerPipedIn (r : Reader) : Reader × Bool :=
  match skipToMeasures (List.replicate 256 "") r with
  | .ok rest => (rest, true)
  | .error _ => ([], false)

/-- What `MainSTDinReadLoop` does. -/
inductive StdinEvent
  | readFromLine (line : String)
  /-- `ExitApplicationErr`. -/
  | exitApplicationErr (errorMsg : String)
  /-- `OnEndOfDrpplayer`. -/
  | onEndOfDrpplayer
  /-- `ReadFromLine` has panicked, which ends the process. -/
  | panicked (e : Failure)
  deriving DecidableEq, Repr

/-- `MainSTDinReadLoop`.  After an error that is not the end of the input it goes on, with what has
been read of the line. -/
def mainStdinReadLoop (os : Os) (r : Reader) : List StdinEvent :=
  let line := trimNewline (String.ofList (readString r).1)
  if heof : (readString r).2.1 = .eof then [.onEndOfDrpplayer]
  else
    have : (readString r).2.2.length < r.length := Delimited.length_read_lt heof
    let events := .readFromLine line ::
      match parseLine os line with
      | .error e => [.panicked e]
      | .ok _ => mainStdinReadLoop os (readString r).2.2
    match (readString r).2.1 with
    | .error e => .exitApplicationErr ("Error while Reading: " ++ e) :: events
    | _ => events
termination_by r.length

/-- The lines handed to `ReadFromLine`. -/
def linesRead (events : List StdinEvent) : List String :=
  events.filterMap fun
    | .readFromLine line => some line
    | _ => none

/-- `assets.END_OF_DRPLAY`. -/
def endOfDrplay : List String := ["data", "rate", "player", "ended"]

/-- `fmt.Println(strings.Join(…, " "))`. -/
def printFields (fields : List String) : String := " ".intercalate fields ++ "\n"

/-- What `drplay` prints: the heading when the persistor is made, then what the persistor prints,
and a last line when it ends. -/
def drplayOutput (printed : List String) : String :=
  printFields constHeading ++ String.join printed ++ printFields endOfDrplay

end Jens
