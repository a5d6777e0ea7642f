import Jens.Drp.Pattern
import Jens.Lib.LittleEndian
import Jens.Util.Os

/-!
# Loading a data rate pattern

`provide` is `DataRatePatternFileProvider.Provide`: the rows of the file become the data of the
pattern, each scaled and raised to the minimum rate (`convertDrpData`), and the comments at its
start become the description and the thresholds (`readDrpCommentPath`).
-/

namespace Jens

/-- One row of the loop of `convertDRPdata`: the pattern and the bytes to hash so far. -/
def convertRow (os : Os) (p : LoadParameters) (acc : DataRatePattern × List UInt8)
    (row : List String × ℕ) : Except String (DataRatePattern × List UInt8) :=
  match row with
  | ([], _) => .error "DRP seems to be invalid. Empty row."
  | (_ :: _ :: _, _) => .error "DRP seems to be invalid. Too many cols."
  | ([cell], i) =>
    match os.parseFloat cell with
    | none => .error ("Row " ++ toString i ++ ": '" ++ cell ++ "' in drp is not a valid float64")
    | some float =>
      let drp := acc.1
      let v := F64.max (os.mul (F64.ofBits float) p.scale) p.minRateKbits
      .ok ({ drp with
        data := drp.data.map (· ++ [v])
        max := if drp.max.lt v then v else drp.max
        min := if v.lt drp.min then v else drp.min
        avg := os.add drp.avg v }, acc.2 ++ leBytes 8 float.toNat)

/-- The parameters the rows are converted with; a scale of 0 stands for 1. -/
def LoadParameters.effective (p : LoadParameters) : LoadParameters :=
  if p.scale = .fin 0 then { p with scale := .fin 1 } else p

/-- `convertDRPdata`. -/
def convertDrpData (os : Os) (strdata : List (List String)) (p : LoadParameters) :
    Except String DataRatePattern :=
  if strdata.length = 0 then .error "DRP seems to be invalid. No rows loaded."
  else
    let drp : DataRatePattern :=
      { loadParameters := p.effective, min := F64.maxFloat64, max := .fin (-1),
        length := strdata.length, data := some [] }
    match strdata.zipIdx.foldlM (convertRow os p.effective) (drp, []) with
    | .error e => .error e
    | .ok (drp, hashBuf) =>
      .ok { drp with avg := os.div drp.avg (.fin drp.length), sha256 := os.md5 hashBuf }

/-- `readCSV`. -/
def readCsv (os : Os) (path : String) : Except String (List (List String)) :=
  match os.readFile path with
  | .error e => .error e
  | .ok text => os.csv text

/-- `unicode.IsSpace`. -/
def isSpace (c : Char) : Bool :=
  c.toNat ∈ [0x09, 0x0a, 0x0b, 0x0c, 0x0d, 0x20, 0x85, 0xa0, 0x1680, 0x2028, 0x2029, 0x202f, 0x205f,
    0x3000] || (0x2000 ≤ c.toNat && c.toNat ≤ 0x200a)

/-- `util.RemoveWhiteSpace`. -/
def removeWhiteSpace (str : List Char) : List Char := str.filter fun c => !isSpace c

/-- `strings.TrimSpace`. -/
def trimSpace (str : List Char) : List Char :=
  ((str.dropWhile isSpace).reverse.dropWhile isSpace).reverse

/-- `m[key] = value`. -/
def mapInsert (m : List (String × String)) (key value : String) : List (String × String) :=
  (key, value) :: m.filter fun kv => kv.1 ≠ key

theorem lookup_mapInsert (m : List (String × String)) (key value k : String) :
    (mapInsert m key value).lookup k = if k = key then some value else m.lookup k := by
  unfold mapInsert
  by_cases hk : k = key
  · simp [hk]
  · rw [if_neg hk, List.lookup_cons, beq_false_of_ne hk]
    dsimp only
    -- the entries of other keys stay
    induction m with
    | nil => rfl
    | cons kv m ih =>
      by_cases hkv : kv.1 = key
      · have hne : (k == kv.1) = false := beq_false_of_ne (hkv ▸ hk)
        rw [List.filter_cons_of_neg (by simpa using hkv), ih, List.lookup_cons, hne]
      · rw [List.filter_cons_of_pos (by simpa using hkv), List.lookup_cons, List.lookup_cons, ih]

/-- The loop of `readDRPCommentPath` over the lines; `sep[1]` panics where there is no `=`. -/
def readComments (drp : DataRatePattern) : List (List Char) → Except Failure DataRatePattern
  | ('#' :: v) :: rest =>
    match removeWhiteSpace v with
    | [] => readComments drp rest
    | ':' :: assignment =>
      match assignment.splitOn '=' with
      | varName :: varValue :: more =>
        let noWhiteSpace := String.ofList ('#' :: ':' :: assignment)
        if "th_".toList.isPrefixOf varName ∧ more ≠ [] then
          .error (.error ("error Parsing EvalSetting: '" ++ noWhiteSpace
            ++ "'; Not a valid assignment"))
        else
          let value := "\x7b" ++ String.ofList varValue ++ "\x7d"
          readComments
            { drp with mapping := mapInsert drp.mapping (String.ofList varName) value } rest
      | _ => .error (.panic "index out of range")
    | _ =>
      readComments { drp with
        description := drp.description ++ String.ofList (trimSpace v) ++ "\n" } rest
  | _ => .ok drp

/-- `readDRPCommentPath`. -/
def readDrpCommentPath (os : Os) (path : String) (drp : DataRatePattern) :
    Except Failure DataRatePattern :=
  match os.readFile path with
  | .error e => .error (.error ("Could not read '" ++ path ++ "': " ++ e))
  | .ok data =>
    readComments { drp with mapping := [], description := "" } (data.toList.splitOn '\n')

/-- `filepath.Base`. -/
def filepathBase (path : String) : String :=
  if path = "" then "."
  else
    match (path.toList.reverse.dropWhile (· = '/')).takeWhile (· ≠ '/') with
    | [] => "/"
    | base => String.ofList base.reverse

/-- `DataRatePatternFileProvider.Provide`. -/
def provide (os : Os) (path : String) (scale minrate : F64) : Except Failure DataRatePattern :=
  if path = "" then
    .error (.error "DataRatePatternFileProvider was not initialized with a path")
  else
    match readCsv os path with
    | .error e => .error (.error e)
    | .ok strdata =>
      match convertDrpData os strdata ⟨minrate, scale, path⟩ with
      | .error e => .error (.error e)
      | .ok ret =>
        (readDrpCommentPath os path ret).map fun ret => { ret with name := filepathBase path }

namespace DbDataRatePattern

/-- `ParseDRP`. -/
def parseDrp (os : Os) (drp : DbDataRatePattern) (path : String) :
    Except Failure DbDataRatePattern :=
  if drp.initialScale.le (.fin 0) then
    .error (.error "Scale can't be less than or equal to 0")
  else
    (provide os path drp.initialScale drp.intialMinRateKbits).map fun p =>
      { drp with drPattern := p }

/-- `Validate`. -/
def validate (s : DbDataRatePattern) : Except Failure Unit :=
  if s.freq < 1 ∨ s.freq > 100 then .error (.error "frequency must be in intervall [1..100]")
  else if s.drPattern.getScale.lt (.fin (1 / 10)) then
    .error (.error "scale factor must be greater than 0.1")
  else
    match s.drPattern.sampleCount with
    | none => .error (.panic "nil pointer dereference")
    | some n =>
      if n = 0 then .error (.error "can't start drplay with a pattern of length 0") else .ok ()

end DbDataRatePattern

end Jens
