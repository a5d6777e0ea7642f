import Jens.Flowdata.Correct.Appends
import Jens.Flowdata.Correct.Export
import Jens.Flowdata.Stdin

/-!
# What `drshow` makes of its standard input

Every input is a list of pieces, each ended by a newline or by an error, with a tail behind them
(`Delimited.exists_pieces`).  `MainSTDinReadLoop` hands every piece to `ReadFromLine`, in order, up
to the first one that this panics on, and never the tail (`mainStdinReadLoop_unread`);
`skipToMeasures` stops behind the first piece that is the heading and refuses an input without one
(`skipToMeasures_ok_iff`).

Put together with the read loop, `drshow` shows what `drplay` has printed: whatever stands before
the heading and however the goroutines are scheduled, it ends with one flow for each flow of the
samples, and each has the data points of its samples (`drplayOutput_shown`).
-/

namespace Jens

open Delimited Steps

/-! ### Lines -/

/-- The line of a piece. -/
def lineOfPiece (p : Piece Char String) : String := String.ofList p.content

/-- Nothing is left of a newline at the end of a line. -/
theorem trimNewline_text {p : Piece Char String} (h : '\n' ∉ p.content) :
    trimNewline (String.ofList (p.text '\n')) = lineOfPiece p := by
  obtain ⟨content, error⟩ := p
  cases error with
  | none =>
    have htext : (⟨content, none⟩ : Piece Char String).text '\n' = content ++ ['\n'] := rfl
    rw [htext, trimNewline, String.toList_ofList, if_pos (List.getLast?_concat ..),
      List.dropLast_concat]
    rfl
  | some e =>
    have htext : (⟨content, some e⟩ : Piece Char String).text '\n' = content := List.append_nil _
    rw [htext, trimNewline, String.toList_ofList, if_neg]
    · rfl
    · exact fun hlast => h (List.mem_of_getLast? hlast)

theorem trimNewline_ofList {s : List Char} (h : '\n' ∉ s) :
    trimNewline (String.ofList s) = String.ofList s := by
  rw [trimNewline, String.toList_ofList, if_neg]
  exact fun hlast => h (List.mem_of_getLast? hlast)

/-- The pieces of an input hold no newline, nor does its tail. -/
structure Clean (pieces : List (Piece Char String)) (tail : List Char) : Prop where
  pieces : ∀ p ∈ pieces, '\n' ∉ p.content
  tail : '\n' ∉ tail

theorem Clean.of_cons {p : Piece Char String} {pieces : List (Piece Char String)}
    {tail : List Char} (h : Clean (p :: pieces) tail) : '\n' ∉ p.content ∧ Clean pieces tail :=
  ⟨h.pieces p List.mem_cons_self, fun q hq => h.pieces q (List.mem_cons_of_mem _ hq), h.tail⟩

theorem readString_unread_cons {p : Piece Char String} (h : '\n' ∉ p.content)
    (pieces : List (Piece Char String)) (tail : List Char) :
    readString (unread '\n' (p :: pieces) tail) =
      (p.text '\n', p.error.elim .delim .error, unread '\n' pieces tail) := by
  rw [readString, unread_cons]
  exact read_piece h _

theorem readString_unread_nil {tail : List Char} (h : '\n' ∉ tail) :
    readString (unread '\n' [] tail) = (tail, .eof, []) := read_tail h

/-! ### `MainSTDinReadLoop` -/

/-- What happens on a piece. -/
def pieceEvents (p : Piece Char String) : List StdinEvent :=
  (p.error.elim [] fun e => [.exitApplicationErr ("Error while Reading: " ++ e)]) ++
    [.readFromLine (lineOfPiece p)]

theorem mainStdinReadLoop_of_eof {os : Os} {r rest : Reader} {line : List Char}
    (h : readString r = (line, .eof, rest)) : mainStdinReadLoop os r = [.onEndOfDrpplayer] := by
  rw [mainStdinReadLoop, dif_pos (by rw [h])]

/-- What comes after the line of a piece. -/
def eventsAfter (os : Os) (line : String) (rest : Reader) : List StdinEvent :=
  match parseLine os line with
  | .error e => [.panicked e]
  | .ok _ => mainStdinReadLoop os rest

theorem mainStdinReadLoop_of_more {os : Os} {r rest : Reader} {line : List Char}
    {err : Option String} (h : readString r = (line, err.elim .delim .error, rest)) :
    mainStdinReadLoop os r =
      (err.elim [] fun e => [.exitApplicationErr ("Error while Reading: " ++ e)]) ++
        .readFromLine (trimNewline (String.ofList line)) ::
          eventsAfter os (trimNewline (String.ofList line)) rest := by
  rw [mainStdinReadLoop, dif_neg (by rw [h]; cases err <;> simp)]
  simp only [h]
  cases err <;> rfl

theorem mainStdinReadLoop_cons {p : Piece Char String} (h : '\n' ∉ p.content) (os : Os)
    (pieces : List (Piece Char String)) (tail : List Char) :
    mainStdinReadLoop os (unread '\n' (p :: pieces) tail) =
      pieceEvents p ++ eventsAfter os (lineOfPiece p) (unread '\n' pieces tail) := by
  rw [mainStdinReadLoop_of_more (readString_unread_cons h pieces tail), trimNewline_text h,
    pieceEvents, List.append_assoc]
  rfl

/-- No piece makes `ReadFromLine` panic. -/
def AllRead (os : Os) (pieces : List (Piece Char String)) (r : Reader) : Prop :=
  (∀ p ∈ pieces, ¬ Portless (lineOfPiece p)) ∧
    mainStdinReadLoop os r = pieces.flatMap pieceEvents ++ [.onEndOfDrpplayer]

/-- A piece makes `ReadFromLine` panic, and nothing behind it is read. -/
def ReadUntilPanic (os : Os) (pieces : List (Piece Char String)) (r : Reader) : Prop :=
  ∃ (before : List (Piece Char String)) (p : Piece Char String)
    (after : List (Piece Char String)) (e : Failure),
    pieces = before ++ p :: after ∧ (∀ q ∈ before, ¬ Portless (lineOfPiece q)) ∧
    Portless (lineOfPiece p) ∧ parseLine os (lineOfPiece p) = .error e ∧
    mainStdinReadLoop os r = (before ++ [p]).flatMap pieceEvents ++ [.panicked e]

/-- By induction on the pieces: the loop is at the first one. -/
theorem mainStdinReadLoop_eq (os : Os) {pieces : List (Piece Char String)} {tail : List Char}
    (h : Clean pieces tail) :
    AllRead os pieces (unread '\n' pieces tail) ∨
      ReadUntilPanic os pieces (unread '\n' pieces tail) := by
  induction pieces with
  | nil =>
    exact .inl ⟨by simp, mainStdinReadLoop_of_eof (readString_unread_nil h.tail)⟩
  | cons p pieces ih =>
    obtain ⟨hp, hrest⟩ := h.of_cons
    have hcons := mainStdinReadLoop_cons hp os pieces tail
    cases hline : parseLine os (lineOfPiece p) with
    | error e =>
      -- the loop ends here, whatever comes behind the piece
      rw [eventsAfter, hline] at hcons
      have hportless : Portless (lineOfPiece p) := parseLine_error_iff.mp ⟨e, hline⟩
      refine .inr ⟨[], p, pieces, e, rfl, by simp, hportless, hline, ?_⟩
      rw [hcons, List.nil_append, List.flatMap_singleton]
    | ok r =>
      rw [eventsAfter, hline] at hcons
      have hports := not_portless_of_ok hline
      rcases ih hrest with ⟨hall, hloop⟩ | ⟨before, q, after, e, rfl, hbefore, hq, hq', hloop⟩
      · refine .inl ⟨List.forall_mem_cons.mpr ⟨hports, hall⟩, ?_⟩
        rw [hcons, hloop, List.flatMap_cons, List.append_assoc]
      · refine .inr ⟨p :: before, q, after, e, rfl, List.forall_mem_cons.mpr ⟨hports, hbefore⟩, hq,
          hq', ?_⟩
        rw [hcons, hloop, List.cons_append, List.flatMap_cons, List.append_assoc]

theorem allRead_of_ports (os : Os) {pieces : List (Piece Char String)} {tail : List Char}
    (h : Clean pieces tail) (hports : ∀ p ∈ pieces, ¬ Portless (lineOfPiece p)) :
    AllRead os pieces (unread '\n' pieces tail) := by
  rcases mainStdinReadLoop_eq os h with hall | ⟨before, p, after, e, rfl, -, hp, -⟩
  · exact hall
  · exact absurd hp (hports p (List.mem_append_right _ List.mem_cons_self))

/-- **Every line is read, once and in order, and what no newline ends is not.**  Whatever the
standard input gives, it is cut into pieces at the newlines and at the errors, with a tail behind
the last of them; the loop hands the piece before each newline or error to `ReadFromLine`, reports
each error, and ends without having looked at the tail.  Only a piece that names an end point
without a port stops it before. -/
theorem mainStdinReadLoop_unread (os : Os) (r : Reader) :
    ∃ (pieces : List (Piece Char String)) (tail : List Char),
      (∀ p ∈ pieces, '\n' ∉ p.content) ∧ '\n' ∉ tail ∧ r = unread '\n' pieces tail ∧
      (AllRead os pieces r ∨ ReadUntilPanic os pieces r) := by
  obtain ⟨pieces, tail, hpieces, htail, rfl⟩ := exists_pieces '\n' r
  exact ⟨pieces, tail, hpieces, htail, rfl, mainStdinReadLoop_eq os ⟨hpieces, htail⟩⟩

/-! ### `skipToMeasures` -/

theorem isMagicHeader_iff {arr : List String} : isMagicHeader arr = true ↔ arr = constHeading := by
  unfold isMagicHeader
  split_ifs with hlen
  · refine iff_of_false (by simp) ?_
    rintro rfl
    exact hlen rfl
  · rw [not_not] at hlen
    constructor
    · intro hall
      refine List.ext_getElem hlen fun i h₁ h₂ => ?_
      have hmem : (constHeading[i], arr[i]) ∈ constHeading.zip arr :=
        List.mem_iff_getElem.mpr ⟨i, by simp [h₁, h₂], by simp⟩
      exact (of_decide_eq_true (List.all_eq_true.mp hall _ hmem)).symm
    · rintro rfl
      decide +kernel

/-- The piece is a line with the heading. -/
def isHeading (p : Piece Char String) : Bool := isMagicHeader (fields (lineOfPiece p))

theorem skipToMeasures_of_eof {r rest : Reader} {line : List Char}
    (h : readString r = (line, .eof, rest)) (lines : List String) :
    skipToMeasures lines r = .error (lines ++ [trimNewline (String.ofList line)]) := by
  rw [skipToMeasures, dif_pos (by rw [h])]
  simp only [h]

theorem skipToMeasures_of_more {r rest : Reader} {line : List Char} {err : Option String}
    (h : readString r = (line, err.elim .delim .error, rest)) (lines : List String) :
    skipToMeasures lines r =
      if isMagicHeader (fields (trimNewline (String.ofList line))) then .ok rest
      else skipToMeasures (lines ++ [trimNewline (String.ofList line)]) rest := by
  rw [skipToMeasures, dif_neg (by rw [h]; cases err <;> simp)]
  simp only [h]

theorem skipToMeasures_eq {pieces : List (Piece Char String)} {tail : List Char}
    (h : Clean pieces tail) (lines : List String) :
    skipToMeasures lines (unread '\n' pieces tail) =
      match pieces.findIdx? isHeading with
      | some i => .ok (unread '\n' (pieces.drop (i + 1)) tail)
      | none => .error (lines ++ pieces.map lineOfPiece ++ [String.ofList tail]) := by
  induction pieces generalizing lines with
  | nil =>
    rw [skipToMeasures_of_eof (readString_unread_nil h.tail), trimNewline_ofList h.tail]
    simp
  | cons p pieces ih =>
    obtain ⟨hp, hrest⟩ := h.of_cons
    rw [skipToMeasures_of_more (readString_unread_cons hp pieces tail), trimNewline_text hp,
      List.findIdx?_cons]
    by_cases hhead : isHeading p = true
    · rw [isHeading] at hhead
      simp [isHeading, hhead]
    · have hskip : isMagicHeader (fields (lineOfPiece p)) = false := by
        simpa [isHeading] using hhead
      rw [hskip, ih hrest]
      cases hfind : pieces.findIdx? isHeading <;> simp [isHeading, hskip]

theorem isHeading_iff {p : Piece Char String} :
    isHeading p = true ↔ fields (lineOfPiece p) = constHeading := isMagicHeader_iff

/-- **`drshow` starts behind the first heading, and only there.**  The input is accepted just if one
of its lines has the words of the heading, and then what is left to read is all that comes behind
the first such line; a heading that the input ends in, without a newline, does not count. -/
theorem skipToMeasures_ok_iff (lines : List String) (r rest : Reader) :
    skipToMeasures lines r = .ok rest ↔
      ∃ (before : List (Piece Char String)) (p : Piece Char String)
        (after : List (Piece Char String)) (tail : List Char),
        (∀ q ∈ before ++ p :: after, '\n' ∉ q.content) ∧ '\n' ∉ tail ∧
        r = unread '\n' (before ++ p :: after) tail ∧
        (∀ q ∈ before, fields (lineOfPiece q) ≠ constHeading) ∧
        fields (lineOfPiece p) = constHeading ∧ rest = unread '\n' after tail := by
  constructor
  · intro hskip
    obtain ⟨pieces, tail, hpieces, htail, rfl⟩ := exists_pieces '\n' r
    rw [skipToMeasures_eq ⟨hpieces, htail⟩] at hskip
    split at hskip
    · rename_i i hfind
      obtain ⟨hlt, hhead, hbefore⟩ := List.findIdx?_eq_some_iff_getElem.mp hfind
      have hsplit : pieces = pieces.take i ++ pieces[i] :: pieces.drop (i + 1) := by
        rw [List.getElem_cons_drop, List.take_append_drop]
      refine ⟨pieces.take i, pieces[i], pieces.drop (i + 1), tail, by rwa [← hsplit], htail,
        by rw [← hsplit], ?_, isHeading_iff.mp hhead, (Except.ok.inj hskip).symm⟩
      intro q hq
      obtain ⟨j, hj, rfl⟩ := List.mem_iff_getElem.mp hq
      rw [List.length_take] at hj
      rw [List.getElem_take]
      exact fun hf => hbefore j (by omega) (isHeading_iff.mpr hf)
    · cases hskip
  · rintro ⟨before, p, after, tail, hclean, htail, rfl, hbefore, hp, rfl⟩
    have hfind : (before ++ p :: after).findIdx? isHeading = some before.length := by
      rw [List.findIdx?_append, List.findIdx?_eq_none_iff.mpr, List.findIdx?_cons,
        if_pos (isHeading_iff.mpr hp)]
      · simp
      · exact fun q hq => Bool.eq_false_iff.mpr fun h => hbefore q hq (isHeading_iff.mp h)
    rw [skipToMeasures_eq ⟨hclean, htail⟩, hfind]
    simp

/-! ### The output of `drplay` -/

/-- A line and its newline. -/
def pieceOfLine (l : List Char) : Piece Char String := ⟨l, none⟩

/-- Lines as an input. -/
theorem map_inl_lines (lines : List (List Char)) :
    (lines.flatMap fun l => l ++ ['\n']).map Sum.inl =
      (unread '\n' (lines.map pieceOfLine) [] : Reader) := by
  induction lines with
  | nil => rfl
  | cons l lines ih =>
    rw [List.flatMap_cons, List.map_append, ih, List.map_cons, unread_cons]
    simp [pieceOfLine, Piece.source]

/-- The fields of a line between blanks, as characters. -/
def joined (fields : List String) : List Char := (" ".intercalate fields).toList

theorem toList_printFields (fields : List String) :
    (printFields fields).toList = joined fields ++ ['\n'] := String.toList_append

theorem toList_printLine (p : DbMeasurePacket) :
    p.printLine.toList = joined p.csvRecord ++ ['\n'] := String.toList_append

/-- What `drplay` prints of samples, line by line. -/
theorem toList_drplayOutput (ps : List DbMeasurePacket) :
    (drplayOutput (ps.map DbMeasurePacket.printLine)).toList =
      (joined constHeading :: (ps.map fun p => joined p.csvRecord) ++ [joined endOfDrplay]).flatMap
        fun l => l ++ ['\n'] := by
  have hps : (String.join (ps.map DbMeasurePacket.printLine)).toList =
      (ps.map fun p => joined p.csvRecord).flatMap fun l => l ++ ['\n'] := by
    rw [String.toList_join, List.flatMap_map, List.flatMap_map]
    exact List.flatMap_congr fun p _ => toList_printLine p
  rw [drplayOutput, String.toList_append, String.toList_append, hps, toList_printFields,
    toList_printFields]
  simp

theorem notMem_joined {c : Char} (hc : c ≠ ' ') {fields : List String}
    (h : ∀ field ∈ fields, c ∉ field.toList) : c ∉ joined fields := by
  rw [joined]
  induction fields with
  | nil => simp
  | cons field fields ih =>
    have hrest := ih fun f hf => h f (List.mem_cons_of_mem _ hf)
    cases fields with
    | nil => simpa using h field List.mem_cons_self
    | cons field' fields =>
      rw [String.intercalate_cons_cons, String.toList_append, String.toList_append]
      simpa [hc, h field List.mem_cons_self] using hrest

/-- A printed sample is one line. -/
theorem newline_notMem_csvRecord {p : DbMeasurePacket} (hp : Printable p) :
    '\n' ∉ joined p.csvRecord := by
  obtain ⟨s, hs, hstr⟩ := hp.flow
  have hnum (n : ℕ) : '\n' ∉ (toString n).toList := Text.notMem_toString_nat rfl n
  have hsrc := endpointStr_notMem hs.source s.sourcePort (c := '\n') rfl (by decide) (by decide)
  have hdst := endpointStr_notMem hs.destination s.destinationPort (c := '\n') rfl (by decide)
    (by decide)
  have hflow : '\n' ∉ p.netFlowString.toList := by
    rw [hstr, DbNetworkFlow.toList_measureIdStr]
    simp only [List.mem_append, List.mem_cons, not_or]
    exact ⟨hsrc, by decide, hdst⟩
  refine notMem_joined (by decide) fun field hfield => ?_
  simp only [DbMeasurePacket.csvRecord, List.mem_cons, List.not_mem_nil, or_false] at hfield
  rcases hfield with rfl | rfl | rfl | rfl | rfl | rfl | rfl | rfl
  case inr.inr.inr.inr.inr.inr.inr => exact hflow
  all_goals exact hnum _

/-- The input `drshow` gets: some lines, then all that `drplay` prints of the samples. -/
def pipedInput (before : List String) (ps : List DbMeasurePacket) : Reader :=
  (String.join (before.map fun l => l ++ "\n") ++
    drplayOutput (ps.map DbMeasurePacket.printLine)).toList.map Sum.inl

/-- The lines behind the heading. -/
def outputPieces (ps : List DbMeasurePacket) : List (Piece Char String) :=
  ((ps.map fun p => joined p.csvRecord) ++ [joined endOfDrplay]).map pieceOfLine

theorem pipedInput_eq (before : List String) (ps : List DbMeasurePacket) :
    pipedInput before ps =
      unread '\n' ((before.map fun l => pieceOfLine l.toList) ++
        pieceOfLine (joined constHeading) :: outputPieces ps) [] := by
  have hbefore : (String.join (before.map fun l => l ++ "\n")).toList =
      (before.map String.toList).flatMap fun l => l ++ ['\n'] := by
    rw [String.toList_join, List.flatMap_map, List.flatMap_map]
    exact List.flatMap_congr fun l _ => String.toList_append
  rw [pipedInput, String.toList_append, hbefore, toList_drplayOutput, ← List.flatMap_append,
    map_inl_lines]
  simp [outputPieces, Function.comp_def]

theorem newline_notMem_endOfDrplay : '\n' ∉ joined endOfDrplay := by decide +kernel

theorem clean_lines {ls : List (List Char)} (h : ∀ l ∈ ls, '\n' ∉ l) :
    Clean (ls.map pieceOfLine) [] where
  pieces q hq := by
    obtain ⟨l, hl, rfl⟩ := List.mem_map.mp hq
    exact h l hl
  tail := List.not_mem_nil

theorem clean_outputPieces {ps : List DbMeasurePacket} (hp : ∀ p ∈ ps, Printable p) :
    Clean (outputPieces ps) [] := by
  refine clean_lines (List.forall_mem_append.mpr ⟨?_, ?_⟩)
  · exact List.forall_mem_map.mpr fun p hmem => newline_notMem_csvRecord (hp p hmem)
  · exact List.forall_mem_singleton.mpr newline_notMem_endOfDrplay

/-- The heading is found, and the loop gets the printed samples and the last line. -/
theorem validate_pipedInput {before : List String} {ps : List DbMeasurePacket}
    (hbefore : ∀ l ∈ before, '\n' ∉ l.toList ∧ fields l ≠ constHeading)
    (hp : ∀ p ∈ ps, Printable p) :
    validateDrpPlayerPipedIn (pipedInput before ps) = (unread '\n' (outputPieces ps) [], true) := by
  have hskip : skipToMeasures (List.replicate 256 "") (pipedInput before ps) =
      .ok (unread '\n' (outputPieces ps) []) := by
    refine (skipToMeasures_ok_iff _ _ _).mpr ⟨_, _, _, [], ?_, List.not_mem_nil,
      pipedInput_eq before ps, ?_, ?_, rfl⟩
    · intro q hq
      rcases List.mem_append.mp hq with hq | hq
      · obtain ⟨l, hl, rfl⟩ := List.mem_map.mp hq
        exact (hbefore l hl).1
      · rcases List.mem_cons.mp hq with rfl | hq
        · decide +kernel
        · exact (clean_outputPieces hp).pieces q hq
    · intro q hq
      obtain ⟨l, hl, rfl⟩ := List.mem_map.mp hq
      simpa [lineOfPiece, pieceOfLine] using (hbefore l hl).2
    · decide +kernel
  rw [validateDrpPlayerPipedIn, hskip]

theorem parseLine_endOfDrplay (os : Os) :
    parseLine os (" ".intercalate endOfDrplay) = .ok (.returns false) :=
  parseLine_of_misshapen (by decide +kernel) (.inl (by decide +kernel))

/-- `ReadFromLine` does not panic on what `drplay` prints. -/
theorem not_portless_outputPieces {os : Os} (hos : os.ReadsNumbers) {ps : List DbMeasurePacket}
    (hp : ∀ p ∈ ps, Printable p) : ∀ q ∈ outputPieces ps, ¬ Portless (lineOfPiece q) := by
  have hjoined (fields : List String) :
      lineOfPiece (pieceOfLine (joined fields)) = " ".intercalate fields := String.ofList_toList
  intro q hq
  rw [outputPieces, List.map_append, List.map_map, List.mem_append] at hq
  rcases hq with hq | hq
  · obtain ⟨p, hmem, rfl⟩ := List.mem_map.mp hq
    obtain ⟨s, hs, hstr⟩ := (hp p hmem).flow
    have hparse := parseLine_printLine hos hs hstr (hp p hmem).time_lt
    rw [trimNewline_printLine] at hparse
    rw [Function.comp_apply, hjoined]
    exact not_portless_of_ok hparse
  · rw [List.mem_singleton.mp hq, hjoined]
    exact not_portless_of_ok (parseLine_endOfDrplay os)

theorem linesRead_outputPieces {os : Os} (hos : os.ReadsNumbers) {ps : List DbMeasurePacket}
    (hp : ∀ p ∈ ps, Printable p) :
    linesRead (mainStdinReadLoop os (unread '\n' (outputPieces ps) [])) =
      (ps.map fun p => trimNewline p.printLine) ++ [" ".intercalate endOfDrplay] := by
  have hports := not_portless_outputPieces hos hp
  obtain ⟨-, hloop⟩ := allRead_of_ports os (clean_outputPieces hp) hports
  rw [hloop]
  have hlines (ls : List (List Char)) :
      linesRead ((ls.map pieceOfLine).flatMap pieceEvents ++ [.onEndOfDrpplayer]) =
        ls.map String.ofList := by
    induction ls with
    | nil => rfl
    | cons l ls ih => exact congrArg (String.ofList l :: ·) ih
  rw [outputPieces, hlines, List.map_append, List.map_map, List.map_singleton]
  refine congrArg₂ (· ++ ·) (List.map_congr_left fun p _ => ?_) (congrArg (fun l => [l]) ?_)
  · rw [trimNewline_printLine]
    exact String.ofList_toList
  · exact String.ofList_toList

/-! ### What is shown in the end -/

/-- The line an action reads. -/
def ReadAction.lineRead : ReadAction → Option String
  | .line l => some l
  | _ => none

/-- The measurement in a line. -/
def measurementIn (os : Os) (line : String) : Option (FlowT × DataPoint) :=
  match parseLine os line with
  | .ok (.measurement f x) => some (f, x)
  | _ => none

theorem measurements_eq (os : Os) (acts : List ReadAction) :
    measurements os acts = (acts.filterMap ReadAction.lineRead).filterMap (measurementIn os) := by
  rw [measurements, List.filterMap_filterMap]
  refine List.filterMap_congr fun a _ => ?_
  cases a <;> rfl

/-- A measurement as it is read from a printed sample. -/
def ReadFrom (q : FlowT × DataPoint) (p : DbMeasurePacket) : Prop :=
  q.2 = samplePoint p ∧
    ∃ s : DbNetworkFlow, s.Dotted ∧ p.netFlowString = s.measureIdStr ∧ q.1.ends = s.ends

theorem ReadFrom.identifier {q : FlowT × DataPoint} {p : DbMeasurePacket} (h : ReadFrom q p) :
    q.1.identifier = p.netFlowString := by
  obtain ⟨-, s, -, hstr, hends⟩ := h
  rw [identifier_of_ends hends, hstr]

theorem identifier_congr {u v : FlowT} (h : u.ends = v.ends) : u.identifier = v.identifier := by
  obtain ⟨hsrc, hdst⟩ := Prod.mk.inj h
  rw [FlowT.identifier, FlowT.identifier, hsrc, hdst]

/-- Flows with dotted ends are told apart by their identifiers. -/
theorem ReadFrom.ends_eq_iff {q q' : FlowT × DataPoint} {p p' : DbMeasurePacket}
    (h : ReadFrom q p) (h' : ReadFrom q' p') :
    q.1.ends = q'.1.ends ↔ q.1.identifier = q'.1.identifier := by
  obtain ⟨-, s, hs, hstr, hends⟩ := h
  obtain ⟨-, s', hs', hstr', hends'⟩ := h'
  constructor
  · intro heq
    rw [identifier_of_ends hends, identifier_of_ends (heq ▸ hends : q'.1.ends = s.ends)]
  · intro heq
    rw [identifier_of_ends hends'] at heq
    rw [hends']
    exact ends_eq_of_identifier_eq hs' hs hends heq

theorem measurementsIn_output {os : Os} (hos : os.ReadsNumbers) {ps : List DbMeasurePacket}
    (hp : ∀ p ∈ ps, Printable p) :
    List.Forall₂ ReadFrom
      (((ps.map fun p => trimNewline p.printLine) ++ [" ".intercalate endOfDrplay]).filterMap
        (measurementIn os)) ps := by
  have hend : measurementIn os (" ".intercalate endOfDrplay) = none := by
    rw [measurementIn, parseLine_endOfDrplay]
  induction ps with
  | nil => simp [hend]
  | cons p ps ih =>
    obtain ⟨s, hs, hstr⟩ := (hp p List.mem_cons_self).flow
    have hparse := parseLine_printLine hos hs hstr (hp p List.mem_cons_self).time_lt
    have hin : measurementIn os (trimNewline p.printLine) =
        some (sampleFlow s p.netFlowPrio, samplePoint p) := by rw [measurementIn, hparse]
    rw [List.map_cons, List.cons_append, List.filterMap_cons_some hin]
    exact .cons ⟨rfl, s, hs, hstr, rfl⟩ (ih fun q hq => hp q (List.mem_cons_of_mem _ hq))

/-- The flows are those of the samples, and each has the data points of its samples. -/
structure Shown (ps : List DbMeasurePacket) (man : FlowManager) : Prop where
  distinct : (man.flows.map FlowT.identifier).Nodup
  listed : ∀ id, id ∈ man.flows.map FlowT.identifier ↔
    id ∈ ps.map DbMeasurePacket.netFlowString
  data : ∀ v ∈ man.flows, ∃ xs, v.d.Holds xs ∧
    xs.Perm ((ps.filter fun p => p.netFlowString = v.identifier).map samplePoint)

theorem exists_readFrom {qs : List (FlowT × DataPoint)} {ps : List DbMeasurePacket}
    (h : List.Forall₂ ReadFrom qs ps) {q : FlowT × DataPoint} (hq : q ∈ qs) :
    ∃ p ∈ ps, ReadFrom q p := by
  induction h with
  | nil => cases hq
  | cons hqp _ ih =>
    rcases List.mem_cons.mp hq with rfl | hq
    · exact ⟨_, List.mem_cons_self, hqp⟩
    · obtain ⟨p, hp, hr⟩ := ih hq
      exact ⟨p, List.mem_cons_of_mem _ hp, hr⟩

theorem identifiers_readFrom {qs : List (FlowT × DataPoint)} {ps : List DbMeasurePacket}
    (h : List.Forall₂ ReadFrom qs ps) :
    qs.map (fun q => q.1.identifier) = ps.map DbMeasurePacket.netFlowString := by
  induction h with
  | nil => rfl
  | cons hqp _ ih => rw [List.map_cons, List.map_cons, hqp.identifier, ih]

theorem pointsOf_readFrom {qs : List (FlowT × DataPoint)} {ps : List DbMeasurePacket}
    (h : List.Forall₂ ReadFrom qs ps) {q₀ : FlowT × DataPoint} {p₀ : DbMeasurePacket}
    (h₀ : ReadFrom q₀ p₀) :
    ReadLoop.pointsOf q₀.1.ends qs =
      (ps.filter fun p => p.netFlowString = q₀.1.identifier).map samplePoint := by
  induction h with
  | nil => rfl
  | @cons q p qs ps hqp _ ih =>
    have hiff := hqp.ends_eq_iff h₀
    rw [hqp.identifier] at hiff
    rw [ReadLoop.pointsOf] at ih ⊢
    by_cases heq : p.netFlowString = q₀.1.identifier
    · rw [List.filterMap_cons_some (by rw [if_pos (hiff.mpr heq)]),
        List.filter_cons_of_pos (by simpa using heq), List.map_cons, ih, hqp.1]
    · rw [List.filterMap_cons_none (by rw [if_neg fun hends => heq (hiff.mp hends)]),
        List.filter_cons_of_neg (by simpa using heq), ih]

/-- **`drshow` shows what `drplay` has printed.**  The output of `drplay`, behind lines that are not
the heading, is accepted.  However the read loop and the goroutines it starts on the lines are
scheduled, once the loop waits again and they are done there is one flow for each flow of the
samples, and it has the data points of its samples, each once. -/
theorem drplayOutput_shown {os : Os} (hos : os.ReadsNumbers) (cv : F64 → Int64)
    {before : List String} {ps : List DbMeasurePacket}
    (hbefore : ∀ l ∈ before, '\n' ∉ l.toList ∧ fields l ≠ constHeading)
    (hp : ∀ p ∈ ps, Printable p) :
    ∃ rest, validateDrpPlayerPipedIn (pipedInput before ps) = (rest, true) ∧
      ∀ (acts : List ReadAction) (s : ReadLoop),
        run (ReadLoop.step os cv) ReadLoop.init acts = some s →
        acts.filterMap ReadAction.lineRead = linesRead (mainStdinReadLoop os rest) →
        s.pc = .reading → (∀ r ∈ s.routines, r.pc = .done) → Shown ps s.man := by
  refine ⟨_, validate_pipedInput hbefore hp, ?_⟩
  intro acts s hrun hlines hpc hdone
  obtain ⟨hreg, hcoh⟩ := ReadLoop.invariants_of_run hrun
  -- the measurements read are those of the samples, and all of them have been started
  have hmeas : List.Forall₂ ReadFrom (measurements os acts) ps := by
    rw [measurements_eq, hlines, linesRead_outputPieces hos hp]
    exact measurementsIn_output hos hp
  have hread : measurements os acts = s.started := by
    rw [hreg.read, hpc]
    exact List.append_nil _
  have hends : s.man.ends = ReadLoop.firstEnds (measurements os acts) := by
    rw [hreg.ends, hpc, hread]
    exact congrArg ReadLoop.firstEnds (List.append_nil _)
  have hflow : ∀ v ∈ s.man.flows, ∃ q ∈ measurements os acts, q.1.ends = v.ends := by
    intro v hv
    have hmem : v.ends ∈ s.man.ends := List.mem_map_of_mem hv
    rwa [hends, ReadLoop.mem_firstEnds] at hmem
  have hsample : ∀ v ∈ s.man.flows, ∃ q ∈ measurements os acts, ∃ p ∈ ps, ReadFrom q p ∧
      q.1.ends = v.ends ∧ v.identifier = p.netFlowString := by
    intro v hv
    obtain ⟨q, hq, hqv⟩ := hflow v hv
    obtain ⟨p, hmem, hqp⟩ := exists_readFrom hmeas hq
    exact ⟨q, hq, p, hmem, hqp, hqv, (identifier_congr hqv).symm.trans hqp.identifier⟩
  refine ⟨?_, ?_, ?_⟩
  · refine List.Nodup.map_on ?_ hcoh.unique.of_map
    intro u hu v hv huv
    obtain ⟨q, -, p, -, hqp, hqu, -⟩ := hsample u hu
    obtain ⟨q', -, p', -, hqp', hqv, -⟩ := hsample v hv
    rw [← identifier_congr hqu, ← identifier_congr hqv] at huv
    have hends' : u.ends = v.ends := hqu ▸ hqv ▸ (hqp.ends_eq_iff hqp').mpr huv
    exact List.inj_on_of_nodup_map hcoh.unique hu hv hends'
  · intro id
    constructor
    · intro hid
      obtain ⟨v, hv, rfl⟩ := List.mem_map.mp hid
      obtain ⟨-, -, p, hmem, -, -, hid⟩ := hsample v hv
      exact hid ▸ List.mem_map_of_mem hmem
    · intro hid
      rw [← identifiers_readFrom hmeas] at hid
      obtain ⟨q, hq, rfl⟩ := List.mem_map.mp hid
      have hmem : q.1.ends ∈ s.man.ends := by
        rw [hends, ReadLoop.mem_firstEnds]
        exact ⟨q, hq, rfl⟩
      obtain ⟨v, hv, hqv⟩ := List.mem_map.mp hmem
      exact identifier_congr hqv ▸ List.mem_map_of_mem hv
  · intro v hv
    obtain ⟨xs, hholds, hxs⟩ := hcoh.holds hv (hcoh.mutex_of_done hdone hv)
    obtain ⟨q, -, p, -, hqp, hqv, -⟩ := hsample v hv
    refine ⟨xs, hholds, ?_⟩
    rw [ReadLoop.donePoints_of_done hdone, ← hread, ← hqv, pointsOf_readFrom hmeas hqp,
      identifier_congr hqv] at hxs
    exact hxs

end Jens
