import Jens.Drp.Correct.Thresholds

/-!
# Writing and reading a header

The entries of a header are the texts of its description and the pairs of numbers of its thresholds.
However they are written, with white space around and between their parts, reading the header gives
back the texts in their order and the last pair of each threshold (`readDrpCommentPath_header`).
-/

namespace Jens

/-- A text of the description. -/
structure HeaderText where
  text : List Char
  ne_nil : text ≠ []
  oneLine : '\n' ∉ text
  trimmed : trimSpace text = text
  noColon : text.head? ≠ some ':'

/-- An assignment of a pair of numbers to a threshold. -/
structure HeaderPair where
  key : List Char
  a : List Char
  b : List Char
  isThreshold : "th_".toList <+: key
  noSpace : ∀ c ∈ key, isSpace c = false
  noEquals : '=' ∉ key
  digits : ∀ c ∈ a ++ b, c.isDigit = true

/-- An entry of a header. -/
inductive HeaderEntry
  | description (d : HeaderText)
  | assignment (p : HeaderPair)

/-- The value of an assignment. -/
def HeaderPair.value (p : HeaderPair) : List Char := p.a ++ ',' :: p.b

/-- An assignment without white space. -/
def HeaderPair.body (p : HeaderPair) : List Char := ':' :: (p.key ++ '=' :: p.value)

/-- White space that does not end the line. -/
def Blank (c : Char) : Prop := isSpace c = true ∧ c ≠ '\n'

instance : DecidablePred Blank := fun _ => inferInstanceAs (Decidable (_ ∧ _))

/-- White space inserted anywhere into a text. -/
inductive Spaced : List Char → List Char → Prop
  | nil : Spaced [] []
  | blank {s t : List Char} {c : Char} (hc : Blank c) (h : Spaced s t) : Spaced s (c :: t)
  | char {s t : List Char} (c : Char) (h : Spaced s t) : Spaced (c :: s) (c :: t)

/-- The lines an entry may be written as. -/
inductive HeaderEntry.Written : HeaderEntry → List Char → Prop
  | description (d : HeaderText) {ws : List Char} (hws : ∀ c ∈ ws, Blank c) :
      Written (.description d) ('#' :: (ws ++ d.text))
  | assignment (p : HeaderPair) {body : List Char} (h : Spaced p.body body) :
      Written (.assignment p) ('#' :: body)

/-- What an entry adds to the description. -/
def HeaderEntry.describe : HeaderEntry → List Char
  | .description d => d.text ++ ['\n']
  | .assignment _ => []

/-- What an entry assigns to a key. -/
def HeaderEntry.assigned (key : String) : HeaderEntry → Option String
  | .description _ => none
  | .assignment p => if String.ofList p.key = key then some (braced p.value) else none

/-- The last assignment to a key. -/
def lastAssigned (entries : List HeaderEntry) (key : String) : Option String :=
  entries.reverse.findSome? (HeaderEntry.assigned key)

/-! ### White space -/

theorem isSpace_of_isDigit {c : Char} (h : c.isDigit = true) : isSpace c = false := by
  rw [Char.isDigit_iff_toNat, show '0'.toNat = 48 from rfl, show '9'.toNat = 57 from rfl] at h
  simp only [isSpace, List.mem_cons, List.not_mem_nil, or_false, Bool.or_eq_false_iff,
    decide_eq_false_iff_not, Bool.and_eq_false_iff]
  omega

/-- A trimmed text does not start with white space. -/
theorem isSpace_head_of_trimmed {c : Char} {t : List Char} (h : trimSpace (c :: t) = c :: t) :
    isSpace c = false := by
  by_contra hc
  rw [Bool.not_eq_false] at hc
  have hlen : (trimSpace (c :: t)).length ≤ t.length := by
    rw [trimSpace, List.dropWhile_cons_of_pos hc, List.length_reverse]
    calc _ ≤ (t.dropWhile isSpace).reverse.length := (List.dropWhile_suffix _).length_le
      _ = (t.dropWhile isSpace).length := List.length_reverse
      _ ≤ t.length := (List.dropWhile_suffix _).length_le
  rw [h, List.length_cons] at hlen
  omega

theorem trimSpace_append {ws : List Char} (hws : ∀ c ∈ ws, Blank c) (text : List Char) :
    trimSpace (ws ++ text) = trimSpace text := by
  rw [trimSpace, List.dropWhile_append_of_pos fun c hc => (hws c hc).1]
  rfl

theorem removeWhiteSpace_append {ws : List Char} (hws : ∀ c ∈ ws, Blank c) (text : List Char) :
    removeWhiteSpace (ws ++ text) = removeWhiteSpace text := by
  have hnil : removeWhiteSpace ws = [] :=
    List.filter_eq_nil_iff.mpr fun c hc => by simp [(hws c hc).1]
  rw [removeWhiteSpace, List.filter_append]
  exact congrArg (· ++ removeWhiteSpace text) hnil

namespace Spaced

variable {s t : List Char}

theorem removeWhiteSpace_eq (h : Spaced s t) : removeWhiteSpace t = removeWhiteSpace s := by
  induction h with
  | nil => rfl
  | blank hc _ ih => rw [← ih, removeWhiteSpace, List.filter_cons_of_neg (by simp [hc.1])]; rfl
  | char c _ ih =>
    simp only [removeWhiteSpace, List.filter_cons] at ih ⊢
    rw [ih]

theorem notMem_newline (h : Spaced s t) (hs : '\n' ∉ s) : '\n' ∉ t := by
  induction h with
  | nil => exact hs
  | blank hc _ ih => exact List.not_mem_cons_of_ne_of_not_mem (Ne.symm hc.2) (ih hs)
  | char c _ ih =>
    rw [List.mem_cons, not_or] at hs
    exact List.not_mem_cons_of_ne_of_not_mem hs.1 (ih hs.2)

end Spaced

namespace HeaderPair

variable (p : HeaderPair)

theorem noSpace_body : ∀ c ∈ p.body, isSpace c = false := by
  intro c hc
  simp only [body, value, List.mem_cons, List.mem_append] at hc
  rcases hc with rfl | hkey | rfl | ha | rfl | hb
  · decide
  · exact p.noSpace c hkey
  · decide
  · exact isSpace_of_isDigit (p.digits c (List.mem_append_left _ ha))
  · decide
  · exact isSpace_of_isDigit (p.digits c (List.mem_append_right _ hb))

theorem notMem_newline_body : '\n' ∉ p.body := fun h => by cases p.noSpace_body _ h

theorem noEquals_value : '=' ∉ p.value := by
  intro h
  simp only [value, List.mem_append, List.mem_cons] at h
  rcases h with ha | hcomma | hb
  · cases p.digits _ (List.mem_append_left _ ha)
  · cases hcomma
  · cases p.digits _ (List.mem_append_right _ hb)

theorem removeWhiteSpace_body : removeWhiteSpace p.body = p.body :=
  List.filter_eq_self.mpr fun c hc => by rw [p.noSpace_body c hc]; rfl

end HeaderPair

/-! ### One entry -/

/-- The pattern after an entry. -/
def HeaderEntry.add (drp : DataRatePattern) : HeaderEntry → DataRatePattern
  | .description d => { drp with description := drp.description ++ String.ofList d.text ++ "\n" }
  | .assignment p =>
    { drp with mapping := mapInsert drp.mapping (String.ofList p.key) (braced p.value) }

theorem commentLine_description (d : HeaderText) {ws : List Char} (hws : ∀ c ∈ ws, Blank c) :
    commentLine (ws ++ d.text) = .description d.text := by
  obtain ⟨c, t, htext⟩ := List.exists_cons_of_ne_nil d.ne_nil
  have hspace : isSpace c = false := isSpace_head_of_trimmed (htext ▸ d.trimmed)
  have hcolon : c ≠ ':' := by
    rintro rfl
    exact d.noColon (by rw [htext]; rfl)
  -- the first character of the text tells it from an assignment
  have hremoved : removeWhiteSpace (ws ++ d.text) = c :: removeWhiteSpace t := by
    rw [removeWhiteSpace_append hws, htext]
    exact List.filter_cons_of_pos (by rw [hspace]; rfl)
  rw [commentLine_of_description, trimSpace_append hws, d.trimmed]
  · rw [hremoved]
    exact List.cons_ne_nil _ _
  · intro a ha
    rw [hremoved] at ha
    exact hcolon (List.cons.inj ha).1

theorem commentLine_assignment (p : HeaderPair) {body : List Char} (h : Spaced p.body body) :
    commentLine body = .assignment p.key p.value := by
  have hremoved : removeWhiteSpace body = ':' :: (p.key ++ '=' :: p.value) := by
    rw [h.removeWhiteSpace_eq, p.removeWhiteSpace_body]
    rfl
  exact commentLine_of_pair hremoved rfl p.noEquals p.noEquals_value

namespace HeaderEntry.Written

variable {e : HeaderEntry} {line : List Char} (h : e.Written line)
include h

theorem head_eq : ∃ v, line = '#' :: v := by
  cases h <;> exact ⟨_, rfl⟩

theorem notMem_newline : '\n' ∉ line := by
  cases h with
  | description d hws =>
    rw [List.mem_cons, List.mem_append, not_or, not_or]
    exact ⟨by decide, fun h => (hws _ h).2 rfl, d.oneLine⟩
  | assignment p h =>
    exact List.not_mem_cons_of_ne_of_not_mem (by decide) (h.notMem_newline p.notMem_newline_body)

theorem lineError_eq : lineError line = none := by
  cases h with
  | description d hws => rw [lineError, List.tail_cons, commentLine_description d hws]
  | assignment p h => rw [lineError, List.tail_cons, commentLine_assignment p h]

theorem afterLine_eq (drp : DataRatePattern) : afterLine drp line = e.add drp := by
  cases h with
  | description d hws => rw [afterLine, List.tail_cons, commentLine_description d hws]; rfl
  | assignment p h => rw [afterLine, List.tail_cons, commentLine_assignment p h]; rfl

end HeaderEntry.Written

/-! ### All entries -/

/-- The text of a file with this header. -/
def fileText (header : List (List Char)) (rows : List Char) : List Char :=
  header.flatMap (· ++ ['\n']) ++ rows

/-- The rows are not part of the header. -/
theorem headerLines_rows {rows : List Char} (h : rows.head? ≠ some '#') :
    headerLines (rows.splitOn '\n') = [] := by
  have hfirst : ∃ line rest, rows.splitOn '\n' = line :: rest ∧ line.head? ≠ some '#' := by
    by_cases hrows : '\n' ∈ rows
    · obtain ⟨line, rest, rfl, hline⟩ := List.eq_append_cons_of_mem hrows
      refine ⟨line, _, List.splitOn_append_cons_self_of_not_mem hline rest, ?_⟩
      cases line with
      | nil => exact nofun
      | cons c t => exact h
    · exact ⟨rows, [], List.splitOn_eq_singleton hrows, h⟩
  obtain ⟨line, rest, hsplit, hhead⟩ := hfirst
  rw [hsplit]
  exact List.takeWhile_cons_of_neg (by simpa using hhead)

/-- The header of a file whose entries are written on these lines. -/
theorem headerLines_fileText {entries : List HeaderEntry} {header : List (List Char)}
    (h : List.Forall₂ HeaderEntry.Written entries header) {rows : List Char}
    (hrows : rows.head? ≠ some '#') :
    headerLines ((fileText header rows).splitOn '\n') = header := by
  induction h with
  | nil => exact headerLines_rows hrows
  | @cons e line entries header hline _ ih =>
    have htext : fileText (line :: header) rows = line ++ '\n' :: fileText header rows := by
      simp [fileText]
    rw [htext, List.splitOn_append_cons_self_of_not_mem hline.notMem_newline]
    obtain ⟨v, rfl⟩ := hline.head_eq
    rw [headerLines_cons, ih]

/-- Reading the lines adds the entries in their order. -/
theorem walkLines_written {entries : List HeaderEntry} {header : List (List Char)}
    (h : List.Forall₂ HeaderEntry.Written entries header) (drp : DataRatePattern) :
    walkLines drp header = .ok (entries.foldl HeaderEntry.add drp) := by
  induction h generalizing drp with
  | nil => rfl
  | cons hline _ ih =>
    rw [walkLines_cons_of_none hline.lineError_eq, hline.afterLine_eq, List.foldl_cons]
    exact ih _

theorem description_foldl (entries : List HeaderEntry) (drp : DataRatePattern) :
    (entries.foldl HeaderEntry.add drp).description =
      drp.description ++ String.ofList (entries.flatMap HeaderEntry.describe) := by
  induction entries generalizing drp with
  | nil => simp
  | cons e entries ih =>
    rw [List.foldl_cons, ih, List.flatMap_cons]
    cases e with
    | description d => simp [HeaderEntry.add, HeaderEntry.describe, String.append_assoc]
    | assignment p => rfl

theorem lookup_foldl (entries : List HeaderEntry) (drp : DataRatePattern) (key : String) :
    (entries.foldl HeaderEntry.add drp).mapping.lookup key =
      (lastAssigned entries key).or (drp.mapping.lookup key) := by
  induction entries generalizing drp with
  | nil => rfl
  | cons e entries ih =>
    have hlast : lastAssigned (e :: entries) key =
        (lastAssigned entries key).or (e.assigned key) := by
      simp [lastAssigned, List.findSome?_append]
    have hadd : (e.add drp).mapping.lookup key = (e.assigned key).or (drp.mapping.lookup key) := by
      cases e with
      | description d => rfl
      | assignment p =>
        simp only [HeaderEntry.add, HeaderEntry.assigned, lookup_mapInsert, @eq_comm _ key]
        split_ifs <;> rfl
    rw [List.foldl_cons, ih, hadd, hlast, Option.or_assoc]

/-- **A header that is written down is read back.** -/
theorem readDrpCommentPath_header {os : Os} {path data : String} (drp : DataRatePattern)
    {entries : List HeaderEntry} {header : List (List Char)} {rows : List Char}
    (hwritten : List.Forall₂ HeaderEntry.Written entries header) (hrows : rows.head? ≠ some '#')
    (hdata : data.toList = fileText header rows) (hfile : os.readFile path = .ok data) :
    ∃ drp', readDrpCommentPath os path drp = .ok drp' ∧
      drp'.description = String.ofList (entries.flatMap HeaderEntry.describe) ∧
      ∀ key, drp'.mapping.lookup key = lastAssigned entries key := by
  have hread : readDrpCommentPath os path drp =
      .ok (entries.foldl HeaderEntry.add { drp with mapping := [], description := "" }) := by
    rw [readDrpCommentPath_eq_ok_iff]
    refine ⟨data, hfile, ?_⟩
    rw [readComments_eq, hdata, headerLines_fileText hwritten hrows]
    exact walkLines_written hwritten _
  refine ⟨_, hread, ?_, fun key => ?_⟩
  · rw [description_foldl]
    exact String.empty_append
  · rw [lookup_foldl]
    exact Option.or_none

/-- The text `a b`. -/
def textOfTwoWords : HeaderText where
  text := ['a', ' ', 'b']
  ne_nil := by decide
  oneLine := by decide
  trimmed := by decide
  noColon := by decide

/-- The assignment of `2,4` to `th_x`. -/
def pairOfDigits : HeaderPair where
  key := ['t', 'h', '_', 'x']
  a := ['2']
  b := ['4']
  isThreshold := by decide
  noSpace := by simp [isSpace]
  noEquals := by decide
  digits := by simp

/-- A header with white space in both of its lines. -/
theorem header_of_two_lines :
    ∃ drp', readDrpCommentPath (headerOs "# a b\n# :th_x =2,4\n100\n") "p.csv" {} = .ok drp' ∧
      drp'.description = "a b\n" ∧ drp'.mapping.lookup "th_x" = some "\x7b2,4\x7d" ∧
      drp'.mapping.lookup "th_mq_latency" = none := by
  have hblank : Blank ' ' := by decide
  have hbody : Spaced pairOfDigits.body
      [' ', ':', 't', 'h', '_', 'x', ' ', '=', '2', ',', '4'] :=
    .blank hblank <| .char _ <| .char _ <| .char _ <| .char _ <| .char _ <| .blank hblank <|
      .char _ <| .char _ <| .char _ <| .char _ .nil
  have hwritten : List.Forall₂ HeaderEntry.Written
      [.description textOfTwoWords, .assignment pairOfDigits]
      ["# a b".toList, "# :th_x =2,4".toList] :=
    .cons (.description textOfTwoWords (List.forall_mem_singleton.mpr hblank)) <|
      .cons (.assignment pairOfDigits hbody) .nil
  have hdata : "# a b\n# :th_x =2,4\n100\n".toList =
      fileText ["# a b".toList, "# :th_x =2,4".toList] "100\n".toList := by decide
  have hfile : (headerOs "# a b\n# :th_x =2,4\n100\n").readFile "p.csv" =
      .ok "# a b\n# :th_x =2,4\n100\n" := rfl
  obtain ⟨drp', hread, hdescription, hmapping⟩ :=
    readDrpCommentPath_header {} hwritten (by decide) hdata hfile
  exact ⟨drp', hread, hdescription, (hmapping _).trans (by decide), (hmapping _).trans (by decide)⟩

end Jens
