import Jens.Drp.PatternProvider
import Jens.Lib.Text
import Mathlib.Data.List.TakeWhile

/-!
# The comments at the start of a pattern file

Whether a line of the header is accepted depends on the line alone (`lineError`), and so does what
it adds to the pattern (`afterLine`); `readComments_eq` says that reading the header is a walk over
its lines that ends at the first error.  The one way to panic is an assignment without a value, and
a line that is rejected before it keeps the function from getting there
(`readDrpCommentPath_never_panics_iff`).
-/

namespace Jens

/-- The lines at the start of a file that begin with `#`. -/
def headerLines (lines : List (List Char)) : List (List Char) :=
  lines.takeWhile fun line => line.head? = some '#'

/-- What a line of the header is taken for. -/
inductive CommentLine
  | blank
  | description (text : List Char)
  | assignment (key value : List Char)
  /-- A threshold with several `=`. -/
  | rejected (assignment : List Char)
  | withoutValue
  deriving DecidableEq

/-- What the line `#v` is taken for. -/
def commentLine (v : List Char) : CommentLine :=
  match removeWhiteSpace v with
  | [] => .blank
  | ':' :: assignment =>
    match assignment.splitOn '=' with
    | key :: value :: more =>
      if "th_".toList.isPrefixOf key ∧ more ≠ [] then .rejected assignment
      else .assignment key value
    | _ => .withoutValue
  | _ => .description (trimSpace v)

/-- The error that ends the reading at a line. -/
def lineError (line : List Char) : Option Failure :=
  match commentLine line.tail with
  | .rejected assignment =>
    some (.error ("error Parsing EvalSetting: '" ++ String.ofList ('#' :: ':' :: assignment)
      ++ "'; Not a valid assignment"))
  | .withoutValue => some (.panic "index out of range")
  | _ => none

/-- The pattern after a line. -/
def afterLine (drp : DataRatePattern) (line : List Char) : DataRatePattern :=
  match commentLine line.tail with
  | .description text =>
    { drp with description := drp.description ++ String.ofList text ++ "\n" }
  | .assignment key value =>
    { drp with
      mapping := mapInsert drp.mapping (String.ofList key)
        ("\x7b" ++ String.ofList value ++ "\x7d") }
  | _ => drp

theorem headerLines_cons (v : List Char) (rest : List (List Char)) :
    headerLines (('#' :: v) :: rest) = ('#' :: v) :: headerLines rest := rfl

section CommentLine

variable {v : List Char}

theorem commentLine_of_nil (h : removeWhiteSpace v = []) : commentLine v = .blank := by
  rw [commentLine, h]

theorem commentLine_of_description (hne : removeWhiteSpace v ≠ [])
    (hcolon : ∀ a, removeWhiteSpace v ≠ ':' :: a) :
    commentLine v = .description (trimSpace v) := by
  rw [commentLine]
  split
  case h_1 hnil => exact absurd hnil hne
  case h_2 a ha => exact absurd ha (hcolon a)
  case h_3 => rfl

variable {a : List Char} (h : removeWhiteSpace v = ':' :: a)
include h

theorem commentLine_of_assignment {key value : List Char} {more : List (List Char)}
    (ha : a.splitOn '=' = key :: value :: more) :
    commentLine v = if "th_".toList.isPrefixOf key ∧ more ≠ [] then .rejected a
      else .assignment key value := by
  simp only [commentLine, h, ha]

/-- An assignment with one `=`. -/
theorem commentLine_of_pair {key value : List Char} (ha : a = key ++ '=' :: value)
    (hkey : '=' ∉ key) (hvalue : '=' ∉ value) : commentLine v = .assignment key value := by
  have hsplit : a.splitOn '=' = [key, value] := by rw [ha, Text.splitOn_pair hkey hvalue]
  rw [commentLine_of_assignment h hsplit, if_neg fun hmany => hmany.2 rfl]

theorem commentLine_of_withoutValue
    (ha : ∀ key value more, a.splitOn '=' ≠ key :: value :: more) :
    commentLine v = .withoutValue := by
  simp only [commentLine, h]

end CommentLine

/-- A walk over the lines, up to the first error. -/
def walkLines (drp : DataRatePattern) (lines : List (List Char)) : Except Failure DataRatePattern :=
  (lines.findSome? lineError).elim (.ok (lines.foldl afterLine drp)) .error

theorem walkLines_cons_of_none {drp : DataRatePattern} {line : List Char} {lines : List (List Char)}
    (h : lineError line = none) :
    walkLines drp (line :: lines) = walkLines (afterLine drp line) lines := by
  rw [walkLines, List.findSome?_cons, h]
  rfl

theorem walkLines_cons_of_some {drp : DataRatePattern} {line : List Char} {lines : List (List Char)}
    {e : Failure} (h : lineError line = some e) : walkLines drp (line :: lines) = .error e := by
  rw [walkLines, List.findSome?_cons, h]
  rfl

/-- **Reading the header is a walk over its lines.** -/
theorem readComments_eq (drp : DataRatePattern) (lines : List (List Char)) :
    readComments drp lines = walkLines drp (headerLines lines) := by
  fun_induction readComments drp lines with
  | case1 drp v rest hv ih =>
    have hline := commentLine_of_nil hv
    have hnone : lineError ('#' :: v) = none := by rw [lineError, List.tail_cons, hline]
    have hafter : afterLine drp ('#' :: v) = drp := by rw [afterLine, List.tail_cons, hline]
    rw [headerLines_cons, walkLines_cons_of_none hnone, hafter]
    exact ih
  | case2 drp v rest a ha key value more hsplit noWhiteSpace hrejected =>
    have hline := commentLine_of_assignment ha hsplit
    rw [if_pos hrejected] at hline
    have hsome : lineError ('#' :: v) = some (.error ("error Parsing EvalSetting: '"
        ++ noWhiteSpace ++ "'; Not a valid assignment")) := by rw [lineError, List.tail_cons, hline]
    rw [headerLines_cons, walkLines_cons_of_some hsome]
  | case3 drp v rest a ha key value more hsplit hrejected stored ih =>
    have hline := commentLine_of_assignment ha hsplit
    rw [if_neg hrejected] at hline
    have hnone : lineError ('#' :: v) = none := by rw [lineError, List.tail_cons, hline]
    have hafter : afterLine drp ('#' :: v) =
        { drp with mapping := mapInsert drp.mapping (String.ofList key) stored } := by
      rw [afterLine, List.tail_cons, hline]
    rw [headerLines_cons, walkLines_cons_of_none hnone, hafter]
    exact ih
  | case4 drp v rest a ha hsplit =>
    have hline := commentLine_of_withoutValue ha hsplit
    have hsome : lineError ('#' :: v) = some (.panic "index out of range") := by
      rw [lineError, List.tail_cons, hline]
    rw [headerLines_cons, walkLines_cons_of_some hsome]
  | case5 drp v rest hne hcolon ih =>
    have hline := commentLine_of_description hne hcolon
    have hnone : lineError ('#' :: v) = none := by rw [lineError, List.tail_cons, hline]
    have hafter : afterLine drp ('#' :: v) =
        { drp with description := drp.description ++ String.ofList (trimSpace v) ++ "\n" } := by
      rw [afterLine, List.tail_cons, hline]
    rw [headerLines_cons, walkLines_cons_of_none hnone, hafter]
    exact ih
  | case6 lines drp hend =>
    -- the header ends here
    have hnil : headerLines lines = [] := by
      cases lines with
      | nil => rfl
      | cons line rest =>
        apply List.takeWhile_cons_of_neg
        intro hhead
        cases line with
        | nil => cases hhead
        | cons c v =>
          obtain rfl := Option.some.inj (of_decide_eq_true hhead)
          exact hend v rest rfl
    rw [hnil]
    rfl

theorem walkLines_eq_ok_iff {drp drp' : DataRatePattern} {header : List (List Char)} :
    walkLines drp header = .ok drp' ↔
      header.findSome? lineError = none ∧ header.foldl afterLine drp = drp' := by
  rw [walkLines]
  cases header.findSome? lineError <;> simp

theorem walkLines_eq_error_iff {drp : DataRatePattern} {header : List (List Char)} {e : Failure} :
    walkLines drp header = .error e ↔ header.findSome? lineError = some e := by
  rw [walkLines]
  cases header.findSome? lineError <;> simp

/-- The comments change the description and the thresholds only. -/
theorem readComments_eq_ok {lines : List (List Char)} {drp drp' : DataRatePattern}
    (h : readComments drp lines = .ok drp') :
    drp' = { drp with description := drp'.description, mapping := drp'.mapping } := by
  rw [readComments_eq, walkLines_eq_ok_iff] at h
  obtain ⟨-, rfl⟩ := h
  induction headerLines lines generalizing drp with
  | nil => rfl
  | cons line header ih =>
    have hline : afterLine drp line = { drp with
        description := (afterLine drp line).description,
        mapping := (afterLine drp line).mapping } := by
      unfold afterLine
      split <;> rfl
    rw [List.foldl_cons, hline]
    exact ih

/-! ### The shapes of a line -/

/-- What the line `#v` is taken for, by its text without white space. -/
inductive Taken (v : List Char) : CommentLine → Prop
  | blank (h : removeWhiteSpace v = []) : Taken v .blank
  | description (hne : removeWhiteSpace v ≠ []) (hcolon : ∀ a, removeWhiteSpace v ≠ ':' :: a) :
      Taken v (.description (trimSpace v))
  | assignment {key rest value : List Char} (h : removeWhiteSpace v = ':' :: (key ++ '=' :: rest))
      (hkey : '=' ∉ key) (hone : ¬ ("th_".toList <+: key ∧ '=' ∈ rest))
      (hvalue : '=' ∉ rest → value = rest) : Taken v (.assignment key value)
  | rejected {key rest : List Char} (h : removeWhiteSpace v = ':' :: (key ++ '=' :: rest))
      (hkey : '=' ∉ key) (hth : "th_".toList <+: key) (hmany : '=' ∈ rest) :
      Taken v (.rejected (key ++ '=' :: rest))
  | withoutValue {a : List Char} (h : removeWhiteSpace v = ':' :: a) (ha : '=' ∉ a) :
      Taken v .withoutValue

theorem taken_pair {v key rest : List Char} (h : removeWhiteSpace v = ':' :: (key ++ '=' :: rest))
    (hkey : '=' ∉ key) : Taken v (commentLine v) := by
  have hsplit := List.splitOn_append_cons_self_of_not_mem hkey rest
  by_cases hrest : '=' ∈ rest
  · obtain ⟨value, tail, rfl, hvalue⟩ := List.eq_append_cons_of_mem hrest
    rw [List.splitOn_append_cons_self_of_not_mem hvalue] at hsplit
    rw [commentLine_of_assignment h hsplit]
    split_ifs with hth
    · exact .rejected h hkey (List.isPrefixOf_iff_prefix.mp hth.1) hrest
    · refine .assignment h hkey (fun hmany => hth ⟨List.isPrefixOf_iff_prefix.mpr hmany.1, ?_⟩)
        fun hno => absurd hrest hno
      exact List.splitOn_ne_nil _ _
  · rw [List.splitOn_eq_singleton hrest] at hsplit
    rw [commentLine_of_assignment h hsplit, if_neg fun hth => hth.2 rfl]
    exact .assignment h hkey (fun hmany => hrest hmany.2) fun _ => rfl

theorem taken (v : List Char) : Taken v (commentLine v) := by
  by_cases hnil : removeWhiteSpace v = []
  · rw [commentLine_of_nil hnil]
    exact .blank hnil
  · by_cases hcolon : ∃ a, removeWhiteSpace v = ':' :: a
    · obtain ⟨a, ha⟩ := hcolon
      by_cases heq : '=' ∈ a
      · obtain ⟨key, rest, rfl, hkey⟩ := List.eq_append_cons_of_mem heq
        exact taken_pair ha hkey
      · have hsplit := List.splitOn_eq_singleton heq
        rw [commentLine_of_withoutValue ha fun key value more h => by simp [hsplit] at h]
        exact .withoutValue ha heq
    · rw [not_exists] at hcolon
      rw [commentLine_of_description hnil hcolon]
      exact .description hnil hcolon

/-- An assignment without a value. -/
def WithoutValue (line : List Char) : Prop :=
  ∃ a, removeWhiteSpace line = '#' :: ':' :: a ∧ '=' ∉ a

/-- An assignment to a threshold with several `=`. -/
def ManyValues (line : List Char) : Prop :=
  ∃ key rest, removeWhiteSpace line = '#' :: ':' :: (key ++ '=' :: rest) ∧ '=' ∉ key ∧
    "th_".toList <+: key ∧ '=' ∈ rest

theorem removeWhiteSpace_hash (v : List Char) :
    removeWhiteSpace ('#' :: v) = '#' :: removeWhiteSpace v :=
  List.filter_cons_of_pos (by decide)

theorem removeWhiteSpace_hash_eq_iff {v a : List Char} :
    removeWhiteSpace ('#' :: v) = '#' :: a ↔ removeWhiteSpace v = a := by
  rw [removeWhiteSpace_hash, List.cons_inj_right]

theorem lineError_panic_iff {v : List Char} :
    (∃ msg, lineError ('#' :: v) = some (.panic msg)) ↔ WithoutValue ('#' :: v) := by
  simp only [lineError, List.tail_cons, WithoutValue, removeWhiteSpace_hash_eq_iff]
  have htaken := taken v
  generalize commentLine v = line at htaken ⊢
  cases htaken with
  | withoutValue h ha => exact iff_of_true ⟨_, rfl⟩ ⟨_, h, ha⟩
  | blank h => simp [h]
  | description _ hcolon =>
    apply iff_of_false (by simp)
    rintro ⟨a, ha, -⟩
    exact hcolon a ha
  | assignment h _ _ _ | rejected h _ _ _ =>
    apply iff_of_false (by simp)
    rintro ⟨a, ha, hno⟩
    obtain rfl := (List.cons.inj (h.symm.trans ha)).2
    exact hno (List.mem_append_right _ List.mem_cons_self)

theorem lineError_error_iff {v : List Char} :
    (∃ msg, lineError ('#' :: v) = some (.error msg)) ↔ ManyValues ('#' :: v) := by
  simp only [lineError, List.tail_cons, ManyValues, removeWhiteSpace_hash_eq_iff]
  have htaken := taken v
  generalize commentLine v = line at htaken ⊢
  cases htaken with
  | rejected h hkey hth hmany => exact iff_of_true ⟨_, rfl⟩ ⟨_, _, h, hkey, hth, hmany⟩
  | blank h => simp [h]
  | description _ hcolon =>
    apply iff_of_false (by simp)
    rintro ⟨key, rest, h, -⟩
    exact hcolon _ h
  | assignment h hkey hone _ =>
    apply iff_of_false (by simp)
    rintro ⟨key, rest, h', hkey', hth, hmany⟩
    have hpair := (List.cons.inj (h.symm.trans h')).2
    obtain ⟨rfl, rfl⟩ := Text.first_unique hpair hkey hkey'
    exact hone ⟨hth, hmany⟩
  | withoutValue h ha =>
    apply iff_of_false (by simp)
    rintro ⟨key, rest, h', -⟩
    obtain rfl := (List.cons.inj (h.symm.trans h')).2
    exact ha (List.mem_append_right _ List.mem_cons_self)

/-! ### Never a panic -/

theorem exists_of_mem_headerLines {lines : List (List Char)} {line : List Char}
    (h : line ∈ headerLines lines) : ∃ v, line = '#' :: v := by
  have hhead := List.mem_takeWhile_imp h
  cases line with
  | nil => cases hhead
  | cons c v =>
    obtain rfl := Option.some.inj (of_decide_eq_true hhead)
    exact ⟨v, rfl⟩

/-- Before every assignment without a value stands a line that is rejected. -/
def HeaderSafe (header : List (List Char)) : Prop :=
  ∀ pre line post, header = pre ++ line :: post → WithoutValue line → ∃ m ∈ pre, ManyValues m

theorem walkLines_never_panics_iff {drp : DataRatePattern} {header : List (List Char)}
    (hhash : ∀ line ∈ header, ∃ v, line = '#' :: v) :
    (∀ msg, walkLines drp header ≠ .error (.panic msg)) ↔ HeaderSafe header := by
  simp only [ne_eq, walkLines_eq_error_iff]
  constructor
  · intro hsafe pre line post heq hline
    subst heq
    obtain ⟨v, rfl⟩ := hhash line (by simp)
    obtain ⟨msg, hpanic⟩ := lineError_panic_iff.mpr hline
    -- the first error is not this panic, so it comes from a line before it
    cases hpre : pre.findSome? lineError with
    | none =>
      refine absurd ?_ (hsafe msg)
      rw [List.findSome?_append, hpre, List.findSome?_cons, hpanic]
      rfl
    | some e =>
      obtain ⟨m, hm, he⟩ := List.exists_of_findSome?_eq_some hpre
      obtain ⟨w, rfl⟩ := hhash m (List.mem_append_left _ hm)
      cases e with
      | error text => exact ⟨_, hm, lineError_error_iff.mp ⟨text, he⟩⟩
      | panic text =>
        refine absurd ?_ (hsafe text)
        rw [List.findSome?_append, hpre]
        rfl
  · intro hsafe msg hpanic
    obtain ⟨pre, line, post, rfl, hline, hnone⟩ := List.findSome?_eq_some_iff.mp hpanic
    obtain ⟨v, rfl⟩ := hhash line (by simp)
    obtain ⟨m, hm, hmany⟩ := hsafe pre _ post rfl (lineError_panic_iff.mp ⟨msg, hline⟩)
    obtain ⟨w, rfl⟩ := hhash m (List.mem_append_left _ hm)
    obtain ⟨text, htext⟩ := lineError_error_iff.mpr hmany
    rw [hnone _ hm] at htext
    cases htext

/-- **Reading the header panics just if it comes to an assignment without a value.** -/
theorem readDrpCommentPath_never_panics_iff (os : Os) (path : String) (drp : DataRatePattern) :
    (∀ msg, readDrpCommentPath os path drp ≠ .error (.panic msg)) ↔
      ∀ data, os.readFile path = .ok data →
        HeaderSafe (headerLines (data.toList.splitOn '\n')) := by
  rw [readDrpCommentPath]
  cases os.readFile path with
  | error e => simp
  | ok data =>
    simp only [readComments_eq, Except.ok.injEq, forall_eq']
    exact walkLines_never_panics_iff fun line => exists_of_mem_headerLines

/-- The surroundings with this file, of one row. -/
def headerOs (text : String) : Os where
  readFile _ := .ok text
  notExist _ := false
  interfaceByName _ := none
  csv _ := .ok [["100"]]
  parseFloat cell := if cell = "100" then some 0x4059000000000000 else none
  parseJson _ := .error "EOF"
  render _ := []
  md5 bytes := bytes
  round := F64.nearest

/-- **The header `#:th_mq_latency`.**  There is no second part to take. -/
theorem missing_value_panics :
    readDrpCommentPath (headerOs "#:th_mq_latency\n100\n") "p.csv" {} =
      .error (.panic "index out of range") := by
  decide +kernel

end Jens
