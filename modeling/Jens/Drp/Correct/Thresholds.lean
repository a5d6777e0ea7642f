import Jens.Drp.Correct.PatternProvider

/-!
# The thresholds of a pattern file

The form `{a,b}` of a threshold is not checked: what an assignment has behind its `=` is stored as
it is, and the pattern of the two numbers only decides about a line of the log.  So the thresholds
of a file that loads have the documented form exactly if the file assigns pairs of numbers to them
(`thresholdsDocumented_iff`).
-/

namespace Jens

/-- The keys of the thresholds. -/
def thresholdKeys : List String :=
  ["th_mq_latency", "th_p95_latency", "th_p99_latency", "th_p999_latency", "th_link_usage"]

/-- The thresholds a pattern hands to the database. -/
def DbDataRatePattern.thresholds (s : DbDataRatePattern) : List String :=
  [s.getThMqLatency, s.getThP95Latency, s.getThP99Latency, s.getThP999Latency, s.getThLinkUsage]

/-- Two numbers and a comma. -/
def PairOfDigits (text : List Char) : Prop :=
  ∃ a b, text = a ++ ',' :: b ∧ a ≠ [] ∧ b ≠ [] ∧ (∀ c ∈ a, c.isDigit = true) ∧
    ∀ c ∈ b, c.isDigit = true

/-- A value in braces. -/
def braced (value : List Char) : String := "\x7b" ++ String.ofList value ++ "\x7d"

/-- The form `{a,b}`. -/
def DocumentedForm (s : String) : Prop := ∃ value, PairOfDigits value ∧ s = braced value

theorem braced_injective : Function.Injective braced := by
  intro x y h
  have hlist := congrArg String.toList h
  simpa [braced] using hlist

/-- The values stored for the thresholds have the form. -/
def Documented (mapping : List (String × String)) : Prop :=
  ∀ key ∈ thresholdKeys, ∀ v, mapping.lookup key = some v → DocumentedForm v

/-- The header of a file. -/
def headerOf (data : String) : List (List Char) := headerLines (data.toList.splitOn '\n')

/-- The thresholds of a loaded pattern have the form, and none has had another one while the header
was read. -/
structure ThresholdsDocumented (data : String) (drp : DataRatePattern) : Prop where
  thresholds : ∀ s : DbDataRatePattern, s.drPattern = drp →
    ∀ t ∈ s.thresholds, t = "\x7b\x7d" ∨ DocumentedForm t
  stored : ∀ pre, pre <+: headerOf data → ∀ d, readComments {} pre = .ok d → Documented d.mapping

/-- The header assigns pairs of numbers to the thresholds. -/
def AssignsPairs (header : List (List Char)) : Prop :=
  ∀ line ∈ header, ∀ key ∈ thresholdKeys, ∀ value,
    removeWhiteSpace line = '#' :: ':' :: (key.toList ++ '=' :: value) → PairOfDigits value

/-! ### One line -/

theorem thresholdKeys_spec :
    ∀ key ∈ thresholdKeys, "th_".toList <+: key.toList ∧ '=' ∉ key.toList := by
  decide

section Line

variable {drp : DataRatePattern} {v : List Char} {key : String} (hkey : key ∈ thresholdKeys)
include hkey

/-- What is stored for a threshold after a line was there before, or the line assigns it. -/
theorem of_lookup_afterLine {x : String}
    (h : (afterLine drp ('#' :: v)).mapping.lookup key = some x) :
    drp.mapping.lookup key = some x ∨ ∃ value,
      removeWhiteSpace ('#' :: v) = '#' :: ':' :: (key.toList ++ '=' :: value) ∧
      x = braced value := by
  have htaken := taken v
  rw [afterLine, List.tail_cons] at h
  generalize commentLine v = line at htaken h
  cases htaken with
  | @assignment key' rest value hspace hkey' hone hvalue =>
    dsimp only at h
    rw [lookup_mapInsert] at h
    split_ifs at h with heq
    · have hlist : key.toList = key' := by rw [heq, String.toList_ofList]
      have hth := (thresholdKeys_spec key hkey).1
      rw [hlist] at hth
      obtain rfl := hvalue fun hmany => hone ⟨hth, hmany⟩
      refine .inr ⟨value, ?_, (Option.some.inj h).symm⟩
      rw [removeWhiteSpace_hash, hspace, hlist]
    · exact .inl h
  | _ => exact .inl h

/-- An assignment to a threshold is stored as it is. -/
theorem lookup_afterLine (hok : lineError ('#' :: v) = none) {value : List Char}
    (h : removeWhiteSpace ('#' :: v) = '#' :: ':' :: (key.toList ++ '=' :: value)) :
    (afterLine drp ('#' :: v)).mapping.lookup key = some (braced value) := by
  obtain ⟨hth, hno⟩ := thresholdKeys_spec key hkey
  have hone : '=' ∉ value := by
    intro hmany
    obtain ⟨msg, hmsg⟩ := lineError_error_iff.mpr ⟨_, _, h, hno, hth, hmany⟩
    rw [hok] at hmsg
    cases hmsg
  have hline := commentLine_of_pair (removeWhiteSpace_hash_eq_iff.mp h) rfl hno hone
  rw [afterLine, List.tail_cons, hline]
  dsimp only
  rw [lookup_mapInsert, String.ofList_toList, if_pos rfl]
  rfl

end Line

/-! ### All lines -/

/-- Lines that assign pairs store pairs. -/
theorem documented_foldl {header : List (List Char)} (hhash : ∀ line ∈ header, ∃ v, line = '#' :: v)
    (hpairs : AssignsPairs header) {drp : DataRatePattern} (h : Documented drp.mapping) :
    Documented (header.foldl afterLine drp).mapping := by
  induction header generalizing drp with
  | nil => exact h
  | cons line header ih =>
    rw [List.forall_mem_cons] at hhash
    obtain ⟨⟨v, rfl⟩, hhash⟩ := hhash
    apply ih hhash (fun line hline => hpairs line (List.mem_cons_of_mem _ hline))
    intro key hkey x hx
    rcases of_lookup_afterLine hkey hx with hold | ⟨value, hline, rfl⟩
    · exact h key hkey x hold
    · exact ⟨value, hpairs _ List.mem_cons_self key hkey value hline, rfl⟩

/-- The first lines of a header are a header. -/
theorem headerLines_of_prefix {lines pre : List (List Char)} (h : pre <+: headerLines lines) :
    headerLines pre = pre := by
  refine List.takeWhile_eq_self_iff.mpr fun line hline => ?_
  obtain ⟨v, rfl⟩ := exists_of_mem_headerLines (h.subset hline)
  rfl

/-- A threshold of a pattern is the fallback or the value that is stored for it. -/
theorem mem_thresholds {s : DbDataRatePattern} {t : String} (h : t ∈ s.thresholds) :
    ∃ key ∈ thresholdKeys, t = (s.drPattern.mapping.lookup key).getD "\x7b\x7d" := by
  simp only [DbDataRatePattern.thresholds, List.mem_cons, List.not_mem_nil, or_false] at h
  rcases h with rfl | rfl | rfl | rfl | rfl
  all_goals exact ⟨_, by simp [thresholdKeys], rfl⟩

/-- The values of a pattern that loads are those of its header, and no line of it is an error. -/
theorem mapping_of_provide {os : Os} {path data : String} {scale minrate : F64}
    {drp : DataRatePattern} (hdata : os.readFile path = .ok data)
    (h : provide os path scale minrate = .ok drp) :
    (∀ line ∈ headerOf data, lineError line = none) ∧
      ∃ start : DataRatePattern, start.mapping = [] ∧
        drp.mapping = ((headerOf data).foldl afterLine start).mapping := by
  obtain ⟨-, strdata, ret, ret', -, -, hret, rfl⟩ := provide_eq_ok_iff.mp h
  obtain ⟨data', hdata', hread⟩ := readDrpCommentPath_eq_ok_iff.mp hret
  obtain rfl := Except.ok.inj (hdata.symm.trans hdata')
  rw [readComments_eq, walkLines_eq_ok_iff] at hread
  obtain ⟨hok, rfl⟩ := hread
  exact ⟨List.findSome?_eq_none_iff.mp hok, _, rfl, rfl⟩

/-- **The thresholds of a file that loads have the documented form exactly if the file assigns pairs
of numbers to them.** -/
theorem thresholdsDocumented_iff {os : Os} {path data : String} {scale minrate : F64}
    {drp : DataRatePattern} (hdata : os.readFile path = .ok data)
    (h : provide os path scale minrate = .ok drp) :
    ThresholdsDocumented data drp ↔ AssignsPairs (headerOf data) := by
  obtain ⟨hnone, start, hstart, hmapping⟩ := mapping_of_provide hdata h
  have hhash : ∀ line ∈ headerOf data, ∃ v, line = '#' :: v := fun _ => exists_of_mem_headerLines
  constructor
  · rintro ⟨-, hstored⟩ line hline key hkey value hassigns
    obtain ⟨v, rfl⟩ := hhash line hline
    -- the header up to this line
    obtain ⟨pre, post, heq⟩ := List.append_of_mem hline
    have hpre : pre ++ ['#' :: v] <+: headerOf data := ⟨post, by rw [heq]; simp⟩
    have hread : readComments {} (pre ++ ['#' :: v]) =
        .ok (afterLine (pre.foldl afterLine {}) ('#' :: v)) := by
      rw [readComments_eq, headerLines_of_prefix hpre, walkLines_eq_ok_iff, List.foldl_concat]
      exact ⟨List.findSome?_eq_none_iff.mpr fun line hl => hnone line (hpre.subset hl), rfl⟩
    obtain ⟨pair, hpair, hbraced⟩ := hstored _ hpre _ hread key hkey _
      (lookup_afterLine hkey (hnone _ hline) hassigns)
    rwa [braced_injective hbraced]
  · intro hpairs
    have hnil : Documented [] := fun _ _ _ hnil => by cases hnil
    have hfinal : Documented drp.mapping := by
      rw [hmapping]
      exact documented_foldl hhash hpairs (by rwa [hstart])
    refine ⟨?_, ?_⟩
    · rintro s rfl t ht
      obtain ⟨key, hkey, rfl⟩ := mem_thresholds ht
      cases hlook : s.drPattern.mapping.lookup key with
      | none => exact .inl rfl
      | some x => exact .inr (hfinal key hkey x hlook)
    · intro pre hpre d hd
      rw [readComments_eq, headerLines_of_prefix hpre, walkLines_eq_ok_iff] at hd
      obtain ⟨-, rfl⟩ := hd
      refine documented_foldl (fun line hline => hhash line (hpre.subset hline)) ?_ hnil
      exact fun line hline => hpairs line (hpre.subset hline)

/-- The thresholds of a file with `#:th_mq_latency=2,4`. -/
theorem thresholds_of_pair :
    ∃ drp, provide (headerOs "#:th_mq_latency=2,4\n100\n") "p.csv" (.fin 1) (.fin 0) = .ok drp ∧
      ThresholdsDocumented "#:th_mq_latency=2,4\n100\n" drp := by
  have hheader : headerOf "#:th_mq_latency=2,4\n100\n" = ["#:th_mq_latency=2,4".toList] := by
    decide +kernel
  obtain ⟨drp, hdrp, -⟩ := Except.exists_ok_of_any (p := fun _ => true)
    (x := provide (headerOs "#:th_mq_latency=2,4\n100\n") "p.csv" (.fin 1) (.fin 0))
    (by decide +kernel)
  refine ⟨drp, hdrp, (thresholdsDocumented_iff rfl hdrp).mpr ?_⟩
  rw [hheader]
  intro line hline key hkey value hvalue
  obtain rfl := List.mem_singleton.mp hline
  simp only [thresholdKeys, List.mem_cons, List.not_mem_nil, or_false] at hkey
  rcases hkey with rfl | rfl | rfl | rfl | rfl
  case inl =>
    cases hvalue
    exact ⟨['2'], ['4'], rfl, by simp⟩
  all_goals cases hvalue

/-- **The threshold `foo`.**  It is said to be ignored, and is stored. -/
theorem malformed_threshold_stored :
    ∃ drp, provide (headerOs "#:th_mq_latency=foo\n100\n") "p.csv" (.fin 1) (.fin 0) = .ok drp ∧
      DbDataRatePattern.getThMqLatency { drPattern := drp } = "\x7bfoo\x7d" ∧
      ¬ ThresholdsDocumented "#:th_mq_latency=foo\n100\n" drp := by
  obtain ⟨drp, hdrp, hfoo⟩ := Except.exists_ok_of_any
    (p := fun drp => DbDataRatePattern.getThMqLatency { drPattern := drp } = "\x7bfoo\x7d")
    (x := provide (headerOs "#:th_mq_latency=foo\n100\n") "p.csv" (.fin 1) (.fin 0))
    (by decide +kernel)
  replace hfoo := of_decide_eq_true hfoo
  refine ⟨drp, hdrp, hfoo, fun h => ?_⟩
  have hform := h.thresholds { drPattern := drp } rfl _ List.mem_cons_self
  rw [hfoo] at hform
  rcases hform with hnone | ⟨value, ⟨a, b, rfl, -, -, ha, -⟩, hbraced⟩
  · exact absurd hnone (by decide)
  · -- there is no comma in `foo`
    have hvalue : "foo".toList = a ++ ',' :: b :=
      braced_injective (show braced "foo".toList = _ from hbraced)
    have hcomma : ',' ∈ "foo".toList := by simp [hvalue]
    exact absurd hcomma (by decide)

end Jens
