import Jens.Util.Correct.Strings

/-!
# Counting names

`IterateTagName` takes the number of a name from behind its last parenthesis and what stands before
its first one as the name to keep (`baseName`).  The two fit together only for names that have no
parenthesis of their own: these count up and stay apart, and no others do (`namesCount_iff`).  The
names a benchmark gives its sessions have one, and all of them become the same name with the second
step (`sessionNames_collide`).
-/

namespace Jens

open Steps

/-! ### The name that is kept -/

/-- What stands before the first parenthesis. -/
def baseName (name : List UInt8) : List UInt8 := (name.splitOn '('.toUInt8).headD []

section BaseName

variable {p : List UInt8}

theorem baseName_of_notMem (hp : '('.toUInt8 ∉ p) : baseName p = p := by
  rw [baseName, List.splitOn_eq_singleton hp]
  rfl

theorem baseName_append_paren (hp : '('.toUInt8 ∉ p) (s : List UInt8) :
    baseName (p ++ '('.toUInt8 :: s) = p := Text.headD_splitOn hp

/-- What comes behind a parenthesis does not matter. -/
theorem baseName_append (hp : '('.toUInt8 ∈ p) (s : List UInt8) :
    baseName (p ++ s) = baseName p := by
  obtain ⟨a, b, rfl, ha⟩ := List.eq_append_cons_of_mem hp
  rw [List.append_assoc, List.cons_append, baseName_append_paren ha, baseName_append_paren ha]

theorem baseName_tag (p : List UInt8) (n : ℤ) : baseName (tag p n) = baseName p := by
  rw [tag_eq]
  by_cases hp : '('.toUInt8 ∈ p
  · exact baseName_append hp _
  · rw [baseName_append_paren hp, baseName_of_notMem hp]

/-- A name with a parenthesis is longer than the name that is kept. -/
theorem length_baseName_lt (hp : '('.toUInt8 ∈ p) : (baseName p).length < p.length := by
  obtain ⟨a, b, rfl, ha⟩ := List.eq_append_cons_of_mem hp
  rw [baseName_append_paren ha, List.length_append, List.length_cons]
  omega

end BaseName

/-! ### One step -/

section Step

variable {now : UInt64} {name p : List UInt8}

theorem iterateTagName_of_not_match (h : matchesTag name = false) :
    iterateTagName now name = .ok (tag name 1) := by
  rw [iterateTagName, h]
  rfl

theorem iterateTagName_of_tagValue {i : ℤ} (hmatch : matchesTag name = true)
    (hval : tagValue name = some i) :
    iterateTagName now name = .ok (tag (baseName name) ((i + 1).bmod (2 ^ 64))) := by
  rw [iterateTagName, if_pos hmatch]
  rw [tagValue] at hval
  dsimp only
  split
  case isTrue hnil =>
    -- nothing is no number
    rw [hnil] at hval
    cases hval
  case isFalse =>
    rw [hval]
    rfl

/-- The next number, behind the name that is kept. -/
theorem iterateTagName_tag (now : UInt64) (p : List UInt8) {n : ℕ} (hn : n < 2 ^ 63 - 1) :
    iterateTagName now (tag p n) = .ok (tag (baseName p) (n + 1)) := by
  have hnext : ((n : ℤ) + 1).bmod (2 ^ 64) = n + 1 := by
    rw [Int.bmod_def]
    omega
  have hval : tagValue (tag p n) = some (n : ℤ) := tagValue_tag (by omega)
  rw [iterateTagName_of_tagValue (matchesTag_tag p n) hval, baseName_tag, hnext]

/-- A name without a parenthesis has no number in one. -/
theorem matchesTag_of_notMem (hp : '('.toUInt8 ∉ p) : matchesTag p = false := by
  rw [← List.append_nil p, matchesTag_append_left hp]
  rfl

/-- A name that matches has a parenthesis. -/
theorem mem_of_matchesTag (h : matchesTag name = true) : '('.toUInt8 ∈ name := by
  by_contra hnot
  rw [matchesTag_of_notMem hnot] at h
  cases h

/-- Every step keeps the same name. -/
theorem baseName_of_tagStep {name' : List UInt8} (h : tagStep name now = some name') :
    baseName name' = baseName name := by
  rcases iterateTagName_eq_ok (Except.toOption_eq_some_iff.mp h) with
    ⟨-, rfl⟩ | ⟨hmatch, -, rfl⟩ | ⟨i, -, -, rfl⟩
  · exact baseName_tag name 1
  · exact baseName_append (mem_of_matchesTag hmatch) _
  · rw [baseName_tag]
    exact baseName_of_notMem (Text.notMem_headD_splitOn _ name)

end Step

/-! ### Many steps -/

/-- `IterateTagName` increments the numbers behind `p`, and counts from 1 if `p` has none. -/
structure CountsUp (p : List UInt8) : Prop where
  next : ∀ (now : UInt64) (n : ℕ), n < 2 ^ 63 - 1 →
    iterateTagName now (tag p n) = .ok (tag p (n + 1))
  first : matchesTag p = false → ∀ now, iterateTagName now p = .ok (tag p 1)
  iterated : matchesTag p = false → ∀ clock : List UInt64, clock ≠ [] → clock.length < 2 ^ 63 →
    run tagStep p clock = some (tag p clock.length)

/-- Two names without a number never become equal. -/
def StayApart (p q : List UInt8) : Prop :=
  p ≠ q → matchesTag p = false → matchesTag q = false →
    ∀ (clock clock' : List UInt64) (x : List UInt8),
      run tagStep p clock = some x → run tagStep q clock' ≠ some x

section Run

variable {p q : List UInt8}

theorem baseName_of_run {clock : List UInt64} {x : List UInt8}
    (h : run tagStep p clock = some x) : baseName x = baseName p := by
  refine run_invariant (I := fun x => baseName x = baseName p) ?_ rfl h
  intro name now name' hname hstep
  rw [baseName_of_tagStep hstep, hname]

theorem countsUp_of_notMem (hp : '('.toUInt8 ∉ p) : CountsUp p where
  next now n hn := by
    have hnext := iterateTagName_tag now p hn
    rwa [baseName_of_notMem hp] at hnext
  first h now := iterateTagName_of_not_match h
  iterated h clock := by
    induction clock using List.reverseRecOn with
    | nil => exact fun hne => absurd rfl hne
    | append_singleton clock now ih =>
      intro _ hlen
      rw [List.length_append, List.length_singleton] at hlen ⊢
      by_cases hnil : clock = []
      · subst hnil
        rw [List.nil_append, run_cons, tagStep, iterateTagName_of_not_match h]
        rfl
      · have hnext := iterateTagName_tag now p (n := clock.length) (by omega)
        rw [baseName_of_notMem hp] at hnext
        apply run_concat (ih hnil (by omega))
        rw [tagStep, hnext]
        push_cast
        rfl

/-- A name with a parenthesis loses what stands behind it. -/
theorem notMem_of_countsUp (h : CountsUp p) : '('.toUInt8 ∉ p := by
  intro hp
  have hnext := (iterateTagName_tag 0 p (n := 0) (by omega)).symm.trans
    (h.next 0 0 (by omega))
  have hbase : baseName p = p := by
    have htag := Except.ok.inj hnext
    rw [tag, tag] at htag
    exact List.append_cancel_right htag
  have hlt := length_baseName_lt hp
  rw [hbase] at hlt
  omega

theorem stayApart_of_notMem (hp : '('.toUInt8 ∉ p) (hq : '('.toUInt8 ∉ q) : StayApart p q := by
  intro hne _ _ clock clock' x hx hx'
  have hbase : baseName p = baseName q := (baseName_of_run hx).symm.trans (baseName_of_run hx')
  rw [baseName_of_notMem hp, baseName_of_notMem hq] at hbase
  exact hne hbase

/-- **Two names count up, and stay apart, exactly if neither of them has an opening parenthesis.**
-/
theorem namesCount_iff (p q : List UInt8) :
    (CountsUp p ∧ CountsUp q ∧ StayApart p q) ↔ '('.toUInt8 ∉ p ∧ '('.toUInt8 ∉ q := by
  constructor
  · rintro ⟨hp, hq, -⟩
    exact ⟨notMem_of_countsUp hp, notMem_of_countsUp hq⟩
  · rintro ⟨hp, hq⟩
    exact ⟨countsUp_of_notMem hp, countsUp_of_notMem hq, stayApart_of_notMem hp hq⟩

/-! ### Names of sessions -/

/-- Two steps from a name without a number in parentheses. -/
theorem run_two_of_not_match (hp : matchesTag p = false) (now now' : UInt64) :
    run tagStep p [now, now'] = some (tag (baseName p) 2) := by
  have hfirst : tagStep p now = some (tag p 1) := by
    rw [tagStep, iterateTagName_of_not_match hp]
    rfl
  have hsecond : tagStep (tag p 1) now' = some (tag (baseName p) 2) := by
    have hnext := iterateTagName_tag now' p (n := 1) (by omega)
    rw [tagStep, Nat.cast_one.symm, hnext]
    rfl
  rw [run_cons, hfirst, Option.bind_some, run_cons, hsecond]
  rfl

end Run

/-- `pre(i/n)`, the end of the name of a session. -/
def sessionName (pre : List UInt8) (i n : ℕ) : List UInt8 :=
  pre ++ ascii ("(" ++ toString i ++ "/" ++ toString n ++ ")")

theorem sessionName_eq (pre : List UInt8) (i n : ℕ) :
    sessionName pre i n = pre ++ '('.toUInt8 ::
      (ascii (toString i) ++ '/'.toUInt8 :: (ascii (toString n) ++ [')'.toUInt8])) := by
  simp only [sessionName, ascii_append, List.append_assoc]
  rfl

/-- The parentheses of a session name hold no number. -/
theorem matchesTag_sessionName {pre : List UInt8} (hpre : '('.toUInt8 ∉ pre) (i n : ℕ) :
    matchesTag (sessionName pre i n) = false := by
  have hdigits : ∀ b ∈ ascii (toString i), isDigitByte b = true := fun b hb =>
    isDigit_of_mem_ascii_toString_nat hb
  have hstart : startsWithNumber
      (ascii (toString i) ++ '/'.toUInt8 :: (ascii (toString n) ++ [')'.toUInt8])) = false := by
    have hslash : isDigitByte '/'.toUInt8 = false := by decide
    have hne : '/'.toUInt8 ≠ ')'.toUInt8 := by decide
    rw [startsWithNumber, List.dropWhile_append_of_pos hdigits]
    simp [hslash, hne]
  have hrest : '('.toUInt8 ∉
      ascii (toString i) ++ '/'.toUInt8 :: (ascii (toString n) ++ [')'.toUInt8]) := by
    have hi : '('.toUInt8 ∉ ascii (toString i) := notMem_ascii_toString i
    have hn : '('.toUInt8 ∉ ascii (toString n) ++ [')'.toUInt8] := notMem_number n
    rw [List.mem_append, List.mem_cons]
    rintro (h | h | h)
    · exact hi h
    · exact absurd h (by decide)
    · exact hn h
  rw [sessionName_eq, matchesTag_append_left hpre, matchesTag, hstart, Bool.and_false,
    Bool.false_or]
  exact matchesTag_of_notMem hrest

/-- **The sessions of a benchmark end up with one name.**  Whatever their numbers are, the second
step leaves the same name. -/
theorem sessionNames_collide {pre : List UInt8} (hpre : '('.toUInt8 ∉ pre) (i n : ℕ)
    (now now' : UInt64) : run tagStep (sessionName pre i n) [now, now'] = some (tag pre 2) := by
  rw [run_two_of_not_match (matchesTag_sessionName hpre i n), sessionName_eq,
    baseName_append_paren hpre]

/-- **The sessions `b:tag (1/2)` and `b:tag (2/2)`.**  Both are `b:tag (2)` after two steps. -/
theorem sessions_become_equal :
    run tagStep (ascii "b:tag (1/2)") [0, 0] = some (ascii "b:tag (2)") ∧
    run tagStep (ascii "b:tag (2/2)") [0, 0] = some (ascii "b:tag (2)") ∧
    ¬ CountsUp (ascii "b:tag (1/2)") ∧
    ¬ StayApart (ascii "b:tag (1/2)") (ascii "b:tag (2/2)") := by
  have hone : run tagStep (ascii "b:tag (1/2)") [0, 0] = some (ascii "b:tag (2)") := by
    decide +kernel
  have htwo : run tagStep (ascii "b:tag (2/2)") [0, 0] = some (ascii "b:tag (2)") := by
    decide +kernel
  refine ⟨hone, htwo, ?_, ?_⟩
  · intro h
    exact absurd (notMem_of_countsUp h) (by decide)
  · intro h
    exact h (by decide) (by decide) (by decide) [0, 0] [0, 0] _ hone htwo

end Jens
