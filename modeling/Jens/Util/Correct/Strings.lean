import Jens.Lib.Climb
import Jens.Lib.Outcome
import Jens.Util.Strings

/-!
# What `IterateTagName` does to a name

A name without a number in parentheses gets one; a name that ends in one gets the next; any other
name gets the time appended, or panics when it ends in `(` (`iterateTagName_eq_error_iff`).  So a
name that is not a counter grows, and a counter counts: upwards, from the negative numbers to 0 and
from the largest number back (`climbs`).
-/

namespace Jens

/-! ### The time -/

theorem base64Char_ne (n : ℕ) : '('.toUInt8 ≠ base64Char n := by
  have hlt : n % 64 < base64Alphabet.length := Nat.mod_lt _ (by decide)
  have hmem : base64Char n ∈ base64Alphabet := by
    rw [base64Char, List.getD_eq_getElem?_getD, List.getElem?_eq_getElem hlt]
    exact List.getElem_mem hlt
  intro heq
  rw [← heq] at hmem
  exact absurd hmem (by decide)

/-- The encoding has no parenthesis. -/
theorem notMem_base64Encode (bs : List UInt8) : '('.toUInt8 ∉ base64Encode bs := by
  have hpad : '('.toUInt8 ≠ '='.toUInt8 := by decide
  induction bs using base64Encode.induct with
  | case1 a b c rest ih => simp [base64Encode, base64Char_ne, ih]
  | case2 a b => simp [base64Encode, base64Char_ne, hpad]
  | case3 a => simp [base64Encode, base64Char_ne, hpad]
  | case4 => exact List.not_mem_nil

theorem base64Encode_leBytes_ne_nil (now : ℕ) : base64Encode (leBytes 8 now) ≠ [] :=
  List.cons_ne_nil _ _

/-! ### Counters -/

/-- A counter: `%s(%d)`. -/
def tag (p : List UInt8) (n : ℤ) : List UInt8 := p ++ ascii ("(" ++ toString n ++ ")")

/-- The number `IterateTagName` reads in a name. -/
def tagValue (name : List UInt8) : Option ℤ :=
  atoiBytes ((name.splitOn '('.toUInt8).getLastD []).dropLast

/-- A name that is counted on: it has no number in parentheses, or ends in a number. -/
def Counter (name : List UInt8) : Prop := matchesTag name = true → (tagValue name).isSome

/-- The number of a counter; a name without a number counts from 0. -/
def tagRank (name : List UInt8) : ℤ := if matchesTag name then (tagValue name).getD 0 else 0

section Tag

variable {p : List UInt8} {n : ℤ}

theorem tag_eq (p : List UInt8) (n : ℤ) :
    tag p n = p ++ '('.toUInt8 :: (ascii (toString n) ++ [')'.toUInt8]) := by
  rw [tag, ascii_append, ascii_append]
  rfl

theorem toString_negSucc (k : ℕ) : toString (Int.negSucc k) = "-" ++ toString (k + 1) := rfl

/-- Neither the digits of a number nor its sign is a parenthesis. -/
theorem notMem_ascii_toString (n : ℤ) : '('.toUInt8 ∉ ascii (toString n) := by
  have hnat : ∀ k : ℕ, '('.toUInt8 ∉ ascii (toString k) := by
    intro k hmem
    have hdigit := isDigit_of_mem_ascii_toString_nat hmem
    exact absurd hdigit (by decide)
  cases n with
  | ofNat k => exact hnat k
  | negSucc k =>
    rw [toString_negSucc, ascii_append, List.mem_append]
    rintro (h | h)
    · exact absurd h (by decide)
    · exact hnat _ h

theorem notMem_number (n : ℤ) : '('.toUInt8 ∉ ascii (toString n) ++ [')'.toUInt8] := by
  rw [List.mem_append]
  rintro (h | h)
  · exact notMem_ascii_toString n h
  · exact absurd h (by decide)

/-- The number of a tag is read back. -/
theorem tagValue_tag {k : ℕ} (h : k < 2 ^ 63) : tagValue (tag p k) = some (k : ℤ) := by
  rw [tagValue, tag_eq, Text.getLastD_splitOn (notMem_number k), List.dropLast_concat, atoiBytes]
  have hread : ofBytes (ascii (toString (k : ℤ))) = toString k := ofBytes_ascii_toString_nat k
  rw [hread]
  exact parseInt_toString h

/-- A match in the rest of a name is a match in the name. -/
theorem matchesTag_append_right (p : List UInt8) {s : List UInt8} (h : matchesTag s = true) :
    matchesTag (p ++ s) = true := by
  induction p with
  | nil => exact h
  | cons b p ih => rw [List.cons_append, matchesTag, ih, Bool.or_true]

/-- Before its first parenthesis a name has no match. -/
theorem matchesTag_append_left (hp : '('.toUInt8 ∉ p) (s : List UInt8) :
    matchesTag (p ++ s) = matchesTag s := by
  induction p with
  | nil => rfl
  | cons b p ih =>
    rw [List.mem_cons, not_or] at hp
    rw [List.cons_append, matchesTag, ih hp.2, decide_eq_false (Ne.symm hp.1), Bool.false_and,
      Bool.false_or]

theorem startsWithNumber_nat (k : ℕ) :
    startsWithNumber (ascii (toString k) ++ [')'.toUInt8]) = true := by
  have hdigits : ∀ b ∈ ascii (toString k), isDigitByte b = true := fun b hb =>
    isDigit_of_mem_ascii_toString_nat hb
  have hdrop : (ascii (toString k) ++ [')'.toUInt8]).dropWhile isDigitByte = [')'.toUInt8] := by
    rw [List.dropWhile_append_of_pos hdigits]
    rfl
  rw [startsWithNumber, hdrop]
  cases hs : ascii (toString k) with
  | nil => exact absurd hs (ascii_toString_nat_ne_nil k)
  | cons b bs =>
    rw [hs] at hdigits
    simp [hdigits]

/-- A tag with a number matches. -/
theorem matchesTag_tag (p : List UInt8) (k : ℕ) : matchesTag (tag p k) = true := by
  rw [tag_eq]
  apply matchesTag_append_right
  have hstart : startsWithNumber (ascii (toString (k : ℤ)) ++ [')'.toUInt8]) = true :=
    startsWithNumber_nat k
  rw [matchesTag, hstart]
  rfl

/-- A tag with a negative number does not. -/
theorem matchesTag_tag_of_neg (hp : '('.toUInt8 ∉ p) (hn : n < 0) :
    matchesTag (tag p n) = false := by
  rw [tag_eq, matchesTag_append_left hp, matchesTag]
  have hrest : matchesTag (ascii (toString n) ++ [')'.toUInt8]) = false := by
    rw [← List.append_nil (_ ++ _), matchesTag_append_left (notMem_number n)]
    rfl
  have hstart : startsWithNumber (ascii (toString n) ++ [')'.toUInt8]) = false := by
    obtain ⟨k, rfl⟩ := Int.eq_negSucc_of_lt_zero hn
    rw [toString_negSucc, ascii_append]
    rfl
  rw [hrest, hstart]
  rfl

/-- A tag with a number is a counter of that number. -/
theorem counter_tag {k : ℕ} (h : k < 2 ^ 63) : Counter (tag p k) ∧ tagRank (tag p k) = k := by
  constructor
  · intro _
    rw [tagValue_tag h]
    rfl
  · rw [tagRank, if_pos (matchesTag_tag p k), tagValue_tag h]
    rfl

/-- A tag with a negative number is a name without a number. -/
theorem counter_tag_of_neg (hp : '('.toUInt8 ∉ p) (hn : n < 0) :
    Counter (tag p n) ∧ tagRank (tag p n) = 0 := by
  have hmatch := matchesTag_tag_of_neg hp hn
  constructor
  · intro h
    rw [hmatch] at h
    cases h
  · rw [tagRank, hmatch]
    rfl

end Tag

/-! ### One step -/

/-- The ways `IterateTagName` returns a name. -/
theorem iterateTagName_eq_ok {now : UInt64} {name name' : List UInt8}
    (h : iterateTagName now name = .ok name') :
    (matchesTag name = false ∧ name' = tag name 1) ∨
    (matchesTag name = true ∧ tagValue name = none ∧
      name' = name ++ base64Encode (leBytes 8 now.toNat)) ∨
    ∃ i, matchesTag name = true ∧ tagValue name = some i ∧
      name' = tag ((name.splitOn '('.toUInt8).headD []) ((i + 1).bmod (2 ^ 64)) := by
  rw [iterateTagName] at h
  split at h
  case isFalse hmatch =>
    exact .inl ⟨Bool.eq_false_of_not_eq_true hmatch, (Except.ok.inj h).symm⟩
  case isTrue hmatch =>
    dsimp only at h
    split at h
    case isTrue => cases h
    case isFalse =>
      split at h
      case h_1 hval => exact .inr (.inl ⟨hmatch, hval, (Except.ok.inj h).symm⟩)
      case h_2 i hval => exact .inr (.inr ⟨i, hmatch, hval, (Except.ok.inj h).symm⟩)

/-- It panics just if there is nothing after the last parenthesis. -/
theorem iterateTagName_eq_error_iff {now : UInt64} {name : List UInt8} :
    (∃ msg, iterateTagName now name = .error msg) ↔
      matchesTag name = true ∧ name.getLast? = some '('.toUInt8 := by
  rw [iterateTagName]
  by_cases hmatch : matchesTag name = true
  · have hne : name ≠ [] := by
      rintro rfl
      cases hmatch
    have hsi : (name.splitOn '('.toUInt8).getLastD [] = [] ↔
        name.getLast? = some '('.toUInt8 := by
      rw [Text.getLastD_splitOn_eq_nil_iff, or_iff_right hne]
    rw [if_pos hmatch, ← hsi]
    dsimp only
    split
    case isTrue hnil => exact iff_of_true ⟨_, rfl⟩ ⟨hmatch, hnil⟩
    case isFalse hnil =>
      refine iff_of_false ?_ fun h => hnil h.2
      rintro ⟨msg, hmsg⟩
      split at hmsg <;> cases hmsg
  · simp [hmatch]

/-- What it returns does not end in an opening parenthesis. -/
theorem getLast?_of_iterateTagName {now : UInt64} {name name' : List UInt8}
    (h : iterateTagName now name = .ok name') : name'.getLast? ≠ some '('.toUInt8 := by
  have htag : ∀ p n, (tag p n).getLast? ≠ some '('.toUInt8 := by
    intro p n
    have hlast : (tag p n).getLast? = some ')'.toUInt8 := by
      rw [tag_eq, ← List.cons_append, ← List.append_assoc, List.getLast?_concat]
    rw [hlast]
    decide
  rcases iterateTagName_eq_ok h with ⟨-, rfl⟩ | ⟨-, -, rfl⟩ | ⟨i, -, -, rfl⟩
  · exact htag _ _
  · rw [List.getLast?_append_of_ne_nil _ (base64Encode_leBytes_ne_nil _)]
    exact fun hlast => notMem_base64Encode _ (List.mem_of_getLast? hlast)
  · exact htag _ _

/-- `IterateTagName` as a step, at a time. -/
def tagStep (name : List UInt8) (now : UInt64) : Option (List UInt8) :=
  (iterateTagName now name).toOption

/-- **A name that is no counter grows, and a counter counts.** -/
theorem climbs : Steps.Climbs tagStep Counter List.length tagRank (2 ^ 63 - 1) := by
  intro name now name' h
  have hok : iterateTagName now name = .ok name' := Except.toOption_eq_some_iff.mp h
  rcases iterateTagName_eq_ok hok with ⟨hmatch, rfl⟩ | ⟨hmatch, hval, rfl⟩ | ⟨i, hmatch, hval, rfl⟩
  · -- it gets the number 1
    have hrank : tagRank name = 0 := by rw [tagRank, hmatch]; rfl
    obtain ⟨hC, hone⟩ := counter_tag (p := name) (k := 1) (by decide)
    refine .inr ⟨fun h' => ?_, hC, .inl ?_⟩
    · rw [hmatch] at h'
      cases h'
    · rw [hrank]
      exact hone
  · -- it gets the time
    refine .inl ⟨fun hC => ?_, ?_⟩
    · have hsome := hC hmatch
      rw [hval] at hsome
      cases hsome
    · rw [List.length_append]
      have := List.length_pos_of_ne_nil (base64Encode_leBytes_ne_nil now.toNat)
      omega
  · -- it gets the next number
    have hrank : tagRank name = i := by rw [tagRank, if_pos hmatch, hval]; rfl
    have hrange : -2 ^ 63 ≤ i ∧ i < 2 ^ 63 := parseInt_range hval
    have hp := Text.notMem_headD_splitOn '('.toUInt8 name
    have hC : Counter name := fun _ => by rw [hval]; rfl
    rw [hrank]
    by_cases hcount : 0 ≤ i + 1 ∧ i + 1 < 2 ^ 63
    · have hnext : (i + 1).bmod (2 ^ 64) = ((i + 1).toNat : ℤ) := by
        rw [Int.bmod_def]
        omega
      rw [hnext]
      obtain ⟨hC', hrank'⟩ := counter_tag (p := (name.splitOn '('.toUInt8).headD [])
        (k := (i + 1).toNat) (by omega)
      exact .inr ⟨hC, hC', .inl (by rw [hrank']; omega)⟩
    · have hneg : (i + 1).bmod (2 ^ 64) < 0 := by
        rw [Int.bmod_def]
        omega
      obtain ⟨hC', hrank'⟩ := counter_tag_of_neg hp hneg
      refine .inr ⟨hC, hC', .inr ⟨hrank', ?_⟩⟩
      omega

end Jens
