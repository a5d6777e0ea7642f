import Mathlib.Data.List.Basic
import Mathlib.Tactic.Common

/-!
# Reading from a source piece by piece

A source gives values (`.inl`) and, between them, errors (`.inr`).  `read d` takes what comes before
the next delimiter, the next error or the end, together with the delimiter.  Every source is a list
of pieces, each with its end, and a tail behind the last of them (`exists_pieces`), and reading it
takes one piece after the other (`read_piece`, `read_tail`).
-/

namespace Delimited

variable {α ε : Type*}

/-- How a read ends. -/
inductive End (ε : Type*)
  | delim
  | eof
  | error (e : ε)
  deriving DecidableEq, Repr

/-- What is read, how the read ends, and what is left of the source. -/
def read [DecidableEq α] (d : α) : List (α ⊕ ε) → List α × End ε × List (α ⊕ ε)
  | [] => ([], .eof, [])
  | .inr e :: source => ([], .error e, source)
  | .inl c :: source =>
    if c = d then ([d], .delim, source)
    else
      let (piece, how, source) := read d source
      (c :: piece, how, source)

section Read

variable [DecidableEq α] {d : α}

/-- A read in front of which stand values other than the delimiter. -/
theorem read_append {xs : List α} (h : d ∉ xs) (source : List (α ⊕ ε)) :
    read d (xs.map Sum.inl ++ source) =
      (xs ++ (read d source).1, (read d source).2.1, (read d source).2.2) := by
  induction xs with
  | nil => rfl
  | cons x xs ih =>
    have hx : x ≠ d := fun e => h (e ▸ List.mem_cons_self)
    rw [List.map_cons, List.cons_append, read, if_neg hx,
      ih fun hd => h (List.mem_cons_of_mem _ hd)]
    rfl

/-- A read that does not meet the end shortens the source. -/
theorem length_read_lt {source : List (α ⊕ ε)} (h : (read d source).2.1 ≠ .eof) :
    (read d source).2.2.length < source.length := by
  induction source with
  | nil => exact absurd rfl h
  | cons x source ih =>
    cases x with
    | inr e => exact Nat.lt_succ_self _
    | inl c =>
      rw [read] at h ⊢
      split_ifs at h ⊢
      · exact Nat.lt_succ_self _
      · exact Nat.lt_succ_of_lt (ih h)

end Read

/-! ### Pieces -/

/-- A piece and the error that ends it, or no error when it is the delimiter. -/
structure Piece (α ε : Type*) where
  content : List α
  error : Option ε
  deriving DecidableEq

namespace Piece

/-- The piece in a source. -/
def source (d : α) (p : Piece α ε) : List (α ⊕ ε) :=
  p.content.map Sum.inl ++ [p.error.elim (.inl d) .inr]

/-- What a read of the piece gives. -/
def text (d : α) (p : Piece α ε) : List α :=
  p.content ++ p.error.elim [d] fun _ => []

end Piece

/-- The source made of pieces and a tail. -/
def unread (d : α) (pieces : List (Piece α ε)) (tail : List α) : List (α ⊕ ε) :=
  pieces.flatMap (Piece.source d) ++ tail.map Sum.inl

theorem unread_cons (d : α) (p : Piece α ε) (pieces : List (Piece α ε)) (tail : List α) :
    unread d (p :: pieces) tail = p.source d ++ unread d pieces tail := by
  simp [unread]

variable [DecidableEq α] {d : α}

theorem read_piece {p : Piece α ε} (h : d ∉ p.content) (source : List (α ⊕ ε)) :
    read d (p.source d ++ source) = (p.text d, p.error.elim .delim .error, source) := by
  rw [Piece.source, List.append_assoc, read_append h, Piece.text]
  cases p.error <;> simp [read]

theorem read_tail {tail : List α} (h : d ∉ tail) :
    read d (tail.map Sum.inl : List (α ⊕ ε)) = (tail, .eof, []) := by
  have := read_append (ε := ε) h []
  simpa [read] using this

/-- Every source is made of pieces and a tail. -/
theorem exists_pieces (d : α) (source : List (α ⊕ ε)) :
    ∃ (pieces : List (Piece α ε)) (tail : List α), (∀ p ∈ pieces, d ∉ p.content) ∧ d ∉ tail ∧
      source = unread d pieces tail := by
  induction source with
  | nil => exact ⟨[], [], by simp, by simp, rfl⟩
  | cons x source ih =>
    obtain ⟨pieces, tail, hpieces, htail, rfl⟩ := ih
    cases x with
    | inr e =>
      exact ⟨⟨[], some e⟩ :: pieces, tail, by simpa using hpieces, htail, by
        rw [unread_cons]; rfl⟩
    | inl c =>
      by_cases hc : c = d
      · subst hc
        exact ⟨⟨[], none⟩ :: pieces, tail, by simpa using hpieces, htail, by rw [unread_cons]; rfl⟩
      -- the value is the first of the next piece, or of the tail
      · cases pieces with
        | nil =>
          exact ⟨[], c :: tail, by simp, by simp [Ne.symm hc, htail], rfl⟩
        | cons p pieces =>
          refine ⟨⟨c :: p.content, p.error⟩ :: pieces, tail, ?_, htail, ?_⟩
          · intro q hq
            rcases List.mem_cons.mp hq with rfl | hq
            · simpa [Ne.symm hc] using hpieces p List.mem_cons_self
            · exact hpieces q (List.mem_cons_of_mem _ hq)
          · rw [unread_cons, unread_cons]
            rfl

end Delimited
