import Jens.Lib.F64
import Jens.Lib.Outcome

/-!
# Decoding JSON values into structures

`Json` is a syntax tree; a number without fraction and exponent is an `int`, any other one a `dec`.
A `Decoder` writes a tree over a value that is already there, as `encoding/json` does: `null` leaves
a value alone (and empties a pointer or a slice), and the members of an object are written one after
the other.  So the last of two equal keys wins, but a structure or the elements of a slice keep what
it does not name.  Keys match regardless of case, and a key that names no field is an error.

An integer is stored as it is or not at all (`ofInt_eq_ok`); `ofObj_invariant` is the rule for
objects.
-/

/-- A JSON value. -/
inductive Json
  | null
  | bool (b : Bool)
  | int (z : ℤ)
  | dec (q : ℚ)
  | str (s : String)
  | arr (elems : List Json)
  | obj (members : List (String × Json))

namespace Json

/-- Write a value over one that is there. -/
abbrev Decoder (α : Type*) := α → Json → Except String α

/-- The kind of value an error message names. -/
def kind : Json → String
  | .null => "null"
  | .bool _ => "bool"
  | .int z => "number " ++ toString z
  | .dec _ => "number"
  | .str _ => "string"
  | .arr _ => "array"
  | .obj _ => "object"

/-- The error for a value of the wrong kind. -/
def mismatch {α : Type*} (j : Json) (type : String) : Except String α :=
  .error ("json: cannot unmarshal " ++ j.kind ++ " into Go value of type " ++ type)

namespace Decoder

/-- An integer of a type that holds those from `lo` to `hi`. -/
def ofInt (lo hi : ℤ) (type : String) : Decoder ℤ
  | z, .null => .ok z
  | _, .int n => if lo ≤ n ∧ n ≤ hi then .ok n else mismatch (.int n) type
  | _, j => mismatch j type

/-- `int32`. -/
def ofInt32 : Decoder Int32 :=
  fun x j => (ofInt (-2 ^ 31) (2 ^ 31 - 1) "int32" x.toInt j).map Int32.ofInt

/-- `uint64`. -/
def ofUInt64 : Decoder UInt64 :=
  fun x j => (ofInt 0 (2 ^ 64 - 1) "uint64" x.toNat j).map fun n => UInt64.ofNat n.toNat

/-- `int`, in 64 bits. -/
def ofGoInt : Decoder ℤ := ofInt (-2 ^ 63) (2 ^ 63 - 1) "int"

/-- A floating-point number, rounded; `2^1024 - 2^970` is the least one that would be infinite. -/
def ofFloat (round : ℚ → F64) : Decoder F64
  | x, .null => .ok x
  | _, .int z => ofRat z
  | _, .dec q => ofRat q
  | _, j => mismatch j "float64"
where
  ofRat (q : ℚ) : Except String F64 :=
    if -(2 ^ 1024 - 2 ^ 970) < q ∧ q < 2 ^ 1024 - 2 ^ 970 then .ok (round q)
    else mismatch (.dec q) "float64"

def ofBool : Decoder Bool
  | b, .null => .ok b
  | _, .bool b => .ok b
  | _, j => mismatch j "bool"

def ofStr : Decoder String
  | s, .null => .ok s
  | _, .str s => .ok s
  | _, j => mismatch j "string"

/-- A pointer: `null` empties it, any other value is written over what it points to. -/
def ofPtr {α : Type*} (zero : α) (d : Decoder α) : Decoder (Option α)
  | _, .null => .ok none
  | x, j => (d (x.getD zero) j).map some

end Decoder

/-- A slice: its elements, and what its memory still holds behind them. -/
structure Slice (α : Type*) where
  elems : List α := []
  spare : List α := []

/-- A slice: each element is written over what the memory has in its place.  An empty array takes
new memory. -/
def Decoder.ofSlice {α : Type*} (type : String) (zero : α) (d : Decoder α) : Decoder (Slice α)
  | _, .null => .ok {}
  | _, .arr [] => .ok {}
  | s, .arr elems =>
    let memory := s.elems ++ s.spare
    (elems.zipIdx.mapM fun j => d (memory[j.2]?.getD zero) j.1).map fun written =>
      ⟨written, memory.drop elems.length⟩
  | _, j => mismatch j ("[]" ++ type)

/-- A key with the letters that differ only in case made equal. -/
def foldKey (key : String) : String :=
  key.map fun c => if c = 'ſ' then 's' else if c = 'K' then 'k' else c.toLower

/-- A field of a structure: its key, and how to write a member over it. -/
structure Slot (σ : Type*) where
  name : String
  decode : Decoder σ

/-- The field of that name, with the functions that read and change it. -/
def Slot.field {σ α : Type*} (name : String) (get : σ → α) (set : σ → α → σ) (d : Decoder α) :
    Slot σ where
  name := name
  decode s j := (d (get s) j).map (set s)

/-- A structure with these fields. -/
def Decoder.ofObj {σ : Type*} (type : String) (fields : List (Slot σ)) : Decoder σ
  | s, .null => .ok s
  | s, .obj members => members.foldlM member s
  | _, j => mismatch j type
where
  member (s : σ) (m : String × Json) : Except String σ :=
    match fields.find? fun f => foldKey f.name == foldKey m.1 with
    | some f => f.decode s m.2
    | none => .error ("json: unknown field \"" ++ m.1 ++ "\"")

/-! ### Writing values -/

/-- The tree of a floating-point number; there is none for `NaN` and the infinities. -/
def marshalFloat : F64 → Except String Json
  | .fin q => .ok (if q.den = 1 then .int q.num else .dec q)
  | .nan => .error "json: unsupported value: NaN"
  | .inf neg => .error ("json: unsupported value: " ++ if neg then "-Inf" else "+Inf")

/-- A member that is left out when its pointer is `nil`. -/
def omitempty {α : Type*} (key : String) (x : Option α) (f : α → Except String Json) :
    Except String (List (String × Json)) :=
  match x with
  | none => .ok []
  | some x => (f x).map fun j => [(key, j)]

/-! ### What is stored -/

/-- An integer that is stored is the one in the text, and it is in range. -/
theorem Decoder.ofInt_eq_ok {lo hi z n : ℤ} {type : String} {j : Json}
    (h : Decoder.ofInt lo hi type z j = .ok n) (hj : j ≠ .null) : j = .int n ∧ lo ≤ n ∧ n ≤ hi := by
  unfold Decoder.ofInt at h
  split at h
  · exact absurd rfl hj
  · split_ifs at h with hn
    · obtain rfl := Except.ok.inj h
      exact ⟨rfl, hn⟩
    · cases h
  · cases h

theorem Decoder.ofInt32_eq_ok {x y : Int32} {j : Json} (h : Decoder.ofInt32 x j = .ok y)
    (hj : j ≠ .null) : j = .int y.toInt := by
  obtain ⟨n, hn, rfl⟩ := Except.map_eq_ok.mp h
  obtain ⟨rfl, hlo, hhi⟩ := Decoder.ofInt_eq_ok hn hj
  rw [Int32.toInt_ofInt_of_le hlo (by omega)]

theorem Decoder.ofUInt64_eq_ok {x y : UInt64} {j : Json} (h : Decoder.ofUInt64 x j = .ok y)
    (hj : j ≠ .null) : j = .int y.toNat := by
  obtain ⟨n, hn, rfl⟩ := Except.map_eq_ok.mp h
  obtain ⟨rfl, hlo, hhi⟩ := Decoder.ofInt_eq_ok hn hj
  have hlt : n.toNat < UInt64.size := by
    rw [UInt64.size]
    omega
  rw [UInt64.toNat_ofNat_of_lt' hlt, Int.toNat_of_nonneg hlo]

/-- What is stored behind a pointer was written over something by a value that is there. -/
theorem Decoder.ofPtr_eq_some {α : Type} {zero y : α} {d : Decoder α} {x : Option α} {j : Json}
    (h : Decoder.ofPtr zero d x j = .ok (some y)) : j ≠ .null ∧ d (x.getD zero) j = .ok y := by
  unfold Decoder.ofPtr at h
  split at h
  · cases Except.ok.inj h
  · rename_i hj
    obtain ⟨y', hy', heq⟩ := Except.map_eq_ok.mp h
    obtain rfl := Option.some.inj heq
    exact ⟨fun hnull => hj hnull, hy'⟩

theorem Slot.field_eq_ok {σ α : Type} {name : String} {get : σ → α} {set : σ → α → σ}
    {d : Decoder α} {s t : σ} {j : Json} (h : (Slot.field name get set d).decode s j = .ok t) :
    ∃ x, d (get s) j = .ok x ∧ t = set s x := by
  obtain ⟨x, hx, rfl⟩ := Except.map_eq_ok.mp h
  exact ⟨x, hx, rfl⟩

/-- What every member of an object preserves when it is written over the field it names, the object
preserves. -/
theorem Decoder.ofObj_invariant {σ : Type} {type : String} {fields : List (Slot σ)}
    {members : List (String × Json)} {I : σ → Prop}
    (hstep : ∀ s t f m, I s → f ∈ fields → m ∈ members → foldKey f.name = foldKey m.1 →
      f.decode s m.2 = .ok t → I t)
    {s t : σ} (hs : I s) (h : Decoder.ofObj type fields s (.obj members) = .ok t) : I t := by
  change members.foldlM (Decoder.ofObj.member fields) s = .ok t at h
  refine Except.invariant_of_foldlM (fun s s' m hmem hI hm => ?_) hs h
  unfold Decoder.ofObj.member at hm
  split at hm
  · rename_i f hf
    have hkey : foldKey f.name = foldKey m.1 := by simpa using List.find?_some hf
    exact hstep s s' f m hI (List.mem_of_find?_eq_some hf) hmem hkey hm
  · cases hm

end Json
