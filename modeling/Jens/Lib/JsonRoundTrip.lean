import Jens.Lib.Json

/-!
# What is written is read back

`ReadsBack d f z x y` says that the tree `f` makes of `x` is read by `d` as `y`, written over `z`.
The scalars come back as they are; a pointer that is left out leaves the `nil` that is there
(`ofObj_omitempty`); a structure comes back field by field (`ofObj_field`), since no two of its keys
are the same.
-/

namespace Json

/-- What `f` writes for `x` is read by `d`, over `z`, as `y`; and it is not `null`. -/
def ReadsBack {α : Type} (d : Decoder α) (f : α → Except String Json) (z x y : α) : Prop :=
  ∀ j, f x = .ok j → j ≠ .null ∧ d z j = .ok y

/-! ### Scalars -/

theorem ofInt_int {lo hi z n : ℤ} {type : String} (hlo : lo ≤ n) (hhi : n ≤ hi) :
    Decoder.ofInt lo hi type z (.int n) = .ok n := if_pos ⟨hlo, hhi⟩

theorem readsBack_ofInt32 (z x : Int32) :
    ReadsBack .ofInt32 (fun x => .ok (.int x.toInt)) z x x := by
  intro j hj
  obtain rfl := Except.ok.inj hj
  refine ⟨by simp, ?_⟩
  have hlt : x.toInt < 2 ^ 31 := x.toInt_lt
  rw [Decoder.ofInt32, ofInt_int x.le_toInt (by omega), Except.map, Int32.ofInt_toInt]

theorem readsBack_ofUInt64 (z x : UInt64) :
    ReadsBack .ofUInt64 (fun x => .ok (.int x.toNat)) z x x := by
  intro j hj
  obtain rfl := Except.ok.inj hj
  refine ⟨by simp, ?_⟩
  have hlt : x.toNat < 2 ^ 64 := x.toNat_lt
  rw [Decoder.ofUInt64, ofInt_int (by omega) (by omega), Except.map, Int.toNat_natCast,
    UInt64.ofNat_toNat]

theorem readsBack_ofBool (z x : Bool) : ReadsBack .ofBool (fun b => .ok (.bool b)) z x x := by
  intro j hj
  obtain rfl := Except.ok.inj hj
  exact ⟨by simp, rfl⟩

/-- An `int` of 64 bits. -/
def IsGoInt (n : ℤ) : Prop := -2 ^ 63 ≤ n ∧ n ≤ 2 ^ 63 - 1

instance (n : ℤ) : Decidable (IsGoInt n) := inferInstanceAs (Decidable (_ ∧ _))

theorem readsBack_ofGoInt {x : ℤ} (h : IsGoInt x) (z : ℤ) :
    ReadsBack .ofGoInt (fun n => .ok (.int n)) z x x := by
  intro j hj
  obtain rfl := Except.ok.inj hj
  exact ⟨by simp, ofInt_int h.1 h.2⟩

/-- A number that there is where numbers are rounded with `round`: it is in range, and rounding
leaves it as it is.  Or it is not finite. -/
def IsFloat (round : ℚ → F64) : F64 → Prop
  | .fin q => (-(2 ^ 1024 - 2 ^ 970) < q ∧ q < 2 ^ 1024 - 2 ^ 970) ∧ round q = .fin q
  | _ => True

instance (round : ℚ → F64) : (x : F64) → Decidable (IsFloat round x)
  | .fin q => inferInstanceAs (Decidable
      ((-(2 ^ 1024 - 2 ^ 970) < q ∧ q < 2 ^ 1024 - 2 ^ 970) ∧ round q = .fin q))
  | .nan => .isTrue trivial
  | .inf _ => .isTrue trivial

theorem readsBack_ofFloat {round : ℚ → F64} {x : F64} (h : IsFloat round x) (z : F64) :
    ReadsBack (.ofFloat round) marshalFloat z x x := by
  intro j hj
  cases x with
  | nan => cases hj
  | inf neg => cases hj
  | fin q =>
    obtain rfl := Except.ok.inj hj
    have hq : Decoder.ofFloat.ofRat round q = .ok (.fin q) := by
      rw [Decoder.ofFloat.ofRat, if_pos h.1, h.2]
    by_cases hden : q.den = 1
    · rw [if_pos hden]
      refine ⟨by simp, ?_⟩
      have hnum : (q.num : ℚ) = q := Rat.coe_int_num_of_den_eq_one hden
      rw [Decoder.ofFloat, hnum, hq]
    · rw [if_neg hden]
      exact ⟨by simp, hq⟩

/-! ### Fields -/

section Fields

variable {σ α : Type} {fields : List (Slot σ)}

/-- A field is found under its own key. -/
theorem find?_of_mem (hnodup : (fields.map fun f => foldKey f.name).Nodup) {f : Slot σ}
    (hf : f ∈ fields) : fields.find? (fun g => foldKey g.name == foldKey f.name) = some f := by
  induction fields with
  | nil => cases hf
  | cons g fields ih =>
    rw [List.map_cons, List.nodup_cons] at hnodup
    rcases List.mem_cons.mp hf with rfl | hf
    · simp
    · have hne : foldKey g.name ≠ foldKey f.name := fun heq =>
        hnodup.1 (heq ▸ List.mem_map_of_mem hf)
      rw [List.find?_cons_of_neg (by simpa using hne)]
      exact ih hnodup.2 hf

/-- A member with the key of a field is written over that field. -/
theorem member_of_mem (hnodup : (fields.map fun f => foldKey f.name).Nodup) {f : Slot σ}
    (hf : f ∈ fields) (s : σ) (j : Json) :
    Decoder.ofObj.member fields s (f.name, j) = f.decode s j := by
  rw [Decoder.ofObj.member, find?_of_mem hnodup hf]

variable {type name : String} {get : σ → α} {set : σ → α → σ} {d : Decoder α} {s : σ} {y : α}
  {rest : List (String × Json)}

/-- A member that is read back sets its field. -/
theorem ofObj_field (i : ℕ) (hnodup : (fields.map fun f => foldKey f.name).Nodup)
    (hf : fields[i]? = some (Slot.field name get set d)) {j : Json} (hj : d (get s) j = .ok y) :
    Decoder.ofObj type fields s (.obj ((name, j) :: rest)) =
      Decoder.ofObj type fields (set s y) (.obj rest) := by
  have hmember : Decoder.ofObj.member fields s (name, j) = .ok (set s y) := by
    rw [show name = (Slot.field name get set d).name from rfl,
      member_of_mem hnodup (List.mem_of_getElem? hf)]
    exact Except.map_eq_ok.mpr ⟨y, hj, rfl⟩
  rw [Decoder.ofObj, List.foldlM_cons, hmember]
  rfl

end Fields

/-- A pointer, written only if it is not `nil`, is read back over a field that is `nil`. -/
theorem ofObj_omitempty {σ α : Type} {fields : List (Slot σ)} {type name : String}
    {get : σ → Option α} {set : σ → Option α → σ} {d : Decoder α} {f : α → Except String Json}
    {s : σ} {zero : α} {x : Option α} {rest ms : List (String × Json)}
    (i : ℕ) (hnodup : (fields.map fun f => foldKey f.name).Nodup)
    (hf : fields[i]? = some (Slot.field name get set (.ofPtr zero d))) (hget : get s = none)
    (hset : set s none = s) (hread : ∀ v ∈ x, ReadsBack d f zero v v)
    (hms : omitempty name x f = .ok ms) :
    Decoder.ofObj type fields s (.obj (ms ++ rest)) =
      Decoder.ofObj type fields (set s x) (.obj rest) := by
  cases x with
  | none =>
    obtain rfl := Except.ok.inj hms
    rw [hset]
    rfl
  | some v =>
    obtain ⟨j, hj, rfl⟩ := Except.map_eq_ok.mp hms
    obtain ⟨hnull, hd⟩ := hread v rfl j hj
    have hptr : Decoder.ofPtr zero d (get s) j = .ok (some v) := by
      rw [hget]
      unfold Decoder.ofPtr
      split
      · exact absurd rfl hnull
      · rw [Option.getD_none, hd]
        rfl
    rw [List.singleton_append]
    exact ofObj_field i hnodup hf hptr

/-- The elements of an array are read back one by one. -/
theorem mapM_readsBack {α : Type} {d : Decoder α} {f : α → Except String Json} {zero : α}
    {g : α → α} {xs : List α} {js : List Json} (hread : ∀ x ∈ xs, ReadsBack d f zero x (g x))
    (h : xs.mapM f = .ok js) : js.mapM (d zero) = .ok (xs.map g) := by
  induction xs generalizing js with
  | nil =>
    obtain rfl := Except.ok.inj h
    rfl
  | cons x xs ih =>
    rw [List.forall_mem_cons] at hread
    rw [List.mapM_cons, Except.bind_eq_ok] at h
    obtain ⟨j, hj, h⟩ := h
    obtain ⟨js', hjs, h⟩ := Except.bind_eq_ok.mp h
    obtain rfl := Except.ok.inj h
    have hrest := ih hread.2 hjs
    rw [List.mapM_cons, (hread.1 j hj).2, Except.bind_eq_ok]
    exact ⟨g x, rfl, Except.bind_eq_ok.mpr ⟨xs.map g, hrest, rfl⟩⟩

/-- A slice without memory takes the elements as they are decoded over new ones. -/
theorem Decoder.ofSlice_new {α : Type} {type : String} {zero : α} {d : Decoder α}
    {js : List Json} {xs : List α} (hjs : js ≠ []) (h : js.mapM (d zero) = .ok xs) :
    Decoder.ofSlice type zero d {} (.arr js) = .ok ⟨xs, []⟩ := by
  have hmap : js.zipIdx.mapM (fun j => d ((([] ++ [] : List α))[j.2]?.getD zero) j.1) = .ok xs := by
    rw [← h]
    conv_rhs => rw [← List.zipIdx_map_fst 0 js, List.mapM_map]
    rfl
  obtain ⟨j, js, rfl⟩ := List.exists_cons_of_ne_nil hjs
  change Except.map _ ((j :: js).zipIdx.mapM _) = _
  rw [hmap, Except.map, List.drop_eq_nil_of_le (Nat.zero_le _)]

end Json
