import Jens.Datatypes.UniqueName
import Jens.Util.Correct.Strings

/-!
# Making a name unique

As long as the name is stored, `ValidateUniqueName` goes on with the next one.  The names it tries
climb (`climbs`), so they leave a set of fewer names than `IterateTagName` can count
(`validateUniqueName_ne_none`), and only the first of them can make it panic
(`validateUniqueName_eq_some`).  Together: `madeUnique_iff`.
-/

namespace Jens

variable {stored : Finset (List UInt8)} {clock : ℕ → UInt64} {fuel : ℕ} {name : List UInt8}

/-- The answers of a database with these names for the benchmark. -/
def storedNames (stored : Finset (List UInt8)) (name : List UInt8) : Except String Bool :=
  .ok (decide (name ∈ stored))

/-- A stored name that makes `IterateTagName` panic: it has a number in parentheses and ends in an
opening one. -/
def Unsplittable (stored : Finset (List UInt8)) (name : List UInt8) : Prop :=
  name ∈ stored ∧ matchesTag name = true ∧ name.getLast? = some '('.toUInt8

/-! ### One call -/

theorem validateUniqueName_of_notMem (h : name ∉ stored) :
    validateUniqueName (storedNames stored) clock (fuel + 1) name = some (.ok (), name) := by
  rw [validateUniqueName, storedNames, decide_eq_false h]

theorem validateUniqueName_of_ok {name' : List UInt8} (h : name ∈ stored)
    (hnext : iterateTagName (clock 0) name = .ok name') :
    validateUniqueName (storedNames stored) clock (fuel + 1) name =
      validateUniqueName (storedNames stored) (fun k => clock (k + 1)) fuel name' := by
  rw [validateUniqueName, storedNames, decide_eq_true h]
  dsimp only
  rw [hnext]

theorem validateUniqueName_of_error {msg : String} (h : name ∈ stored)
    (hnext : iterateTagName (clock 0) name = .error msg) :
    validateUniqueName (storedNames stored) clock (fuel + 1) name =
      some (.error (.panic msg), name) := by
  rw [validateUniqueName, storedNames, decide_eq_true h]
  dsimp only
  rw [hnext]

/-! ### All calls -/

/-- While it goes on, the names it has tried are stored. -/
theorem run_of_validateUniqueName_eq_none
    (h : validateUniqueName (storedNames stored) clock fuel name = none) :
    ∀ k < fuel, ∃ x ∈ stored, Steps.run tagStep name ((List.range k).map clock) = some x := by
  induction fuel generalizing clock name with
  | zero => intro k hk; omega
  | succ fuel ih =>
    have hmem : name ∈ stored := by
      by_contra hnot
      rw [validateUniqueName_of_notMem hnot] at h
      cases h
    cases hnext : iterateTagName (clock 0) name with
    | error msg =>
      rw [validateUniqueName_of_error hmem hnext] at h
      cases h
    | ok name' =>
      rw [validateUniqueName_of_ok hmem hnext] at h
      intro k hk
      cases k with
      | zero => exact ⟨name, hmem, rfl⟩
      | succ k =>
        obtain ⟨x, hx, hrun⟩ := ih h k (by omega)
        refine ⟨x, hx, ?_⟩
        rw [List.range_succ_eq_map, List.map_cons, List.map_map, Steps.run_cons_eq_some]
        exact ⟨name', Except.toOption_eq_some_iff.mpr hnext, hrun⟩

/-- **It ends**: one call more than there are stored names is enough. -/
theorem validateUniqueName_ne_none (hcard : stored.card < 2 ^ 62) (clock : ℕ → UInt64)
    (name : List UInt8) :
    validateUniqueName (storedNames stored) clock (stored.card + 1) name ≠ none := by
  intro h
  have hle : stored.card + 1 ≤ stored.card :=
    climbs.le_card (by omega) (run_of_validateUniqueName_eq_none h)
  omega

/-- When it ends it returns no error and leaves a name that is not stored, unless it panics at
the first name. -/
theorem validateUniqueName_eq_some (hname : ¬ Unsplittable stored name)
    {r : Except Failure Unit × List UInt8}
    (h : validateUniqueName (storedNames stored) clock fuel name = some r) :
    r.1 = .ok () ∧ r.2 ∉ stored := by
  induction fuel generalizing clock name with
  | zero => cases h
  | succ fuel ih =>
    by_cases hmem : name ∈ stored
    · cases hnext : iterateTagName (clock 0) name with
      | error msg => exact absurd ⟨hmem, iterateTagName_eq_error_iff.mp ⟨msg, hnext⟩⟩ hname
      | ok name' =>
        rw [validateUniqueName_of_ok hmem hnext] at h
        exact ih (fun hbad => getLast?_of_iterateTagName hnext hbad.2.2) h
    · rw [validateUniqueName_of_notMem hmem] at h
      obtain rfl := Option.some.inj h
      exact ⟨rfl, hmem⟩

/-- `ValidateUniqueName` returns `nil` and leaves a name that is not stored. -/
def MadeUnique (stored : Finset (List UInt8)) (clock : ℕ → UInt64) (name : List UInt8) : Prop :=
  ∃ fuel name', validateUniqueName (storedNames stored) clock fuel name = some (.ok (), name') ∧
    name' ∉ stored

theorem not_madeUnique_of_error {msg : String} (h : name ∈ stored)
    (hnext : iterateTagName (clock 0) name = .error msg) : ¬ MadeUnique stored clock name := by
  rintro ⟨fuel, name', hret, -⟩
  cases fuel with
  | zero => cases hret
  | succ fuel =>
    have hboth := hret.symm.trans (validateUniqueName_of_error h hnext)
    cases hboth

/-- **A name is made unique unless `IterateTagName` panics on it**, whatever the clock says. -/
theorem madeUnique_iff (hcard : stored.card < 2 ^ 62) (clock : ℕ → UInt64) (name : List UInt8) :
    MadeUnique stored clock name ↔ ¬ Unsplittable stored name := by
  constructor
  · rintro hmade ⟨hmem, hbad⟩
    obtain ⟨msg, hmsg⟩ : ∃ msg, iterateTagName (clock 0) name = .error msg :=
      iterateTagName_eq_error_iff.mpr hbad
    exact not_madeUnique_of_error hmem hmsg hmade
  · intro hname
    obtain ⟨r, hr⟩ := Option.ne_none_iff_exists'.mp (validateUniqueName_ne_none hcard clock name)
    obtain ⟨hok, hnot⟩ := validateUniqueName_eq_some hname hr
    exact ⟨stored.card + 1, r.2, by rw [hr, ← hok], hnot⟩

/-- The third session of one tag. -/
theorem madeUnique_iff_third :
    ({ascii "run", ascii "run(1)"} : Finset (List UInt8)).card < 2 ^ 62 ∧
    (MadeUnique {ascii "run", ascii "run(1)"} (fun _ => 0) (ascii "run") ↔
      ¬ Unsplittable {ascii "run", ascii "run(1)"} (ascii "run")) :=
  ⟨by decide, madeUnique_iff (by decide) (fun _ => 0) (ascii "run")⟩

/-- **The name `run(1)(`.**  When it is stored the function panics. -/
theorem open_parenthesis_panics :
    validateUniqueName (storedNames {ascii "run(1)("}) (fun _ => 0) 1 (ascii "run(1)(") =
      some (.error (.panic "runtime error: slice bounds out of range [:-1]"), ascii "run(1)(") ∧
    ¬ MadeUnique {ascii "run(1)("} (fun _ => 0) (ascii "run(1)(") := by
  have hnext : iterateTagName 0 (ascii "run(1)(") =
      .error "runtime error: slice bounds out of range [:-1]" := rfl
  have hmem : ascii "run(1)(" ∈ ({ascii "run(1)("} : Finset (List UInt8)) :=
    Finset.mem_singleton_self _
  exact ⟨validateUniqueName_of_error hmem hnext, not_madeUnique_of_error hmem hnext⟩

end Jens
