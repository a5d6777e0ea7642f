import Jens.Lib.Outcome
import Jens.Persistence.Stores

/-!
# What the persistence singleton holds

The first call of `SetPersistenceTo` takes the singleton, and only it comes to `Init`; later calls
have no effect, as the comment of the function says (`run_cons`, `setPersistenceTo_first`).  So the
store `GetPersistence` returns is an initialised one just if the `Init` of the first call returned
`nil`.  What an initialised `psql.DataBase` is, `PsqlHandles.init_eq_ok_iff` says.
-/

namespace Jens

/-! ### The stores -/

namespace PsqlHandles

variable {c : Connection} {s t : PsqlHandles}

theorem check_eq_ok_iff {err : Option String} {a : Unit} :
    check err s = .ok a t ↔ err = none ∧ t = s := by
  cases err with
  | none =>
    change EStateM.Result.ok () s = .ok () t ↔ _
    simp [eq_comm]
  | some e =>
    change EStateM.Result.error e s = .ok () t ↔ _
    simp

theorem assign_eq_ok_iff {err : Option String} {set : Bool → PsqlHandles → PsqlHandles} {a : Unit} :
    assign err set s = .ok a t ↔ err = none ∧ t = set true s := by
  change check err (set err.isNone s) = .ok a t ↔ _
  rw [check_eq_ok_iff]
  cases err <;> simp

theorem prepBulkStmts_eq_ok_iff {a : Unit} :
    prepBulkStmts c s = .ok a t ↔
      (c.beginMq = none ∧ c.beginMp = none ∧ c.prepareQueue = none ∧ c.preparePacket = none) ∧
      t = { s with txMq := true, txMp := true, stmtQueue := true, stmtPacket := true } := by
  simp only [prepBulkStmts, EStateM.bind_eq_ok, assign_eq_ok_iff, exists_const, and_assoc,
    exists_and_left, exists_eq_left]

/-- **With a login, `Init` returns `nil` just if every call it makes does, and then the store has
its connection, its transactions and its statements.** -/
theorem init_eq_ok_iff {login : Login} :
    init c (some login) s = .ok () t ↔
      (c.openDb login.infoStr = none ∧ c.ping = none ∧ c.beginMq = none ∧ c.beginMp = none ∧
        c.prepareQueue = none ∧ c.preparePacket = none ∧ c.prepareSessionstats = none) ∧
      t = ⟨true, true, true, true, true, true⟩ := by
  have hmodify : ∀ (f : PsqlHandles → PsqlHandles) (a : Unit) (s t : PsqlHandles),
      (modify f : EStateM String PsqlHandles Unit) s = .ok a t ↔ t = f s := by
    intro f a s t
    change EStateM.Result.ok () (f s) = .ok () t ↔ _
    simp [eq_comm]
  simp only [init, EStateM.bind_eq_ok, check_eq_ok_iff, hmodify, prepBulkStmts_eq_ok_iff,
    prepSpecialStmts, assign_eq_ok_iff, Option.map_eq_none_iff, exists_const, and_assoc,
    exists_and_left, exists_eq_left]

/-- A `psql.DataBase` whose `Init` returned `nil` has all its handles. -/
theorem afterInit_of_noError {login : Login} {n : ℕ}
    (h : Store.init c (.psql n) (some login) = none) :
    afterInit c (some login) = ⟨true, true, true, true, true, true⟩ := by
  rw [Store.init] at h
  cases hinit : init c (some login) {} with
  | error err t =>
    rw [hinit] at h
    cases h
  | ok a t =>
    rw [afterInit, hinit]
    exact (init_eq_ok_iff.mp hinit).2

end PsqlHandles

namespace Singleton

variable {ω ρ : Type} (init : ω → ρ → Option Login → Option String)

/-! ### Runs -/

theorem setPersistenceTo_of_isSome {s : Singleton ρ} (h : s.persistenceStore.isSome)
    (c : SetCall ω ρ) : s.setPersistenceTo init c = (none, s) := by
  obtain ⟨v, hv⟩ := Option.isSome_iff_exists.mp h
  rw [setPersistenceTo, hv]

/-- Calls on a singleton that is taken have no effect. -/
theorem foldl_of_isSome {s : Singleton ρ} (h : s.persistenceStore.isSome)
    (cs : List (SetCall ω ρ)) : cs.foldl (fun s c => (s.setPersistenceTo init c).2) s = s := by
  induction cs with
  | nil => rfl
  | cons c cs ih => rw [List.foldl_cons, setPersistenceTo_of_isSome init h, ih]

theorem run_nil : run init [] = {} := rfl

/-- A run is its first call. -/
theorem run_cons (c : SetCall ω ρ) (cs : List (SetCall ω ρ)) :
    run init (c :: cs) =
      { persistenceStore := some c.v, inits := [(c.v, c.initErr init)] } := by
  rw [run, List.foldl_cons]
  exact foldl_of_isSome init rfl cs

/-! ### Initialised stores -/

/-- The store of the first `Init` that returned `nil`. -/
def firstInitialised (s : Singleton ρ) : Option ρ :=
  s.inits.findSome? fun i => if i.2 = none then some i.1 else none

/-- A failed `Init` does not occupy the singleton: it holds the store that was initialised first,
and as long as there is none, the next call initialises its own store and says how that went. -/
structure InitialisedOnly (s : Singleton ρ) : Prop where
  getPersistence : s.getPersistence.toOption = s.firstInitialised
  initialises : s.firstInitialised = none → ∀ c : SetCall ω ρ,
    (s.setPersistenceTo init c).1 = c.initErr init ∧
    (s.setPersistenceTo init c).2.inits = s.inits ++ [(c.v, c.initErr init)]

theorem initialisedOnly_nil : (run init []).InitialisedOnly init where
  getPersistence := rfl
  initialises _ _ := ⟨rfl, rfl⟩

theorem initialisedOnly_cons_iff (c : SetCall ω ρ) (cs : List (SetCall ω ρ)) :
    (run init (c :: cs)).InitialisedOnly init ↔ c.initErr init = none := by
  rw [run_cons]
  cases h : c.initErr init with
  | none =>
    have hfirst : firstInitialised ⟨some c.v, [(c.v, none)]⟩ = some c.v := rfl
    refine iff_of_true ⟨hfirst.symm, fun hnone => ?_⟩ rfl
    rw [hfirst] at hnone
    cases hnone
  | some e =>
    refine iff_of_false (fun hI => ?_) nofun
    have hget : some c.v = none := hI.getPersistence
    cases hget

/-- **The singleton belongs to the first call, whether or not its `Init` fails, and later calls
return `nil` without effect.**  It holds initialised stores only just if that `Init` returns
`nil`. -/
theorem setPersistenceTo_first (cs : List (SetCall ω ρ)) :
    (run init cs).getPersistence.toOption = cs.head?.map SetCall.v ∧
    (run init cs).inits = cs.head?.toList.map (fun c => (c.v, c.initErr init)) ∧
    (∀ c, (run init cs).setPersistenceTo init c =
      if cs = [] then (c.initErr init, run init [c]) else (none, run init cs)) ∧
    ((∀ done, done <+: cs → (run init done).InitialisedOnly init) ↔
      ∀ c ∈ cs.head?, c.initErr init = none) := by
  cases cs with
  | nil =>
    refine ⟨rfl, rfl, fun c => rfl, iff_of_true (fun done hdone => ?_) nofun⟩
    rw [List.prefix_nil.mp hdone]
    exact initialisedOnly_nil init
  | cons c cs =>
    have htaken : (run init (c :: cs)).persistenceStore.isSome := by rw [run_cons]; rfl
    refine ⟨by rw [run_cons]; rfl, by rw [run_cons]; rfl, fun d => ?_, ?_⟩
    · rw [if_neg (List.cons_ne_nil c cs), setPersistenceTo_of_isSome init htaken]
    · have hhead : (∀ d ∈ (c :: cs).head?, d.initErr init = none) ↔ c.initErr init = none := by
        simp
      rw [hhead]
      constructor
      · intro h
        exact (initialisedOnly_cons_iff init c cs).mp (h _ (List.prefix_refl _))
      · intro h done hdone
        cases done with
        | nil => exact initialisedOnly_nil init
        | cons d done =>
          obtain rfl : d = c := (List.cons_prefix_cons.mp hdone).1
          exact (initialisedOnly_cons_iff init d done).mpr h

/-- Two databases, the first of which does not answer: it stays in the singleton, and the second is
not initialised although `SetPersistenceTo` returns `nil`. -/
theorem failed_init_occupies :
    let refused : SetCall Connection Store :=
      ⟨.psql 0, some {}, { ping := some "connection refused" }⟩
    let healthy : SetCall Connection Store := ⟨.psql 1, some {}, {}⟩
    let s := run Store.init [refused, healthy]
    s.getPersistence.toOption = some (.psql 0) ∧
    s.inits = [(.psql 0, some "connection refused")] ∧
    (run Store.init [refused]).setPersistenceTo Store.init healthy = (none, s) ∧
    healthy.initErr Store.init = none ∧
    ¬ s.InitialisedOnly Store.init := by
  refine ⟨rfl, rfl, rfl, rfl, fun h => ?_⟩
  have hget : some (Store.psql 0) = none := h.getPersistence
  cases hget

end Singleton

end Jens
