import Mathlib.Data.Int.Notation
import Mathlib.Tactic.Common

/-!
# The persistence singleton

`setPersistenceTo` and `getPersistence` (`internal/persistence/generic.go`) over stores of any kind:
`init` is the `Init` of the interface `Persistence`, and `ω` is what it meets when it is called.
The field `inits` records the calls of `Init`, each with what it returned.
-/

namespace Jens

/-- `datatypes.Login`. -/
structure Login where
  dbname : String := ""
  host : String := ""
  password : String := ""
  port : Int32 := 0
  user : String := ""
  deriving DecidableEq

/-- `Login.InfoStr`. -/
def Login.infoStr (s : Login) : String :=
  "host=" ++ s.host ++ " port=" ++ toString s.port.toInt ++ " user=" ++ s.user ++ " password="
    ++ s.password ++ " dbname=" ++ s.dbname ++ " sslmode=disable"

/-- The variable `persistence_store`; `none` is `nil`. -/
structure Singleton (ρ : Type) where
  persistenceStore : Option ρ := none
  /-- The stores `Init` was called on, and the errors it returned. -/
  inits : List (ρ × Option String) := []
  deriving DecidableEq

/-- The arguments of a call of `SetPersistenceTo`, and what `Init` would meet. -/
structure SetCall (ω ρ : Type) where
  v : ρ
  login : Option Login
  meets : ω

section

variable {ω ρ : Type} (init : ω → ρ → Option Login → Option String)

/-- What `Init` returns, if the call comes to it. -/
def SetCall.initErr (c : SetCall ω ρ) : Option String := init c.meets c.v c.login

namespace Singleton

/-- `GetPersistence`. -/
def getPersistence (s : Singleton ρ) : Except String ρ :=
  match s.persistenceStore with
  | none => .error "Persistence was not yet set"
  | some v => .ok v

/-- `SetPersistenceTo`: the error it returns, if any, and what it leaves. -/
def setPersistenceTo (s : Singleton ρ) (c : SetCall ω ρ) : Option String × Singleton ρ :=
  match s.persistenceStore with
  | some _ => (none, s)
  | none =>
    let err := c.initErr init
    (err, { persistenceStore := some c.v, inits := s.inits ++ [(c.v, err)] })

/-- A sequence of calls, from the start of the process. -/
def run (cs : List (SetCall ω ρ)) : Singleton ρ :=
  cs.foldl (fun s c => (s.setPersistenceTo init c).2) {}

end Singleton

end

end Jens
