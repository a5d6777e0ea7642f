import Jens.Util.Os
import Jens.Util.Strings

/-!
# `DB_session.ValidateUniqueName`

The function calls itself with the next name as long as the database has the name; nothing but the
names the database has ends it, so the calls are counted here.
-/

namespace Jens

/-- `DB_session.ValidateUniqueName` in at most `fuel` calls: what it returns and the name it leaves.
`query` is the answer to the `select exists` and `clock k` the time at the `k`-th call. -/
def validateUniqueName (query : List UInt8 → Except String Bool) :
    (ℕ → UInt64) → ℕ → List UInt8 → Option (Except Failure Unit × List UInt8)
  | _, 0, _ => none
  | clock, fuel + 1, name =>
    match query name with
    | .error err => some (.error (.error err), name)
    | .ok false => some (.ok (), name)
    | .ok true =>
      match iterateTagName (clock 0) name with
      | .error msg => some (.error (.panic msg), name)
      | .ok name' => validateUniqueName query (fun k => clock (k + 1)) fuel name'

end Jens
