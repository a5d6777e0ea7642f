import Jens.Util.Os
import Jens.Util.Strings

/-!
# `DB_benchmark.Insert` and `DB_benchmark.Sync`

The statements run on a table that does not fail.  `rowScan` is `Row.Scan` of the package
`database/sql`: there is an error without a row, and with a row whose columns are not as many as the
destinations.  `Sync` calls itself with the next tag; as in `validateUniqueName` the calls are
counted.
-/

namespace Jens

/-- The fields of `DB_benchmark` that are stored, which is a row of the table `benchmark`. -/
structure BenchmarkRow where
  benchmarkId : ℤ
  name : List UInt8
  tag : List UInt8
  deriving DecidableEq, Repr

/-- The table `benchmark`: its rows, and the next value of the serial `benchmark_id`. -/
structure BenchmarkTable where
  rows : List BenchmarkRow
  nextId : ℤ
  lt_nextId : ∀ r ∈ rows, r.benchmarkId < nextId

/-- `Row.Scan` with `dests` destinations, on the rows of a query with one column. -/
def rowScan (rows : List ℤ) (dests : ℕ) : Except String ℤ :=
  match rows with
  | [] => .error "sql: no rows in result set"
  | row :: _ =>
    if dests = 1 then .ok row
    else .error ("sql: expected 1 destination arguments in Scan, not " ++ toString dests)

namespace BenchmarkTable

/-- `SELECT benchmark_id FROM benchmark WHERE name=$1 and tag=$2`. -/
def select (t : BenchmarkTable) (name tag : List UInt8) : List ℤ :=
  (t.rows.filter fun r => r.name = name ∧ r.tag = tag).map BenchmarkRow.benchmarkId

/-- `INSERT INTO benchmark (name, tag) VALUES ($1, $2) RETURNING benchmark_id`. -/
def insertRow (t : BenchmarkTable) (name tag : List UInt8) : BenchmarkTable × List ℤ :=
  ({ rows := t.rows ++ [⟨t.nextId, name, tag⟩]
     nextId := t.nextId + 1
     lt_nextId := by
      intro r hr
      rcases List.mem_append.mp hr with hr | hr
      · exact Int.lt_add_one_of_le (Int.le_of_lt (t.lt_nextId r hr))
      · rw [List.mem_singleton.mp hr]
        exact Int.lt_succ _ }, [t.nextId])

end BenchmarkTable

/-- What a call leaves: the error it returns, the benchmark and the table. -/
abbrev BenchmarkCall := Except Failure Unit × BenchmarkRow × BenchmarkTable

namespace BenchmarkRow

/-- `DB_benchmark.Insert`. -/
def insert (s : BenchmarkRow) (t : BenchmarkTable) : BenchmarkCall :=
  let (t, returned) := t.insertRow s.name s.tag
  match rowScan returned 1 with
  | .ok id => (.ok (), { s with benchmarkId := id }, t)
  | .error err => (.error (.error err), s, t)

/-- `DB_benchmark.Sync` in at most `fuel` calls; `clock k` is the time at the `k`-th call. -/
def sync : (ℕ → UInt64) → ℕ → BenchmarkRow → BenchmarkTable → Option BenchmarkCall
  | _, 0, _, _ => none
  | clock, fuel + 1, s, t =>
    -- the statement has one column and `Scan` no destination
    match rowScan (t.select s.name s.tag) 0 with
    | .error _ => some (s.insert t)
    | .ok _ =>
      match iterateTagName (clock 0) s.tag with
      | .error msg => some (.error (.panic msg), s, t)
      | .ok tag => sync (fun k => clock (k + 1)) fuel { s with tag := tag } t

end BenchmarkRow

end Jens
