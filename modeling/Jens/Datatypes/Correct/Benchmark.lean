import Jens.Datatypes.Benchmark
import Mathlib.Data.List.Basic

/-!
# Whether `DB_benchmark.Sync` makes the name and the tag unique

A `Scan` without a destination has an error whether there is a row or not (`rowScan_zero`), so the
first call inserts (`sync_succ`) and the tag is never changed.  What it inserts is the only row with
the name and the tag exactly if there was none before (`synced_iff`).
-/

namespace Jens

/-- The row has the name and the tag of the benchmark. -/
def BenchmarkRow.SameTag (s r : BenchmarkRow) : Prop := r.name = s.name ∧ r.tag = s.tag

instance (s r : BenchmarkRow) : Decidable (s.SameTag r) := inferInstanceAs (Decidable (_ ∧ _))

/-- The name and the tag are in the table. -/
def BenchmarkTable.Taken (t : BenchmarkTable) (s : BenchmarkRow) : Prop := ∃ r ∈ t.rows, s.SameTag r

/-- What a call of `Sync` on the benchmark `s` and the table `t` shall leave. -/
structure SyncedTo (s : BenchmarkRow) (t : BenchmarkTable) (s' : BenchmarkRow)
    (t' : BenchmarkTable) : Prop where
  name : s'.name = s.name
  /-- There is one row with the name and the tag, and it has the id. -/
  unique : t'.rows.filter s'.SameTag = [s']
  others : t'.rows.filter (fun r => r.benchmarkId ≠ s'.benchmarkId) = t.rows
  tag : s'.tag ≠ s.tag → t.Taken s

/-- **`Sync` makes the name and the tag unique**: it ends, without an error. -/
def Synced (clock : ℕ → UInt64) (s : BenchmarkRow) (t : BenchmarkTable) : Prop :=
  ∃ fuel s' t', s.sync clock fuel t = some (.ok (), s', t') ∧ SyncedTo s t s' t'

variable {clock : ℕ → UInt64} {fuel : ℕ} {s s' : BenchmarkRow} {t t' : BenchmarkTable}

theorem rowScan_zero (rows : List ℤ) : ∃ err, rowScan rows 0 = .error err := by
  cases rows with
  | nil => exact ⟨_, rfl⟩
  | cons row rows => exact ⟨_, rfl⟩

/-- What `Insert` leaves. -/
theorem insert_eq (s : BenchmarkRow) (t : BenchmarkTable) :
    s.insert t = (.ok (), ⟨t.nextId, s.name, s.tag⟩, (t.insertRow s.name s.tag).1) := rfl

/-- The first call inserts, whatever the table holds. -/
theorem sync_succ (clock : ℕ → UInt64) (fuel : ℕ) (s : BenchmarkRow) (t : BenchmarkTable) :
    s.sync clock (fuel + 1) t = some (s.insert t) := by
  obtain ⟨err, herr⟩ := rowScan_zero (t.select s.name s.tag)
  rw [BenchmarkRow.sync, herr]

theorem sync_eq_some (h : s.sync clock fuel t = some (.ok (), s', t')) :
    s' = ⟨t.nextId, s.name, s.tag⟩ ∧ t' = (t.insertRow s.name s.tag).1 := by
  cases fuel with
  | zero => cases h
  | succ fuel =>
    rw [sync_succ, insert_eq] at h
    cases h
    exact ⟨rfl, rfl⟩

/-- The rows with the name and the tag after an insertion. -/
theorem filter_insertRow (s : BenchmarkRow) (t : BenchmarkTable) :
    (t.insertRow s.name s.tag).1.rows.filter s.SameTag =
      t.rows.filter s.SameTag ++ [⟨t.nextId, s.name, s.tag⟩] := by
  rw [BenchmarkTable.insertRow, List.filter_append]
  congr 1
  exact List.filter_cons_of_pos (decide_eq_true ⟨rfl, rfl⟩)

/-- The other rows after an insertion. -/
theorem filter_ne_insertRow (s : BenchmarkRow) (t : BenchmarkTable) :
    (t.insertRow s.name s.tag).1.rows.filter (fun r => r.benchmarkId ≠ t.nextId) = t.rows := by
  have hold : t.rows.filter (fun r => r.benchmarkId ≠ t.nextId) = t.rows := by
    rw [List.filter_eq_self]
    intro r hr
    exact decide_eq_true (t.lt_nextId r hr).ne
  rw [BenchmarkTable.insertRow, List.filter_append, hold]
  simp

theorem filter_sameTag_eq_nil_iff : t.rows.filter s.SameTag = [] ↔ ¬ t.Taken s := by
  rw [List.filter_eq_nil_iff]
  constructor
  · rintro h ⟨r, hr, hsame⟩
    exact h r hr (decide_eq_true hsame)
  · intro h r hr hsame
    exact h ⟨r, hr, of_decide_eq_true hsame⟩

/-- **The name and the tag are unique afterwards exactly if they were not taken before.** -/
theorem synced_iff (clock : ℕ → UInt64) (s : BenchmarkRow) (t : BenchmarkTable) :
    Synced clock s t ↔ ¬ t.Taken s := by
  rw [← filter_sameTag_eq_nil_iff]
  constructor
  · rintro ⟨fuel, s', t', hsync, hs⟩
    obtain ⟨rfl, rfl⟩ := sync_eq_some hsync
    have hrows : t.rows.filter s.SameTag ++ [⟨t.nextId, s.name, s.tag⟩] =
        [⟨t.nextId, s.name, s.tag⟩] := by
      rw [← filter_insertRow]
      exact hs.unique
    simpa using hrows
  · intro hnone
    refine ⟨1, ⟨t.nextId, s.name, s.tag⟩, (t.insertRow s.name s.tag).1, sync_succ clock 0 s t, rfl,
      ?_, filter_ne_insertRow s t, ?_⟩
    · show (t.insertRow s.name s.tag).1.rows.filter s.SameTag = _
      rw [filter_insertRow, hnone, List.nil_append]
    · intro h
      exact absurd rfl h

/-- A table with one benchmark. -/
def oneBenchmark : BenchmarkTable where
  rows := [⟨1, ascii "l4s", ascii "run"⟩]
  nextId := 2
  lt_nextId := by decide

/-- **The tag `run` for a second time.**  It is stored again as it is. -/
theorem tag_stored_twice :
    (BenchmarkRow.sync (fun _ => 0) 1 ⟨0, ascii "l4s", ascii "run"⟩ oneBenchmark).map
        (fun call => (call.2.1, call.2.2.rows)) =
      some (⟨2, ascii "l4s", ascii "run"⟩,
        [⟨1, ascii "l4s", ascii "run"⟩, ⟨2, ascii "l4s", ascii "run"⟩]) ∧
    ¬ Synced (fun _ => 0) ⟨0, ascii "l4s", ascii "run"⟩ oneBenchmark := by
  refine ⟨rfl, ?_⟩
  rintro ⟨fuel, s', t', hsync, hs⟩
  obtain ⟨rfl, rfl⟩ := sync_eq_some hsync
  exact absurd hs.unique (by decide)

end Jens
