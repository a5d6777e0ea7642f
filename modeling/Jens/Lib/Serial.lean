import Jens.Lib.Keyed

/-!
# Tables with a serial

Each row of a `SerialTable` has a number of its own, which the table gives out in order and never
again.
-/

/-- A table whose primary key is a serial. -/
structure SerialTable (ρ : Type*) where
  rows : List (ℤ × ρ)
  /-- The next value of the serial. -/
  nextId : ℤ
  lt_nextId : ∀ r ∈ rows, r.1 < nextId
  uniqueId : UniqueBy Prod.fst rows

namespace SerialTable

variable {ρ : Type*} (t : SerialTable ρ)

/-- The row goes behind the others and gets the next number. -/
def insert (row : ρ) : SerialTable ρ where
  rows := t.rows ++ [(t.nextId, row)]
  nextId := t.nextId + 1
  lt_nextId r hr := by
    rcases List.mem_append.mp hr with hr | hr
    · have hlt := t.lt_nextId r hr
      omega
    · rw [List.mem_singleton.mp hr]
      exact Int.lt_succ _
  uniqueId := t.uniqueId.concat fun r hr => (t.lt_nextId r hr).ne

/-- The numbers that are taken. -/
def ids : List ℤ := t.rows.map Prod.fst

theorem mem_insert_self (row : ρ) : (t.nextId, row) ∈ (t.insert row).rows :=
  List.mem_append_right _ (List.mem_singleton_self _)

theorem mem_insert_of_mem (row : ρ) {r : ℤ × ρ} (h : r ∈ t.rows) : r ∈ (t.insert row).rows :=
  List.mem_append_left _ h

theorem mem_ids_insert (row : ρ) {id : ℤ} :
    id ∈ (t.insert row).ids ↔ id ∈ t.ids ∨ id = t.nextId := by
  rw [ids, ids, insert, List.map_append, List.mem_append, List.map_singleton, List.mem_singleton]

end SerialTable
