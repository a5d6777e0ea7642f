import Mathlib.Algebra.BigOperators.Group.Finset.Piecewise
import Mathlib.Algebra.Ring.Nat
import Mathlib.Data.List.AList
import Mathlib.Data.List.Nodup
import Mathlib.Tactic.Common

/-!
# Rows that a key tells apart

`UniqueBy key rows` says that no two rows of a table have the same key.  It is kept by changes that
leave the key of every row as it is (`UniqueBy.map`), and by a new row with a new key
(`UniqueBy.concat`).  Whether or not the keys are unique, a sum over the rows is the sum over the
keys of the rows with that key (`sum_filter_key`).  In a map from the keys to their rows the rows of
a key are those its lookup finds (`filter_key_entries`).
-/

variable {ρ κ : Type*}

/-- No two rows have the same key. -/
def UniqueBy (key : ρ → κ) (rows : List ρ) : Prop := (rows.map key).Nodup

namespace UniqueBy

variable {key : ρ → κ} {rows : List ρ}

theorem nil (key : ρ → κ) : UniqueBy key [] := List.nodup_nil

/-- Rows with the same key are the same row. -/
theorem eq_of_key_eq (h : UniqueBy key rows) {a b : ρ} (ha : a ∈ rows) (hb : b ∈ rows)
    (hkey : key a = key b) : a = b := List.inj_on_of_nodup_map h ha hb hkey

/-- Changes that keep the keys. -/
theorem map {f : ρ → ρ} (h : UniqueBy key rows) (hf : ∀ r ∈ rows, key (f r) = key r) :
    UniqueBy key (rows.map f) := by
  have hkeys : (rows.map f).map key = rows.map key := by
    rw [List.map_map]
    exact List.map_congr_left hf
  rw [UniqueBy, hkeys]
  exact h

/-- A new row with a new key. -/
theorem concat (h : UniqueBy key rows) {r : ρ} (hr : ∀ r' ∈ rows, key r' ≠ key r) :
    UniqueBy key (rows ++ [r]) := by
  have hnew : key r ∉ rows.map key := by
    intro hmem
    obtain ⟨r', hr', heq⟩ := List.mem_map.mp hmem
    exact hr r' hr' heq
  rw [UniqueBy, List.map_append, List.map_singleton, ← List.concat_eq_append, List.nodup_concat]
  exact ⟨hnew, h⟩

end UniqueBy

/-- A sum over a list, key by key. -/
theorem sum_filter_key [DecidableEq κ] (key : ρ → κ) (f : ρ → ℕ) (rows : List ρ) (keys : Finset κ)
    (h : ∀ r ∈ rows, key r ∈ keys) :
    ∑ k ∈ keys, ((rows.filter fun r => key r = k).map f).sum = (rows.map f).sum := by
  induction rows with
  | nil => simp
  | cons r rows ih =>
    have hr : key r ∈ keys := h r List.mem_cons_self
    have hrows := ih fun r' hr' => h r' (List.mem_cons_of_mem r hr')
    have hcons : ∀ k, (((r :: rows).filter fun r => key r = k).map f).sum =
        (if key r = k then f r else 0) + ((rows.filter fun r => key r = k).map f).sum := by
      intro k
      by_cases hk : key r = k <;> simp [hk]
    rw [Finset.sum_congr rfl fun k _ => hcons k, Finset.sum_add_distrib, hrows, Finset.sum_ite_eq,
      if_pos hr, List.map_cons, List.sum_cons]

section Entries

variable [DecidableEq κ] {key : ρ → κ}

theorem filter_key_dlookup (es : List (Sigma fun _ : κ => ρ)) (hnd : es.NodupKeys)
    (hkey : ∀ e ∈ es, key e.2 = e.1) (k : κ) :
    (es.map Sigma.snd).filter (fun r => key r = k) = (es.dlookup k).toList := by
  induction es with
  | nil => rfl
  | cons e es ih =>
    obtain ⟨hnot, hnd⟩ := List.nodupKeys_cons.mp hnd
    have hrest := ih hnd fun e' he' => hkey e' (List.mem_cons_of_mem e he')
    have he := hkey e List.mem_cons_self
    rw [List.map_cons]
    by_cases hk : e.1 = k
    · subst hk
      rw [List.filter_cons_of_pos (by simpa using he), hrest, List.dlookup_cons_eq,
        List.dlookup_eq_none.mpr hnot]
      rfl
    · rw [List.filter_cons_of_neg (by simpa [he] using hk), hrest,
        List.dlookup_cons_ne _ _ fun h => hk h.symm]

/-- The rows of a map with the key `k`. -/
theorem filter_key_entries {m : AList fun _ : κ => ρ}
    (hkey : ∀ k r, m.lookup k = some r → key r = k) (k : κ) :
    (m.entries.map Sigma.snd).filter (fun r => key r = k) = (m.lookup k).toList := by
  apply filter_key_dlookup _ m.nodupKeys
  intro e he
  exact hkey e.1 e.2 (AList.mem_lookup_iff.mpr he)

end Entries
