import Mathlib.Algebra.Group.Int.Defs
import Mathlib.Data.Int.Notation
import Mathlib.Data.List.Nodup

/-!
# Tables with an `AUTOINCREMENT` key

A table of SQLite with `INTEGER PRIMARY KEY AUTOINCREMENT`: its rows, and the largest key
that was ever given out (`sqlite_sequence`). That keys are distinct integers of 64 bits and
not larger than that is part of the table. Rows are of any type; `key` reads the key of a
row.
-/

universe u

/-- The smallest key there can be. -/
def minRowid : ℤ := -2 ^ 63

/-- The largest key there can be. -/
def maxRowid : ℤ := 2 ^ 63 - 1

/-- A table. -/
structure SqlTable (α : Type u) (key : α → ℤ) : Type u where
  /-- the rows -/
  rows : List α
  /-- the largest key that was ever given out -/
  seq : ℤ
  /-- no two rows have the same key -/
  nodup : (rows.map key).Nodup
  /-- every key was given out -/
  le_seq : ∀ row ∈ rows, key row ≤ seq
  /-- every key is an integer of 64 bits -/
  min_le : ∀ row ∈ rows, minRowid ≤ key row
  /-- and so is every one that was given out -/
  seq_mem : 0 ≤ seq ∧ seq ≤ maxRowid

namespace SqlTable

variable {α : Type u} {key : α → ℤ} (t : SqlTable α key)

theorem seq_mem_one : (0 : ℤ) ≤ 1 ∧ 1 ≤ maxRowid := by decide

theorem minRowid_le_one : minRowid ≤ 1 := by decide

/-- A table without rows. -/
def empty : SqlTable α key where
  rows := []
  seq := 0
  nodup := List.nodup_nil
  le_seq := nofun
  min_le := nofun
  seq_mem := by decide

/-- A table of one row, with the first key. -/
def single (row : α) (hkey : key row = 1) : SqlTable α key where
  rows := [row]
  seq := 1
  nodup := List.nodup_singleton _
  le_seq _ hother := Int.le_of_eq (List.mem_singleton.mp hother ▸ hkey)
  min_le _ hother := (List.mem_singleton.mp hother ▸ hkey).symm ▸ minRowid_le_one
  seq_mem := seq_mem_one

/-- `INSERT` of a row that gets the next key; `none` when there is none left. -/
def insert (make : ℤ → α) (hmake : ∀ n, key (make n) = n) : Option (SqlTable α key) :=
  if hseq : t.seq < maxRowid then some
    { rows := t.rows ++ [make (t.seq + 1)]
      seq := t.seq + 1
      nodup := by
        rw [List.map_append, List.map_singleton, hmake, ← List.concat_eq_append]
        refine t.nodup.concat fun hmem => ?_
        obtain ⟨row, hrow, hkey⟩ := List.mem_map.mp hmem
        have hle := t.le_seq row hrow
        omega
      le_seq := by
        intro row hrow
        rcases List.mem_append.mp hrow with hrow | hrow
        · have hle := t.le_seq row hrow
          omega
        · have hkey : key row = t.seq + 1 := by rw [List.mem_singleton.mp hrow, hmake]
          exact Int.le_of_eq hkey
      min_le := by
        intro row hrow
        rcases List.mem_append.mp hrow with hrow | hrow
        · exact t.min_le row hrow
        · have hnonneg := t.seq_mem.1
          rw [List.mem_singleton.mp hrow, hmake, minRowid]
          omega
      seq_mem := ⟨Int.le_add_one t.seq_mem.1, hseq⟩ }
  else none

/-- Give out a key that no row gets, as an `INSERT` does that finds a conflict; `none` when
there is none left. -/
def skip : Option (SqlTable α key) :=
  if hseq : t.seq < maxRowid then some
    { t with
      seq := t.seq + 1
      le_seq := fun row hrow => Int.le_add_one (t.le_seq row hrow)
      seq_mem := ⟨Int.le_add_one t.seq_mem.1, hseq⟩ }
  else none

/-- `DELETE` of the rows for which `p` does not hold. -/
def filter (p : α → Bool) : SqlTable α key where
  rows := t.rows.filter p
  seq := t.seq
  nodup := t.nodup.sublist (List.filter_sublist.map key)
  le_seq row hrow := t.le_seq row (List.mem_of_mem_filter hrow)
  min_le row hrow := t.min_le row (List.mem_of_mem_filter hrow)
  seq_mem := t.seq_mem

/-- `UPDATE` of columns that are not the key. -/
def map (f : α → α) (hf : ∀ row, key (f row) = key row) : SqlTable α key where
  rows := t.rows.map f
  seq := t.seq
  nodup := by
    rw [List.map_map]
    have hcomp : key ∘ f = key := funext hf
    rw [hcomp]
    exact t.nodup
  le_seq := by
    intro row hrow
    obtain ⟨row', hrow', rfl⟩ := List.mem_map.mp hrow
    rw [hf]
    exact t.le_seq row' hrow'
  min_le := by
    intro row hrow
    obtain ⟨row', hrow', rfl⟩ := List.mem_map.mp hrow
    rw [hf]
    exact t.min_le row' hrow'
  seq_mem := t.seq_mem

variable {t}

@[simp] theorem rows_empty : (empty : SqlTable α key).rows = [] := rfl

@[simp] theorem rows_filter (p : α → Bool) : (t.filter p).rows = t.rows.filter p := rfl

@[simp] theorem rows_map (f : α → α) (hf : ∀ row, key (f row) = key row) :
    (t.map f hf).rows = t.rows.map f := rfl

/-- What an `INSERT` does. -/
theorem insert_eq_some {make : ℤ → α} {hmake : ∀ n, key (make n) = n} {t' : SqlTable α key}
    (h : t.insert make hmake = some t') :
    t'.rows = t.rows ++ [make t'.seq] ∧ t'.seq = t.seq + 1 := by
  unfold insert at h
  split at h
  · obtain rfl := Option.some.inj h
    exact ⟨rfl, rfl⟩
  · cases h

/-- A key that no row gets changes no row. -/
theorem skip_eq_some {t' : SqlTable α key} (h : t.skip = some t') :
    t'.rows = t.rows ∧ t'.seq = t.seq + 1 := by
  unfold skip at h
  split at h
  · obtain rfl := Option.some.inj h
    exact ⟨rfl, rfl⟩
  · cases h

/-- The new key is not the key of another row. -/
theorem key_ne_of_insert {make : ℤ → α} {hmake : ∀ n, key (make n) = n} {t' : SqlTable α key}
    (h : t.insert make hmake = some t') : ∀ row ∈ t.rows, key row ≠ t'.seq := by
  intro row hrow
  have hle := t.le_seq row hrow
  have hseq := (insert_eq_some h).2
  omega

end SqlTable
