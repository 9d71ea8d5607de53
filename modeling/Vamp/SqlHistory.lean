import Vamp.SqlTable

/-!
# Tables over time

What the statements do to one table, without its columns: rows are added at the end, under
keys that were never given out (`Extends`), and rows are changed and deleted. Whatever is done,
an old key is the key of an old row (`Evolves`). So a row that is deleted leaves its key to
nobody (`Evolves.not_mem_keys`), and what no statement changes stays as long as the row.
-/

universe u v

namespace SqlTable

variable {α : Type u} {β : Type v} {key : α → ℤ} {R : α → α → Prop} {columns : α → β}
  {t t' t'' : SqlTable α key}

/-- The keys of the rows. -/
def keys (t : SqlTable α key) : List ℤ := t.rows.map key

theorem mem_keys {n : ℤ} : n ∈ t.keys ↔ ∃ row ∈ t.rows, key row = n := List.mem_map

theorem le_seq_of_mem_keys {n : ℤ} (h : n ∈ t.keys) : n ≤ t.seq := by
  obtain ⟨row, hrow, rfl⟩ := mem_keys.mp h
  exact t.le_seq row hrow

/-! ## Adding rows -/

/-- Rows are added that do not have the same `columns` as another one. -/
structure Extends (columns : α → β) (t t' : SqlTable α key) : Prop where
  /-- no row is lost -/
  rows : t.rows <+: t'.rows
  /-- no key is taken back -/
  seq_le : t.seq ≤ t'.seq
  /-- a row is an old one, or has a new key -/
  fresh : ∀ row ∈ t'.rows, row ∈ t.rows ∨ t.seq < key row
  /-- `UNIQUE` -/
  unique : (t.rows.map columns).Nodup → (t'.rows.map columns).Nodup

namespace Extends

theorem refl (t : SqlTable α key) : Extends columns t t :=
  ⟨List.prefix_rfl, Int.le_refl _, fun _ => Or.inl, id⟩

theorem trans (h : Extends columns t t') (h' : Extends columns t' t'') :
    Extends columns t t'' where
  rows := h.rows.trans h'.rows
  seq_le := Int.le_trans h.seq_le h'.seq_le
  fresh row hrow := by
    rcases h'.fresh row hrow with hrow | hlt
    · exact h.fresh row hrow
    · exact .inr (Int.lt_of_le_of_lt h.seq_le hlt)
  unique := h'.unique ∘ h.unique

theorem mem (h : Extends columns t t') {row : α} (hrow : row ∈ t.rows) : row ∈ t'.rows :=
  h.rows.subset hrow

/-- A row is inserted. -/
theorem insert {make : ℤ → α} {hmake : ∀ n, key (make n) = n}
    (h : t.insert make hmake = some t')
    (hnew : ∀ row ∈ t.rows, columns row ≠ columns (make t'.seq)) : Extends columns t t' := by
  obtain ⟨hrows, hseq⟩ := insert_eq_some h
  refine ⟨hrows ▸ List.prefix_append .., by omega, fun row hrow => ?_, fun hunique => ?_⟩
  · rw [hrows] at hrow
    rcases List.mem_append.mp hrow with hold | hlast
    · exact .inl hold
    · right
      rw [List.mem_singleton.mp hlast, hmake]
      omega
  · rw [hrows, List.map_append, List.map_singleton, ← List.concat_eq_append]
    refine hunique.concat fun hmem => ?_
    obtain ⟨row, hrow, hcolumns⟩ := List.mem_map.mp hmem
    exact hnew row hrow hcolumns

/-- A row is inserted where nothing but the key is `UNIQUE`. -/
theorem insert_key {make : ℤ → α} {hmake : ∀ n, key (make n) = n}
    (h : t.insert make hmake = some t') : Extends key t t' := by
  refine insert h fun row hrow => ?_
  rw [hmake]
  exact key_ne_of_insert h row hrow

/-- A key is given to no row. -/
theorem skip (h : t.skip = some t') : Extends columns t t' := by
  obtain ⟨hrows, hseq⟩ := skip_eq_some h
  refine ⟨hrows ▸ List.prefix_rfl, by omega, fun row hrow => .inl (hrows ▸ hrow), ?_⟩
  rw [hrows]
  exact id

end Extends

/-! ## Changing and deleting rows -/

theorem unique_filter (h : (t.rows.map columns).Nodup) (p : α → Bool) :
    ((t.filter p).rows.map columns).Nodup := h.sublist (List.filter_sublist.map _)

/-- Rows that are changed stay `UNIQUE` if no two of them get the same columns. -/
theorem unique_map {f : α → α} (hf : ∀ row, key (f row) = key row)
    (h : ∀ row ∈ t.rows, ∀ row' ∈ t.rows, columns (f row) = columns (f row') →
      key row = key row') : ((t.map f hf).rows.map columns).Nodup := by
  rw [rows_map, List.map_map]
  refine (List.nodup_map_iff_inj_on (List.Nodup.of_map key t.nodup)).mpr ?_
  intro row hrow row' hrow' hcolumns
  exact List.inj_on_of_nodup_map t.nodup hrow hrow' (h row hrow row' hrow' hcolumns)

/-! ## Over time -/

/-- The row with an old key is what has become of an old row. -/
structure Evolves (R : α → α → Prop) (t t' : SqlTable α key) : Prop where
  /-- no key is taken back -/
  seq_le : t.seq ≤ t'.seq
  /-- old keys belong to old rows -/
  old : ∀ row' ∈ t'.rows, key row' ≤ t.seq → ∃ row ∈ t.rows, key row = key row' ∧ R row row'

namespace Evolves

theorem refl (hR : ∀ row, R row row) (t : SqlTable α key) : Evolves R t t :=
  ⟨Int.le_refl _, fun row hrow _ => ⟨row, hrow, rfl, hR row⟩⟩

theorem trans (hR : ∀ row row' row'', R row row' → R row' row'' → R row row'')
    (h : Evolves R t t') (h' : Evolves R t' t'') : Evolves R t t'' where
  seq_le := Int.le_trans h.seq_le h'.seq_le
  old row'' hrow'' hle := by
    obtain ⟨row', hrow', hkey', hrel'⟩ := h'.old row'' hrow'' (Int.le_trans hle h.seq_le)
    obtain ⟨row, hrow, hkey, hrel⟩ := h.old row' hrow' (hkey' ▸ hle)
    exact ⟨row, hrow, hkey.trans hkey', hR row row' row'' hrel hrel'⟩

theorem of_extends (hR : ∀ row, R row row) (h : Extends columns t t') : Evolves R t t' where
  seq_le := h.seq_le
  old row hrow hle := by
    rcases h.fresh row hrow with hold | hlt
    · exact ⟨row, hold, rfl, hR row⟩
    · omega

theorem filter (hR : ∀ row, R row row) (t : SqlTable α key) (p : α → Bool) :
    Evolves R t (t.filter p) :=
  ⟨Int.le_refl _, fun row hrow _ => ⟨row, List.mem_of_mem_filter hrow, rfl, hR row⟩⟩

theorem map {f : α → α} (hf : ∀ row, key (f row) = key row) (hR : ∀ row, R row (f row))
    (t : SqlTable α key) : Evolves R t (t.map f hf) where
  seq_le := Int.le_refl _
  old row' hrow' _ := by
    obtain ⟨row, hrow, rfl⟩ := List.mem_map.mp hrow'
    exact ⟨row, hrow, (hf row).symm, hR row⟩

/-- **A key is used once**: what is deleted never comes back. -/
theorem not_mem_keys (h : Evolves R t t') {n : ℤ} (hle : n ≤ t.seq) (hn : n ∉ t.keys) :
    n ∉ t'.keys := by
  intro hmem
  obtain ⟨row', hrow', rfl⟩ := mem_keys.mp hmem
  obtain ⟨row, hrow, hkey, -⟩ := h.old row' hrow' hle
  exact hn (mem_keys.mpr ⟨row, hrow, hkey⟩)

end Evolves

end SqlTable
