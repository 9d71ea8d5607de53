import Mathlib.Data.Int.Notation
import Mathlib.Data.List.DropRight
import Mathlib.Data.List.Nodup

/-!
# A page of rows around a cursor

`ORDER BY` and `LIMIT`, and a query that is common in SQLite: the last rows before a cursor
and the first from it on, each found in its own order, glued together and sorted again.
When the rows have distinct keys, the sorts have only one outcome, and the query gives the
part of the sorted rows that is around the cursor (`page_eq`).

What the page of some rows is can be said without a query, for any rows that can be listed
(`IsPage`); the query is one way to find it (`isPage_page`).
-/

namespace SqlPage

universe u v

variable {α : Type u} (key : α → ℤ)

/-- `ORDER BY key ASC`. -/
def orderAsc (rows : List α) : List α := rows.mergeSort fun a b => key a ≤ key b

/-- `ORDER BY key DESC`. -/
def orderDesc (rows : List α) : List α := rows.mergeSort fun a b => key b ≤ key a

/-- `LIMIT n`; a negative number is no limit. -/
def limit (n : ℤ) (rows : List α) : List α := if n < 0 then rows else rows.take n.toNat

/-- Up to `n` rows before the cursor and up to `n` from it on. -/
def page (cursor n : ℤ) (rows : List α) : List α :=
  let prior := limit n (orderDesc key (rows.filter fun row => key row < cursor))
  let after := limit n (orderAsc key (rows.filter fun row => cursor ≤ key row))
  orderAsc key (prior ++ after)

/-- The last `n` of the given rows before the cursor, and the first `n` from it on. -/
def around (cursor : ℤ) (n : ℕ) (rows : List α) : List α :=
  (rows.filter fun row => key row < cursor).rtake n ++
    (rows.filter fun row => cursor ≤ key row).take n

/-- What is around the cursor; a negative number is no limit. -/
def window (cursor n : ℤ) (rows : List α) : List α :=
  if n < 0 then rows else around key cursor n.toNat rows

variable {key} {rows rows' : List α}

/-- Rows in strictly ascending order. -/
def Ascending (key : α → ℤ) (rows : List α) : Prop := rows.Pairwise fun a b => key a < key b

/-- There is one ascending order of the same rows. -/
theorem Ascending.eq_of_perm (h : Ascending key rows) (h' : Ascending key rows')
    (hperm : rows.Perm rows') : rows = rows' := by
  refine hperm.eq_of_pairwise ?_ h h'
  intro a b _ _ hab hba
  omega

/-- Rows in ascending order are given by what is among them. -/
theorem Ascending.eq_of_mem_iff (h : Ascending key rows) (h' : Ascending key rows')
    (hmem : ∀ row, row ∈ rows ↔ row ∈ rows') : rows = rows' := by
  have hnodup : ∀ {rows : List α}, Ascending key rows → rows.Nodup := fun h =>
    h.imp fun hlt heq => Int.ne_of_lt hlt (congrArg key heq)
  exact h.eq_of_perm h' ((List.perm_ext_iff_of_nodup (hnodup h) (hnodup h')).mpr hmem)

theorem orderAsc_perm (rows : List α) : (orderAsc key rows).Perm rows := List.mergeSort_perm ..

theorem orderDesc_perm (rows : List α) : (orderDesc key rows).Perm rows := List.mergeSort_perm ..

/-- Distinct keys that are in order ascend. -/
theorem ascending_of_le (hle : rows.Pairwise fun a b => key a ≤ key b)
    (hnodup : (rows.map key).Nodup) : Ascending key rows := by
  have hne : rows.Pairwise fun a b => key a ≠ key b := List.pairwise_map.mp hnodup
  exact (hle.and hne).imp fun h => by omega

theorem ascending_orderAsc (hnodup : (rows.map key).Nodup) : Ascending key (orderAsc key rows) := by
  refine ascending_of_le ?_ ?_
  · have hpairwise : (orderAsc key rows).Pairwise fun a b => decide (key a ≤ key b) = true :=
      List.pairwise_mergeSort
        (fun a b c hab hbc => by simp only [decide_eq_true_eq] at hab hbc ⊢; omega)
        (fun a b => by simp only [Bool.or_eq_true, decide_eq_true_eq]; omega) rows
    exact hpairwise.imp fun h => of_decide_eq_true h
  · exact ((orderAsc_perm rows).map key).nodup_iff.mpr hnodup

theorem ascending_reverse_orderDesc (hnodup : (rows.map key).Nodup) :
    Ascending key (orderDesc key rows).reverse := by
  refine ascending_of_le ?_ ?_
  · have hpairwise : (orderDesc key rows).Pairwise fun a b => decide (key b ≤ key a) = true :=
      List.pairwise_mergeSort
        (fun a b c hab hbc => by simp only [decide_eq_true_eq] at hab hbc ⊢; omega)
        (fun a b => by simp only [Bool.or_eq_true, decide_eq_true_eq]; omega) rows
    exact List.pairwise_reverse.mpr (hpairwise.imp fun h => of_decide_eq_true h)
  · have hperm := (List.reverse_perm (orderDesc key rows)).trans (orderDesc_perm rows)
    exact (hperm.map key).nodup_iff.mpr hnodup

/-- Rows that ascend are in order already. -/
theorem orderAsc_eq_of_perm (h : Ascending key rows') (hperm : rows.Perm rows')  :
    orderAsc key rows = rows' := by
  have hnodup : (rows'.map key).Nodup :=
    List.pairwise_map.mpr (h.imp fun hlt => Int.ne_of_lt hlt)
  refine Ascending.eq_of_perm (ascending_orderAsc ?_) h ((orderAsc_perm rows).trans hperm)
  exact (hperm.map key).nodup_iff.mpr hnodup

/-- The descending order is the ascending one reversed. -/
theorem orderDesc_eq_reverse (hnodup : (rows.map key).Nodup) :
    orderDesc key rows = (orderAsc key rows).reverse := by
  have hperm : (orderDesc key rows).reverse.Perm (orderAsc key rows) :=
    ((List.reverse_perm _).trans (orderDesc_perm rows)).trans (orderAsc_perm rows).symm
  have heq : (orderDesc key rows).reverse = orderAsc key rows :=
    (ascending_reverse_orderDesc hnodup).eq_of_perm (ascending_orderAsc hnodup) hperm
  rw [← heq, List.reverse_reverse]

/-- Filtering and sorting can be exchanged. -/
theorem orderAsc_filter (hnodup : (rows.map key).Nodup) (p : α → Bool) :
    orderAsc key (rows.filter p) = (orderAsc key rows).filter p :=
  orderAsc_eq_of_perm (List.Pairwise.filter p (ascending_orderAsc hnodup))
    ((orderAsc_perm rows).filter p).symm

theorem limit_of_nonneg {n : ℤ} (hn : 0 ≤ n) (rows : List α) : limit n rows = rows.take n.toNat :=
  if_neg (by omega)

theorem nodup_filter (hnodup : (rows.map key).Nodup) (p : α → Bool) :
    ((rows.filter p).map key).Nodup :=
  hnodup.sublist (List.filter_sublist.map key)

theorem limit_of_neg {n : ℤ} (hn : n < 0) (rows : List α) : limit n rows = rows := if_pos hn

theorem limit_subset (n : ℤ) (rows : List α) : limit n rows ⊆ rows := by
  unfold limit
  split
  · exact List.Subset.refl rows
  · exact List.take_subset _ rows

/-- The rows around the cursor ascend with all rows. -/
theorem ascending_around (h : Ascending key rows) (cursor : ℤ) (n : ℕ) :
    Ascending key (around key cursor n rows) := by
  have hprior := (List.drop_sublist ((rows.filter fun row => key row < cursor).length - n)
    (rows.filter fun row => key row < cursor))
  have hafter := List.take_sublist n (rows.filter fun row => cursor ≤ key row)
  refine List.pairwise_append.mpr ⟨?_, ?_, ?_⟩
  · exact (h.filter _).sublist hprior
  · exact (h.filter _).sublist hafter
  · intro a ha b hb
    have hlt : key a < cursor := of_decide_eq_true (List.mem_filter.mp (hprior.subset ha)).2
    have hle : cursor ≤ key b := of_decide_eq_true (List.mem_filter.mp (hafter.subset hb)).2
    omega

/-- **The page** is what is around the cursor, among the rows in ascending order. -/
theorem page_eq (hnodup : (rows.map key).Nodup) (cursor : ℤ) {n : ℤ} (hn : 0 ≤ n) :
    page key cursor n rows = around key cursor n.toNat (orderAsc key rows) := by
  have hprior : limit n (orderDesc key (rows.filter fun row => key row < cursor)) =
      (((orderAsc key rows).filter fun row => key row < cursor).rtake n.toNat).reverse := by
    rw [limit_of_nonneg hn, orderDesc_eq_reverse (nodup_filter hnodup _), orderAsc_filter hnodup,
      List.rtake_eq_reverse_take_reverse, List.reverse_reverse]
  have hafter : limit n (orderAsc key (rows.filter fun row => cursor ≤ key row)) =
      ((orderAsc key rows).filter fun row => cursor ≤ key row).take n.toNat := by
    rw [limit_of_nonneg hn, orderAsc_filter hnodup]
  rw [page, hprior, hafter]
  exact orderAsc_eq_of_perm (ascending_around (ascending_orderAsc hnodup) cursor n.toNat)
    ((List.reverse_perm _).append_right _)

/-- A page has no other rows. -/
theorem page_subset (cursor n : ℤ) (rows : List α) : page key cursor n rows ⊆ rows := by
  intro row hrow
  rcases List.mem_append.mp ((orderAsc_perm _).mem_iff.mp hrow) with hprior | hafter
  · exact (List.mem_filter.mp ((orderDesc_perm _).mem_iff.mp (limit_subset n _ hprior))).1
  · exact (List.mem_filter.mp ((orderAsc_perm _).mem_iff.mp (limit_subset n _ hafter))).1

/-- A page without a limit has them all. -/
theorem mem_page_of_neg {row : α} {cursor n : ℤ} (hn : n < 0) (hrow : row ∈ rows) :
    row ∈ page key cursor n rows := by
  refine (orderAsc_perm _).mem_iff.mpr (List.mem_append.mpr ?_)
  rw [limit_of_neg hn, limit_of_neg hn, (orderDesc_perm _).mem_iff, (orderAsc_perm _).mem_iff,
    List.mem_filter, List.mem_filter, decide_eq_true_eq, decide_eq_true_eq]
  by_cases hlt : key row < cursor
  · exact .inl ⟨hrow, hlt⟩
  · exact .inr ⟨hrow, Int.not_lt.mp hlt⟩

/-- Where a cursor splits the rows that ascend. -/
theorem filter_of_ascending {before after : List α} {row : α}
    (h : Ascending key (before ++ row :: after)) :
    ((before ++ row :: after).filter fun other => key other < key row) = before ∧
      ((before ++ row :: after).filter fun other => key row ≤ key other) = row :: after := by
  obtain ⟨-, hafter, hbefore⟩ := List.pairwise_append.mp h
  have hafter' := (List.pairwise_cons.mp hafter).1
  have hbefore' := fun other hother => hbefore other hother row List.mem_cons_self
  constructor
  · rw [List.filter_append, List.filter_eq_self.mpr fun other hother =>
        decide_eq_true (hbefore' other hother), List.filter_eq_nil_iff.mpr, List.append_nil]
    refine List.forall_mem_cons.mpr ⟨by simp, fun other hother => ?_⟩
    have hlt := hafter' other hother
    simp only [decide_eq_true_eq]
    omega
  · rw [List.filter_append, List.filter_eq_nil_iff.mpr, List.nil_append, List.filter_eq_self.mpr]
    · refine List.forall_mem_cons.mpr ⟨by simp, fun other hother => ?_⟩
      exact decide_eq_true (Int.le_of_lt (hafter' other hother))
    · intro other hother
      have hlt := hbefore' other hother
      simp only [decide_eq_true_eq]
      omega

/-- What is around a row that is there: the rows with indices next to its own. -/
theorem around_getElem (h : Ascending key rows) {c : ℕ} {row : α} (hrow : rows[c]? = some row)
    (n : ℕ) : around key (key row) n rows = (rows.take (c + n)).drop (c - n) := by
  obtain ⟨hc, hget⟩ := List.getElem?_eq_some_iff.mp hrow
  have hdrop : rows.drop c = row :: rows.drop (c + 1) := by
    rw [List.drop_eq_getElem_cons hc, hget]
  have hsplit : rows = rows.take c ++ row :: rows.drop (c + 1) := by
    rw [← hdrop, List.take_append_drop]
  have hlength : (rows.take c).length = c := List.length_take_of_le (Nat.le_of_lt hc)
  obtain ⟨hbefore, hafter⟩ := filter_of_ascending (hsplit ▸ h)
  rw [← hsplit] at hbefore hafter
  rw [around, hbefore, hafter, List.rtake, hlength, List.take_add, ← hdrop,
    List.drop_append_of_le_length (by omega)]

/-- A cursor splits the rows that ascend, whether there is a row with this key or not. -/
theorem filter_append_filter (h : Ascending key rows) (cursor : ℤ) :
    (rows.filter fun row => key row < cursor) ++ (rows.filter fun row => cursor ≤ key row) =
      rows := by
  induction rows with
  | nil => rfl
  | cons row rows ih =>
    obtain ⟨hrow, hrows⟩ := List.pairwise_cons.mp h
    by_cases hlt : key row < cursor
    · have hnot : ¬ decide (cursor ≤ key row) = true := by
        simpa using hlt
      rw [List.filter_cons, List.filter_cons, if_pos (decide_eq_true hlt), if_neg hnot,
        List.cons_append, ih hrows]
    · -- all others come later
      have hnone : ((row :: rows).filter fun row => key row < cursor) = [] := by
        refine List.filter_eq_nil_iff.mpr (List.forall_mem_cons.mpr ⟨?_, fun other hother => ?_⟩)
        · simpa using hlt
        · have hother := hrow other hother
          simp only [decide_eq_true_eq]
          omega
      have hall : ((row :: rows).filter fun row => cursor ≤ key row) = row :: rows := by
        refine List.filter_eq_self.mpr (List.forall_mem_cons.mpr ⟨?_, fun other hother => ?_⟩)
        · simpa using hlt
        · have hother := hrow other hother
          simp only [decide_eq_true_eq]
          omega
      rw [hnone, hall, List.nil_append]

/-- **What is around a cursor**: the rows with indices next to where it belongs. -/
theorem around_eq (h : Ascending key rows) (cursor : ℤ) (n : ℕ) : around key cursor n rows =
    (rows.take ((rows.filter fun row => key row < cursor).length + n)).drop
      ((rows.filter fun row => key row < cursor).length - n) := by
  have hsplit := filter_append_filter h cursor
  rw [around, List.rtake]
  generalize (rows.filter fun row => key row < cursor) = before at hsplit ⊢
  generalize (rows.filter fun row => cursor ≤ key row) = after at hsplit ⊢
  rw [← hsplit, List.take_length_add_append, List.drop_append_of_le_length (Nat.sub_le _ _)]

/-! ## The page of what is found -/

theorem window_of_nonneg {n : ℤ} (hn : 0 ≤ n) (cursor : ℤ) (rows : List α) :
    window key cursor n rows = around key cursor n.toNat rows := if_neg (by omega)

theorem window_subset (cursor n : ℤ) (rows : List α) : window key cursor n rows ⊆ rows := by
  unfold window
  split
  · exact List.Subset.refl rows
  · refine List.append_subset.mpr ⟨?_, ?_⟩
    · exact fun row hrow => List.filter_subset_self _ (List.drop_subset _ _ hrow)
    · exact fun row hrow => List.filter_subset_self _ (List.take_subset _ _ hrow)

theorem ascending_window (h : Ascending key rows) (cursor n : ℤ) :
    Ascending key (window key cursor n rows) := by
  unfold window
  split
  · exact h
  · exact ascending_around h cursor n.toNat

/-- **The page**, whatever its limit is. -/
theorem page_eq_window (hnodup : (rows.map key).Nodup) (cursor n : ℤ) :
    page key cursor n rows = window key cursor n (orderAsc key rows) := by
  by_cases hn : n < 0
  · have hsorted := ascending_orderAsc hnodup
    rw [window, if_pos hn, page, limit_of_neg hn, limit_of_neg hn]
    refine orderAsc_eq_of_perm hsorted (((orderDesc_perm _).append (orderAsc_perm _)).trans ?_)
    -- the cursor splits the rows
    rw [← filter_append_filter hsorted cursor]
    exact ((orderAsc_perm rows).filter _).symm.append ((orderAsc_perm rows).filter _).symm
  · rw [page_eq hnodup cursor (Int.not_lt.mp hn), window_of_nonneg (Int.not_lt.mp hn)]

/-- There is nothing around the cursor if and only if there is nothing at all, or nothing wanted. -/
theorem window_eq_nil_iff (h : Ascending key rows) {cursor n : ℤ} :
    window key cursor n rows = [] ↔ n = 0 ∨ rows = [] := by
  have hsplit : rows = [] ↔ (rows.filter fun row => key row < cursor) = [] ∧
      (rows.filter fun row => cursor ≤ key row) = [] := by
    rw [← List.append_eq_nil_iff, filter_append_filter h cursor]
  unfold window
  split
  · case isTrue hn =>
    exact (or_iff_right (Int.ne_of_lt hn)).symm
  · case isFalse hn =>
    rw [around, List.append_eq_nil_iff, List.rtake, List.drop_eq_nil_iff, List.take_eq_nil_iff,
      hsplit, ← List.length_eq_zero_iff, ← List.length_eq_zero_iff]
    omega

/-- **The page of what is found**: what is around the cursor, of all that is found, in ascending
order. -/
def IsPage (key : α → ℤ) (found : α → Prop) (cursor n : ℤ) (rows : List α) : Prop :=
  ∃ sorted, Ascending key sorted ∧ (∀ row, row ∈ sorted ↔ found row) ∧
    window key cursor n sorted = rows

/-- A row is on the page. -/
def OnPage (key : α → ℤ) (found : α → Prop) (cursor n : ℤ) (row : α) : Prop :=
  ∃ rows, IsPage key found cursor n rows ∧ row ∈ rows

/-- **The query gives the page** of its rows. -/
theorem isPage_page (hnodup : (rows.map key).Nodup) (cursor n : ℤ) :
    IsPage key (· ∈ rows) cursor n (page key cursor n rows) :=
  ⟨_, ascending_orderAsc hnodup, fun _ => (orderAsc_perm rows).mem_iff,
    (page_eq_window hnodup cursor n).symm⟩

section IsPage

variable {found : α → Prop} {cursor n : ℤ}

/-- There is one page. -/
theorem IsPage.unique (h : IsPage key found cursor n rows) (h' : IsPage key found cursor n rows') :
    rows = rows' := by
  obtain ⟨sorted, hsorted, hmem, rfl⟩ := h
  obtain ⟨sorted', hsorted', hmem', rfl⟩ := h'
  rw [hsorted.eq_of_mem_iff hsorted' fun row => (hmem row).trans (hmem' row).symm]

theorem IsPage.ascending (h : IsPage key found cursor n rows) : Ascending key rows := by
  obtain ⟨sorted, hsorted, -, rfl⟩ := h
  exact ascending_window hsorted cursor n

theorem IsPage.of_mem {row : α} (h : IsPage key found cursor n rows) (hrow : row ∈ rows) :
    found row := by
  obtain ⟨sorted, -, hmem, rfl⟩ := h
  exact (hmem row).mp (window_subset cursor n sorted hrow)

theorem IsPage.mem_iff {row : α} (h : IsPage key found cursor n rows) :
    row ∈ rows ↔ OnPage key found cursor n row := by
  constructor
  · exact fun hrow => ⟨rows, h, hrow⟩
  · rintro ⟨rows', h', hrow⟩
    rwa [h.unique h']

/-- A page is empty if nothing is found, or nothing is wanted. -/
theorem IsPage.eq_nil_iff (h : IsPage key found cursor n rows) :
    rows = [] ↔ n = 0 ∨ ∀ row, ¬found row := by
  obtain ⟨sorted, hsorted, hmem, rfl⟩ := h
  rw [window_eq_nil_iff hsorted, List.eq_nil_iff_forall_not_mem]
  simp only [hmem]

end IsPage

/-! ## Rows that are changed, but keep their keys -/

section Map

variable {β : Type v} {key' : β → ℤ} {f : α → β}

theorem orderAsc_map (hf : ∀ row ∈ rows, key' (f row) = key row) :
    orderAsc key' (rows.map f) = (orderAsc key rows).map f := by
  refine (List.map_mergeSort fun a ha b hb => ?_).symm
  rw [hf a ha, hf b hb]

theorem orderDesc_map (hf : ∀ row ∈ rows, key' (f row) = key row) :
    orderDesc key' (rows.map f) = (orderDesc key rows).map f := by
  refine (List.map_mergeSort fun a ha b hb => ?_).symm
  rw [hf a ha, hf b hb]

theorem limit_map (n : ℤ) : limit n (rows.map f) = (limit n rows).map f := by
  unfold limit
  split
  · rfl
  · exact List.map_take.symm

theorem filter_key_map (hf : ∀ row ∈ rows, key' (f row) = key row) (p : ℤ → Bool) :
    ((rows.map f).filter fun row => p (key' row)) =
      (rows.filter fun row => p (key row)).map f := by
  rw [List.filter_map]
  exact congrArg _ (List.filter_congr fun row hrow => congrArg p (hf row hrow))

/-- The page is the same. -/
theorem page_map (hf : ∀ row ∈ rows, key' (f row) = key row) (cursor n : ℤ) :
    page key' cursor n (rows.map f) = (page key cursor n rows).map f := by
  have hpart : ∀ {part : List α}, part ⊆ rows → ∀ row ∈ part, key' (f row) = key row :=
    fun hsub row hrow => hf row (hsub hrow)
  have hprior : limit n (orderDesc key (rows.filter fun row => key row < cursor)) ⊆ rows :=
    fun row hrow => (List.mem_filter.mp ((orderDesc_perm _).mem_iff.mp (limit_subset n _ hrow))).1
  have hafter : limit n (orderAsc key (rows.filter fun row => cursor ≤ key row)) ⊆ rows :=
    fun row hrow => (List.mem_filter.mp ((orderAsc_perm _).mem_iff.mp (limit_subset n _ hrow))).1
  have hlt := filter_key_map hf fun k => decide (k < cursor)
  have hle := filter_key_map hf fun k => decide (cursor ≤ k)
  simp only [page]
  rw [hlt, hle, orderDesc_map (hpart (List.filter_subset_self _)),
    orderAsc_map (hpart (List.filter_subset_self _)), limit_map, limit_map, ← List.map_append,
    orderAsc_map (hpart (List.append_subset.mpr ⟨hprior, hafter⟩))]

end Map

end SqlPage
