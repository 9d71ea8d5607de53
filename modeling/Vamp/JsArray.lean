import Mathlib.Data.Int.Notation
import Mathlib.Data.List.InsertIdx
import Mathlib.Data.List.Perm.Basic

/-!
# Arrays of JavaScript

What methods of arrays do that have indices, or callbacks that may throw. An array is a list. An
element that may be undefined is an `Option`, and a callback that reads a property of it throws;
`none` as a result is an exception.

On an array in which everything is defined, callbacks do not throw, and the methods are those
of lists (`anyM_map_some` and the like). Two calls of `splice` move an element
(`moved_splice`).
-/

namespace JsArray

variable {α β : Type}

/-! ## The methods -/

/-- `array[i]`. -/
def get (xs : List α) (i : ℤ) : Option α := if 0 ≤ i then xs[i.toNat]? else none

/-- Where `splice` starts. A negative number counts from the end. -/
def spliceStart (length : ℕ) (start : ℤ) : ℕ :=
  if start < 0 then (length + start).toNat else min start.toNat length

/-- `array.splice(start, deleteCount, ...items)`: what is returned, and the array. -/
def splice (xs : List α) (start deleteCount : ℤ) (items : List α) : List α × List α :=
  let first := spliceStart xs.length start
  let count := min deleteCount.toNat (xs.length - first)
  ((xs.drop first).take count, xs.take first ++ items ++ xs.drop (first + count))

/-- `array.findIndex(p)`, with a callback that does not throw. -/
def findIndex (p : α → Bool) (xs : List α) : ℤ := (xs.findIdx? p).elim (-1) Int.ofNat

/-- `array.findIndex(p)`, from an index on. -/
def findIndexFromM (p : α → Option Bool) (i : ℤ) : List α → Option ℤ
  | [] => some (-1)
  | x :: xs => do if ← p x then some i else findIndexFromM p (i + 1) xs

/-- `array.findIndex(p)`. -/
def findIndexM (p : α → Option Bool) (xs : List α) : Option ℤ := findIndexFromM p 0 xs

/-! ## Callbacks that do not throw -/

section Defined

variable {p : α → Bool} {xs : List α}

theorem mapM_of_forall {f : α → Option β} {g : α → β} (h : ∀ x ∈ xs, f x = some (g x)) :
    xs.mapM f = some (xs.map g) := by
  induction xs with
  | nil => rfl
  | cons x xs ih =>
    obtain ⟨hx, hxs⟩ := List.forall_mem_cons.mp h
    rw [List.mapM_cons, hx, ih hxs]
    rfl

theorem anyM_map_some : (xs.map some).anyM (Option.map p) = some (xs.any p) := by
  induction xs with
  | nil => rfl
  | cons x xs ih =>
    rw [List.map_cons, List.anyM, Option.map_some, List.any_cons, ih]
    cases p x <;> rfl

theorem filterAuxM_map_some (acc : List (Option α)) :
    (xs.map some).filterAuxM (Option.map p) acc =
      some (((xs.filter p).map some).reverse ++ acc) := by
  induction xs generalizing acc with
  | nil => rfl
  | cons x xs ih =>
    rw [List.map_cons, List.filterAuxM, Option.map_some, Option.bind_eq_bind, Option.bind_some, ih,
      List.filter_cons]
    cases p x with
    | true => rw [if_pos rfl, List.map_cons, List.reverse_cons, List.append_assoc]; rfl
    | false => rfl

theorem filterM_map_some :
    (xs.map some).filterM (Option.map p) = some ((xs.filter p).map some) := by
  rw [List.filterM, filterAuxM_map_some, List.append_nil, Option.bind_eq_bind, Option.bind_some,
    List.reverse_reverse]
  rfl

theorem findIndexFromM_map_some (i : ℤ) :
    findIndexFromM (Option.map p) i (xs.map some) =
      some ((xs.findIdx? p).elim (-1) fun j => i + j) := by
  induction xs generalizing i with
  | nil => rfl
  | cons x xs ih =>
    rw [List.map_cons, findIndexFromM, Option.map_some, List.findIdx?_cons, ih]
    cases hx : p x with
    | true => simp
    | false =>
      cases xs.findIdx? p with
      | none => simp
      | some j => simp; omega

theorem findIndexM_map_some :
    findIndexM (Option.map p) (xs.map some) = some (findIndex p xs) := by
  rw [findIndexM, findIndexFromM_map_some, findIndex]
  cases xs.findIdx? p with
  | none => rfl
  | some i => exact congrArg some (Int.zero_add _)

/-- An index that is found is one of an element with the property. -/
theorem findIndex_cases (p : α → Bool) (xs : List α) :
    (findIndex p xs = -1 ∧ ∀ x ∈ xs, p x = false) ∨
      ∃ (i : ℕ) (x : α), findIndex p xs = i ∧ xs[i]? = some x ∧ p x = true := by
  rw [findIndex]
  cases hfound : xs.findIdx? p with
  | none => exact .inl ⟨rfl, List.findIdx?_eq_none_iff.mp hfound⟩
  | some i =>
    obtain ⟨hi, hp, -⟩ := List.findIdx?_eq_some_iff_getElem.mp hfound
    exact .inr ⟨i, xs[i], rfl, List.getElem?_eq_getElem hi, hp⟩

end Defined

/-! ## Moving an element -/

/-- An element was taken out at one index and put in at another. -/
structure Moved (xs : List α) (i j : ℕ) (ys : List α) : Prop where
  /-- it is a permutation -/
  perm : ys.Perm xs
  /-- the element is at its new index -/
  moved : ys[j]? = xs[i]?
  /-- the others are in the same order -/
  others : ys.eraseIdx j = xs.eraseIdx i

section Moving

variable {xs ys : List α} {i j : ℕ}

theorem moved_insertIdx (hi : i < xs.length) (hj : j < xs.length) :
    Moved xs i j ((xs.eraseIdx i).insertIdx j xs[i]) := by
  have hlength : j ≤ (xs.eraseIdx i).length := by
    rw [List.length_eraseIdx_of_lt hi]
    omega
  refine ⟨?_, ?_, List.eraseIdx_insertIdx_self xs[i]⟩
  · exact (List.perm_insertIdx xs[i] (xs.eraseIdx i) hlength).trans
      (List.getElem_cons_eraseIdx_perm hi)
  · rw [List.getElem?_insertIdx_self, if_pos hlength, List.getElem?_eq_getElem hi]

theorem splice_delete (hi : i < xs.length) (items : List α) :
    splice xs i 1 items = ([xs[i]], xs.take i ++ items ++ xs.drop (i + 1)) := by
  have hstart : spliceStart xs.length i = i := by
    rw [spliceStart, if_neg (Int.not_lt.mpr (Int.natCast_nonneg i)), Int.toNat_natCast]
    omega
  have hcount : min (Int.toNat 1) (xs.length - i) = 1 := by
    rw [Int.toNat_one]
    omega
  rw [splice, hstart, hcount, List.drop_eq_getElem_cons hi]
  rfl

theorem splice_insert (hj : j ≤ xs.length) (items : List α) :
    splice xs j 0 items = ([], xs.take j ++ items ++ xs.drop j) := by
  have hstart : spliceStart xs.length j = j := by
    rw [spliceStart, if_neg (Int.not_lt.mpr (Int.natCast_nonneg j)), Int.toNat_natCast]
    omega
  rw [splice, hstart, Int.toNat_zero, Nat.zero_min, List.take_zero, Nat.add_zero]

theorem insertIdx_eq_take_drop {x : α} (hj : j ≤ xs.length) :
    xs.insertIdx j x = xs.take j ++ [x] ++ xs.drop j := by
  induction xs generalizing j with
  | nil =>
    obtain rfl : j = 0 := Nat.le_zero.mp hj
    rfl
  | cons y xs ih =>
    cases j with
    | zero => rfl
    | succ j =>
      rw [List.insertIdx_succ_cons, ih (Nat.le_of_succ_le_succ hj)]
      rfl

/-- Take an element out at one index, and put it in at another. -/
theorem moved_splice (hi : i < xs.length) (hj : j < xs.length) :
    (splice xs i 1 []).1 = [xs[i]] ∧
      Moved xs i j (splice (splice xs i 1 []).2 j 0 [xs[i]]).2 := by
  have herase : xs.take i ++ [] ++ xs.drop (i + 1) = xs.eraseIdx i := by
    rw [List.append_nil, List.eraseIdx_eq_take_drop_succ]
  have hlength : j ≤ (xs.eraseIdx i).length := by
    rw [List.length_eraseIdx_of_lt hi]
    omega
  rw [splice_delete hi, herase]
  refine ⟨rfl, ?_⟩
  rw [splice_insert hlength, ← insertIdx_eq_take_drop hlength]
  exact moved_insertIdx hi hj

end Moving

end JsArray
