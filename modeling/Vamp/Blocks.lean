import Mathlib.Algebra.Ring.Nat
import Mathlib.Data.List.Count
import Mathlib.Data.List.Induction
import Mathlib.Data.List.Infix
import Mathlib.Tactic.Basic

/-!
# Lists in blocks

A list is cut into blocks of `n` elements from its start, and a rest that is shorter
(`List.blocks`). Who pays for `n` elements when a block is full pays to its last element
(`Blocks.lasts`). Then no element is ever paid for more than it was there, if and only if every
block is uniform (`count_lasts_le_iff`).
-/

universe u

/-- Some blocks, and what follows them. -/
structure Blocks (α : Type u) : Type u where
  /-- the blocks -/
  full : List (List α)
  /-- the next block, as far as it goes -/
  rest : List α

namespace Blocks

variable {α : Type u}

/-- One element more. -/
def push (n : ℕ) (b : Blocks α) (x : α) : Blocks α :=
  if b.rest.length + 1 < n then { b with rest := b.rest ++ [x] }
  else ⟨b.full ++ [b.rest ++ [x]], []⟩

/-- The last elements of the blocks. -/
def lasts (b : Blocks α) : List α := b.full.filterMap List.getLast?

/-- Every block consists of one element, `n` times. -/
def Uniform (n : ℕ) (b : Blocks α) : Prop := ∀ block ∈ b.full, ∃ x, block = List.replicate n x

end Blocks

namespace List

open Blocks

variable {α : Type u} {n : ℕ}

/-- The blocks of a list. -/
def blocks (n : ℕ) (xs : List α) : Blocks α := xs.foldl (push n) ⟨[], []⟩

theorem blocks_concat (xs : List α) (x : α) :
    (xs ++ [x]).blocks n = (xs.blocks n).push n x := by
  rw [blocks, foldl_append]
  rfl

/-- The next element does not fill the block. -/
theorem blocks_concat_of_lt {xs : List α} {x : α} (h : (xs.blocks n).rest.length + 1 < n) :
    (xs ++ [x]).blocks n = ⟨(xs.blocks n).full, (xs.blocks n).rest ++ [x]⟩ := by
  rw [blocks_concat, push, if_pos h]

/-- The next element fills the block. -/
theorem blocks_concat_of_not_lt {xs : List α} {x : α} (h : ¬ (xs.blocks n).rest.length + 1 < n) :
    (xs ++ [x]).blocks n = ⟨(xs.blocks n).full ++ [(xs.blocks n).rest ++ [x]], []⟩ := by
  rw [blocks_concat, push, if_neg h]

/-- Blocks are cut out of a list. -/
theorem flatten_blocks (xs : List α) : (xs.blocks n).full.flatten ++ (xs.blocks n).rest = xs := by
  induction xs using List.reverseRecOn with
  | nil => rfl
  | append_singleton xs x ih =>
    by_cases h : (xs.blocks n).rest.length + 1 < n
    · rw [blocks_concat_of_lt h, ← append_assoc, ih]
    · rw [blocks_concat_of_not_lt h, flatten_append, flatten_singleton, append_nil,
        ← append_assoc, ih]

/-- The rest is shorter than a block. -/
theorem length_rest_lt (hn : 0 < n) (xs : List α) : (xs.blocks n).rest.length < n := by
  induction xs using List.reverseRecOn with
  | nil => exact hn
  | append_singleton xs x ih =>
    by_cases h : (xs.blocks n).rest.length + 1 < n
    · rw [blocks_concat_of_lt h, length_append]
      exact h
    · rw [blocks_concat_of_not_lt h]
      exact hn

/-- Blocks are as long as they are said to be. -/
theorem length_of_mem_blocks (hn : 0 < n) {xs : List α} :
    ∀ block ∈ (xs.blocks n).full, block.length = n := by
  induction xs using List.reverseRecOn with
  | nil => exact nofun
  | append_singleton xs x ih =>
    by_cases h : (xs.blocks n).rest.length + 1 < n
    · rw [blocks_concat_of_lt h]
      exact ih
    · rw [blocks_concat_of_not_lt h]
      have hlt := length_rest_lt hn xs
      refine forall_mem_append.mpr ⟨ih, forall_mem_singleton.mpr ?_⟩
      rw [length_append, length_singleton]
      omega

/-- Every block has a last element. -/
theorem length_lasts (hn : 0 < n) (xs : List α) :
    (xs.blocks n).lasts.length = (xs.blocks n).full.length := by
  have hlasts : ∀ blocks : List (List α), (∀ block ∈ blocks, block.length = n) →
      (blocks.filterMap getLast?).length = blocks.length := by
    intro blocks h
    induction blocks with
    | nil => rfl
    | cons block blocks ih =>
      obtain ⟨hblock, hblocks⟩ := forall_mem_cons.mp h
      have hne : block ≠ [] := ne_nil_of_length_pos (by omega)
      rw [filterMap_cons, getLast?_eq_some_getLast hne, length_cons, length_cons, ih hblocks]
  exact hlasts _ (length_of_mem_blocks hn)

/-- Nothing is lost: what is not paid for is in the rest. -/
theorem length_eq (hn : 0 < n) (xs : List α) :
    xs.length = n * (xs.blocks n).lasts.length + (xs.blocks n).rest.length := by
  have hsum : ((xs.blocks n).full.map length).sum = n * (xs.blocks n).full.length := by
    rw [map_congr_left (length_of_mem_blocks hn), map_const', sum_replicate_nat,
      Nat.mul_comm]
  rw [length_lasts hn, ← hsum, ← length_flatten, ← length_append, flatten_blocks]

theorem lasts_concat_of_lt {xs : List α} {x : α} (h : (xs.blocks n).rest.length + 1 < n) :
    ((xs ++ [x]).blocks n).lasts = (xs.blocks n).lasts := by
  rw [blocks_concat_of_lt h]
  rfl

theorem lasts_concat_of_not_lt {xs : List α} {x : α} (h : ¬ (xs.blocks n).rest.length + 1 < n) :
    ((xs ++ [x]).blocks n).lasts = (xs.blocks n).lasts ++ [x] := by
  rw [blocks_concat_of_not_lt h, lasts, filterMap_append, filterMap_cons, getLast?_concat]
  rfl

/-- When a block is full, it is uniform or not. -/
theorem uniform_concat_of_not_lt {xs : List α} {x : α} (hn : 0 < n)
    (h : ¬ (xs.blocks n).rest.length + 1 < n) :
    ((xs ++ [x]).blocks n).Uniform n ↔
      (xs.blocks n).Uniform n ∧ ∀ y ∈ (xs.blocks n).rest, y = x := by
  have hlt := length_rest_lt hn xs
  rw [blocks_concat_of_not_lt h, Uniform, forall_mem_append, forall_mem_singleton]
  refine and_congr_right fun _ => ?_
  simp only [eq_replicate_iff, length_append, length_singleton, forall_mem_append,
    forall_mem_singleton]
  constructor
  · rintro ⟨c, -, hrest, rfl⟩
    exact hrest
  · intro hrest
    exact ⟨x, by omega, hrest, rfl⟩

theorem uniform_of_concat {xs : List α} {x : α} (hn : 0 < n)
    (h : ((xs ++ [x]).blocks n).Uniform n) : (xs.blocks n).Uniform n := by
  by_cases hlt : (xs.blocks n).rest.length + 1 < n
  · rw [blocks_concat_of_lt hlt] at h
    exact h
  · exact ((uniform_concat_of_not_lt hn hlt).mp h).1

/-- The blocks of a prefix are blocks of the list. -/
theorem uniform_of_initial {xs ys : List α} (hn : 0 < n) (h : (xs.blocks n).Uniform n)
    (hinit : ys <+: xs) : (ys.blocks n).Uniform n := by
  obtain ⟨zs, rfl⟩ := hinit
  induction zs using List.reverseRecOn with
  | nil => rwa [append_nil] at h
  | append_singleton zs z ih =>
    rw [← append_assoc] at h
    exact ih (uniform_of_concat hn h)

section Count

variable [DecidableEq α]

/-- What is paid to an element of uniform blocks, it was there for. -/
theorem count_of_uniform {xs : List α} (hn : 0 < n) (h : (xs.blocks n).Uniform n) (x : α) :
    xs.count x = n * (xs.blocks n).lasts.count x + (xs.blocks n).rest.count x := by
  induction xs using List.reverseRecOn with
  | nil => rfl
  | append_singleton xs y ih =>
    have hbefore := ih (uniform_of_concat hn h)
    by_cases hlt : (xs.blocks n).rest.length + 1 < n
    · rw [lasts_concat_of_lt hlt, blocks_concat_of_lt hlt, count_append, count_append, hbefore,
        Nat.add_assoc]
    · obtain ⟨-, hrest⟩ := (uniform_concat_of_not_lt hn hlt).mp h
      have hlength := length_rest_lt hn xs
      rw [lasts_concat_of_not_lt hlt, blocks_concat_of_not_lt hlt, count_append, count_append,
        hbefore, count_nil, eq_replicate_of_mem hrest, count_replicate, count_singleton]
      by_cases hy : y = x
      · have hlen : (xs.blocks n).rest.length = n - 1 := by omega
        simp only [hy, beq_self_eq_true, if_true, hlen, Nat.mul_add, Nat.mul_one]
        omega
      · simp [hy]

/-- **No element is paid for too much** in any prefix, if and only if all blocks are uniform. -/
theorem count_lasts_le_iff {xs : List α} (hn : 0 < n) :
    (∀ ys, ys <+: xs → ∀ x, n * (ys.blocks n).lasts.count x ≤ ys.count x) ↔
      (xs.blocks n).Uniform n := by
  constructor
  · intro h
    induction xs using List.reverseRecOn with
    | nil => exact nofun
    | append_singleton xs x ih =>
      have huniform := ih fun ys hys => h ys (hys.trans (prefix_append xs [x]))
      by_cases hlt : (xs.blocks n).rest.length + 1 < n
      · rw [blocks_concat_of_lt hlt]
        exact huniform
      · refine (uniform_concat_of_not_lt hn hlt).mpr ⟨huniform, ?_⟩
        -- the block is paid to its last element, so this is the only one in it
        have hpaid := h _ prefix_rfl x
        rw [lasts_concat_of_not_lt hlt, count_append, count_append, count_of_uniform hn huniform x,
          count_singleton_self, Nat.mul_add, Nat.mul_one] at hpaid
        have hlength := length_rest_lt hn xs
        have hcount := count_le_length (a := x) (l := (xs.blocks n).rest)
        have hall : (xs.blocks n).rest.count x = (xs.blocks n).rest.length := by omega
        exact fun y hy => (count_eq_length.mp hall y hy).symm
  · intro h ys hys x
    rw [count_of_uniform hn (uniform_of_initial hn h hys) x]
    exact Nat.le_add_right _ _

end Count

end List
