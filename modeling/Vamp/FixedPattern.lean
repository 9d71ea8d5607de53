import Mathlib.Data.List.Infix

/-!
# Patterns of a fixed length

A regular expression without repetitions and alternatives is a class of elements for each place.
Some places lead to a group, which is captured. A pattern is found at the first place where it fits,
or, if it is anchored, only as a whole.

What is found fits the pattern (`find_eq_some`), and something is found if anything fits
(`find_isSome_iff`).
-/

/-- A pattern: a class for each place. -/
structure FixedPattern (α : Type) : Type where
  /-- the places before the group -/
  lead : List (α → Bool)
  /-- the group at the end -/
  group : List (α → Bool)
  /-- nothing stands before or after it -/
  anchored : Bool

namespace FixedPattern

variable {α : Type}

/-- A text is in the classes, place by place. -/
def fits : List (α → Bool) → List α → Bool
  | [], [] => true
  | c :: cs, x :: xs => c x && fits cs xs
  | _, _ => false

/-- A place in a text where a pattern was found. -/
structure Found (α : Type) : Type where
  before : List α
  lead : List α
  group : List α
  after : List α
  deriving DecidableEq

/-- The text in which something was found. -/
def Found.text (m : Found α) : List α := m.before ++ m.lead ++ m.group ++ m.after

/-- What the start of a text is to a pattern. -/
def split (p : FixedPattern α) (xs : List α) : Found α :=
  ⟨[], xs.take p.lead.length, (xs.drop p.lead.length).take p.group.length,
    (xs.drop p.lead.length).drop p.group.length⟩

/-- The pattern at the start of a text. -/
def findHere (p : FixedPattern α) (xs : List α) : Option (Found α) :=
  if fits p.lead (p.split xs).lead && fits p.group (p.split xs).group &&
      (!p.anchored || (p.split xs).after.isEmpty) then
    some (p.split xs)
  else none

/-- The pattern at the first place where it fits. -/
def search (p : FixedPattern α) : List α → Option (Found α)
  | [] => p.findHere []
  | x :: xs =>
    (p.findHere (x :: xs)).or ((p.search xs).map fun m => { m with before := x :: m.before })

/-- The first match in a text. -/
def find (p : FixedPattern α) (xs : List α) : Option (Found α) :=
  if p.anchored then p.findHere xs else p.search xs

/-- **A match** of a pattern. -/
structure Fits (p : FixedPattern α) (m : Found α) : Prop where
  /-- what leads to the group -/
  lead : fits p.lead m.lead = true
  /-- the group -/
  group : fits p.group m.group = true
  /-- nothing else, if it is anchored -/
  anchored : p.anchored = true → m.before = [] ∧ m.after = []

/-! ## Classes -/

section Classes

variable {cs : List (α → Bool)} {xs : List α}

theorem length_of_fits (h : fits cs xs = true) : xs.length = cs.length := by
  induction cs generalizing xs with
  | nil =>
    cases xs with
    | nil => rfl
    | cons x xs => cases h
  | cons c cs ih =>
    cases xs with
    | nil => cases h
    | cons x xs => exact congrArg (· + 1) (ih (Bool.and_eq_true_iff.mp h).2)

/-- Each class has an element in a text that fits. -/
theorem exists_mem_of_fits {c : α → Bool} (hc : c ∈ cs) (h : fits cs xs = true) :
    ∃ x ∈ xs, c x = true := by
  induction cs generalizing xs with
  | nil => cases hc
  | cons c' cs ih =>
    cases xs with
    | nil => cases h
    | cons x xs =>
      obtain ⟨hx, hxs⟩ := Bool.and_eq_true_iff.mp h
      rcases List.mem_cons.mp hc with rfl | hc
      · exact ⟨x, List.mem_cons_self, hx⟩
      · obtain ⟨y, hy, hcy⟩ := ih hc hxs
        exact ⟨y, List.mem_cons_of_mem x hy, hcy⟩

/-- A class for all places. -/
theorem fits_replicate_iff {c : α → Bool} {n : ℕ} :
    fits (List.replicate n c) xs = true ↔ xs.length = n ∧ ∀ x ∈ xs, c x = true := by
  induction n generalizing xs with
  | zero =>
    cases xs with
    | nil => exact iff_of_true rfl ⟨rfl, List.forall_mem_nil _⟩
    | cons x xs => exact iff_of_false Bool.false_ne_true fun h => Nat.succ_ne_zero _ h.1
  | succ n ih =>
    cases xs with
    | nil => exact iff_of_false Bool.false_ne_true fun h => Nat.succ_ne_zero n h.1.symm
    | cons x xs =>
      rw [List.replicate_succ, fits, Bool.and_eq_true_iff, ih, List.length_cons,
        List.forall_mem_cons, Nat.add_right_cancel_iff]
      exact and_left_comm

/-- Classes of one element each spell a text. -/
theorem fits_singletons_iff [DecidableEq α] {ys : List α} :
    fits (ys.map fun y x => decide (x = y)) xs = true ↔ xs = ys := by
  induction ys generalizing xs with
  | nil =>
    cases xs with
    | nil => exact iff_of_true rfl rfl
    | cons x xs => exact iff_of_false Bool.false_ne_true (List.cons_ne_nil x xs)
  | cons y ys ih =>
    cases xs with
    | nil => exact iff_of_false Bool.false_ne_true (List.cons_ne_nil y ys).symm
    | cons x xs =>
      rw [List.map_cons, fits, Bool.and_eq_true_iff, ih, decide_eq_true_iff, List.cons.injEq]

end Classes

/-! ## Matches -/

section Matches

variable {p : FixedPattern α} {xs : List α} {m : Found α}

theorem text_split : (p.split xs).text = xs := by
  rw [Found.text, split, List.nil_append, List.append_assoc, List.take_append_drop,
    List.take_append_drop]

theorem findHere_eq_some (h : p.findHere xs = some m) :
    m.text = xs ∧ m.before = [] ∧ p.Fits m := by
  unfold findHere at h
  split at h
  · rename_i hfits
    obtain rfl := Option.some.inj h
    simp only [Bool.and_eq_true, Bool.or_eq_true, Bool.not_eq_true', List.isEmpty_iff] at hfits
    obtain ⟨⟨hlead, hgroup⟩, hafter⟩ := hfits
    refine ⟨text_split, rfl, hlead, hgroup, fun hanchored => ⟨rfl, hafter.resolve_left ?_⟩⟩
    exact fun hfree => Bool.false_ne_true (hfree.symm.trans hanchored)
  · cases h

theorem search_eq_some (hanchored : p.anchored = false) (h : p.search xs = some m) :
    m.text = xs ∧ p.Fits m := by
  induction xs generalizing m with
  | nil =>
    obtain ⟨htext, -, hfits⟩ := findHere_eq_some h
    exact ⟨htext, hfits⟩
  | cons x xs ih =>
    rw [search] at h
    cases hhere : p.findHere (x :: xs) with
    | some m' =>
      rw [hhere, Option.some_or] at h
      obtain rfl := Option.some.inj h
      obtain ⟨htext, -, hfits⟩ := findHere_eq_some hhere
      exact ⟨htext, hfits⟩
    | none =>
      rw [hhere, Option.none_or] at h
      obtain ⟨m', hm', rfl⟩ := Option.map_eq_some_iff.mp h
      obtain ⟨htext, hlead, hgroup, -⟩ := ih hm'
      refine ⟨congrArg (x :: ·) htext, hlead, hgroup, fun hyes => ?_⟩
      cases hyes.symm.trans hanchored

/-- **What is found** is a match. -/
theorem find_eq_some (h : p.find xs = some m) : m.text = xs ∧ p.Fits m := by
  unfold find at h
  cases hanchored : p.anchored with
  | true =>
    rw [hanchored, if_pos rfl] at h
    obtain ⟨htext, -, hfits⟩ := findHere_eq_some h
    exact ⟨htext, hfits⟩
  | false =>
    rw [hanchored, if_neg Bool.false_ne_true] at h
    exact search_eq_some hanchored h

/-- What fits at the start of a text is found there. -/
theorem findHere_of_fits (hfits : p.Fits m) (hbefore : m.before = []) :
    p.findHere m.text = some m := by
  obtain ⟨before, lead, group, after⟩ := m
  obtain rfl : before = [] := hbefore
  obtain ⟨hlead, hgroup, hanchored⟩ := hfits
  have hsplit : p.split (lead ++ group ++ after) = ⟨[], lead, group, after⟩ := by
    rw [split, ← length_of_fits hlead, ← length_of_fits hgroup, List.append_assoc,
      List.take_left, List.drop_left, List.take_left, List.drop_left]
  have hafter : (!p.anchored || after.isEmpty) = true := by
    cases h : p.anchored with
    | false => rfl
    | true => exact List.isEmpty_iff.mpr (hanchored h).2
  rw [Found.text, List.nil_append, findHere, hsplit, hlead, hgroup, hafter]
  rfl

theorem isSome_search (hfits : p.Fits m) : (p.search m.text).isSome = true := by
  obtain ⟨before, lead, group, after⟩ := m
  induction before with
  | nil =>
    have hhere := findHere_of_fits hfits rfl
    generalize hxs : (⟨[], lead, group, after⟩ : Found α).text = xs at hhere ⊢
    cases xs with
    | nil => rw [search, hhere, Option.isSome_some]
    | cons x xs => rw [search, hhere, Option.some_or, Option.isSome_some]
  | cons x before ih =>
    have hfree : p.anchored ≠ true := fun h => List.cons_ne_nil _ _ (hfits.anchored h).1
    have hlater := ih ⟨hfits.lead, hfits.group, fun h => absurd h hfree⟩
    have htext : (⟨x :: before, lead, group, after⟩ : Found α).text =
        x :: (⟨before, lead, group, after⟩ : Found α).text := rfl
    rw [htext, search, Option.isSome_or, Option.isSome_map, hlater, Bool.or_true]

/-- **Something is found** if and only if the pattern fits somewhere. -/
theorem find_isSome_iff : (p.find xs).isSome = true ↔ ∃ m : Found α, m.text = xs ∧ p.Fits m := by
  constructor
  · intro h
    obtain ⟨m, hm⟩ := Option.isSome_iff_exists.mp h
    exact ⟨m, find_eq_some hm⟩
  · rintro ⟨m, rfl, hfits⟩
    unfold find
    split
    · rename_i hanchored
      rw [findHere_of_fits hfits (hfits.anchored hanchored).1, Option.isSome_some]
    · exact isSome_search hfits

/-- A pattern is not found in a text without elements of one of its classes. -/
theorem find_eq_none {c : α → Bool} (hc : c ∈ p.lead) (h : ∀ x ∈ xs, c x = false) :
    p.find xs = none := by
  refine Option.eq_none_iff_forall_ne_some.mpr fun m hm => ?_
  obtain ⟨rfl, hfits⟩ := find_eq_some hm
  obtain ⟨x, hx, hcx⟩ := exists_mem_of_fits hc hfits.lead
  have hmem : x ∈ m.text := by simp [Found.text, hx]
  cases hcx.symm.trans (h x hmem)

/-- An anchored group is found in a text that it fits. -/
theorem find_group {group : List (α → Bool)} (h : fits group xs = true) :
    (⟨[], group, true⟩ : FixedPattern α).find xs = some ⟨[], [], xs, []⟩ := by
  have hfits : (⟨[], group, true⟩ : FixedPattern α).Fits ⟨[], [], xs, []⟩ :=
    ⟨rfl, h, fun _ => ⟨rfl, rfl⟩⟩
  have hhere := findHere_of_fits hfits rfl
  rw [Found.text, List.append_nil] at hhere
  exact hhere

end Matches

end FixedPattern
