import Mathlib.Data.Finmap

/-!
# Lookups in finite maps

What a finite map contains after an insertion and after removals, at any key. Two maps are
equal if they contain the same (`Finmap.ext_lookup`), so this is all that is needed of them.
-/

namespace Finmap

variable {α : Type*} {β : Type*} [DecidableEq α]

/-- Lookup in an extended map, both cases at once. -/
theorem lookup_insert_eq_ite (s : Finmap fun _ : α => β) (a a' : α) (b : β) :
    (s.insert a b).lookup a' = if a' = a then some b else s.lookup a' := by
  by_cases h : a' = a
  · subst h
    rw [lookup_insert, if_pos rfl]
  · rw [lookup_insert_of_ne s h, if_neg h]

/-- Lookup in a map with a key removed, both cases at once. -/
theorem lookup_erase_eq_ite (s : Finmap fun _ : α => β) (a a' : α) :
    (s.erase a).lookup a' = if a' = a then none else s.lookup a' := by
  by_cases h : a' = a
  · subst h
    rw [lookup_erase, if_pos rfl]
  · rw [lookup_erase_ne h, if_neg h]

/-- Some keys are removed, one after the other. -/
def eraseAll (s : Finmap fun _ : α => β) (as : List α) : Finmap fun _ : α => β :=
  as.foldl (fun s a => s.erase a) s

/-- What is not removed stays. -/
theorem lookup_eraseAll_of_not_mem {s : Finmap fun _ : α => β} {as : List α} {a : α}
    (h : a ∉ as) : (s.eraseAll as).lookup a = s.lookup a := by
  induction as generalizing s with
  | nil => rfl
  | cons a' as ih =>
    have hcons : s.eraseAll (a' :: as) = (s.erase a').eraseAll as := rfl
    rw [hcons, ih (List.not_mem_of_not_mem_cons h), lookup_erase_ne (List.ne_of_not_mem_cons h)]

/-- What is removed is gone. -/
theorem lookup_eraseAll_of_mem {s : Finmap fun _ : α => β} {as : List α} {a : α} (h : a ∈ as) :
    (s.eraseAll as).lookup a = none := by
  induction as generalizing s with
  | nil => cases h
  | cons a' as ih =>
    have hcons : s.eraseAll (a' :: as) = (s.erase a').eraseAll as := rfl
    rw [hcons]
    by_cases hmem : a ∈ as
    · exact ih hmem
    · obtain rfl : a = a' := (List.mem_cons.mp h).resolve_right hmem
      rw [lookup_eraseAll_of_not_mem hmem, lookup_erase]

end Finmap
