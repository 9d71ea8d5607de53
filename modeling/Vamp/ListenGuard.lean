import Mathlib.Algebra.Group.Nat.Defs
import Mathlib.Data.Int.Notation
import Mathlib.Data.List.Basic
import Mathlib.Data.Nat.Notation
import Mathlib.Tactic.Basic

/-!
# The guard of the listening records

`ListenGuard` of `listen_guard.rs` remembers when it last let a record pass, behind a mutex.
Instants and durations are nanoseconds. How long a record of `d` seconds keeps others out is
the `window`; the code computes it as `Duration::from_secs_f64(d as f64 * 0.9)`, which
panics if `d` is negative (`window_eq_none_iff`). The mutex is locked then, and remains
poisoned: from that moment on, every call panics.
-/

namespace Vamp

/-! ## Durations -/

/-- `n / d`, rounded to the nearest number, and to the even one if there are two. -/
def roundEven (n d : ℕ) : ℕ :=
  let q := n / d
  let r := n % d
  if 2 * r < d then q else if d < 2 * r then q + 1 else q + q % 2

/-- A number, rounded to the 53 binary digits of an `f64`. -/
def roundF64 (n : ℕ) : ℕ :=
  let unit := 2 ^ (n.log2 + 1 - 53)
  roundEven n unit * unit

/-- The `f64` next to 0.9 is this number, divided by `2 ^ 53`. -/
def ninetyPercent : ℕ := 8106479329266893

/-- `Duration::from_secs_f64(interval as f64 * 0.9)`, for the intervals of an `i32`; `none`
stands for the panic. -/
def window (interval : ℤ) : Option ℕ :=
  if interval < 0 then none
  else some (roundEven (roundF64 (interval.toNat * ninetyPercent) * 10 ^ 9) (2 ^ 53))

example : window 10 = some 9000000000 := by decide

theorem window_eq_none_iff {interval : ℤ} : window interval = none ↔ interval < 0 := by
  unfold window
  split
  · case isTrue hneg => exact iff_of_true rfl hneg
  · case isFalse hnonneg => exact iff_of_false nofun hnonneg

/-! ## The guard -/

/-- `ListenGuard`. -/
structure ListenGuard : Type where
  /-- when it last let a record pass -/
  last : Option ℕ
  /-- somebody panicked while the mutex was locked -/
  poisoned : Bool
  deriving DecidableEq, Repr

namespace ListenGuard

/-- `ListenGuard::new`. -/
def new : ListenGuard := ⟨none, false⟩

/-- `ListenGuard::should_record`, and the guard after it; `none` stands for a panic. An
instant that is earlier than the last one counts as the same. -/
def shouldRecord (window : ℤ → Option ℕ) (now : ℕ) (interval : ℤ) (guard : ListenGuard) :
    Option Bool × ListenGuard :=
  if guard.poisoned then (none, guard)
  else
    match guard.last with
    | some t =>
      match window interval with
      | some width =>
        if now - t < width then (some false, guard)
        else (some true, { guard with last := some now })
      | none => (none, { guard with poisoned := true })
    | none => (some true, { guard with last := some now })

/-- The last record is long enough ago, if there is one. -/
def Admits (window : ℤ → Option ℕ) (now : ℕ) (interval : ℤ) (guard : ListenGuard) : Prop :=
  ∀ t, guard.last = some t → ∃ width, window interval = some width ∧ width ≤ now - t

/-- A call panics, drops the record or lets it pass. -/
theorem shouldRecord_cases (window : ℤ → Option ℕ) (now : ℕ) (interval : ℤ)
    (guard : ListenGuard) :
    ((guard.shouldRecord window now interval).1 = none ∧
      (guard.poisoned = true ∨ guard.last ≠ none ∧ window interval = none) ∧
      (guard.shouldRecord window now interval).2.poisoned = true) ∨
    (∃ t width, guard.poisoned = false ∧ guard.last = some t ∧ window interval = some width ∧
      now - t < width ∧ guard.shouldRecord window now interval = (some false, guard)) ∨
    (guard.poisoned = false ∧ guard.Admits window now interval ∧
      guard.shouldRecord window now interval = (some true, { guard with last := some now })) := by
  unfold shouldRecord
  cases hpoisoned : guard.poisoned with
  | true => exact .inl ⟨rfl, .inl rfl, hpoisoned⟩
  | false =>
    cases hlast : guard.last with
    | none => exact .inr (.inr ⟨rfl, (fun t ht => nomatch hlast.symm.trans ht), rfl⟩)
    | some t =>
      cases hwindow : window interval with
      | none => exact .inl ⟨rfl, .inr ⟨nofun, rfl⟩, rfl⟩
      | some width =>
        by_cases hlt : now - t < width
        · refine .inr (.inl ⟨t, width, rfl, rfl, rfl, hlt, ?_⟩)
          simp only [Bool.false_eq_true, if_false, if_pos hlt]
        · refine .inr (.inr ⟨rfl, ?_, ?_⟩)
          · intro t' ht'
            obtain rfl := Option.some.inj (hlast.symm.trans ht')
            exact ⟨width, hwindow, Nat.le_of_not_lt hlt⟩
          · simp only [Bool.false_eq_true, if_false, if_neg hlt]

end ListenGuard

end Vamp
