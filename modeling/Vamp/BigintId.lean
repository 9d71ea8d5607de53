import Mathlib.Algebra.Group.Int.Defs
import Mathlib.Data.Int.Notation
import Mathlib.Data.List.Basic
import Mathlib.Data.Nat.Notation

/-!
# Row ids on the wire

SQLite row ids are `i64`, which a JavaScript number cannot hold. So they travel as decimal
strings: `BigintId` of `bigint_id.rs`. The way out, `fromI64`, is total; the way back,
`toI64`, parses the string and panics if it is not an integer of 64 bits.
-/

namespace Vamp

/-- The values of an `i64`. -/
def IsI64 (n : ℤ) : Prop := -2 ^ 63 ≤ n ∧ n < 2 ^ 63

instance (n : ℤ) : Decidable (IsI64 n) := inferInstanceAs (Decidable (_ ∧ _))

/-- `str::parse::<i64>` after the sign: one digit at least, and nothing else. -/
def parseDigits (digits : List Char) : Option ℕ :=
  if digits ≠ [] ∧ digits.all Char.isDigit then some (Nat.ofDigitChars 10 digits 0) else none

/-- `str::parse::<i64>` without its bounds. -/
def parseSigned : List Char → Option ℤ
  | '+' :: digits => (parseDigits digits).map fun n : ℕ => (n : ℤ)
  | '-' :: digits => (parseDigits digits).map fun n : ℕ => -(n : ℤ)
  | digits => (parseDigits digits).map fun n : ℕ => (n : ℤ)

/-- `str::parse::<i64>`. -/
def parseI64 (text : String) : Option ℤ :=
  (parseSigned text.toList).filter fun n => IsI64 n

/-- What is wrong with digits that are read from the left, after a value. -/
def digitsError (negative : Bool) (value : ℤ) : List Char → Option String
  | [] => none
  | c :: cs =>
    if c.isDigit then
      let digit : ℤ := Nat.ofDigitChars 10 [c] 0
      let value := if negative then 10 * value - digit else 10 * value + digit
      if IsI64 value then digitsError negative value cs
      else if negative then some "number too small to fit in target type"
      else some "number too large to fit in target type"
    else some "invalid digit found in string"

/-- The `ParseIntError` of `str::parse::<i64>`. -/
def parseIntError (text : String) : String :=
  match text.toList with
  | [] => "cannot parse integer from empty string"
  | ['+'] | ['-'] => "invalid digit found in string"
  | '+' :: digits => (digitsError false 0 digits).getD ""
  | '-' :: digits => (digitsError true 0 digits).getD ""
  | digits => (digitsError false 0 digits).getD ""

/-- `BigintId`. -/
structure BigintId : Type where
  /-- the digits -/
  text : String
  deriving DecidableEq, Repr

namespace BigintId

/-- `BigintId::from_i64`. -/
def fromI64 (n : ℤ) : BigintId := ⟨toString n⟩

/-- `BigintId::to_i64`; `none` stands for the panic. -/
def toI64 (id : BigintId) : Option ℤ := parseI64 id.text

/-! ### There and back -/

theorem parseDigits_toDigits (n : ℕ) : parseDigits (Nat.toDigits 10 n) = some n := by
  rw [parseDigits, if_pos, Nat.ofDigitChars_ten_toDigits]
  constructor
  · exact Nat.toDigits_ne_nil
  · rw [List.all_eq_true]
    exact fun c hc => Nat.isDigit_of_mem_toDigits (by decide) (by decide) hc

/-- Digits do not begin with a sign. -/
theorem parseSigned_of_digits {digits : List Char} (h : ∀ c ∈ digits, c.isDigit = true) :
    parseSigned digits = (parseDigits digits).map fun n : ℕ => (n : ℤ) := by
  unfold parseSigned
  split
  · cases h '+' (List.mem_cons_self ..)
  · cases h '-' (List.mem_cons_self ..)
  · rfl

theorem parseSigned_toString (n : ℤ) : parseSigned (toString n).toList = some n := by
  rw [Int.toString_eq_repr, Int.repr_eq_if]
  split
  · have hdigits : ∀ c ∈ Nat.toDigits 10 n.toNat, c.isDigit = true := fun c hc =>
      Nat.isDigit_of_mem_toDigits (by decide) (by decide) hc
    rw [Nat.toList_repr, parseSigned_of_digits hdigits, parseDigits_toDigits, Option.map_some]
    congr 1
    omega
  · rw [String.toList_append, Nat.toList_repr]
    have hminus : ("-".toList ++ Nat.toDigits 10 (-n).toNat) =
        '-' :: Nat.toDigits 10 (-n).toNat := rfl
    rw [hminus, parseSigned, parseDigits_toDigits, Option.map_some]
    congr 1
    omega

/-- **Ids survive**: what `from_i64` writes, `to_i64` reads. -/
theorem toI64_fromI64 {n : ℤ} (h : IsI64 n) : (fromI64 n).toI64 = some n := by
  rw [toI64, fromI64, parseI64, parseSigned_toString]
  exact Option.filter_some_pos (decide_eq_true h)

/-- What can be read is an `i64`. -/
theorem isI64_of_toI64 {id : BigintId} {n : ℤ} (h : id.toI64 = some n) : IsI64 n :=
  of_decide_eq_true (Option.filter_eq_some_iff.mp h).2

/-! ### Lists of ids -/

/-- The panic of `to_i64` comes up. -/
def Unreadable (id : BigintId) : Prop := id.toI64 = none

instance (id : BigintId) : Decidable id.Unreadable := inferInstanceAs (Decidable (_ = none))

/-- What is read one by one cannot be read if one of it cannot. -/
theorem mapM_eq_none_iff {α β : Type} {f : α → Option β} {xs : List α} :
    xs.mapM f = none ↔ ∃ x ∈ xs, f x = none := by
  induction xs with
  | nil => exact iff_of_false nofun (by simp)
  | cons x xs ih =>
    rw [List.mapM_cons, List.exists_mem_cons_iff, ← ih]
    cases f x with
    | none => exact iff_of_true rfl (.inl rfl)
    | some b => cases xs.mapM f <;> simp

theorem mapM_toI64_eq_none_iff {ids : List BigintId} :
    ids.mapM toI64 = none ↔ ∃ id ∈ ids, id.Unreadable := mapM_eq_none_iff

end BigintId

end Vamp
