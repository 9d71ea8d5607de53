import Mathlib.Data.Int.Notation
import Mathlib.Data.List.Basic
import Mathlib.Data.Nat.Notation

/-!
# JSON

Values, and the compact text that `serde_json` writes. A number is an integer, or a text with
a fraction or an exponent. The text determines the value (`Json.write_injective`): whatever
follows the text of a value, one can tell where it ends.
-/

/-- The characters of numbers. -/
def isNumberChar (c : Char) : Bool :=
  c.isDigit || c == '-' || c == '+' || c == '.' || c == 'e' || c == 'E'

/-- The text of a number that is not an integer. -/
structure FloatText : Type where
  /-- the text -/
  text : String
  /-- it is a number -/
  isNumber : text.toList.all isNumberChar = true
  /-- with a fraction or an exponent -/
  isFloat : (text.toList.any fun c => c == '.' || c == 'e' || c == 'E') = true
  deriving DecidableEq

/-- `serde_json::Value`. -/
inductive Json : Type where
  | null
  | bool (b : Bool)
  | int (n : ℤ)
  | float (x : FloatText)
  | str (s : String)
  | arr (elements : List Json)
  | obj (members : List (String × Json))

namespace Json

/-! ## Writing -/

/-- The characters that are escaped by one other character. -/
def shortEscape : Char → Option Char
  | '"' => some '"'
  | '\\' => some '\\'
  | '\x08' => some 'b'
  | '\x0c' => some 'f'
  | '\n' => some 'n'
  | '\r' => some 'r'
  | '\t' => some 't'
  | _ => none

/-- A character of a string. -/
def escapeChar (c : Char) : List Char :=
  match shortEscape c with
  | some e => ['\\', e]
  | none =>
    if c.toNat < 32 then
      ['\\', 'u', '0', '0', Nat.digitChar (c.toNat / 16), Nat.digitChar (c.toNat % 16)]
    else [c]

/-- The characters of a string, and the quote after them. -/
def escaped : List Char → List Char
  | [] => ['"']
  | c :: cs => escapeChar c ++ escaped cs

/-- The comma before all elements but the first. -/
def comma (first : Bool) : List Char := if first then [] else [',']

mutual

/-- The text of a value. -/
def chars : Json → List Char
  | null => ['n', 'u', 'l', 'l']
  | bool true => ['t', 'r', 'u', 'e']
  | bool false => ['f', 'a', 'l', 's', 'e']
  | int n => (toString n).toList
  | float x => x.text.toList
  | str s => '"' :: escaped s.toList
  | arr elements => '[' :: elementChars true elements
  | obj members => '{' :: memberChars true members

/-- The text of the elements of an array, and its end. -/
def elementChars (first : Bool) : List Json → List Char
  | [] => [']']
  | value :: values => comma first ++ chars value ++ elementChars false values

/-- The text of the members of an object, and its end. -/
def memberChars (first : Bool) : List (String × Json) → List Char
  | [] => ['}']
  | (key, value) :: members =>
    comma first ++ '"' :: escaped key.toList ++ ':' :: chars value ++ memberChars false members

end

/-- `serde_json::to_string`. -/
def write (j : Json) : String := String.ofList (chars j)

/-! ## Where strings end -/

theorem shortEscape_injective {c c' e : Char} (h : shortEscape c = some e)
    (h' : shortEscape c' = some e) : c = c' := by
  unfold shortEscape at h h'
  split at h <;> cases h <;> split at h' <;> first | rfl | cases h'

theorem shortEscape_ne_u (c : Char) : shortEscape c ≠ some 'u' := by
  unfold shortEscape
  split <;> nofun

theorem digitChar_injective : ∀ m < 16, ∀ n < 16, Nat.digitChar m = Nat.digitChar n → m = n := by
  decide

/-- The three ways in which a character is written. -/
theorem escapeChar_cases (c : Char) :
    (∃ e, shortEscape c = some e ∧ escapeChar c = ['\\', e]) ∨
    (c.toNat < 32 ∧ escapeChar c =
      ['\\', 'u', '0', '0', Nat.digitChar (c.toNat / 16), Nat.digitChar (c.toNat % 16)]) ∨
    (c ≠ '\\' ∧ c ≠ '"' ∧ escapeChar c = [c]) := by
  unfold escapeChar
  split
  · case h_1 e he => exact .inl ⟨e, he, rfl⟩
  · case h_2 hnone =>
    split
    · case isTrue hlt => exact .inr (.inl ⟨hlt, rfl⟩)
    · refine .inr (.inr ⟨?_, ?_, rfl⟩) <;> rintro rfl <;> cases hnone

/-- The end of a character can be told. -/
theorem escapeChar_append_inj {c c' : Char} {r r' : List Char}
    (h : escapeChar c ++ r = escapeChar c' ++ r') : c = c' ∧ r = r' := by
  rcases escapeChar_cases c with ⟨e, he, hc⟩ | ⟨hlt, hc⟩ | ⟨hne, -, hc⟩ <;>
    rcases escapeChar_cases c' with ⟨e', he', hc'⟩ | ⟨hlt', hc'⟩ | ⟨hne', -, hc'⟩ <;>
      simp only [hc, hc', List.cons_append, List.nil_append, List.cons.injEq, true_and] at h
  · obtain ⟨rfl, rfl⟩ := h
    exact ⟨shortEscape_injective he he', rfl⟩
  · exact absurd (h.1 ▸ he) (shortEscape_ne_u c)
  · exact absurd h.1.symm hne'
  · exact absurd (h.1 ▸ he') (shortEscape_ne_u c')
  · obtain ⟨hhigh, hlow, rfl⟩ := h
    have hdiv := digitChar_injective _ (by omega) _ (by omega) hhigh
    have hmod := digitChar_injective _ (by omega) _ (by omega) hlow
    exact ⟨Char.toNat_inj.mp (by omega), rfl⟩
  · exact absurd h.1.symm hne'
  · exact absurd h.1 hne
  · exact absurd h.1 hne
  · exact h

/-- No character looks like the end of a string. -/
theorem escapeChar_append_ne (c : Char) (r r' : List Char) : escapeChar c ++ r ≠ '"' :: r' := by
  intro h
  rcases escapeChar_cases c with ⟨e, -, hc⟩ | ⟨-, hc⟩ | ⟨-, hne, hc⟩
  · rw [hc] at h
    cases h
  · rw [hc] at h
    cases h
  · rw [hc] at h
    exact hne (List.head_eq_of_cons_eq h)

/-- The end of a string can be told. -/
theorem escaped_append_inj {cs cs' r r' : List Char} (h : escaped cs ++ r = escaped cs' ++ r') :
    cs = cs' ∧ r = r' := by
  induction cs generalizing cs' with
  | nil =>
    cases cs' with
    | nil => exact ⟨rfl, List.tail_eq_of_cons_eq h⟩
    | cons c' cs' =>
      rw [escaped, escaped, List.append_assoc] at h
      exact absurd h.symm (escapeChar_append_ne c' _ _)
  | cons c cs ih =>
    rw [escaped, List.append_assoc] at h
    cases cs' with
    | nil => exact absurd h (escapeChar_append_ne c _ _)
    | cons c' cs' =>
      rw [escaped, List.append_assoc] at h
      obtain ⟨rfl, hcs⟩ := escapeChar_append_inj h
      obtain ⟨rfl, rfl⟩ := ih hcs
      exact ⟨rfl, rfl⟩

/-! ## Where numbers end -/

/-- What may follow a number. -/
def Delimited (r : List Char) : Prop := ∀ c ∈ r.head?, isNumberChar c = false

/-- The end of a number can be told. -/
theorem number_append_inj {xs ys r r' : List Char} (hxs : xs.all isNumberChar = true)
    (hys : ys.all isNumberChar = true) (hr : Delimited r) (hr' : Delimited r')
    (h : xs ++ r = ys ++ r') : xs = ys ∧ r = r' := by
  have htake : ∀ {zs t : List Char}, zs.all isNumberChar = true → Delimited t →
      (zs ++ t).takeWhile isNumberChar = zs := by
    intro zs t hzs ht
    have hnil : t.takeWhile isNumberChar = [] := by
      cases t with
      | nil => rfl
      | cons c t => rw [List.takeWhile_cons, ht c rfl]; rfl
    rw [List.takeWhile_append_of_pos (List.all_eq_true.mp hzs), hnil, List.append_nil]
  have heq : xs = ys := by rw [← htake hxs hr, h, htake hys hr']
  subst heq
  exact ⟨rfl, List.append_cancel_left h⟩

theorem intChars_eq (n : ℤ) : (toString n).toList =
    if 0 ≤ n then Nat.toDigits 10 n.toNat else '-' :: Nat.toDigits 10 (-n).toNat := by
  rw [Int.toString_eq_repr, Int.repr_eq_if]
  split
  · rw [Nat.toList_repr]
  · rw [String.toList_append, Nat.toList_repr]
    rfl

theorem isDigit_of_mem_toDigits {n : ℕ} {c : Char} (h : c ∈ Nat.toDigits 10 n) :
    c.isDigit = true :=
  Nat.isDigit_of_mem_toDigits (by decide) (by decide) h

/-- The characters of an integer. -/
theorem of_mem_intChars {n : ℤ} {c : Char} (h : c ∈ (toString n).toList) :
    c = '-' ∨ c.isDigit = true := by
  rw [intChars_eq] at h
  split at h
  · exact .inr (isDigit_of_mem_toDigits h)
  · rcases List.mem_cons.mp h with rfl | h
    · exact .inl rfl
    · exact .inr (isDigit_of_mem_toDigits h)

theorem toDigits_injective {m n : ℕ} (h : Nat.toDigits 10 m = Nat.toDigits 10 n) : m = n := by
  rw [← Nat.ofDigitChars_ten_toDigits (n := m), h, Nat.ofDigitChars_ten_toDigits]

theorem toDigits_ne_minus (m : ℕ) (cs : List Char) : Nat.toDigits 10 m ≠ '-' :: cs := by
  intro h
  cases isDigit_of_mem_toDigits (n := m) (c := '-') (h ▸ List.mem_cons_self ..)

theorem intChars_injective {m n : ℤ} (h : (toString m).toList = (toString n).toList) : m = n := by
  rw [intChars_eq, intChars_eq] at h
  split at h <;> split at h
  · have hnat := toDigits_injective h
    omega
  · exact absurd h (toDigits_ne_minus _ _)
  · exact absurd h.symm (toDigits_ne_minus _ _)
  · have hnat := toDigits_injective (List.tail_eq_of_cons_eq h)
    omega

theorem all_isNumberChar_int (n : ℤ) : (toString n).toList.all isNumberChar = true := by
  rw [List.all_eq_true]
  intro c hc
  rcases of_mem_intChars hc with rfl | hdigit
  · rfl
  · simp [isNumberChar, hdigit]

/-- An integer has no fraction and no exponent. -/
theorem intChars_ne_float (n : ℤ) (x : FloatText) : (toString n).toList ≠ x.text.toList := by
  intro h
  obtain ⟨c, hc, hfloat⟩ := List.any_eq_true.mp x.isFloat
  rw [← h] at hc
  rcases of_mem_intChars hc with rfl | hdigit
  · cases hfloat
  · have hcases : c = '.' ∨ c = 'e' ∨ c = 'E' := by simpa [or_assoc] using hfloat
    rcases hcases with rfl | rfl | rfl <;> cases hdigit

/-! ## Where values end -/

/-- The kinds of values that can be told apart by their first character. -/
inductive Kind : Type where
  | null | true | false | number | str | arr | obj
  deriving DecidableEq

/-- The kind of a value. -/
def kind : Json → Kind
  | null => .null
  | bool true => .true
  | bool false => .false
  | int _ => .number
  | float _ => .number
  | str _ => .str
  | arr _ => .arr
  | obj _ => .obj

/-- The kind of the values that begin with a character. -/
def kindOf (c : Char) : Option Kind :=
  if isNumberChar c then some .number
  else if c = 'n' then some .null
  else if c = 't' then some .true
  else if c = 'f' then some .false
  else if c = '"' then some .str
  else if c = '[' then some .arr
  else if c = '{' then some .obj
  else none

theorem kindOf_number {cs : List Char} (h : cs.all isNumberChar = true) (hne : cs ≠ []) :
    ∃ c cs', cs = c :: cs' ∧ kindOf c = some .number := by
  obtain ⟨c, cs', rfl⟩ := List.exists_cons_of_ne_nil hne
  exact ⟨c, cs', rfl, if_pos (List.all_eq_true.mp h c (List.mem_cons_self ..))⟩

theorem intChars_ne_nil (n : ℤ) : (toString n).toList ≠ [] := by
  rw [intChars_eq]
  split
  · exact Nat.toDigits_ne_nil
  · exact List.cons_ne_nil _ _

theorem floatChars_ne_nil (x : FloatText) : x.text.toList ≠ [] := by
  intro h
  have hfloat := x.isFloat
  rw [h] at hfloat
  cases hfloat

/-- The first character of a value. -/
theorem chars_eq_cons (j : Json) : ∃ c cs, chars j = c :: cs ∧ kindOf c = some j.kind := by
  cases j with
  | null => exact ⟨_, _, rfl, by decide⟩
  | bool b =>
    cases b with
    | true => exact ⟨_, _, rfl, by decide⟩
    | false => exact ⟨_, _, rfl, by decide⟩
  | int n => exact kindOf_number (all_isNumberChar_int n) (intChars_ne_nil n)
  | float x => exact kindOf_number x.isNumber (floatChars_ne_nil x)
  | str s => exact ⟨_, _, rfl, rfl⟩
  | arr elements => exact ⟨_, _, rfl, rfl⟩
  | obj members => exact ⟨_, _, rfl, rfl⟩

theorem kind_eq_of_append {j j' : Json} {r r' : List Char}
    (h : chars j ++ r = chars j' ++ r') : j.kind = j'.kind := by
  obtain ⟨c, cs, hc, hkind⟩ := chars_eq_cons j
  obtain ⟨c', cs', hc', hkind'⟩ := chars_eq_cons j'
  rw [hc, hc'] at h
  obtain rfl := List.head_eq_of_cons_eq h
  exact Option.some.inj (hkind.symm.trans hkind')

/-- No value looks like the end of an array. -/
theorem chars_append_ne_end (j : Json) (r r' : List Char) : chars j ++ r ≠ ']' :: r' := by
  intro h
  obtain ⟨c, cs, hc, hkind⟩ := chars_eq_cons j
  rw [hc] at h
  obtain rfl := List.head_eq_of_cons_eq h
  cases hkind

theorem delimited_elementChars (js : List Json) (r : List Char) :
    Delimited (elementChars false js ++ r) := by
  cases js <;> · rintro c ⟨⟩; rfl

theorem delimited_memberChars (ms : List (String × Json)) (r : List Char) :
    Delimited (memberChars false ms ++ r) := by
  cases ms <;> · rintro c ⟨⟩; rfl

theorem all_isNumberChar {j : Json} (h : j.kind = .number) :
    (chars j).all isNumberChar = true := by
  cases j with
  | int n => exact all_isNumberChar_int n
  | float x => exact x.isNumber
  | bool b => cases b <;> cases h
  | _ => cases h

/-- The text of a number determines it. -/
theorem number_eq {j j' : Json} (hj : j.kind = .number) (hj' : j'.kind = .number)
    (h : chars j = chars j') : j = j' := by
  cases j with
  | int n =>
    cases j' with
    | int n' => exact congrArg int (intChars_injective h)
    | float x' => exact absurd h (intChars_ne_float n x')
    | bool b => cases b <;> cases hj'
    | _ => cases hj'
  | float x =>
    cases j' with
    | int n' => exact absurd h.symm (intChars_ne_float n' x)
    | float x' =>
      obtain ⟨text, _, _⟩ := x
      obtain ⟨text', _, _⟩ := x'
      obtain rfl : text = text' := String.toList_injective h
      rfl
    | bool b => cases b <;> cases hj'
    | _ => cases hj'
  | bool b => cases b <;> cases hj
  | _ => cases hj

theorem number_append {j j' : Json} {r r' : List Char} (hj : j.kind = .number)
    (hj' : j'.kind = .number) (hr : Delimited r) (hr' : Delimited r')
    (h : chars j ++ r = chars j' ++ r') : j = j' ∧ r = r' := by
  obtain ⟨hchars, hrest⟩ :=
    number_append_inj (all_isNumberChar hj) (all_isNumberChar hj') hr hr' h
  exact ⟨number_eq hj hj' hchars, hrest⟩

mutual

/-- **The end of a value can be told**, and so can the value. -/
theorem chars_append_inj (j j' : Json) {r r' : List Char} (hr : Delimited r)
    (hr' : Delimited r') (h : chars j ++ r = chars j' ++ r') : j = j' ∧ r = r' := by
  have hkind := kind_eq_of_append h
  -- the first letter tells the kind, and only two values of one kind are left
  cases j with
  | null =>
    cases j' with
    | null => exact ⟨rfl, List.append_cancel_left h⟩
    | bool b => cases b <;> cases hkind
    | _ => cases hkind
  | bool b =>
    cases j' with
    | bool b' =>
      cases b <;> cases b' <;>
        first | exact ⟨rfl, List.append_cancel_left h⟩ | cases hkind
    | _ => cases b <;> cases hkind
  | int n => exact number_append rfl hkind.symm hr hr' h
  | float x => exact number_append rfl hkind.symm hr hr' h
  | str s =>
    cases j' with
    | str s' =>
      obtain ⟨hs, hrest⟩ := escaped_append_inj (List.tail_eq_of_cons_eq h)
      exact ⟨congrArg str (String.toList_injective hs), hrest⟩
    | bool b => cases b <;> cases hkind
    | _ => cases hkind
  | arr js =>
    cases j' with
    | arr js' =>
      obtain ⟨hjs, hrest⟩ := elementChars_append_inj true js js' (List.tail_eq_of_cons_eq h)
      exact ⟨congrArg arr hjs, hrest⟩
    | bool b => cases b <;> cases hkind
    | _ => cases hkind
  | obj ms =>
    cases j' with
    | obj ms' =>
      obtain ⟨hms, hrest⟩ := memberChars_append_inj true ms ms' (List.tail_eq_of_cons_eq h)
      exact ⟨congrArg obj hms, hrest⟩
    | bool b => cases b <;> cases hkind
    | _ => cases hkind

theorem elementChars_append_inj (first : Bool) (js js' : List Json) {r r' : List Char}
    (h : elementChars first js ++ r = elementChars first js' ++ r') : js = js' ∧ r = r' := by
  have hend : ∀ j (js : List Json) (r r' : List Char),
      elementChars first (j :: js) ++ r ≠ ']' :: r' := by
    intro j js r r' h
    cases first with
    | true =>
      rw [elementChars, List.append_assoc] at h
      exact chars_append_ne_end j _ r' h
    | false => cases List.head_eq_of_cons_eq h
  cases js with
  | nil =>
    cases js' with
    | nil => exact ⟨rfl, List.tail_eq_of_cons_eq h⟩
    | cons j' js' => exact absurd h.symm (hend j' js' r' r)
  | cons j js =>
    cases js' with
    | nil => exact absurd h (hend j js r r')
    | cons j' js' =>
      simp only [elementChars, List.append_assoc] at h
      obtain ⟨rfl, hrest⟩ := chars_append_inj j j' (delimited_elementChars js r)
        (delimited_elementChars js' r') (List.append_cancel_left h)
      obtain ⟨rfl, hr⟩ := elementChars_append_inj false js js' hrest
      exact ⟨rfl, hr⟩

theorem memberChars_append_inj (first : Bool) (ms ms' : List (String × Json)) {r r' : List Char}
    (h : memberChars first ms ++ r = memberChars first ms' ++ r') : ms = ms' ∧ r = r' := by
  have hend : ∀ m (ms : List (String × Json)) (r r' : List Char),
      memberChars first (m :: ms) ++ r ≠ '}' :: r' := by
    intro m ms r r' h
    cases first <;> cases List.head_eq_of_cons_eq h
  cases ms with
  | nil =>
    cases ms' with
    | nil => exact ⟨rfl, List.tail_eq_of_cons_eq h⟩
    | cons m' ms' => exact absurd h.symm (hend m' ms' r' r)
  | cons m ms =>
    cases ms' with
    | nil => exact absurd h (hend m ms r r')
    | cons m' ms' =>
      obtain ⟨key, value⟩ := m
      obtain ⟨key', value'⟩ := m'
      simp only [memberChars, List.append_assoc, List.cons_append] at h
      obtain ⟨hkey, hvalue⟩ :=
        escaped_append_inj (List.tail_eq_of_cons_eq (List.append_cancel_left h))
      obtain rfl := String.toList_injective hkey
      obtain ⟨rfl, hrest⟩ := chars_append_inj value value' (delimited_memberChars ms r)
        (delimited_memberChars ms' r') (List.tail_eq_of_cons_eq hvalue)
      obtain ⟨rfl, hr⟩ := memberChars_append_inj false ms ms' hrest
      exact ⟨rfl, hr⟩

end

/-- **The text determines the value.** -/
theorem write_injective {j j' : Json} (h : write j = write j') : j = j' := by
  have hchars : chars j = chars j' := String.ofList_injective h
  have hnil : Delimited [] := nofun
  refine (chars_append_inj j j' hnil hnil ?_).1
  rw [List.append_nil, List.append_nil, hchars]

end Json
