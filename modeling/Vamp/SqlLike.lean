import Mathlib.Data.Nat.Notation
import Mathlib.Tactic.ByContra
import Mathlib.Tactic.Push

/-!
# `LIKE`

The operator of SQLite: in a pattern, `%` stands for any text, `_` for any character, and every
other character for itself, where the 26 letters stand for themselves in upper and in lower case
(`Like`). `like` decides it.

A pattern between two `%` is looked for anywhere in a text (`like_between_iff`). That is a search
for the pattern itself if it has no wildcards (`like_between_iff_contains`), and with every
wildcard there is a text in which the pattern is found that does not contain it
(`exists_like_not_contains`).
-/

namespace SqlLike

/-- What `text LIKE pattern` means. -/
inductive Like : List Char → List Char → Prop
  | done : Like [] []
  /-- `%` stands for what is before this -/
  | stop {pattern text : List Char} (h : Like pattern text) : Like ('%' :: pattern) text
  /-- and for one character more -/
  | more {pattern text : List Char} (c : Char) (h : Like ('%' :: pattern) text) :
    Like ('%' :: pattern) (c :: text)
  /-- `_` stands for a character -/
  | one {pattern text : List Char} (c : Char) (h : Like pattern text) :
    Like ('_' :: pattern) (c :: text)
  /-- other characters are compared -/
  | same {pattern text : List Char} {c d : Char} (hpercent : c ≠ '%')
    (hcase : c.toLower = d.toLower) (h : Like pattern text) : Like (c :: pattern) (d :: text)

/-- A suffix is accepted. -/
def skipping (accepts : List Char → Bool) : List Char → Bool
  | [] => accepts []
  | c :: text => accepts (c :: text) || skipping accepts text

/-- The first character is one of some, and what comes after it is accepted. -/
def stepping (p : Char → Bool) (accepts : List Char → Bool) : List Char → Bool
  | [] => false
  | d :: text => p d && accepts text

/-- The characters of a text are what those of a pattern stand for. -/
def matchList : List Char → List Char → Bool
  | [], text => text.isEmpty
  | c :: pattern, text =>
    if c = '%' then skipping (matchList pattern) text
    else stepping (fun d => c = '_' || c.toLower = d.toLower) (matchList pattern) text

/-- `text LIKE pattern`. -/
def like (text pattern : String) : Bool := matchList pattern.toList text.toList

/-- A text contains another one, where the case of letters does matter or does not. -/
def Contains (caseSensitive : Bool) (text pattern : List Char) : Prop :=
  if caseSensitive then pattern <:+: text
  else pattern.map Char.toLower <:+: text.map Char.toLower

instance (caseSensitive : Bool) (text pattern : List Char) :
    Decidable (Contains caseSensitive text pattern) :=
  match caseSensitive with
  | true => inferInstanceAs (Decidable (pattern <:+: text))
  | false => inferInstanceAs (Decidable (pattern.map Char.toLower <:+: text.map Char.toLower))

/-- No character of a pattern is a wildcard. -/
def Plain (pattern : List Char) : Prop := '%' ∉ pattern ∧ '_' ∉ pattern

instance (pattern : List Char) : Decidable (Plain pattern) := inferInstanceAs (Decidable (_ ∧ _))

/-- No character of a pattern is a letter that has two cases. -/
def Caseless (pattern : List Char) : Prop := ∀ c ∈ pattern, c.isAlpha = false

instance (pattern : List Char) : Decidable (Caseless pattern) :=
  inferInstanceAs (Decidable (∀ c ∈ pattern, c.isAlpha = false))

variable {pattern pattern' text : List Char} {c d : Char}

/-! ## Inversion -/

theorem like_nil_iff : Like [] text ↔ text = [] := by
  constructor
  · intro h
    cases h
    rfl
  · rintro rfl
    exact .done

/-- `%` stands for what is before a suffix. -/
theorem like_percent_iff :
    Like ('%' :: pattern) text ↔ ∃ rest, rest <:+ text ∧ Like pattern rest := by
  constructor
  · intro h
    induction text with
    | nil =>
      cases h with
      | stop h => exact ⟨[], List.suffix_refl _, h⟩
    | cons d text ih =>
      cases h with
      | stop h => exact ⟨d :: text, List.suffix_refl _, h⟩
      | more _ h =>
        obtain ⟨rest, hsuffix, hrest⟩ := ih h
        exact ⟨rest, hsuffix.trans (List.suffix_cons d text), hrest⟩
      | same hpercent => exact absurd rfl hpercent
  · rintro ⟨rest, ⟨before, rfl⟩, hrest⟩
    induction before with
    | nil => exact .stop hrest
    | cons d before ih => exact .more d ih

/-- All other characters stand for one character. -/
theorem like_cons_iff (hc : c ≠ '%') : Like (c :: pattern) text ↔
    ∃ d rest, text = d :: rest ∧ (c = '_' ∨ c.toLower = d.toLower) ∧ Like pattern rest := by
  constructor
  · intro h
    cases h with
    | stop | more => exact absurd rfl hc
    | one d h => exact ⟨d, _, rfl, .inl rfl, h⟩
    | same _ hcase h => exact ⟨_, _, rfl, .inr hcase, h⟩
  · rintro ⟨d, rest, rfl, rfl | hcase, h⟩
    · exact .one d h
    · exact .same hc hcase h

theorem like_cons_cons_iff (hc : c ≠ '%') : Like (c :: pattern) (d :: text) ↔
    (c = '_' ∨ c.toLower = d.toLower) ∧ Like pattern text := by
  rw [like_cons_iff hc]
  constructor
  · rintro ⟨_, _, ⟨⟩, h⟩
    exact h
  · exact fun h => ⟨d, text, rfl, h⟩

theorem not_like_cons_nil (hc : c ≠ '%') : ¬Like (c :: pattern) [] := by
  rw [like_cons_iff hc]
  rintro ⟨_, _, ⟨⟩, -⟩

/-! ## Deciding -/

theorem skipping_iff {accepts : List Char → Bool} :
    skipping accepts text = true ↔ ∃ rest, rest <:+ text ∧ accepts rest = true := by
  induction text with
  | nil => simp [skipping, List.suffix_nil]
  | cons d text ih =>
    rw [skipping, Bool.or_eq_true, ih]
    simp only [List.suffix_cons_iff, or_and_right, exists_or, exists_eq_left]

/-- **The function decides the relation.** -/
theorem matchList_iff : matchList pattern text = true ↔ Like pattern text := by
  induction pattern generalizing text with
  | nil => rw [matchList, List.isEmpty_iff, like_nil_iff]
  | cons c pattern ih =>
    rw [matchList]
    split
    · case isTrue hc =>
      subst hc
      rw [skipping_iff, like_percent_iff]
      simp only [ih]
    · case isFalse hc =>
      cases text with
      | nil => exact iff_of_false Bool.false_ne_true (not_like_cons_nil hc)
      | cons d text => simp [stepping, like_cons_cons_iff hc, ih]

theorem like_iff (text pattern : String) :
    like text pattern = true ↔ Like pattern.toList text.toList := matchList_iff

/-! ## Parts of patterns -/

/-- One pattern after another. -/
theorem like_append_iff : Like (pattern ++ pattern') text ↔
    ∃ first second, first ++ second = text ∧ Like pattern first ∧ Like pattern' second := by
  induction pattern generalizing text with
  | nil =>
    constructor
    · exact fun h => ⟨[], text, rfl, .done, h⟩
    · rintro ⟨first, second, rfl, hfirst, hsecond⟩
      obtain rfl := like_nil_iff.mp hfirst
      exact hsecond
  | cons c pattern ih =>
    rw [List.cons_append]
    by_cases hc : c = '%'
    · subst hc
      simp only [like_percent_iff, ih]
      constructor
      · rintro ⟨_, ⟨before, rfl⟩, first, second, rfl, hfirst, hsecond⟩
        refine ⟨before ++ first, second, List.append_assoc .., ?_, hsecond⟩
        exact ⟨first, List.suffix_append before first, hfirst⟩
      · rintro ⟨_, second, rfl, ⟨first, ⟨before, rfl⟩, hfirst⟩, hsecond⟩
        refine ⟨first ++ second, ⟨before, (List.append_assoc ..).symm⟩, first, second, rfl, ?_⟩
        exact ⟨hfirst, hsecond⟩
    · simp only [like_cons_iff hc, ih]
      constructor
      · rintro ⟨d, _, rfl, hd, first, second, rfl, hfirst, hsecond⟩
        exact ⟨d :: first, second, rfl, ⟨d, first, rfl, hd, hfirst⟩, hsecond⟩
      · rintro ⟨_, second, rfl, ⟨d, first, rfl, hd, hfirst⟩, hsecond⟩
        exact ⟨d, first ++ second, rfl, hd, first, second, rfl, hfirst, hsecond⟩

/-- **Between two `%`**, a pattern is looked for anywhere. -/
theorem like_between_iff : Like ('%' :: (pattern ++ ['%'])) text ↔
    ∃ part, part <:+: text ∧ Like pattern part := by
  have hany : ∀ rest, Like ['%'] rest := fun rest =>
    like_percent_iff.mpr ⟨[], List.nil_suffix, .done⟩
  rw [like_percent_iff]
  constructor
  · rintro ⟨_, hsuffix, h⟩
    obtain ⟨part, rest, rfl, hpart, -⟩ := like_append_iff.mp h
    exact ⟨part, (List.infix_append' [] part rest).trans hsuffix.isInfix, hpart⟩
  · rintro ⟨part, ⟨before, rest, rfl⟩, hpart⟩
    refine ⟨part ++ rest, ⟨before, (List.append_assoc ..).symm⟩, like_append_iff.mpr ?_⟩
    exact ⟨part, rest, rfl, hpart, hany rest⟩

/-! ## Plain patterns -/

/-- A pattern without wildcards is compared as it is. -/
theorem like_plain_iff (h : Plain pattern) :
    Like pattern text ↔ pattern.map Char.toLower = text.map Char.toLower := by
  induction pattern generalizing text with
  | nil => rw [like_nil_iff, List.map_nil, List.nil_eq, List.map_eq_nil_iff]
  | cons c pattern ih =>
    obtain ⟨hpercent, hone⟩ := h
    rw [List.mem_cons, not_or] at hpercent hone
    have hplain : Plain pattern := ⟨hpercent.2, hone.2⟩
    have hc : c ≠ '%' := Ne.symm hpercent.1
    cases text with
    | nil => exact iff_of_false (not_like_cons_nil hc) (by simp)
    | cons d text =>
      rw [like_cons_cons_iff hc, ih hplain, or_iff_right (Ne.symm hone.1), List.map_cons,
        List.map_cons, List.cons.injEq]

/-- **Plain patterns** are looked for in upper and in lower case. -/
theorem like_between_iff_contains (h : Plain pattern) :
    Like ('%' :: (pattern ++ ['%'])) text ↔ Contains false text pattern := by
  rw [like_between_iff, Contains, if_neg Bool.false_ne_true, List.infix_map_iff]
  exact exists_congr fun part => and_congr_right fun _ => like_plain_iff h

/-! ## Letters -/

theorem isAlpha_iff : c.isAlpha = true ↔
    (65 ≤ c.toNat ∧ c.toNat ≤ 90) ∨ (97 ≤ c.toNat ∧ c.toNat ≤ 122) := by
  have hletter : c.isAlpha = (decide (c.val ≥ 'A'.val ∧ c.val ≤ 'Z'.val) ||
      (decide (c.val ≥ 'a'.val) && decide (c.val ≤ 'z'.val))) := rfl
  rw [hletter]
  simp [UInt32.le_iff_toNat_le, ← Char.toNat_val]

/-- What holds of the letters among the first 128 characters holds of all letters. -/
theorem of_isAlpha {p : Char → Prop}
    (h : ∀ n < 128, (Char.ofNat n).isAlpha = true → p (Char.ofNat n)) (hc : c.isAlpha = true) :
    p c := by
  have hlt : c.toNat < 128 := by
    have hletter := isAlpha_iff.mp hc
    omega
  have hp := h c.toNat hlt
  rw [Char.ofNat_toNat] at hp
  exact hp hc

/-- A character that is no letter has one case. -/
theorem toLower_eq_self (h : c.isAlpha = false) : c.toLower = c := by
  refine dif_neg fun hupper => ?_
  rw [ge_iff_le, UInt32.le_iff_toNat_le, UInt32.le_iff_toNat_le] at hupper
  rw [isAlpha_iff.mpr (.inl hupper)] at h
  cases h

theorem isAlpha_toLower (h : c.isAlpha = true) : c.toLower.isAlpha = true := by
  revert h
  exact of_isAlpha (p := fun c => c.toLower.isAlpha = true) (by decide)

/-- A letter has another case. -/
theorem exists_other_case (h : c.isAlpha = true) : ∃ d, d ≠ c ∧ d.toLower = c.toLower := by
  have hswap : ∀ n < 128, (Char.ofNat n).isAlpha = true →
      Char.ofNat (if n < 97 then n + 32 else n - 32) ≠ Char.ofNat n ∧
      (Char.ofNat (if n < 97 then n + 32 else n - 32)).toLower = (Char.ofNat n).toLower := by
    decide
  revert h
  exact of_isAlpha (p := fun c => ∃ d, d ≠ c ∧ d.toLower = c.toLower)
    fun n hn hletter => ⟨_, hswap n hn hletter⟩

/-- Nothing else has the one case of a character that is no letter. -/
theorem eq_of_toLower_eq (hc : c.isAlpha = false) (h : c.toLower = d.toLower) : c = d := by
  rw [toLower_eq_self hc] at h
  cases hd : d.isAlpha with
  | true =>
    rw [h, isAlpha_toLower hd] at hc
    cases hc
  | false => rw [h, toLower_eq_self hd]

theorem Caseless.eq_of_map_eq (h : Caseless pattern)
    (hmap : pattern.map Char.toLower = text.map Char.toLower) : pattern = text := by
  induction pattern generalizing text with
  | nil => exact (List.map_eq_nil_iff.mp hmap.symm).symm
  | cons c pattern ih =>
    obtain ⟨hc, hpattern⟩ := List.forall_mem_cons.mp h
    cases text with
    | nil => cases hmap
    | cons d text =>
      obtain ⟨hcase, hmap⟩ := List.cons.inj hmap
      rw [eq_of_toLower_eq hc hcase, ih hpattern hmap]

/-- Without letters there is no difference between the cases. -/
theorem contains_iff_of_caseless (h : Caseless pattern) :
    Contains true text pattern ↔ Contains false text pattern := by
  rw [Contains, Contains, if_pos rfl, if_neg Bool.false_ne_true, List.infix_map_iff]
  constructor
  · exact fun hinfix => ⟨pattern, hinfix, rfl⟩
  · rintro ⟨part, hinfix, hmap⟩
    rwa [h.eq_of_map_eq hmap]

/-! ## Where `LIKE` goes further -/

theorem contains_of_caseSensitive (h : Contains true text pattern) :
    Contains false text pattern := by
  rw [Contains, if_pos rfl] at h
  rw [Contains, if_neg Bool.false_ne_true]
  exact h.map Char.toLower

/-- A text for a pattern: without `%`, and with a letter in the place of `_`. -/
def evade (pattern : List Char) : List Char :=
  (pattern.filter (· ≠ '%')).map fun c => if c = '_' then 'a' else c

theorem like_evade (pattern : List Char) : Like pattern (evade pattern) := by
  induction pattern with
  | nil => exact .done
  | cons c pattern ih =>
    by_cases hpercent : c = '%'
    · subst hpercent
      exact .stop ih
    · have hevade : evade (c :: pattern) = (if c = '_' then 'a' else c) :: evade pattern := by
        simp [evade, hpercent]
      rw [hevade, like_cons_cons_iff hpercent]
      refine ⟨?_, ih⟩
      by_cases hone : c = '_'
      · exact .inl hone
      · rw [if_neg hone]
        exact .inr rfl

/-- **Wildcards**: a pattern that has any is found in a text that does not contain it. -/
theorem not_contains_evade (h : ¬Plain pattern) : ¬Contains false (evade pattern) pattern := by
  intro hcontains
  rw [Contains, if_neg Bool.false_ne_true] at hcontains
  have hlength := hcontains.length_le
  rw [List.length_map, List.length_map, evade, List.length_map] at hlength
  -- nothing can have been left out
  have hfilter : pattern.filter (· ≠ '%') = pattern :=
    List.filter_sublist.eq_of_length (Nat.le_antisymm (List.length_filter_le ..) hlength)
  have hpercent : '%' ∉ pattern := fun hmem => by
    rw [← hfilter, List.mem_filter] at hmem
    simp at hmem
  have hmap : pattern.map Char.toLower = (evade pattern).map Char.toLower :=
    hcontains.eq_of_length (by
      rw [List.length_map, List.length_map, evade, hfilter, List.length_map])
  rw [evade, hfilter, List.map_map, List.map_inj_left] at hmap
  refine h ⟨hpercent, fun hmem => ?_⟩
  exact absurd (hmap '_' hmem) (by decide)

/-- **Cases**: a pattern that has a letter is found in a text that has it in the other case. -/
theorem exists_other_text (h : ¬Caseless pattern) :
    ∃ text, Contains false text pattern ∧ ¬Contains true text pattern := by
  unfold Caseless at h
  push Not at h
  obtain ⟨c, hc, hletter⟩ := h
  obtain ⟨d, hne, hcase⟩ := exists_other_case ((Bool.not_eq_false _).mp hletter)
  obtain ⟨before, rest, rfl⟩ := List.append_of_mem hc
  refine ⟨before ++ d :: rest, ?_, ?_⟩
  · have hmap : (before ++ c :: rest).map Char.toLower =
        (before ++ d :: rest).map Char.toLower := by
      rw [List.map_append, List.map_append, List.map_cons, List.map_cons, hcase]
    rw [Contains, if_neg Bool.false_ne_true]
    exact hmap ▸ List.infix_refl _
  · rw [Contains, if_pos rfl]
    intro hinfix
    have heq : before ++ c :: rest = before ++ d :: rest := hinfix.eq_of_length (by simp)
    exact hne (List.cons.inj (List.append_cancel_left heq)).1.symm

/-- **When `LIKE` is a search for the pattern itself**: there are no wildcards, and no letters if
their case is to matter. -/
theorem like_between_contains_iff (caseSensitive : Bool) (pattern : List Char) :
    (∀ text, Like ('%' :: (pattern ++ ['%'])) text ↔ Contains caseSensitive text pattern) ↔
      Plain pattern ∧ (caseSensitive = true → Caseless pattern) := by
  constructor
  · intro h
    have hplain : Plain pattern := by
      by_contra hwild
      have hfound : Contains caseSensitive (evade pattern) pattern :=
        (h _).mp (like_between_iff.mpr ⟨_, List.infix_refl _, like_evade pattern⟩)
      refine not_contains_evade hwild ?_
      cases caseSensitive with
      | false => exact hfound
      | true => exact contains_of_caseSensitive hfound
    refine ⟨hplain, ?_⟩
    rintro rfl
    by_contra hletter
    obtain ⟨text, hfound, hnot⟩ := exists_other_text hletter
    exact hnot ((h text).mp ((like_between_iff_contains hplain).mpr hfound))
  · rintro ⟨hplain, hcaseless⟩ text
    rw [like_between_iff_contains hplain]
    cases caseSensitive with
    | false => rfl
    | true => exact (contains_iff_of_caseless (hcaseless rfl)).symm

end SqlLike
