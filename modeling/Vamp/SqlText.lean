import Mathlib.Data.List.Perm.Subperm
import Mathlib.Data.Nat.Notation

/-!
# Texts of SQL statements and their values

A statement is a text with placeholders and a list of values, of which the `k`-th is bound to
the `k`-th placeholder. Programs often put text and list together in different places. A
**fragment** is a piece of the text with the values that are meant for it; it fits when it
has as many placeholders as values. Text and values of a list of fitting fragments belong
together (`placeholders_text`).

`emptyWhere` looks for a `WHERE` without a condition. A text that cannot contain the
beginning of a `WHERE`, whatever follows it, is quiet, and the search skips it.
-/

namespace SqlText

universe u

/-! ## Placeholders -/

/-- The number of placeholders in a text without string literals. -/
def placeholders (text : String) : ℕ := text.toList.count '?'

/-- The placeholders of a literal. -/
theorem placeholders_ofList (cs : List Char) : placeholders (String.ofList cs) = cs.count '?' := by
  rw [placeholders, String.toList_ofList]

@[simp] theorem placeholders_append (s t : String) :
    placeholders (s ++ t) = placeholders s + placeholders t := by
  rw [placeholders, String.toList_append, List.count_append]
  rfl

/-- Texts with a separator between them. -/
def join (separator : String) : List String → String
  | [] => ""
  | [text] => text
  | text :: text' :: texts => text ++ separator ++ join separator (text' :: texts)

/-- `n` placeholders, separated by commas. -/
def placeholderList (n : ℕ) : String := join ", " (List.replicate n "?")

@[simp] theorem placeholders_placeholderList (n : ℕ) : placeholders (placeholderList n) = n := by
  unfold placeholderList
  induction n with
  | zero => rfl
  | succ n ih =>
    cases n with
    | zero => rfl
    | succ n =>
      have hone : placeholders "?" = 1 := rfl
      have hcomma : placeholders ", " = 0 := rfl
      simp only [List.replicate_succ, join, placeholders_append, hone, hcomma] at ih ⊢
      omega

/-! ## Fragments -/

variable {α : Type u}

/-- A piece of a statement, and the values that are meant for its placeholders. -/
structure Fragment (α : Type u) : Type u where
  /-- the piece of the text -/
  text : String
  /-- its values, in order -/
  values : List α

/-- As many placeholders as values. -/
def Fragment.Fits (f : Fragment α) : Prop := placeholders f.text = f.values.length

/-- The text of a list of fragments. -/
def text : List (Fragment α) → String
  | [] => ""
  | f :: fs => f.text ++ text fs

/-- The values of a list of fragments. -/
def values (fs : List (Fragment α)) : List α := fs.flatMap Fragment.values

@[simp] theorem text_cons (f : Fragment α) (fs : List (Fragment α)) :
    text (f :: fs) = f.text ++ text fs := rfl

@[simp] theorem values_cons (f : Fragment α) (fs : List (Fragment α)) :
    values (f :: fs) = f.values ++ values fs := List.flatMap_cons

theorem text_append (fs fs' : List (Fragment α)) : text (fs ++ fs') = text fs ++ text fs' := by
  induction fs with
  | nil => rw [List.nil_append, text, String.empty_append]
  | cons f fs ih => rw [List.cons_append, text_cons, text_cons, ih, String.append_assoc]

theorem values_append (fs fs' : List (Fragment α)) :
    values (fs ++ fs') = values fs ++ values fs' := List.flatMap_append

/-- **Texts and values belong together** when every fragment fits. -/
theorem placeholders_text {fs : List (Fragment α)} (h : ∀ f ∈ fs, f.Fits) :
    placeholders (text fs) = (values fs).length := by
  induction fs with
  | nil => rfl
  | cons f fs ih =>
    have hf : placeholders f.text = f.values.length := h f (List.mem_cons_self ..)
    rw [text_cons, values_cons, placeholders_append, List.length_append, hf,
      ih fun f' hf' => h f' (List.mem_cons_of_mem f hf')]

/-- Fragments with a separator between them. -/
def separate (separator : String) (fs : List (Fragment α)) : List (Fragment α) :=
  fs.intersperse ⟨separator, []⟩

theorem text_separate (separator : String) (fs : List (Fragment α)) :
    text (separate separator fs) = join separator (fs.map Fragment.text) := by
  unfold separate
  induction fs with
  | nil => rfl
  | cons f fs ih =>
    cases fs with
    | nil => exact String.append_empty
    | cons f' fs =>
      rw [List.intersperse_cons_cons, text_cons, text_cons, ih, ← String.append_assoc]
      rfl

theorem values_separate (separator : String) (fs : List (Fragment α)) :
    values (separate separator fs) = values fs := by
  unfold separate
  induction fs with
  | nil => rfl
  | cons f fs ih =>
    cases fs with
    | nil => rfl
    | cons f' fs =>
      rw [List.intersperse_cons_cons, values_cons, values_cons, ih]
      rfl

theorem mem_separate {separator : String} {fs : List (Fragment α)} {f : Fragment α}
    (h : f ∈ separate separator fs) : f ∈ fs ∨ f = ⟨separator, []⟩ := by
  unfold separate at h
  induction fs with
  | nil => cases h
  | cons f₁ fs ih =>
    cases fs with
    | nil => exact Or.inl h
    | cons f₂ fs =>
      rw [List.intersperse_cons_cons] at h
      rcases List.mem_cons.mp h with rfl | h
      · exact Or.inl (List.mem_cons_self ..)
      · rcases List.mem_cons.mp h with rfl | h
        · exact Or.inr rfl
        · exact (ih h).imp_left (List.mem_cons_of_mem f₁)

/-- No fragment is lost between separators. -/
theorem sublist_separate (separator : String) (fs : List (Fragment α)) :
    fs.Sublist (separate separator fs) := by
  unfold separate
  induction fs with
  | nil => exact List.Sublist.refl []
  | cons f fs ih =>
    cases fs with
    | nil => exact List.Sublist.refl _
    | cons f' fs =>
      rw [List.intersperse_cons_cons]
      exact (ih.cons _).cons_cons f

/-! ## `WHERE` -/

/-- What a condition cannot begin with. -/
def clauseEnds : List String := [")", "group by", "having", "order by", "limit", "union"]

/-- The text begins with a word, in small letters or capitals. -/
def startsWith (word : String) (cs : List Char) : Bool :=
  word.toList.isPrefixOf (cs.map Char.toLower)

/-- After some blanks the text ends, or goes on with another clause. -/
def emptyCondition (cs : List Char) : Bool :=
  let rest := cs.dropWhile (· = ' ')
  rest.isEmpty || clauseEnds.any fun word => startsWith word rest

/-- There is a `WHERE` without a condition. -/
def emptyWhere : List Char → Bool
  | [] => false
  | c :: cs => (startsWith "where" (c :: cs) && emptyCondition (cs.drop 4)) || emptyWhere cs

/-- No `WHERE` begins in the text, whatever follows it. -/
def quiet : List Char → Bool
  | [] => true
  | [c] => c.toLower ≠ 'w'
  | c :: d :: cs => (c.toLower ≠ 'w' || d.toLower ≠ 'h') && quiet (d :: cs)

/-- The letters of a literal decide whether it is quiet. -/
theorem quiet_ofList {cs : List Char} (h : quiet cs = true) :
    quiet (String.ofList cs).toList = true := by
  rw [String.toList_ofList, h]

theorem quiet_append {cs ds : List Char} (hcs : quiet cs = true) (hds : quiet ds = true) :
    quiet (cs ++ ds) = true := by
  induction cs with
  | nil => exact hds
  | cons c cs ih =>
    cases cs with
    | nil =>
      cases ds with
      | nil => exact hcs
      | cons d ds =>
        rw [List.cons_append, List.nil_append, quiet, hds, Bool.and_true]
        exact (Bool.or_eq_true _ _).mpr (Or.inl hcs)
    | cons d cs =>
      rw [quiet, Bool.and_eq_true] at hcs
      rw [List.cons_append, List.cons_append, quiet, hcs.1, Bool.true_and]
      exact ih hcs.2

theorem quiet_placeholderList (n : ℕ) : quiet (placeholderList n).toList = true := by
  unfold placeholderList
  induction n with
  | zero => rfl
  | succ n ih =>
    cases n with
    | zero => rfl
    | succ n =>
      rw [List.replicate_succ, List.replicate_succ, join, ← List.replicate_succ,
        String.toList_append, String.toList_append]
      exact quiet_append (quiet_append rfl rfl) ih

/-- The first two letters decide. -/
theorem startsWith_where_eq_false {c : Char} {cs : List Char}
    (h : c.toLower ≠ 'w' ∨ ∃ d ds, cs = d :: ds ∧ d.toLower ≠ 'h') :
    startsWith "where" (c :: cs) = false := by
  have hword : "where".toList = ['w', 'h', 'e', 'r', 'e'] := rfl
  rw [startsWith, hword, List.map_cons, List.isPrefixOf]
  rcases h with hw | ⟨d, ds, rfl, hh⟩
  · rw [beq_false_of_ne (Ne.symm hw), Bool.false_and]
  · rw [List.map_cons, List.isPrefixOf, beq_false_of_ne (Ne.symm hh), Bool.false_and,
      Bool.and_false]

/-- The search skips a quiet text. -/
theorem emptyWhere_append {cs : List Char} (h : quiet cs = true) (ds : List Char) :
    emptyWhere (cs ++ ds) = emptyWhere ds := by
  induction cs with
  | nil => rfl
  | cons c cs ih =>
    have hstart : startsWith "where" (c :: (cs ++ ds)) = false ∧ quiet cs = true := by
      cases cs with
      | nil => exact ⟨startsWith_where_eq_false (Or.inl (of_decide_eq_true h)), rfl⟩
      | cons d cs =>
        rw [quiet, Bool.and_eq_true, Bool.or_eq_true] at h
        obtain ⟨hletters, hquiet⟩ := h
        refine ⟨startsWith_where_eq_false ?_, hquiet⟩
        rcases hletters with hw | hh
        · exact Or.inl (of_decide_eq_true hw)
        · exact Or.inr ⟨d, cs ++ ds, rfl, of_decide_eq_true hh⟩
    rw [List.cons_append, emptyWhere, hstart.1, Bool.false_and, Bool.false_or, ih hstart.2]

theorem emptyWhere_of_quiet {cs : List Char} (h : quiet cs = true) : emptyWhere cs = false := by
  rw [← List.append_nil cs, emptyWhere_append h]
  rfl

/-- The search at a `WHERE` goes by what comes next. -/
theorem emptyWhere_where {c : Char} {word : List Char} (hlength : word.length = 4)
    (hword : startsWith "where" (c :: word) = true) (hquiet : quiet word = true)
    (ds : List Char) :
    emptyWhere (c :: (word ++ ds)) = (emptyCondition ds || emptyWhere ds) := by
  have hstart : startsWith "where" (c :: (word ++ ds)) = true := by
    rw [startsWith, List.isPrefixOf_iff_prefix] at hword ⊢
    rw [← List.cons_append, List.map_append]
    exact hword.trans (List.prefix_append _ _)
  rw [emptyWhere, hstart, Bool.true_and, ← hlength, List.drop_left, emptyWhere_append hquiet]

/-- The search skips a `WHERE` with a quiet condition. -/
theorem emptyWhere_skip {before condition : String} (hbefore : quiet before.toList = true)
    (hquiet : quiet condition.toList = true)
    (hbegins : ∀ cs, emptyCondition (condition.toList ++ cs) = false) {where_ : String}
    (hwhere : where_ = "WHERE " ∨ where_ = "where ") (cs : List Char) :
    emptyWhere ((before ++ where_ ++ condition).toList ++ cs) = emptyWhere cs := by
  have hblank : ∀ ds, emptyCondition (' ' :: ds) = emptyCondition ds := fun _ => rfl
  have hword : ∀ c word, where_.toList = c :: (word ++ [' ']) → word.length = 4 →
      startsWith "where" (c :: word) = true → quiet word = true →
      emptyWhere ((before ++ where_ ++ condition).toList ++ cs) = emptyWhere cs := by
    intro c word htext hlength hstart hword
    rw [String.toList_append, String.toList_append, htext, List.append_assoc, List.append_assoc,
      emptyWhere_append hbefore, List.cons_append, List.append_assoc,
      emptyWhere_where hlength hstart hword, List.cons_append, List.nil_append, hblank, hbegins,
      Bool.false_or]
    have hspace : quiet [' '] = true := rfl
    rw [← List.singleton_append, emptyWhere_append hspace, emptyWhere_append hquiet]
  rcases hwhere with rfl | rfl
  · exact hword 'W' ['H', 'E', 'R', 'E'] rfl rfl rfl rfl
  · exact hword 'w' ['h', 'e', 'r', 'e'] rfl rfl rfl rfl

end SqlText
