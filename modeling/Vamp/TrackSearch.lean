import Vamp.BigintId
import Vamp.SqlText

/-!
# The statement of `get_tracks`

`get_tracks` of `sqlite.rs` assembles a statement from criteria, in one place, and binds
values to it, in another. The definitions follow it: `collect` walks through the criteria,
`sqlText` puts the text together and `bound` lists the values in the order in which they
are bound. `f64` is the parameter `ρ`.

Over it stands what is expected of text and values together (`Agrees`), which does not
depend on how they are made: the statement falls into fragments that fit, among them one
for every criterion and the two windows of the page. It is met exactly by the searches
that filter by no tag (`get_tracks_agrees_iff`): the tag queries contain one more
placeholder, a `LIMIT`, for which nothing is bound.
-/

namespace Vamp

namespace TrackSearch

open SqlText

variable {ρ : Type}

/-- `NumericOperator`. -/
inductive NumericOperator : Type where
  | lt | gt | eq | lte | gte | ne
  deriving DecidableEq, Repr

/-- `NumericOperator::as_sql`. -/
def NumericOperator.asSql : NumericOperator → String
  | lt => "<"
  | gt => ">"
  | eq => "="
  | lte => "<="
  | gte => ">="
  | ne => "!="

/-- `SearchParam`. -/
inductive SearchParam (ρ : Type) : Type where
  | numericComparison (operator : NumericOperator) (value : ρ)
  | numericBetween (min max : ρ)
  | textLike (pattern : String) (caseSensitive : Bool)
  | textIn (values : List String)
  | nullCheck (isNull : Bool)
  /-- at least one of the tags -/
  | tagsIn (tagIds : List BigintId)
  /-- all of the tags -/
  | tagsAll (tagIds : List BigintId)

/-- `SearchCriteria`. -/
structure SearchCriteria (ρ : Type) : Type where
  /-- a column of `track_info`, or `tags` -/
  columnName : String
  /-- what is asked of it -/
  criteria : List (SearchParam ρ)

/-- `BindVal`. -/
inductive BindVal (ρ : Type) : Type where
  | int (n : ℤ)
  | float (x : ρ)
  | text (s : String)

/-- `TagFilter`. -/
inductive TagFilter : Type where
  | any (tagIds : List ℤ)
  | all (tagIds : List ℤ)

/-- How `get_tracks` ends without a statement. -/
inductive Failure : Type where
  /-- `sqlx::Error::Protocol` -/
  | protocol (message : String)
  /-- `BigintId::to_i64` panics -/
  | panic
  deriving DecidableEq, Repr

/-- `ALLOWED_COLUMNS`. -/
def allowedColumns : List String :=
  ["id", "artist", "track_name", "length_seconds", "bitrate_kbps", "tempo_bpm", "addition_time"]

/-- The variables that the loop over the criteria fills. -/
structure Collected (ρ : Type) : Type where
  /-- `conditions` -/
  conditions : List String
  /-- `bind_vals` -/
  bindVals : List (BindVal ρ)
  /-- `tag_filter` -/
  tagFilter : Option TagFilter

/-- A condition and its values are pushed. -/
def Collected.push (c : Collected ρ) (condition : String) (vals : List (BindVal ρ)) :
    Collected ρ :=
  { c with conditions := c.conditions ++ [condition], bindVals := c.bindVals ++ vals }

/-- `tag_ids.iter().map(|id| id.to_i64()).collect()`. -/
def toI64s (tagIds : List BigintId) : Except Failure (List ℤ) :=
  match tagIds.mapM BigintId.toI64 with
  | some ids => .ok ids
  | none => .error .panic

/-- A parameter of the column `tags`. -/
def collectTag (c : Collected ρ) : SearchParam ρ → Except Failure (Collected ρ)
  | .tagsIn tagIds =>
    if tagIds.isEmpty then .ok (c.push "1 = 0" [])
    else do
      let ids ← toI64s tagIds
      .ok { c with tagFilter := some (.any ids) }
  | .tagsAll tagIds =>
    if tagIds.isEmpty then .ok (c.push "1 = 0" [])
    else do
      let ids ← toI64s tagIds
      .ok { c with tagFilter := some (.all ids) }
  | _ => .error (.protocol "get_tracks: 'tags' column only supports TagsIn/TagsAll criteria")

/-- A parameter of any other column. -/
def collectParam (col : String) (c : Collected ρ) : SearchParam ρ → Except Failure (Collected ρ)
  | .numericComparison operator value =>
    .ok (c.push ("ti." ++ col ++ " " ++ operator.asSql ++ " ?") [.float value])
  | .numericBetween min max =>
    .ok (c.push ("ti." ++ col ++ " BETWEEN ? AND ?") [.float min, .float max])
  | .textLike pattern _ => .ok (c.push ("ti." ++ col ++ " LIKE ?") [.text pattern])
  | .textIn values =>
    if values.isEmpty then .ok (c.push "1 = 0" [])
    else .ok (c.push ("ti." ++ col ++ " IN (" ++ placeholderList values.length ++ ")")
      (values.map .text))
  | .nullCheck isNull =>
    if isNull then .ok (c.push ("ti." ++ col ++ " IS NULL") [])
    else .ok (c.push ("ti." ++ col ++ " IS NOT NULL") [])
  | .tagsIn _ | .tagsAll _ =>
    .error (.protocol "get_tracks: TagsIn/TagsAll are only valid for column 'tags'")

/-- One member of the criteria list. -/
def collect (c : Collected ρ) (sc : SearchCriteria ρ) : Except Failure (Collected ρ) :=
  if sc.columnName = "tags" then sc.criteria.foldlM collectTag c
  else if sc.columnName ∉ allowedColumns then
    .error (.protocol ("get_tracks: unknown column '" ++ sc.columnName ++ "'"))
  else sc.criteria.foldlM (collectParam sc.columnName) c

/-- The query inside `s1`. -/
def innerSql (c : Collected ρ) : String :=
  match c.tagFilter with
  | none =>
    if c.conditions.isEmpty then "SELECT * FROM track_info"
    else "SELECT ti.* FROM track_info ti WHERE " ++ join " AND " c.conditions
  | some (.any tagIds) =>
    "SELECT ti.* FROM (SELECT DISTINCT track_id FROM tag_assignments WHERE tag_id IN (" ++
      placeholderList tagIds.length ++ ") AND track_id >= ?) ta " ++
      "INNER JOIN track_info ti ON ti.id = ta.track_id WHERE " ++ join " AND " c.conditions ++
      " ORDER BY ti.id ASC LIMIT ?"
  | some (.all tagIds) =>
    "SELECT ti.* FROM (SELECT track_id FROM tag_assignments WHERE tag_id IN (" ++
      placeholderList tagIds.length ++ ") AND track_id >= ? " ++
      "GROUP BY track_id HAVING COUNT(DISTINCT tag_id) = ?) ta " ++
      "INNER JOIN track_info ti ON ti.id = ta.track_id WHERE " ++ join " AND " c.conditions ++
      " ORDER BY ti.id ASC LIMIT ?"

/-- The whole statement. -/
def sqlText (c : Collected ρ) : String :=
  "with s1 as (" ++ innerSql c ++ "),  oPrior as (select * from s1" ++
    " where id < ? order by id desc limit ?" ++ "), oAfter as (select * from s1" ++
    " where id >= ? order by id asc limit ?" ++
    ") select * from oPrior union all  select * from oAfter order by id asc"

/-- The values, in the order in which they are bound: first those of the tag filter. -/
def bound (c : Collected ρ) (after limit : ℤ) : List (BindVal ρ) :=
  (match c.tagFilter with
    | some (.any tagIds) => tagIds.map .int ++ [.int after]
    | some (.all tagIds) => tagIds.map .int ++ [.int after, .int tagIds.length]
    | none => []) ++
  (c.bindVals ++ [.int after, .int limit, .int after, .int limit])

/-- `get_tracks`, up to the call of the database: the statement and its values. -/
def getTracks (cursor : Option ℤ) (criteria : Option (List (SearchCriteria ρ))) (limit : ℤ) :
    Except Failure (String × List (BindVal ρ)) := do
  let c ← (criteria.getD []).foldlM collect ⟨[], [], none⟩
  .ok (sqlText c, bound c (cursor.getD 0) limit)

/-! ## What is expected -/

/-- The tags that a parameter asks for. -/
def SearchParam.tagIds : SearchParam ρ → List BigintId
  | .tagsIn tagIds | .tagsAll tagIds => tagIds
  | _ => []

/-- The fragment of a parameter: a condition, or a query for tracks with the tags. -/
def paramFragment (after : ℤ) (col : String) : SearchParam ρ → Fragment (BindVal ρ)
  | .numericComparison operator value =>
    ⟨"ti." ++ col ++ " " ++ operator.asSql ++ " ?", [.float value]⟩
  | .numericBetween min max => ⟨"ti." ++ col ++ " BETWEEN ? AND ?", [.float min, .float max]⟩
  | .textLike pattern _ => ⟨"ti." ++ col ++ " LIKE ?", [.text pattern]⟩
  | .textIn values =>
    if values = [] then ⟨"1 = 0", []⟩
    else ⟨"ti." ++ col ++ " IN (" ++ placeholderList values.length ++ ")", values.map .text⟩
  | .nullCheck isNull => ⟨"ti." ++ col ++ (if isNull then " IS NULL" else " IS NOT NULL"), []⟩
  | .tagsIn tagIds =>
    if tagIds = [] then ⟨"1 = 0", []⟩
    else ⟨"(SELECT DISTINCT track_id FROM tag_assignments WHERE tag_id IN (" ++
      placeholderList tagIds.length ++ ") AND track_id >= ?)",
      (tagIds.filterMap BigintId.toI64).map .int ++ [.int after]⟩
  | .tagsAll tagIds =>
    if tagIds = [] then ⟨"1 = 0", []⟩
    else ⟨"(SELECT track_id FROM tag_assignments WHERE tag_id IN (" ++
      placeholderList tagIds.length ++ ") AND track_id >= ? " ++
      "GROUP BY track_id HAVING COUNT(DISTINCT tag_id) = ?)",
      (tagIds.filterMap BigintId.toI64).map .int ++ [.int after, .int tagIds.length]⟩

/-- The fragments of a member of the criteria list, one for each parameter. -/
def criterionFragments (after : ℤ) (sc : SearchCriteria ρ) : List (Fragment (BindVal ρ)) :=
  sc.criteria.map (paramFragment after sc.columnName)

/-- The two windows of the page: what comes before the cursor, and from it on. -/
def windows (after limit : ℤ) : List (Fragment (BindVal ρ)) :=
  [⟨" where id < ? order by id desc limit ?", [.int after, .int limit]⟩,
    ⟨" where id >= ? order by id asc limit ?", [.int after, .int limit]⟩]

/-- Text and values belong together. -/
structure Agrees (after limit : ℤ) (criteria : List (SearchCriteria ρ)) (sql : String)
    (vals : List (BindVal ρ)) : Prop where
  /-- as many placeholders as values -/
  count : placeholders sql = vals.length
  /-- the statement falls into fragments that fit, with one for each criterion and each
  window -/
  fragments : ∃ fs : List (Fragment (BindVal ρ)), text fs = sql ∧ values fs = vals ∧
    (∀ f ∈ fs, f.Fits) ∧
    (criteria.flatMap (criterionFragments after) ++ windows after limit).Subperm fs
  /-- every `WHERE` has a condition -/
  conditions : emptyWhere sql.toList = false

/-- The search filters by no tag. -/
def FiltersByNoTag (criteria : List (SearchCriteria ρ)) : Prop :=
  ∀ sc ∈ criteria, ∀ param ∈ sc.criteria, param.tagIds = []

/-! ## What the loop collects -/

variable {after limit : ℤ} {col : String} {c c' : Collected ρ} {param : SearchParam ρ}

/-- The fragment that a parameter adds to the conditions, if it filters by no tag. -/
def plain (after : ℤ) (col : String) (param : SearchParam ρ) : List (Fragment (BindVal ρ)) :=
  if param.tagIds = [] then [paramFragment after col param] else []

/-- The fragment can stand as a condition: it fits, has no `WHERE` of its own, and is not
taken for another clause. -/
structure IsCondition (f : Fragment (BindVal ρ)) : Prop where
  /-- as many placeholders as values -/
  fits : f.Fits
  /-- no `WHERE` -/
  quiet : quiet f.text.toList = true
  /-- a condition is there -/
  begins : ∀ cs, emptyCondition (f.text.toList ++ cs) = false

theorem isCondition_false : IsCondition (⟨"1 = 0", []⟩ : Fragment (BindVal ρ)) where
  fits := placeholders_ofList _
  quiet := (by decide : SqlText.quiet "1 = 0".toList = true)
  begins cs := by
    have htext : "1 = 0".toList = ['1', ' ', '=', ' ', '0'] := rfl
    rw [htext]
    rfl

/-- The columns contain no placeholder and no `WHERE`. -/
theorem allowedColumns_quiet (hcol : col ∈ allowedColumns) :
    placeholders col = 0 ∧ quiet col.toList = true := by
  revert col
  decide

/-- A condition on a column. -/
theorem isCondition_column (hcol : col ∈ allowedColumns) {rest : String}
    {vals : List (BindVal ρ)} (hfits : placeholders rest = vals.length)
    (hquiet : SqlText.quiet rest.toList = true) : IsCondition ⟨"ti." ++ col ++ rest, vals⟩ where
  fits := by
    have hinit : placeholders "ti." = 0 := rfl
    have hname := (allowedColumns_quiet hcol).1
    simp only [Fragment.Fits, placeholders_append]
    omega
  quiet := by
    rw [String.toList_append, String.toList_append]
    exact quiet_append (quiet_append rfl (allowedColumns_quiet hcol).2) hquiet
  begins cs := by
    rw [String.toList_append, String.toList_append]
    rfl

/-- The conditions have grown by some fragments; and a tag filter, once set, remains. -/
structure Grown (fs : List (Fragment (BindVal ρ))) (untagged : Prop) (c c' : Collected ρ) :
    Prop where
  /-- they are conditions -/
  sound : ∀ f ∈ fs, IsCondition f
  /-- the texts are pushed -/
  conditions : c'.conditions = c.conditions ++ fs.map Fragment.text
  /-- and so are the values -/
  bindVals : c'.bindVals = c.bindVals ++ values fs
  /-- there is a tag filter if one was set, before or now -/
  tagFilter : c'.tagFilter = none ↔ c.tagFilter = none ∧ untagged

theorem grown_push {f : Fragment (BindVal ρ)} (h : IsCondition f) :
    Grown [f] True c (c.push f.text f.values) where
  sound _ hf := List.mem_singleton.mp hf ▸ h
  conditions := rfl
  bindVals := by
    rw [values_cons]
    exact congrArg (c.bindVals ++ ·) (List.append_nil _).symm
  tagFilter := (and_iff_left trivial).symm

theorem grown_tagFilter (filter : TagFilter) :
    Grown [] False c { c with tagFilter := some filter } where
  sound := nofun
  conditions := (List.append_nil _).symm
  bindVals := (List.append_nil _).symm
  tagFilter := iff_of_false nofun fun h => h.2

theorem Grown.congr {fs fs' : List (Fragment (BindVal ρ))} {p p' : Prop} (h : Grown fs p c c')
    (hfs : fs = fs') (hp : p ↔ p') : Grown fs' p' c c' where
  sound := hfs ▸ h.sound
  conditions := hfs ▸ h.conditions
  bindVals := hfs ▸ h.bindVals
  tagFilter := h.tagFilter.trans (and_congr_right fun _ => hp)

/-- Tags are read, or the function panics. -/
theorem toI64s_cases (tagIds : List BigintId) :
    (∃ ids, toI64s tagIds = .ok ids) ∨ toI64s tagIds = .error .panic := by
  unfold toI64s
  cases tagIds.mapM BigintId.toI64 with
  | none => exact Or.inr rfl
  | some ids => exact Or.inl ⟨ids, rfl⟩

/-- A parameter of the column `tags`. -/
theorem collectTag_grown (h : collectTag c param = .ok c') :
    Grown (plain after col param) (param.tagIds = []) c c' := by
  have hset : ∀ (tagIds : List BigintId) (filter : List ℤ → TagFilter), tagIds ≠ [] →
      (do let ids ← toI64s tagIds; .ok { c with tagFilter := some (filter ids) }) = .ok c' →
      Grown [] (tagIds = []) c c' := by
    intro tagIds filter hne h
    rcases toI64s_cases tagIds with ⟨ids, hids⟩ | hpanic
    · rw [hids] at h
      obtain rfl := Except.ok.inj h
      exact (grown_tagFilter _).congr rfl (iff_of_false not_false hne)
    · rw [hpanic] at h
      cases h
  cases param with
  | tagsIn tagIds =>
    cases tagIds with
    | nil =>
      obtain rfl := Except.ok.inj h
      exact (grown_push isCondition_false).congr rfl (iff_of_true trivial rfl)
    | cons id tagIds =>
      exact (hset (id :: tagIds) .any (List.cons_ne_nil _ _) h).congr rfl Iff.rfl
  | tagsAll tagIds =>
    cases tagIds with
    | nil =>
      obtain rfl := Except.ok.inj h
      exact (grown_push isCondition_false).congr rfl (iff_of_true trivial rfl)
    | cons id tagIds =>
      exact (hset (id :: tagIds) .all (List.cons_ne_nil _ _) h).congr rfl Iff.rfl
  | numericComparison | numericBetween | textLike | textIn | nullCheck => cases h

/-- A parameter of any other column. -/
theorem collectParam_grown (hcol : col ∈ allowedColumns) (h : collectParam col c param = .ok c') :
    Grown (plain after col param) (param.tagIds = []) c c' := by
  have hpush : ∀ f : Fragment (BindVal ρ), IsCondition f → c.push f.text f.values = c' →
      plain after col param = [f] → param.tagIds = [] →
      Grown (plain after col param) (param.tagIds = []) c c' := by
    rintro f hf rfl hplain htags
    exact (grown_push hf).congr hplain.symm (iff_of_true trivial htags)
  cases param with
  | numericComparison operator value =>
    refine hpush ⟨_, _⟩ ?_ (Except.ok.inj h) rfl rfl
    have hassoc : "ti." ++ col ++ " " ++ operator.asSql ++ " ?" =
        "ti." ++ col ++ (" " ++ operator.asSql ++ " ?") := by simp only [String.append_assoc]
    rw [hassoc]
    cases operator <;> exact isCondition_column hcol rfl rfl
  | numericBetween min max =>
    exact hpush _ (isCondition_column hcol rfl rfl) (Except.ok.inj h) rfl rfl
  | textLike pattern caseSensitive =>
    exact hpush _ (isCondition_column hcol rfl rfl) (Except.ok.inj h) rfl rfl
  | textIn texts =>
    cases texts with
    | nil => exact hpush _ isCondition_false (Except.ok.inj h) rfl rfl
    | cons text texts =>
      refine hpush ⟨_, _⟩ ?_ (Except.ok.inj h) rfl rfl
      have hassoc : ∀ list : String, "ti." ++ col ++ " IN (" ++ list ++ ")" =
          "ti." ++ col ++ (" IN (" ++ list ++ ")") := by
        intro list
        simp only [String.append_assoc]
      rw [hassoc]
      refine isCondition_column hcol ?_ ?_
      · have hopen : placeholders " IN (" = 0 := rfl
        have hclose : placeholders ")" = 0 := rfl
        simp only [placeholders_append, placeholders_placeholderList, hopen, hclose,
          List.length_cons, List.length_map]
        omega
      · rw [String.toList_append, String.toList_append]
        exact quiet_append (quiet_append rfl (quiet_placeholderList _)) rfl
  | nullCheck isNull =>
    cases isNull with
    | true => exact hpush _ (isCondition_column hcol rfl rfl) (Except.ok.inj h) rfl rfl
    | false => exact hpush _ (isCondition_column hcol rfl rfl) (Except.ok.inj h) rfl rfl
  | tagsIn | tagsAll => cases h

theorem Grown.trans {fs fs' : List (Fragment (BindVal ρ))} {p p' : Prop} {c'' : Collected ρ}
    (h : Grown fs p c c') (h' : Grown fs' p' c' c'') : Grown (fs ++ fs') (p ∧ p') c c'' where
  sound f hf := (List.mem_append.mp hf).elim (h.sound f) (h'.sound f)
  conditions := by rw [h'.conditions, h.conditions, List.map_append, List.append_assoc]
  bindVals := by rw [h'.bindVals, h.bindVals, values_append, List.append_assoc]
  tagFilter := by rw [h'.tagFilter, h.tagFilter, and_assoc]

/-- A loop grows as its steps do. -/
theorem foldlM_grown {β : Type} {f : Collected ρ → β → Except Failure (Collected ρ)}
    {frag : β → List (Fragment (BindVal ρ))} {untagged : β → Prop}
    (step : ∀ c b c', f c b = .ok c' → Grown (frag b) (untagged b) c c') {l : List β}
    (h : l.foldlM f c = .ok c') : Grown (l.flatMap frag) (∀ b ∈ l, untagged b) c c' := by
  induction l generalizing c with
  | nil =>
    obtain rfl := Except.ok.inj h
    exact ⟨nofun, (List.append_nil _).symm, (List.append_nil _).symm, (and_iff_left nofun).symm⟩
  | cons b l ih =>
    rw [List.foldlM_cons] at h
    cases hb : f c b with
    | error failure =>
      rw [hb] at h
      cases h
    | ok c₁ =>
      rw [hb] at h
      exact ((step c b c₁ hb).trans (ih h)).congr rfl List.forall_mem_cons.symm

/-- The fragments that a member of the criteria list adds to the conditions. -/
def plains (after : ℤ) (sc : SearchCriteria ρ) : List (Fragment (BindVal ρ)) :=
  sc.criteria.flatMap (plain after sc.columnName)

/-- A member of the criteria list. -/
theorem collect_grown {sc : SearchCriteria ρ} (h : collect c sc = .ok c') :
    Grown (plains after sc) (∀ param ∈ sc.criteria, param.tagIds = []) c c' := by
  unfold collect at h
  split at h
  · exact foldlM_grown (fun _ _ _ => collectTag_grown) h
  · split at h
    · cases h
    · rename_i hcol
      exact foldlM_grown (fun _ _ _ => collectParam_grown (not_not.mp hcol)) h

/-- **All criteria**: one condition for every parameter that filters by no tag, and a tag
filter if some parameter filters by tags. -/
theorem collect_all_grown {criteria : List (SearchCriteria ρ)}
    (h : criteria.foldlM collect c = .ok c') :
    Grown (criteria.flatMap (plains after)) (FiltersByNoTag criteria) c c' :=
  foldlM_grown (fun _ _ _ => collect_grown) h

/-! ## Searches that filter by no tag -/

/-- A loop panics only if a step does. -/
theorem foldlM_ne_panic {β : Type} {f : Collected ρ → β → Except Failure (Collected ρ)}
    {l : List β} (step : ∀ c, ∀ b ∈ l, f c b ≠ .error .panic) :
    l.foldlM f c ≠ .error .panic := by
  induction l generalizing c with
  | nil => nofun
  | cons b l ih =>
    rw [List.foldlM_cons]
    cases hb : f c b with
    | error failure =>
      intro h
      exact step c b (List.mem_cons_self ..) (hb.trans h)
    | ok c₁ => exact ih fun c b' hb' => step c b' (List.mem_cons_of_mem b hb')

/-- Conditions that are joined stay quiet, and begin like the first of them. -/
theorem quiet_separate {fs : List (Fragment (BindVal ρ))} (h : ∀ f ∈ fs, IsCondition f) :
    SqlText.quiet (text (separate " AND " fs)).toList = true := by
  have hall : ∀ f ∈ separate " AND " fs, SqlText.quiet f.text.toList = true := by
    intro f hf
    rcases mem_separate hf with hf | rfl
    · exact (h f hf).quiet
    · exact (by decide : SqlText.quiet " AND ".toList = true)
  generalize separate " AND " fs = gs at hall
  induction gs with
  | nil => rfl
  | cons g gs ih =>
    rw [text_cons, String.toList_append]
    exact quiet_append (hall g (List.mem_cons_self ..))
      (ih fun f hf => hall f (List.mem_cons_of_mem g hf))

theorem begins_separate {f : Fragment (BindVal ρ)} {fs : List (Fragment (BindVal ρ))}
    (h : IsCondition f) (cs : List Char) :
    emptyCondition ((text (separate " AND " (f :: fs))).toList ++ cs) = false := by
  cases fs with
  | nil =>
    have htext : text (separate " AND " [f]) = f.text := String.append_empty
    rw [htext]
    exact h.begins cs
  | cons f' fs =>
    have htext : text (separate " AND " (f :: f' :: fs)) =
        f.text ++ text (⟨" AND ", []⟩ :: separate " AND " (f' :: fs)) := rfl
    rw [htext, String.toList_append, List.append_assoc]
    exact h.begins _

/-- The fragments of the statement around the query inside `s1`. -/
def around (after limit : ℤ) (inner : List (Fragment (BindVal ρ))) :
    List (Fragment (BindVal ρ)) :=
  ⟨"with s1 as (", []⟩ :: (inner ++
    [⟨"),  oPrior as (select * from s1", []⟩,
      ⟨" where id < ? order by id desc limit ?", [.int after, .int limit]⟩,
      ⟨"), oAfter as (select * from s1", []⟩,
      ⟨" where id >= ? order by id asc limit ?", [.int after, .int limit]⟩,
      ⟨") select * from oPrior union all  select * from oAfter order by id asc", []⟩])

theorem text_around (after limit : ℤ) (inner : List (Fragment (BindVal ρ))) :
    text (around after limit inner) = "with s1 as (" ++ text inner ++
      "),  oPrior as (select * from s1" ++
      " where id < ? order by id desc limit ?" ++ "), oAfter as (select * from s1" ++
      " where id >= ? order by id asc limit ?" ++
      ") select * from oPrior union all  select * from oAfter order by id asc" := by
  simp only [around, text_cons, text_append, text, String.append_assoc, String.append_empty]

theorem values_around (after limit : ℤ) (inner : List (Fragment (BindVal ρ))) :
    values (around after limit inner) =
      values inner ++ [.int after, .int limit, .int after, .int limit] := by
  rw [around, values_cons, values_append]
  rfl

theorem fits_around {inner : List (Fragment (BindVal ρ))} (h : ∀ f ∈ inner, f.Fits) :
    ∀ f ∈ around after limit inner, f.Fits := by
  intro f hf
  rcases List.mem_cons.mp hf with rfl | hf
  · exact placeholders_ofList _
  · rcases List.mem_append.mp hf with hf | hf
    · exact h f hf
    · simp only [List.mem_cons, List.not_mem_nil, or_false] at hf
      rcases hf with rfl | rfl | rfl | rfl | rfl <;> exact placeholders_ofList _

/-- The fragments of the query inside `s1`, when no tags are asked for. -/
def plainInner (conditions : List (Fragment (BindVal ρ))) : List (Fragment (BindVal ρ)) :=
  if conditions.isEmpty then [⟨"SELECT * FROM track_info", []⟩]
  else ⟨"SELECT ti.* FROM track_info ti WHERE ", []⟩ :: separate " AND " conditions

theorem innerSql_eq {fs : List (Fragment (BindVal ρ))}
    (hconditions : c.conditions = fs.map Fragment.text) (htags : c.tagFilter = none) :
    innerSql c = text (plainInner fs) := by
  rw [innerSql, htags, hconditions, plainInner, List.isEmpty_map]
  dsimp only
  split
  · rfl
  · rw [text_cons, text_separate]

/-- In what comes after the query inside `s1`, every `WHERE` has a condition. -/
theorem emptyWhere_suffix : emptyWhere ("),  oPrior as (select * from s1" ++
    (" where id < ? order by id desc limit ?" ++ ("), oAfter as (select * from s1" ++
      (" where id >= ? order by id asc limit ?" ++
        ") select * from oPrior union all  select * from oAfter order by id asc")))).toList =
    false := by
  have hprior : " where id < ? order by id desc limit ?" =
      " " ++ "where " ++ "id < ? order by id desc limit ?" := rfl
  have hafter : " where id >= ? order by id asc limit ?" =
      " " ++ "where " ++ "id >= ? order by id asc limit ?" := rfl
  rw [String.toList_append, emptyWhere_append (quiet_ofList rfl), String.toList_append, hprior,
    emptyWhere_skip (quiet_ofList rfl) (quiet_ofList rfl) (fun _ => rfl) (Or.inr rfl),
    String.toList_append, emptyWhere_append (quiet_ofList rfl), String.toList_append, hafter,
    emptyWhere_skip (quiet_ofList rfl) (quiet_ofList rfl) (fun _ => rfl) (Or.inr rfl)]
  exact emptyWhere_of_quiet (quiet_ofList rfl)

theorem emptyWhere_around {fs : List (Fragment (BindVal ρ))} (h : ∀ f ∈ fs, IsCondition f) :
    emptyWhere (text (around after limit (plainInner fs))).toList = false := by
  rw [text_around]
  simp only [String.append_assoc]
  rw [String.toList_append, emptyWhere_append (quiet_ofList rfl)]
  cases fs with
  | nil =>
    have hinner : text (plainInner ([] : List (Fragment (BindVal ρ)))) =
        "SELECT * FROM track_info" := String.append_empty
    rw [hinner, String.toList_append, emptyWhere_append (quiet_ofList rfl), emptyWhere_suffix]
  | cons f fs =>
    have hinner : text (plainInner (f :: fs)) = "SELECT ti.* FROM track_info ti " ++ "WHERE " ++
        text (separate " AND " (f :: fs)) := rfl
    rw [hinner, String.toList_append, emptyWhere_skip (quiet_ofList rfl) (quiet_separate h)
      (begins_separate (h f (List.mem_cons_self ..))) (Or.inl rfl), emptyWhere_suffix]

/-! ## Searches that filter by tags -/

/-- **One placeholder too many**: with a tag filter, the text has a placeholder more than
there are values. -/
theorem placeholders_sqlText {fs : List (Fragment (BindVal ρ))} {filter : TagFilter}
    (hfits : ∀ f ∈ fs, f.Fits) (hconditions : c.conditions = fs.map Fragment.text)
    (hvals : c.bindVals = values fs) (htags : c.tagFilter = some filter) :
    placeholders (sqlText c) = (bound c after limit).length + 1 := by
  have hjoin : placeholders (join " AND " c.conditions) = c.bindVals.length := by
    rw [hconditions, ← text_separate, placeholders_text, values_separate, hvals]
    intro f hf
    rcases mem_separate hf with hf | rfl
    · exact hfits f hf
    · exact placeholders_ofList _
  have hwith : placeholders "with s1 as (" = 0 := placeholders_ofList _
  have hprior : placeholders "),  oPrior as (select * from s1" = 0 := placeholders_ofList _
  have hbefore : placeholders " where id < ? order by id desc limit ?" = 2 := placeholders_ofList _
  have hafter : placeholders "), oAfter as (select * from s1" = 0 := placeholders_ofList _
  have hfrom : placeholders " where id >= ? order by id asc limit ?" = 2 := placeholders_ofList _
  have hend : placeholders
      ") select * from oPrior union all  select * from oAfter order by id asc" = 0 :=
    placeholders_ofList _
  have hsql : placeholders (sqlText c) = placeholders (innerSql c) + 4 := by
    delta sqlText
    rw [placeholders_append, placeholders_append, placeholders_append, placeholders_append,
      placeholders_append, placeholders_append, hwith, hprior, hbefore, hafter, hfrom, hend]
    omega
  have hjoined : placeholders "INNER JOIN track_info ti ON ti.id = ta.track_id WHERE " = 0 :=
    placeholders_ofList _
  have hlimit : placeholders " ORDER BY ti.id ASC LIMIT ?" = 1 := placeholders_ofList _
  cases filter with
  | any tagIds =>
    have hselect : placeholders
        "SELECT ti.* FROM (SELECT DISTINCT track_id FROM tag_assignments WHERE tag_id IN (" = 0 :=
      placeholders_ofList _
    have hcursor : placeholders ") AND track_id >= ?) ta " = 1 := placeholders_ofList _
    have hinner : placeholders (innerSql c) = tagIds.length + 1 + c.bindVals.length + 1 := by
      simp only [innerSql, htags]
      rw [placeholders_append, placeholders_append, placeholders_append, placeholders_append,
        placeholders_append, hselect, placeholders_placeholderList, hcursor, hjoined, hjoin, hlimit]
      omega
    rw [hsql, hinner]
    simp only [bound, htags, List.length_append, List.length_map, List.length_cons, List.length_nil]
    omega
  | all tagIds =>
    have hselect : placeholders
        "SELECT ti.* FROM (SELECT track_id FROM tag_assignments WHERE tag_id IN (" = 0 :=
      placeholders_ofList _
    have hcursor : placeholders ") AND track_id >= ? " = 1 := placeholders_ofList _
    have hgroup : placeholders "GROUP BY track_id HAVING COUNT(DISTINCT tag_id) = ?) ta " = 1 :=
      placeholders_ofList _
    have hinner : placeholders (innerSql c) = tagIds.length + 2 + c.bindVals.length + 1 := by
      simp only [innerSql, htags]
      rw [placeholders_append, placeholders_append, placeholders_append, placeholders_append,
        placeholders_append, placeholders_append, hselect, placeholders_placeholderList, hcursor,
        hgroup, hjoined, hjoin, hlimit]
      omega
    rw [hsql, hinner]
    simp only [bound, htags, List.length_append, List.length_map, List.length_cons, List.length_nil]
    omega

/-! ## When the loop panics -/

/-- Before any other member, a member is met that is bad. -/
def Meets {β : Type} (good bad : β → Prop) (l : List β) : Prop :=
  ∃ pre b post, l = pre ++ b :: post ∧ (∀ b' ∈ pre, good b') ∧ bad b

theorem meets_cons_iff {β : Type} {good bad : β → Prop} {b : β} {l : List β} :
    Meets good bad (b :: l) ↔ bad b ∨ good b ∧ Meets good bad l := by
  constructor
  · rintro ⟨_ | ⟨b', pre⟩, b'', post, hl, hpre, hbad⟩
    · obtain ⟨rfl, -⟩ := List.cons.inj hl
      exact .inl hbad
    · obtain ⟨rfl, rfl⟩ := List.cons.inj hl
      obtain ⟨hgood, hpre⟩ := List.forall_mem_cons.mp hpre
      exact .inr ⟨hgood, pre, b'', post, rfl, hpre, hbad⟩
  · rintro (hbad | ⟨hgood, pre, b', post, rfl, hpre, hbad⟩)
    · exact ⟨[], b, l, rfl, nofun, hbad⟩
    · exact ⟨b :: pre, b', post, rfl, List.forall_mem_cons.mpr ⟨hgood, hpre⟩, hbad⟩

section Loops

variable {β : Type} {f : Collected ρ → β → Except Failure (Collected ρ)} {good bad : β → Prop}
  (hgood : ∀ c b, (∃ c', f c b = .ok c') ↔ good b)

include hgood

/-- A loop succeeds if all members are good. -/
theorem foldlM_ok_iff {l : List β} : (∃ c', l.foldlM f c = .ok c') ↔ ∀ b ∈ l, good b := by
  induction l generalizing c with
  | nil => exact iff_of_true ⟨c, rfl⟩ nofun
  | cons b l ih =>
    rw [List.foldlM_cons, List.forall_mem_cons, ← hgood c b]
    cases f c b with
    | error failure => exact iff_of_false nofun nofun
    | ok c₁ => exact (ih (c := c₁)).trans (and_iff_right ⟨c₁, rfl⟩).symm

/-- A loop panics at a bad member, unless another one stops it before. -/
theorem foldlM_eq_panic_iff (hbad : ∀ c b, f c b = .error .panic ↔ bad b) {l : List β} :
    l.foldlM f c = .error .panic ↔ Meets good bad l := by
  induction l generalizing c with
  | nil =>
    refine iff_of_false nofun ?_
    rintro ⟨pre, b, post, hl, -⟩
    cases pre <;> cases hl
  | cons b l ih =>
    rw [List.foldlM_cons, meets_cons_iff, ← hgood c b, ← hbad c b]
    cases hb : f c b with
    | error failure =>
      have hstop : (Except.error failure >>= fun c => l.foldlM f c) = .error failure := rfl
      rw [hstop]
      simp
    | ok c₁ => exact (ih (c := c₁)).trans (by simp)

end Loops

/-- A parameter that lists tags. -/
def SearchParam.ListsTags : SearchParam ρ → Prop
  | .tagsIn _ | .tagsAll _ => True
  | _ => False

/-- A tag of it cannot be read. -/
def SearchParam.Unreadable (param : SearchParam ρ) : Prop := ∃ id ∈ param.tagIds, id.Unreadable

/-- A parameter for the column `tags`. -/
def SearchParam.IsTagFilter (param : SearchParam ρ) : Prop :=
  param.ListsTags ∧ ¬ param.Unreadable

/-- A member of the criteria list that is accepted. -/
def SearchCriteria.Accepted (sc : SearchCriteria ρ) : Prop :=
  if sc.columnName = "tags" then ∀ param ∈ sc.criteria, param.IsTagFilter
  else sc.columnName ∈ allowedColumns ∧ ∀ param ∈ sc.criteria, ¬ param.ListsTags

/-- A member of the criteria list at which the loop panics. -/
def SearchCriteria.Crashes (sc : SearchCriteria ρ) : Prop :=
  sc.columnName = "tags" ∧ Meets SearchParam.IsTagFilter SearchParam.Unreadable sc.criteria

/-- A tag that is asked for cannot be read, and there is no error before it. -/
def AsksUnreadable (criteria : List (SearchCriteria ρ)) : Prop :=
  Meets SearchCriteria.Accepted SearchCriteria.Crashes criteria

theorem toI64s_eq_panic_iff {tagIds : List BigintId} :
    toI64s tagIds = .error .panic ↔ ∃ id ∈ tagIds, id.Unreadable := by
  rw [← BigintId.mapM_toI64_eq_none_iff, toI64s]
  cases tagIds.mapM BigintId.toI64 with
  | none => exact iff_of_true rfl rfl
  | some ids => exact iff_of_false nofun nofun

/-- What happens to a parameter of the column `tags`. -/
theorem collectTag_cases (c : Collected ρ) (param : SearchParam ρ) :
    ((∃ c', collectTag c param = .ok c') ↔ param.IsTagFilter) ∧
    (collectTag c param = .error .panic ↔ param.Unreadable) := by
  have hlist : ∀ (tagIds : List BigintId) (filter : List ℤ → TagFilter),
      ((∃ c' : Collected ρ, (if tagIds.isEmpty then .ok (c.push "1 = 0" [])
          else do let ids ← toI64s tagIds; .ok { c with tagFilter := some (filter ids) }) =
            Except.ok (ε := Failure) c') ↔ ¬ ∃ id ∈ tagIds, id.Unreadable) ∧
      ((if tagIds.isEmpty then .ok (c.push "1 = 0" [])
          else do let ids ← toI64s tagIds; .ok { c with tagFilter := some (filter ids) }) =
            Except.error (α := Collected ρ) Failure.panic ↔ ∃ id ∈ tagIds, id.Unreadable) := by
    intro tagIds filter
    rw [← toI64s_eq_panic_iff]
    cases tagIds with
    | nil => exact ⟨iff_of_true ⟨_, rfl⟩ nofun, iff_of_false nofun nofun⟩
    | cons id ids =>
      have hne : ¬ (id :: ids).isEmpty = true := Bool.false_ne_true
      simp only [if_neg hne]
      rcases toI64s_cases (id :: ids) with ⟨ns, hns⟩ | hpanic
      · rw [hns]
        exact ⟨iff_of_true ⟨_, rfl⟩ nofun, iff_of_false nofun nofun⟩
      · rw [hpanic]
        exact ⟨iff_of_false nofun (fun h => h rfl), iff_of_true rfl rfl⟩
  cases param with
  | tagsIn tagIds =>
    exact ⟨(hlist tagIds .any).1.trans (and_iff_right trivial).symm, (hlist tagIds .any).2⟩
  | tagsAll tagIds =>
    exact ⟨(hlist tagIds .all).1.trans (and_iff_right trivial).symm, (hlist tagIds .all).2⟩
  | numericComparison | numericBetween | textLike | textIn | nullCheck =>
    exact ⟨iff_of_false nofun fun h => h.1, iff_of_false nofun fun ⟨_, hid, _⟩ => nomatch hid⟩

/-- What happens to a parameter of any other column. -/
theorem collectParam_cases (col : String) (c : Collected ρ) (param : SearchParam ρ) :
    ((∃ c', collectParam col c param = .ok c') ↔ ¬ param.ListsTags) ∧
    collectParam col c param ≠ .error .panic := by
  cases param with
  | textIn values =>
    cases values <;> exact ⟨iff_of_true ⟨_, rfl⟩ id, nofun⟩
  | nullCheck isNull =>
    cases isNull <;> exact ⟨iff_of_true ⟨_, rfl⟩ id, nofun⟩
  | numericComparison | numericBetween | textLike => exact ⟨iff_of_true ⟨_, rfl⟩ id, nofun⟩
  | tagsIn | tagsAll => exact ⟨iff_of_false nofun fun h => h trivial, nofun⟩

/-- What happens to a member of the criteria list. -/
theorem collect_cases (c : Collected ρ) (sc : SearchCriteria ρ) :
    ((∃ c', collect c sc = .ok c') ↔ sc.Accepted) ∧
    (collect c sc = .error .panic ↔ sc.Crashes) := by
  unfold collect SearchCriteria.Accepted SearchCriteria.Crashes
  by_cases htags : sc.columnName = "tags"
  · simp only [htags, if_true, true_and]
    exact ⟨foldlM_ok_iff fun c p => (collectTag_cases c p).1,
      foldlM_eq_panic_iff (fun c p => (collectTag_cases c p).1) fun c p => (collectTag_cases c p).2⟩
  simp only [htags, if_false, false_and, iff_false]
  by_cases hcol : sc.columnName ∈ allowedColumns
  · simp only [hcol, not_true_eq_false, if_false, true_and]
    exact ⟨foldlM_ok_iff fun c p => (collectParam_cases _ c p).1,
      foldlM_ne_panic fun c p _ => (collectParam_cases _ c p).2⟩
  · simp only [hcol, not_false_eq_true, if_true, false_and]
    exact ⟨iff_of_false nofun id, nofun⟩

/-- Without tags, no parameter makes the loop panic. -/
theorem collect_ne_panic {sc : SearchCriteria ρ} (c : Collected ρ)
    (h : ∀ param ∈ sc.criteria, param.tagIds = []) : collect c sc ≠ .error .panic := by
  intro hpanic
  obtain ⟨-, pre, param, post, hsplit, -, id, hid, -⟩ := (collect_cases c sc).2.mp hpanic
  have hparam : param ∈ sc.criteria := by
    rw [hsplit]
    exact List.mem_append_right _ (List.mem_cons_self ..)
  rw [h param hparam] at hid
  cases hid

/-- **When `get_tracks` panics**: it comes to an id that it cannot read before it comes to an
error. -/
theorem getTracks_eq_panic_iff {cursor : Option ℤ} {criteria : Option (List (SearchCriteria ρ))}
    {limit : ℤ} :
    getTracks cursor criteria limit = .error .panic ↔ AsksUnreadable (criteria.getD []) := by
  rw [AsksUnreadable, ← foldlM_eq_panic_iff (c := ⟨[], [], none⟩)
    (fun c sc => (collect_cases c sc).1) fun c sc => (collect_cases c sc).2]
  unfold getTracks
  cases (criteria.getD []).foldlM collect (⟨[], [], none⟩ : Collected ρ) with
  | error failure =>
    have hstop : (Except.error failure >>= fun c : Collected ρ =>
        Except.ok (sqlText c, bound c (cursor.getD 0) limit)) = .error failure := rfl
    rw [hstop]
    simp
  | ok c => exact iff_of_false nofun nofun

/-! ## Exactly when text and values agree -/

variable {cursor : Option ℤ} {criteria : Option (List (SearchCriteria ρ))}

/-- A statement is made of what the loop has collected. -/
theorem getTracks_eq_ok {sql : String} {vals : List (BindVal ρ)}
    (h : getTracks cursor criteria limit = .ok (sql, vals)) :
    ∃ c, (criteria.getD []).foldlM collect ⟨[], [], none⟩ = .ok c ∧ sql = sqlText c ∧
      vals = bound c (cursor.getD 0) limit := by
  unfold getTracks at h
  cases hc : (criteria.getD []).foldlM collect ⟨[], [], none⟩ with
  | error failure =>
    rw [hc] at h
    cases h
  | ok c =>
    rw [hc] at h
    obtain ⟨rfl, rfl⟩ := Prod.mk.inj (Except.ok.inj h)
    exact ⟨c, rfl, rfl, rfl⟩

/-- Without tags, every parameter adds its fragment to the conditions. -/
theorem plains_eq {list : List (SearchCriteria ρ)} (h : FiltersByNoTag list) :
    list.flatMap (plains after) = list.flatMap (criterionFragments after) := by
  refine List.flatMap_congr fun sc hsc => ?_
  rw [plains, criterionFragments, List.map_eq_flatMap]
  exact List.flatMap_congr fun param hparam => if_pos (h sc hsc param hparam)

/-- The statement of a search without tags agrees with its values. -/
theorem agrees_of_no_tag {list : List (SearchCriteria ρ)} (hlist : FiltersByNoTag list)
    (hgrown : Grown (list.flatMap (plains after)) (FiltersByNoTag list) ⟨[], [], none⟩ c) :
    Agrees after limit list (sqlText c) (bound c after limit) := by
  have htags : c.tagFilter = none := hgrown.tagFilter.mpr ⟨rfl, hlist⟩
  have hsound := hgrown.sound
  have hconditions : c.conditions = _ := hgrown.conditions
  have hvals : c.bindVals = _ := hgrown.bindVals
  rw [plains_eq hlist] at hsound hconditions hvals
  rw [List.nil_append] at hconditions hvals
  generalize hfs : list.flatMap (criterionFragments after) = fs at hsound hconditions hvals
  have hinner : ∀ f ∈ plainInner fs, f.Fits := by
    intro f hf
    rw [plainInner] at hf
    split at hf
    · rw [List.mem_singleton.mp hf]
      exact placeholders_ofList _
    · rcases List.mem_cons.mp hf with rfl | hf
      · exact placeholders_ofList _
      · rcases mem_separate hf with hf | rfl
        · exact (hsound f hf).fits
        · exact placeholders_ofList _
  have hsub : fs.Sublist (plainInner fs) := by
    rw [plainInner]
    cases fs with
    | nil => exact List.nil_sublist _
    | cons f fs => exact (sublist_separate " AND " (f :: fs)).cons _
  have hsql : text (around after limit (plainInner fs)) = sqlText c := by
    delta sqlText
    rw [text_around, innerSql_eq hconditions htags]
  have hbound : values (around after limit (plainInner fs)) = bound c after limit := by
    have hvalues : values (plainInner fs) = values fs := by
      rw [plainInner]
      cases fs with
      | nil => rfl
      | cons f fs =>
        rw [List.isEmpty_cons, if_neg Bool.false_ne_true, values_cons, values_separate]
        rfl
    rw [values_around, hvalues, bound, htags, hvals]
    rfl
  -- count, order and `WHERE` all come from the list of fragments
  refine ⟨?_, ⟨_, hsql, hbound, fits_around hinner, ?_⟩, ?_⟩
  · rw [← hsql, ← hbound, placeholders_text (fits_around hinner)]
  · have hwindows : (windows (ρ := ρ) after limit).Sublist
        [⟨"),  oPrior as (select * from s1", []⟩,
          ⟨" where id < ? order by id desc limit ?", [.int after, .int limit]⟩,
          ⟨"), oAfter as (select * from s1", []⟩,
          ⟨" where id >= ? order by id asc limit ?", [.int after, .int limit]⟩,
          ⟨") select * from oPrior union all  select * from oAfter order by id asc", []⟩] :=
      .cons _ (.cons_cons _ (.cons _ (.cons_cons _ (.cons _ .slnil))))
    rw [hfs]
    exact ((hsub.append hwindows).cons _).subperm
  · rw [← hsql]
    exact emptyWhere_around hsound

/-- **When text and values agree**: whatever `get_tracks` does not reject, it makes a
statement of which agrees with its values, if and only if the search filters by no tag. -/
theorem get_tracks_agrees_iff (cursor : Option ℤ) (criteria : Option (List (SearchCriteria ρ)))
    (limit : ℤ) (h : ∀ message, getTracks cursor criteria limit ≠ .error (.protocol message)) :
    (∃ sql vals, getTracks cursor criteria limit = .ok (sql, vals) ∧
      Agrees (cursor.getD 0) limit (criteria.getD []) sql vals) ↔
      FiltersByNoTag (criteria.getD []) := by
  constructor
  · rintro ⟨sql, vals, hok, hagrees⟩
    by_contra hlist
    obtain ⟨c, hc, rfl, rfl⟩ := getTracks_eq_ok hok
    have hgrown : Grown ((criteria.getD []).flatMap (plains (cursor.getD 0))) _ _ c :=
      collect_all_grown hc
    cases htags : c.tagFilter with
    | none => exact hlist (hgrown.tagFilter.mp htags).2
    | some filter =>
      -- a tag filter binds one value too few
      have hcount : placeholders (sqlText c) = (bound c (cursor.getD 0) limit).length + 1 :=
        placeholders_sqlText (fun f hf => (hgrown.sound f hf).fits) hgrown.conditions
          hgrown.bindVals htags
      have hcount' := hagrees.count
      omega
  · intro hlist
    have hpanic : (criteria.getD []).foldlM collect (⟨[], [], none⟩ : Collected ρ) ≠
        .error .panic :=
      foldlM_ne_panic fun c sc hsc => collect_ne_panic c (hlist sc hsc)
    unfold getTracks at h ⊢
    cases hc : (criteria.getD []).foldlM collect ⟨[], [], none⟩ with
    | error failure =>
      cases failure with
      | protocol message =>
        rw [hc] at h
        exact absurd rfl (h message)
      | panic => exact absurd hc hpanic
    | ok c => exact ⟨_, _, rfl, agrees_of_no_tag hlist (collect_all_grown hc)⟩

/-- Tracks of an artist. -/
def byArtist : List (SearchCriteria ℕ) := [⟨"artist", [.textLike "A%" false]⟩]

theorem get_tracks_agrees_iff_byArtist :
    (∃ sql vals, getTracks none (some byArtist) 10 = .ok (sql, vals) ∧
      Agrees 0 10 byArtist sql vals) ↔ FiltersByNoTag byArtist :=
  get_tracks_agrees_iff none (some byArtist) 10 nofun

/-- Tracks with a tag. -/
def byTag : List (SearchCriteria ℕ) := [⟨"tags", [.tagsIn [⟨"1"⟩]]⟩]

/-- Not every statement agrees with its values: with a tag filter, nothing is bound to the
last placeholder. -/
theorem get_tracks_disagrees :
    ¬ ∀ (cursor : Option ℤ) (criteria : Option (List (SearchCriteria ℕ))) (limit : ℤ),
      (∀ message, getTracks cursor criteria limit ≠ .error (.protocol message)) →
      ∃ sql vals, getTracks cursor criteria limit = .ok (sql, vals) ∧
        Agrees (cursor.getD 0) limit (criteria.getD []) sql vals := by
  intro hall
  let c : Collected ℕ := ⟨[], [], some (.any [1])⟩
  have hc : getTracks none (some byTag) 10 = .ok (sqlText c, bound c 0 10) := rfl
  obtain ⟨sql, vals, hok, hagrees⟩ := hall none (some byTag) 10 (by rw [hc]; nofun)
  obtain ⟨rfl, rfl⟩ := Prod.mk.inj (Except.ok.inj (hc.symm.trans hok))
  have hfits : ∀ f ∈ ([] : List (Fragment (BindVal ℕ))), f.Fits := nofun
  have hcount : placeholders (sqlText c) = (bound c 0 10).length + 1 :=
    placeholders_sqlText hfits rfl rfl rfl
  have hcount' := hagrees.count
  omega

end TrackSearch

end Vamp
