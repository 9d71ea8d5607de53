import Vamp.DroppedFilters
import Vamp.TrackSearch

/-!
# What the statement of `get_tracks` means

The text of a search without tags is made of conditions on columns, joined with `AND`, inside a
query for the page around the cursor (`SearchStatement.text`). Every condition has slots, which
SQLite fills with the values that are bound, in order (`SearchStatement.fill`), and then it looks
for the rows (`SearchStatement.execute`).

`get_tracks` pushes texts and values separately, but they are those of one statement
(`getTracks_eq_statement`), and its rows are the page of the tracks that satisfy every criterion
(`execute_statement`). How SQLite compares two values is a parameter (`Operators`).
-/

namespace Vamp

namespace TrackSearch

open FilteredTracks (ColumnValue fillAll fillSlot fillAll_map fillAll_slots)
open SqlText

variable {ρ ν : Type}

/-! ## Statements -/

/-- The columns of `track_info` that a search may name. -/
inductive Column : Type where
  | id | artist | trackName | lengthSeconds | bitrateKbps | tempoBpm | additionTime
  deriving DecidableEq, Repr

/-- Its name. -/
def Column.name : Column → String
  | id => "id"
  | artist => "artist"
  | trackName => "track_name"
  | lengthSeconds => "length_seconds"
  | bitrateKbps => "bitrate_kbps"
  | tempoBpm => "tempo_bpm"
  | additionTime => "addition_time"

/-- What it contains. -/
def Column.read (track : TrackInfo ρ) : Column → ColumnValue ρ
  | id => .number (.integer track.id)
  | artist => .text track.artist
  | trackName => .text track.trackName
  | lengthSeconds => .number (.integer track.lengthSeconds)
  | bitrateKbps => track.bitrateKbps.elim .null fun n => .number (.integer n)
  | tempoBpm => track.tempoBpm.elim .null fun x => .number (.real x)
  | additionTime => .text track.additionTime

/-- A condition, with its values, or with slots for them. -/
inductive SqlCondition (ν : Type) : Type where
  /-- `1 = 0` -/
  | never
  /-- `ti.column operator ?` -/
  | compare (column : Column) (operator : NumericOperator) (value : ν)
  /-- `ti.column BETWEEN ? AND ?` -/
  | between (column : Column) (min max : ν)
  /-- `ti.column LIKE ?` -/
  | like (column : Column) (pattern : ν)
  /-- `ti.column IN (?, ...)` -/
  | isIn (column : Column) (values : List ν)
  /-- `ti.column IS NULL`, or `IS NOT NULL` -/
  | nullCheck (column : Column) (isNull : Bool)

namespace SqlCondition

/-- The text. -/
def text : SqlCondition ν → String
  | never => "1 = 0"
  | compare column operator _ => "ti." ++ column.name ++ " " ++ operator.asSql ++ " ?"
  | between column _ _ => "ti." ++ column.name ++ " BETWEEN ? AND ?"
  | like column _ => "ti." ++ column.name ++ " LIKE ?"
  | isIn column values => "ti." ++ column.name ++ " IN (" ++ placeholderList values.length ++ ")"
  | nullCheck column isNull =>
    "ti." ++ column.name ++ (if isNull then " IS NULL" else " IS NOT NULL")

/-- The values, in the order of their slots. -/
def values : SqlCondition ν → List ν
  | never | nullCheck _ _ => []
  | compare _ _ value | like _ value => [value]
  | between _ min max => [min, max]
  | isIn _ values => values

/-- The values are taken out. -/
def slots : SqlCondition ν → SqlCondition Unit
  | never => never
  | compare column operator _ => compare column operator ()
  | between column _ _ => between column () ()
  | like column _ => like column ()
  | isIn column values => isIn column (values.map fun _ => ())
  | nullCheck column isNull => nullCheck column isNull

/-- Fill the slots with the first of some values. -/
def fill (condition : SqlCondition Unit) (vals : List ν) : Option (SqlCondition ν × List ν) :=
  match condition with
  | never => some (never, vals)
  | compare column operator slot => do
    let (value, vals) ← fillSlot slot vals
    some (compare column operator value, vals)
  | between column slot slot' => do
    let (min, vals) ← fillSlot slot vals
    let (max, vals) ← fillSlot slot' vals
    some (between column min max, vals)
  | like column slot => do
    let (pattern, vals) ← fillSlot slot vals
    some (like column pattern, vals)
  | isIn column slots => do
    let (filled, vals) ← fillAll fillSlot slots vals
    some (isIn column filled, vals)
  | nullCheck column isNull => some (nullCheck column isNull, vals)

theorem text_slots (condition : SqlCondition ν) : condition.slots.text = condition.text := by
  cases condition with
  | isIn column values => rw [slots, text, text, List.length_map]
  | _ => rfl

theorem fill_slots (condition : SqlCondition ν) (rest : List ν) :
    condition.slots.fill (condition.values ++ rest) = some (condition, rest) := by
  cases condition with
  | isIn column filled =>
    rw [slots, values, fill, fillAll_slots]
    rfl
  | _ => rfl

end SqlCondition

/-- A search without tags: what stands after `WHERE`, if anything. -/
structure SearchStatement (ν : Type) : Type where
  /-- the conditions -/
  conditions : List (SqlCondition ν)

namespace SearchStatement

/-- The text of the whole statement. -/
def text (statement : SearchStatement ν) : String :=
  let inner :=
    if statement.conditions.isEmpty then "SELECT * FROM track_info"
    else "SELECT ti.* FROM track_info ti WHERE " ++
      join " AND " (statement.conditions.map SqlCondition.text)
  "with s1 as (" ++ inner ++ "),  oPrior as (select * from s1" ++
    " where id < ? order by id desc limit ?" ++ "), oAfter as (select * from s1" ++
    " where id >= ? order by id asc limit ?" ++
    ") select * from oPrior union all  select * from oAfter order by id asc"

/-- The values of the conditions. -/
def values (statement : SearchStatement ν) : List ν :=
  statement.conditions.flatMap SqlCondition.values

/-- The values are taken out. -/
def slots (statement : SearchStatement ν) : SearchStatement Unit :=
  ⟨statement.conditions.map SqlCondition.slots⟩

/-- Fill the slots of the conditions. -/
def fill (statement : SearchStatement Unit) (vals : List ν) :
    Option (SearchStatement ν × List ν) := do
  let (filled, vals) ← fillAll SqlCondition.fill statement.conditions vals
  some (⟨filled⟩, vals)

theorem text_slots (statement : SearchStatement ν) : statement.slots.text = statement.text := by
  have hconditions : (statement.conditions.map SqlCondition.slots).map SqlCondition.text =
      statement.conditions.map SqlCondition.text := by
    rw [List.map_map]
    exact List.map_congr_left fun condition _ => condition.text_slots
  delta text slots
  simp only [hconditions, List.isEmpty_map]

/-- **The values of the conditions are those of the text**, in order. -/
theorem fill_slots (statement : SearchStatement ν) (rest : List ν) :
    statement.slots.fill (statement.values ++ rest) = some (statement, rest) := by
  rw [slots, values, fill, fillAll_map SqlCondition.fill_slots]
  rfl

end SearchStatement

/-! ## What statements mean -/

/-- How SQLite compares a value of a column with a value that is bound. -/
structure Operators (ρ : Type) : Type where
  /-- `value operator ?`; the value is not null -/
  compare : NumericOperator → ColumnValue ρ → BindVal ρ → Bool
  /-- `value LIKE ?`; the value is not null -/
  like : ColumnValue ρ → BindVal ρ → Bool

section Meaning

variable (sql : Operators ρ)

/-- `value operator ?` is true. -/
def compares (operator : NumericOperator) (value : ColumnValue ρ) (bound : BindVal ρ) : Bool :=
  match value with
  | .null => false
  | value => sql.compare operator value bound

/-- `value LIKE ?` is true. -/
def isLike (value : ColumnValue ρ) (pattern : BindVal ρ) : Bool :=
  match value with
  | .null => false
  | value => sql.like value pattern

/-- `value IS NULL` is true. -/
def isNull : ColumnValue ρ → Bool
  | .null => true
  | _ => false

/-- A condition is true of a track. -/
def SqlCondition.holds (track : TrackInfo ρ) : SqlCondition (BindVal ρ) → Bool
  | .never => false
  | .compare column operator value => compares sql operator (column.read track) value
  | .between column min max =>
    compares sql .gte (column.read track) min && compares sql .lte (column.read track) max
  | .like column pattern => isLike sql (column.read track) pattern
  | .isIn column values => values.any fun value => compares sql .eq (column.read track) value
  | .nullCheck column null => isNull (column.read track) == null

/-- `s1`. -/
def SearchStatement.rows (db : Database ρ) (statement : SearchStatement (BindVal ρ)) :
    List (TrackInfo ρ) :=
  db.trackInfo.rows.filter fun track =>
    statement.conditions.all (SqlCondition.holds sql track)

/-- The rows of the whole statement, when its values are bound. -/
def SearchStatement.execute (db : Database ρ) (statement : SearchStatement Unit)
    (vals : List (BindVal ρ)) : Option (List (TrackInfo ρ)) :=
  match statement.fill vals with
  | some (filled, [.int before, .int beforeLimit, .int after, .int afterLimit]) =>
    let s1 := filled.rows sql db
    let oPrior := SqlPage.limit beforeLimit (SqlPage.orderDesc TrackInfo.id
      (s1.filter fun track => track.id < before))
    let oAfter := SqlPage.limit afterLimit (SqlPage.orderAsc TrackInfo.id
      (s1.filter fun track => after ≤ track.id))
    some (SqlPage.orderAsc TrackInfo.id (oPrior ++ oAfter))
  | _ => none

/-- A value is what a parameter asks for. Lists of tags are for tags only. -/
def SearchParam.Holds (value : ColumnValue ρ) : SearchParam ρ → Prop
  | .numericComparison operator x => compares sql operator value (.float x) = true
  | .numericBetween min max =>
    compares sql .gte value (.float min) = true ∧ compares sql .lte value (.float max) = true
  | .textLike pattern _ => isLike sql value (.text pattern) = true
  | .textIn values => ∃ text ∈ values, compares sql .eq value (.text text) = true
  | .nullCheck null => isNull value = null
  | .tagsIn _ | .tagsAll _ => False

/-- A track satisfies every parameter of every member of the criteria list. -/
def Satisfies (criteria : List (SearchCriteria ρ)) (track : TrackInfo ρ) : Prop :=
  ∀ sc ∈ criteria, ∀ param ∈ sc.criteria,
    ∃ column : Column, column.name = sc.columnName ∧ param.Holds sql (column.read track)

end Meaning

/-! ## The statement of a search -/

/-- The column of a name. -/
def columnOf (name : String) : Option Column :=
  [Column.id, .artist, .trackName, .lengthSeconds, .bitrateKbps, .tempoBpm, .additionTime].find?
    fun column => column.name = name

/-- The condition of a parameter. -/
def SearchParam.condition (column : Column) : SearchParam ρ → SqlCondition (BindVal ρ)
  | .numericComparison operator value => .compare column operator (.float value)
  | .numericBetween min max => .between column (.float min) (.float max)
  | .textLike pattern _ => .like column (.text pattern)
  | .textIn values => if values.isEmpty then .never else .isIn column (values.map .text)
  | .nullCheck isNull => .nullCheck column isNull
  | .tagsIn _ | .tagsAll _ => .never

/-- The conditions of a member of the criteria list. -/
def SearchCriteria.conditions (sc : SearchCriteria ρ) : List (SqlCondition (BindVal ρ)) :=
  (columnOf sc.columnName).toList.flatMap fun column =>
    sc.criteria.map (SearchParam.condition column)

/-- The statement of a search without tags. -/
def searchStatement (criteria : List (SearchCriteria ρ)) : SearchStatement (BindVal ρ) :=
  ⟨criteria.flatMap SearchCriteria.conditions⟩

variable {after : ℤ} {criteria : List (SearchCriteria ρ)} {sql : Operators ρ} {db : Database ρ}

theorem columnOf_name (column : Column) : columnOf column.name = some column := by
  cases column <;> decide

/-- The columns that are allowed are those that have a name. -/
theorem exists_columnOf {name : String} (h : name ∈ allowedColumns) :
    ∃ column, columnOf name = some column ∧ column.name = name := by
  have hall : ∀ name ∈ allowedColumns,
      (columnOf name).any (fun column => column.name = name) = true := by decide
  obtain ⟨column, hcolumn, hname⟩ := (Option.any_eq_true _ _).mp (hall name h)
  exact ⟨column, hcolumn, of_decide_eq_true hname⟩

/-- The fragment that is expected for a parameter is its condition. -/
theorem paramFragment_eq {param : SearchParam ρ} (h : param.tagIds = []) (column : Column) :
    paramFragment after column.name param =
      ⟨(param.condition column).text, (param.condition column).values⟩ := by
  cases param with
  | textIn values =>
    cases values with
    | nil => rfl
    | cons value values =>
      rw [SearchParam.condition, List.isEmpty_cons, if_neg Bool.false_ne_true, paramFragment,
        if_neg (List.cons_ne_nil _ _), SqlCondition.text, List.length_map]
      rfl
  | tagsIn tagIds =>
    obtain rfl : tagIds = [] := h
    rfl
  | tagsAll tagIds =>
    obtain rfl : tagIds = [] := h
    rfl
  | _ => rfl

/-- Parameters of columns other than `tags` ask for no tag, if they are accepted. -/
theorem tagIds_of_not_listsTags {param : SearchParam ρ} (h : ¬ param.ListsTags) :
    param.tagIds = [] := by
  cases param with
  | tagsIn tagIds | tagsAll tagIds => exact absurd trivial h
  | _ => rfl

/-- Every member of the criteria list is for a column of `track_info`. -/
def ForColumns (criteria : List (SearchCriteria ρ)) : Prop :=
  ∀ sc ∈ criteria, sc.columnName ∈ allowedColumns ∧ ∀ param ∈ sc.criteria, ¬ param.ListsTags

/-- What is accepted without the column `tags`. -/
theorem forColumns_of_getTracks {cursor : Option ℤ} {criteria : Option (List (SearchCriteria ρ))}
    {limit : ℤ} {statement : String × List (BindVal ρ)}
    (haccepted : getTracks cursor criteria limit = .ok statement)
    (hcolumns : ∀ sc ∈ criteria.getD [], sc.columnName ≠ "tags") :
    ForColumns (criteria.getD []) := by
  obtain ⟨text, vals⟩ := statement
  obtain ⟨c, hc, -, -⟩ := getTracks_eq_ok haccepted
  intro sc hsc
  have hsc' : sc.Accepted :=
    (foldlM_ok_iff fun c sc => (collect_cases c sc).1).mp ⟨c, hc⟩ sc hsc
  rwa [SearchCriteria.Accepted, if_neg (hcolumns sc hsc)] at hsc'

/-- The fragments that are expected are the conditions of the statement. -/
theorem criterionFragments_eq (h : ForColumns criteria) :
    criteria.flatMap (criterionFragments after) =
      (searchStatement criteria).conditions.map fun condition =>
        ⟨condition.text, condition.values⟩ := by
  rw [searchStatement, List.map_flatMap]
  refine List.flatMap_congr fun sc hsc => ?_
  obtain ⟨hallowed, hparams⟩ := h sc hsc
  obtain ⟨column, hcolumn, hname⟩ := exists_columnOf hallowed
  rw [criterionFragments, SearchCriteria.conditions, hcolumn, Option.toList_some,
    List.flatMap_singleton, List.map_map, ← hname]
  exact List.map_congr_left fun param hparam =>
    paramFragment_eq (tagIds_of_not_listsTags (hparams param hparam)) column

/-- **Text and values** of a search without tags are those of its statement, and the four values
of the page. -/
theorem getTracks_eq_statement {cursor : Option ℤ} {criteria : Option (List (SearchCriteria ρ))}
    {limit : ℤ} {text : String} {vals : List (BindVal ρ)}
    (haccepted : getTracks cursor criteria limit = .ok (text, vals))
    (hcolumns : ForColumns (criteria.getD [])) :
    text = (searchStatement (criteria.getD [])).slots.text ∧
      vals = (searchStatement (criteria.getD [])).values ++
        [.int (cursor.getD 0), .int limit, .int (cursor.getD 0), .int limit] := by
  obtain ⟨c, hc, rfl, rfl⟩ := getTracks_eq_ok haccepted
  have hgrown : Grown ((criteria.getD []).flatMap (plains (cursor.getD 0))) _ _ c :=
    collect_all_grown hc
  have htags : FiltersByNoTag (criteria.getD []) := fun sc hsc param hparam =>
    tagIds_of_not_listsTags ((hcolumns sc hsc).2 param hparam)
  have hfilter : c.tagFilter = none := hgrown.tagFilter.mpr ⟨rfl, htags⟩
  have hconditions := hgrown.conditions
  have hvals := hgrown.bindVals
  rw [plains_eq htags, criterionFragments_eq hcolumns, List.nil_append] at hconditions hvals
  constructor
  · rw [SearchStatement.text_slots]
    delta sqlText SearchStatement.text
    rw [innerSql, hfilter, hconditions, List.map_map, List.isEmpty_map]
    rfl
  · rw [bound, hfilter, hvals, SqlText.values, List.flatMap_map]
    rfl

/-! ## What a search finds -/

/-- A condition is true of a track that is what its parameter asks for. -/
theorem holds_condition {track : TrackInfo ρ} {column : Column} {param : SearchParam ρ} :
    (param.condition column).holds sql track = true ↔ param.Holds sql (column.read track) := by
  cases param with
  | numericComparison operator x => exact Iff.rfl
  | numericBetween min max => exact Bool.and_eq_true_iff
  | textLike pattern caseSensitive => exact Iff.rfl
  | textIn texts =>
    cases texts with
    | nil => exact iff_of_false Bool.false_ne_true nofun
    | cons text texts =>
      rw [SearchParam.condition, List.isEmpty_cons, if_neg Bool.false_ne_true,
        SqlCondition.holds, List.any_map, List.any_eq_true]
      rfl
  | nullCheck null => exact beq_iff_eq
  | tagsIn | tagsAll => exact iff_of_false Bool.false_ne_true id

/-- The conditions of a statement are true of the tracks that satisfy every criterion. -/
theorem mem_rows_iff (h : ForColumns criteria) {track : TrackInfo ρ} :
    track ∈ (searchStatement criteria).rows sql db ↔
      track ∈ db.trackInfo.rows ∧ Satisfies sql criteria track := by
  rw [SearchStatement.rows, List.mem_filter]
  refine and_congr_right fun _ => ?_
  rw [searchStatement, List.all_flatMap, List.all_eq_true]
  refine forall₂_congr fun sc hsc => ?_
  obtain ⟨column, hcolumn, hname⟩ := exists_columnOf (h sc hsc).1
  rw [SearchCriteria.conditions, hcolumn, Option.toList_some, List.flatMap_singleton,
    List.all_map, List.all_eq_true]
  refine forall₂_congr fun param _ => ?_
  rw [Function.comp_apply, holds_condition]
  constructor
  · exact fun hparam => ⟨column, hname, hparam⟩
  · rintro ⟨column', hname', hparam⟩
    have hcolumn' := columnOf_name column'
    rw [hname', hcolumn, Option.some.injEq] at hcolumn'
    exact hcolumn' ▸ hparam

/-- **The rows of a statement** are a page of the tracks that satisfy every criterion. -/
theorem execute_statement (statement : SearchStatement (BindVal ρ)) (after limit : ℤ) :
    statement.slots.execute sql db
        (statement.values ++ [.int after, .int limit, .int after, .int limit]) =
      some (SqlPage.page TrackInfo.id after limit (statement.rows sql db)) := by
  rw [SearchStatement.execute, statement.fill_slots]
  rfl

end TrackSearch

end Vamp
