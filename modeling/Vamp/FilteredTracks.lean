import Mathlib.Data.List.Dedup
import Mathlib.Data.List.Perm.Subperm
import Mathlib.Logic.Function.Basic
import Vamp.Database
import Vamp.SqlPage

/-!
# `get_tracks_filtered`

The criteria are merged by column, turned into a query of `sea_query`, which is rendered
with its values, and put inside a query for the page around the cursor, whose four values
are appended. A query is a tree with a slot for every value: the text that is sent has empty
slots (`Select.skeleton`), and SQLite fills them with the values in order (`Select.fill`).

This is about the statement: how it is built, what it means (`execute`), and which rows it selects
(`mem_rows_iff`, `exists_selected_iff`). `LIKE` is a parameter, and so are the numbers that a search
may contain (`φ`).
-/

namespace Vamp

namespace FilteredTracks

open SqlPage

variable {ρ φ : Type}

/-! ## Criteria -/

/-- `FilterNumericOperator`. -/
inductive FilterNumericOperator : Type where
  | lt | gt | eq | lte | gte | ne
  deriving DecidableEq, Repr

/-- `FilterSearchParam`. -/
inductive FilterSearchParam (φ : Type) : Type where
  | numericComparison (operator : FilterNumericOperator) (value : φ)
  | numericBetween (min max : φ)
  | textLike (pattern : String) (caseSensitive : Bool)
  | textIn (values : List String)
  | nullCheck (isNull : Bool)
  /-- at least one of the tags -/
  | tagsAny (tagIds : List BigintId)
  /-- all of the tags -/
  | tagsAll (tagIds : List BigintId)

/-- `CriteriaName`. -/
inductive CriteriaName : Type where
  | id | artist | trackName | lengthSeconds | bitrateKbps | tempoBpm | additionTime | tags
  | listenedSeconds
  deriving DecidableEq, Repr

/-- `SearchCriteriaFiltered`. -/
structure SearchCriteriaFiltered (φ : Type) : Type where
  /-- what is filtered -/
  filterName : CriteriaName
  /-- how it is filtered -/
  criteria : List (FilterSearchParam φ)

/-- `criteria_map`: the parameters of each name, in order. -/
def criteriaMap (criteria : List (SearchCriteriaFiltered φ)) :
    CriteriaName → Option (List (FilterSearchParam φ)) :=
  criteria.foldl
    (fun map c =>
      Function.update map c.filterName (some ((map c.filterName).getD [] ++ c.criteria)))
    fun _ => none

/-! ## Queries -/

/-- The columns that are searched for texts. -/
inductive TextColumn : Type where
  | trackName | artist
  deriving DecidableEq, Repr

/-- The name of the criteria for a column. -/
def TextColumn.name : TextColumn → CriteriaName
  | trackName => .trackName
  | artist => .artist

/-- What a column contains. -/
def TextColumn.read (track : TrackInfo ρ) : TextColumn → String
  | trackName => track.trackName
  | artist => track.artist

/-- `sea_query::Value`. -/
inductive Value : Type where
  | string (text : String)
  | bigInt (n : ℤ)
  deriving DecidableEq, Repr

/-- A condition on a text column. -/
inductive TextCondition (ν : Type) : Type where
  /-- `"column" IN (?, ...)` -/
  | isIn (column : TextColumn) (values : List ν)
  /-- `"column" LIKE ?` -/
  | like (column : TextColumn) (pattern : ν)

/-- `SELECT "track_id" FROM "tag_assignments" WHERE "tag_id" IN (?, ...)`. -/
structure TagQuery (ν : Type) : Type where
  /-- `DISTINCT` -/
  distinct : Bool
  /-- the values of the list -/
  tagIds : List ν
  /-- `GROUP BY "track_id" HAVING COUNT(DISTINCT tag_id) = n` -/
  having : Option ℤ

/-- A member of the `WHERE` clause. -/
inductive Condition (ν : Type) : Type where
  /-- `Condition::any()` -/
  | any (group : List (TextCondition ν))
  /-- `"id" IN (...)` -/
  | idIn (sub : TagQuery ν)

/-- `SELECT * FROM "track_info" WHERE ... AND ...`. -/
structure Select (ν : Type) : Type where
  /-- the members of the `WHERE` clause -/
  conditions : List (Condition ν)

/-- The conditions of a column, joined with `OR`. -/
def textGroup (column : TextColumn) (params : List (FilterSearchParam φ)) : Condition Value :=
  .any (params.filterMap fun
    | .textIn values => if values.isEmpty then none else some (.isIn column (values.map .string))
    | .textLike pattern _ => some (.like column (.string ("%" ++ pattern ++ "%")))
    | _ => none)

/-- The condition of a parameter of the tags, if it has one; `none` stands for the panic of
`BigintId::to_i64`. -/
def tagCondition : FilterSearchParam φ → Option (Option (Condition Value))
  | .tagsAny tagIds =>
    if tagIds.isEmpty then some none
    else (tagIds.mapM BigintId.toI64).map fun ids => some (.idIn ⟨true, ids.map .bigInt, none⟩)
  | .tagsAll tagIds =>
    if tagIds.isEmpty then some none
    else (tagIds.mapM BigintId.toI64).map fun ids =>
      some (.idIn ⟨false, ids.map .bigInt, some ids.length⟩)
  | _ => some none

/-- The conditions of the tags. -/
def tagConditions : List (FilterSearchParam φ) → Option (List (Condition Value))
  | [] => some []
  | param :: params => do
    let condition ← tagCondition param
    let conditions ← tagConditions params
    some (condition.toList ++ conditions)

/-- The query for the tracks, as it is built. -/
def buildSelect (criteria : List (SearchCriteriaFiltered φ)) : Option (Select Value) := do
  let map := criteriaMap criteria
  let names := (map .trackName).toList.map (textGroup .trackName)
  let artists := (map .artist).toList.map (textGroup .artist)
  let tags ← tagConditions ((map .tags).getD [])
  some ⟨names ++ artists ++ tags⟩

/-! ## Rendering and binding -/

/-- The values of a condition, in the order in which it is rendered. -/
def TextCondition.values {ν : Type} : TextCondition ν → List ν
  | .isIn _ values => values
  | .like _ pattern => [pattern]

/-- The values of a member of the `WHERE` clause. -/
def Condition.values {ν : Type} : Condition ν → List ν
  | .any group => group.flatMap TextCondition.values
  | .idIn sub => sub.tagIds

/-- The values of a query. -/
def Select.values {ν : Type} (select : Select ν) : List ν :=
  select.conditions.flatMap Condition.values

/-- The text of a condition: its slots are empty. -/
def TextCondition.skeleton {ν : Type} : TextCondition ν → TextCondition Unit
  | .isIn column values => .isIn column (values.map fun _ => ())
  | .like column _ => .like column ()

/-- The text of a member of the `WHERE` clause. -/
def Condition.skeleton {ν : Type} : Condition ν → Condition Unit
  | .any group => .any (group.map TextCondition.skeleton)
  | .idIn sub => .idIn ⟨sub.distinct, sub.tagIds.map fun _ => (), sub.having⟩

/-- The text of a query. -/
def Select.skeleton {ν : Type} (select : Select ν) : Select Unit :=
  ⟨select.conditions.map Condition.skeleton⟩

/-- Fill the slots of a list of parts, one part after the other. -/
def fillAll {α β ν : Type} (fill : α → List ν → Option (β × List ν)) :
    List α → List ν → Option (List β × List ν)
  | [], values => some ([], values)
  | part :: parts, values => do
    let (part, values) ← fill part values
    let (parts, values) ← fillAll fill parts values
    some (part :: parts, values)

/-- Fill one slot. -/
def fillSlot {ν : Type} (_ : Unit) : List ν → Option (ν × List ν)
  | [] => none
  | value :: values => some (value, values)

/-- Fill a condition. -/
def TextCondition.fill {ν : Type} (condition : TextCondition Unit) (values : List ν) :
    Option (TextCondition ν × List ν) :=
  match condition with
  | .isIn column slots => do
    let (filled, values) ← fillAll fillSlot slots values
    some (.isIn column filled, values)
  | .like column slot => do
    let (pattern, values) ← fillSlot slot values
    some (.like column pattern, values)

/-- Fill a member of the `WHERE` clause. -/
def Condition.fill {ν : Type} (condition : Condition Unit) (values : List ν) :
    Option (Condition ν × List ν) :=
  match condition with
  | .any group => do
    let (filled, values) ← fillAll TextCondition.fill group values
    some (.any filled, values)
  | .idIn sub => do
    let (filled, values) ← fillAll fillSlot sub.tagIds values
    some (.idIn ⟨sub.distinct, filled, sub.having⟩, values)

/-- Fill a query. -/
def Select.fill {ν : Type} (select : Select Unit) (values : List ν) :
    Option (Select ν × List ν) := do
  let (filled, values) ← fillAll Condition.fill select.conditions values
  some (⟨filled⟩, values)

/-! ## What queries mean -/

/-- A condition on a text column holds of a track. -/
def TextCondition.holds (like : String → String → Bool) (track : TrackInfo ρ) :
    TextCondition Value → Bool
  | .isIn column values => values.contains (.string (column.read track))
  | .like column (.string pattern) => like (column.read track) pattern
  | .like _ (.bigInt _) => false

/-- The rows of a query for tags. -/
def TagQuery.rows (assigned : List TagAssigned) (query : TagQuery Value) : List ℤ :=
  let found := assigned.filter fun row => query.tagIds.contains (.bigInt row.tagId)
  match query.having with
  | none =>
    let tracks := found.map TagAssigned.trackId
    if query.distinct then tracks.dedup else tracks
  | some n =>
    (found.map TagAssigned.trackId).dedup.filter fun track =>
      (((found.filter fun row => row.trackId = track).map TagAssigned.tagId).dedup.length : ℤ) = n

/-- A member of the `WHERE` clause holds of a track. -/
def Condition.holds (like : String → String → Bool) (db : Database ρ) (track : TrackInfo ρ) :
    Condition Value → Bool
  | .any group => group.any (TextCondition.holds like track)
  | .idIn sub => (sub.rows db.tagAssignments.rows).contains track.id

/-- The rows of a query for tracks. -/
def Select.rows (like : String → String → Bool) (db : Database ρ) (select : Select Value) :
    List (TrackInfo ρ) :=
  db.trackInfo.rows.filter fun track => select.conditions.all (Condition.holds like db track)

/-- The whole statement, when its values are bound: the query for the tracks is `s1`. -/
def execute (like : String → String → Bool) (db : Database ρ) (inner : Select Unit)
    (values : List Value) : Option (List (TrackInfo ρ)) :=
  match inner.fill values with
  | some (select, [.bigInt before, .bigInt beforeLimit, .bigInt after, .bigInt afterLimit]) =>
    let s1 := select.rows like db
    let oPrior := limit beforeLimit (orderDesc TrackInfo.id (s1.filter fun track =>
      track.id < before))
    let oAfter := limit afterLimit (orderAsc TrackInfo.id (s1.filter fun track =>
      after ≤ track.id))
    some (orderAsc TrackInfo.id (oPrior ++ oAfter))
  | _ => none

/-- The values that are bound: those of the query, and four for the page. -/
def Select.bound (select : Select Value) (cursor : Option ℤ) (n : ℤ) : List Value :=
  let after := cursor.getD 0
  select.values ++ [.bigInt after, .bigInt n, .bigInt after, .bigInt n]

/-- The rows that the statement of `get_tracks_filtered` selects, as it is meant. `none` stands for
a panic while it is built, or for values that do not fit the text. -/
def statementRows (like : String → String → Bool) (db : Database ρ) (cursor : Option ℤ)
    (criteria : Option (List (SearchCriteriaFiltered φ))) (n : ℤ) :
    Option (List (TrackInfo ρ)) := do
  let select ← buildSelect (criteria.getD [])
  execute like db select.skeleton (select.bound cursor n)

/-! ## The values fit the text -/

/-- Parts that can be filled one by one can be filled one after the other. -/
theorem fillAll_map {α β ν : Type} {fill : α → List ν → Option (β × List ν)} {slot : β → α}
    {values : β → List ν}
    (h : ∀ part rest, fill (slot part) (values part ++ rest) = some (part, rest))
    (parts : List β) (rest : List ν) :
    fillAll fill (parts.map slot) (parts.flatMap values ++ rest) = some (parts, rest) := by
  induction parts with
  | nil => rfl
  | cons part parts ih =>
    rw [List.map_cons, List.flatMap_cons, List.append_assoc]
    simp only [fillAll, h, ih, Option.bind_eq_bind, Option.bind_some]

theorem fillAll_slots {ν : Type} (filled rest : List ν) :
    fillAll fillSlot (filled.map fun _ => ()) (filled ++ rest) = some (filled, rest) := by
  have hfill : fillAll fillSlot (filled.map fun _ => ()) (filled.flatMap (fun v => [v]) ++ rest) =
      some (filled, rest) :=
    fillAll_map (fun _ _ => rfl) filled rest
  rw [List.flatMap_singleton'] at hfill
  exact hfill

theorem TextCondition.fill_skeleton {ν : Type} (condition : TextCondition ν) (rest : List ν) :
    condition.skeleton.fill (condition.values ++ rest) = some (condition, rest) := by
  cases condition with
  | isIn column filled => rw [skeleton, values, fill, fillAll_slots]; rfl
  | like column pattern => rfl

theorem Condition.fill_skeleton {ν : Type} (condition : Condition ν) (rest : List ν) :
    condition.skeleton.fill (condition.values ++ rest) = some (condition, rest) := by
  cases condition with
  | any group => rw [skeleton, values, fill, fillAll_map TextCondition.fill_skeleton]; rfl
  | idIn sub => rw [skeleton, values, fill, fillAll_slots]; rfl

/-- **The values of a query are the values of its text**, in order. -/
theorem Select.fill_skeleton {ν : Type} (select : Select ν) (rest : List ν) :
    select.skeleton.fill (select.values ++ rest) = some (select, rest) := by
  rw [skeleton, values, fill, fillAll_map Condition.fill_skeleton]
  rfl

/-- The four values at the end are those of the page. -/
theorem execute_skeleton (like : String → String → Bool) (db : Database ρ) (select : Select Value)
    (cursor : Option ℤ) (n : ℤ) : execute like db select.skeleton (select.bound cursor n) =
      some (page TrackInfo.id (cursor.getD 0) n (select.rows like db)) := by
  rw [execute, Select.bound, select.fill_skeleton]
  rfl

/-! ## What criteria ask for -/

/-- A parameter is given for a name, by one of the criteria. -/
def Given (criteria : List (SearchCriteriaFiltered φ)) (name : CriteriaName)
    (param : FilterSearchParam φ) : Prop :=
  ∃ c ∈ criteria, c.filterName = name ∧ param ∈ c.criteria

/-- There are criteria for a name. -/
def Constrained (criteria : List (SearchCriteriaFiltered φ)) (name : CriteriaName) : Prop :=
  ∃ c ∈ criteria, c.filterName = name

instance (criteria : List (SearchCriteriaFiltered φ)) (name : CriteriaName) :
    Decidable (Constrained criteria name) :=
  inferInstanceAs (Decidable (∃ c ∈ criteria, c.filterName = name))

/-- A text is what a parameter asks for. -/
def TextMatches (like : String → String → Bool) (text : String) : FilterSearchParam φ → Prop
  | .textIn values => text ∈ values
  | .textLike pattern _ => like text ("%" ++ pattern ++ "%") = true
  | _ => False

/-- A track carries a tag. -/
def Carries (db : Database ρ) (track : TrackInfo ρ) (tagId : BigintId) : Prop :=
  ∃ a ∈ db.tagAssignments.rows, a.trackId = track.id ∧ tagId.toI64 = some a.tagId

/-- The tags of a track are what a parameter asks for. -/
def TagsMatch (db : Database ρ) (track : TrackInfo ρ) : FilterSearchParam φ → Prop
  | .tagsAny tagIds => tagIds = [] ∨ ∃ tagId ∈ tagIds, Carries db track tagId
  | .tagsAll tagIds => ∀ tagId ∈ tagIds, Carries db track tagId
  | _ => True

/-- The tags of a track pass a parameter. No track passes a list of all tags in which one is
repeated, as the query counts the tags that are different. -/
def TagsPass (db : Database ρ) (track : TrackInfo ρ) : FilterSearchParam φ → Prop
  | .tagsAny tagIds => tagIds = [] ∨ ∃ tagId ∈ tagIds, Carries db track tagId
  | .tagsAll tagIds =>
    (tagIds.map BigintId.toI64).Nodup ∧ ∀ tagId ∈ tagIds, Carries db track tagId
  | _ => True

/-- A track passes the criteria that are read. -/
structure Passes (like : String → String → Bool) (db : Database ρ)
    (criteria : List (SearchCriteriaFiltered φ)) (track : TrackInfo ρ) : Prop where
  /-- one of the texts for each column that has criteria -/
  text (column : TextColumn) (h : Constrained criteria column.name) :
    ∃ param, Given criteria column.name param ∧ TextMatches like (column.read track) param
  /-- and all of the parameters for the tags -/
  tags (param : FilterSearchParam φ) (h : Given criteria .tags param) : TagsPass db track param

/-- A track is what the criteria ask for. -/
structure Matches (like : String → String → Bool) (db : Database ρ)
    (criteria : List (SearchCriteriaFiltered φ)) (track : TrackInfo ρ) : Prop where
  /-- one of the parameters for each column that has criteria -/
  text (column : TextColumn) (h : Constrained criteria column.name) :
    ∃ param, Given criteria column.name param ∧ TextMatches like (column.read track) param
  /-- and all of the parameters for the tags -/
  tags (param : FilterSearchParam φ) (h : Given criteria .tags param) : TagsMatch db track param

/-- A parameter that asks for a text. -/
def AsksText : FilterSearchParam φ → Prop
  | .textIn values => values ≠ []
  | .textLike _ _ => True
  | _ => False

/-- A parameter that lists tags, none of them twice. -/
def ListsTags : FilterSearchParam φ → Prop
  | .tagsAny tagIds | .tagsAll tagIds => ∃ ids, tagIds.mapM BigintId.toI64 = some ids ∧ ids.Nodup
  | _ => False

/-- Criteria that make sense for the columns that they are about. -/
structure WellFormed (criteria : List (SearchCriteriaFiltered φ)) : Prop where
  /-- a column that has criteria is asked for a text -/
  text (column : TextColumn) (h : Constrained criteria column.name) :
    ∃ param, Given criteria column.name param ∧ AsksText param
  /-- the criteria for the tags list tags -/
  tags (param : FilterSearchParam φ) (h : Given criteria .tags param) : ListsTags param

/-! ## Merging -/

/-- The parameters for a name, one of the criteria after the other. -/
def merged (criteria : List (SearchCriteriaFiltered φ)) (name : CriteriaName) :
    List (FilterSearchParam φ) :=
  (criteria.filter fun c => c.filterName = name).flatMap SearchCriteriaFiltered.criteria

theorem mem_merged {criteria : List (SearchCriteriaFiltered φ)} {name : CriteriaName}
    {param : FilterSearchParam φ} : param ∈ merged criteria name ↔ Given criteria name param := by
  simp only [merged, Given, List.mem_flatMap, List.mem_filter, decide_eq_true_eq, and_assoc]

/-- What there is to be collected for a name. -/
def collected (criteria : List (SearchCriteriaFiltered φ)) (name : CriteriaName) :
    Option (List (FilterSearchParam φ)) :=
  if Constrained criteria name then some (merged criteria name) else none

theorem collected_getD (criteria : List (SearchCriteriaFiltered φ)) (name : CriteriaName) :
    (collected criteria name).getD [] = merged criteria name := by
  unfold collected
  split
  · rfl
  · case isFalse hnone =>
    refine (List.eq_nil_iff_forall_not_mem.mpr fun param hparam => hnone ?_).symm
    obtain ⟨c, hc, hname, -⟩ := mem_merged.mp hparam
    exact ⟨c, hc, hname⟩

theorem collected_concat_self (criteria : List (SearchCriteriaFiltered φ))
    (c : SearchCriteriaFiltered φ) : collected (criteria ++ [c]) c.filterName =
      some (merged criteria c.filterName ++ c.criteria) := by
  have hconstrained : Constrained (criteria ++ [c]) c.filterName :=
    ⟨c, List.mem_append_right _ (List.mem_singleton_self c), rfl⟩
  rw [collected, if_pos hconstrained]
  simp [merged]

theorem collected_concat_of_ne {c : SearchCriteriaFiltered φ} {name : CriteriaName}
    (h : c.filterName ≠ name) (criteria : List (SearchCriteriaFiltered φ)) :
    collected (criteria ++ [c]) name = collected criteria name := by
  have hconstrained : Constrained (criteria ++ [c]) name ↔ Constrained criteria name := by
    simp [Constrained, h]
  have hmerged : merged (criteria ++ [c]) name = merged criteria name := by simp [merged, h]
  exact if_congr hconstrained (congrArg some hmerged) rfl

/-- The map collects the parameters for each name. -/
theorem criteriaMap_eq (criteria : List (SearchCriteriaFiltered φ)) (name : CriteriaName) :
    criteriaMap criteria name = collected criteria name := by
  induction criteria using List.reverseRecOn with
  | nil => rfl
  | append_singleton criteria c ih =>
    have hstep : criteriaMap (criteria ++ [c]) = Function.update (criteriaMap criteria)
        c.filterName (some ((criteriaMap criteria c.filterName).getD [] ++ c.criteria)) := by
      rw [criteriaMap, List.foldl_append]
      rfl
    rw [hstep]
    by_cases hname : c.filterName = name
    · subst hname
      rw [Function.update_self, ih, collected_getD, collected_concat_self]
    · rw [Function.update_of_ne (Ne.symm hname), ih, collected_concat_of_ne hname]

/-! ## When building the query panics -/

/-- The tags that a parameter asks for. -/
def FilterSearchParam.tagIds : FilterSearchParam φ → List BigintId
  | .tagsAny tagIds | .tagsAll tagIds => tagIds
  | _ => []

/-- A tag that is asked for cannot be read. -/
def AsksUnreadable (criteria : List (SearchCriteriaFiltered φ)) : Prop :=
  ∃ param, Given criteria .tags param ∧ ∃ id ∈ param.tagIds, id.Unreadable

theorem tagCondition_eq_none_iff {param : FilterSearchParam φ} :
    tagCondition param = none ↔ ∃ id ∈ param.tagIds, id.Unreadable := by
  cases param with
  | tagsAny tagIds | tagsAll tagIds =>
    cases tagIds with
    | nil => exact iff_of_false nofun (by simp [FilterSearchParam.tagIds])
    | cons id ids =>
      have hne : ¬ (id :: ids).isEmpty = true := Bool.false_ne_true
      rw [tagCondition, if_neg hne, Option.map_eq_none_iff, BigintId.mapM_toI64_eq_none_iff]
      rfl
  | textLike | textIn | numericComparison | numericBetween | nullCheck =>
    exact iff_of_false nofun (by simp [FilterSearchParam.tagIds])

theorem tagConditions_eq_none_iff {params : List (FilterSearchParam φ)} :
    tagConditions params = none ↔ ∃ param ∈ params, ∃ id ∈ param.tagIds, id.Unreadable := by
  induction params with
  | nil => exact iff_of_false nofun (by simp)
  | cons param params ih =>
    rw [tagConditions, List.exists_mem_cons_iff, ← tagCondition_eq_none_iff, ← ih]
    cases tagCondition param with
    | none => exact iff_of_true rfl (.inl rfl)
    | some condition => cases tagConditions params <;> simp

/-- **When it panics**: wherever the criteria for the tags stand. -/
theorem buildSelect_eq_none_iff {criteria : List (SearchCriteriaFiltered φ)} :
    buildSelect criteria = none ↔ AsksUnreadable criteria := by
  have hbuild : buildSelect criteria = none ↔ tagConditions (merged criteria .tags) = none := by
    rw [buildSelect, criteriaMap_eq criteria .tags, collected_getD]
    cases tagConditions (merged criteria .tags) <;> simp
  rw [hbuild, tagConditions_eq_none_iff]
  simp only [mem_merged, AsksUnreadable]

/-- In all other cases there is a query. -/
theorem exists_buildSelect {criteria : List (SearchCriteriaFiltered φ)}
    (h : ¬AsksUnreadable criteria) : ∃ select, buildSelect criteria = some select :=
  Option.ne_none_iff_exists'.mp (mt buildSelect_eq_none_iff.mp h)

/-! ## What conditions mean -/

/-- The group of a column holds of the tracks whose text is asked for. -/
theorem textGroup_holds {like : String → String → Bool} {db : Database ρ} {track : TrackInfo ρ}
    {column : TextColumn} {params : List (FilterSearchParam φ)} :
    (textGroup column params).holds like db track = true ↔
      ∃ param ∈ params, TextMatches like (column.read track) param := by
  rw [textGroup, Condition.holds, List.any_filterMap, List.any_eq_true]
  refine exists_congr fun param => and_congr_right fun _ => ?_
  cases param with
  | textLike pattern caseSensitive => rfl
  | textIn values =>
    cases values with
    | nil => simp [TextMatches]
    | cons value values => simp [TextCondition.holds, TextMatches]
  | numericComparison | numericBetween | nullCheck | tagsAny | tagsAll => simp [TextMatches]

/-- The numbers of ids that could all be read. -/
theorem map_toI64_eq {tagIds : List BigintId} {ids : List ℤ}
    (h : tagIds.mapM BigintId.toI64 = some ids) : tagIds.map BigintId.toI64 = ids.map some := by
  induction tagIds generalizing ids with
  | nil =>
    obtain rfl := Option.some.inj h
    rfl
  | cons tagId tagIds ih =>
    rw [List.mapM_cons] at h
    obtain ⟨id, hid, h⟩ := Option.bind_eq_some_iff.mp h
    obtain ⟨ids', hids', h⟩ := Option.bind_eq_some_iff.mp h
    obtain rfl := Option.some.inj h
    rw [List.map_cons, List.map_cons, hid, ih hids']

theorem nodup_ids_iff {tagIds : List BigintId} {ids : List ℤ}
    (h : tagIds.mapM BigintId.toI64 = some ids) :
    ids.Nodup ↔ (tagIds.map BigintId.toI64).Nodup := by
  rw [map_toI64_eq h]
  exact (List.nodup_map_iff fun _ _ => Option.some.inj).symm

theorem mem_ids_iff {tagIds : List BigintId} {ids : List ℤ}
    (h : tagIds.mapM BigintId.toI64 = some ids) {id : ℤ} :
    id ∈ ids ↔ ∃ tagId ∈ tagIds, tagId.toI64 = some id := by
  rw [← List.mem_map, map_toI64_eq h, List.mem_map]
  simp

/-- As many different values as there can be are all of them, and there is none twice. -/
theorem length_dedup_eq_iff {α : Type} [DecidableEq α] {xs ys : List α} (hsub : xs ⊆ ys) :
    xs.dedup.length = ys.length ↔ ys.Nodup ∧ ys ⊆ xs := by
  have hdedup : xs.dedup ⊆ ys := fun x hx => hsub (List.mem_dedup.mp hx)
  have hsubperm : xs.dedup.Subperm ys := List.subperm_of_subset (List.nodup_dedup xs) hdedup
  constructor
  · intro hlength
    have hperm := hsubperm.perm_of_length_le hlength.ge
    exact ⟨hperm.nodup_iff.mp (List.nodup_dedup xs),
      fun y hy => List.mem_dedup.mp (hperm.mem_iff.mpr hy)⟩
  · rintro ⟨hys, hsup⟩
    have hsup' : ys ⊆ xs.dedup := fun y hy => List.mem_dedup.mpr (hsup hy)
    exact (hsubperm.antisymm (List.subperm_of_subset hys hsup')).length_eq

/-- The values of a list of tags contain a tag. -/
theorem contains_bigInt {ids : List ℤ} {id : ℤ} :
    (ids.map Value.bigInt).contains (.bigInt id) = true ↔ id ∈ ids := by
  simp

/-- The tracks of `TagsAny`. -/
theorem mem_rows_any {assigned : List TagAssigned} {ids : List ℤ} {track : ℤ} :
    track ∈ TagQuery.rows assigned ⟨true, ids.map .bigInt, none⟩ ↔
      ∃ a ∈ assigned, a.trackId = track ∧ a.tagId ∈ ids := by
  simp only [TagQuery.rows, contains_bigInt, ↓reduceIte, List.mem_dedup, List.mem_map,
    List.mem_filter, and_assoc, and_comm (a := _ ∈ ids)]

/-- The tracks of `TagsAll`: none, if a tag is in the list twice. -/
theorem mem_rows_all {assigned : List TagAssigned} {ids : List ℤ} {track : ℤ} (hne : ids ≠ []) :
    track ∈ TagQuery.rows assigned ⟨false, ids.map .bigInt, some ids.length⟩ ↔
      ids.Nodup ∧ ∀ id ∈ ids, ∃ a ∈ assigned, a.trackId = track ∧ a.tagId = id := by
  let found := assigned.filter fun row => (ids.map Value.bigInt).contains (.bigInt row.tagId)
  let carried := (found.filter fun row => row.trackId = track).map TagAssigned.tagId
  have hcarried : ∀ id, id ∈ carried ↔
      id ∈ ids ∧ ∃ a ∈ assigned, a.trackId = track ∧ a.tagId = id := by
    intro id
    simp only [carried, found, List.mem_map, List.mem_filter, contains_bigInt, decide_eq_true_eq]
    constructor
    · rintro ⟨a, ⟨⟨ha, hid⟩, htrack⟩, rfl⟩
      exact ⟨hid, a, ha, htrack, rfl⟩
    · rintro ⟨hid, a, ha, htrack, rfl⟩
      exact ⟨a, ⟨⟨ha, hid⟩, htrack⟩, rfl⟩
  have hsub : carried ⊆ ids := fun id hid => ((hcarried id).mp hid).1
  have hcount : carried.dedup.length = ids.length ↔ ids.Nodup ∧ ids ⊆ carried :=
    length_dedup_eq_iff hsub
  have hrows : track ∈ TagQuery.rows assigned ⟨false, ids.map .bigInt, some ids.length⟩ ↔
      track ∈ found.map TagAssigned.trackId ∧ carried.dedup.length = ids.length := by
    simp only [TagQuery.rows, List.mem_filter, List.mem_dedup, decide_eq_true_eq, Int.natCast_inj]
    rfl
  rw [hrows, hcount]
  constructor
  · rintro ⟨-, hnodup, hall⟩
    exact ⟨hnodup, fun id hid => ((hcarried id).mp (hall hid)).2⟩
  · rintro ⟨hnodup, hall⟩
    refine ⟨?_, hnodup, fun id hid => (hcarried id).mpr ⟨hid, hall id hid⟩⟩
    obtain ⟨id, hid⟩ := List.exists_mem_of_ne_nil ids hne
    obtain ⟨a, ha, htrack, rfl⟩ := hall id hid
    exact List.mem_map.mpr ⟨a, List.mem_filter.mpr ⟨ha, contains_bigInt.mpr hid⟩, htrack⟩

theorem idIn_holds {like : String → String → Bool} {db : Database ρ} {track : TrackInfo ρ}
    {sub : TagQuery Value} : (Condition.idIn sub).holds like db track = true ↔
      track.id ∈ sub.rows db.tagAssignments.rows :=
  List.contains_iff_mem

/-- At least one of the tags. -/
theorem exists_carries_iff {db : Database ρ} {track : TrackInfo ρ} {tagIds : List BigintId}
    {ids : List ℤ} (h : tagIds.mapM BigintId.toI64 = some ids) :
    (∃ a ∈ db.tagAssignments.rows, a.trackId = track.id ∧ a.tagId ∈ ids) ↔
      ∃ tagId ∈ tagIds, Carries db track tagId := by
  constructor
  · rintro ⟨a, ha, htrack, hid⟩
    obtain ⟨tagId, htagId, hread⟩ := (mem_ids_iff h).mp hid
    exact ⟨tagId, htagId, a, ha, htrack, hread⟩
  · rintro ⟨tagId, htagId, a, ha, htrack, hread⟩
    exact ⟨a, ha, htrack, (mem_ids_iff h).mpr ⟨tagId, htagId, hread⟩⟩

/-- All of the tags. -/
theorem forall_carries_iff {db : Database ρ} {track : TrackInfo ρ} {tagIds : List BigintId}
    {ids : List ℤ} (h : tagIds.mapM BigintId.toI64 = some ids) :
    (∀ id ∈ ids, ∃ a ∈ db.tagAssignments.rows, a.trackId = track.id ∧ a.tagId = id) ↔
      ∀ tagId ∈ tagIds, Carries db track tagId := by
  constructor
  · intro hall tagId htagId
    have hsome : tagId.toI64 ∈ ids.map some :=
      map_toI64_eq h ▸ List.mem_map_of_mem htagId
    obtain ⟨id, hid, hread⟩ := List.mem_map.mp hsome
    obtain ⟨a, ha, htrack, rfl⟩ := hall id hid
    exact ⟨a, ha, htrack, hread.symm⟩
  · intro hall id hid
    obtain ⟨tagId, htagId, hread⟩ := (mem_ids_iff h).mp hid
    obtain ⟨a, ha, htrack, hread'⟩ := hall tagId htagId
    exact ⟨a, ha, htrack, Option.some.inj (hread'.symm.trans hread)⟩

/-- The condition of a parameter of the tags holds of the tracks that pass it. -/
theorem tagCondition_holds {like : String → String → Bool} {db : Database ρ} {track : TrackInfo ρ}
    {param : FilterSearchParam φ} {condition : Option (Condition Value)}
    (h : tagCondition param = some condition) :
    condition.toList.all (Condition.holds like db track) = true ↔ TagsPass db track param := by
  cases param with
  | tagsAny tagIds =>
    by_cases hnil : tagIds = []
    · subst hnil
      obtain rfl := Option.some.inj h
      exact iff_of_true rfl (.inl rfl)
    · rw [tagCondition, if_neg (by simpa using hnil)] at h
      obtain ⟨ids, hids, rfl⟩ := Option.map_eq_some_iff.mp h
      rw [Option.toList_some, List.all_cons, List.all_nil, Bool.and_true, idIn_holds,
        mem_rows_any, exists_carries_iff hids]
      exact (or_iff_right hnil).symm
  | tagsAll tagIds =>
    by_cases hnil : tagIds = []
    · subst hnil
      obtain rfl := Option.some.inj h
      exact iff_of_true rfl ⟨List.nodup_nil, nofun⟩
    · rw [tagCondition, if_neg (by simpa using hnil)] at h
      obtain ⟨ids, hids, rfl⟩ := Option.map_eq_some_iff.mp h
      have hne : ids ≠ [] := by
        rintro rfl
        exact hnil (List.map_eq_nil_iff.mp (map_toI64_eq hids))
      rw [Option.toList_some, List.all_cons, List.all_nil, Bool.and_true, idIn_holds,
        mem_rows_all hne, forall_carries_iff hids, TagsPass, nodup_ids_iff hids]
  | textLike | textIn | numericComparison | numericBetween | nullCheck =>
    obtain rfl := Option.some.inj h
    exact iff_of_true rfl trivial

/-- The conditions of the tags hold of the tracks that pass all of the parameters. -/
theorem tagConditions_hold {like : String → String → Bool} {db : Database ρ} {track : TrackInfo ρ}
    {params : List (FilterSearchParam φ)} {conditions : List (Condition Value)}
    (h : tagConditions params = some conditions) :
    conditions.all (Condition.holds like db track) = true ↔
      ∀ param ∈ params, TagsPass db track param := by
  induction params generalizing conditions with
  | nil =>
    obtain rfl := Option.some.inj h
    exact iff_of_true rfl nofun
  | cons param params ih =>
    obtain ⟨condition, hcondition, h⟩ := Option.bind_eq_some_iff.mp h
    obtain ⟨conditions', hconditions, h⟩ := Option.bind_eq_some_iff.mp h
    obtain rfl := Option.some.inj h
    rw [List.all_append, Bool.and_eq_true, tagCondition_holds hcondition, ih hconditions,
      List.forall_mem_cons]

/-- The group of a column, if it has criteria. -/
def textGroups (criteria : List (SearchCriteriaFiltered φ)) (column : TextColumn) :
    List (Condition Value) :=
  (criteriaMap criteria column.name).toList.map (textGroup column)

/-- It holds of the tracks whose text is asked for. -/
theorem textGroups_hold {criteria : List (SearchCriteriaFiltered φ)}
    {like : String → String → Bool} {db : Database ρ} {track : TrackInfo ρ} (column : TextColumn) :
    (textGroups criteria column).all (Condition.holds like db track) = true ↔
      (Constrained criteria column.name →
        ∃ param, Given criteria column.name param ∧
          TextMatches like (column.read track) param) := by
  rw [textGroups, criteriaMap_eq, collected]
  split
  · case isTrue hconstrained =>
    rw [Option.toList_some, List.map_singleton, List.all_cons, List.all_nil, Bool.and_true,
      textGroup_holds]
    simp only [mem_merged, hconstrained, true_imp_iff]
  · case isFalse hnone => simp [hnone]

/-- **The query for the tracks**: its rows are the tracks that pass. -/
theorem mem_rows_iff {criteria : List (SearchCriteriaFiltered φ)} {select : Select Value}
    (h : buildSelect criteria = some select) {like : String → String → Bool} {db : Database ρ}
    {track : TrackInfo ρ} : track ∈ select.rows like db ↔
      track ∈ db.trackInfo.rows ∧ Passes like db criteria track := by
  obtain ⟨tags, htags, h⟩ := Option.bind_eq_some_iff.mp h
  obtain rfl := Option.some.inj h
  rw [criteriaMap_eq criteria .tags, collected_getD] at htags
  change track ∈ Select.rows like db
    ⟨textGroups criteria .trackName ++ textGroups criteria .artist ++ tags⟩ ↔ _
  rw [Select.rows, List.mem_filter, List.all_append, List.all_append, Bool.and_eq_true,
    Bool.and_eq_true, tagConditions_hold htags]
  refine and_congr_right fun _ => ?_
  constructor
  · rintro ⟨⟨hnames, hartists⟩, htagsPass⟩
    refine ⟨fun column => ?_, fun param hparam => htagsPass param (mem_merged.mpr hparam)⟩
    cases column with
    | trackName => exact (textGroups_hold .trackName).mp hnames
    | artist => exact (textGroups_hold .artist).mp hartists
  · intro hpasses
    refine ⟨⟨?_, ?_⟩, fun param hparam => hpasses.tags param (mem_merged.mp hparam)⟩
    · exact (textGroups_hold .trackName).mpr (hpasses.text .trackName)
    · exact (textGroups_hold .artist).mpr (hpasses.text .artist)

section Selected

variable {like : String → String → Bool} {db : Database ρ} {track : TrackInfo ρ}
  {criteria : List (SearchCriteriaFiltered φ)}

/-- The rows of a page, unless there is a panic. -/
theorem statementRows_eq_some {cursor : Option ℤ} {n : ℤ} {rows : List (TrackInfo ρ)} :
    statementRows like db cursor (some criteria) n = some rows ↔
      ∃ select, buildSelect criteria = some select ∧
        page TrackInfo.id (cursor.getD 0) n (select.rows like db) = rows := by
  rw [statementRows, Option.getD_some, Option.bind_eq_bind, Option.bind_eq_some_iff]
  refine exists_congr fun select => and_congr_right fun _ => ?_
  rw [execute_skeleton, Option.some.injEq]

/-- **What can be selected**, on one page or another, is what passes. -/
theorem exists_selected_iff : (∃ cursor n rows,
      statementRows like db cursor (some criteria) n = some rows ∧ track ∈ rows) ↔
    ¬AsksUnreadable criteria ∧ track ∈ db.trackInfo.rows ∧ Passes like db criteria track := by
  constructor
  · rintro ⟨cursor, n, rows, hrows, hmem⟩
    obtain ⟨select, hselect, rfl⟩ := statementRows_eq_some.mp hrows
    refine ⟨?_, (mem_rows_iff hselect).mp (page_subset _ n _ hmem)⟩
    rw [← buildSelect_eq_none_iff, hselect]
    exact Option.some_ne_none select
  · rintro ⟨hreadable, hpasses⟩
    obtain ⟨select, hselect⟩ := exists_buildSelect hreadable
    -- a negative limit is none
    refine ⟨none, -1, _, statementRows_eq_some.mpr ⟨select, hselect, rfl⟩, ?_⟩
    exact mem_page_of_neg (by decide) ((mem_rows_iff hselect).mpr hpasses)

end Selected

/-- A track. -/
def oneTrack : SqlTable (TrackInfo ℤ) TrackInfo.id :=
  ⟨[⟨1, "Chopin", "Nocturne", 270, none, none, "2024", .integer 0⟩], 1, by decide, by decide,
    by decide, SqlTable.seq_mem_one⟩

end FilteredTracks

end Vamp
