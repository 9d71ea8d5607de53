import Vamp.CommandJson
import Vamp.RemoteMessage

/-!
# Commands that are sent

What the functions of `tauriDb.ts` put into a message, for each of the commands, and what
`Serialize` would: the members of an object stand in the order of the fields. How a
floating-point number is written is a parameter (`NumberTexts`).

A request is read as the same request if and only if the numbers of its command survive
(`request_comes_back_iff`): integers that have 32 bits, and floating-point numbers that their
own text gives back.
-/

namespace Vamp

open Serde Serde.Fields Repository

variable {α ρ : Type}

/-- How floating-point numbers are written. -/
structure NumberTexts (ρ : Type) : Type where
  /-- an `f64`, `null` where there is no number -/
  f64 : ρ → Json
  /-- an `f32`, `null` where there is no number -/
  f32 : ρ → Json

/-- An integer has 32 bits. -/
def IsI32 (n : ℤ) : Prop := -2 ^ 31 ≤ n ∧ n < 2 ^ 31

instance (n : ℤ) : Decidable (IsI32 n) := inferInstanceAs (Decidable (_ ∧ _))

/-! ## Values that come back -/

/-- An integer comes back if it fits. -/
theorem i32_int_iff {n : ℤ} : i32 (.int n) = some n ↔ IsI32 n := by
  change (if IsI32 n then some n else none) = some n ↔ IsI32 n
  split
  · case isTrue h => exact iff_of_true rfl h
  · case isFalse h => exact iff_of_false nofun h

/-- A list comes back if its elements do. -/
theorem list_arr_iff {read : Reader α} {write : α → Json} {xs : List α} :
    list read (.arr (xs.map write)) = some xs ↔ ∀ x ∈ xs, read (write x) = some x := by
  induction xs with
  | nil => exact iff_of_true rfl nofun
  | cons x xs ih =>
    rw [list] at ih ⊢
    rw [List.map_cons, List.mapM_cons, List.forall_mem_cons, ← ih]
    cases read (write x) with
    | none => exact iff_of_false nofun fun h => nomatch h.1
    | some y => cases (xs.map write).mapM read <;> simp

/-- What may be missing comes back if it does when it is there. -/
theorem option_orNull_iff {read : Reader α} {write : α → Json} (hnull : read .null = none)
    {o : Option α} :
    option read (orNull write o) = some o ↔ ∀ a ∈ o, read (write a) = some a := by
  cases o with
  | none => exact iff_of_true rfl nofun
  | some a =>
    have hforall : (∀ b ∈ some a, read (write b) = some b) ↔ read (write a) = some a :=
      ⟨fun h => h a rfl, fun h b hb => Option.some.inj hb ▸ h⟩
    rw [orNull, hforall]
    cases hwrite : write a with
    | null => exact iff_of_false nofun fun h => nomatch hnull.symm.trans h
    | _ => simp [option]

/-! ## Parameters of the repository -/

/-- `NewTrack` as JSON. -/
def NewTrack.toJson (texts : NumberTexts ρ) (t : NewTrack ρ) : Json :=
  .obj [("artist", .str t.artist), ("track_name", .str t.trackName),
    ("length_seconds", orNull .int t.lengthSeconds), ("bitrate_kbps", orNull .int t.bitrateKbps),
    ("tempo_bpm", orNull texts.f32 t.tempoBpm), ("addition_time", .str t.additionTime),
    ("sources", .arr (t.sources.map .str))]

/-- `TrackUpdate` as JSON. -/
def TrackUpdate.toJson (texts : NumberTexts ρ) (u : TrackUpdate ρ) : Json :=
  .obj [("artist", orNull .str u.artist), ("track_name", orNull .str u.trackName),
    ("length_seconds", orNull .int u.lengthSeconds), ("bitrate_kbps", orNull .int u.bitrateKbps),
    ("tempo_bpm", orNull texts.f32 u.tempoBpm), ("addition_time", orNull .str u.additionTime)]

/-- The numbers of a track come back. -/
def NewTrack.Survives (numbers : Numbers ρ) (texts : NumberTexts ρ) (t : NewTrack ρ) : Prop :=
  (∀ n ∈ t.lengthSeconds, IsI32 n) ∧ (∀ n ∈ t.bitrateKbps, IsI32 n) ∧
    ∀ x ∈ t.tempoBpm, numbers.f32 (texts.f32 x) = some x

/-- The numbers of an update come back. -/
def TrackUpdate.Survives (numbers : Numbers ρ) (texts : NumberTexts ρ) (u : TrackUpdate ρ) :
    Prop :=
  (∀ n ∈ u.lengthSeconds, IsI32 n) ∧ (∀ n ∈ u.bitrateKbps, IsI32 n) ∧
    ∀ x ∈ u.tempoBpm, numbers.f32 (texts.f32 x) = some x

theorem strings (xs : List String) : list string (.arr (xs.map .str)) = some xs :=
  list_arr_iff.mpr fun _ _ => rfl

theorem option_string (s : Option String) : option string (orNull .str s) = some s :=
  (option_orNull_iff rfl).mpr fun _ _ => rfl

theorem option_i32_iff {n : Option ℤ} :
    option i32 (orNull .int n) = some n ↔ ∀ m ∈ n, IsI32 m :=
  (option_orNull_iff rfl).trans (forall₂_congr fun _ _ => i32_int_iff)

theorem option_f32_iff {numbers : Numbers ρ} {texts : NumberTexts ρ} {x : Option ρ} :
    option numbers.f32 (orNull texts.f32 x) = some x ↔
      ∀ y ∈ x, numbers.f32 (texts.f32 y) = some y :=
  option_orNull_iff rfl

theorem ids (xs : List BigintId) :
    list BigintId.fromJson (.arr (xs.map BigintId.toJson)) = some xs :=
  list_arr_iff.mpr fun id _ => BigintId.fromJson_toJson id

theorem option_id (id : Option BigintId) :
    option BigintId.fromJson (orNull BigintId.toJson id) = some id :=
  (option_orNull_iff rfl).mpr fun id _ => BigintId.fromJson_toJson id

/-- Some fields, and then some more. -/
@[simp] theorem fromMembers_seq {β : Type} (f : Fields (α → β)) (x : Fields α)
    (members : List (String × Json)) : (f <*> x).fromMembers members =
      (f.fromMembers members).bind fun g => (x.fromMembers members).bind fun a => some (g a) := rfl

@[simp] theorem fromMembers_map {β : Type} (f : α → β) (x : Fields α)
    (members : List (String × Json)) :
    (f <$> x).fromMembers members = (x.fromMembers members).bind fun a => some (f a) := rfl

variable {numbers : Numbers ρ} {texts : NumberTexts ρ}

theorem NewTrack.fromJson_toJson_iff {t : NewTrack ρ} :
    fromJson numbers (t.toJson texts) = some t ↔ t.Survives numbers texts := by
  obtain ⟨artist, trackName, lengthSeconds, bitrateKbps, tempoBpm, additionTime, sources⟩ := t
  rw [Survives, ← option_i32_iff, ← option_i32_iff, ← option_f32_iff]
  simp [fromJson, toJson, Fields.read, required, Fields.optional, field, member, single, string,
    strings, Option.bind_eq_some_iff]

theorem TrackUpdate.fromJson_toJson_iff {u : TrackUpdate ρ} :
    fromJson numbers (u.toJson texts) = some u ↔ u.Survives numbers texts := by
  obtain ⟨artist, trackName, lengthSeconds, bitrateKbps, tempoBpm, additionTime⟩ := u
  rw [Survives, ← option_i32_iff, ← option_i32_iff, ← option_f32_iff]
  simp [fromJson, toJson, Fields.read, Fields.optional, field, member, single, option_string,
    Option.bind_eq_some_iff]

namespace TrackSearch

/-- `NumericOperator` as JSON. -/
def NumericOperator.toJson : NumericOperator → Json
  | .lt => .str "<"
  | .gt => .str ">"
  | .eq => .str "="
  | .lte => .str "<="
  | .gte => .str ">="
  | .ne => .str "!="

theorem NumericOperator.fromJson_toJson (op : NumericOperator) : fromJson op.toJson = some op := by
  cases op <;> rfl

/-- `SearchParam` as JSON. -/
def SearchParam.toJson (texts : NumberTexts ρ) : SearchParam ρ → Json
  | .numericComparison op value => .obj [("mode", .str "numeric_comparison"),
      ("operator", op.toJson), ("value", texts.f64 value)]
  | .numericBetween min max => .obj [("mode", .str "numeric_between"), ("min", texts.f64 min),
      ("max", texts.f64 max)]
  | .textLike pattern caseSensitive => .obj [("mode", .str "text_like"), ("pattern", .str pattern),
      ("case_sensitive", .bool caseSensitive)]
  | .textIn values => .obj [("mode", .str "text_in"), ("values", .arr (values.map .str))]
  | .nullCheck isNull => .obj [("mode", .str "null_check"), ("is_null", .bool isNull)]
  | .tagsIn tagIds =>
    .obj [("mode", .str "tags_in"), ("tag_ids", .arr (tagIds.map BigintId.toJson))]
  | .tagsAll tagIds =>
    .obj [("mode", .str "tags_all"), ("tag_ids", .arr (tagIds.map BigintId.toJson))]

/-- The numbers of a parameter come back. -/
def SearchParam.Survives (numbers : Numbers ρ) (texts : NumberTexts ρ) : SearchParam ρ → Prop
  | .numericComparison _ value => numbers.f64 (texts.f64 value) = some value
  | .numericBetween min max => numbers.f64 (texts.f64 min) = some min ∧
      numbers.f64 (texts.f64 max) = some max
  | _ => True

theorem SearchParam.fromJson_toJson_iff {param : SearchParam ρ} :
    fromJson numbers (param.toJson texts) = some param ↔ param.Survives numbers texts := by
  cases param with
  | numericComparison op value =>
    simp [fromJson, toJson, Survives, tagInside, identifier, Fields.read, required, field, member,
      single, NumericOperator.fromJson_toJson, Option.bind_eq_some_iff]
  | numericBetween min max =>
    simp [fromJson, toJson, Survives, tagInside, identifier, Fields.read, required, field, member,
      single, Option.bind_eq_some_iff]
  | textLike pattern caseSensitive => exact iff_of_true rfl trivial
  | textIn values =>
    simp [fromJson, toJson, Survives, tagInside, identifier, Fields.read, required, field, member,
      single, strings]
  | nullCheck isNull => exact iff_of_true rfl trivial
  | tagsIn tagIds =>
    simp [fromJson, toJson, Survives, tagInside, identifier, Fields.read, required, field, member,
      single, ids]
  | tagsAll tagIds =>
    simp [fromJson, toJson, Survives, tagInside, identifier, Fields.read, required, field, member,
      single, ids]

/-- `SearchCriteria` as JSON. -/
def SearchCriteria.toJson (texts : NumberTexts ρ) (c : SearchCriteria ρ) : Json :=
  .obj [("column_name", .str c.columnName),
    ("criteria", .arr (c.criteria.map (SearchParam.toJson texts)))]

/-- The numbers of a criterion come back. -/
def SearchCriteria.Survives (numbers : Numbers ρ) (texts : NumberTexts ρ) (c : SearchCriteria ρ) :
    Prop := ∀ param ∈ c.criteria, param.Survives numbers texts

theorem SearchCriteria.fromJson_toJson_iff {c : SearchCriteria ρ} :
    fromJson numbers (c.toJson texts) = some c ↔ c.Survives numbers texts := by
  obtain ⟨columnName, criteria⟩ := c
  simp [fromJson, toJson, Survives, Fields.read, required, field, member, single, string,
    list_arr_iff, Option.bind_eq_some_iff, SearchParam.fromJson_toJson_iff]

end TrackSearch

namespace FilteredTracks

/-- `FilterNumericOperator` as JSON. -/
def FilterNumericOperator.toJson : FilterNumericOperator → Json
  | .lt => .str "<"
  | .gt => .str ">"
  | .eq => .str "="
  | .lte => .str "<="
  | .gte => .str ">="
  | .ne => .str "!="

theorem FilterNumericOperator.fromJson_toJson (op : FilterNumericOperator) :
    fromJson op.toJson = some op := by
  cases op <;> rfl

/-- `FilterSearchParam` as JSON. -/
def FilterSearchParam.toJson (texts : NumberTexts ρ) : FilterSearchParam ρ → Json
  | .numericComparison op value => .obj [("mode", .str "numeric_comparison"),
      ("operator", op.toJson), ("value", texts.f64 value)]
  | .numericBetween min max => .obj [("mode", .str "numeric_between"), ("min", texts.f64 min),
      ("max", texts.f64 max)]
  | .textLike pattern caseSensitive => .obj [("mode", .str "text_like"), ("pattern", .str pattern),
      ("case_sensitive", .bool caseSensitive)]
  | .textIn values => .obj [("mode", .str "text_in"), ("values", .arr (values.map .str))]
  | .nullCheck isNull => .obj [("mode", .str "null_check"), ("is_null", .bool isNull)]
  | .tagsAny tagIds =>
    .obj [("mode", .str "tags_any"), ("tag_ids", .arr (tagIds.map BigintId.toJson))]
  | .tagsAll tagIds =>
    .obj [("mode", .str "tags_all"), ("tag_ids", .arr (tagIds.map BigintId.toJson))]

/-- The numbers of a parameter come back. -/
def FilterSearchParam.Survives (numbers : Numbers ρ) (texts : NumberTexts ρ) :
    FilterSearchParam ρ → Prop
  | .numericComparison _ value => numbers.f64 (texts.f64 value) = some value
  | .numericBetween min max => numbers.f64 (texts.f64 min) = some min ∧
      numbers.f64 (texts.f64 max) = some max
  | _ => True

theorem FilterSearchParam.fromJson_toJson_iff {param : FilterSearchParam ρ} :
    fromJson numbers (param.toJson texts) = some param ↔ param.Survives numbers texts := by
  cases param with
  | numericComparison op value =>
    simp [fromJson, toJson, Survives, tagInside, identifier, Fields.read, required, field, member,
      single, FilterNumericOperator.fromJson_toJson, Option.bind_eq_some_iff]
  | numericBetween min max =>
    simp [fromJson, toJson, Survives, tagInside, identifier, Fields.read, required, field, member,
      single, Option.bind_eq_some_iff]
  | textLike pattern caseSensitive => exact iff_of_true rfl trivial
  | textIn values =>
    simp [fromJson, toJson, Survives, tagInside, identifier, Fields.read, required, field, member,
      single, strings]
  | nullCheck isNull => exact iff_of_true rfl trivial
  | tagsAny tagIds =>
    simp [fromJson, toJson, Survives, tagInside, identifier, Fields.read, required, field, member,
      single, ids]
  | tagsAll tagIds =>
    simp [fromJson, toJson, Survives, tagInside, identifier, Fields.read, required, field, member,
      single, ids]

/-- `CriteriaName` as JSON. -/
def CriteriaName.toJson : CriteriaName → Json
  | .id => .str "id"
  | .artist => .str "artist"
  | .trackName => .str "track_name"
  | .lengthSeconds => .str "length_seconds"
  | .bitrateKbps => .str "bitrate_kbps"
  | .tempoBpm => .str "tempo_bpm"
  | .additionTime => .str "addition_time"
  | .tags => .str "tags"
  | .listenedSeconds => .str "listened_seconds"

theorem CriteriaName.fromJson_toJson (name : CriteriaName) : fromJson name.toJson = some name := by
  cases name <;> rfl

/-- `SearchCriteriaFiltered` as JSON. -/
def SearchCriteriaFiltered.toJson (texts : NumberTexts ρ) (c : SearchCriteriaFiltered ρ) : Json :=
  .obj [("filter_name", c.filterName.toJson),
    ("criteria", .arr (c.criteria.map (FilterSearchParam.toJson texts)))]

/-- The numbers of a criterion come back. -/
def SearchCriteriaFiltered.Survives (numbers : Numbers ρ) (texts : NumberTexts ρ)
    (c : SearchCriteriaFiltered ρ) : Prop := ∀ param ∈ c.criteria, param.Survives numbers texts

theorem SearchCriteriaFiltered.fromJson_toJson_iff {c : SearchCriteriaFiltered ρ} :
    fromJson numbers (c.toJson texts) = some c ↔ c.Survives numbers texts := by
  obtain ⟨filterName, criteria⟩ := c
  simp [fromJson, toJson, Survives, Fields.read, required, field, member, single,
    CriteriaName.fromJson_toJson, list_arr_iff, Option.bind_eq_some_iff,
    FilterSearchParam.fromJson_toJson_iff]

end FilteredTracks

namespace Repository.TagAssignment

/-- `TagAssignment` as JSON. -/
def toJson (a : TagAssignment) : Json :=
  .obj [("track_id", a.trackId.toJson), ("tag_ids", .arr (a.tagIds.map BigintId.toJson))]

theorem fromJson_toJson (a : TagAssignment) : fromJson a.toJson = some a := by
  obtain ⟨trackId, tagIds⟩ := a
  simp [fromJson, toJson, Fields.read, required, field, member, single, ids]

end Repository.TagAssignment

/-! ## Payloads -/

/-- `UpdateTrackArgs` as JSON. -/
def UpdateTrackArgs.toJson (texts : NumberTexts ρ) (args : UpdateTrackArgs ρ) : Json :=
  .obj [("id", args.id.toJson), ("update", args.update.toJson texts)]

theorem UpdateTrackArgs.fromJson_toJson_iff {args : UpdateTrackArgs ρ} :
    fromJson numbers (args.toJson texts) = some args ↔ args.update.Survives numbers texts := by
  obtain ⟨id, update⟩ := args
  rw [← TrackUpdate.fromJson_toJson_iff]
  simp [fromJson, toJson, Fields.read, required, field, member, single, Option.bind_eq_some_iff]

/-- `GetTracksArgs` as JSON. -/
def GetTracksArgs.toJson (texts : NumberTexts ρ) (args : GetTracksArgs ρ) : Json :=
  .obj [("cursor", orNull BigintId.toJson args.cursor),
    ("criteria", orNull (fun criteria => .arr (criteria.map
      (TrackSearch.SearchCriteria.toJson texts))) args.criteria),
    ("limit", .int args.limit)]

/-- The numbers of a search come back. -/
def GetTracksArgs.Survives (numbers : Numbers ρ) (texts : NumberTexts ρ) (args : GetTracksArgs ρ) :
    Prop :=
  (∀ criteria ∈ args.criteria, ∀ c ∈ criteria, c.Survives numbers texts) ∧ IsI32 args.limit

theorem GetTracksArgs.fromJson_toJson_iff {args : GetTracksArgs ρ} :
    fromJson numbers (args.toJson texts) = some args ↔ args.Survives numbers texts := by
  obtain ⟨cursor, criteria, limit⟩ := args
  have hcriteria : option (list (TrackSearch.SearchCriteria.fromJson numbers))
      (orNull (fun criteria => .arr (criteria.map (TrackSearch.SearchCriteria.toJson texts)))
        criteria) = some criteria ↔
      ∀ cs ∈ criteria, ∀ c ∈ cs, c.Survives numbers texts := by
    refine (option_orNull_iff rfl).trans (forall₂_congr fun cs _ => list_arr_iff.trans ?_)
    exact forall₂_congr fun c _ => TrackSearch.SearchCriteria.fromJson_toJson_iff
  rw [Survives, ← hcriteria, ← i32_int_iff]
  simp [fromJson, toJson, Fields.read, required, Fields.optional, field, member, single, option_id,
    Option.bind_eq_some_iff]

/-- `GetTracksFilteredArgs` as JSON. -/
def GetTracksFilteredArgs.toJson (texts : NumberTexts ρ) (args : GetTracksFilteredArgs ρ) : Json :=
  .obj [("cursor", orNull BigintId.toJson args.cursor),
    ("criteria", orNull (fun criteria => .arr (criteria.map
      (FilteredTracks.SearchCriteriaFiltered.toJson texts))) args.criteria),
    ("limit", .int args.limit)]

/-- The numbers of a search come back. -/
def GetTracksFilteredArgs.Survives (numbers : Numbers ρ) (texts : NumberTexts ρ)
    (args : GetTracksFilteredArgs ρ) : Prop :=
  (∀ criteria ∈ args.criteria, ∀ c ∈ criteria, c.Survives numbers texts) ∧ IsI32 args.limit

theorem GetTracksFilteredArgs.fromJson_toJson_iff {args : GetTracksFilteredArgs ρ} :
    fromJson numbers (args.toJson texts) = some args ↔ args.Survives numbers texts := by
  obtain ⟨cursor, criteria, limit⟩ := args
  have hcriteria : option (list (FilteredTracks.SearchCriteriaFiltered.fromJson numbers))
      (orNull (fun criteria => .arr (criteria.map
        (FilteredTracks.SearchCriteriaFiltered.toJson texts))) criteria) = some criteria ↔
      ∀ cs ∈ criteria, ∀ c ∈ cs, c.Survives numbers texts := by
    refine (option_orNull_iff rfl).trans (forall₂_congr fun cs _ => list_arr_iff.trans ?_)
    exact forall₂_congr fun c _ => FilteredTracks.SearchCriteriaFiltered.fromJson_toJson_iff
  rw [Survives, ← hcriteria, ← i32_int_iff]
  simp [fromJson, toJson, Fields.read, required, Fields.optional, field, member, single, option_id,
    Option.bind_eq_some_iff]

/-- `AddListenedSecondsArgs` as JSON. -/
def AddListenedSecondsArgs.toJson (args : AddListenedSecondsArgs) : Json :=
  .obj [("track_id", args.trackId.toJson), ("seconds", .int args.seconds)]

theorem AddListenedSecondsArgs.fromJson_toJson_iff {args : AddListenedSecondsArgs} :
    fromJson args.toJson = some args ↔ IsI32 args.seconds := by
  obtain ⟨trackId, seconds⟩ := args
  rw [← i32_int_iff]
  simp [fromJson, toJson, Fields.read, required, field, member, single, Option.bind_eq_some_iff]

/-- `AddListenArgs` as JSON. -/
def AddListenArgs.toJson (args : AddListenArgs) : Json :=
  .obj [("track_id", args.trackId.toJson), ("from", .str args.listenedFrom),
    ("to", .str args.listenedTo)]

/-- `NameArg` as JSON. -/
def NameArg.toJson (args : NameArg) : Json := .obj [("name", .str args.name)]

/-- `EditTagArgs` as JSON. -/
def EditTagArgs.toJson (args : EditTagArgs) : Json :=
  .obj [("id", args.id.toJson), ("name", .str args.name)]

/-- `PatternArg` as JSON. -/
def PatternArg.toJson (args : PatternArg) : Json := .obj [("pattern", .str args.pattern)]

/-- `AssignTagArgs` as JSON. -/
def AssignTagArgs.toJson (args : AssignTagArgs) : Json :=
  .obj [("track_id", args.trackId.toJson), ("tag_id", args.tagId.toJson)]

/-- `AddMetaArgs` as JSON. -/
def AddMetaArgs.toJson (args : AddMetaArgs) : Json :=
  .obj [("track_id", args.trackId.toJson), ("key", .str args.key), ("value", .str args.value)]

/-- `UpdateMetaArgs` as JSON. -/
def UpdateMetaArgs.toJson (args : UpdateMetaArgs) : Json :=
  .obj [("id", args.id.toJson), ("value", .str args.value)]

/-- `AddTrackSourceArgs` as JSON. -/
def AddTrackSourceArgs.toJson (args : AddTrackSourceArgs) : Json :=
  .obj [("track_id", args.trackId.toJson), ("url", .str args.url)]

/-- `RemoveTrackSourceArgs` as JSON. -/
def RemoveTrackSourceArgs.toJson (args : RemoveTrackSourceArgs) : Json :=
  .obj [("track_id", args.trackId.toJson), ("url", .str args.url)]

/-- `EditTrackSourceArgs` as JSON. -/
def EditTrackSourceArgs.toJson (args : EditTrackSourceArgs) : Json :=
  .obj [("track_id", args.trackId.toJson), ("old_url", .str args.oldUrl),
    ("new_url", .str args.newUrl)]

/-- `LogFromUiArgs` as JSON. -/
def LogFromUiArgs.toJson (args : LogFromUiArgs) : Json := .obj [("message", .str args.message)]

/-- `IdArg` as JSON. -/
def IdArg.toJson (args : IdArg) : Json := .obj [("id", args.id.toJson)]

/-- `TrackIdArg` as JSON. -/
def TrackIdArg.toJson (args : TrackIdArg) : Json := .obj [("track_id", args.trackId.toJson)]

/-! ## Commands -/

namespace Command

/-- The name of a variant. -/
def kind : Command ρ → String
  | addTrack _ => "AddTrack"
  | addTracks _ => "AddTracks"
  | updateTrack _ => "UpdateTrack"
  | getTracks _ => "GetTracks"
  | getTracksWithSources _ => "GetTracksWithSources"
  | getTracksFiltered _ => "GetTracksFiltered"
  | getTrack _ => "GetTrack"
  | deleteTrack _ => "DeleteTrack"
  | addListen _ => "AddListen"
  | getListensForTrack _ => "GetListensForTrack"
  | addListenedSeconds _ => "AddListenedSeconds"
  | addTag _ => "AddTag"
  | editTag _ => "EditTag"
  | deleteTag _ => "DeleteTag"
  | getAllTags => "GetAllTags"
  | getTags _ => "GetTags"
  | assignTag _ => "AssignTag"
  | assignTags _ => "AssignTags"
  | removeTag _ => "RemoveTag"
  | getTagsForTrack _ => "GetTagsForTrack"
  | addMeta _ => "AddMeta"
  | updateMeta _ => "UpdateMeta"
  | deleteMeta _ => "DeleteMeta"
  | getMetaForTrack _ => "GetMetaForTrack"
  | addTrackSource _ => "AddTrackSource"
  | removeTrackSource _ => "RemoveTrackSource"
  | editTrackSource _ => "EditTrackSource"
  | getSourcesForTrack _ => "GetSourcesForTrack"
  | getHtmlBundle => "GetHtmlBundle"
  | logFromUi _ => "LogFromUi"
  | resetDatabase => "ResetDatabase"
  | pageSource _ => "PageSource"

/-- What a variant contains, as JSON. -/
def payload (texts : NumberTexts ρ) : Command ρ → Json
  | addTrack track => track.toJson texts
  | addTracks tracks => .arr (tracks.map (NewTrack.toJson texts))
  | updateTrack args => args.toJson texts
  | getTracks args => args.toJson texts
  | getTracksWithSources args => args.toJson texts
  | getTracksFiltered args => args.toJson texts
  | getTrack args => args.toJson
  | deleteTrack args => args.toJson
  | addListen args => args.toJson
  | getListensForTrack args => args.toJson
  | addListenedSeconds args => args.toJson
  | addTag args => args.toJson
  | editTag args => args.toJson
  | deleteTag args => args.toJson
  | getAllTags => .null
  | getTags args => args.toJson
  | assignTag args => args.toJson
  | assignTags assignments => .arr (assignments.map TagAssignment.toJson)
  | removeTag args => args.toJson
  | getTagsForTrack args => args.toJson
  | addMeta args => args.toJson
  | updateMeta args => args.toJson
  | deleteMeta args => args.toJson
  | getMetaForTrack args => args.toJson
  | addTrackSource args => args.toJson
  | removeTrackSource args => args.toJson
  | editTrackSource args => args.toJson
  | getSourcesForTrack args => args.toJson
  | getHtmlBundle => .null
  | logFromUi args => args.toJson
  | resetDatabase => .null
  | pageSource url => .str url

/-- `Command` as JSON. -/
def toJson (texts : NumberTexts ρ) (cmd : Command ρ) : Json :=
  .obj [("kind", .str cmd.kind), ("payload", cmd.payload texts)]

/-- The numbers of a command come back. -/
def Survives (numbers : Numbers ρ) (texts : NumberTexts ρ) : Command ρ → Prop
  | addTrack track => track.Survives numbers texts
  | addTracks tracks => ∀ track ∈ tracks, track.Survives numbers texts
  | updateTrack args => args.update.Survives numbers texts
  | getTracks args => args.Survives numbers texts
  | getTracksWithSources args => args.Survives numbers texts
  | getTracksFiltered args => args.Survives numbers texts
  | addListenedSeconds args => IsI32 args.seconds
  | _ => True

/-- The kind says how the payload is read. -/
theorem fromJson_toJson (cmd : Command ρ) :
    fromJson numbers (cmd.toJson texts) = readPayload numbers cmd.kind (cmd.payload texts) := rfl

/-- What a variant contains comes back. -/
theorem map_eq_some_iff {x : Option α} {f : α → Command ρ} (hf : Function.Injective f) {a : α} :
    x.map f = some (f a) ↔ x = some a := by
  rw [Option.map_eq_some_iff]
  exact ⟨fun ⟨b, hb, hab⟩ => hf hab ▸ hb, fun h => ⟨a, h, rfl⟩⟩

/-- **A command comes back** if and only if its numbers do. -/
theorem fromJson_toJson_iff (numbers : Numbers ρ) (texts : NumberTexts ρ) (cmd : Command ρ) :
    fromJson numbers (cmd.toJson texts) = some cmd ↔ cmd.Survives numbers texts := by
  rw [fromJson_toJson]
  cases cmd with
  | addTrack track =>
    exact (map_eq_some_iff fun _ _ => addTrack.inj).trans NewTrack.fromJson_toJson_iff
  | addTracks tracks =>
    refine (map_eq_some_iff fun _ _ => addTracks.inj).trans (list_arr_iff.trans ?_)
    exact forall₂_congr fun track _ => NewTrack.fromJson_toJson_iff
  | updateTrack args =>
    exact (map_eq_some_iff fun _ _ => updateTrack.inj).trans UpdateTrackArgs.fromJson_toJson_iff
  | getTracks args =>
    exact (map_eq_some_iff fun _ _ => getTracks.inj).trans GetTracksArgs.fromJson_toJson_iff
  | getTracksWithSources args =>
    exact (map_eq_some_iff fun _ _ => getTracksWithSources.inj).trans
      GetTracksArgs.fromJson_toJson_iff
  | getTracksFiltered args =>
    exact (map_eq_some_iff fun _ _ => getTracksFiltered.inj).trans
      GetTracksFilteredArgs.fromJson_toJson_iff
  | addListenedSeconds args =>
    exact (map_eq_some_iff fun _ _ => addListenedSeconds.inj).trans
      AddListenedSecondsArgs.fromJson_toJson_iff
  | assignTags assignments =>
    refine iff_of_true ((map_eq_some_iff fun _ _ => assignTags.inj).mpr ?_) trivial
    exact list_arr_iff.mpr fun assignment _ => assignment.fromJson_toJson
  | _ => exact iff_of_true rfl trivial

/-- **A request comes back** under its id, and with its command, if and only if the numbers of
the command do. -/
theorem request_comes_back_iff (numbers : Numbers ρ) (texts : NumberTexts ρ) (id : String)
    (cmd : Command ρ) :
    DataTransportMessage.read (fromJson numbers) string
        (DataTransportMessage.toJson (toJson texts) Json.str (.request ⟨id, cmd⟩)) =
      some (.request ⟨id, cmd⟩) ↔ cmd.Survives numbers texts := by
  rw [← fromJson_toJson_iff, DataTransportMessage.toJson, DataTransportMessage.read_request,
    Option.map_eq_some_iff]
  constructor
  · rintro ⟨cmd', hcmd', heq⟩
    obtain rfl : cmd' = cmd := by injection heq with heq; injection heq
    exact hcmd'
  · exact fun hcmd => ⟨cmd, hcmd, rfl⟩

end Command

end Vamp
