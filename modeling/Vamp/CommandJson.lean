import Vamp.Command
import Vamp.Dispatch
import Vamp.Serde

/-!
# Commands in JSON

The reader that `serde` derives for `Command`: `kind` selects one of the variants, and
`payload` is read as what the variant contains. How a number becomes a floating-point number
is a parameter (`Numbers`).
-/

namespace Vamp

open Serde Serde.Fields

/-- Floating-point numbers from numbers of JSON. -/
structure Numbers (ρ : Type) : Type where
  /-- the `f64` of an integer -/
  intF64 : ℤ → ρ
  /-- the `f64` of any other number -/
  floatF64 : FloatText → ρ
  /-- the `f32` of an integer -/
  intF32 : ℤ → ρ
  /-- the `f32` of any other number -/
  floatF32 : FloatText → ρ

variable {ρ : Type}

namespace Numbers

/-- `f64`. -/
def f64 (numbers : Numbers ρ) : Reader ρ
  | .int n => some (numbers.intF64 n)
  | .float x => some (numbers.floatF64 x)
  | _ => none

/-- `f32`. -/
def f32 (numbers : Numbers ρ) : Reader ρ
  | .int n => some (numbers.intF32 n)
  | .float x => some (numbers.floatF32 x)
  | _ => none

end Numbers

/-! ## Parameters of the repository -/

/-- `NewTrack` from JSON. -/
def NewTrack.fromJson (numbers : Numbers ρ) : Reader (NewTrack ρ) :=
  (NewTrack.mk <$> required "artist" string <*> required "track_name" string <*>
    optional "length_seconds" i32 <*> optional "bitrate_kbps" i32 <*>
    optional "tempo_bpm" numbers.f32 <*> required "addition_time" string <*>
    required "sources" (list string)).read

/-- `TrackUpdate` from JSON. -/
def TrackUpdate.fromJson (numbers : Numbers ρ) : Reader (TrackUpdate ρ) :=
  (TrackUpdate.mk <$> optional "artist" string <*> optional "track_name" string <*>
    optional "length_seconds" i32 <*> optional "bitrate_kbps" i32 <*>
    optional "tempo_bpm" numbers.f32 <*> optional "addition_time" string).read

namespace TrackSearch

/-- `NumericOperator` from JSON. -/
def NumericOperator.fromJson : Reader NumericOperator := fun j => do
  match ← variant j with
  | "<" => some .lt
  | ">" => some .gt
  | "=" => some .eq
  | "<=" => some .lte
  | ">=" => some .gte
  | "!=" => some .ne
  | _ => none

/-- The modes of `SearchParam`. -/
def SearchParam.modes : List String :=
  ["numeric_comparison", "numeric_between", "text_like", "text_in", "null_check", "tags_in",
    "tags_all"]

/-- `SearchParam` from JSON. -/
def SearchParam.fromJson (numbers : Numbers ρ) : Reader (SearchParam ρ) := fun j => do
  let (tag, content) ← tagInside "mode" j
  match ← identifier modes tag with
  | "numeric_comparison" => (numericComparison <$> required "operator" NumericOperator.fromJson <*>
      required "value" numbers.f64).read content
  | "numeric_between" => (numericBetween <$> required "min" numbers.f64 <*>
      required "max" numbers.f64).read content
  | "text_like" => (textLike <$> required "pattern" string <*>
      required "case_sensitive" boolean).read content
  | "text_in" => (textIn <$> required "values" (list string)).read content
  | "null_check" => (nullCheck <$> required "is_null" boolean).read content
  | "tags_in" => (tagsIn <$> required "tag_ids" (list BigintId.fromJson)).read content
  | "tags_all" => (tagsAll <$> required "tag_ids" (list BigintId.fromJson)).read content
  | _ => none

/-- `SearchCriteria` from JSON. -/
def SearchCriteria.fromJson (numbers : Numbers ρ) : Reader (SearchCriteria ρ) :=
  (SearchCriteria.mk <$> required "column_name" string <*>
    required "criteria" (list (SearchParam.fromJson numbers))).read

end TrackSearch

namespace FilteredTracks

/-- `FilterNumericOperator` from JSON. -/
def FilterNumericOperator.fromJson : Reader FilterNumericOperator := fun j => do
  match ← variant j with
  | "<" => some .lt
  | ">" => some .gt
  | "=" => some .eq
  | "<=" => some .lte
  | ">=" => some .gte
  | "!=" => some .ne
  | _ => none

/-- The modes of `FilterSearchParam`. -/
def FilterSearchParam.modes : List String :=
  ["numeric_comparison", "numeric_between", "text_like", "text_in", "null_check", "tags_any",
    "tags_all"]

/-- `FilterSearchParam` from JSON. -/
def FilterSearchParam.fromJson (numbers : Numbers ρ) : Reader (FilterSearchParam ρ) := fun j => do
  let (tag, content) ← tagInside "mode" j
  match ← identifier modes tag with
  | "numeric_comparison" => (numericComparison <$>
      required "operator" FilterNumericOperator.fromJson <*>
      required "value" numbers.f64).read content
  | "numeric_between" => (numericBetween <$> required "min" numbers.f64 <*>
      required "max" numbers.f64).read content
  | "text_like" => (textLike <$> required "pattern" string <*>
      required "case_sensitive" boolean).read content
  | "text_in" => (textIn <$> required "values" (list string)).read content
  | "null_check" => (nullCheck <$> required "is_null" boolean).read content
  | "tags_any" => (tagsAny <$> required "tag_ids" (list BigintId.fromJson)).read content
  | "tags_all" => (tagsAll <$> required "tag_ids" (list BigintId.fromJson)).read content
  | _ => none

/-- `CriteriaName` from JSON. -/
def CriteriaName.fromJson : Reader CriteriaName := fun j => do
  match ← variant j with
  | "id" => some .id
  | "artist" => some .artist
  | "track_name" => some .trackName
  | "length_seconds" => some .lengthSeconds
  | "bitrate_kbps" => some .bitrateKbps
  | "tempo_bpm" => some .tempoBpm
  | "addition_time" => some .additionTime
  | "tags" => some .tags
  | "listened_seconds" => some .listenedSeconds
  | _ => none

/-- `SearchCriteriaFiltered` from JSON. -/
def SearchCriteriaFiltered.fromJson (numbers : Numbers ρ) : Reader (SearchCriteriaFiltered ρ) :=
  (SearchCriteriaFiltered.mk <$> required "filter_name" CriteriaName.fromJson <*>
    required "criteria" (list (FilterSearchParam.fromJson numbers))).read

end FilteredTracks

/-- `TagAssignment` from JSON. -/
def Repository.TagAssignment.fromJson : Reader Repository.TagAssignment :=
  (Repository.TagAssignment.mk <$> required "track_id" BigintId.fromJson <*>
    required "tag_ids" (list BigintId.fromJson)).read

/-! ## Payloads -/

/-- `UpdateTrackArgs` from JSON. -/
def UpdateTrackArgs.fromJson (numbers : Numbers ρ) : Reader (UpdateTrackArgs ρ) :=
  (UpdateTrackArgs.mk <$> required "id" BigintId.fromJson <*>
    required "update" (TrackUpdate.fromJson numbers)).read

/-- `GetTracksArgs` from JSON. -/
def GetTracksArgs.fromJson (numbers : Numbers ρ) : Reader (GetTracksArgs ρ) :=
  (GetTracksArgs.mk <$> optional "cursor" BigintId.fromJson <*>
    optional "criteria" (list (TrackSearch.SearchCriteria.fromJson numbers)) <*>
    required "limit" i32).read

/-- `GetTracksFilteredArgs` from JSON. -/
def GetTracksFilteredArgs.fromJson (numbers : Numbers ρ) : Reader (GetTracksFilteredArgs ρ) :=
  (GetTracksFilteredArgs.mk <$> optional "cursor" BigintId.fromJson <*>
    optional "criteria" (list (FilteredTracks.SearchCriteriaFiltered.fromJson numbers)) <*>
    required "limit" i32).read

/-- `IdArg` from JSON. -/
def IdArg.fromJson : Reader IdArg := (IdArg.mk <$> required "id" BigintId.fromJson).read

/-- `TrackIdArg` from JSON. -/
def TrackIdArg.fromJson : Reader TrackIdArg :=
  (TrackIdArg.mk <$> required "track_id" BigintId.fromJson).read

/-- `AddListenArgs` from JSON. -/
def AddListenArgs.fromJson : Reader AddListenArgs :=
  (AddListenArgs.mk <$> required "track_id" BigintId.fromJson <*> required "from" string <*>
    required "to" string).read

/-- `AddListenedSecondsArgs` from JSON. -/
def AddListenedSecondsArgs.fromJson : Reader AddListenedSecondsArgs :=
  (AddListenedSecondsArgs.mk <$> required "track_id" BigintId.fromJson <*>
    required "seconds" i32).read

/-- `NameArg` from JSON. -/
def NameArg.fromJson : Reader NameArg := (NameArg.mk <$> required "name" string).read

/-- `EditTagArgs` from JSON. -/
def EditTagArgs.fromJson : Reader EditTagArgs :=
  (EditTagArgs.mk <$> required "id" BigintId.fromJson <*> required "name" string).read

/-- `PatternArg` from JSON. -/
def PatternArg.fromJson : Reader PatternArg := (PatternArg.mk <$> required "pattern" string).read

/-- `AssignTagArgs` from JSON. -/
def AssignTagArgs.fromJson : Reader AssignTagArgs :=
  (AssignTagArgs.mk <$> required "track_id" BigintId.fromJson <*>
    required "tag_id" BigintId.fromJson).read

/-- `AddMetaArgs` from JSON. -/
def AddMetaArgs.fromJson : Reader AddMetaArgs :=
  (AddMetaArgs.mk <$> required "track_id" BigintId.fromJson <*> required "key" string <*>
    required "value" string).read

/-- `UpdateMetaArgs` from JSON. -/
def UpdateMetaArgs.fromJson : Reader UpdateMetaArgs :=
  (UpdateMetaArgs.mk <$> required "id" BigintId.fromJson <*> required "value" string).read

/-- `AddTrackSourceArgs` from JSON. -/
def AddTrackSourceArgs.fromJson : Reader AddTrackSourceArgs :=
  (AddTrackSourceArgs.mk <$> required "track_id" BigintId.fromJson <*> required "url" string).read

/-- `RemoveTrackSourceArgs` from JSON. -/
def RemoveTrackSourceArgs.fromJson : Reader RemoveTrackSourceArgs :=
  (RemoveTrackSourceArgs.mk <$> required "track_id" BigintId.fromJson <*>
    required "url" string).read

/-- `EditTrackSourceArgs` from JSON. -/
def EditTrackSourceArgs.fromJson : Reader EditTrackSourceArgs :=
  (EditTrackSourceArgs.mk <$> required "track_id" BigintId.fromJson <*>
    required "old_url" string <*> required "new_url" string).read

/-- `LogFromUiArgs` from JSON. -/
def LogFromUiArgs.fromJson : Reader LogFromUiArgs :=
  (LogFromUiArgs.mk <$> required "message" string).read

/-! ## Commands -/

namespace Command

/-- The payload of a variant. -/
def readPayload (numbers : Numbers ρ) (kind : String) : Reader (Command ρ) := fun payload =>
  match kind with
  | "AddTrack" => (NewTrack.fromJson numbers payload).map addTrack
  | "AddTracks" => (list (NewTrack.fromJson numbers) payload).map addTracks
  | "UpdateTrack" => (UpdateTrackArgs.fromJson numbers payload).map updateTrack
  | "GetTracks" => (GetTracksArgs.fromJson numbers payload).map getTracks
  | "GetTracksWithSources" => (GetTracksArgs.fromJson numbers payload).map getTracksWithSources
  | "GetTracksFiltered" => (GetTracksFilteredArgs.fromJson numbers payload).map getTracksFiltered
  | "GetTrack" => (IdArg.fromJson payload).map getTrack
  | "DeleteTrack" => (IdArg.fromJson payload).map deleteTrack
  | "AddListen" => (AddListenArgs.fromJson payload).map addListen
  | "GetListensForTrack" => (TrackIdArg.fromJson payload).map getListensForTrack
  | "AddListenedSeconds" => (AddListenedSecondsArgs.fromJson payload).map addListenedSeconds
  | "AddTag" => (NameArg.fromJson payload).map addTag
  | "EditTag" => (EditTagArgs.fromJson payload).map editTag
  | "DeleteTag" => (IdArg.fromJson payload).map deleteTag
  | "GetAllTags" => (unit payload).map fun _ => getAllTags
  | "GetTags" => (PatternArg.fromJson payload).map getTags
  | "AssignTag" => (AssignTagArgs.fromJson payload).map assignTag
  | "AssignTags" => (list Repository.TagAssignment.fromJson payload).map assignTags
  | "RemoveTag" => (AssignTagArgs.fromJson payload).map removeTag
  | "GetTagsForTrack" => (TrackIdArg.fromJson payload).map getTagsForTrack
  | "AddMeta" => (AddMetaArgs.fromJson payload).map addMeta
  | "UpdateMeta" => (UpdateMetaArgs.fromJson payload).map updateMeta
  | "DeleteMeta" => (IdArg.fromJson payload).map deleteMeta
  | "GetMetaForTrack" => (TrackIdArg.fromJson payload).map getMetaForTrack
  | "AddTrackSource" => (AddTrackSourceArgs.fromJson payload).map addTrackSource
  | "RemoveTrackSource" => (RemoveTrackSourceArgs.fromJson payload).map removeTrackSource
  | "EditTrackSource" => (EditTrackSourceArgs.fromJson payload).map editTrackSource
  | "GetSourcesForTrack" => (TrackIdArg.fromJson payload).map getSourcesForTrack
  | "GetHtmlBundle" => (unit payload).map fun _ => getHtmlBundle
  | "LogFromUi" => (LogFromUiArgs.fromJson payload).map logFromUi
  | "ResetDatabase" => (unit payload).map fun _ => resetDatabase
  | "PageSource" => (string payload).map pageSource
  | _ => none

/-- `Command` from JSON. No payload may be missing, not even `null`. -/
def fromJson (numbers : Numbers ρ) : Reader (Command ρ) := fun j => do
  let (tag, payload) ← tagBeside "kind" "payload" j
  let kind ← variant tag
  readPayload numbers kind (← payload)

/-- **The order of kind and payload** does not matter. -/
theorem fromJson_perm (numbers : Numbers ρ) {members members' : List (String × Json)}
    (h : members.Perm members') :
    fromJson numbers (.obj members) = fromJson numbers (.obj members') := by
  rw [fromJson, fromJson, Serde.tagBeside_perm h]

end Command

end Vamp
