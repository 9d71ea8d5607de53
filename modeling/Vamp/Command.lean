import Vamp.Repository

/-!
# Commands

The `Command` of `dispatch.rs` and its payloads. The ids of a command are those that are
converted as soon as it is executed; the ids in lists are converted by the repository.
-/

namespace Vamp

variable {ρ : Type}

/-- `UpdateTrackArgs`. -/
structure UpdateTrackArgs (ρ : Type) : Type where
  /-- the track -/
  id : BigintId
  /-- what changes -/
  update : TrackUpdate ρ

/-- `GetTracksArgs`. -/
structure GetTracksArgs (ρ : Type) : Type where
  /-- where the page is -/
  cursor : Option BigintId
  /-- the criteria -/
  criteria : Option (List (TrackSearch.SearchCriteria ρ))
  /-- how many tracks there are on either side -/
  limit : ℤ

/-- `GetTracksFilteredArgs`. -/
structure GetTracksFilteredArgs (ρ : Type) : Type where
  /-- where the page is -/
  cursor : Option BigintId
  /-- the criteria -/
  criteria : Option (List (FilteredTracks.SearchCriteriaFiltered ρ))
  /-- how many tracks there are on either side -/
  limit : ℤ

/-- `IdArg`. -/
structure IdArg : Type where
  /-- of a track, a tag or an entry -/
  id : BigintId

/-- `TrackIdArg`. -/
structure TrackIdArg : Type where
  /-- the track -/
  trackId : BigintId

/-- `AddListenArgs`. -/
structure AddListenArgs : Type where
  /-- the track -/
  trackId : BigintId
  /-- the start -/
  listenedFrom : String
  /-- the end -/
  listenedTo : String

/-- `AddListenedSecondsArgs`. -/
structure AddListenedSecondsArgs : Type where
  /-- the track -/
  trackId : BigintId
  /-- an `i32` -/
  seconds : ℤ

/-- `NameArg`. -/
structure NameArg : Type where
  /-- of a tag -/
  name : String

/-- `EditTagArgs`. -/
structure EditTagArgs : Type where
  /-- the tag -/
  id : BigintId
  /-- its new name -/
  name : String

/-- `PatternArg`. -/
structure PatternArg : Type where
  /-- what is looked for -/
  pattern : String

/-- `AssignTagArgs`. -/
structure AssignTagArgs : Type where
  /-- the track -/
  trackId : BigintId
  /-- the tag -/
  tagId : BigintId

/-- `AddMetaArgs`. -/
structure AddMetaArgs : Type where
  /-- the track -/
  trackId : BigintId
  /-- what it is about -/
  key : String
  /-- what is said -/
  value : String

/-- `UpdateMetaArgs`. -/
structure UpdateMetaArgs : Type where
  /-- the entry -/
  id : BigintId
  /-- what is said now -/
  value : String

/-- `AddTrackSourceArgs`. -/
structure AddTrackSourceArgs : Type where
  /-- the track -/
  trackId : BigintId
  /-- where it is, too -/
  url : String

/-- `RemoveTrackSourceArgs`. -/
structure RemoveTrackSourceArgs : Type where
  /-- the track -/
  trackId : BigintId
  /-- where it is no more -/
  url : String

/-- `EditTrackSourceArgs`. -/
structure EditTrackSourceArgs : Type where
  /-- the track -/
  trackId : BigintId
  /-- where it is no more -/
  oldUrl : String
  /-- where it is instead -/
  newUrl : String

/-- `LogFromUiArgs`. -/
structure LogFromUiArgs : Type where
  /-- what is printed -/
  message : String

/-- `Command`. -/
inductive Command (ρ : Type) : Type where
  | addTrack (track : NewTrack ρ)
  | addTracks (tracks : List (NewTrack ρ))
  | updateTrack (args : UpdateTrackArgs ρ)
  | getTracks (args : GetTracksArgs ρ)
  | getTracksWithSources (args : GetTracksArgs ρ)
  | getTracksFiltered (args : GetTracksFilteredArgs ρ)
  | getTrack (args : IdArg)
  | deleteTrack (args : IdArg)
  | addListen (args : AddListenArgs)
  | getListensForTrack (args : TrackIdArg)
  | addListenedSeconds (args : AddListenedSecondsArgs)
  | addTag (args : NameArg)
  | editTag (args : EditTagArgs)
  | deleteTag (args : IdArg)
  | getAllTags
  | getTags (args : PatternArg)
  | assignTag (args : AssignTagArgs)
  | assignTags (assignments : List Repository.TagAssignment)
  | removeTag (args : AssignTagArgs)
  | getTagsForTrack (args : TrackIdArg)
  | addMeta (args : AddMetaArgs)
  | updateMeta (args : UpdateMetaArgs)
  | deleteMeta (args : IdArg)
  | getMetaForTrack (args : TrackIdArg)
  | addTrackSource (args : AddTrackSourceArgs)
  | removeTrackSource (args : RemoveTrackSourceArgs)
  | editTrackSource (args : EditTrackSourceArgs)
  | getSourcesForTrack (args : TrackIdArg)
  | getHtmlBundle
  | logFromUi (args : LogFromUiArgs)
  | resetDatabase
  | pageSource (url : String)

/-- The ids that are converted in any case, before anything else is done. -/
def Command.ids : Command ρ → List BigintId
  | updateTrack args => [args.id]
  | getTracks args | getTracksWithSources args => args.cursor.toList
  | getTracksFiltered args => args.cursor.toList
  | getTrack args | deleteTrack args | deleteTag args | deleteMeta args => [args.id]
  | addListen args => [args.trackId]
  | getListensForTrack args | getTagsForTrack args | getMetaForTrack args
  | getSourcesForTrack args => [args.trackId]
  | editTag args => [args.id]
  | assignTag args | removeTag args => [args.trackId, args.tagId]
  | addMeta args => [args.trackId]
  | updateMeta args => [args.id]
  | addTrackSource args => [args.trackId]
  | removeTrackSource args => [args.trackId]
  | editTrackSource args => [args.trackId]
  | addTrack _ | addTracks _ | addListenedSeconds _ | addTag _ | getAllTags | getTags _
  | assignTags _ | getHtmlBundle | logFromUi _ | resetDatabase | pageSource _ => []

end Vamp
