import Vamp.FilteredTracks
import Vamp.Json
import Vamp.SqlSession
import Vamp.TrackSearch

/-!
# The repository

The operations of `sqlite.rs`, as programs that use the database. An operation that returns
an error of `sqlx` first records it, through another connection (`tryLog`); inside of its
own transaction it then waits for itself.

What is decided elsewhere is the `Environment`: the arithmetic of SQLite beyond 64 bits, its
`LIKE`, what the two searches find with their statements, if anything (SQLite has limits), and how
`serde_json` writes a `REAL`.
-/

namespace Vamp

variable {ρ : Type}

/-- What the repository relies on. -/
structure Environment (ρ : Type) : Type where
  /-- an addition of SQLite whose result is not an `INTEGER` -/
  beyond : Cell ρ → Cell ρ → Cell ρ
  /-- `LIKE` -/
  like : String → String → Bool
  /-- what a statement of `get_tracks` finds -/
  query : String → List (TrackSearch.BindVal ρ) → Database ρ →
    Except SqlxError (List (TrackInfo ρ))
  /-- what a statement of `get_tracks_filtered` finds, given the query inside of it -/
  queryFiltered : FilteredTracks.Select Unit → List FilteredTracks.Value → Database ρ →
    Except SqlxError (List (TrackInfo ρ))
  /-- the text of a number, read as an `f32`, unless it is not finite -/
  number : ρ → Option FloatText

/-- An environment in which nothing is found, and nothing is too large. -/
def plainEnvironment : Environment ℤ where
  beyond a _ := a
  like text pattern := text == pattern
  query _ _ _ := .ok []
  queryFiltered _ _ _ := .ok []
  number _ := none

/-! ## Rows that are returned -/

/-- `TrackRow`. -/
structure TrackRow (ρ : Type) : Type where
  /-- the key -/
  id : BigintId
  /-- the artist -/
  artist : String
  /-- the name -/
  trackName : String
  /-- never missing -/
  lengthSeconds : Option ℤ
  /-- may be missing -/
  bitrateKbps : Option ℤ
  /-- may be missing -/
  tempoBpm : Option ρ
  /-- when it was added -/
  additionTime : String
  /-- an `i64` -/
  listenedSeconds : ℤ

/-- A row of `track_sources`, as it is returned. -/
structure SourceRow : Type where
  /-- the key -/
  id : BigintId
  /-- of the track -/
  trackId : BigintId
  /-- where the track is -/
  url : String

/-- A row of `listen_info`, as it is returned. -/
structure ListenRow : Type where
  /-- the key -/
  id : BigintId
  /-- of the track -/
  trackId : BigintId
  /-- the start -/
  listenedFrom : ℤ
  /-- the end -/
  listenedTo : ℤ

/-- A row of `tags`, as it is returned. -/
structure TagRow : Type where
  /-- the key -/
  id : BigintId
  /-- the name -/
  tagName : String

/-- A row of `track_meta`, as it is returned. -/
structure MetaRow : Type where
  /-- the key -/
  id : BigintId
  /-- of the track -/
  trackId : BigintId
  /-- what it is about -/
  key : String
  /-- what is said -/
  value : String

/-- A cell, read as an `i64`. -/
def Cell.toI64 (index : String) : Cell ρ → Except SqlxError ℤ
  | .integer n => .ok n
  | .real _ => .error (.columnDecode index
      ("mismatched types; Rust type `i64` (as SQL type `INTEGER`) is not compatible with SQL " ++
        "type `REAL`"))

/-- `TrackRow::from_row`. -/
def TrackRow.fromRow (row : TrackInfo ρ) : Except SqlxError (TrackRow ρ) := do
  let listenedSeconds ← row.listenedSeconds.toI64 "\"listened_seconds\""
  .ok ⟨.fromI64 row.id, row.artist, row.trackName, some row.lengthSeconds, row.bitrateKbps,
    row.tempoBpm, row.additionTime, listenedSeconds⟩

/-- `TrackSource::from_row`. -/
def SourceRow.fromRow (row : TrackSource) : SourceRow :=
  ⟨.fromI64 row.id, .fromI64 row.trackId, row.url⟩

/-- `ListenInfo::from_row`. -/
def ListenRow.fromRow (row : ListenInfo) : ListenRow :=
  ⟨.fromI64 row.id, .fromI64 row.trackId, row.listenedFrom, row.listenedTo⟩

/-- `Tag::from_row`. -/
def TagRow.fromRow (row : Tag) : TagRow := ⟨.fromI64 row.id, row.tagName⟩

/-- `TrackMeta::from_row`. -/
def MetaRow.fromRow (row : TrackMeta) : MetaRow :=
  ⟨.fromI64 row.id, .fromI64 row.trackId, row.key, row.value⟩

namespace Database

/-! ## Queries -/

/-- `SELECT * FROM track_info WHERE id = ?`, one row. -/
def selectTrack (id : ℤ) (db : Database ρ) : Except SqlxError (TrackRow ρ) :=
  match db.trackInfo.rows.find? fun row => row.id = id with
  | some row => TrackRow.fromRow row
  | none => .error .rowNotFound

/-- `SELECT * FROM track_sources WHERE track_id = ? ORDER BY id ASC`. -/
def selectSources (trackId : ℤ) (db : Database ρ) : List TrackSource :=
  SqlPage.orderAsc TrackSource.id (db.trackSources.rows.filter fun row => row.trackId = trackId)

/-- `SELECT * FROM listen_info WHERE track_id = ? ORDER BY id ASC`. -/
def selectListens (trackId : ℤ) (db : Database ρ) : List ListenInfo :=
  SqlPage.orderAsc ListenInfo.id (db.listenInfo.rows.filter fun row => row.trackId = trackId)

/-- `SELECT * FROM tags WHERE ... ORDER BY id ASC`. -/
def selectTags (p : Tag → Bool) (db : Database ρ) : List Tag :=
  SqlPage.orderAsc Tag.id (db.tags.rows.filter p)

/-- `SELECT t.* FROM tags t INNER JOIN tag_assignments ta ON ta.tag_id = t.id WHERE
ta.track_id = ? ORDER BY t.id ASC`. -/
def selectTagsForTrack (trackId : ℤ) (db : Database ρ) : List Tag :=
  SqlPage.orderAsc Tag.id (db.tags.rows.flatMap fun tag =>
    (db.tagAssignments.rows.filter fun row => row.tagId = tag.id ∧ row.trackId = trackId).map
      fun _ => tag)

/-- `SELECT * FROM track_meta WHERE track_id = ? ORDER BY id ASC`. -/
def selectMeta (trackId : ℤ) (db : Database ρ) : List TrackMeta :=
  SqlPage.orderAsc TrackMeta.id (db.trackMeta.rows.filter fun row => row.trackId = trackId)

/-- `SELECT date, listened FROM listened_daily WHERE track_id = ? ORDER BY date ASC`. -/
def selectDaily (trackId : ℤ) (db : Database ρ) : Except SqlxError (List (String × ℤ)) :=
  ((db.listenedDaily.rows.filter fun row => row.trackId = trackId).mergeSort
    fun a b => a.date ≤ b.date).mapM fun row => do
      let listened ← row.listened.toI64 "1"
      .ok (row.date, listened)

end Database

namespace Repository

open Program

/-- An operation of the repository. -/
abbrev Operation (ρ α : Type) : Type := Program (Database ρ) SqlxError α

/-- `slice::chunks`. -/
def chunks {α : Type} (n : ℕ) (xs : List α) : List (List α) :=
  (List.range ((xs.length + (n - 1)) / n)).map fun i => (xs.drop (i * n)).take n

/-- `query.execute(&self.pool)`. -/
def executeOnPool {α : Type} (statement : Database ρ → Except SqlxError (α × Database ρ)) :
    Operation ρ α :=
  executePool .locked statement

/-- `SqliteRepository::try_log`. -/
def tryLog {α : Type} (context : String) (result : Operation ρ α) : Operation ρ α :=
  logging
    (fun e => executeOnPool (Database.insertError ("[" ++ context ++ "] " ++ e.display)))
    result

/-- `expect`. -/
def orCrash {α : Type} : Option α → Operation ρ α
  | some a => pure a
  | none => crash

theorem orCrash_eq_ok {α : Type} {a : Option α} {b : α} {s s' : Session (Database ρ) SqlxError} :
    (orCrash a : Operation ρ α) s = .ok b s' ↔ a = some b ∧ s = s' := by
  cases a with
  | none => exact ⟨nofun, nofun⟩
  | some a => exact pure_eq_ok.trans (and_congr_left' Option.some_inj.symm)

/-! ## Tracks -/

/-- `add_track_unlogged`. -/
def addTrackUnlogged (t : NewTrack ρ) : Operation ρ ℤ := scope do
  beginTx
  let trackId ← execute (Database.insertTracks [t])
  t.sources.forM fun url => do
    let _ ← execute (Database.insertSources [(trackId, url)])
  commit
  pure trackId

/-- `add_track`. Its context contains the first source, and there is none to be found in an
empty list. -/
def addTrack (t : NewTrack ρ) : Operation ρ ℤ := do
  let source ← orCrash t.sources.head?
  tryLog ("add_track: " ++ t.trackName ++ ", " ++ t.artist ++ ", " ++ source) (addTrackUnlogged t)

/-- `add_tracks`. -/
def addTracks (ts : List (NewTrack ρ)) : Operation ρ (List ℤ) := scope do
  tryLog "add_tracks: begin transaction" beginTx
  let batches ← (chunks 166 ts).mapM fun chunk => do
    let lastId ← tryLog "add_tracks: insert batch" (execute (Database.insertTracks chunk))
    pure ((List.range chunk.length).reverse.map fun i : ℕ => lastId - i)
  let ids := batches.flatten
  let allSources := (ts.zip ids).flatMap fun (t, trackId) => t.sources.map fun url => (trackId, url)
  (chunks 500 allSources).forM fun chunk => do
    let _ ← tryLog "add_tracks: insert track_sources batch"
      (execute (Database.insertSources chunk))
  tryLog "add_tracks: commit" commit
  pure ids

/-- The columns of an update. -/
def updateCols (u : TrackUpdate ρ) : List String :=
  u.artist.toList.map (fun _ => "artist = ?") ++
  u.trackName.toList.map (fun _ => "track_name = ?") ++
  u.lengthSeconds.toList.map (fun _ => "length_seconds = ?") ++
  u.bitrateKbps.toList.map (fun _ => "bitrate_kbps = ?") ++
  u.tempoBpm.toList.map (fun _ => "tempo_bpm = ?") ++
  u.additionTime.toList.map (fun _ => "addition_time = ?")

/-- `update_track`. -/
def updateTrack (id : ℤ) (u : TrackUpdate ρ) : Operation ρ Unit :=
  if (updateCols u).isEmpty then pure ()
  else tryLog "update_track" (executeOnPool (Database.updateTrack id u))

/-- `get_tracks`. -/
def getTracks (env : Environment ρ) (cursor : Option ℤ)
    (criteria : Option (List (TrackSearch.SearchCriteria ρ))) (limit : ℤ) :
    Operation ρ (List (TrackRow ρ)) :=
  match TrackSearch.getTracks cursor criteria limit with
  | .error (.protocol message) => raise (.protocol message)
  | .error .panic => crash
  | .ok (sql, vals) => tryLog "get_tracks" (fetchPool fun db => do
      let rows ← env.query sql vals db
      rows.mapM TrackRow.fromRow)

/-- `get_tracks_filtered`. -/
def getTracksFiltered (env : Environment ρ) (cursor : Option ℤ)
    (criteria : Option (List (FilteredTracks.SearchCriteriaFiltered ρ))) (limit : ℤ) :
    Operation ρ (List (TrackRow ρ)) := do
  let select ← orCrash (FilteredTracks.buildSelect (criteria.getD []))
  tryLog "get_tracks_filtered" (fetchPool fun db => do
    let rows ← env.queryFiltered select.skeleton (select.bound cursor limit) db
    rows.mapM TrackRow.fromRow)

/-- `get_track`. -/
def getTrack (id : ℤ) : Operation ρ (TrackRow ρ) :=
  tryLog "get_track" (fetchPool (Database.selectTrack id))

/-- `SCHEMA_VERSION`. -/
def schemaVersion : ℤ := 5

/-- An optional value in the archive. -/
def orNull {α : Type} (toJson : α → Json) : Option α → Json
  | some a => toJson a
  | none => .null

/-- The archive of a track. -/
def archive (env : Environment ρ) (id : ℤ) (track : TrackRow ρ) (sources : List TrackSource)
    (tags : List Tag) (metas : List TrackMeta) (daily : List (String × ℤ)) : Json :=
  .arr [
    .int schemaVersion,
    .int id,
    .str track.artist,
    .str track.trackName,
    orNull .int track.lengthSeconds,
    orNull .int track.bitrateKbps,
    orNull .float (track.tempoBpm.bind env.number),
    .str track.additionTime,
    .int track.listenedSeconds,
    .arr (sources.map fun source => .str source.url),
    .arr (tags.map fun tag => .arr [.int tag.id, .str tag.tagName]),
    .arr (metas.map fun m => .arr [.str m.key, .str m.value]),
    .arr (daily.map fun (date, seconds) => .arr [.str date, .int seconds])]

/-- `delete_track_unlogged`. -/
def deleteTrackUnlogged (env : Environment ρ) (trackId : ℤ) : Operation ρ Unit := scope do
  beginTx
  let track ← fetch (Database.selectTrack trackId)
  let sources ← fetch fun db => .ok (db.selectSources trackId)
  let tags ← fetch fun db => .ok (db.selectTagsForTrack trackId)
  let metas ← fetch fun db => .ok (db.selectMeta trackId)
  let daily ← fetch (Database.selectDaily trackId)
  let id ← orCrash track.id.toI64
  execute (Database.insertRemoved (archive env id track sources tags metas daily).write)
  execute (Database.deleteTrack trackId)
  commit

/-- `delete_track`. -/
def deleteTrack (env : Environment ρ) (id : ℤ) : Operation ρ Unit :=
  tryLog "delete_track" (deleteTrackUnlogged env id)

/-! ## Listen history -/

/-- A number of `add_listen`. -/
def parseListened (field text : String) : Operation ρ ℤ :=
  match parseI64 text with
  | some n => pure n
  | none => raise (.protocol ("invalid " ++ field ++ ": " ++ parseIntError text))

/-- `add_listen`. -/
def addListen (trackId : ℤ) (listenedFrom listenedTo : String) : Operation ρ ℤ := do
  let listenedFrom ← parseListened "listened_from" listenedFrom
  let listenedTo ← parseListened "listened_to" listenedTo
  tryLog "add_listen" (executeOnPool (Database.insertListen trackId listenedFrom listenedTo))

/-- `get_listens_for_track`. -/
def getListensForTrack (trackId : ℤ) : Operation ρ (List ListenRow) :=
  tryLog "get_listens_for_track" (fetchPool fun db =>
    .ok ((db.selectListens trackId).map ListenRow.fromRow))

/-! ## Tags -/

/-- `add_tag`. -/
def addTag (name : String) : Operation ρ ℤ :=
  tryLog ("add_tag had name " ++ name) (executeOnPool (Database.insertTag name))

/-- `edit_tag`. -/
def editTag (id : ℤ) (name : String) : Operation ρ Unit :=
  tryLog "edit_tag" (executeOnPool (Database.updateTag id name))

/-- `delete_tag`. -/
def deleteTag (id : ℤ) : Operation ρ Unit :=
  tryLog "delete_tag" (executeOnPool (Database.deleteTag id))

/-- `get_all_tags`. -/
def getAllTags : Operation ρ (List TagRow) :=
  tryLog "get_all_tags" (fetchPool fun db =>
    .ok ((db.selectTags fun _ => true).map TagRow.fromRow))

/-- `get_tags`. -/
def getTags (env : Environment ρ) (pattern : String) : Operation ρ (List TagRow) :=
  tryLog "get_tags" (fetchPool fun db =>
    .ok ((db.selectTags fun tag => env.like tag.tagName ("%" ++ pattern ++ "%")).map
      TagRow.fromRow))

/-- `assign_tag`. -/
def assignTag (trackId tagId : ℤ) : Operation ρ Unit :=
  tryLog "assign_tag" (executeOnPool (Database.insertAssignments [(trackId, tagId)]))

/-- `TagAssignment`. -/
structure TagAssignment : Type where
  /-- the track -/
  trackId : BigintId
  /-- its new tags -/
  tagIds : List BigintId

/-- The pairs of a `TagAssignment`. -/
def TagAssignment.pairs (a : TagAssignment) : Option (List (ℤ × ℤ)) := do
  let trackId ← a.trackId.toI64
  let tagIds ← a.tagIds.mapM BigintId.toI64
  some (tagIds.map fun tagId => (trackId, tagId))

/-- `assign_tags_unlogged`. -/
def assignTagsUnlogged (assignments : List TagAssignment) : Operation ρ Unit := scope do
  beginTx
  let pairs ← orCrash (assignments.mapM TagAssignment.pairs)
  (chunks 500 pairs.flatten).forM fun chunk => execute (Database.insertAssignments chunk)
  commit

/-- `assign_tags`. -/
def assignTags (assignments : List TagAssignment) : Operation ρ Unit :=
  tryLog "assign_tags" (assignTagsUnlogged assignments)

/-- `remove_tag`. -/
def removeTag (trackId tagId : ℤ) : Operation ρ Unit :=
  tryLog "remove_tag" (executeOnPool (Database.deleteAssignment trackId tagId))

/-- `get_tags_for_track`. -/
def getTagsForTrack (trackId : ℤ) : Operation ρ (List TagRow) :=
  tryLog "get_tags_for_track" (fetchPool fun db =>
    .ok ((db.selectTagsForTrack trackId).map TagRow.fromRow))

/-! ## Track metadata -/

/-- `add_meta`. -/
def addMeta (trackId : ℤ) (key value : String) : Operation ρ ℤ :=
  tryLog "add_meta" (executeOnPool (Database.insertMeta trackId key value))

/-- `update_meta`. -/
def updateMeta (id : ℤ) (value : String) : Operation ρ Unit :=
  tryLog "update_meta" (executeOnPool (Database.updateMeta id value))

/-- `delete_meta`. -/
def deleteMeta (id : ℤ) : Operation ρ Unit :=
  tryLog "delete_meta" (executeOnPool (Database.deleteMeta id))

/-- `get_meta_for_track`. -/
def getMetaForTrack (trackId : ℤ) : Operation ρ (List MetaRow) :=
  tryLog "get_meta_for_track" (fetchPool fun db =>
    .ok ((db.selectMeta trackId).map MetaRow.fromRow))

/-! ## Track sources -/

/-- `add_track_source`. -/
def addTrackSource (trackId : ℤ) (url : String) : Operation ρ ℤ :=
  tryLog "add_track_source" (executeOnPool (Database.insertSources [(trackId, url)]))

/-- `remove_track_source`. -/
def removeTrackSource (trackId : ℤ) (url : String) : Operation ρ Unit :=
  tryLog "remove_track_source" (executeOnPool (Database.deleteSource trackId url))

/-- `edit_track_source`. -/
def editTrackSource (trackId : ℤ) (oldUrl newUrl : String) : Operation ρ Unit := scope do
  tryLog "edit_track_source: begin transaction" beginTx
  tryLog "edit_track_source: delete old url" (execute (Database.deleteSource trackId oldUrl))
  let _ ← tryLog "edit_track_source: insert new url"
    (execute (Database.insertSources [(trackId, newUrl)]))
  tryLog "edit_track_source: commit" commit

/-- `get_sources_for_track`. -/
def getSourcesForTrack (trackId : ℤ) : Operation ρ (List SourceRow) :=
  tryLog "get_sources_for_track" (fetchPool fun db =>
    .ok ((db.selectSources trackId).map SourceRow.fromRow))

/-- Each track takes its sources out of the map. -/
def withSources : List (TrackRow ρ × ℤ) → (ℤ → List SourceRow) →
    List (TrackRow ρ × List SourceRow)
  | [], _ => []
  | (track, id) :: tracks, map =>
    (track, map id) :: withSources tracks (Function.update map id [])

/-- `get_tracks_with_sources`. -/
def getTracksWithSources (env : Environment ρ) (cursor : Option ℤ)
    (criteria : Option (List (TrackSearch.SearchCriteria ρ))) (limit : ℤ) :
    Operation ρ (List (TrackRow ρ × List SourceRow)) := do
  let tracks ← getTracks env cursor criteria limit
  if tracks.isEmpty then pure []
  else
    let ids ← orCrash (tracks.mapM fun track => track.id.toI64)
    let allSources ← tryLog "get_tracks_with_sources: fetch sources" (fetchPool fun db =>
      .ok (SqlPage.orderAsc TrackSource.id
        (db.trackSources.rows.filter fun row => row.trackId ∈ ids)))
    pure (withSources (tracks.zip ids) fun id =>
      (allSources.filter fun row => row.trackId = id).map SourceRow.fromRow)

/-! ## Errors and conflicts -/

/-- `add_error`. -/
def addError (errorText : String) : Operation ρ String := do
  let key ← executeOnPool (Database.insertError errorText)
  pure (toString key)

/-- `add_track_conflict`. -/
def addTrackConflict (c : NewTrackConflict ρ) : Operation ρ ℤ := do
  let sameTrackId ← orCrash c.sameTrackId.toI64
  tryLog "add_track_conflict" (executeOnPool (Database.insertConflict c sameTrackId))

/-! ## Listened seconds -/

/-- `add_listened_seconds`, on a day. -/
def addListenedSeconds (env : Environment ρ) (date : String) (trackId seconds : ℤ) :
    Operation ρ Unit := scope do
  tryLog "add_listened_seconds: begin transaction" beginTx
  tryLog "add_listened_seconds: update track_info"
    (execute (Database.addListened env.beyond trackId seconds))
  tryLog "add_listened_seconds: upsert listened_daily"
    (execute (Database.upsertDaily env.beyond date trackId seconds))
  tryLog "add_listened_seconds: commit" commit

end Repository

end Vamp
