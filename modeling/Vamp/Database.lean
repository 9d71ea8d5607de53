import Vamp.BigintId
import Vamp.SqlPage
import Vamp.SqlSession
import Vamp.SqlTable

/-!
# The database

The tables of the migrations, with the columns they have after the last of them, and the
statements that `sqlite.rs` sends to change them. A statement checks what the migrations
declare, in the order in which SQLite does: `NOT NULL`, `UNIQUE`, and at its end
`REFERENCES`; it fails with the message of SQLite, or changes the tables as a whole. A
`DELETE` cascades. Foreign keys are enforced on every connection.

`REAL` is the parameter `ρ`. An `INTEGER` column may come to hold a `REAL`, namely when an
addition leaves the 64 bits; what SQLite makes of it then is the parameter `beyond`.
-/

namespace Vamp

variable {ρ : Type}

/-! ## Rows -/

/-- A value in an `INTEGER` column that is added to. -/
inductive Cell (ρ : Type) : Type where
  | integer (n : ℤ)
  | real (x : ρ)
  deriving DecidableEq

/-- `a + b` of SQLite. -/
def Cell.add (beyond : Cell ρ → Cell ρ → Cell ρ) : Cell ρ → Cell ρ → Cell ρ
  | .integer a, .integer b =>
    if IsI64 (a + b) then .integer (a + b) else beyond (.integer a) (.integer b)
  | a, b => beyond a b

/-- A row of `track_info`. -/
structure TrackInfo (ρ : Type) : Type where
  /-- the primary key -/
  id : ℤ
  /-- unique together with `trackName` -/
  artist : String
  /-- unique together with `artist` -/
  trackName : String
  /-- not null -/
  lengthSeconds : ℤ
  /-- may be null -/
  bitrateKbps : Option ℤ
  /-- may be null -/
  tempoBpm : Option ρ
  /-- not null -/
  additionTime : String
  /-- 0 by default -/
  listenedSeconds : Cell ρ
  deriving DecidableEq

/-- A row of `track_sources`. -/
structure TrackSource : Type where
  /-- the primary key -/
  id : ℤ
  /-- references `track_info` -/
  trackId : ℤ
  /-- unique together with `trackId` -/
  url : String
  deriving DecidableEq, Repr

/-- A row of `listen_info`. -/
structure ListenInfo : Type where
  /-- the primary key -/
  id : ℤ
  /-- references `track_info` -/
  trackId : ℤ
  /-- the start -/
  listenedFrom : ℤ
  /-- the end -/
  listenedTo : ℤ
  deriving DecidableEq, Repr

/-- A row of `tags`. -/
structure Tag : Type where
  /-- the primary key -/
  id : ℤ
  /-- unique -/
  tagName : String
  deriving DecidableEq, Repr

/-- A row of `tag_assignments`. -/
structure TagAssigned : Type where
  /-- the primary key -/
  id : ℤ
  /-- references `track_info` -/
  trackId : ℤ
  /-- references `tags`, unique together with `trackId` -/
  tagId : ℤ
  deriving DecidableEq, Repr

/-- A row of `track_meta`. -/
structure TrackMeta : Type where
  /-- the primary key -/
  id : ℤ
  /-- references `track_info` -/
  trackId : ℤ
  /-- what it is about -/
  key : String
  /-- what is said -/
  value : String
  deriving DecidableEq, Repr

/-- A row of `errors`. -/
structure ErrorRow : Type where
  /-- the primary key -/
  key : ℤ
  /-- the context and the error -/
  errorText : String
  deriving DecidableEq, Repr

/-- A row of `track_add_conflicts`. -/
structure TrackAddConflict (ρ : Type) : Type where
  /-- the primary key -/
  id : ℤ
  /-- of the track that was not added -/
  artist : String
  /-- of the track that was not added -/
  trackName : String
  /-- may be null -/
  lengthSeconds : Option ℤ
  /-- may be null -/
  bitrateKbps : Option ℤ
  /-- may be null -/
  tempoBpm : Option ρ
  /-- of the track that was not added -/
  additionTime : String
  /-- why it was not added -/
  conflictReason : String
  /-- references `track_info` -/
  sameTrackId : ℤ
  deriving DecidableEq

/-- A row of `listened_daily`. -/
structure ListenedDaily (ρ : Type) : Type where
  /-- the primary key -/
  id : ℤ
  /-- the day, unique together with `trackId` -/
  date : String
  /-- references `track_info` -/
  trackId : ℤ
  /-- seconds on that day -/
  listened : Cell ρ
  deriving DecidableEq

/-- A row of `removed_tracks`. -/
structure RemovedTrack : Type where
  /-- the primary key -/
  id : ℤ
  /-- the archive of the track -/
  data : String
  deriving DecidableEq, Repr

/-- All tables. -/
structure Database (ρ : Type) : Type where
  /-- `track_info` -/
  trackInfo : SqlTable (TrackInfo ρ) TrackInfo.id
  /-- `track_sources` -/
  trackSources : SqlTable TrackSource TrackSource.id
  /-- `listen_info` -/
  listenInfo : SqlTable ListenInfo ListenInfo.id
  /-- `tags` -/
  tags : SqlTable Tag Tag.id
  /-- `tag_assignments` -/
  tagAssignments : SqlTable TagAssigned TagAssigned.id
  /-- `track_meta` -/
  trackMeta : SqlTable TrackMeta TrackMeta.id
  /-- `errors` -/
  errors : SqlTable ErrorRow ErrorRow.key
  /-- `track_add_conflicts` -/
  trackAddConflicts : SqlTable (TrackAddConflict ρ) TrackAddConflict.id
  /-- `listened_daily` -/
  listenedDaily : SqlTable (ListenedDaily ρ) ListenedDaily.id
  /-- `removed_tracks` -/
  removedTracks : SqlTable RemovedTrack RemovedTrack.id

namespace Database

/-- The database after the migrations. -/
def empty : Database ρ :=
  ⟨.empty, .empty, .empty, .empty, .empty, .empty, .empty, .empty, .empty, .empty⟩

/-- A row of `track_info` has this key. -/
def HasTrack (db : Database ρ) (trackId : ℤ) : Prop :=
  ∃ track ∈ db.trackInfo.rows, track.id = trackId

/-- A row of `tags` has this key. -/
def HasTag (db : Database ρ) (tagId : ℤ) : Prop := ∃ tag ∈ db.tags.rows, tag.id = tagId

instance (db : Database ρ) (trackId : ℤ) : Decidable (db.HasTrack trackId) :=
  inferInstanceAs (Decidable (∃ track ∈ db.trackInfo.rows, track.id = trackId))

instance (db : Database ρ) (tagId : ℤ) : Decidable (db.HasTag tagId) :=
  inferInstanceAs (Decidable (∃ tag ∈ db.tags.rows, tag.id = tagId))

/-! ## Errors -/

end Database

/-- `sqlx::Error`, as far as it comes up. -/
inductive SqlxError : Type where
  /-- SQLite refuses a statement -/
  | database (message : String)
  /-- SQLite cannot be reached -/
  | io (message : String)
  /-- nothing was found -/
  | rowNotFound
  /-- a value does not have the type of its field -/
  | columnDecode (index message : String)
  /-- a parameter makes no sense -/
  | protocol (message : String)
  deriving DecidableEq, Repr

namespace SqlxError

/-- The text of an error. -/
def display : SqlxError → String
  | database message => "error returned from database: " ++ message
  | io message => "error communicating with database: " ++ message
  | rowNotFound => "no rows returned by a query that expected to return at least one row"
  | columnDecode index message =>
    "error occurred while decoding column " ++ index ++ ": " ++ message
  | protocol message => "encountered unexpected or invalid data: " ++ message

/-- A `UNIQUE` constraint is violated. -/
def unique (columns : String) : SqlxError :=
  .database ("(code: 2067) UNIQUE constraint failed: " ++ columns)

/-- A `NOT NULL` constraint is violated. -/
def notNull (column : String) : SqlxError :=
  .database ("(code: 1299) NOT NULL constraint failed: " ++ column)

/-- A `REFERENCES` constraint is violated. -/
def foreignKey : SqlxError := .database "(code: 787) FOREIGN KEY constraint failed"

/-- There is no key left. -/
def full : SqlxError := .database "(code: 13) database or disk is full"

/-- Somebody else is writing. -/
def locked : SqlxError := .database "(code: 5) database is locked"

end SqlxError

/-! ## Parameters -/

/-- `NewTrack`. -/
structure NewTrack (ρ : Type) : Type where
  /-- the artist -/
  artist : String
  /-- the name -/
  trackName : String
  /-- optional here, but not in the table -/
  lengthSeconds : Option ℤ
  /-- may be missing -/
  bitrateKbps : Option ℤ
  /-- may be missing -/
  tempoBpm : Option ρ
  /-- when it is added -/
  additionTime : String
  /-- where it is -/
  sources : List String

/-- `TrackUpdate`. -/
structure TrackUpdate (ρ : Type) : Type where
  /-- the new artist -/
  artist : Option String
  /-- the new name -/
  trackName : Option String
  /-- the new length -/
  lengthSeconds : Option ℤ
  /-- the new bitrate -/
  bitrateKbps : Option ℤ
  /-- the new tempo -/
  tempoBpm : Option ρ
  /-- the new time -/
  additionTime : Option String

/-- `NewTrackConflict`. -/
structure NewTrackConflict (ρ : Type) : Type where
  /-- of the track that was not added -/
  artist : String
  /-- of the track that was not added -/
  trackName : String
  /-- may be missing -/
  lengthSeconds : Option ℤ
  /-- may be missing -/
  bitrateKbps : Option ℤ
  /-- may be missing -/
  tempoBpm : Option ρ
  /-- of the track that was not added -/
  additionTime : String
  /-- why it was not added -/
  conflictReason : String
  /-- the track that is there already -/
  sameTrackId : BigintId

namespace Database

/-! ## Inserting -/

/-- `INSERT` of a row that violates no constraint of its own. -/
def insertInto {α : Type} {key : α → ℤ} (table : SqlTable α key) (make : ℤ → α)
    (hmake : ∀ n, key (make n) = n) : Except SqlxError (SqlTable α key) :=
  match table.insert make hmake with
  | some table => .ok table
  | none => .error .full

theorem insertInto_eq_ok {α : Type} {key : α → ℤ} {table table' : SqlTable α key} {make : ℤ → α}
    {hmake : ∀ n, key (make n) = n} (h : insertInto table make hmake = .ok table') :
    table'.rows = table.rows ++ [make table'.seq] ∧ ∀ row ∈ table.rows, key row ≠ table'.seq := by
  unfold insertInto at h
  split at h
  · case h_1 table'' hinsert =>
    obtain rfl := Except.ok.inj h
    exact ⟨(SqlTable.insert_eq_some hinsert).1, SqlTable.key_ne_of_insert hinsert⟩
  · cases h

/-- `INSERT INTO track_info`, one row. -/
def insertTrack (db : Database ρ) (t : NewTrack ρ) : Except SqlxError (Database ρ) :=
  match t.lengthSeconds with
  | none => .error (.notNull "track_info.length_seconds")
  | some lengthSeconds =>
    if db.trackInfo.rows.any fun row => row.artist = t.artist ∧ row.trackName = t.trackName then
      .error (.unique "track_info.artist, track_info.track_name")
    else do
      let trackInfo ← insertInto db.trackInfo
        (fun id => ⟨id, t.artist, t.trackName, lengthSeconds, t.bitrateKbps, t.tempoBpm,
          t.additionTime, .integer 0⟩)
        fun _ => rfl
      .ok { db with trackInfo }

/-- `INSERT INTO track_info`, with the last key. -/
def insertTracks (ts : List (NewTrack ρ)) (db : Database ρ) : Except SqlxError (ℤ × Database ρ) :=
  do
    let db ← ts.foldlM insertTrack db
    .ok (db.trackInfo.seq, db)

/-- `INSERT INTO track_sources`, one row. -/
def insertSource (db : Database ρ) (source : ℤ × String) : Except SqlxError (Database ρ) :=
  if db.trackSources.rows.any fun row => row.trackId = source.1 ∧ row.url = source.2 then
    .error (.unique "track_sources.track_id, track_sources.url")
  else do
    let trackSources ← insertInto db.trackSources (fun id => ⟨id, source.1, source.2⟩) fun _ => rfl
    .ok { db with trackSources }

/-- `INSERT INTO track_sources`, with the last key. The references are checked at the end. -/
def insertSources (sources : List (ℤ × String)) (db : Database ρ) :
    Except SqlxError (ℤ × Database ρ) := do
  let db ← sources.foldlM insertSource db
  if sources.all fun source => db.HasTrack source.1 then .ok (db.trackSources.seq, db)
  else .error .foreignKey

/-- `INSERT INTO listen_info`. -/
def insertListen (trackId listenedFrom listenedTo : ℤ) (db : Database ρ) :
    Except SqlxError (ℤ × Database ρ) := do
  let listenInfo ←
    insertInto db.listenInfo (fun id => ⟨id, trackId, listenedFrom, listenedTo⟩) fun _ => rfl
  if db.HasTrack trackId then .ok (listenInfo.seq, { db with listenInfo })
  else .error .foreignKey

/-- `INSERT INTO tags`. -/
def insertTag (name : String) (db : Database ρ) : Except SqlxError (ℤ × Database ρ) :=
  if db.tags.rows.any fun row => row.tagName = name then .error (.unique "tags.tag_name")
  else do
    let tags ← insertInto db.tags (fun id => ⟨id, name⟩) fun _ => rfl
    .ok (tags.seq, { db with tags })

/-- `INSERT OR IGNORE INTO tag_assignments`, one row. -/
def insertAssignment (db : Database ρ) (pair : ℤ × ℤ) : Except SqlxError (Database ρ) :=
  if db.tagAssignments.rows.any fun row => row.trackId = pair.1 ∧ row.tagId = pair.2 then
    match db.tagAssignments.skip with
    | some tagAssignments => .ok { db with tagAssignments }
    | none => .error .full
  else do
    let tagAssignments ← insertInto db.tagAssignments (fun id => ⟨id, pair.1, pair.2⟩) fun _ => rfl
    .ok { db with tagAssignments }

/-- `INSERT OR IGNORE INTO tag_assignments`. What is ignored is a pair that is there already;
the references of the rows that are new are checked at the end. -/
def insertAssignments (pairs : List (ℤ × ℤ)) (db : Database ρ) :
    Except SqlxError (Unit × Database ρ) := do
  let db' ← pairs.foldlM insertAssignment db
  if db'.tagAssignments.rows.all fun row =>
      row.id ≤ db.tagAssignments.seq ∨ (db'.HasTrack row.trackId ∧ db'.HasTag row.tagId) then
    .ok ((), db')
  else .error .foreignKey

/-- `INSERT INTO track_meta`. -/
def insertMeta (trackId : ℤ) (key value : String) (db : Database ρ) :
    Except SqlxError (ℤ × Database ρ) := do
  let trackMeta ← insertInto db.trackMeta (fun id => ⟨id, trackId, key, value⟩) fun _ => rfl
  if db.HasTrack trackId then .ok (trackMeta.seq, { db with trackMeta })
  else .error .foreignKey

/-- `INSERT INTO errors`. -/
def insertError (errorText : String) (db : Database ρ) : Except SqlxError (ℤ × Database ρ) := do
  let errors ← insertInto db.errors (fun key => ⟨key, errorText⟩) fun _ => rfl
  .ok (errors.seq, { db with errors })

/-- `INSERT INTO track_add_conflicts`. -/
def insertConflict (c : NewTrackConflict ρ) (sameTrackId : ℤ) (db : Database ρ) :
    Except SqlxError (ℤ × Database ρ) := do
  let trackAddConflicts ← insertInto db.trackAddConflicts
    (fun id => ⟨id, c.artist, c.trackName, c.lengthSeconds, c.bitrateKbps, c.tempoBpm,
      c.additionTime, c.conflictReason, sameTrackId⟩)
    fun _ => rfl
  if db.HasTrack sameTrackId then .ok (trackAddConflicts.seq, { db with trackAddConflicts })
  else .error .foreignKey

/-- `INSERT INTO removed_tracks`. -/
def insertRemoved (data : String) (db : Database ρ) : Except SqlxError (Unit × Database ρ) := do
  let removedTracks ← insertInto db.removedTracks (fun id => ⟨id, data⟩) fun _ => rfl
  .ok ((), { db with removedTracks })

/-- `listened = listened + excluded.listened`, in the row for a day and a track. -/
def countOn (beyond : Cell ρ → Cell ρ → Cell ρ) (date : String) (trackId seconds : ℤ)
    (row : ListenedDaily ρ) : ListenedDaily ρ :=
  if row.date = date ∧ row.trackId = trackId then
    { row with listened := row.listened.add beyond (.integer seconds) }
  else row

theorem countOn_id (beyond : Cell ρ → Cell ρ → Cell ρ) (date : String) (trackId seconds : ℤ)
    (row : ListenedDaily ρ) : (countOn beyond date trackId seconds row).id = row.id := by
  unfold countOn
  split <;> rfl

/-- `INSERT INTO listened_daily ... ON CONFLICT(date, track_id) DO UPDATE`. -/
def upsertDaily (beyond : Cell ρ → Cell ρ → Cell ρ) (date : String) (trackId seconds : ℤ)
    (db : Database ρ) : Except SqlxError (Unit × Database ρ) :=
  if db.listenedDaily.rows.any fun row => row.date = date ∧ row.trackId = trackId then
    match db.listenedDaily.skip with
    | some listenedDaily =>
      .ok ((), { db with
        listenedDaily :=
          listenedDaily.map (countOn beyond date trackId seconds) (countOn_id _ _ _ _) })
    | none => .error .full
  else do
    let listenedDaily ←
      insertInto db.listenedDaily (fun id => ⟨id, date, trackId, .integer seconds⟩) fun _ => rfl
    if db.HasTrack trackId then .ok ((), { db with listenedDaily }) else .error .foreignKey

/-- The row for the day is changed, or there is none and it is inserted. -/
theorem upsertDaily_cases {beyond : Cell ρ → Cell ρ → Cell ρ} {date : String}
    {trackId seconds : ℤ} {db db' : Database ρ}
    (h : db.upsertDaily beyond date trackId seconds = .ok ((), db')) :
    db'.trackInfo = db.trackInfo ∧
    (((∃ row ∈ db.listenedDaily.rows, row.date = date ∧ row.trackId = trackId) ∧
        db'.listenedDaily.rows =
          db.listenedDaily.rows.map (countOn beyond date trackId seconds)) ∨
      ((∀ row ∈ db.listenedDaily.rows, ¬(row.date = date ∧ row.trackId = trackId)) ∧
        db.HasTrack trackId ∧
        ∃ id, db'.listenedDaily.rows =
          db.listenedDaily.rows ++ [⟨id, date, trackId, .integer seconds⟩])) := by
  unfold upsertDaily at h
  split at h
  · case isTrue hany =>
    split at h
    · case h_1 table hskip =>
      obtain ⟨-, rfl⟩ := Prod.mk.inj (Except.ok.inj h)
      obtain ⟨row, hrow, hkey⟩ := List.any_eq_true.mp hany
      refine ⟨rfl, .inl ⟨⟨row, hrow, of_decide_eq_true hkey⟩, ?_⟩⟩
      rw [SqlTable.rows_map, (SqlTable.skip_eq_some hskip).1]
    · cases h
  · case isFalse hnone =>
    obtain ⟨table, htable, h⟩ := ok_of_bind h
    split at h
    · case isTrue htrack =>
      obtain ⟨-, rfl⟩ := Prod.mk.inj (Except.ok.inj h)
      refine ⟨rfl, .inr ⟨fun row hrow hkey => hnone ?_, htrack, _, (insertInto_eq_ok htable).1⟩⟩
      exact List.any_eq_true.mpr ⟨row, hrow, decide_eq_true hkey⟩
    · cases h

/-! ## Updating -/

/-- The row of `track_info` after an update. -/
def applyUpdate (u : TrackUpdate ρ) (row : TrackInfo ρ) : TrackInfo ρ :=
  { row with
    artist := u.artist.getD row.artist
    trackName := u.trackName.getD row.trackName
    lengthSeconds := u.lengthSeconds.getD row.lengthSeconds
    bitrateKbps := u.bitrateKbps.or row.bitrateKbps
    tempoBpm := u.tempoBpm.or row.tempoBpm
    additionTime := u.additionTime.getD row.additionTime }

/-- After an update, the row with a key has the artist and the name of another one. -/
def clashes (id : ℤ) (u : TrackUpdate ρ) (db : Database ρ) : Bool :=
  db.trackInfo.rows.any fun row => row.id = id ∧ db.trackInfo.rows.any fun other =>
    other.id ≠ id ∧ other.artist = (applyUpdate u row).artist ∧
      other.trackName = (applyUpdate u row).trackName

/-- `UPDATE track_info SET ... WHERE id = ?`. -/
def updateTrack (id : ℤ) (u : TrackUpdate ρ) (db : Database ρ) :
    Except SqlxError (Unit × Database ρ) :=
  if db.clashes id u then .error (.unique "track_info.artist, track_info.track_name")
  else
    .ok ((), { db with
      trackInfo := db.trackInfo.map (fun row => if row.id = id then applyUpdate u row else row)
        fun row => by split <;> rfl })

/-- `listened_seconds = listened_seconds + ?`, in the row with a key. -/
def credit (beyond : Cell ρ → Cell ρ → Cell ρ) (id seconds : ℤ) (row : TrackInfo ρ) :
    TrackInfo ρ :=
  if row.id = id then
    { row with listenedSeconds := row.listenedSeconds.add beyond (.integer seconds) }
  else row

theorem credit_id (beyond : Cell ρ → Cell ρ → Cell ρ) (id seconds : ℤ) (row : TrackInfo ρ) :
    (credit beyond id seconds row).id = row.id := by
  unfold credit
  split <;> rfl

/-- `UPDATE track_info SET listened_seconds = listened_seconds + ? WHERE id = ?`. -/
def addListened (beyond : Cell ρ → Cell ρ → Cell ρ) (id seconds : ℤ) (db : Database ρ) :
    Except SqlxError (Unit × Database ρ) :=
  .ok ((), { db with
    trackInfo := db.trackInfo.map (credit beyond id seconds) (credit_id _ _ _) })

/-- `UPDATE tags SET tag_name = ? WHERE id = ?`. -/
def updateTag (id : ℤ) (name : String) (db : Database ρ) : Except SqlxError (Unit × Database ρ) :=
  if db.HasTag id ∧ ∃ other ∈ db.tags.rows, other.id ≠ id ∧ other.tagName = name then
    .error (.unique "tags.tag_name")
  else
    .ok ((), { db with
      tags := db.tags.map (fun row => if row.id = id then { row with tagName := name } else row)
        fun row => by split <;> rfl })

/-- `UPDATE track_meta SET value = ? WHERE id = ?`. -/
def updateMeta (id : ℤ) (value : String) (db : Database ρ) :
    Except SqlxError (Unit × Database ρ) :=
  .ok ((), { db with
    trackMeta := db.trackMeta.map (fun row => if row.id = id then { row with value } else row)
      fun row => by split <;> rfl })

/-! ## Deleting -/

/-- `DELETE FROM track_info WHERE id = ?`, with the rows that refer to it. -/
def deleteTrack (id : ℤ) (db : Database ρ) : Except SqlxError (Unit × Database ρ) :=
  if db.HasTrack id then
    .ok ((), { db with
      trackInfo := db.trackInfo.filter fun row => row.id ≠ id
      trackSources := db.trackSources.filter fun row => row.trackId ≠ id
      listenInfo := db.listenInfo.filter fun row => row.trackId ≠ id
      tagAssignments := db.tagAssignments.filter fun row => row.trackId ≠ id
      trackMeta := db.trackMeta.filter fun row => row.trackId ≠ id
      trackAddConflicts := db.trackAddConflicts.filter fun row => row.sameTrackId ≠ id
      listenedDaily := db.listenedDaily.filter fun row => row.trackId ≠ id })
  else .ok ((), db)

/-- `DELETE FROM tags WHERE id = ?`, with the rows that refer to it. -/
def deleteTag (id : ℤ) (db : Database ρ) : Except SqlxError (Unit × Database ρ) :=
  if db.HasTag id then
    .ok ((), { db with
      tags := db.tags.filter fun row => row.id ≠ id
      tagAssignments := db.tagAssignments.filter fun row => row.tagId ≠ id })
  else .ok ((), db)

/-- `DELETE FROM tag_assignments WHERE track_id = ? AND tag_id = ?`. -/
def deleteAssignment (trackId tagId : ℤ) (db : Database ρ) :
    Except SqlxError (Unit × Database ρ) :=
  .ok ((), { db with
    tagAssignments := db.tagAssignments.filter fun row =>
      ¬(row.trackId = trackId ∧ row.tagId = tagId) })

/-- `DELETE FROM track_meta WHERE id = ?`. -/
def deleteMeta (id : ℤ) (db : Database ρ) : Except SqlxError (Unit × Database ρ) :=
  .ok ((), { db with trackMeta := db.trackMeta.filter fun row => row.id ≠ id })

/-- `DELETE FROM track_sources WHERE track_id = ? AND url = ?`. -/
def deleteSource (trackId : ℤ) (url : String) (db : Database ρ) :
    Except SqlxError (Unit × Database ρ) :=
  .ok ((), { db with
    trackSources := db.trackSources.filter fun row => ¬(row.trackId = trackId ∧ row.url = url) })

/-! ## What is changed

Most statements change one table. -/

section Changes

variable {db db' : Database ρ} {n : ℤ} {u : Unit}

theorem insertSource_changes {source : ℤ × String} (h : db.insertSource source = .ok db') :
    ∃ trackSources, db' = { db with trackSources } := by
  unfold insertSource at h
  split at h
  · cases h
  · obtain ⟨trackSources, -, h⟩ := ok_of_bind h
    exact ⟨trackSources, (Except.ok.inj h).symm⟩

theorem insertSources_changes {sources : List (ℤ × String)}
    (h : insertSources sources db = .ok (n, db')) :
    ∃ trackSources, db' = { db with trackSources } := by
  obtain ⟨db₁, hfold, h⟩ := ok_of_bind h
  have hfold' : ∃ trackSources, db₁ = { db with trackSources } := by
    refine foldlM_keeps (I := fun db₁ => ∃ trackSources, db₁ = { db with trackSources }) ?_
      ⟨_, rfl⟩ hfold
    rintro _ source db₂ ⟨_, rfl⟩ hsource
    obtain ⟨trackSources, hdb₂⟩ := insertSource_changes hsource
    exact ⟨trackSources, hdb₂⟩
  split at h
  · obtain ⟨-, rfl⟩ := Prod.mk.inj (Except.ok.inj h)
    exact hfold'
  · cases h

theorem insertAssignment_changes {pair : ℤ × ℤ} (h : db.insertAssignment pair = .ok db') :
    ∃ tagAssignments, db' = { db with tagAssignments } := by
  unfold insertAssignment at h
  split at h
  · split at h
    · exact ⟨_, (Except.ok.inj h).symm⟩
    · cases h
  · obtain ⟨tagAssignments, -, h⟩ := ok_of_bind h
    exact ⟨tagAssignments, (Except.ok.inj h).symm⟩

theorem insertAssignments_changes {pairs : List (ℤ × ℤ)}
    (h : insertAssignments pairs db = .ok (u, db')) :
    ∃ tagAssignments, db' = { db with tagAssignments } := by
  obtain ⟨db₁, hfold, h⟩ := ok_of_bind h
  have hfold' : ∃ tagAssignments, db₁ = { db with tagAssignments } := by
    refine foldlM_keeps (I := fun db₁ => ∃ tagAssignments, db₁ = { db with tagAssignments }) ?_
      ⟨_, rfl⟩ hfold
    rintro _ pair db₂ ⟨_, rfl⟩ hpair
    obtain ⟨tagAssignments, hdb₂⟩ := insertAssignment_changes hpair
    exact ⟨tagAssignments, hdb₂⟩
  split at h
  · obtain ⟨-, rfl⟩ := Prod.mk.inj (Except.ok.inj h)
    exact hfold'
  · cases h

theorem insertListen_changes {trackId listenedFrom listenedTo : ℤ}
    (h : db.insertListen trackId listenedFrom listenedTo = .ok (n, db')) :
    ∃ listenInfo, db' = { db with listenInfo } := by
  obtain ⟨listenInfo, -, h⟩ := ok_of_bind h
  split at h
  · exact ⟨listenInfo, (Prod.mk.inj (Except.ok.inj h)).2.symm⟩
  · cases h

theorem insertTag_changes {name : String} (h : db.insertTag name = .ok (n, db')) :
    ∃ tags, db' = { db with tags } ∧ tags.rows = db.tags.rows ++ [⟨n, name⟩] := by
  unfold insertTag at h
  split at h
  · cases h
  · obtain ⟨tags, htags, h⟩ := ok_of_bind h
    obtain ⟨rfl, rfl⟩ := Prod.mk.inj (Except.ok.inj h)
    exact ⟨tags, rfl, (insertInto_eq_ok htags).1⟩

theorem insertMeta_changes {trackId : ℤ} {key value : String}
    (h : db.insertMeta trackId key value = .ok (n, db')) :
    ∃ trackMeta, db' = { db with trackMeta } := by
  obtain ⟨trackMeta, -, h⟩ := ok_of_bind h
  split at h
  · exact ⟨trackMeta, (Prod.mk.inj (Except.ok.inj h)).2.symm⟩
  · cases h

theorem insertError_changes {errorText : String} (h : db.insertError errorText = .ok (n, db')) :
    ∃ errors, db' = { db with errors } ∧ errors.rows = db.errors.rows ++ [⟨n, errorText⟩] := by
  obtain ⟨errors, herrors, h⟩ := ok_of_bind h
  obtain ⟨rfl, rfl⟩ := Prod.mk.inj (Except.ok.inj h)
  exact ⟨errors, rfl, (insertInto_eq_ok herrors).1⟩

theorem insertConflict_changes {c : NewTrackConflict ρ} {sameTrackId : ℤ}
    (h : db.insertConflict c sameTrackId = .ok (n, db')) :
    ∃ trackAddConflicts, db' = { db with trackAddConflicts } := by
  obtain ⟨trackAddConflicts, -, h⟩ := ok_of_bind h
  split at h
  · exact ⟨trackAddConflicts, (Prod.mk.inj (Except.ok.inj h)).2.symm⟩
  · cases h

theorem insertRemoved_changes {data : String} (h : db.insertRemoved data = .ok (u, db')) :
    ∃ removedTracks, db' = { db with removedTracks } := by
  obtain ⟨removedTracks, -, h⟩ := ok_of_bind h
  exact ⟨removedTracks, (Prod.mk.inj (Except.ok.inj h)).2.symm⟩

theorem upsertDaily_changes {beyond : Cell ρ → Cell ρ → Cell ρ} {date : String}
    {trackId seconds : ℤ} (h : db.upsertDaily beyond date trackId seconds = .ok (u, db')) :
    ∃ listenedDaily, db' = { db with listenedDaily } := by
  unfold upsertDaily at h
  split at h
  · split at h
    · exact ⟨_, (Prod.mk.inj (Except.ok.inj h)).2.symm⟩
    · cases h
  · obtain ⟨listenedDaily, -, h⟩ := ok_of_bind h
    split at h
    · exact ⟨listenedDaily, (Prod.mk.inj (Except.ok.inj h)).2.symm⟩
    · cases h

theorem updateTag_changes {id : ℤ} {name : String} (h : db.updateTag id name = .ok (u, db')) :
    ∃ tags, db' = { db with tags } ∧ tags.rows.map Tag.id = db.tags.rows.map Tag.id := by
  unfold updateTag at h
  split at h
  · cases h
  · obtain ⟨-, rfl⟩ := Prod.mk.inj (Except.ok.inj h)
    refine ⟨_, rfl, ?_⟩
    rw [SqlTable.rows_map, List.map_map]
    refine List.map_congr_left fun row _ => ?_
    rw [Function.comp_apply]
    split <;> rfl

end Changes

end Database

end Vamp
