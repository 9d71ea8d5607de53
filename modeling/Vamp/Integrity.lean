import Vamp.AddTracks
import Vamp.ListeningLedger
import Vamp.SqlHistory
import Vamp.TagUnion

/-!
# The schema is kept

Whatever is called, in whatever order, and wherever it fails: after it the tables satisfy the
schema, that is every `UNIQUE` and every `REFERENCES` of the migrations
(`satisfiesSchema_reachable`). SQLite checks it statement by statement, which is enough for
transactions of several statements, and for those that fail halfway.

And the past is kept (`history_of_run`): no key is given out twice, what no statement
changes is never changed, and neither the error records nor the archive of removed tracks
lose a row.
-/

namespace Vamp

namespace Database

variable {ρ : Type}

/-- Every row refers to a row that is there. -/
def Refer {α : Type} (rows : List α) (ref : α → ℤ) (there : ℤ → Prop) : Prop :=
  ∀ row ∈ rows, there (ref row)

/-- **The schema**: what is `UNIQUE`, and what `REFERENCES` what. -/
structure SatisfiesSchema (db : Database ρ) : Prop where
  /-- `UNIQUE(artist, track_name)` -/
  uniqueTracks : (db.trackInfo.rows.map fun row => (row.artist, row.trackName)).Nodup
  /-- `UNIQUE(track_id, url)` -/
  uniqueSources : (db.trackSources.rows.map fun row => (row.trackId, row.url)).Nodup
  /-- `UNIQUE(tag_name)` -/
  uniqueTags : (db.tags.rows.map Tag.tagName).Nodup
  /-- `UNIQUE(track_id, tag_id)` -/
  uniqueAssignments : (db.tagAssignments.rows.map fun row => (row.trackId, row.tagId)).Nodup
  /-- `UNIQUE(date, track_id)` -/
  uniqueDays : (db.listenedDaily.rows.map fun row => (row.date, row.trackId)).Nodup
  /-- of sources -/
  sources : Refer db.trackSources.rows TrackSource.trackId db.HasTrack
  /-- of listens -/
  listens : Refer db.listenInfo.rows ListenInfo.trackId db.HasTrack
  /-- of assignments, to tracks -/
  assignedTracks : Refer db.tagAssignments.rows TagAssigned.trackId db.HasTrack
  /-- of assignments, to tags -/
  assignedTags : Refer db.tagAssignments.rows TagAssigned.tagId db.HasTag
  /-- of metadata -/
  metas : Refer db.trackMeta.rows TrackMeta.trackId db.HasTrack
  /-- of conflicts -/
  conflicts : Refer db.trackAddConflicts.rows TrackAddConflict.sameTrackId db.HasTrack
  /-- of days -/
  days : Refer db.listenedDaily.rows ListenedDaily.trackId db.HasTrack

/-- **The past**: what has become of the rows of each table. -/
structure History (db db' : Database ρ) : Prop where
  /-- tracks may be changed -/
  tracks : db.trackInfo.Evolves (fun _ _ => True) db'.trackInfo
  /-- sources are not -/
  sources : db.trackSources.Evolves Eq db'.trackSources
  /-- listens are not -/
  listens : db.listenInfo.Evolves Eq db'.listenInfo
  /-- tags may be renamed -/
  tags : db.tags.Evolves (fun _ _ => True) db'.tags
  /-- assignments are not changed -/
  assignments : db.tagAssignments.Evolves Eq db'.tagAssignments
  /-- metadata stays with its track, under its key -/
  metas : db.trackMeta.Evolves (fun row row' => row.trackId = row'.trackId ∧ row.key = row'.key)
    db'.trackMeta
  /-- conflicts are not changed -/
  conflicts : db.trackAddConflicts.Evolves Eq db'.trackAddConflicts
  /-- a day of a track stays one -/
  days : db.listenedDaily.Evolves
    (fun row row' => row.date = row'.date ∧ row.trackId = row'.trackId) db'.listenedDaily
  /-- errors stay -/
  errors : db.errors.Extends ErrorRow.key db'.errors
  /-- and so do archives -/
  removed : db.removedTracks.Extends RemovedTrack.id db'.removedTracks

/-! ## What statements do to a table -/

section Statements

variable {db db' : Database ρ} {n : ℤ} {u : Unit}

/-- A row with a key that belongs to the table before belongs to it, and one with a new key
refers to a row that is there. -/
theorem Refer.of_fresh {α : Type} {key : α → ℤ} {β : Type} {columns : α → β}
    {t t' : SqlTable α key} {ref : α → ℤ} {there : ℤ → Prop} (h : Refer t.rows ref there)
    (ht : t.Extends columns t') (hnew : ∀ row ∈ t'.rows, t.seq < key row → there (ref row)) :
    Refer t'.rows ref there := by
  intro row hrow
  rcases ht.fresh row hrow with hold | hlt
  · exact h row hold
  · exact hnew row hrow hlt

/-- One row is inserted. -/
theorem extends_of_insertInto {α β : Type} {key : α → ℤ} {columns : α → β}
    {table table' : SqlTable α key} {make : ℤ → α} {hmake : ∀ n, key (make n) = n}
    (h : insertInto table make hmake = .ok table')
    (hnew : ∀ row ∈ table.rows, columns row ≠ columns (make table'.seq)) :
    table.Extends columns table' := by
  unfold insertInto at h
  split at h
  · case h_1 table'' hinsert =>
    obtain rfl := Except.ok.inj h
    exact .insert hinsert hnew
  · cases h

/-- One row is inserted where nothing but the key is `UNIQUE`. -/
theorem extends_of_insertInto_key {α : Type} {key : α → ℤ} {table table' : SqlTable α key}
    {make : ℤ → α} {hmake : ∀ n, key (make n) = n}
    (h : insertInto table make hmake = .ok table') : table.Extends key table' := by
  unfold insertInto at h
  split at h
  · case h_1 table'' hinsert =>
    obtain rfl := Except.ok.inj h
    exact .insert_key hinsert
  · cases h

/-- The only row with a new key is the one that is inserted. -/
theorem eq_of_insertInto {α : Type} {key : α → ℤ} {table table' : SqlTable α key}
    {make : ℤ → α} {hmake : ∀ n, key (make n) = n}
    (h : insertInto table make hmake = .ok table') {row : α} (hrow : row ∈ table'.rows)
    (hlt : table.seq < key row) : row = make table'.seq := by
  rw [(insertInto_eq_ok h).1] at hrow
  rcases List.mem_append.mp hrow with hold | hlast
  · exact absurd (table.le_seq row hold) (Int.not_le.mpr hlt)
  · exact List.mem_singleton.mp hlast

/-- Tracks are added that differ in artist or name. -/
theorem insertTracks_extends {ts : List (NewTrack ρ)} (h : insertTracks ts db = .ok (n, db')) :
    ∃ trackInfo, db' = { db with trackInfo } ∧
      db.trackInfo.Extends (fun row => (row.artist, row.trackName)) trackInfo := by
  obtain ⟨db₁, hfold, h⟩ := ok_of_bind h
  obtain ⟨-, rfl⟩ := Prod.mk.inj (Except.ok.inj h)
  refine foldlM_keeps (I := fun db₁ => ∃ trackInfo, db₁ = { db with trackInfo } ∧
    db.trackInfo.Extends (fun row => (row.artist, row.trackName)) trackInfo) ?_
    ⟨_, rfl, .refl _⟩ hfold
  rintro _ t db₂ ⟨trackInfo, rfl, hextends⟩ hinsert
  unfold insertTrack at hinsert
  split at hinsert
  · cases hinsert
  · split at hinsert
    · cases hinsert
    · case isFalse hnone =>
      obtain ⟨trackInfo', htable, hinsert⟩ := ok_of_bind hinsert
      refine ⟨trackInfo', (Except.ok.inj hinsert).symm, hextends.trans ?_⟩
      refine extends_of_insertInto htable fun row hrow hcolumns => hnone ?_
      exact List.any_eq_true.mpr ⟨row, hrow, decide_eq_true (Prod.mk.inj hcolumns)⟩

/-- Each source that is added is one of the given ones. -/
theorem foldlM_insertSource_extends {sources : List (ℤ × String)}
    (h : sources.foldlM insertSource db = .ok db') :
    ∃ trackSources, db' = { db with trackSources } ∧
      db.trackSources.Extends (fun row => (row.trackId, row.url)) trackSources ∧
      ∀ row ∈ trackSources.rows, db.trackSources.seq < row.id →
        ∃ source ∈ sources, row.trackId = source.1 := by
  induction sources generalizing db with
  | nil =>
    obtain rfl := Except.ok.inj h
    exact ⟨_, rfl, .refl _, fun row hrow hlt =>
      absurd (db.trackSources.le_seq row hrow) (Int.not_le.mpr hlt)⟩
  | cons source sources ih =>
    rw [List.foldlM_cons] at h
    obtain ⟨db₁, hinsert, hrest⟩ := ok_of_bind h
    unfold insertSource at hinsert
    split at hinsert
    · cases hinsert
    · case isFalse hnone =>
      obtain ⟨table, htable, hdb₁⟩ := ok_of_bind hinsert
      obtain rfl := Except.ok.inj hdb₁
      obtain ⟨trackSources, rfl, hextends, hgiven⟩ := ih hrest
      have hfirst : db.trackSources.Extends (fun row => (row.trackId, row.url)) table := by
        refine extends_of_insertInto htable fun row hrow hcolumns => hnone ?_
        exact List.any_eq_true.mpr ⟨row, hrow, decide_eq_true (Prod.mk.inj hcolumns)⟩
      refine ⟨trackSources, rfl, hfirst.trans hextends, fun row hrow hlt => ?_⟩
      rcases hextends.fresh row hrow with hold | hnew
      · rw [eq_of_insertInto htable hold hlt]
        exact ⟨source, List.mem_cons_self, rfl⟩
      · obtain ⟨other, hother, hid⟩ := hgiven row hrow hnew
        exact ⟨other, List.mem_cons_of_mem _ hother, hid⟩

/-- Sources are added that refer to tracks. -/
theorem insertSources_extends {sources : List (ℤ × String)}
    (h : insertSources sources db = .ok (n, db')) :
    ∃ trackSources, db' = { db with trackSources } ∧
      db.trackSources.Extends (fun row => (row.trackId, row.url)) trackSources ∧
      ∀ row ∈ trackSources.rows, db.trackSources.seq < row.id → db.HasTrack row.trackId := by
  obtain ⟨db₁, hfold, h⟩ := ok_of_bind h
  obtain ⟨trackSources, rfl, hextends, hgiven⟩ := foldlM_insertSource_extends hfold
  split at h
  · case isTrue hall =>
    obtain ⟨-, rfl⟩ := Prod.mk.inj (Except.ok.inj h)
    refine ⟨trackSources, rfl, hextends, fun row hrow hlt => ?_⟩
    obtain ⟨source, hsource, hid⟩ := hgiven row hrow hlt
    rw [hid]
    exact of_decide_eq_true (List.all_eq_true.mp hall source hsource)
  · cases h

/-- Assignments are added that refer to tracks and tags. -/
theorem insertAssignments_extends {pairs : List (ℤ × ℤ)}
    (h : insertAssignments pairs db = .ok (u, db')) :
    ∃ tagAssignments, db' = { db with tagAssignments } ∧
      db.tagAssignments.Extends (fun row => (row.trackId, row.tagId)) tagAssignments ∧
      ∀ row ∈ tagAssignments.rows, db.tagAssignments.seq < row.id →
        db.HasTrack row.trackId ∧ db.HasTag row.tagId := by
  obtain ⟨db₁, hfold, h⟩ := ok_of_bind h
  have hstep : ∃ tagAssignments, db₁ = { db with tagAssignments } ∧
      db.tagAssignments.Extends (fun row => (row.trackId, row.tagId)) tagAssignments := by
    refine foldlM_keeps (I := fun db₁ => ∃ tagAssignments, db₁ = { db with tagAssignments } ∧
      db.tagAssignments.Extends (fun row => (row.trackId, row.tagId)) tagAssignments) ?_
      ⟨_, rfl, .refl _⟩ hfold
    rintro _ pair db₂ ⟨tagAssignments, rfl, hextends⟩ hinsert
    unfold insertAssignment at hinsert
    split at hinsert
    · -- the pair is there, and only a key is lost
      split at hinsert
      · case h_1 table hskip =>
        exact ⟨table, (Except.ok.inj hinsert).symm, hextends.trans (.skip hskip)⟩
      · cases hinsert
    · case isFalse hnone =>
      obtain ⟨table, htable, hinsert⟩ := ok_of_bind hinsert
      refine ⟨table, (Except.ok.inj hinsert).symm, hextends.trans ?_⟩
      refine extends_of_insertInto htable fun row hrow hcolumns => hnone ?_
      exact List.any_eq_true.mpr ⟨row, hrow, decide_eq_true (Prod.mk.inj hcolumns)⟩
  obtain ⟨tagAssignments, rfl, hextends⟩ := hstep
  split at h
  · case isTrue hall =>
    obtain ⟨-, rfl⟩ := Prod.mk.inj (Except.ok.inj h)
    refine ⟨tagAssignments, rfl, hextends, fun row hrow hlt => ?_⟩
    rcases of_decide_eq_true (List.all_eq_true.mp hall row hrow) with hle | hrefers
    · omega
    · exact hrefers
  · cases h

/-- A listen is added that refers to a track. -/
theorem insertListen_extends {trackId listenedFrom listenedTo : ℤ}
    (h : insertListen trackId listenedFrom listenedTo db = .ok (n, db')) :
    ∃ listenInfo, db' = { db with listenInfo } ∧
      db.listenInfo.Extends ListenInfo.id listenInfo ∧
      ∀ row ∈ listenInfo.rows, db.listenInfo.seq < row.id → db.HasTrack row.trackId := by
  obtain ⟨table, htable, h⟩ := ok_of_bind h
  split at h
  · case isTrue htrack =>
    obtain ⟨-, rfl⟩ := Prod.mk.inj (Except.ok.inj h)
    refine ⟨table, rfl, extends_of_insertInto_key htable, fun row hrow hlt => ?_⟩
    rw [eq_of_insertInto htable hrow hlt]
    exact htrack
  · cases h

/-- A tag is added that has a name of its own. -/
theorem insertTag_extends {name : String} (h : insertTag name db = .ok (n, db')) :
    ∃ tags, db' = { db with tags } ∧ db.tags.Extends Tag.tagName tags := by
  unfold insertTag at h
  split at h
  · cases h
  · case isFalse hnone =>
    obtain ⟨table, htable, h⟩ := ok_of_bind h
    obtain ⟨-, rfl⟩ := Prod.mk.inj (Except.ok.inj h)
    refine ⟨table, rfl, extends_of_insertInto htable fun row hrow hname => hnone ?_⟩
    exact List.any_eq_true.mpr ⟨row, hrow, decide_eq_true hname⟩

/-- Metadata is added that refers to a track. -/
theorem insertMeta_extends {trackId : ℤ} {key value : String}
    (h : insertMeta trackId key value db = .ok (n, db')) :
    ∃ trackMeta, db' = { db with trackMeta } ∧ db.trackMeta.Extends TrackMeta.id trackMeta ∧
      ∀ row ∈ trackMeta.rows, db.trackMeta.seq < row.id → db.HasTrack row.trackId := by
  obtain ⟨table, htable, h⟩ := ok_of_bind h
  split at h
  · case isTrue htrack =>
    obtain ⟨-, rfl⟩ := Prod.mk.inj (Except.ok.inj h)
    refine ⟨table, rfl, extends_of_insertInto_key htable, fun row hrow hlt => ?_⟩
    rw [eq_of_insertInto htable hrow hlt]
    exact htrack
  · cases h

/-- A conflict is added that refers to a track. -/
theorem insertConflict_extends {c : NewTrackConflict ρ} {sameTrackId : ℤ}
    (h : insertConflict c sameTrackId db = .ok (n, db')) :
    ∃ trackAddConflicts, db' = { db with trackAddConflicts } ∧
      db.trackAddConflicts.Extends TrackAddConflict.id trackAddConflicts ∧
      ∀ row ∈ trackAddConflicts.rows, db.trackAddConflicts.seq < row.id →
        db.HasTrack row.sameTrackId := by
  obtain ⟨table, htable, h⟩ := ok_of_bind h
  split at h
  · case isTrue htrack =>
    obtain ⟨-, rfl⟩ := Prod.mk.inj (Except.ok.inj h)
    refine ⟨table, rfl, extends_of_insertInto_key htable, fun row hrow hlt => ?_⟩
    rw [eq_of_insertInto htable hrow hlt]
    exact htrack
  · cases h

/-- An error is added. -/
theorem insertError_extends {errorText : String} (h : insertError errorText db = .ok (n, db')) :
    ∃ errors, db' = { db with errors } ∧ db.errors.Extends ErrorRow.key errors := by
  obtain ⟨table, htable, h⟩ := ok_of_bind h
  obtain ⟨-, rfl⟩ := Prod.mk.inj (Except.ok.inj h)
  exact ⟨table, rfl, extends_of_insertInto_key htable⟩

/-- An archive is added. -/
theorem insertRemoved_extends {data : String} (h : insertRemoved data db = .ok (u, db')) :
    ∃ removedTracks, db' = { db with removedTracks } ∧
      db.removedTracks.Extends RemovedTrack.id removedTracks := by
  obtain ⟨table, htable, h⟩ := ok_of_bind h
  obtain ⟨-, rfl⟩ := Prod.mk.inj (Except.ok.inj h)
  exact ⟨table, rfl, extends_of_insertInto_key htable⟩

/-! ## The schema -/

theorem satisfiesSchema_empty : SatisfiesSchema (Database.empty : Database ρ) where
  uniqueTracks := List.nodup_nil
  uniqueSources := List.nodup_nil
  uniqueTags := List.nodup_nil
  uniqueAssignments := List.nodup_nil
  uniqueDays := List.nodup_nil
  sources := nofun
  listens := nofun
  assignedTracks := nofun
  assignedTags := nofun
  metas := nofun
  conflicts := nofun
  days := nofun

/-- Tracks are changed, and stay under their keys. -/
theorem SatisfiesSchema.of_tracks (h : SatisfiesSchema db)
    {trackInfo : SqlTable (TrackInfo ρ) TrackInfo.id}
    (hunique : (trackInfo.rows.map fun row => (row.artist, row.trackName)).Nodup)
    (hkeys : ∀ id, db.HasTrack id → ({ db with trackInfo } : Database ρ).HasTrack id) :
    SatisfiesSchema { db with trackInfo } :=
  { h with
    uniqueTracks := hunique
    sources := fun row hrow => hkeys _ (h.sources row hrow)
    listens := fun row hrow => hkeys _ (h.listens row hrow)
    assignedTracks := fun row hrow => hkeys _ (h.assignedTracks row hrow)
    metas := fun row hrow => hkeys _ (h.metas row hrow)
    conflicts := fun row hrow => hkeys _ (h.conflicts row hrow)
    days := fun row hrow => hkeys _ (h.days row hrow) }

/-- Tags are changed, and stay under their keys. -/
theorem SatisfiesSchema.of_tags (h : SatisfiesSchema db) {tags : SqlTable Tag Tag.id}
    (hunique : (tags.rows.map Tag.tagName).Nodup)
    (hkeys : ∀ id, db.HasTag id → ({ db with tags } : Database ρ).HasTag id) :
    SatisfiesSchema { db with tags } :=
  { h with
    uniqueTags := hunique
    assignedTags := fun row hrow => hkeys _ (h.assignedTags row hrow) }

/-- Keys that are there stay. -/
theorem hasTrack_of_extends {β : Type} {columns : TrackInfo ρ → β}
    {trackInfo : SqlTable (TrackInfo ρ) TrackInfo.id} (h : db.trackInfo.Extends columns trackInfo)
    (id : ℤ) (hid : db.HasTrack id) : ({ db with trackInfo } : Database ρ).HasTrack id := by
  obtain ⟨row, hrow, rfl⟩ := hid
  exact ⟨row, h.mem hrow, rfl⟩

/-- An update is refused if it would violate `UNIQUE(artist, track_name)`. -/
theorem updateTrack_unique {id : ℤ} {update : TrackUpdate ρ} (h : SatisfiesSchema db)
    (hclashes : ¬ db.clashes id update = true)
    (hf : ∀ row : TrackInfo ρ,
      (if row.id = id then applyUpdate update row else row).id = row.id) :
    ((db.trackInfo.map (fun row => if row.id = id then applyUpdate update row else row) hf).rows.map
      fun row => (row.artist, row.trackName)).Nodup := by
  have hclash : ∀ row ∈ db.trackInfo.rows, row.id = id → ∀ other ∈ db.trackInfo.rows,
      other.id ≠ id → ¬ ((applyUpdate update row).artist = other.artist ∧
        (applyUpdate update row).trackName = other.trackName) := by
    rintro row hrow hid other hother hne ⟨hartist, hname⟩
    refine hclashes (List.any_eq_true.mpr ⟨row, hrow, decide_eq_true ⟨hid, ?_⟩⟩)
    exact List.any_eq_true.mpr
      ⟨other, hother, decide_eq_true ⟨hne, hartist.symm, hname.symm⟩⟩
  refine SqlTable.unique_map hf fun row hrow row' hrow' hcolumns => ?_
  by_cases hid : row.id = id <;> by_cases hid' : row'.id = id
  · exact hid.trans hid'.symm
  · rw [if_pos hid, if_neg hid'] at hcolumns
    exact absurd (Prod.mk.inj hcolumns) (hclash row hrow hid row' hrow' hid')
  · rw [if_neg hid, if_pos hid'] at hcolumns
    exact absurd (Prod.mk.inj hcolumns.symm) (hclash row' hrow' hid' row hrow hid)
  · rw [if_neg hid, if_neg hid'] at hcolumns
    exact congrArg TrackInfo.id (List.inj_on_of_nodup_map h.uniqueTracks hrow hrow' hcolumns)

/-- A new name is refused if another tag has it. -/
theorem updateTag_unique {id : ℤ} {name : String} (h : SatisfiesSchema db)
    (hnone : ¬ (db.HasTag id ∧ ∃ other ∈ db.tags.rows, other.id ≠ id ∧ other.tagName = name))
    (hf : ∀ row : Tag, (if row.id = id then { row with tagName := name } else row).id = row.id) :
    ((db.tags.map (fun row => if row.id = id then { row with tagName := name } else row)
      hf).rows.map Tag.tagName).Nodup := by
  refine SqlTable.unique_map hf fun row hrow row' hrow' hname => ?_
  by_cases hid : row.id = id <;> by_cases hid' : row'.id = id
  · exact hid.trans hid'.symm
  · rw [if_pos hid, if_neg hid'] at hname
    exact absurd ⟨⟨row, hrow, hid⟩, row', hrow', hid', hname.symm⟩ hnone
  · rw [if_neg hid, if_pos hid'] at hname
    exact absurd ⟨⟨row', hrow', hid'⟩, row, hrow, hid, hname⟩ hnone
  · rw [if_neg hid, if_neg hid'] at hname
    exact congrArg Tag.id (List.inj_on_of_nodup_map h.uniqueTags hrow hrow' hname)

end Statements

end Database

namespace Integrity

open Program Repository Database

variable {ρ α : Type} {db db' : Database ρ}

/-! ## Statements keep the schema -/

theorem keeps_insertTracks (ts : List (NewTrack ρ)) : Keeps SatisfiesSchema (insertTracks ts) := by
  intro db _ db' hdb h
  obtain ⟨_, rfl, hextends⟩ := insertTracks_extends h
  exact hdb.of_tracks (hextends.unique hdb.uniqueTracks) (hasTrack_of_extends hextends)

theorem keeps_insertSources (sources : List (ℤ × String)) :
    Keeps (SatisfiesSchema (ρ := ρ)) (insertSources sources) := by
  intro db _ db' hdb h
  obtain ⟨_, rfl, hextends, hrefer⟩ := insertSources_extends h
  exact { hdb with
    uniqueSources := hextends.unique hdb.uniqueSources
    sources := hdb.sources.of_fresh hextends hrefer }

theorem keeps_insertListen (trackId listenedFrom listenedTo : ℤ) :
    Keeps (SatisfiesSchema (ρ := ρ)) (insertListen trackId listenedFrom listenedTo) := by
  intro db _ db' hdb h
  obtain ⟨_, rfl, hextends, hrefer⟩ := insertListen_extends h
  exact { hdb with listens := hdb.listens.of_fresh hextends hrefer }

theorem keeps_insertTag (name : String) : Keeps (SatisfiesSchema (ρ := ρ)) (insertTag name) := by
  intro db _ db' hdb h
  obtain ⟨_, rfl, hextends⟩ := insertTag_extends h
  refine hdb.of_tags (hextends.unique hdb.uniqueTags) ?_
  rintro _ ⟨row, hrow, rfl⟩
  exact ⟨row, hextends.mem hrow, rfl⟩

theorem keeps_insertAssignments (pairs : List (ℤ × ℤ)) :
    Keeps (SatisfiesSchema (ρ := ρ)) (insertAssignments pairs) := by
  intro db _ db' hdb h
  obtain ⟨_, rfl, hextends, hrefer⟩ := insertAssignments_extends h
  exact { hdb with
    uniqueAssignments := hextends.unique hdb.uniqueAssignments
    assignedTracks := hdb.assignedTracks.of_fresh hextends fun row hrow hlt =>
      (hrefer row hrow hlt).1
    assignedTags := hdb.assignedTags.of_fresh hextends fun row hrow hlt => (hrefer row hrow hlt).2 }

theorem keeps_insertMeta (trackId : ℤ) (key value : String) :
    Keeps (SatisfiesSchema (ρ := ρ)) (insertMeta trackId key value) := by
  intro db _ db' hdb h
  obtain ⟨_, rfl, hextends, hrefer⟩ := insertMeta_extends h
  exact { hdb with metas := hdb.metas.of_fresh hextends hrefer }

theorem keeps_insertConflict (c : NewTrackConflict ρ) (sameTrackId : ℤ) :
    Keeps SatisfiesSchema (insertConflict c sameTrackId) := by
  intro db _ db' hdb h
  obtain ⟨_, rfl, hextends, hrefer⟩ := insertConflict_extends h
  exact { hdb with conflicts := hdb.conflicts.of_fresh hextends hrefer }

theorem keeps_updateTrack (id : ℤ) (u : TrackUpdate ρ) :
    Keeps SatisfiesSchema (Database.updateTrack id u) := by
  intro db _ db' hdb h
  unfold Database.updateTrack at h
  split at h
  · cases h
  · case isFalse hclashes =>
    obtain ⟨-, rfl⟩ := Prod.mk.inj (Except.ok.inj h)
    exact hdb.of_tracks (updateTrack_unique hdb hclashes _) fun _ hid => hasTrack_map hid

theorem keeps_updateTag (id : ℤ) (name : String) :
    Keeps (SatisfiesSchema (ρ := ρ)) (Database.updateTag id name) := by
  intro db _ db' hdb h
  unfold Database.updateTag at h
  split at h
  · cases h
  · case isFalse hnone =>
    obtain ⟨-, rfl⟩ := Prod.mk.inj (Except.ok.inj h)
    refine hdb.of_tags (updateTag_unique hdb hnone _) ?_
    rintro _ ⟨row, hrow, rfl⟩
    refine ⟨_, List.mem_map_of_mem hrow, ?_⟩
    split <;> rfl

theorem keeps_updateMeta (id : ℤ) (value : String) :
    Keeps (SatisfiesSchema (ρ := ρ)) (Database.updateMeta id value) := by
  intro db _ db' hdb h
  obtain ⟨-, rfl⟩ := Prod.mk.inj (Except.ok.inj h)
  refine { hdb with metas := fun row hrow => ?_ }
  obtain ⟨old, hold, rfl⟩ := List.mem_map.mp hrow
  split
  · exact hdb.metas old hold
  · exact hdb.metas old hold

/-- A deletion takes everything with it that refers to the track. -/
theorem keeps_deleteTrack (id : ℤ) :
    Keeps (SatisfiesSchema (ρ := ρ)) (Database.deleteTrack id) := by
  intro db _ db' hdb h
  unfold Database.deleteTrack at h
  split at h
  · obtain ⟨-, rfl⟩ := Prod.mk.inj (Except.ok.inj h)
    -- a row that is left refers to another track, which is left, too
    have hleft : ∀ {β : Type} {rows : List β} {ref : β → ℤ}, Refer rows ref db.HasTrack →
        ∀ row ∈ rows.filter (fun row => ref row ≠ id),
          ∃ track ∈ db.trackInfo.rows.filter (fun row => row.id ≠ id), track.id = ref row := by
      intro β rows ref hrefer row hrow
      obtain ⟨hmem, hne⟩ := List.mem_filter.mp hrow
      obtain ⟨track, htrack, hid⟩ := hrefer row hmem
      refine ⟨track, List.mem_filter.mpr ⟨htrack, decide_eq_true ?_⟩, hid⟩
      rw [hid]
      exact of_decide_eq_true hne
    exact {
      uniqueTracks := SqlTable.unique_filter hdb.uniqueTracks _
      uniqueSources := SqlTable.unique_filter hdb.uniqueSources _
      uniqueTags := hdb.uniqueTags
      uniqueAssignments := SqlTable.unique_filter hdb.uniqueAssignments _
      uniqueDays := SqlTable.unique_filter hdb.uniqueDays _
      sources := hleft hdb.sources
      listens := hleft hdb.listens
      assignedTracks := hleft hdb.assignedTracks
      assignedTags := fun row hrow => hdb.assignedTags row (List.mem_of_mem_filter hrow)
      metas := hleft hdb.metas
      conflicts := hleft hdb.conflicts
      days := hleft hdb.days }
  · obtain ⟨-, rfl⟩ := Prod.mk.inj (Except.ok.inj h)
    exact hdb

theorem keeps_deleteTag (id : ℤ) : Keeps (SatisfiesSchema (ρ := ρ)) (Database.deleteTag id) := by
  intro db _ db' hdb h
  unfold Database.deleteTag at h
  split at h
  · obtain ⟨-, rfl⟩ := Prod.mk.inj (Except.ok.inj h)
    refine { hdb with
      uniqueTags := SqlTable.unique_filter hdb.uniqueTags _
      uniqueAssignments := SqlTable.unique_filter hdb.uniqueAssignments _
      assignedTracks := fun row hrow => hdb.assignedTracks row (List.mem_of_mem_filter hrow)
      assignedTags := fun row hrow => ?_ }
    obtain ⟨hmem, hne⟩ := List.mem_filter.mp hrow
    obtain ⟨tag, htag, hid⟩ := hdb.assignedTags row hmem
    refine ⟨tag, List.mem_filter.mpr ⟨htag, decide_eq_true ?_⟩, hid⟩
    rw [hid]
    exact of_decide_eq_true hne
  · obtain ⟨-, rfl⟩ := Prod.mk.inj (Except.ok.inj h)
    exact hdb

theorem keeps_deleteAssignment (trackId tagId : ℤ) :
    Keeps (SatisfiesSchema (ρ := ρ)) (deleteAssignment trackId tagId) := by
  intro db _ db' hdb h
  obtain ⟨-, rfl⟩ := Prod.mk.inj (Except.ok.inj h)
  exact { hdb with
    uniqueAssignments := SqlTable.unique_filter hdb.uniqueAssignments _
    assignedTracks := fun row hrow => hdb.assignedTracks row (List.mem_of_mem_filter hrow)
    assignedTags := fun row hrow => hdb.assignedTags row (List.mem_of_mem_filter hrow) }

theorem keeps_deleteMeta (id : ℤ) :
    Keeps (SatisfiesSchema (ρ := ρ)) (Database.deleteMeta id) := by
  intro db _ db' hdb h
  obtain ⟨-, rfl⟩ := Prod.mk.inj (Except.ok.inj h)
  exact { hdb with metas := fun row hrow => hdb.metas row (List.mem_of_mem_filter hrow) }

theorem keeps_deleteSource (trackId : ℤ) (url : String) :
    Keeps (SatisfiesSchema (ρ := ρ)) (deleteSource trackId url) := by
  intro db _ db' hdb h
  obtain ⟨-, rfl⟩ := Prod.mk.inj (Except.ok.inj h)
  exact { hdb with
    uniqueSources := SqlTable.unique_filter hdb.uniqueSources _
    sources := fun row hrow => hdb.sources row (List.mem_of_mem_filter hrow) }

theorem keeps_addListened (beyond : Cell ρ → Cell ρ → Cell ρ) (id seconds : ℤ) :
    Keeps SatisfiesSchema (addListened beyond id seconds) := by
  intro db _ db' hdb h
  obtain ⟨-, rfl⟩ := Prod.mk.inj (Except.ok.inj h)
  refine hdb.of_tracks (SqlTable.unique_map _ fun row hrow row' hrow' hcolumns => ?_) fun _ hid =>
    hasTrack_map hid
  have hsame : ∀ row : TrackInfo ρ, ((credit beyond id seconds row).artist,
      (credit beyond id seconds row).trackName) = (row.artist, row.trackName) := by
    intro row
    unfold credit
    split <;> rfl
  rw [hsame, hsame] at hcolumns
  exact congrArg TrackInfo.id (List.inj_on_of_nodup_map hdb.uniqueTracks hrow hrow' hcolumns)

theorem keeps_upsertDaily (beyond : Cell ρ → Cell ρ → Cell ρ) (date : String)
    (trackId seconds : ℤ) :
    Keeps SatisfiesSchema (upsertDaily beyond date trackId seconds) := by
  intro db _ db' hdb h
  obtain ⟨listenedDaily, rfl⟩ := upsertDaily_changes h
  obtain ⟨-, ⟨-, hrows⟩ | ⟨hnone, htrack, id, hrows⟩⟩ := upsertDaily_cases h
  · refine { hdb with uniqueDays := ?_, days := fun row hrow => ?_ }
    · rw [hrows, ListeningLedger.map_key_countOn]
      exact hdb.uniqueDays
    · rw [hrows] at hrow
      obtain ⟨old, hold, rfl⟩ := List.mem_map.mp hrow
      rw [(ListeningLedger.countOn_key old).2]
      exact hdb.days old hold
  · refine { hdb with uniqueDays := ?_, days := fun row hrow => ?_ }
    · rw [hrows, List.map_append, List.map_singleton, ← List.concat_eq_append]
      refine hdb.uniqueDays.concat fun hmem => ?_
      obtain ⟨row, hrow, hkey⟩ := List.mem_map.mp hmem
      exact hnone row hrow (Prod.mk.inj hkey)
    · rw [hrows] at hrow
      rcases List.mem_append.mp hrow with hold | hnew
      · exact hdb.days row hold
      · rw [List.mem_singleton.mp hnew]
        exact htrack

end Integrity

namespace Database

variable {ρ α : Type} {db db' : Database ρ}

/-! ## Statements keep the past -/

theorem History.refl (db : Database ρ) : History db db where
  tracks := .refl (fun _ => trivial) _
  sources := .refl (fun _ => rfl) _
  listens := .refl (fun _ => rfl) _
  tags := .refl (fun _ => trivial) _
  assignments := .refl (fun _ => rfl) _
  metas := .refl (fun _ => ⟨rfl, rfl⟩) _
  conflicts := .refl (fun _ => rfl) _
  days := .refl (fun _ => ⟨rfl, rfl⟩) _
  errors := .refl _
  removed := .refl _

theorem History.trans {db'' : Database ρ} (h : History db db') (h' : History db' db'') :
    History db db'' where
  tracks := h.tracks.trans (fun _ _ _ _ _ => trivial) h'.tracks
  sources := h.sources.trans (fun _ _ _ => Eq.trans) h'.sources
  listens := h.listens.trans (fun _ _ _ => Eq.trans) h'.listens
  tags := h.tags.trans (fun _ _ _ _ _ => trivial) h'.tags
  assignments := h.assignments.trans (fun _ _ _ => Eq.trans) h'.assignments
  metas := h.metas.trans (fun _ _ _ h h' => ⟨h.1.trans h'.1, h.2.trans h'.2⟩) h'.metas
  conflicts := h.conflicts.trans (fun _ _ _ => Eq.trans) h'.conflicts
  days := h.days.trans (fun _ _ _ h h' => ⟨h.1.trans h'.1, h.2.trans h'.2⟩) h'.days
  errors := h.errors.trans h'.errors
  removed := h.removed.trans h'.removed

/-- A statement that keeps the past of the tables before it keeps that of all tables before. -/
theorem keeps_history {statement : Database ρ → Except SqlxError (α × Database ρ)}
    (h : ∀ db a db', statement db = .ok (a, db') → History db db') (db₀ : Database ρ) :
    Keeps (History db₀) statement :=
  fun db a db' hdb hrun => hdb.trans (h db a db' hrun)

theorem History.updateTrack {id : ℤ} {update : TrackUpdate ρ} {u : Unit}
    (h : Database.updateTrack id update db = .ok (u, db')) : History db db' := by
  unfold Database.updateTrack at h
  split at h
  · cases h
  · obtain ⟨-, rfl⟩ := Prod.mk.inj (Except.ok.inj h)
    exact { History.refl db with tracks := .map (fun row => by split <;> rfl) (fun _ => trivial) _ }

theorem History.updateTag {id : ℤ} {name : String} {u : Unit}
    (h : Database.updateTag id name db = .ok (u, db')) : History db db' := by
  unfold Database.updateTag at h
  split at h
  · cases h
  · obtain ⟨-, rfl⟩ := Prod.mk.inj (Except.ok.inj h)
    exact { History.refl db with tags := .map (fun row => by split <;> rfl) (fun _ => trivial) _ }

theorem History.updateMeta {id : ℤ} {value : String} {u : Unit}
    (h : Database.updateMeta id value db = .ok (u, db')) : History db db' := by
  obtain ⟨-, rfl⟩ := Prod.mk.inj (Except.ok.inj h)
  refine { History.refl db with metas := .map (fun row => by split <;> rfl) (fun row => ?_) _ }
  split <;> exact ⟨rfl, rfl⟩

theorem History.deleteTrack {id : ℤ} {u : Unit}
    (h : Database.deleteTrack id db = .ok (u, db')) : History db db' := by
  unfold Database.deleteTrack at h
  split at h
  · obtain ⟨-, rfl⟩ := Prod.mk.inj (Except.ok.inj h)
    exact { History.refl db with
      tracks := .filter (fun _ => trivial) _ _
      sources := .filter (fun _ => rfl) _ _
      listens := .filter (fun _ => rfl) _ _
      assignments := .filter (fun _ => rfl) _ _
      metas := .filter (fun _ => ⟨rfl, rfl⟩) _ _
      conflicts := .filter (fun _ => rfl) _ _
      days := .filter (fun _ => ⟨rfl, rfl⟩) _ _ }
  · obtain ⟨-, rfl⟩ := Prod.mk.inj (Except.ok.inj h)
    exact .refl db

theorem History.deleteTag {id : ℤ} {u : Unit}
    (h : Database.deleteTag id db = .ok (u, db')) : History db db' := by
  unfold Database.deleteTag at h
  split at h
  · obtain ⟨-, rfl⟩ := Prod.mk.inj (Except.ok.inj h)
    exact { History.refl db with
      tags := .filter (fun _ => trivial) _ _
      assignments := .filter (fun _ => rfl) _ _ }
  · obtain ⟨-, rfl⟩ := Prod.mk.inj (Except.ok.inj h)
    exact .refl db

/-- Where a day has a row, a key is lost. -/
theorem History.upsertDaily {beyond : Cell ρ → Cell ρ → Cell ρ} {date : String}
    {trackId seconds : ℤ} {u : Unit}
    (h : Database.upsertDaily beyond date trackId seconds db = .ok (u, db')) :
    History db db' := by
  unfold Database.upsertDaily at h
  split at h
  · split at h
    · case h_1 table hskip =>
      obtain ⟨-, rfl⟩ := Prod.mk.inj (Except.ok.inj h)
      have hextends : db.listenedDaily.Extends ListenedDaily.id table := .skip hskip
      refine { History.refl db with days := ?_ }
      refine (SqlTable.Evolves.of_extends (fun _ => ⟨rfl, rfl⟩) hextends).trans ?_
        (.map (countOn_id _ _ _ _) (fun row => ?_) _)
      · exact fun _ _ _ h h' => ⟨h.1.trans h'.1, h.2.trans h'.2⟩
      · have hkey : (countOn beyond date trackId seconds row).date = row.date ∧
            (countOn beyond date trackId seconds row).trackId = row.trackId :=
          ListeningLedger.countOn_key row
        exact ⟨hkey.1.symm, hkey.2.symm⟩
    · cases h
  · obtain ⟨table, htable, h⟩ := ok_of_bind h
    split at h
    · obtain ⟨-, rfl⟩ := Prod.mk.inj (Except.ok.inj h)
      exact { History.refl db with
        days := .of_extends (fun _ => ⟨rfl, rfl⟩) (extends_of_insertInto_key htable) }
    · cases h

end Database

namespace Integrity

open Program Repository Database

variable {ρ α : Type} {db db' : Database ρ}

/-! ## All operations -/

/-- A property that is kept by all statements. -/
structure KeptByAll (I : Database ρ → Prop) : Prop extends KeptByStatements I where
  addListened (beyond : Cell ρ → Cell ρ → Cell ρ) (id seconds : ℤ) :
    Keeps I (Database.addListened beyond id seconds)
  upsertDaily (beyond : Cell ρ → Cell ρ → Cell ρ) (date : String) (trackId seconds : ℤ) :
    Keeps I (Database.upsertDaily beyond date trackId seconds)

/-- **What every statement keeps, every call keeps**, however it ends. -/
theorem KeptByAll.turn {I : Database ρ → Prop} (hI : KeptByAll I) (env : Environment ρ)
    (t : Turn ρ) (hdb : I db) : I (turn env db t) := by
  have hcall : Preserves I (t.call.run env) := by
    by_cases hcount : ∃ date trackId seconds, t.call = .addListenedSeconds date trackId seconds
    · obtain ⟨date, trackId, seconds, hcount⟩ := hcount
      rw [hcount]
      refine Triple.scope ((hI.tryLog Triple.beginTx).bind fun _ => ?_)
      refine (hI.tryLog (Triple.execute (hI.addListened env.beyond trackId seconds))).bind
        fun _ => ?_
      refine (hI.tryLog (Triple.execute (hI.upsertDaily env.beyond date trackId seconds))).bind
        fun _ => ?_
      exact hI.tryLog (Triple.commit fun _ => id)
    · exact hI.preserves env t.call fun date trackId seconds h =>
        hcount ⟨date, trackId, seconds, h⟩
  exact hcall.final (s := ⟨db, none, t.faults⟩) hdb

/-- Whatever every statement keeps, runs keep. -/
theorem KeptByAll.run {I : Database ρ → Prop} (hI : KeptByAll I) {env : Environment ρ}
    {turns : List (Turn ρ)} (hdb : I db) (hrun : (repository env).run db turns = some db') :
    I db' := by
  refine StateMachine.run_induction (M := repository env) (P := fun _ db => I db) hdb ?_ hrun
  intro _ db₁ t db₂ _ ih hstep
  obtain rfl : Repository.turn env db₁ t = db₂ := Option.some.inj hstep
  exact hI.turn env t ih

theorem keptByAll_schema : KeptByAll (SatisfiesSchema : Database ρ → Prop) where
  insertTracks := keeps_insertTracks
  insertSources := keeps_insertSources
  insertListen := keeps_insertListen
  insertTag := keeps_insertTag
  insertAssignments := keeps_insertAssignments
  insertMeta := keeps_insertMeta
  insertError _ _ _ _ hdb h := by
    obtain ⟨_, rfl, -⟩ := insertError_changes h
    exact { hdb with }
  insertConflict := keeps_insertConflict
  insertRemoved _ _ _ _ hdb h := by
    obtain ⟨_, rfl⟩ := insertRemoved_changes h
    exact { hdb with }
  updateTrack := keeps_updateTrack
  updateTag := keeps_updateTag
  updateMeta := keeps_updateMeta
  deleteTrack := keeps_deleteTrack
  deleteTag := keeps_deleteTag
  deleteAssignment := keeps_deleteAssignment
  deleteMeta := keeps_deleteMeta
  deleteSource := keeps_deleteSource
  addListened := keeps_addListened
  upsertDaily := keeps_upsertDaily

theorem keptByAll_history (db₀ : Database ρ) : KeptByAll (History db₀) where
  insertTracks _ := keeps_history (fun db _ _ h => by
    obtain ⟨_, rfl, hextends⟩ := insertTracks_extends h
    exact { History.refl db with tracks := .of_extends (fun _ => trivial) hextends }) db₀
  insertSources _ := keeps_history (fun db _ _ h => by
    obtain ⟨_, rfl, hextends, -⟩ := insertSources_extends h
    exact { History.refl db with sources := .of_extends (fun _ => rfl) hextends }) db₀
  insertListen _ _ _ := keeps_history (fun db _ _ h => by
    obtain ⟨_, rfl, hextends, -⟩ := insertListen_extends h
    exact { History.refl db with listens := .of_extends (fun _ => rfl) hextends }) db₀
  insertTag _ := keeps_history (fun db _ _ h => by
    obtain ⟨_, rfl, hextends⟩ := insertTag_extends h
    exact { History.refl db with tags := .of_extends (fun _ => trivial) hextends }) db₀
  insertAssignments _ := keeps_history (fun db _ _ h => by
    obtain ⟨_, rfl, hextends, -⟩ := insertAssignments_extends h
    exact { History.refl db with assignments := .of_extends (fun _ => rfl) hextends }) db₀
  insertMeta _ _ _ := keeps_history (fun db _ _ h => by
    obtain ⟨_, rfl, hextends, -⟩ := insertMeta_extends h
    exact { History.refl db with metas := .of_extends (fun _ => ⟨rfl, rfl⟩) hextends }) db₀
  insertError _ := keeps_history (fun db _ _ h => by
    obtain ⟨_, rfl, hextends⟩ := insertError_extends h
    exact { History.refl db with errors := hextends }) db₀
  insertConflict _ _ := keeps_history (fun db _ _ h => by
    obtain ⟨_, rfl, hextends, -⟩ := insertConflict_extends h
    exact { History.refl db with conflicts := .of_extends (fun _ => rfl) hextends }) db₀
  insertRemoved _ := keeps_history (fun db _ _ h => by
    obtain ⟨_, rfl, hextends⟩ := insertRemoved_extends h
    exact { History.refl db with removed := hextends }) db₀
  updateTrack _ _ := keeps_history (fun _ _ _ => .updateTrack) db₀
  updateTag _ _ := keeps_history (fun _ _ _ => .updateTag) db₀
  updateMeta _ _ := keeps_history (fun _ _ _ => .updateMeta) db₀
  deleteTrack _ := keeps_history (fun _ _ _ => .deleteTrack) db₀
  deleteTag _ := keeps_history (fun _ _ _ => .deleteTag) db₀
  deleteAssignment _ _ := keeps_history (fun db _ _ h => by
    obtain ⟨-, rfl⟩ := Prod.mk.inj (Except.ok.inj h)
    exact { History.refl db with assignments := .filter (fun _ => rfl) _ _ }) db₀
  deleteMeta _ := keeps_history (fun db _ _ h => by
    obtain ⟨-, rfl⟩ := Prod.mk.inj (Except.ok.inj h)
    exact { History.refl db with metas := .filter (fun _ => ⟨rfl, rfl⟩) _ _ }) db₀
  deleteSource _ _ := keeps_history (fun db _ _ h => by
    obtain ⟨-, rfl⟩ := Prod.mk.inj (Except.ok.inj h)
    exact { History.refl db with sources := .filter (fun _ => rfl) _ _ }) db₀
  addListened _ _ _ := keeps_history (fun db _ _ h => by
    obtain ⟨-, rfl⟩ := Prod.mk.inj (Except.ok.inj h)
    exact { History.refl db with tracks := .map (credit_id _ _ _) (fun _ => trivial) _ }) db₀
  upsertDaily _ _ _ _ := keeps_history (fun _ _ _ => .upsertDaily) db₀

/-! ## Runs -/

/-- A track is added, tagged and listened to. -/
def tagged : List (Turn ℤ) :=
  [⟨.addTrack ⟨"Chopin", "Nocturne", some 270, none, none, "2024", ["nocturne.mp3"]⟩, []⟩,
    ⟨.addTag "calm", []⟩, ⟨.assignTag 1 1, []⟩, ⟨.addListenedSeconds "01-01-2024" 1 30, []⟩]

/-- The tag is deleted, at the second attempt, and added again. -/
def untagged : List (Turn ℤ) := [⟨.deleteTag 1, [some (.io "disk")]⟩, ⟨.deleteTag 1, []⟩]

/-- The tables after some calls. -/
def after (turns : List (Turn ℤ)) : Database ℤ :=
  turns.foldl (turn plainEnvironment) Database.empty

theorem run_foldl (db : Database ℤ) (turns : List (Turn ℤ)) :
    (repository plainEnvironment).run db turns =
      some (turns.foldl (turn plainEnvironment) db) := by
  induction turns generalizing db with
  | nil => rfl
  | cons t turns ih => exact ih (turn plainEnvironment db t)

/-- **The schema is kept** by any calls, with any failures, on the database of a new
installation. -/
theorem satisfiesSchema_reachable {env : Environment ρ} (h : (repository env).Reachable db) :
    SatisfiesSchema db := by
  obtain ⟨turns, hrun⟩ := h
  exact keptByAll_schema.run satisfiesSchema_empty hrun

theorem satisfiesSchema_tagged :
    (after (tagged ++ untagged)).listenedDaily.rows = [⟨1, "01-01-2024", 1, .integer 30⟩] ∧
      (after (tagged ++ untagged)).tagAssignments.rows = [] ∧
      SatisfiesSchema (after (tagged ++ untagged)) :=
  ⟨by decide, by decide, satisfiesSchema_reachable ⟨_, run_foldl Database.empty _⟩⟩

/-- **The past is kept** by any calls, with any failures: what no statement changes is never
changed, and neither an error nor an archive is lost. -/
theorem history_of_run {env : Environment ρ} {turns : List (Turn ρ)}
    (hrun : (repository env).run db turns = some db') : History db db' :=
  (keptByAll_history db).run (.refl db) hrun

theorem history_of_run_tagged : History (after tagged) (after (tagged ++ untagged)) := by
  have hrun : (repository plainEnvironment).run (after tagged) untagged =
      some (after (tagged ++ untagged)) := by
    rw [run_foldl, after, after, List.foldl_append]
  exact history_of_run hrun

/-- The tables. -/
inductive Table : Type where
  | trackInfo | trackSources | listenInfo | tags | tagAssignments | trackMeta | errors
  | trackAddConflicts | listenedDaily | removedTracks
  deriving DecidableEq

/-- The keys in a table. -/
def keysOf (db : Database ρ) : Table → List ℤ
  | .trackInfo => db.trackInfo.keys
  | .trackSources => db.trackSources.keys
  | .listenInfo => db.listenInfo.keys
  | .tags => db.tags.keys
  | .tagAssignments => db.tagAssignments.keys
  | .trackMeta => db.trackMeta.keys
  | .errors => db.errors.keys
  | .trackAddConflicts => db.trackAddConflicts.keys
  | .listenedDaily => db.listenedDaily.keys
  | .removedTracks => db.removedTracks.keys

/-- What is deleted from a table does not come back. -/
theorem key_gone {α : Type} {key : α → ℤ} {R : α → α → Prop} {t t₁ t₂ : SqlTable α key}
    (h : t.seq ≤ t₁.seq) (h' : t₁.Evolves R t₂) {n : ℤ} (hn : n ∈ t.keys) (hgone : n ∉ t₁.keys) :
    n ∉ t₂.keys :=
  h'.not_mem_keys (Int.le_trans (SqlTable.le_seq_of_mem_keys hn) h) hgone

/-- **A key is used once**, in each table: whatever is called after its row is deleted, it is
not given to another one. -/
theorem key_used_once {env : Environment ρ} {turns turns' : List (Turn ρ)} {db₁ db₂ : Database ρ}
    (hrun : (repository env).run db turns = some db₁)
    (hrun' : (repository env).run db₁ turns' = some db₂) (table : Table) {n : ℤ}
    (hn : n ∈ keysOf db table) (hgone : n ∉ keysOf db₁ table) : n ∉ keysOf db₂ table := by
  have h := (keptByAll_history db).run (.refl db) hrun
  have h' := (keptByAll_history db₁).run (.refl db₁) hrun'
  cases table with
  | trackInfo => exact key_gone h.tracks.seq_le h'.tracks hn hgone
  | trackSources => exact key_gone h.sources.seq_le h'.sources hn hgone
  | listenInfo => exact key_gone h.listens.seq_le h'.listens hn hgone
  | tags => exact key_gone h.tags.seq_le h'.tags hn hgone
  | tagAssignments => exact key_gone h.assignments.seq_le h'.assignments hn hgone
  | trackMeta => exact key_gone h.metas.seq_le h'.metas hn hgone
  | errors =>
    exact key_gone h.errors.seq_le (.of_extends (fun _ => rfl) h'.errors (R := Eq)) hn hgone
  | trackAddConflicts => exact key_gone h.conflicts.seq_le h'.conflicts hn hgone
  | listenedDaily => exact key_gone h.days.seq_le h'.days hn hgone
  | removedTracks =>
    exact key_gone h.removed.seq_le (.of_extends (fun _ => rfl) h'.removed (R := Eq)) hn hgone

theorem key_used_once_tagged :
    1 ∈ keysOf (after tagged) .tags ∧ 1 ∉ keysOf (untagged.foldl (turn plainEnvironment)
      (after tagged)) .tags ∧
      1 ∉ keysOf (tagged.foldl (turn plainEnvironment) (untagged.foldl (turn plainEnvironment)
        (after tagged))) .tags :=
  ⟨by decide, by decide, key_used_once (run_foldl _ untagged) (run_foldl _ tagged) .tags
    (by decide) (by decide)⟩

end Integrity

end Vamp
