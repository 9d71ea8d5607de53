import Vamp.AddTracks
import Vamp.Integrity
import Vamp.TagUnion

/-!
# What is kept of a track

The record of a track is what the tables hold under its key. Most calls are about other
tracks, or about none: `Call.Concerns` says of each call when it is about this one. A call
that is not leaves the record alone, however it ends, also if it adds tracks or deletes
others (`record_kept_of_run`).

What `add_tracks` returns are keys of records that hold what was asked for. So whatever is
called in between, as long as it concerns no such track, that is what is found
(`found_as_added`).
-/

namespace Vamp

variable {ρ : Type}

/-- What the tables hold of a track. -/
structure Record (ρ : Type) : Type where
  /-- the row of the track, if it is there -/
  info : List (TrackInfo ρ)
  /-- where it is -/
  sources : List TrackSource
  /-- when it was listened to -/
  listens : List ListenInfo
  /-- its tags -/
  assignments : List TagAssigned
  /-- what is said about it -/
  metas : List TrackMeta
  /-- tracks that were not added because of it -/
  conflicts : List (TrackAddConflict ρ)
  /-- how long it was listened to, day by day -/
  days : List (ListenedDaily ρ)

/-- The rows that refer to a track. -/
def referring {α : Type} (ref : α → ℤ) (n : ℤ) (rows : List α) : List α :=
  rows.filter fun row => ref row = n

section Referring

variable {α : Type} {ref : α → ℤ} {n : ℤ} {rows new : List α}

theorem mem_referring {row : α} : row ∈ referring ref n rows ↔ row ∈ rows ∧ ref row = n := by
  rw [referring, List.mem_filter, decide_eq_true_iff]

theorem referring_append_of_ne (h : ∀ row ∈ new, ref row ≠ n) :
    referring ref n (rows ++ new) = referring ref n rows := by
  have hnew : new.filter (fun row => ref row = n) = [] :=
    List.filter_eq_nil_iff.mpr fun row hrow heq => h row hrow (of_decide_eq_true heq)
  rw [referring, List.filter_append, hnew, List.append_nil, referring]

theorem referring_map {f : α → α} (hf : ∀ row, ref row ≠ n → ref (f row) ≠ n)
    (hid : ∀ row ∈ rows, ref row = n → f row = row) :
    referring ref n (rows.map f) = referring ref n rows := by
  induction rows with
  | nil => rfl
  | cons row rows ih =>
    obtain ⟨hrow, hrows⟩ := List.forall_mem_cons.mp hid
    have hrest := ih hrows
    unfold referring at hrest ⊢
    rw [List.map_cons]
    by_cases href : ref row = n
    · rw [hrow href, List.filter_cons, List.filter_cons, hrest]
    · rw [List.filter_cons, List.filter_cons, decide_eq_false (hf row href), decide_eq_false href,
        hrest]
      rfl

theorem referring_filter {p : α → Bool} (h : ∀ row ∈ rows, ref row = n → p row = true) :
    referring ref n (rows.filter p) = referring ref n rows := by
  rw [referring, List.filter_filter]
  refine List.filter_congr fun row hrow => ?_
  by_cases href : ref row = n
  · rw [h row hrow href, Bool.and_true]
  · rw [decide_eq_false href, Bool.false_and]

end Referring

namespace Database

/-- The record of a track. -/
def record (db : Database ρ) (n : ℤ) : Record ρ where
  info := referring TrackInfo.id n db.trackInfo.rows
  sources := referring TrackSource.trackId n db.trackSources.rows
  listens := referring ListenInfo.trackId n db.listenInfo.rows
  assignments := referring TagAssigned.trackId n db.tagAssignments.rows
  metas := referring TrackMeta.trackId n db.trackMeta.rows
  conflicts := referring TrackAddConflict.sameTrackId n db.trackAddConflicts.rows
  days := referring ListenedDaily.trackId n db.listenedDaily.rows

/-- The tables hold a record under a key that was given out. -/
structure Holds (n : ℤ) (r : Record ρ) (db : Database ρ) : Prop where
  /-- what they hold -/
  record : db.record n = r
  /-- the key is not a new one -/
  le_seq : n ≤ db.trackInfo.seq

/-! ## Statements -/

section Statements

variable {n : ℤ} {r : Record ρ} {db db' : Database ρ}

theorem Holds.tracks (h : Holds n r db) {trackInfo : SqlTable (TrackInfo ρ) TrackInfo.id}
    (hrows : referring TrackInfo.id n trackInfo.rows =
      referring TrackInfo.id n db.trackInfo.rows)
    (hseq : db.trackInfo.seq ≤ trackInfo.seq) : Holds n r { db with trackInfo } :=
  ⟨(congrArg (fun info => { db.record n with info }) hrows).trans h.record,
    Int.le_trans h.le_seq hseq⟩

theorem Holds.sources (h : Holds n r db) {trackSources : SqlTable TrackSource TrackSource.id}
    (hrows : referring TrackSource.trackId n trackSources.rows =
      referring TrackSource.trackId n db.trackSources.rows) :
    Holds n r { db with trackSources } :=
  ⟨(congrArg (fun sources => { db.record n with sources }) hrows).trans h.record, h.le_seq⟩

theorem Holds.listens (h : Holds n r db) {listenInfo : SqlTable ListenInfo ListenInfo.id}
    (hrows : referring ListenInfo.trackId n listenInfo.rows =
      referring ListenInfo.trackId n db.listenInfo.rows) : Holds n r { db with listenInfo } :=
  ⟨(congrArg (fun listens => { db.record n with listens }) hrows).trans h.record, h.le_seq⟩

theorem Holds.assignments (h : Holds n r db)
    {tagAssignments : SqlTable TagAssigned TagAssigned.id}
    (hrows : referring TagAssigned.trackId n tagAssignments.rows =
      referring TagAssigned.trackId n db.tagAssignments.rows) :
    Holds n r { db with tagAssignments } :=
  ⟨(congrArg (fun assignments => { db.record n with assignments }) hrows).trans h.record,
    h.le_seq⟩

theorem Holds.metas (h : Holds n r db) {trackMeta : SqlTable TrackMeta TrackMeta.id}
    (hrows : referring TrackMeta.trackId n trackMeta.rows =
      referring TrackMeta.trackId n db.trackMeta.rows) : Holds n r { db with trackMeta } :=
  ⟨(congrArg (fun metas => { db.record n with metas }) hrows).trans h.record, h.le_seq⟩

theorem Holds.conflicts (h : Holds n r db)
    {trackAddConflicts : SqlTable (TrackAddConflict ρ) TrackAddConflict.id}
    (hrows : referring TrackAddConflict.sameTrackId n trackAddConflicts.rows =
      referring TrackAddConflict.sameTrackId n db.trackAddConflicts.rows) :
    Holds n r { db with trackAddConflicts } :=
  ⟨(congrArg (fun conflicts => { db.record n with conflicts }) hrows).trans h.record, h.le_seq⟩

theorem Holds.days (h : Holds n r db)
    {listenedDaily : SqlTable (ListenedDaily ρ) ListenedDaily.id}
    (hrows : referring ListenedDaily.trackId n listenedDaily.rows =
      referring ListenedDaily.trackId n db.listenedDaily.rows) :
    Holds n r { db with listenedDaily } :=
  ⟨(congrArg (fun days => { db.record n with days }) hrows).trans h.record, h.le_seq⟩

/-- A row that is inserted refers to another track. -/
theorem referring_insertInto {α : Type} {key ref : α → ℤ} {table table' : SqlTable α key}
    {make : ℤ → α} {hmake : ∀ m, key (make m) = m}
    (h : insertInto table make hmake = .ok table') (href : ∀ m, ref (make m) ≠ n) :
    referring ref n table'.rows = referring ref n table.rows := by
  rw [(insertInto_eq_ok h).1]
  refine referring_append_of_ne fun row hrow => ?_
  rw [List.mem_singleton.mp hrow]
  exact href _

/-- The tracks that are inserted get other keys. -/
theorem keeps_holds_insertTracks (ts : List (NewTrack ρ)) :
    Keeps (Holds n r) (insertTracks ts) := by
  intro db lastId db' hdb h
  obtain ⟨trackInfo, hfold, -, rfl⟩ := Repository.insertTracks_eq_ok.mp h
  obtain ⟨hseq, hrows⟩ := Repository.foldlM_trackInfoStep hfold
  refine hdb.tracks ?_ (by omega)
  rw [hrows]
  refine referring_append_of_ne fun row hrow => ?_
  obtain ⟨⟨t, m⟩, hpair, rfl⟩ := List.mem_map.mp hrow
  obtain ⟨i, -, rfl⟩ := List.mem_map.mp (List.of_mem_zip hpair).2
  have hle := hdb.le_seq
  change db.trackInfo.seq + 1 + (i : ℤ) ≠ n
  omega

/-- The sources that are inserted are those of other tracks. -/
theorem keeps_holds_insertSources {sources : List (ℤ × String)}
    (hother : ∀ source ∈ sources, source.1 ≠ n) :
    Keeps (Holds (ρ := ρ) n r) (insertSources sources) := by
  intro db lastId db' hdb h
  obtain ⟨db₁, hfold, h⟩ := ok_of_bind h
  rw [Repository.foldlM_insertSource] at hfold
  obtain ⟨trackSources, hsources, rfl⟩ := ok_map_iff.mp hfold
  obtain ⟨rows, hrows, hmap⟩ := Repository.foldlM_sourceStep hsources
  split at h
  · obtain ⟨-, rfl⟩ := Prod.mk.inj (Except.ok.inj h)
    refine hdb.sources ?_
    rw [hrows]
    refine referring_append_of_ne fun row hrow => ?_
    have hmem := List.mem_map_of_mem (f := fun row : TrackSource => (row.trackId, row.url)) hrow
    rw [hmap] at hmem
    exact hother _ hmem
  · cases h

theorem keeps_holds_insertListen {trackId listenedFrom listenedTo : ℤ} (hother : trackId ≠ n) :
    Keeps (Holds (ρ := ρ) n r) (insertListen trackId listenedFrom listenedTo) := by
  intro db _ db' hdb h
  obtain ⟨listenInfo, htable, h⟩ := ok_of_bind h
  split at h
  · obtain ⟨-, rfl⟩ := Prod.mk.inj (Except.ok.inj h)
    exact hdb.listens (referring_insertInto htable fun _ => hother)
  · cases h

/-- An assignment that is inserted, or is there, is that of another track. -/
theorem Holds.insertAssignment {pair : ℤ × ℤ} (hdb : Holds n r db) (hother : pair.1 ≠ n)
    (h : db.insertAssignment pair = .ok db') : Holds n r db' := by
  unfold Database.insertAssignment at h
  split at h
  · split at h
    · case h_1 table hskip =>
      obtain rfl := Except.ok.inj h
      exact hdb.assignments (by rw [(SqlTable.skip_eq_some hskip).1])
    · cases h
  · obtain ⟨table, htable, h⟩ := ok_of_bind h
    obtain rfl := Except.ok.inj h
    exact hdb.assignments (referring_insertInto htable fun _ => hother)

theorem Holds.foldlM_insertAssignment {pairs : List (ℤ × ℤ)} (hdb : Holds n r db)
    (hother : ∀ pair ∈ pairs, pair.1 ≠ n)
    (h : pairs.foldlM Database.insertAssignment db = .ok db') : Holds n r db' := by
  induction pairs generalizing db with
  | nil =>
    obtain rfl := Except.ok.inj h
    exact hdb
  | cons pair pairs ih =>
    obtain ⟨hpair, hpairs⟩ := List.forall_mem_cons.mp hother
    rw [List.foldlM_cons] at h
    obtain ⟨db₁, hinsert, hrest⟩ := ok_of_bind h
    exact ih (hdb.insertAssignment hpair hinsert) hpairs hrest

/-- The assignments that are inserted are those of other tracks. -/
theorem keeps_holds_insertAssignments {pairs : List (ℤ × ℤ)}
    (hother : ∀ pair ∈ pairs, pair.1 ≠ n) :
    Keeps (Holds (ρ := ρ) n r) (insertAssignments pairs) := by
  intro db u db' hdb h
  obtain ⟨db₁, hfold, h⟩ := ok_of_bind h
  split at h
  · obtain ⟨-, rfl⟩ := Prod.mk.inj (Except.ok.inj h)
    exact hdb.foldlM_insertAssignment hother hfold
  · cases h

theorem keeps_holds_insertMeta {trackId : ℤ} {key value : String} (hother : trackId ≠ n) :
    Keeps (Holds (ρ := ρ) n r) (insertMeta trackId key value) := by
  intro db _ db' hdb h
  obtain ⟨trackMeta, htable, h⟩ := ok_of_bind h
  split at h
  · obtain ⟨-, rfl⟩ := Prod.mk.inj (Except.ok.inj h)
    exact hdb.metas (referring_insertInto htable fun _ => hother)
  · cases h

theorem keeps_holds_insertConflict {c : NewTrackConflict ρ} {sameTrackId : ℤ}
    (hother : sameTrackId ≠ n) : Keeps (Holds n r) (insertConflict c sameTrackId) := by
  intro db _ db' hdb h
  obtain ⟨trackAddConflicts, htable, h⟩ := ok_of_bind h
  split at h
  · obtain ⟨-, rfl⟩ := Prod.mk.inj (Except.ok.inj h)
    exact hdb.conflicts (referring_insertInto htable fun _ => hother)
  · cases h

theorem keeps_holds_insertTag (name : String) :
    Keeps (Holds (ρ := ρ) n r) (insertTag name) := by
  intro db _ db' hdb h
  obtain ⟨tags, rfl, -⟩ := insertTag_changes h
  exact ⟨hdb.record, hdb.le_seq⟩

theorem keeps_holds_insertError (errorText : String) :
    Keeps (Holds (ρ := ρ) n r) (insertError errorText) :=
  Repository.keeps_insertError (fun _ _ hdb => ⟨hdb.record, hdb.le_seq⟩) errorText

theorem keeps_holds_insertRemoved (data : String) :
    Keeps (Holds (ρ := ρ) n r) (insertRemoved data) := by
  intro db u db' hdb h
  obtain ⟨removedTracks, rfl⟩ := insertRemoved_changes h
  exact ⟨hdb.record, hdb.le_seq⟩

theorem keeps_holds_updateTrack {trackId : ℤ} {u : TrackUpdate ρ} (hother : trackId ≠ n) :
    Keeps (Holds n r) (updateTrack trackId u) := by
  intro db _ db' hdb h
  unfold updateTrack at h
  split at h
  · cases h
  · obtain ⟨-, rfl⟩ := Prod.mk.inj (Except.ok.inj h)
    refine hdb.tracks (referring_map (fun row hrow => ?_) fun row _ hrow => ?_) (Int.le_refl _)
    · split
      · exact hrow
      · exact hrow
    · exact if_neg fun heq => hother (heq.symm.trans hrow)

theorem keeps_holds_updateTag (tagId : ℤ) (name : String) :
    Keeps (Holds (ρ := ρ) n r) (updateTag tagId name) := by
  intro db u db' hdb h
  obtain ⟨tags, rfl, -⟩ := updateTag_changes h
  exact ⟨hdb.record, hdb.le_seq⟩

/-- Metadata of other tracks is changed. -/
theorem keeps_holds_updateMeta {metaId : ℤ} {value : String}
    (hother : ∀ row ∈ r.metas, row.id ≠ metaId) :
    Keeps (Holds (ρ := ρ) n r) (updateMeta metaId value) := by
  intro db _ db' hdb h
  obtain ⟨-, rfl⟩ := Prod.mk.inj (Except.ok.inj h)
  refine hdb.metas (referring_map (fun row hrow => ?_) fun row hmem hrow => if_neg ?_)
  · split
    · exact hrow
    · exact hrow
  · refine hother row ?_
    rw [← hdb.record]
    exact mem_referring.mpr ⟨hmem, hrow⟩

/-- Another track is deleted, and what refers to it. -/
theorem keeps_holds_deleteTrack {trackId : ℤ} (hother : trackId ≠ n) :
    Keeps (Holds (ρ := ρ) n r) (deleteTrack trackId) := by
  intro db _ db' hdb h
  have hkeep : ∀ {α : Type} {ref : α → ℤ} {rows : List α},
      referring ref n (rows.filter fun row => ref row ≠ trackId) = referring ref n rows :=
    referring_filter fun row _ hrow => decide_eq_true fun heq => hother (heq.symm.trans hrow)
  unfold deleteTrack at h
  split at h
  · obtain ⟨-, rfl⟩ := Prod.mk.inj (Except.ok.inj h)
    refine ⟨Eq.trans ?_ hdb.record, hdb.le_seq⟩
    simp only [Database.record, SqlTable.rows_filter, hkeep]
  · obtain ⟨-, rfl⟩ := Prod.mk.inj (Except.ok.inj h)
    exact hdb

/-- A tag is deleted that the track does not have. -/
theorem keeps_holds_deleteTag {tagId : ℤ} (hother : ∀ row ∈ r.assignments, row.tagId ≠ tagId) :
    Keeps (Holds (ρ := ρ) n r) (deleteTag tagId) := by
  intro db _ db' hdb h
  unfold deleteTag at h
  split at h
  · obtain ⟨-, rfl⟩ := Prod.mk.inj (Except.ok.inj h)
    have hkeep : referring TagAssigned.trackId n
        (db.tagAssignments.rows.filter fun row => row.tagId ≠ tagId) =
          referring TagAssigned.trackId n db.tagAssignments.rows := by
      refine referring_filter fun row hmem hrow => decide_eq_true (hother row ?_)
      rw [← hdb.record]
      exact mem_referring.mpr ⟨hmem, hrow⟩
    refine ⟨Eq.trans ?_ hdb.record, hdb.le_seq⟩
    simp only [Database.record, SqlTable.rows_filter, hkeep]
  · obtain ⟨-, rfl⟩ := Prod.mk.inj (Except.ok.inj h)
    exact hdb

theorem keeps_holds_deleteAssignment {trackId tagId : ℤ} (hother : trackId ≠ n) :
    Keeps (Holds (ρ := ρ) n r) (deleteAssignment trackId tagId) := by
  intro db _ db' hdb h
  obtain ⟨-, rfl⟩ := Prod.mk.inj (Except.ok.inj h)
  refine hdb.assignments (referring_filter fun row _ hrow => decide_eq_true ?_)
  exact fun heq => hother (heq.1.symm.trans hrow)

/-- Metadata of other tracks is deleted. -/
theorem keeps_holds_deleteMeta {metaId : ℤ} (hother : ∀ row ∈ r.metas, row.id ≠ metaId) :
    Keeps (Holds (ρ := ρ) n r) (deleteMeta metaId) := by
  intro db _ db' hdb h
  obtain ⟨-, rfl⟩ := Prod.mk.inj (Except.ok.inj h)
  refine hdb.metas (referring_filter fun row hmem hrow => decide_eq_true (hother row ?_))
  rw [← hdb.record]
  exact mem_referring.mpr ⟨hmem, hrow⟩

theorem keeps_holds_deleteSource {trackId : ℤ} {url : String} (hother : trackId ≠ n) :
    Keeps (Holds (ρ := ρ) n r) (deleteSource trackId url) := by
  intro db _ db' hdb h
  obtain ⟨-, rfl⟩ := Prod.mk.inj (Except.ok.inj h)
  refine hdb.sources (referring_filter fun row _ hrow => decide_eq_true ?_)
  exact fun heq => hother (heq.1.symm.trans hrow)

theorem keeps_holds_addListened {beyond : Cell ρ → Cell ρ → Cell ρ} {trackId seconds : ℤ}
    (hother : trackId ≠ n) : Keeps (Holds n r) (addListened beyond trackId seconds) := by
  intro db _ db' hdb h
  obtain ⟨-, rfl⟩ := Prod.mk.inj (Except.ok.inj h)
  refine hdb.tracks (referring_map (fun row hrow => ?_) fun row _ hrow => ?_) (Int.le_refl _)
  · rw [credit_id]
    exact hrow
  · exact if_neg fun heq => hother (heq.symm.trans hrow)

theorem keeps_holds_upsertDaily {beyond : Cell ρ → Cell ρ → Cell ρ} {date : String}
    {trackId seconds : ℤ} (hother : trackId ≠ n) :
    Keeps (Holds n r) (upsertDaily beyond date trackId seconds) := by
  intro db _ db' hdb h
  unfold upsertDaily at h
  split at h
  · split at h
    · case h_1 table hskip =>
      obtain ⟨-, rfl⟩ := Prod.mk.inj (Except.ok.inj h)
      refine hdb.days ?_
      rw [SqlTable.rows_map, (SqlTable.skip_eq_some hskip).1]
      refine referring_map (fun row hrow => ?_) fun row _ hrow => ?_
      · unfold countOn
        split
        · exact hrow
        · exact hrow
      · exact if_neg fun heq => hother (heq.2.symm.trans hrow)
    · cases h
  · obtain ⟨table, htable, h⟩ := ok_of_bind h
    split at h
    · obtain ⟨-, rfl⟩ := Prod.mk.inj (Except.ok.inj h)
      exact hdb.days (referring_insertInto htable fun _ => hother)
    · cases h

end Statements

end Database

namespace Repository

open Program Database

variable {α : Type} {n : ℤ} {r : Record ρ} {db db' : Database ρ}

/-! ## Calls -/

/-- A call is about a track, of which there is a record. -/
def Call.Concerns (n : ℤ) (r : Record ρ) : Call ρ → Prop
  | updateTrack trackId _ => trackId = n
  | deleteTrack trackId => trackId = n
  | addListen trackId _ _ => trackId = n
  | deleteTag tagId => ∃ row ∈ r.assignments, row.tagId = tagId
  | assignTag trackId _ => trackId = n
  | assignTags assignments => ∃ a ∈ assignments, a.trackId.toI64 = some n
  | removeTag trackId _ => trackId = n
  | addMeta trackId _ _ => trackId = n
  | updateMeta metaId _ => ∃ row ∈ r.metas, row.id = metaId
  | deleteMeta metaId => ∃ row ∈ r.metas, row.id = metaId
  | addTrackSource trackId _ => trackId = n
  | removeTrackSource trackId _ => trackId = n
  | editTrackSource trackId _ _ => trackId = n
  | addTrackConflict c => c.sameTrackId.toI64 = some n
  | addListenedSeconds _ trackId _ => trackId = n
  | _ => False

theorem holds_tryLog {P : Session (Database ρ) SqlxError → Prop}
    {Q : α → Session (Database ρ) SqlxError → Prop} {context : String} {p : Operation ρ α}
    (hp : Triple P p Q (Committed (Holds n r))) :
    Triple P (tryLog context p) Q (Committed (Holds n r)) :=
  Triple.tryLog keeps_holds_insertError hp

/-- The rule for values that have to be there. -/
theorem triple_orCrash {P : Session (Database ρ) SqlxError → Prop} {I : Database ρ → Prop}
    {a : Option α} (h : ∀ s, P s → Committed I s) :
    Triple P (orCrash a : Operation ρ α) (fun b s => a = some b ∧ P s) (Committed I) := by
  cases a with
  | none => exact Triple.throw h
  | some a => exact Triple.pure fun _ hs => ⟨rfl, hs⟩

/-- The operations that are one statement. -/
theorem holds_execute {context : String}
    {statement : Database ρ → Except SqlxError (α × Database ρ)}
    (h : Keeps (Holds n r) statement) :
    Preserves (Holds n r) (tryLog context (executeOnPool statement)) :=
  holds_tryLog (.executePool h)

/-- The operations that are one query. -/
theorem holds_fetch {context : String} {query : Database ρ → Except SqlxError α} :
    Preserves (Holds n r) (tryLog context (fetchPool query)) :=
  holds_tryLog .fetchPool

/-- The key of a new track is a new one. -/
theorem holds_insertTracks {ts : List (NewTrack ρ)} {lastId : ℤ} (hdb : Holds n r db)
    (h : insertTracks ts db = .ok (lastId, db')) :
    Holds n r db' ∧ ∀ i : ℕ, i < ts.length → lastId - i ≠ n := by
  refine ⟨keeps_holds_insertTracks ts _ _ _ hdb h, fun i hi => ?_⟩
  obtain ⟨trackInfo, hfold, rfl, -⟩ := insertTracks_eq_ok.mp h
  have hseq := (foldlM_trackInfoStep hfold).1
  have hle := hdb.le_seq
  omega

theorem holds_addTrackUnlogged (t : NewTrack ρ) :
    Preserves (Holds n r) (addTrackUnlogged t) := by
  have hinsert (db : Database ρ) (trackId : ℤ) (db' : Database ρ) (hdb : Holds n r db)
      (h : insertTracks [t] db = .ok (trackId, db')) : Holds n r db' ∧ trackId ≠ n := by
    obtain ⟨hdb', hne⟩ := holds_insertTracks hdb h
    refine ⟨hdb', fun heq => hne 0 (Nat.zero_lt_one) ?_⟩
    rw [Int.natCast_zero, Int.sub_zero, heq]
  refine Triple.scope (Triple.beginTx.bind fun _ => ?_)
  refine (Triple.execute hinsert).bind fun trackId => ?_
  refine Triple.bind (Triple.forM fun url _ => ?_) fun _ => ?_
  · refine (Triple.execute fun db _ db' hdb h => ?_).bind fun _ => .pure fun _ => id
    refine ⟨keeps_holds_insertSources (fun source hsource => ?_) _ _ _ hdb.1 h, hdb.2⟩
    rw [List.mem_singleton.mp hsource]
    exact hdb.2
  · exact (Triple.commit fun _ h => h.1).bind fun _ => .pure fun _ => id

/-- The sources that are added are those of the tracks that are added. -/
theorem holds_addTracks (ts : List (NewTrack ρ)) : Preserves (Holds n r) (addTracks ts) := by
  have hinsert (chunk : List (NewTrack ρ)) (db : Database ρ) (lastId : ℤ) (db' : Database ρ) :
      Holds n r db → insertTracks chunk db = .ok (lastId, db') →
        Holds n r db' ∧ ∀ i : ℕ, i < chunk.length → lastId - i ≠ n := holds_insertTracks
  refine Triple.scope ((holds_tryLog Triple.beginTx).bind fun _ => ?_)
  refine (Triple.mapM_forall (R := fun batch => ∀ m ∈ batch, m ≠ n) fun chunk _ => ?_).bind
    fun batches => ?_
  · refine (holds_tryLog (Triple.execute (hinsert chunk))).bind fun lastId => ?_
    rintro s ⟨hs, tx, htx, hdb, hne⟩
    refine ⟨fun m hm => ?_, hs, tx, htx, hdb⟩
    obtain ⟨i, hi, rfl⟩ := List.mem_map.mp hm
    exact hne i (List.mem_range.mp (List.mem_reverse.mp hi))
  · refine Triple.assuming fun hbatches => ?_
    refine Triple.bind (Triple.forM fun chunk hchunk => ?_) fun _ => ?_
    · refine (holds_tryLog (Triple.execute
        (keeps_holds_insertSources fun source hsource => ?_))).bind fun _ => .pure fun _ => id
      have hmem : source ∈ listed ts batches.flatten := by
        rw [← flatten_chunks (by decide : 0 < 500) (listed ts batches.flatten)]
        exact List.mem_flatten.mpr ⟨chunk, hchunk, hsource⟩
      obtain ⟨batch, hbatch, hm⟩ := List.mem_flatten.mp (mem_listed hmem)
      exact hbatches batch hbatch _ hm
    · exact (holds_tryLog (Triple.commit fun _ => id)).bind fun _ => .pure fun _ => id

theorem holds_deleteTrack (env : Environment ρ) {trackId : ℤ} (hother : trackId ≠ n) :
    Preserves (Holds n r) (deleteTrackUnlogged env trackId) := by
  refine Triple.scope (Triple.beginTx.bind fun _ => ?_)
  refine Triple.fetch.bind fun track => Triple.fetch.bind fun sources => ?_
  refine Triple.fetch.bind fun tags => Triple.fetch.bind fun metas => ?_
  refine Triple.fetch.bind fun daily => ?_
  refine (Triple.orCrash fun _ => committed_of_within).bind fun _ => ?_
  refine (Triple.execute (keeps_holds_insertRemoved _)).bind fun _ => ?_
  refine (Triple.execute (keeps_holds_deleteTrack hother)).bind fun _ => ?_
  exact Triple.commit fun _ => id

/-- The pairs are those of the tracks that are given. -/
theorem fst_of_mem_pairs {assignments : List TagAssignment} {pairs : List (List (ℤ × ℤ))}
    (h : assignments.mapM TagAssignment.pairs = some pairs) {pair : ℤ × ℤ}
    (hpair : pair ∈ pairs.flatten) : ∃ a ∈ assignments, a.trackId.toI64 = some pair.1 := by
  induction assignments generalizing pairs with
  | nil =>
    obtain rfl := Option.some.inj h
    cases hpair
  | cons a assignments ih =>
    rw [List.mapM_cons] at h
    obtain ⟨first, hfirst, h⟩ := Option.bind_eq_some_iff.mp h
    obtain ⟨rest, hrest, h⟩ := Option.bind_eq_some_iff.mp h
    obtain rfl := Option.some.inj h
    rw [List.flatten_cons] at hpair
    rcases List.mem_append.mp hpair with hpair | hpair
    · obtain ⟨trackId, htrackId, hfirst⟩ := Option.bind_eq_some_iff.mp hfirst
      obtain ⟨tagIds, -, hfirst⟩ := Option.bind_eq_some_iff.mp hfirst
      obtain rfl := Option.some.inj hfirst
      obtain ⟨tagId, -, rfl⟩ := List.mem_map.mp hpair
      exact ⟨a, List.mem_cons_self, htrackId⟩
    · obtain ⟨a', ha', htrackId⟩ := ih hrest hpair
      exact ⟨a', List.mem_cons_of_mem _ ha', htrackId⟩

theorem holds_assignTags {assignments : List TagAssignment}
    (hother : ¬ ∃ a ∈ assignments, a.trackId.toI64 = some n) :
    Preserves (Holds (ρ := ρ) n r) (assignTagsUnlogged assignments) := by
  refine Triple.scope (Triple.beginTx.bind fun _ => ?_)
  refine (triple_orCrash fun _ => committed_of_within).bind fun pairs => ?_
  refine Triple.assuming fun hpairs => ?_
  refine Triple.bind (Triple.forM fun chunk hchunk => ?_) fun _ => Triple.commit fun _ => id
  refine Triple.execute (keeps_holds_insertAssignments fun pair hpair heq => hother ?_)
  have hmem : pair ∈ pairs.flatten := by
    rw [← flatten_chunks (by decide : 0 < 500) pairs.flatten]
    exact List.mem_flatten.mpr ⟨chunk, hchunk, hpair⟩
  obtain ⟨a, ha, htrackId⟩ := fst_of_mem_pairs hpairs hmem
  exact ⟨a, ha, htrackId.trans (congrArg some heq)⟩

theorem holds_editTrackSource {trackId : ℤ} {oldUrl newUrl : String} (hother : trackId ≠ n) :
    Preserves (Holds (ρ := ρ) n r) (editTrackSource trackId oldUrl newUrl) := by
  refine Triple.scope ((holds_tryLog Triple.beginTx).bind fun _ => ?_)
  refine (holds_tryLog (Triple.execute (keeps_holds_deleteSource hother))).bind fun _ => ?_
  refine (holds_tryLog (Triple.execute (keeps_holds_insertSources fun source hsource =>
    ?_))).bind fun _ => holds_tryLog (Triple.commit fun _ => id)
  rw [List.mem_singleton.mp hsource]
  exact hother

theorem holds_addListenedSeconds (env : Environment ρ) {date : String} {trackId seconds : ℤ}
    (hother : trackId ≠ n) :
    Preserves (Holds n r) (addListenedSeconds env date trackId seconds) := by
  refine Triple.scope ((holds_tryLog Triple.beginTx).bind fun _ => ?_)
  refine (holds_tryLog (Triple.execute (keeps_holds_addListened hother))).bind fun _ => ?_
  refine (holds_tryLog (Triple.execute (keeps_holds_upsertDaily hother))).bind fun _ => ?_
  exact holds_tryLog (Triple.commit fun _ => id)

theorem holds_getTracks (env : Environment ρ) (cursor : Option ℤ)
    (criteria : Option (List (TrackSearch.SearchCriteria ρ))) (limit : ℤ) :
    Preserves (Holds n r) (getTracks env cursor criteria limit) := by
  unfold Repository.getTracks
  split
  · exact .raise
  · exact .crash
  · exact holds_fetch

/-- **A call that is not about a track leaves its record alone**, however it ends. -/
theorem Call.preserves_record (env : Environment ρ) (call : Call ρ)
    (hother : ¬ call.Concerns n r) : Preserves (Holds n r) (call.run env) := by
  cases call with
  | addTrack t =>
    exact Preserves.ignore (Preserves.orCrash.bind fun _ =>
      holds_tryLog (holds_addTrackUnlogged t))
  | addTracks ts => exact (holds_addTracks ts).ignore
  | updateTrack trackId u =>
    rw [Call.run, Repository.updateTrack]
    split
    · exact .pure
    · exact holds_execute (keeps_holds_updateTrack hother)
  | getTracks cursor criteria limit => exact (holds_getTracks env cursor criteria limit).ignore
  | getTracksFiltered cursor criteria limit =>
    exact Preserves.ignore (Preserves.orCrash.bind fun _ => holds_fetch)
  | getTrack trackId => exact holds_fetch.ignore
  | deleteTrack trackId => exact holds_tryLog (holds_deleteTrack env hother)
  | addListen trackId listenedFrom listenedTo =>
    have hparse : ∀ field text, Preserves (Holds n r) (parseListened (ρ := ρ) field text) := by
      intro field text
      unfold parseListened
      split
      · exact .pure
      · exact .raise
    refine Preserves.ignore ((hparse _ _).bind fun _ => (hparse _ _).bind fun _ => ?_)
    exact holds_execute (keeps_holds_insertListen hother)
  | getListensForTrack trackId => exact holds_fetch.ignore
  | addTag name => exact (holds_execute (keeps_holds_insertTag name)).ignore
  | editTag tagId name => exact holds_execute (keeps_holds_updateTag tagId name)
  | deleteTag tagId =>
    exact holds_execute (keeps_holds_deleteTag fun row hrow heq => hother ⟨row, hrow, heq⟩)
  | getAllTags => exact holds_fetch.ignore
  | getTags pattern => exact holds_fetch.ignore
  | assignTag trackId tagId =>
    refine holds_execute (keeps_holds_insertAssignments fun pair hpair => ?_)
    rw [List.mem_singleton.mp hpair]
    exact hother
  | assignTags assignments => exact holds_tryLog (holds_assignTags hother)
  | removeTag trackId tagId => exact holds_execute (keeps_holds_deleteAssignment hother)
  | getTagsForTrack trackId => exact holds_fetch.ignore
  | addMeta trackId key value => exact (holds_execute (keeps_holds_insertMeta hother)).ignore
  | updateMeta metaId value =>
    exact holds_execute (keeps_holds_updateMeta fun row hrow heq => hother ⟨row, hrow, heq⟩)
  | deleteMeta metaId =>
    exact holds_execute (keeps_holds_deleteMeta fun row hrow heq => hother ⟨row, hrow, heq⟩)
  | getMetaForTrack trackId => exact holds_fetch.ignore
  | addTrackSource trackId url =>
    refine (holds_execute (keeps_holds_insertSources fun source hsource => ?_)).ignore
    rw [List.mem_singleton.mp hsource]
    exact hother
  | removeTrackSource trackId url => exact holds_execute (keeps_holds_deleteSource hother)
  | editTrackSource trackId oldUrl newUrl => exact holds_editTrackSource hother
  | getSourcesForTrack trackId => exact holds_fetch.ignore
  | getTracksWithSources cursor criteria limit =>
    refine Preserves.ignore ((holds_getTracks env cursor criteria limit).bind fun tracks => ?_)
    split
    · exact .pure
    · exact Preserves.orCrash.bind fun _ => holds_fetch.bind fun _ => .pure
  | addError errorText =>
    refine Preserves.ignore ((Triple.executePool (keeps_holds_insertError errorText)).bind
      fun _ => ?_)
    exact Preserves.pure
  | addTrackConflict c =>
    refine Preserves.ignore (Triple.bind (triple_orCrash fun _ => id) fun sameTrackId => ?_)
    refine Triple.assuming fun hsame => holds_execute (keeps_holds_insertConflict fun heq => ?_)
    exact hother (hsame.trans (congrArg some heq))
  | addListenedSeconds date trackId seconds => exact holds_addListenedSeconds env hother

/-- Any calls, with any failures, of which none is about the track. -/
theorem holds_of_run {env : Environment ρ} {turns : List (Turn ρ)}
    (hn : n ≤ db.trackInfo.seq) (hother : ∀ t ∈ turns, ¬ t.call.Concerns n (db.record n))
    (hrun : (repository env).run db turns = some db') : Holds n (db.record n) db' := by
  refine StateMachine.run_induction (M := repository env)
    (P := fun turns db' => (∀ t ∈ turns, ¬ t.call.Concerns n (db.record n)) →
      Holds n (db.record n) db') (fun _ => ⟨rfl, hn⟩) ?_ hrun hother
  intro turns db₁ t db₂ _ ih hstep hother
  obtain ⟨hothers, hlast⟩ := List.forall_mem_append.mp hother
  obtain rfl : Repository.turn env db₁ t = db₂ := Option.some.inj hstep
  have hcall := Call.preserves_record env t.call (hlast t (List.mem_singleton.mpr rfl))
  exact hcall.final (s := ⟨db₁, none, t.faults⟩) (ih hothers)

/-- **What is not about a track leaves its record alone**: any calls, with any failures, of
which none is about it. -/
theorem record_kept_of_run {env : Environment ρ} {turns : List (Turn ρ)}
    (hn : n ≤ db.trackInfo.seq) (hother : ∀ t ∈ turns, ¬ t.call.Concerns n (db.record n))
    (hrun : (repository env).run db turns = some db') : db'.record n = db.record n :=
  (holds_of_run hn hother hrun).record

/-- Another track is added, at the second attempt, and deleted with its tag. -/
def another : List (Turn ℤ) :=
  [⟨.addTracks [⟨"Satie", "Vexations", some 70, none, none, "2024", ["vexations.mp3"]⟩],
      [none, none, none, some (.io "disk")]⟩,
    ⟨.addTracks [⟨"Satie", "Vexations", some 70, none, none, "2024", ["vexations.mp3"]⟩], []⟩,
    ⟨.addTag "long", []⟩, ⟨.assignTag 2 2, []⟩, ⟨.addListenedSeconds "01-01-2024" 2 70, []⟩,
    ⟨.deleteTag 2, []⟩, ⟨.deleteTrack 2, []⟩]

theorem another_elsewhere {r : Record ℤ} (hr : ∀ row ∈ r.assignments, row.tagId ≠ 2) :
    ∀ t ∈ another, ¬ t.call.Concerns 1 r := by
  intro t ht
  simp only [another, List.mem_cons, List.not_mem_nil, or_false] at ht
  rcases ht with rfl | rfl | rfl | rfl | rfl | rfl | rfl
  · exact fun h => h
  · exact fun h => h
  · exact fun h => h
  · exact fun h : (2 : ℤ) = 1 => absurd h (by decide)
  · exact fun h : (2 : ℤ) = 1 => absurd h (by decide)
  · exact fun ⟨row, hrow, heq⟩ => hr row hrow heq
  · exact fun h : (2 : ℤ) = 1 => absurd h (by decide)

theorem record_kept_of_run_another :
    ((Integrity.after Integrity.tagged).record 1).assignments = [⟨1, 1, 1⟩] ∧
      (another.foldl (turn plainEnvironment) (Integrity.after Integrity.tagged)).record 1 =
        (Integrity.after Integrity.tagged).record 1 := by
  have hassigned : ((Integrity.after Integrity.tagged).record 1).assignments = [⟨1, 1, 1⟩] := by
    decide
  refine ⟨hassigned, record_kept_of_run (by decide) (another_elsewhere ?_)
    (Integrity.run_foldl _ another)⟩
  intro row hrow
  rw [hassigned] at hrow
  rw [List.mem_singleton.mp hrow]
  decide

/-! ## What is added -/

/-- The record of a track that was added, and to which nothing has happened. -/
structure IsAdded (t : NewTrack ρ) (n : ℤ) (r : Record ρ) : Prop where
  /-- its row is there -/
  info : r.info = [newRow t n]
  /-- it has the length that was given -/
  length : t.lengthSeconds ≠ none
  /-- it has the sources that were given -/
  urls : r.sources.map TrackSource.url = t.sources
  /-- in their order -/
  ascending : SqlPage.Ascending TrackSource.id r.sources
  /-- nobody listened to it -/
  listens : r.listens = []
  /-- it has no tags -/
  assignments : r.assignments = []
  /-- nothing is said about it -/
  metas : r.metas = []

/-- A track without a length is not added. -/
theorem length_of_foldlM {ts : List (NewTrack ρ)}
    {table table' : SqlTable (TrackInfo ρ) TrackInfo.id}
    (h : ts.foldlM trackInfoStep table = .ok table') : ∀ t ∈ ts, t.lengthSeconds ≠ none := by
  induction ts generalizing table with
  | nil =>
    intro t ht
    cases ht
  | cons t ts ih =>
    rw [List.foldlM_cons] at h
    obtain ⟨table₁, ht, hts⟩ := ok_of_bind h
    refine List.forall_mem_cons.mpr ⟨fun hnone => ?_, ih hts⟩
    obtain ⟨db, hdb, -⟩ := ok_map_iff.mp ht
    unfold Database.insertTrack at hdb
    rw [hnone] at hdb
    cases hdb

/-- The key of a source that is inserted is larger than all others. -/
theorem sourceStep_seq {table table' : SqlTable TrackSource TrackSource.id}
    {source : ℤ × String} (h : sourceStep table source = .ok table') :
    table.seq < table'.seq := by
  obtain ⟨db, hdb, rfl⟩ := ok_map_iff.mp h
  unfold Database.insertSource at hdb
  split at hdb
  · cases hdb
  · obtain ⟨table', htable, hdb⟩ := ok_of_bind hdb
    obtain rfl := Except.ok.inj hdb
    unfold Database.insertInto at htable
    split at htable
    · case h_1 table'' hinsert =>
      obtain rfl := Except.ok.inj htable
      exact (Int.lt_add_one_iff.mpr (Int.le_refl _)).trans_eq
        (SqlTable.insert_eq_some hinsert).2.symm
    · cases htable

/-- The sources that are inserted are in their order, after all others. -/
theorem foldlM_sourceStep_ascending {sources : List (ℤ × String)}
    {table table' : SqlTable TrackSource TrackSource.id}
    (h : sources.foldlM sourceStep table = .ok table') :
    ∃ rows, table'.rows = table.rows ++ rows ∧
      rows.map (fun row => (row.trackId, row.url)) = sources ∧
      SqlPage.Ascending TrackSource.id rows ∧ ∀ row ∈ rows, table.seq < row.id := by
  induction sources generalizing table with
  | nil =>
    obtain rfl := Except.ok.inj h
    exact ⟨[], (List.append_nil _).symm, rfl, List.Pairwise.nil, fun row hrow => by cases hrow⟩
  | cons source sources ih =>
    rw [List.foldlM_cons] at h
    obtain ⟨table₁, hsource, hsources⟩ := ok_of_bind h
    obtain ⟨rows, hrows, hmap, hascending, hlater⟩ := ih hsources
    have hseq := sourceStep_seq hsource
    rw [sourceStep_eq_ok hsource, List.append_assoc] at hrows
    refine ⟨_, hrows, congrArg (source :: ·) hmap, List.Pairwise.cons hlater hascending, ?_⟩
    refine List.forall_mem_cons.mpr ⟨hseq, fun row hrow => ?_⟩
    exact Int.lt_trans hseq (hlater row hrow)

/-- The sources of one of some tracks. -/
theorem filter_listed {ts : List (NewTrack ρ)} {ids : List ℤ} (hids : ids.Nodup)
    {t : NewTrack ρ} (hmem : (t, n) ∈ ts.zip ids) :
    (listed ts ids).filter (fun source => source.1 = n) = t.sources.map fun url => (n, url) := by
  induction ts generalizing ids with
  | nil => cases hmem
  | cons t' ts ih =>
    cases ids with
    | nil => cases hmem
    | cons n' ids =>
      obtain ⟨hn', hids⟩ := List.nodup_cons.mp hids
      rw [listed, List.zip_cons_cons, List.flatMap_cons, List.filter_append]
      rw [List.zip_cons_cons] at hmem
      rcases List.mem_cons.mp hmem with heq | hmem
      · obtain ⟨rfl, rfl⟩ := Prod.mk.inj heq
        have hothers : (listed ts ids).filter (fun source => source.1 = n) = [] :=
          List.filter_eq_nil_iff.mpr fun source hsource heq =>
            hn' (of_decide_eq_true heq ▸ mem_listed hsource)
        have hown : (t.sources.map fun url => (n, url)).filter (fun source => source.1 = n) =
            t.sources.map fun url => (n, url) := by
          refine List.filter_eq_self.mpr fun source hsource => ?_
          obtain ⟨url, -, rfl⟩ := List.mem_map.mp hsource
          exact decide_eq_true rfl
        exact (congrArg₂ (· ++ ·) hown hothers).trans (List.append_nil _)
      · have hne : n' ≠ n := fun heq => hn' (heq ▸ (List.of_mem_zip hmem).2)
        have hothers : (t'.sources.map fun url => (n', url)).filter (fun source => source.1 = n) =
            [] := by
          refine List.filter_eq_nil_iff.mpr fun source hsource heq => hne ?_
          obtain ⟨url, -, rfl⟩ := List.mem_map.mp hsource
          exact of_decide_eq_true heq
        exact (congrArg₂ (· ++ ·) hothers (ih hids hmem)).trans (List.nil_append _)

theorem nodup_nextIds (seq : ℤ) (k : ℕ) : (nextIds seq k).Nodup := by
  refine List.Nodup.map (fun i j hij => ?_) List.nodup_range
  exact Int.ofNat.inj (Int.add_left_cancel hij)

/-- The row with a key. -/
theorem referring_key {α : Type} {key : α → ℤ} {rows : List α} (hnodup : (rows.map key).Nodup)
    {row : α} (hrow : row ∈ rows) : referring key (key row) rows = [row] := by
  induction rows with
  | nil => cases hrow
  | cons first rows ih =>
    obtain ⟨hfirst, hnodup⟩ := List.nodup_cons.mp hnodup
    rw [referring, List.filter_cons]
    rcases List.mem_cons.mp hrow with rfl | hrow
    · rw [if_pos (decide_eq_true rfl)]
      refine congrArg (row :: ·) (List.filter_eq_nil_iff.mpr fun other hother heq => hfirst ?_)
      exact List.mem_map.mpr ⟨other, hother, of_decide_eq_true heq⟩
    · rw [if_neg fun heq => hfirst ?_]
      · exact ih hnodup hrow
      · exact List.mem_map.mpr ⟨row, hrow, (of_decide_eq_true heq).symm⟩

/-- Nothing refers to a key that was not given out. -/
theorem referring_eq_nil {α : Type} {rows : List α} {ref : α → ℤ}
    (h : Refer rows ref db.HasTrack) (hn : db.trackInfo.seq < n) : referring ref n rows = [] := by
  refine List.filter_eq_nil_iff.mpr fun row hrow heq => ?_
  obtain ⟨track, htrack, hid⟩ := h row hrow
  have hle := db.trackInfo.le_seq track htrack
  rw [hid, of_decide_eq_true heq] at hle
  omega

/-- The record of a track that was added with others. -/
theorem isAdded_of_addTracks {ts : List (NewTrack ρ)} {ids : List ℤ}
    {s' : Session (Database ρ) SqlxError} (hschema : SatisfiesSchema db)
    (hadd : addTracks ts ⟨db, none, []⟩ = .ok ids s') {t : NewTrack ρ}
    (hmem : (t, n) ∈ ts.zip ids) :
    IsAdded t n (s'.committed.record n) ∧ n ≤ s'.committed.trackInfo.seq := by
  obtain ⟨trackInfo, trackSources, hinfo, hsources, rfl, rfl⟩ := addTracks_eq_ok.mp hadd
  obtain ⟨hseq, hrows⟩ := foldlM_trackInfoStep hinfo
  obtain ⟨rows, hnew, hmap, hascending, -⟩ := foldlM_sourceStep_ascending hsources
  have hfresh : db.trackInfo.seq < n ∧ n ≤ trackInfo.seq := by
    obtain ⟨i, hi, rfl⟩ := List.mem_map.mp (List.of_mem_zip hmem).2
    have hlt := List.mem_range.mp hi
    constructor <;> omega
  have hrow : newRow t n ∈ trackInfo.rows := by
    rw [hrows]
    exact List.mem_append_right _ (List.mem_map.mpr ⟨(t, n), hmem, rfl⟩)
  -- the sources that were there are those of other tracks
  have hown : referring TrackSource.trackId n trackSources.rows =
      referring TrackSource.trackId n rows := by
    have hold := referring_eq_nil hschema.sources hfresh.1
    rw [referring] at hold
    rw [hnew, referring, List.filter_append, hold, List.nil_append, referring]
  have hpairs : (referring TrackSource.trackId n rows).map (fun row => (row.trackId, row.url)) =
      t.sources.map fun url => (n, url) := by
    rw [← filter_listed (nodup_nextIds _ _) hmem, ← hmap, List.filter_map]
    rfl
  refine ⟨⟨referring_key trackInfo.nodup hrow, ?_, ?_, ?_, ?_, ?_, ?_⟩, hfresh.2⟩
  · exact length_of_foldlM hinfo t (List.of_mem_zip hmem).1
  · have hurls := congrArg (List.map Prod.snd) hpairs
    rw [List.map_map, List.map_map] at hurls
    refine (congrArg (List.map TrackSource.url) hown).trans (hurls.trans ?_)
    exact List.map_id _
  · have hsorted : SqlPage.Ascending TrackSource.id
        (referring TrackSource.trackId n trackSources.rows) := by
      rw [hown]
      exact List.Pairwise.filter _ hascending
    exact hsorted
  · exact referring_eq_nil hschema.listens hfresh.1
  · exact referring_eq_nil hschema.assignedTracks hfresh.1
  · exact referring_eq_nil hschema.metas hfresh.1

/-! ## What is found -/

/-- What is returned of a track is what was given when it was added. -/
structure FoundAsAdded (t : NewTrack ρ) (n : ℤ) (db : Database ρ) : Prop where
  /-- by `get_track` -/
  track : getTrack n ⟨db, none, []⟩ = .ok ⟨.fromI64 n, t.artist, t.trackName, t.lengthSeconds,
    t.bitrateKbps, t.tempoBpm, t.additionTime, 0⟩ ⟨db, none, []⟩
  /-- by `get_sources_for_track` -/
  sources : ∃ rows, getSourcesForTrack n ⟨db, none, []⟩ = .ok rows ⟨db, none, []⟩ ∧
    rows.map SourceRow.url = t.sources
  /-- by `get_listens_for_track` -/
  listens : getListensForTrack n ⟨db, none, []⟩ = .ok [] ⟨db, none, []⟩
  /-- by `get_tags_for_track` -/
  tags : getTagsForTrack n ⟨db, none, []⟩ = .ok [] ⟨db, none, []⟩
  /-- by `get_meta_for_track` -/
  metas : getMetaForTrack n ⟨db, none, []⟩ = .ok [] ⟨db, none, []⟩

theorem fetch_ok {context : String} {query : Database ρ → Except SqlxError α} {a : α}
    (h : query db = .ok a) :
    tryLog context (fetchPool query) ⟨db, none, []⟩ = .ok a ⟨db, none, []⟩ :=
  logging_eq_ok.mpr (fetchPool_eq_ok.mpr ⟨h, rfl⟩)

theorem IsAdded.found {t : NewTrack ρ} (h : IsAdded t n (db.record n)) :
    FoundAsAdded t n db where
  track := by
    refine fetch_ok ?_
    have hfind : db.trackInfo.rows.find? (fun row => row.id = n) = some (newRow t n) := by
      rw [← List.head?_filter]
      exact congrArg List.head? h.info
    unfold Database.selectTrack
    rw [hfind]
    obtain ⟨lengthSeconds, hlength⟩ := Option.ne_none_iff_exists'.mp h.length
    rw [hlength, newRow, hlength]
    rfl
  sources := by
    refine ⟨_, fetch_ok rfl, ?_⟩
    have hselect : db.selectSources n = (db.record n).sources :=
      SqlPage.orderAsc_eq_of_perm h.ascending (List.Perm.refl _)
    rw [hselect, List.map_map, ← h.urls]
    rfl
  listens := by
    refine fetch_ok ?_
    have hselect : db.selectListens n = [] :=
      (congrArg (SqlPage.orderAsc ListenInfo.id) h.listens).trans List.mergeSort_nil
    rw [hselect, List.map_nil]
  tags := by
    refine fetch_ok ?_
    have hselect : db.selectTagsForTrack n = [] := by
      have hrows : db.tags.rows.flatMap (fun tag => (db.tagAssignments.rows.filter fun row =>
          row.tagId = tag.id ∧ row.trackId = n).map fun _ => tag) = [] := by
        refine List.flatMap_eq_nil_iff.mpr fun tag _ => List.map_eq_nil_iff.mpr ?_
        refine List.filter_eq_nil_iff.mpr fun row hrow heq => ?_
        have hmem : row ∈ (db.record n).assignments :=
          mem_referring.mpr ⟨hrow, (of_decide_eq_true heq).2⟩
        rw [h.assignments] at hmem
        cases hmem
      exact (congrArg (SqlPage.orderAsc Tag.id) hrows).trans List.mergeSort_nil
    rw [hselect, List.map_nil]
  metas := by
    refine fetch_ok ?_
    have hselect : db.selectMeta n = [] :=
      (congrArg (SqlPage.orderAsc TrackMeta.id) h.metas).trans List.mergeSort_nil
    rw [hselect, List.map_nil]

/-- What `add_tracks` is left with does not depend on what may disturb it. -/
theorem steady_addTracks (ts : List (NewTrack ρ)) : Steady (addTracks ts) := by
  refine Steady.scope (Steady.bind (.logging .beginTx) fun _ => ?_)
  refine Steady.bind (.mapM fun chunk => ?_) fun batches => ?_
  · exact Steady.bind (.logging .execute) fun _ => .pure
  refine Steady.bind (.forM fun chunk => ?_) fun _ => ?_
  · exact Steady.bind (.logging .execute) fun _ => .pure
  · exact Steady.bind (.logging .commit) fun _ => .pure

/-- **What is added is found**: after any calls, with any failures, of which none is about the
track, its data are those that `add_tracks` was given, with its sources in their order. -/
theorem found_as_added {env : Environment ρ} {ts : List (NewTrack ρ)} {ids : List ℤ}
    {faults : List (Option SqlxError)} {s' : Session (Database ρ) SqlxError}
    {turns : List (Turn ρ)} {t : NewTrack ρ} (hdb : (repository env).Reachable db)
    (hadd : addTracks ts ⟨db, none, faults⟩ = .ok ids s') (hmem : (t, n) ∈ ts.zip ids)
    (hother : ∀ turn ∈ turns, ¬ turn.call.Concerns n (s'.committed.record n))
    (hrun : (repository env).run s'.committed turns = some db') : FoundAsAdded t n db' := by
  have hcalm : addTracks ts ⟨db, none, []⟩ = .ok ids (calmed s') :=
    steady_addTracks ts _ _ _ hadd
  obtain ⟨earlier, hearlier⟩ := hdb
  have hschema : SatisfiesSchema db :=
    Integrity.keptByAll_schema.run satisfiesSchema_empty hearlier
  obtain ⟨hadded, hn⟩ := isAdded_of_addTracks hschema hcalm hmem
  refine IsAdded.found ?_
  rw [(holds_of_run hn hother hrun).record]
  exact hadded

/-- Two tracks. -/
def twoTracks : List (NewTrack ℤ) :=
  [⟨"Chopin", "Nocturne", some 270, none, none, "2024", ["nocturne.mp3", "nocturne.flac"]⟩,
    ⟨"Chopin", "Prelude", some 120, none, none, "2024", ["prelude.mp3"]⟩]

theorem found_as_added_another :
    ∃ s', addTracks twoTracks ⟨Database.empty, none, []⟩ = .ok [1, 2] s' ∧
      FoundAsAdded ⟨"Chopin", "Nocturne", some 270, none, none, "2024",
        ["nocturne.mp3", "nocturne.flac"]⟩ 1
        (another.foldl (turn plainEnvironment) s'.committed) := by
  have hadd : ∃ trackInfo trackSources, addTracks twoTracks ⟨Database.empty, none, []⟩ =
      .ok [1, 2] ⟨{ Database.empty with trackInfo, trackSources }, none, []⟩ :=
    ⟨_, _, addTracks_eq_ok.mpr ⟨_, _, rfl, rfl, rfl, rfl⟩⟩
  obtain ⟨trackInfo, trackSources, hadd⟩ := hadd
  have hreachable : (repository plainEnvironment).Reachable Database.empty := ⟨[], rfl⟩
  refine ⟨_, hadd, found_as_added hreachable hadd List.mem_cons_self
    (another_elsewhere fun row hrow => ?_) (Integrity.run_foldl _ another)⟩
  cases hrow

end Repository

end Vamp
