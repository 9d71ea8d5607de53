import Mathlib.Data.Finset.Card
import Mathlib.Tactic.ByContra
import Mathlib.Tactic.Push
import Vamp.AddTracks

/-!
# Editing a source

`edit_track_source` is documented to swap one URL of a track for another, atomically. It deletes
the old one and inserts the new one in a transaction; so it does both or nothing
(`editTrackSource_leaves`). But a deletion that finds nothing succeeds as well. Then the track
gets the new URL in addition to all that it had, which is no swap
(`swaps_or_nothing_iff`).
-/

namespace Vamp

namespace Repository

open Program Database

variable {ρ : Type} {db db' : Database ρ} {trackId : ℤ} {oldUrl newUrl : String}

/-! ## The URLs of a track -/

/-- The URLs in some rows. -/
def urlsIn (rows : List TrackSource) (trackId : ℤ) : Finset String :=
  ((rows.filter fun row => row.trackId = trackId).map TrackSource.url).toFinset

/-- **The URLs of a track.** -/
def urlsOf (db : Database ρ) (trackId : ℤ) : Finset String := urlsIn db.trackSources.rows trackId

/-- The sources of the other tracks. -/
def othersIn (rows : List TrackSource) (trackId : ℤ) : List TrackSource :=
  rows.filter fun row => row.trackId ≠ trackId

theorem mem_urlsIn {rows : List TrackSource} {url : String} :
    url ∈ urlsIn rows trackId ↔ ∃ row ∈ rows, row.trackId = trackId ∧ row.url = url := by
  simp [urlsIn, and_assoc]

/-- **A swap**: the track had the old URL, and now has the new one in its place. -/
structure Swapped (db db' : Database ρ) (trackId : ℤ) (oldUrl newUrl : String) : Prop where
  /-- the old URL was there -/
  had : oldUrl ∈ urlsOf db trackId
  /-- it is gone, unless it is the new one -/
  urls : urlsOf db' trackId = insert newUrl ((urlsOf db trackId).erase oldUrl)
  /-- there are as many as before -/
  card : (urlsOf db' trackId).card = (urlsOf db trackId).card
  /-- other tracks have what they had -/
  others : othersIn db'.trackSources.rows trackId = othersIn db.trackSources.rows trackId

/-- `edit_track_source` **swaps or does nothing**, whatever fails on the way. -/
def SwapsOrNothing (db : Database ρ) (trackId : ℤ) (oldUrl newUrl : String) : Prop :=
  ∀ faults,
    (∀ s', editTrackSource trackId oldUrl newUrl ⟨db, none, faults⟩ = .ok () s' →
      Swapped db s'.committed trackId oldUrl newUrl) ∧
    ∀ e s', editTrackSource trackId oldUrl newUrl ⟨db, none, faults⟩ = .error e s' →
      s'.committed.trackSources = db.trackSources

/-! ## The statements -/

/-- The database after the deletion. -/
def withoutSource (db : Database ρ) (trackId : ℤ) (url : String) : Database ρ :=
  { db with
    trackSources := db.trackSources.filter fun row => ¬(row.trackId = trackId ∧ row.url = url) }

theorem mem_withoutSource {row : TrackSource} :
    row ∈ (withoutSource db trackId oldUrl).trackSources.rows ↔
      row ∈ db.trackSources.rows ∧ ¬(row.trackId = trackId ∧ row.url = oldUrl) := by
  rw [withoutSource, SqlTable.rows_filter, List.mem_filter, decide_eq_true_iff]

theorem urlsOf_withoutSource :
    urlsOf (withoutSource db trackId oldUrl) trackId = (urlsOf db trackId).erase oldUrl := by
  ext url
  simp only [urlsOf, mem_urlsIn, mem_withoutSource, Finset.mem_erase]
  constructor
  · rintro ⟨row, ⟨hrow, hnot⟩, htrack, rfl⟩
    exact ⟨fun h => hnot ⟨htrack, h⟩, row, hrow, htrack, rfl⟩
  · rintro ⟨hne, row, hrow, htrack, rfl⟩
    exact ⟨row, ⟨hrow, fun h => hne h.2⟩, htrack, rfl⟩

theorem othersIn_withoutSource :
    othersIn (withoutSource db trackId oldUrl).trackSources.rows trackId =
      othersIn db.trackSources.rows trackId := by
  rw [withoutSource, SqlTable.rows_filter, othersIn, List.filter_filter]
  refine List.filter_congr fun row _ => ?_
  by_cases h : row.trackId = trackId <;> simp [h]

/-- The insertion of one source succeeds if the track has not got the URL, there is a key left,
and the track is there. -/
theorem insertSource_ok_iff {url : String} :
    (∃ id db', insertSources [(trackId, url)] db = .ok (id, db')) ↔
      url ∉ urlsOf db trackId ∧ db.trackSources.seq < maxRowid ∧ db.HasTrack trackId := by
  have hany : (db.trackSources.rows.any fun row => row.trackId = trackId ∧ row.url = url) = true ↔
      url ∈ urlsOf db trackId := by
    rw [urlsOf, mem_urlsIn, List.any_eq_true]
    simp only [decide_eq_true_iff]
  simp only [insertSources, ok_bind_iff, List.foldlM_cons, List.foldlM_nil, insertSource,
    insertInto, SqlTable.insert, hany]
  by_cases hurl : url ∈ urlsOf db trackId
  · rw [if_pos hurl]
    refine iff_of_false ?_ fun h => h.1 hurl
    rintro ⟨_, _, _, ⟨_, ⟨⟩, -⟩, -⟩
  rw [if_neg hurl]
  by_cases hseq : db.trackSources.seq < maxRowid
  · rw [dif_pos hseq]
    constructor
    · rintro ⟨_, _, _, ⟨_, ⟨⟩, ⟨⟩⟩, h⟩
      split at h
      · case isTrue hall =>
        have htrack := List.all_eq_true.mp hall (trackId, url) (List.mem_singleton.mpr rfl)
        exact ⟨hurl, hseq, of_decide_eq_true htrack⟩
      · cases h
    · rintro ⟨-, -, htrack⟩
      refine ⟨_, _, _, ⟨_, rfl, rfl⟩, if_pos (List.all_eq_true.mpr fun source hsource => ?_)⟩
      obtain rfl := List.mem_singleton.mp hsource
      exact decide_eq_true htrack
  · rw [dif_neg hseq]
    refine iff_of_false ?_ fun h => hseq h.2.1
    rintro ⟨_, _, _, ⟨_, ⟨⟩, -⟩, -⟩

/-- What it does then. -/
theorem insertSource_eq_ok {url : String} {id : ℤ}
    (h : insertSources [(trackId, url)] db = .ok (id, db')) :
    ∃ key, db'.trackSources.rows = db.trackSources.rows ++ [⟨key, trackId, url⟩] := by
  obtain ⟨-, -, htrack⟩ := insertSource_ok_iff.mp ⟨id, db', h⟩
  have htracks : ∀ source ∈ [(trackId, url)], db.HasTrack source.1 :=
    List.forall_mem_singleton.mpr htrack
  obtain ⟨table, hfold, -, rfl⟩ := (insertSources_eq_ok htracks).mp h
  obtain ⟨table', hstep, hdone⟩ := ok_bind_iff.mp hfold
  obtain rfl := Except.ok.inj hdone
  exact ⟨_, sourceStep_eq_ok hstep⟩

/-! ## The operation -/

/-- **Both statements or none.** -/
theorem editTrackSource_leaves (db : Database ρ) (trackId : ℤ) (oldUrl newUrl : String) :
    Triple (Committed fun tables => tables = db) (editTrackSource trackId oldUrl newUrl)
      (fun _ => Committed fun tables => ∃ id,
        insertSources [(trackId, newUrl)] (withoutSource db trackId oldUrl) = .ok (id, tables))
      (Committed fun tables => tables.trackSources = db.trackSources) := by
  have hlog : ∀ {β : Type} {context : String} {p : Operation ρ β} {P Q},
      Triple P p Q (Committed fun tables => tables.trackSources = db.trackSources) →
        Triple P (tryLog context p) Q
          (Committed fun tables => tables.trackSources = db.trackSources) :=
    Triple.tryLog (keeps_insertError fun _ _ hsame => hsame)
  have hbegin : Triple (Committed fun tables => tables = db) (beginTx : Operation ρ Unit)
      (fun _ => Within (fun tables => tables.trackSources = db.trackSources) fun tables =>
        tables = db) (Committed fun tables => tables.trackSources = db.trackSources) :=
    Triple.beginTx.mono (fun _ => id) (fun _ _ h => ⟨congrArg trackSources h.1, h.2⟩)
      fun _ => congrArg trackSources
  have hdelete : Triple
      (Within (fun tables => tables.trackSources = db.trackSources) fun tables => tables = db)
      (execute (deleteSource trackId oldUrl) : Operation ρ Unit)
      (fun _ => Within (fun tables => tables.trackSources = db.trackSources) fun tables =>
        tables = withoutSource db trackId oldUrl)
      (Committed fun tables => tables.trackSources = db.trackSources) := by
    refine Triple.execute ?_
    rintro tables _ tables' rfl h
    exact (Prod.mk.inj (Except.ok.inj h)).2.symm
  have hinsert : Triple
      (Within (fun tables => tables.trackSources = db.trackSources) fun tables =>
        tables = withoutSource db trackId oldUrl)
      (execute (insertSources [(trackId, newUrl)]) : Operation ρ ℤ)
      (fun key => Within (fun tables => tables.trackSources = db.trackSources) fun tables =>
        insertSources [(trackId, newUrl)] (withoutSource db trackId oldUrl) = .ok (key, tables))
      (Committed fun tables => tables.trackSources = db.trackSources) := by
    refine Triple.execute ?_
    rintro tables key tables' rfl h
    exact h
  refine Triple.scope ((hlog hbegin).bind fun _ => (hlog hdelete).bind fun _ => ?_)
  refine (hlog hinsert).bind fun key => ?_
  exact (hlog Triple.commitTo).mono (fun _ h => h) (fun _ _ h => ⟨key, h⟩) fun _ h => h

/-- A swap, as the two statements do it. -/
theorem swapped_of_insert {key : ℤ}
    (h : insertSources [(trackId, newUrl)] (withoutSource db trackId oldUrl) = .ok (key, db'))
    (hold : oldUrl ∈ urlsOf db trackId) : Swapped db db' trackId oldUrl newUrl := by
  obtain ⟨hfresh, -, -⟩ := insertSource_ok_iff.mp ⟨key, db', h⟩
  obtain ⟨id, hrows⟩ := insertSource_eq_ok h
  have hurls : urlsOf db' trackId = insert newUrl ((urlsOf db trackId).erase oldUrl) := by
    rw [← urlsOf_withoutSource, urlsOf, hrows]
    simp [urlsIn, urlsOf, Finset.union_comm]
  rw [urlsOf_withoutSource] at hfresh
  refine ⟨hold, hurls, ?_, ?_⟩
  · rw [hurls, Finset.card_insert_of_notMem hfresh, Finset.card_erase_add_one hold]
  · have hothers : othersIn (withoutSource db trackId oldUrl).trackSources.rows trackId =
        othersIn db.trackSources.rows trackId := othersIn_withoutSource
    rw [hrows, ← hothers, othersIn, othersIn, List.filter_append]
    simp

/-- The operation succeeds if nothing fails on the way and the new URL can be inserted. -/
theorem editTrackSource_ok {key : ℤ}
    (h : insertSources [(trackId, newUrl)] (withoutSource db trackId oldUrl) = .ok (key, db')) :
    editTrackSource trackId oldUrl newUrl ⟨db, none, []⟩ = .ok () ⟨db', none, []⟩ := by
  have hdelete : execute (deleteSource trackId oldUrl) ⟨db, some ⟨db, false⟩, []⟩ =
      .ok () ⟨db, some ⟨withoutSource db trackId oldUrl, true⟩, []⟩ := rfl
  have hinsert : execute (insertSources [(trackId, newUrl)])
      ⟨db, some ⟨withoutSource db trackId oldUrl, true⟩, []⟩ =
        .ok key ⟨db, some ⟨db', true⟩, []⟩ := execute_eq_ok.mpr ⟨db', h, rfl⟩
  refine scope_eq_ok.mpr ⟨⟨db', none, []⟩, ?_, rfl⟩
  refine bind_eq_ok.mpr ⟨(), ⟨db, some ⟨db, false⟩, []⟩, logging_eq_ok.mpr rfl, ?_⟩
  refine bind_eq_ok.mpr ⟨(), _, logging_eq_ok.mpr hdelete, ?_⟩
  exact bind_eq_ok.mpr ⟨key, _, logging_eq_ok.mpr hinsert, logging_eq_ok.mpr rfl⟩

/-- **`edit_track_source` swaps or does nothing** if and only if the track has the old URL, or
the new one cannot be inserted: the track is not there, or it has the new URL already, or there
is no key left. -/
theorem swaps_or_nothing_iff (db : Database ρ) (trackId : ℤ) (oldUrl newUrl : String) :
    SwapsOrNothing db trackId oldUrl newUrl ↔
      (oldUrl ∈ urlsOf db trackId ∨ ¬ db.HasTrack trackId ∨ newUrl ∈ urlsOf db trackId ∨
        db.trackSources.seq = maxRowid) := by
  have hseq := db.trackSources.seq_mem.2
  have hinsertable : (∃ key db', insertSources [(trackId, newUrl)]
      (withoutSource db trackId oldUrl) = .ok (key, db')) ↔
        newUrl ∉ (urlsOf db trackId).erase oldUrl ∧ db.trackSources.seq < maxRowid ∧
          db.HasTrack trackId := by
    rw [insertSource_ok_iff, urlsOf_withoutSource]
    rfl
  constructor
  · intro hswaps
    by_contra hnot
    push Not at hnot
    obtain ⟨hold, htrack, hnew, hkeys⟩ := hnot
    obtain ⟨key, db', hinsert⟩ := hinsertable.mpr
      ⟨fun h => hnew (Finset.mem_of_mem_erase h), by omega, htrack⟩
    exact hold ((hswaps []).1 _ (editTrackSource_ok hinsert)).had
  · intro hcondition faults
    have hleaves := editTrackSource_leaves db trackId oldUrl newUrl
    refine ⟨fun s' hrun => ?_, fun e s' hrun =>
      hleaves.of_error (s := ⟨db, none, faults⟩) rfl hrun⟩
    obtain ⟨key, hinsert⟩ := hleaves.of_ok (s := ⟨db, none, faults⟩) rfl hrun
    refine swapped_of_insert hinsert ?_
    obtain ⟨hnew, hkeys, htrack⟩ := hinsertable.mp ⟨key, _, hinsert⟩
    rcases hcondition with hold | hmissing | hthere | hfull
    · exact hold
    · exact absurd htrack hmissing
    · -- the new URL was there and is not: it is the old one
      by_contra hold
      rw [Finset.erase_eq_of_notMem hold] at hnew
      exact hnew hthere
    · omega

/-- A track with one source. -/
def oneSource : Database ℤ :=
  { Database.empty with
    trackInfo := FilteredTracks.oneTrack
    trackSources := ⟨[⟨1, 1, "nocturne.mp3"⟩], 1, by decide, by decide, by decide,
      SqlTable.seq_mem_one⟩ }

/-- A URL that the track does not have is swapped for another one. -/
theorem not_swaps_missing : ¬ SwapsOrNothing oneSource 1 "prelude.mp3" "nocturne.flac" := by
  intro hswaps
  have hrun : ∃ s', editTrackSource 1 "prelude.mp3" "nocturne.flac" ⟨oneSource, none, []⟩ =
      .ok () s' := ⟨_, rfl⟩
  obtain ⟨s', hrun⟩ := hrun
  exact absurd ((hswaps []).1 s' hrun).had (by decide)

end Repository

end Vamp
