import Vamp.Repository

/-!
# Which operations panic

An operation of the repository panics if it converts an id that is no number, or takes the
first source of a track that has none; there is nothing else. So most operations never do,
whatever fails on the way. For the others there is the exact condition: on the sources
(`panics_addTrack_iff`), on the tags that a search asks for, as far as it gets to them
(`panics_getTracks_iff`, `panics_getTracksFiltered_iff`), and on the ids of an assignment
(`panics_assignTags_iff`).

The ids of rows can be read, as keys are 64 bits wide. For what `get_tracks` finds, this is
all that is said about the `Environment`.
-/

namespace Vamp

variable {ρ α β : Type}

/-- The keys that `get_tracks` finds are 64 bits wide. -/
def Environment.FindsI64 (env : Environment ρ) : Prop :=
  ∀ sql vals db rows, env.query sql vals db = .ok rows → ∀ row ∈ rows, IsI64 row.id

namespace Repository

open Program

variable {s : Session (Database ρ) SqlxError} {context : String}

/-! ## Parts of operations -/

theorem panics_orCrash_bind_iff {a : Option α} {f : α → Operation ρ β} :
    Panics (orCrash a >>= f) s ↔ a = none ∨ ∃ b, a = some b ∧ Panics (f b) s := by
  cases a with
  | none => exact iff_of_true (panics_bind_iff.mpr (.inl (panics_crash s))) (.inl rfl)
  | some b =>
    have hbind : (orCrash (some b) >>= f) = f b := rfl
    rw [hbind]
    simp

/-- Recording an error does not make a difference. -/
theorem panics_tryLog_iff {p : Operation ρ α} : Panics (tryLog context p) s ↔ Panics p s :=
  panics_logging_iff

theorem neverPanics_tryLog {p : Operation ρ α} (hp : NeverPanics p) :
    NeverPanics (tryLog context p) := Calm.logging hp

/-- The operations that are one statement. -/
theorem neverPanics_execute {statement : Database ρ → Except SqlxError (α × Database ρ)} :
    NeverPanics (tryLog context (executeOnPool statement)) := neverPanics_tryLog .executePool

/-- The operations that are one query. -/
theorem neverPanics_fetch {query : Database ρ → Except SqlxError α} :
    NeverPanics (tryLog context (fetchPool query)) :=
  neverPanics_tryLog (Calm.fetchPool (R := fun _ => True) fun _ _ _ => trivial).neverPanics

/-! ## Rows that are found -/

/-- What holds of all that `f` makes holds of what it makes of a list. -/
theorem mapM_eq_ok {f : α → Except SqlxError β} {R : β → Prop} {xs : List α} {ys : List β}
    (hf : ∀ x ∈ xs, ∀ y, f x = .ok y → R y) (h : xs.mapM f = .ok ys) : ∀ y ∈ ys, R y := by
  intro y hy
  obtain ⟨x, hx, hxy⟩ := exists_of_forall₂_right (mapM_eq_ok_iff.mp h) hy
  exact hf x hx y hxy

/-- The id of a row can be read. -/
theorem fromRow_readable {row : TrackInfo ρ} {track : TrackRow ρ} (hrow : IsI64 row.id)
    (h : TrackRow.fromRow row = .ok track) : ¬ track.id.Unreadable := by
  obtain ⟨total, -, h⟩ := ok_of_bind h
  obtain rfl := Except.ok.inj h
  intro hnone
  cases (BigintId.toI64_fromI64 hrow).symm.trans hnone

/-- The keys of a table are 64 bits wide. -/
theorem isI64_of_mem {key : α → ℤ} {table : SqlTable α key} {row : α} (h : row ∈ table.rows) :
    IsI64 (key row) := by
  have hmin := table.min_le row h
  have hmax := table.le_seq row h
  have hseq := table.seq_mem.2
  simp only [minRowid, maxRowid] at hmin hseq
  exact ⟨hmin, by omega⟩

theorem selectTrack_readable {db : Database ρ} {id : ℤ} {track : TrackRow ρ}
    (h : db.selectTrack id = .ok track) : ¬ track.id.Unreadable := by
  unfold Database.selectTrack at h
  split at h
  · case h_1 row hfind => exact fromRow_readable (isI64_of_mem (List.mem_of_find?_eq_some hfind)) h
  · cases h

/-! ## Tracks -/

/-- **The first source**: a track without sources is the end of `add_track`. -/
theorem panics_addTrack_iff {t : NewTrack ρ} : Panics (addTrack t) s ↔ t.sources = [] := by
  have hunlogged : NeverPanics (addTrackUnlogged t) := by
    refine Calm.scope (Calm.beginTx.bind fun _ => Calm.execute.bind fun trackId => ?_)
    refine Calm.bind (Calm.forM fun url _ => ?_) fun _ => ?_
    · exact Calm.execute.bind fun _ => .pure fun _ => id
    · exact Calm.commit.bind fun _ => .pure fun _ => id
  unfold addTrack
  rw [panics_orCrash_bind_iff, List.head?_eq_none_iff, or_iff_left]
  rintro ⟨source, -, hpanic⟩
  exact (neverPanics_tryLog hunlogged).not_panics s hpanic

theorem neverPanics_addTracks (ts : List (NewTrack ρ)) : NeverPanics (addTracks ts) := by
  refine Calm.scope ((Calm.logging Calm.beginTx).bind fun _ => ?_)
  refine Calm.bind (Calm.mapM fun chunk _ => ?_) fun batches => ?_
  · exact (Calm.logging Calm.execute).bind fun _ => .pure fun _ => id
  refine Calm.bind (Calm.forM fun chunk _ => ?_) fun _ => ?_
  · exact (Calm.logging Calm.execute).bind fun _ => .pure fun _ => id
  · exact (Calm.logging Calm.commit).bind fun _ => .pure fun _ => id

theorem neverPanics_updateTrack (id : ℤ) (u : TrackUpdate ρ) : NeverPanics (updateTrack id u) := by
  unfold updateTrack
  split
  · exact Calm.pure fun _ h => h
  · exact neverPanics_execute

section Searches

variable {env : Environment ρ} {cursor : Option ℤ}
  {criteria : Option (List (TrackSearch.SearchCriteria ρ))} {limit : ℤ}

/-- A search that panics. -/
theorem getTracks_panics (h : TrackSearch.AsksUnreadable (criteria.getD [])) :
    Panics (getTracks env cursor criteria limit) s := by
  rw [getTracks, TrackSearch.getTracks_eq_panic_iff.mpr h]
  exact panics_crash s

/-- All other searches find rows whose ids can be read. -/
theorem getTracks_calm (henv : env.FindsI64)
    (h : ¬ TrackSearch.AsksUnreadable (criteria.getD [])) :
    Calm (fun _ => True) (getTracks env cursor criteria limit)
      fun tracks _ => ∀ track ∈ tracks, ¬ track.id.Unreadable := by
  unfold getTracks
  split
  · exact Calm.raise
  · case h_2 hpanic => exact absurd (TrackSearch.getTracks_eq_panic_iff.mp hpanic) h
  · refine Calm.logging (Calm.fetchPool fun db tracks hfound => ?_)
    obtain ⟨rows, hrows, htracks⟩ := ok_of_bind hfound
    exact mapM_eq_ok (fun row hrow track => fromRow_readable (henv _ _ _ _ hrows row hrow)) htracks

/-- **The tags of `get_tracks`**: it gets to one that cannot be read. -/
theorem panics_getTracks_iff (henv : env.FindsI64) :
    Panics (getTracks env cursor criteria limit) s ↔
      TrackSearch.AsksUnreadable (criteria.getD []) := by
  refine ⟨fun hpanic => ?_, getTracks_panics⟩
  by_contra hnot
  exact (getTracks_calm henv hnot).not_panics trivial hpanic

/-- Its rows are joined with their sources. -/
theorem panics_getTracksWithSources_iff (henv : env.FindsI64) :
    Panics (getTracksWithSources env cursor criteria limit) s ↔
      TrackSearch.AsksUnreadable (criteria.getD []) := by
  refine ⟨fun hpanic => ?_, fun h => panics_bind_iff.mpr (.inl (getTracks_panics h))⟩
  by_contra hnot
  refine Calm.not_panics (P := fun _ => True) (Q := fun _ _ => True) ?_ trivial hpanic
  refine (getTracks_calm henv hnot).bind fun tracks => ?_
  split
  · exact .pure fun _ _ => trivial
  rintro s' htracks
  cases hids : tracks.mapM fun track => track.id.toI64 with
  | none =>
    obtain ⟨track, htrack, hnone⟩ := BigintId.mapM_eq_none_iff.mp hids
    exact absurd hnone (htracks track htrack)
  | some ids =>
    exact Calm.bind neverPanics_fetch (fun _ => Calm.pure fun _ _ => trivial) s' trivial

/-- **The tags of `get_tracks_filtered`**: it gets to all of them. -/
theorem panics_getTracksFiltered_iff
    {criteria : Option (List (FilteredTracks.SearchCriteriaFiltered ρ))} :
    Panics (getTracksFiltered env cursor criteria limit) s ↔
      FilteredTracks.AsksUnreadable (criteria.getD []) := by
  unfold getTracksFiltered
  rw [panics_orCrash_bind_iff, FilteredTracks.buildSelect_eq_none_iff, or_iff_left]
  rintro ⟨select, -, hpanic⟩
  exact neverPanics_fetch.not_panics s hpanic

end Searches

/-- The archive contains an id that can be read. -/
theorem neverPanics_deleteTrack (env : Environment ρ) (id : ℤ) :
    NeverPanics (deleteTrack env id) := by
  refine neverPanics_tryLog (Calm.scope (Calm.beginTx.bind fun _ => ?_))
  refine (Calm.fetch fun db track => selectTrack_readable).bind fun track => ?_
  refine Calm.assuming fun hreadable => Calm.fetchAny.bind fun sources => ?_
  refine Calm.fetchAny.bind fun tags => Calm.fetchAny.bind fun metas => ?_
  refine Calm.fetchAny.bind fun daily => ?_
  obtain ⟨n, hn⟩ := Option.ne_none_iff_exists'.mp hreadable
  rw [hn]
  refine Calm.bind (Q := fun _ => Open) (.pure fun _ h => h) fun _ => ?_
  exact Calm.execute.bind fun _ => Calm.execute.bind fun _ => Calm.commit

/-! ## Listening -/

theorem neverPanics_addListen (trackId : ℤ) (listenedFrom listenedTo : String) :
    NeverPanics (addListen (ρ := ρ) trackId listenedFrom listenedTo) := by
  have hparse : ∀ field text, NeverPanics (parseListened (ρ := ρ) field text) := by
    intro field text
    unfold parseListened
    split
    · exact Calm.pure fun _ => id
    · exact Calm.raise
  exact (hparse _ _).bind fun _ => (hparse _ _).bind fun _ => neverPanics_execute

theorem neverPanics_addListenedSeconds (env : Environment ρ) (date : String)
    (trackId seconds : ℤ) : NeverPanics (addListenedSeconds env date trackId seconds) := by
  refine Calm.scope ((Calm.logging Calm.beginTx).bind fun _ => ?_)
  refine (Calm.logging Calm.execute).bind fun _ => (Calm.logging Calm.execute).bind fun _ => ?_
  exact Calm.logging Calm.commit

/-! ## Assignments and sources -/

/-- An id of a `TagAssignment` cannot be read. -/
def TagAssignment.Unreadable (a : TagAssignment) : Prop :=
  a.trackId.Unreadable ∨ ∃ id ∈ a.tagIds, id.Unreadable

theorem TagAssignment.pairs_eq_none_iff {a : TagAssignment} : a.pairs = none ↔ a.Unreadable := by
  rw [pairs, Unreadable, ← BigintId.mapM_toI64_eq_none_iff, BigintId.Unreadable]
  cases a.trackId.toI64 <;> cases a.tagIds.mapM BigintId.toI64 <;> simp

/-- **The ids of an assignment**: they are converted in the transaction. -/
theorem panics_assignTags_iff {assignments : List TagAssignment} :
    Panics (assignTags (ρ := ρ) assignments) s ↔
      (∃ a ∈ assignments, a.Unreadable) ∧ ∀ e faults, s.faults ≠ some e :: faults := by
  have hnone : (∃ a ∈ assignments, a.Unreadable) ↔ assignments.mapM TagAssignment.pairs = none := by
    simp only [BigintId.mapM_eq_none_iff, TagAssignment.pairs_eq_none_iff]
  unfold assignTags assignTagsUnlogged
  rw [panics_tryLog_iff, panics_scope_iff, hnone]
  cases assignments.mapM TagAssignment.pairs with
  | none =>
    rw [panics_beginTx_bind_iff fun s' => panics_orCrash_bind_iff.mpr (.inl rfl)]
    exact (and_iff_right rfl).symm
  | some pairs =>
    refine iff_of_false ?_ (fun h => nomatch h.1)
    refine Calm.not_panics (P := fun _ => True) (Q := fun _ _ => True) ?_ trivial
    refine Calm.beginTx.bind fun _ => ?_
    refine Calm.bind (Q := fun _ => Open) (.pure fun _ => id) fun pairs => ?_
    exact Calm.bind (Calm.forM fun chunk _ => Calm.execute) fun _ => Calm.commit

theorem neverPanics_editTrackSource (trackId : ℤ) (oldUrl newUrl : String) :
    NeverPanics (editTrackSource (ρ := ρ) trackId oldUrl newUrl) := by
  refine Calm.scope ((Calm.logging Calm.beginTx).bind fun _ => ?_)
  refine (Calm.logging Calm.execute).bind fun _ => (Calm.logging Calm.execute).bind fun _ => ?_
  exact Calm.logging Calm.commit

end Repository

end Vamp
