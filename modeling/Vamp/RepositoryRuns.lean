import Vamp.Repository
import Vamp.StateMachine

/-!
# Runs of the repository

Any operations, one after the other, on the database of a new installation. Each of them may
succeed, fail at any of its actions, or panic; the next one finds what was committed.

What every statement keeps, every operation keeps (`KeptByStatements.preserves`): what is
not committed is never seen. `add_listened_seconds` is left out, as its two statements
belong together.
-/

namespace Vamp

namespace Repository

open Program

variable {ρ α β : Type}

/-- A call of an operation. -/
inductive Call (ρ : Type) : Type where
  | addTrack (t : NewTrack ρ)
  | addTracks (ts : List (NewTrack ρ))
  | updateTrack (id : ℤ) (u : TrackUpdate ρ)
  | getTracks (cursor : Option ℤ) (criteria : Option (List (TrackSearch.SearchCriteria ρ)))
    (limit : ℤ)
  | getTracksFiltered (cursor : Option ℤ)
    (criteria : Option (List (FilteredTracks.SearchCriteriaFiltered ρ))) (limit : ℤ)
  | getTrack (id : ℤ)
  | deleteTrack (id : ℤ)
  | addListen (trackId : ℤ) (listenedFrom listenedTo : String)
  | getListensForTrack (trackId : ℤ)
  | addTag (name : String)
  | editTag (id : ℤ) (name : String)
  | deleteTag (id : ℤ)
  | getAllTags
  | getTags (pattern : String)
  | assignTag (trackId tagId : ℤ)
  | assignTags (assignments : List TagAssignment)
  | removeTag (trackId tagId : ℤ)
  | getTagsForTrack (trackId : ℤ)
  | addMeta (trackId : ℤ) (key value : String)
  | updateMeta (id : ℤ) (value : String)
  | deleteMeta (id : ℤ)
  | getMetaForTrack (trackId : ℤ)
  | addTrackSource (trackId : ℤ) (url : String)
  | removeTrackSource (trackId : ℤ) (url : String)
  | editTrackSource (trackId : ℤ) (oldUrl newUrl : String)
  | getSourcesForTrack (trackId : ℤ)
  | getTracksWithSources (cursor : Option ℤ)
    (criteria : Option (List (TrackSearch.SearchCriteria ρ))) (limit : ℤ)
  | addError (errorText : String)
  | addTrackConflict (c : NewTrackConflict ρ)
  /-- on a day -/
  | addListenedSeconds (date : String) (trackId seconds : ℤ)

/-- Forget what is returned. -/
def ignore (p : Operation ρ α) : Operation ρ Unit := do
  let _ ← p

/-- What a call does. -/
def Call.run (env : Environment ρ) : Call ρ → Operation ρ Unit
  | addTrack t => ignore (Repository.addTrack t)
  | addTracks ts => ignore (Repository.addTracks ts)
  | updateTrack id u => Repository.updateTrack id u
  | getTracks cursor criteria limit => ignore (Repository.getTracks env cursor criteria limit)
  | getTracksFiltered cursor criteria limit =>
    ignore (Repository.getTracksFiltered env cursor criteria limit)
  | getTrack id => ignore (Repository.getTrack id)
  | deleteTrack id => Repository.deleteTrack env id
  | addListen trackId listenedFrom listenedTo =>
    ignore (Repository.addListen trackId listenedFrom listenedTo)
  | getListensForTrack trackId => ignore (Repository.getListensForTrack trackId)
  | addTag name => ignore (Repository.addTag name)
  | editTag id name => Repository.editTag id name
  | deleteTag id => Repository.deleteTag id
  | getAllTags => ignore Repository.getAllTags
  | getTags pattern => ignore (Repository.getTags env pattern)
  | assignTag trackId tagId => Repository.assignTag trackId tagId
  | assignTags assignments => Repository.assignTags assignments
  | removeTag trackId tagId => Repository.removeTag trackId tagId
  | getTagsForTrack trackId => ignore (Repository.getTagsForTrack trackId)
  | addMeta trackId key value => ignore (Repository.addMeta trackId key value)
  | updateMeta id value => Repository.updateMeta id value
  | deleteMeta id => Repository.deleteMeta id
  | getMetaForTrack trackId => ignore (Repository.getMetaForTrack trackId)
  | addTrackSource trackId url => ignore (Repository.addTrackSource trackId url)
  | removeTrackSource trackId url => Repository.removeTrackSource trackId url
  | editTrackSource trackId oldUrl newUrl => Repository.editTrackSource trackId oldUrl newUrl
  | getSourcesForTrack trackId => ignore (Repository.getSourcesForTrack trackId)
  | getTracksWithSources cursor criteria limit =>
    ignore (Repository.getTracksWithSources env cursor criteria limit)
  | addError errorText => ignore (Repository.addError errorText)
  | addTrackConflict c => ignore (Repository.addTrackConflict c)
  | addListenedSeconds date trackId seconds =>
    Repository.addListenedSeconds env date trackId seconds

/-- A call, and the failures of its actions. -/
structure Turn (ρ : Type) : Type where
  /-- the call -/
  call : Call ρ
  /-- the failures -/
  faults : List (Option SqlxError)

/-- The database after a call. -/
def turn (env : Environment ρ) (db : Database ρ) (t : Turn ρ) : Database ρ :=
  ((t.call.run env).final ⟨db, none, t.faults⟩).committed

/-- The repository of a new installation. -/
def repository (env : Environment ρ) : StateMachine (Database ρ) (Turn ρ) where
  init := Database.empty
  step db t := some (turn env db t)

/-! ## What operations keep -/

/-- A property of the committed tables is kept, however an operation ends. -/
def Preserves (I : Database ρ → Prop) (p : Operation ρ α) : Prop :=
  Triple (Committed I) p (fun _ => Committed I) (Committed I)

/-- A property that is kept by all statements but those that count seconds. -/
structure KeptByStatements (I : Database ρ → Prop) : Prop where
  insertTracks (ts : List (NewTrack ρ)) : Keeps I (Database.insertTracks ts)
  insertSources (sources : List (ℤ × String)) : Keeps I (Database.insertSources sources)
  insertListen (trackId listenedFrom listenedTo : ℤ) :
    Keeps I (Database.insertListen trackId listenedFrom listenedTo)
  insertTag (name : String) : Keeps I (Database.insertTag name)
  insertAssignments (pairs : List (ℤ × ℤ)) : Keeps I (Database.insertAssignments pairs)
  insertMeta (trackId : ℤ) (key value : String) : Keeps I (Database.insertMeta trackId key value)
  insertError (errorText : String) : Keeps I (Database.insertError errorText)
  insertConflict (c : NewTrackConflict ρ) (sameTrackId : ℤ) :
    Keeps I (Database.insertConflict c sameTrackId)
  insertRemoved (data : String) : Keeps I (Database.insertRemoved data)
  updateTrack (id : ℤ) (u : TrackUpdate ρ) : Keeps I (Database.updateTrack id u)
  updateTag (id : ℤ) (name : String) : Keeps I (Database.updateTag id name)
  updateMeta (id : ℤ) (value : String) : Keeps I (Database.updateMeta id value)
  deleteTrack (id : ℤ) : Keeps I (Database.deleteTrack id)
  deleteTag (id : ℤ) : Keeps I (Database.deleteTag id)
  deleteAssignment (trackId tagId : ℤ) : Keeps I (Database.deleteAssignment trackId tagId)
  deleteMeta (id : ℤ) : Keeps I (Database.deleteMeta id)
  deleteSource (trackId : ℤ) (url : String) : Keeps I (Database.deleteSource trackId url)

variable {I J : Database ρ → Prop}

theorem Preserves.bind {p : Operation ρ α} {f : α → Operation ρ β} (hp : Preserves I p)
    (hf : ∀ a, Preserves I (f a)) : Preserves I (p >>= f) := Triple.bind hp hf

theorem Preserves.pure {a : α} : Preserves I (pure a : Operation ρ α) := Triple.pure fun _ => id

theorem Preserves.crash : Preserves I (crash : Operation ρ α) := Triple.throw fun _ => id

theorem Preserves.raise {e : SqlxError} : Preserves I (raise e : Operation ρ α) :=
  Triple.throw fun _ => id

theorem Preserves.ignore {p : Operation ρ α} (hp : Preserves I p) : Preserves I (ignore p) :=
  hp.bind fun _ => .pure

theorem Preserves.orCrash {a : Option α} : Preserves I (orCrash a : Operation ρ α) := by
  cases a with
  | none => exact .crash
  | some a => exact .pure

theorem Triple.orCrash {P : Session (Database ρ) SqlxError → Prop} {a : Option α}
    (h : ∀ s, P s → Committed I s) :
    Triple P (orCrash a : Operation ρ α) (fun _ => P) (Committed I) := by
  cases a with
  | none => exact Triple.throw h
  | some a => exact Triple.pure fun _ => id

/-- What does not depend on the errors. -/
theorem keeps_insertError (h : ∀ db errors, I db → I { db with errors }) (errorText : String) :
    Keeps I (Database.insertError errorText) := by
  intro db id db' hdb hrun
  obtain ⟨errors, rfl, -⟩ := Database.insertError_changes hrun
  exact h db errors hdb

/-- Recording an error keeps what it is said to keep. -/
theorem Triple.tryLog {P : Session (Database ρ) SqlxError → Prop}
    {Q : α → Session (Database ρ) SqlxError → Prop} {context : String} {p : Operation ρ α}
    (h : ∀ errorText, Keeps I (Database.insertError errorText))
    (hp : Triple P p Q (Committed I)) : Triple P (tryLog context p) Q (Committed I) :=
  hp.logging fun _ => .executePool (h _)

theorem committed_of_within {s : Session (Database ρ) SqlxError} (h : Within I J s) :
    Committed I s := h.1

namespace KeptByStatements

variable (hI : KeptByStatements I)

include hI

/-- Recording an error keeps what operations keep. -/
theorem tryLog {P : Session (Database ρ) SqlxError → Prop}
    {Q : α → Session (Database ρ) SqlxError → Prop} {context : String} {p : Operation ρ α}
    (hp : Triple P p Q (Committed I)) : Triple P (tryLog context p) Q (Committed I) :=
  Triple.tryLog hI.insertError hp

/-- The operations that are one statement. -/
theorem execute {context : String} {statement : Database ρ → Except SqlxError (α × Database ρ)}
    (h : Keeps I statement) : Preserves I (Repository.tryLog context (executeOnPool statement)) :=
  hI.tryLog (.executePool h)

/-- The operations that are one query. -/
theorem fetch {context : String} {query : Database ρ → Except SqlxError α} :
    Preserves I (Repository.tryLog context (fetchPool query)) :=
  hI.tryLog .fetchPool

theorem addTrackUnlogged (t : NewTrack ρ) : Preserves I (addTrackUnlogged t) := by
  refine Triple.scope (Triple.beginTx.bind fun _ => ?_)
  refine (Triple.execute (hI.insertTracks [t])).bind fun trackId => ?_
  refine Triple.bind (Triple.forM fun url _ => ?_) fun _ => ?_
  · exact (Triple.execute (hI.insertSources _)).bind fun _ => .pure fun _ => id
  · exact (Triple.commit fun _ => id).bind fun _ => .pure fun _ => id

theorem addTracks (ts : List (NewTrack ρ)) : Preserves I (addTracks ts) := by
  refine Triple.scope ((hI.tryLog Triple.beginTx).bind fun _ => ?_)
  refine Triple.bind (Triple.mapM fun chunk _ => ?_) fun batches => ?_
  · refine (hI.tryLog (Triple.execute (hI.insertTracks chunk))).bind fun _ => ?_
    exact .pure fun _ => id
  refine Triple.bind (Triple.forM fun chunk _ => ?_) fun _ => ?_
  · refine (hI.tryLog (Triple.execute (hI.insertSources chunk))).bind fun _ => ?_
    exact .pure fun _ => id
  · exact (hI.tryLog (Triple.commit fun _ => id)).bind fun _ => .pure fun _ => id

theorem deleteTrackUnlogged (env : Environment ρ) (trackId : ℤ) :
    Preserves I (deleteTrackUnlogged env trackId) := by
  refine Triple.scope (Triple.beginTx.bind fun _ => ?_)
  refine Triple.fetch.bind fun track => Triple.fetch.bind fun sources => ?_
  refine Triple.fetch.bind fun tags => Triple.fetch.bind fun metas => ?_
  refine Triple.fetch.bind fun daily => ?_
  refine (Triple.orCrash fun _ => committed_of_within).bind fun _ => ?_
  refine (Triple.execute (hI.insertRemoved _)).bind fun _ => ?_
  refine (Triple.execute (hI.deleteTrack trackId)).bind fun _ => ?_
  exact Triple.commit fun _ => id

theorem assignTagsUnlogged (assignments : List TagAssignment) :
    Preserves I (assignTagsUnlogged assignments) := by
  refine Triple.scope (Triple.beginTx.bind fun _ => ?_)
  refine (Triple.orCrash fun _ => committed_of_within).bind fun pairs => ?_
  refine Triple.bind (Triple.forM fun chunk _ => ?_) fun _ => Triple.commit fun _ => id
  exact Triple.execute (hI.insertAssignments chunk)

theorem editTrackSource (trackId : ℤ) (oldUrl newUrl : String) :
    Preserves I (editTrackSource trackId oldUrl newUrl) := by
  refine Triple.scope ((hI.tryLog Triple.beginTx).bind fun _ => ?_)
  refine (hI.tryLog (Triple.execute (hI.deleteSource trackId oldUrl))).bind fun _ => ?_
  refine (hI.tryLog (Triple.execute (hI.insertSources [(trackId, newUrl)]))).bind fun _ => ?_
  exact hI.tryLog (Triple.commit fun _ => id)

theorem getTracks (env : Environment ρ) (cursor : Option ℤ)
    (criteria : Option (List (TrackSearch.SearchCriteria ρ))) (limit : ℤ) :
    Preserves I (getTracks env cursor criteria limit) := by
  unfold Repository.getTracks
  split
  · exact .raise
  · exact .crash
  · exact hI.fetch

/-- **What every statement keeps, every operation keeps**, apart from the one that counts. -/
theorem preserves (env : Environment ρ) (call : Call ρ)
    (hcall : ∀ date trackId seconds, call ≠ .addListenedSeconds date trackId seconds) :
    Preserves I (call.run env) := by
  cases call with
  | addTrack t =>
    exact Preserves.ignore (Preserves.orCrash.bind fun _ => hI.tryLog (hI.addTrackUnlogged t))
  | addTracks ts => exact (hI.addTracks ts).ignore
  | updateTrack id u =>
    rw [Call.run, Repository.updateTrack]
    split
    · exact .pure
    · exact hI.execute (hI.updateTrack id u)
  | getTracks cursor criteria limit => exact (hI.getTracks env cursor criteria limit).ignore
  | getTracksFiltered cursor criteria limit =>
    exact Preserves.ignore (Preserves.orCrash.bind fun _ => hI.fetch)
  | getTrack id => exact hI.fetch.ignore
  | deleteTrack id => exact hI.tryLog (hI.deleteTrackUnlogged env id)
  | addListen trackId listenedFrom listenedTo =>
    have hparse : ∀ field text, Preserves I (parseListened (ρ := ρ) field text) := by
      intro field text
      unfold parseListened
      split
      · exact .pure
      · exact .raise
    refine Preserves.ignore ((hparse _ _).bind fun _ => (hparse _ _).bind fun _ => ?_)
    exact hI.execute (hI.insertListen _ _ _)
  | getListensForTrack trackId => exact hI.fetch.ignore
  | addTag name => exact (hI.execute (hI.insertTag name)).ignore
  | editTag id name => exact hI.execute (hI.updateTag id name)
  | deleteTag id => exact hI.execute (hI.deleteTag id)
  | getAllTags => exact hI.fetch.ignore
  | getTags pattern => exact hI.fetch.ignore
  | assignTag trackId tagId => exact hI.execute (hI.insertAssignments [(trackId, tagId)])
  | assignTags assignments => exact hI.tryLog (hI.assignTagsUnlogged assignments)
  | removeTag trackId tagId => exact hI.execute (hI.deleteAssignment trackId tagId)
  | getTagsForTrack trackId => exact hI.fetch.ignore
  | addMeta trackId key value => exact (hI.execute (hI.insertMeta trackId key value)).ignore
  | updateMeta id value => exact hI.execute (hI.updateMeta id value)
  | deleteMeta id => exact hI.execute (hI.deleteMeta id)
  | getMetaForTrack trackId => exact hI.fetch.ignore
  | addTrackSource trackId url => exact (hI.execute (hI.insertSources [(trackId, url)])).ignore
  | removeTrackSource trackId url => exact hI.execute (hI.deleteSource trackId url)
  | editTrackSource trackId oldUrl newUrl => exact hI.editTrackSource trackId oldUrl newUrl
  | getSourcesForTrack trackId => exact hI.fetch.ignore
  | getTracksWithSources cursor criteria limit =>
    refine Preserves.ignore ((hI.getTracks env cursor criteria limit).bind fun tracks => ?_)
    split
    · exact .pure
    · exact Preserves.orCrash.bind fun _ => hI.fetch.bind fun _ => .pure
  | addError errorText =>
    refine Preserves.ignore ((Triple.executePool (hI.insertError errorText)).bind fun _ => ?_)
    exact Preserves.pure
  | addTrackConflict c =>
    exact Preserves.ignore (Preserves.orCrash.bind fun _ => hI.execute (hI.insertConflict c _))
  | addListenedSeconds date trackId seconds => exact absurd rfl (hcall date trackId seconds)

end KeptByStatements

end Repository

end Vamp
