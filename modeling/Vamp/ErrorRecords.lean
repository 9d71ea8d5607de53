import Vamp.RepositoryRuns

/-!
# Which errors are recorded

Every operation but `add_error` records the error that it returns, with one row in `errors`, and
through another connection. Three operations do so while their own transaction is open. As the
statement that failed in it had taken the lock for writing, the record waits for this lock until
it times out, and is lost. The others have left their transaction by then.

Here nothing else uses the database, and only statements fail: an error that is returned is
recorded if and only if the operation is not one of these three, and `errors` has a key left
(`one_record_iff`).
-/

namespace Vamp

namespace Repository

open Program

variable {ρ α β : Type} {db : Database ρ}

/-! ## Records -/

/-- **One record**: `errors` has one more row, and everything else is as it was. -/
def OneRecord (db db' : Database ρ) : Prop :=
  ∃ errors row, db' = { db with errors } ∧ errors.rows = db.errors.rows ++ [row]

theorem not_oneRecord_self (db : Database ρ) : ¬ OneRecord db db := by
  rintro ⟨errors, row, hdb, hrows⟩
  have herrors : db.errors = errors := congrArg Database.errors hdb
  rw [herrors] at hrows
  exact absurd (congrArg List.length hrows) (by simp)

/-- An error is recorded if there is a key left. -/
theorem oneRecord_final_iff {errorText : String} :
    OneRecord db ((executeOnPool (Database.insertError errorText)).final
      ⟨db, none, []⟩).committed ↔ db.errors.seq < maxRowid := by
  rw [executeOnPool, final_executePool]
  by_cases hseq : db.errors.seq < maxRowid
  · have hrun : ∃ n db', Database.insertError errorText db = .ok (n, db') := by
      simp only [Database.insertError, Database.insertInto, SqlTable.insert, dif_pos hseq]
      exact ⟨_, _, rfl⟩
    obtain ⟨n, db', hrun⟩ := hrun
    obtain ⟨errors, rfl, hrows⟩ := Database.insertError_changes hrun
    rw [hrun]
    exact iff_of_true ⟨errors, _, rfl, hrows⟩ hseq
  · have hrun : Database.insertError errorText db = .error .full := by
      simp only [Database.insertError, Database.insertInto, SqlTable.insert, dif_neg hseq]
      rfl
    rw [hrun]
    exact iff_of_false (not_oneRecord_self db) hseq

/-- The error of a statement is recorded, as far as there is a key. -/
def Recorded (db : Database ρ) (e : Failure SqlxError) (s : Session (Database ρ) SqlxError) :
    Prop :=
  ∀ message, e = .error (.database message) →
    (OneRecord db s.committed ↔ db.errors.seq < maxRowid)

theorem recorded_panic {s : Session (Database ρ) SqlxError} : Recorded db .panic s := nofun

variable {P : Session (Database ρ) SqlxError → Prop}
  {Q : α → Session (Database ρ) SqlxError → Prop}
  {F : Failure SqlxError → Session (Database ρ) SqlxError → Prop} {context : String}

/-- **Without a transaction** an error is recorded. -/
theorem recorded_tryLog {p : Operation ρ α} (hp : Leaves P p Q fun _ => Idle db) :
    Leaves P (tryLog context p) Q (Recorded db) := by
  refine Leaves.loggingTo hp ?_ fun _ _ => recorded_panic
  rintro e _ rfl message -
  exact oneRecord_final_iff

/-- **In a transaction** of its own it is not. -/
theorem unrecorded_tryLog {p : Operation ρ α} (hp : Leaves P p Q fun _ => Locked db) :
    Leaves P (tryLog context p) Q fun _ => Locked db := by
  refine Leaves.logging hp fun e s hs => ?_
  rw [executeOnPool, final_executePool_of_locked hs]
  exact hs

/-! ## Operations that record outside of a transaction -/

/-- The operation records its errors while its own transaction is open. -/
def Call.RecordsInTransaction : Call ρ → Prop
  | .addTracks _ => True
  | .editTrackSource _ _ _ => True
  | .addListenedSeconds _ _ _ => True
  | _ => False

theorem leaves_ignore {p : Operation ρ α} (hp : Leaves P p (fun _ _ => True) F) :
    Leaves P (ignore p) (fun _ _ => True) F := hp.bind fun _ _ => id

theorem leaves_orCrash {a : Option α} (hF : ∀ s, P s → F .panic s) :
    Leaves P (orCrash a : Operation ρ α) (fun _ => P) F := by
  cases a with
  | none => exact hF
  | some a => exact fun _ => id

/-- The operations that are one statement. -/
theorem recorded_execute {statement : Database ρ → Except SqlxError (α × Database ρ)} :
    Leaves (Idle db) (tryLog context (executeOnPool statement)) (fun _ _ => True) (Recorded db) :=
  recorded_tryLog Idle.executePool

/-- The operations that are one query. -/
theorem recorded_fetch {query : Database ρ → Except SqlxError α} :
    Leaves (Idle db) (tryLog context (fetchPool query)) (fun _ => Idle db) (Recorded db) :=
  recorded_tryLog Idle.fetchPool

theorem recorded_fetch_ignored {query : Database ρ → Except SqlxError α} :
    Leaves (Idle db) (ignore (tryLog context (fetchPool query))) (fun _ _ => True)
      (Recorded db) :=
  recorded_fetch.bind fun _ _ _ => trivial

/-- A statement in a transaction that is rolled back when it fails. -/
theorem idle_execute {statement : Database ρ → Except SqlxError (α × Database ρ)} :
    Leaves (Writing db) (execute statement) (fun _ => Writing db) fun _ => Writing db :=
  Idle.execute.mono (fun _ => id) (fun _ _ => id) fun _ _ => Locked.writing

theorem idle_addTrackUnlogged (t : NewTrack ρ) :
    Leaves (Idle db) (addTrackUnlogged t) (fun _ _ => True) fun _ => Idle db := by
  refine Idle.scope (Idle.beginTx.bind fun _ => idle_execute.bind fun trackId => ?_)
  refine Leaves.bind (Leaves.forM fun url _ => ?_) fun _ => Idle.commit.bind fun _ _ => id
  exact idle_execute.bind fun _ _ => id

theorem idle_deleteTrackUnlogged (env : Environment ρ) (trackId : ℤ) :
    Leaves (Idle db) (deleteTrackUnlogged env trackId) (fun _ _ => True) fun _ => Idle db := by
  refine Idle.scope (Idle.beginTx.bind fun _ => Idle.fetch.bind fun track => ?_)
  refine Idle.fetch.bind fun sources => Idle.fetch.bind fun tags => ?_
  refine Idle.fetch.bind fun metas => Idle.fetch.bind fun daily => ?_
  refine (leaves_orCrash (F := fun _ => Writing db) fun _ => id).bind fun _ =>
    idle_execute.bind fun _ => ?_
  exact idle_execute.bind fun _ => Idle.commit

theorem idle_assignTagsUnlogged (assignments : List TagAssignment) :
    Leaves (Idle db) (assignTagsUnlogged assignments) (fun _ _ => True) fun _ => Idle db := by
  refine Idle.scope (Idle.beginTx.bind fun _ => ?_)
  refine (leaves_orCrash (F := fun _ => Writing db) fun _ => id).bind fun pairs => ?_
  exact Leaves.bind (Leaves.forM fun chunk _ => idle_execute) fun _ => Idle.commit

theorem recorded_getTracks (env : Environment ρ) (cursor : Option ℤ)
    (criteria : Option (List (TrackSearch.SearchCriteria ρ))) (limit : ℤ) :
    Leaves (Idle db) (getTracks env cursor criteria limit) (fun _ => Idle db) (Recorded db) := by
  unfold getTracks
  split
  · exact fun _ _ _ => nofun
  · exact fun _ _ => recorded_panic
  · exact recorded_fetch

theorem recorded_parseListened (field text : String) :
    Leaves (Idle db) (parseListened field text) (fun _ => Idle db) (Recorded db) := by
  unfold parseListened
  split
  · exact fun _ => id
  · exact fun _ _ _ => nofun

/-- **All other operations** record their errors after their transaction. -/
theorem recorded_run (env : Environment ρ) {call : Call ρ} (hcall : ¬ call.RecordsInTransaction)
    (herror : ∀ errorText, call ≠ .addError errorText) :
    Leaves (Idle db) (call.run env) (fun _ _ => True) (Recorded db) := by
  have hcrash : ∀ {α : Type} {a : Option α},
      Leaves (Idle db) (orCrash a : Operation ρ α) (fun _ => Idle db) (Recorded db) :=
    leaves_orCrash fun _ _ => recorded_panic
  cases call with
  | addTrack t =>
    exact leaves_ignore (hcrash.bind fun _ => recorded_tryLog (idle_addTrackUnlogged t))
  | addTracks ts => exact absurd trivial hcall
  | updateTrack id u =>
    rw [Call.run, updateTrack]
    split
    · exact fun _ _ => trivial
    · exact recorded_execute
  | getTracks cursor criteria limit =>
    exact (recorded_getTracks env cursor criteria limit).bind fun _ _ _ => trivial
  | getTracksFiltered cursor criteria limit =>
    exact (hcrash.bind fun _ => recorded_fetch).bind fun _ _ _ => trivial
  | getTrack id => exact recorded_fetch_ignored
  | deleteTrack id => exact recorded_tryLog (idle_deleteTrackUnlogged env id)
  | addListen trackId listenedFrom listenedTo =>
    refine leaves_ignore ((recorded_parseListened _ _).bind fun _ => ?_)
    exact (recorded_parseListened _ _).bind fun _ => recorded_execute
  | getListensForTrack trackId => exact recorded_fetch_ignored
  | addTag name => exact leaves_ignore recorded_execute
  | editTag id name => exact recorded_execute
  | deleteTag id => exact recorded_execute
  | getAllTags => exact recorded_fetch_ignored
  | getTags pattern => exact recorded_fetch_ignored
  | assignTag trackId tagId => exact recorded_execute
  | assignTags assignments => exact recorded_tryLog (idle_assignTagsUnlogged assignments)
  | removeTag trackId tagId => exact recorded_execute
  | getTagsForTrack trackId => exact recorded_fetch_ignored
  | addMeta trackId key value => exact leaves_ignore recorded_execute
  | updateMeta id value => exact recorded_execute
  | deleteMeta id => exact recorded_execute
  | getMetaForTrack trackId => exact recorded_fetch_ignored
  | addTrackSource trackId url => exact leaves_ignore recorded_execute
  | removeTrackSource trackId url => exact recorded_execute
  | editTrackSource trackId oldUrl newUrl => exact absurd trivial hcall
  | getSourcesForTrack trackId => exact recorded_fetch_ignored
  | getTracksWithSources cursor criteria limit =>
    refine leaves_ignore ((recorded_getTracks env cursor criteria limit).bind fun tracks => ?_)
    split
    · exact fun _ _ => trivial
    · exact hcrash.bind fun _ => recorded_fetch.bind fun _ _ _ => trivial
  | addError errorText => exact absurd rfl (herror errorText)
  | addTrackConflict c => exact leaves_ignore (hcrash.bind fun _ => recorded_execute)
  | addListenedSeconds date trackId seconds => exact absurd trivial hcall

/-! ## Operations that record in a transaction -/

theorem unrecorded_execute {statement : Database ρ → Except SqlxError (α × Database ρ)} :
    Leaves (Writing db) (tryLog context (execute statement)) (fun _ => Writing db)
      fun _ => Locked db := unrecorded_tryLog Idle.execute

/-- The transaction is rolled back after the attempt to record. -/
theorem unrecorded_scope {p : Operation ρ α}
    (hp : Leaves (Idle db) p (fun _ _ => True) fun _ => Locked db) :
    Leaves (Idle db) (scope p) (fun _ _ => True) fun _ s => s.committed = db := by
  refine Leaves.scope (hp.mono (fun _ => id) (fun _ _ _ => trivial) ?_)
  rintro e _ ⟨tables, rfl⟩
  rfl

/-- **These three operations** leave everything as it was, also `errors`. -/
theorem unrecorded_run (env : Environment ρ) {call : Call ρ} (hcall : call.RecordsInTransaction) :
    Leaves (Idle db) (call.run env) (fun _ _ => True) fun _ s => s.committed = db := by
  have hbegin : ∀ {context : String}, Leaves (Idle db) (tryLog context beginTx : Operation ρ Unit)
      (fun _ => Writing db) fun _ => Locked db := unrecorded_tryLog Idle.beginTx
  have hcommit : ∀ {context : String},
      Leaves (Writing db) (tryLog context commit : Operation ρ Unit)
        (fun _ _ => True) fun _ => Locked db := unrecorded_tryLog Idle.commit
  cases call with
  | addTracks ts =>
    refine leaves_ignore (unrecorded_scope (hbegin.bind fun _ => ?_))
    refine Leaves.bind (Leaves.mapM fun chunk _ => ?_) fun batches => ?_
    · exact unrecorded_execute.bind fun _ _ => id
    refine Leaves.bind (Leaves.forM fun chunk _ => ?_) fun _ => hcommit.bind fun _ _ => id
    exact unrecorded_execute.bind fun _ _ => id
  | editTrackSource trackId oldUrl newUrl =>
    refine unrecorded_scope (hbegin.bind fun _ => unrecorded_execute.bind fun _ => ?_)
    exact unrecorded_execute.bind fun _ => hcommit
  | addListenedSeconds date trackId seconds =>
    refine unrecorded_scope (hbegin.bind fun _ => unrecorded_execute.bind fun _ => ?_)
    exact unrecorded_execute.bind fun _ => hcommit
  | _ => exact hcall.elim

/-! ## Failures -/

/-- **An error of a statement is recorded**, once and with no other change, if and only if the
operation does not record it in its own transaction, and `errors` has a key left. -/
theorem one_record_iff (env : Environment ρ) (db : Database ρ) (call : Call ρ)
    (hcall : ∀ errorText, call ≠ .addError errorText) {message : String}
    {s' : Session (Database ρ) SqlxError}
    (hrun : call.run env ⟨db, none, []⟩ = .error (.error (.database message)) s') :
    OneRecord db s'.committed ↔ ¬ call.RecordsInTransaction ∧ db.errors.seq < maxRowid := by
  by_cases hin : call.RecordsInTransaction
  · have hleaves : Leaves (Idle db) (call.run env) (fun _ _ => True) fun _ s => s.committed = db :=
      unrecorded_run env hin
    have hleaves := hleaves ⟨db, none, []⟩ rfl
    rw [hrun] at hleaves
    rw [hleaves]
    exact iff_of_false (not_oneRecord_self db) fun h => h.1 hin
  · have hleaves : Leaves (Idle db) (call.run env) (fun _ _ => True) (Recorded db) :=
      recorded_run env hin hcall
    have hleaves := hleaves ⟨db, none, []⟩ rfl
    rw [hrun] at hleaves
    rw [hleaves message rfl]
    exact (and_iff_right hin).symm

/-- A tag is assigned to a track, and neither is there. -/
theorem one_record_iff_assigned :
    ∃ s', (Call.assignTag 1 1).run plainEnvironment ⟨Database.empty, none, []⟩ =
      .error (.error .foreignKey) s' ∧ OneRecord Database.empty s'.committed := by
  refine ⟨_, rfl, ?_⟩
  exact (one_record_iff plainEnvironment Database.empty (.assignTag 1 1) nofun rfl).mpr
    ⟨id, by decide⟩

/-- A source of a track is edited, and the track is not there. -/
theorem not_oneRecord_edited :
    ∃ s', (Call.editTrackSource 1 "nocturne.mp3" "nocturne.flac").run plainEnvironment
        ⟨Database.empty, none, []⟩ = .error (.error .foreignKey) s' ∧
      s'.committed.errors.rows = [] ∧ ¬ OneRecord Database.empty s'.committed :=
  ⟨_, rfl, rfl, not_oneRecord_self _⟩

end Repository

end Vamp
