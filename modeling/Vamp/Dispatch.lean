import Vamp.Command
import Vamp.ListenGuard
import Vamp.RepositoryPanics
import Vamp.StateMachine

/-!
# The dispatcher

`execute` and `dispatch_with_core` of `dispatch.rs`: a command is carried out by the
repository, and its result is turned into JSON. The dispatcher is a machine whose steps are
requests; what it shares between them is the repository and the guard of the listening
records.

It can be made to panic (`record_after_panic`), by an id that is no number, by a track without
sources, and by a negative number of seconds. The latter does not only concern the client
that sends it: it poisons the guard, and no record is accepted any more. The exact condition
is `answers_iff`.

The ids of new rows leave in another form than the ids of rows that are looked up: as
numbers, which are no `BigintId` (`created_ids_rejected`).
-/

namespace Vamp

variable {ρ α : Type}

/-! ## Ids in JSON -/

namespace BigintId

/-- `BigintId` as JSON. -/
def toJson (id : BigintId) : Json := .str id.text

/-- JSON as `BigintId`. -/
def fromJson : Json → Option BigintId
  | .str text => some ⟨text⟩
  | _ => none

@[simp] theorem fromJson_toJson (id : BigintId) : fromJson id.toJson = some id := rfl

/-- **The ids of rows**: they come back as what they are. -/
theorem toI64_fromJson_toJson {n : ℤ} (h : IsI64 n) :
    (fromJson (fromI64 n).toJson).bind toI64 = some n := by
  rw [fromJson_toJson, Option.bind_some, toI64_fromI64 h]

end BigintId

namespace Dispatch

open Program Repository

/-! ## Results

The members of an object stand in the order of a `BTreeMap`. -/

/-- `TrackRow` as JSON, without the braces; the sources may stand in the middle. -/
def trackMembers (env : Environment ρ) (track : TrackRow ρ) (sources : List (String × Json)) :
    List (String × Json) :=
  [("addition_time", .str track.additionTime),
    ("artist", .str track.artist),
    ("bitrate_kbps", orNull .int track.bitrateKbps),
    ("id", track.id.toJson),
    ("length_seconds", orNull .int track.lengthSeconds),
    ("listened_seconds", .int track.listenedSeconds)] ++ sources ++
  [("tempo_bpm", orNull .float (track.tempoBpm.bind env.number)),
    ("track_name", .str track.trackName)]

/-- `TrackRow` as JSON. -/
def trackJson (env : Environment ρ) (track : TrackRow ρ) : Json := .obj (trackMembers env track [])

/-- `TrackSource` as JSON. -/
def sourceJson (source : SourceRow) : Json :=
  .obj [("id", source.id.toJson), ("track_id", source.trackId.toJson), ("url", .str source.url)]

/-- `TrackWithSources` as JSON. -/
def trackWithSourcesJson (env : Environment ρ) (track : TrackRow ρ × List SourceRow) : Json :=
  .obj (trackMembers env track.1 [("sources", .arr (track.2.map sourceJson))])

/-- `ListenInfo` as JSON. -/
def listenJson (listen : ListenRow) : Json :=
  .obj [("id", listen.id.toJson), ("listened_from", .int listen.listenedFrom),
    ("listened_to", .int listen.listenedTo), ("track_id", listen.trackId.toJson)]

/-- `Tag` as JSON. -/
def tagJson (tag : TagRow) : Json := .obj [("id", tag.id.toJson), ("tag_name", .str tag.tagName)]

/-- `TrackMeta` as JSON. -/
def metaJson (m : MetaRow) : Json :=
  .obj [("id", m.id.toJson), ("key", .str m.key), ("track_id", m.trackId.toJson),
    ("value", .str m.value)]

/-- A list as JSON. -/
def listJson (toJson : α → Json) (xs : List α) : Json := .arr (xs.map toJson)

/-- `to_val`. -/
def toVal (toJson : α → Json) (result : Operation ρ α) : Operation ρ Json := do
  let data ← result
  pure (toJson data)

/-- The result of an operation without a result. -/
def thenNull (result : Operation ρ Unit) : Operation ρ Json := toVal (fun _ => .null) result

/-- `cursor.map(|c| c.to_i64())`. -/
def readCursor : Option BigintId → Operation ρ (Option ℤ)
  | some id => do
    let n ← orCrash id.toI64
    pure (some n)
  | none => pure none

/-! ## Executing a command -/

/-- What a request meets with. -/
structure Circumstances : Type where
  /-- `Instant::now` -/
  now : ℕ
  /-- the day -/
  date : String
  /-- what `get_script_data` returns, unless it panics -/
  script : Option String
  /-- the failures of the actions of the repository -/
  faults : List (Option SqlxError)
  /-- what `create_repo` returns, apart from an empty repository -/
  created : Except String Unit

/-- How a request ends. -/
inductive Reply : Type where
  | ok (value : Json)
  | err (message : String)
  | panic

/-- How a request ends, and what it leaves behind. -/
structure Outcome (ρ : Type) : Type where
  /-- how it ends -/
  reply : Reply
  /-- the tables -/
  repo : Database ρ
  /-- the guard -/
  guard : ListenGuard

/-- A part of the request that uses the repository only. -/
def answer (c : Circumstances) (guard : ListenGuard) (repo : Database ρ) (p : Operation ρ Json) :
    Outcome ρ :=
  match p ⟨repo, none, c.faults⟩ with
  | .ok value s => ⟨.ok value, s.committed, guard⟩
  | .error (.error e) s => ⟨.err e.display, s.committed, guard⟩
  | .error .panic s => ⟨.panic, s.committed, guard⟩

/-- `execute`. -/
def execute (env : Environment ρ) (c : Circumstances) (guard : ListenGuard) (repo : Database ρ) :
    Command ρ → Outcome ρ
  | .addTrack track => answer c guard repo (toVal .int (addTrack track))
  | .addTracks tracks => answer c guard repo (toVal (listJson .int) (addTracks tracks))
  | .updateTrack ⟨id, update⟩ => answer c guard repo (thenNull do
      updateTrack (← orCrash id.toI64) update)
  | .getTracks ⟨cursor, criteria, limit⟩ => answer c guard repo (toVal (listJson (trackJson env)) do
      getTracks env (← readCursor cursor) criteria limit)
  | .getTracksWithSources ⟨cursor, criteria, limit⟩ =>
    answer c guard repo (toVal (listJson (trackWithSourcesJson env)) do
      getTracksWithSources env (← readCursor cursor) criteria limit)
  | .getTracksFiltered ⟨cursor, criteria, limit⟩ =>
    answer c guard repo (toVal (listJson (trackJson env)) do
      getTracksFiltered env (← readCursor cursor) criteria limit)
  | .getTrack ⟨id⟩ => answer c guard repo (toVal (trackJson env) do
      getTrack (← orCrash id.toI64))
  | .deleteTrack ⟨id⟩ => answer c guard repo (thenNull do
      deleteTrack env (← orCrash id.toI64))
  | .addListen ⟨trackId, listenedFrom, listenedTo⟩ => answer c guard repo (toVal .int do
      addListen (← orCrash trackId.toI64) listenedFrom listenedTo)
  | .getListensForTrack ⟨trackId⟩ => answer c guard repo (toVal (listJson listenJson) do
      getListensForTrack (← orCrash trackId.toI64))
  | .addListenedSeconds ⟨trackId, seconds⟩ =>
    -- the guard is locked before the id is read
    match guard.shouldRecord window c.now seconds with
    | (none, guard) => ⟨.panic, repo, guard⟩
    | (some record, guard) => answer c guard repo (thenNull do
        if record then addListenedSeconds env c.date (← orCrash trackId.toI64) seconds)
  | .addTag ⟨name⟩ => answer c guard repo (toVal .int (addTag name))
  | .editTag ⟨id, name⟩ => answer c guard repo (thenNull do
      editTag (← orCrash id.toI64) name)
  | .deleteTag ⟨id⟩ => answer c guard repo (thenNull do
      deleteTag (← orCrash id.toI64))
  | .getAllTags => answer c guard repo (toVal (listJson tagJson) getAllTags)
  | .getTags ⟨pattern⟩ => answer c guard repo (toVal (listJson tagJson) (getTags env pattern))
  | .assignTag ⟨trackId, tagId⟩ => answer c guard repo (thenNull do
      assignTag (← orCrash trackId.toI64) (← orCrash tagId.toI64))
  | .assignTags assignments => answer c guard repo (thenNull (assignTags assignments))
  | .removeTag ⟨trackId, tagId⟩ => answer c guard repo (thenNull do
      removeTag (← orCrash trackId.toI64) (← orCrash tagId.toI64))
  | .getTagsForTrack ⟨trackId⟩ => answer c guard repo (toVal (listJson tagJson) do
      getTagsForTrack (← orCrash trackId.toI64))
  | .addMeta ⟨trackId, key, value⟩ => answer c guard repo (toVal .int do
      addMeta (← orCrash trackId.toI64) key value)
  | .updateMeta ⟨id, value⟩ => answer c guard repo (thenNull do
      updateMeta (← orCrash id.toI64) value)
  | .deleteMeta ⟨id⟩ => answer c guard repo (thenNull do
      deleteMeta (← orCrash id.toI64))
  | .getMetaForTrack ⟨trackId⟩ => answer c guard repo (toVal (listJson metaJson) do
      getMetaForTrack (← orCrash trackId.toI64))
  | .addTrackSource ⟨trackId, url⟩ => answer c guard repo (toVal .int do
      addTrackSource (← orCrash trackId.toI64) url)
  | .removeTrackSource ⟨trackId, url⟩ => answer c guard repo (thenNull do
      removeTrackSource (← orCrash trackId.toI64) url)
  | .editTrackSource ⟨trackId, oldUrl, newUrl⟩ => answer c guard repo (thenNull do
      editTrackSource (← orCrash trackId.toI64) oldUrl newUrl)
  | .getSourcesForTrack ⟨trackId⟩ => answer c guard repo (toVal (listJson sourceJson) do
      getSourcesForTrack (← orCrash trackId.toI64))
  | .getHtmlBundle => answer c guard repo (toVal .str (orCrash c.script))
  | .logFromUi _ => ⟨.ok .null, repo, guard⟩
  | .resetDatabase => ⟨.err "ResetDatabase must be dispatched via dispatch_with_core", repo, guard⟩
  | .pageSource _ => ⟨.ok (.str "filler"), repo, guard⟩

/-! ## The machine -/

/-- `AppCore`. -/
structure Core (ρ : Type) : Type where
  /-- the repository, unless it is being replaced -/
  repo : Option (Database ρ)
  /-- the guard -/
  guard : ListenGuard
  /-- the database may be reset -/
  isTest : Bool

/-- A command, and what it meets with. -/
structure Request (ρ : Type) : Type where
  /-- the command -/
  cmd : Command ρ
  /-- what it meets with -/
  circumstances : Circumstances

/-- `AppCore::reset_database`. -/
def resetDatabase (c : Circumstances) (core : Core ρ) : Reply × Core ρ :=
  if core.isTest then
    match c.created with
    | .ok () => (.ok .null, { core with repo := some Database.empty })
    | .error message => (.err message, core)
  else (.err "reset_database is only allowed in test mode", core)

/-- `dispatch_with_core`. -/
def dispatchWithCore (env : Environment ρ) (core : Core ρ) (r : Request ρ) : Reply × Core ρ :=
  match r.cmd with
  | .resetDatabase => resetDatabase r.circumstances core
  | cmd =>
    match core.repo with
    | none => (.err "database is resetting, try again shortly", core)
    | some repo =>
      let outcome := execute env r.circumstances core.guard repo cmd
      (outcome.reply, { core with repo := some outcome.repo, guard := outcome.guard })

/-- An application that has just been started, with some database. -/
def Core.new (repo : Database ρ) (isTest : Bool) : Core ρ := ⟨some repo, .new, isTest⟩

/-- The dispatcher of an application. -/
def dispatcher (env : Environment ρ) (core : Core ρ) : StateMachine (Core ρ) (Request ρ) where
  init := core
  step core r := some (dispatchWithCore env core r).2

/-! ## What does not panic -/

/-- What makes a command panic, apart from the ids that it converts in any case. -/
def Breaks (c : Circumstances) (guard : ListenGuard) : Command ρ → Prop
  | .addTrack track => track.sources = []
  | .getTracks args | .getTracksWithSources args =>
    TrackSearch.AsksUnreadable (args.criteria.getD [])
  | .getTracksFiltered args => FilteredTracks.AsksUnreadable (args.criteria.getD [])
  | .addListenedSeconds args =>
    guard.last ≠ none ∧ args.seconds < 0 ∨
      guard.Admits window c.now args.seconds ∧ args.trackId.Unreadable
  | .assignTags assignments =>
    (∃ a ∈ assignments, a.Unreadable) ∧ ∀ e faults, c.faults ≠ some e :: faults
  | .getHtmlBundle => c.script = none
  | _ => False

/-- A request that does not panic, provided that the guard has not been poisoned before: its
ids can be read, and nothing else is wrong with it. -/
structure Harmless (core : Core ρ) (r : Request ρ) : Prop where
  /-- the ids that are converted in any case -/
  ids : ∀ id ∈ r.cmd.ids, ¬ id.Unreadable
  /-- all the rest -/
  rest : ¬ Breaks r.circumstances core.guard r.cmd

variable {env : Environment ρ} {c : Circumstances} {guard : ListenGuard} {repo : Database ρ}
  {s : Session (Database ρ) SqlxError}

theorem panics_toVal_iff (toJson : α → Json) {p : Operation ρ α} :
    Panics (toVal toJson p) s ↔ Panics p s := by
  refine panics_bind_iff.trans (or_iff_left ?_)
  rintro ⟨a, s', -, s'', hpure⟩
  cases hpure

theorem panics_readCursor_bind_iff {cursor : Option BigintId} {f : Option ℤ → Operation ρ α}
    {p : Prop} (hf : ∀ cursor, Panics (f cursor) s ↔ p) :
    Panics (readCursor cursor >>= f) s ↔ (∃ id ∈ cursor.toList, id.Unreadable) ∨ p := by
  cases cursor with
  | none =>
    have hbind : (readCursor none >>= f) = f none := rfl
    rw [hbind, hf]
    simp
  | some id =>
    have hbind : (readCursor (some id) >>= f) = (orCrash id.toI64 >>= fun n => f (some n)) := by
      cases hread : id.toI64 <;> simp only [readCursor, hread] <;> rfl
    rw [hbind, panics_orCrash_bind_iff]
    simp only [hf, Option.toList_some, List.mem_singleton, exists_eq_left, BigintId.Unreadable]
    cases id.toI64 <;> simp

theorem answer_eq_panic_iff {toJson : α → Json} {p : Operation ρ α} :
    (answer c guard repo (toVal toJson p)).reply = .panic ↔ Panics p ⟨repo, none, c.faults⟩ := by
  rw [← panics_toVal_iff toJson]
  unfold answer Panics
  cases toVal toJson p ⟨repo, none, c.faults⟩ with
  | ok value s' => simp
  | error e s' => cases e <;> simp

@[simp] theorem answer_guard {p : Operation ρ Json} : (answer c guard repo p).guard = guard := by
  unfold answer
  split <;> rfl

section Families

variable {toJson : α → Json}

/-- The commands without ids. -/
theorem answers_of_never {p : Operation ρ α} (hp : NeverPanics p) :
    (answer c guard repo (toVal toJson p)).reply = .panic ↔
      (∃ id ∈ ([] : List BigintId), id.Unreadable) ∨ False := by
  rw [answer_eq_panic_iff]
  exact iff_of_false (hp.not_panics _) (by simp)

/-- The commands with an id. -/
theorem answers_of_read {id : BigintId} {f : ℤ → Operation ρ α} (hf : ∀ n, NeverPanics (f n)) :
    (answer c guard repo (toVal toJson (orCrash id.toI64 >>= f))).reply = .panic ↔
      (∃ id' ∈ [id], id'.Unreadable) ∨ False := by
  rw [answer_eq_panic_iff, panics_orCrash_bind_iff, or_iff_left]
  · simp [BigintId.Unreadable]
  · rintro ⟨n, -, hpanic⟩
    exact (hf n).not_panics _ hpanic

/-- The commands with two ids. -/
theorem answers_of_read_two {id id' : BigintId} {f : ℤ → ℤ → Operation ρ α}
    (hf : ∀ n n', NeverPanics (f n n')) :
    (answer c guard repo (toVal toJson do
        f (← orCrash id.toI64) (← orCrash id'.toI64))).reply = .panic ↔
      (∃ id'' ∈ [id, id'], id''.Unreadable) ∨ False := by
  rw [answer_eq_panic_iff, panics_orCrash_bind_iff]
  have hsecond : ∀ n, Panics (orCrash id'.toI64 >>= f n) ⟨repo, none, c.faults⟩ ↔
      id'.Unreadable := by
    intro n
    refine panics_orCrash_bind_iff.trans (or_iff_left ?_)
    rintro ⟨n', -, hpanic⟩
    exact (hf n n').not_panics _ hpanic
  simp only [hsecond, BigintId.Unreadable]
  cases hread : id.toI64 <;> simp [hread]

/-- The searches. -/
theorem answers_of_cursor {cursor : Option BigintId} {f : Option ℤ → Operation ρ α} {p : Prop}
    (hf : ∀ cursor s, Panics (f cursor) s ↔ p) :
    (answer c guard repo (toVal toJson (readCursor cursor >>= f))).reply = .panic ↔
      (∃ id ∈ cursor.toList, id.Unreadable) ∨ p := by
  rw [answer_eq_panic_iff]
  exact panics_readCursor_bind_iff fun cursor => hf cursor _

end Families

/-- A record of seconds. -/
theorem addListenedSeconds_eq_panic_iff {args : AddListenedSecondsArgs}
    (hclean : guard.poisoned = false) :
    (execute env c guard repo (.addListenedSeconds args)).reply = .panic ↔
      Breaks (ρ := ρ) c guard (.addListenedSeconds args) := by
  obtain ⟨trackId, seconds⟩ := args
  rw [execute, Breaks]
  rcases ListenGuard.shouldRecord_cases window c.now seconds guard with
    ⟨hnone, hwhy, -⟩ | ⟨t, width, -, hlast, hwidth, hlt, hrun⟩ | ⟨-, hadmits, hrun⟩
  · rcases hrun : guard.shouldRecord window c.now seconds with ⟨record, guard'⟩
    rw [hrun] at hnone
    obtain rfl : record = none := hnone
    rcases hwhy with hpoisoned | ⟨hlast, hnone⟩
    · cases hclean.symm.trans hpoisoned
    · exact iff_of_true rfl (.inl ⟨hlast, window_eq_none_iff.mp hnone⟩)
  · -- the record is dropped, whatever its id
    rw [hrun]
    refine iff_of_false nofun ?_
    rintro (⟨-, hneg⟩ | ⟨hadmits, -⟩)
    · cases hwidth.symm.trans (window_eq_none_iff.mpr hneg)
    · obtain ⟨width', hwidth', hle⟩ := hadmits t hlast
      obtain rfl := Option.some.inj (hwidth.symm.trans hwidth')
      omega
  · -- the record is made, if its id can be read
    rw [hrun]
    refine (answers_of_read fun n => neverPanics_addListenedSeconds env c.date n seconds).trans ?_
    have hnonneg : ¬ (guard.last ≠ none ∧ seconds < 0) := by
      rintro ⟨hlast, hneg⟩
      obtain ⟨t, ht⟩ := Option.ne_none_iff_exists'.mp hlast
      obtain ⟨width, hwidth, -⟩ := hadmits t ht
      cases hwidth.symm.trans (window_eq_none_iff.mpr hneg)
    simp [hnonneg, hadmits]

/-- **Which commands panic**, as long as the guard is not poisoned. -/
theorem execute_eq_panic_iff (henv : env.FindsI64) (hclean : guard.poisoned = false)
    (cmd : Command ρ) :
    (execute env c guard repo cmd).reply = .panic ↔
      (∃ id ∈ cmd.ids, id.Unreadable) ∨ Breaks c guard cmd := by
  cases cmd with
  | addTrack track =>
    refine answer_eq_panic_iff.trans (panics_addTrack_iff.trans ?_)
    exact (or_iff_right (by simp [Command.ids])).symm
  | addTracks tracks => exact answers_of_never (neverPanics_addTracks tracks)
  | updateTrack args => exact answers_of_read fun n => neverPanics_updateTrack n _
  | getTracks args => exact answers_of_cursor fun cursor s => panics_getTracks_iff henv
  | getTracksWithSources args =>
    exact answers_of_cursor fun cursor s => panics_getTracksWithSources_iff henv
  | getTracksFiltered args => exact answers_of_cursor fun cursor s => panics_getTracksFiltered_iff
  | getTrack args => exact answers_of_read fun n => neverPanics_fetch
  | deleteTrack args => exact answers_of_read (neverPanics_deleteTrack env)
  | addListen args => exact answers_of_read fun n => neverPanics_addListen n _ _
  | getListensForTrack args => exact answers_of_read fun n => neverPanics_fetch
  -- the guard can panic before the id is read
  | addListenedSeconds args =>
    refine (addListenedSeconds_eq_panic_iff hclean).trans ?_
    exact (or_iff_right (by simp [Command.ids])).symm
  | addTag args => exact answers_of_never neverPanics_execute
  | editTag args => exact answers_of_read fun n => neverPanics_execute
  | deleteTag args => exact answers_of_read fun n => neverPanics_execute
  | getAllTags => exact answers_of_never neverPanics_fetch
  | getTags args => exact answers_of_never neverPanics_fetch
  | assignTag args => exact answers_of_read_two fun n n' => neverPanics_execute
  | assignTags assignments =>
    refine answer_eq_panic_iff.trans (panics_assignTags_iff.trans ?_)
    exact (or_iff_right (by simp [Command.ids])).symm
  | removeTag args => exact answers_of_read_two fun n n' => neverPanics_execute
  | getTagsForTrack args => exact answers_of_read fun n => neverPanics_fetch
  | addMeta args => exact answers_of_read fun n => neverPanics_execute
  | updateMeta args => exact answers_of_read fun n => neverPanics_execute
  | deleteMeta args => exact answers_of_read fun n => neverPanics_execute
  | getMetaForTrack args => exact answers_of_read fun n => neverPanics_fetch
  | addTrackSource args => exact answers_of_read fun n => neverPanics_execute
  | removeTrackSource args => exact answers_of_read fun n => neverPanics_execute
  | editTrackSource args => exact answers_of_read fun n => neverPanics_editTrackSource n _ _
  | getSourcesForTrack args => exact answers_of_read fun n => neverPanics_fetch
  | getHtmlBundle =>
    have hscript : Panics (orCrash c.script : Operation ρ String) ⟨repo, none, c.faults⟩ ↔
        c.script = none := by
      cases c.script with
      | none => exact iff_of_true (panics_crash _) rfl
      | some script => exact iff_of_false (fun ⟨_, h⟩ => nomatch h) nofun
    refine answer_eq_panic_iff.trans (hscript.trans ?_)
    exact (or_iff_right (by simp [Command.ids])).symm
  | logFromUi args => exact iff_of_false nofun (by simp [Command.ids, Breaks])
  | resetDatabase => exact iff_of_false nofun (by simp [Command.ids, Breaks])
  | pageSource url => exact iff_of_false nofun (by simp [Command.ids, Breaks])

/-- Only a record of seconds changes the guard, and it poisons it only if it panics. -/
theorem execute_clean (hclean : guard.poisoned = false) {cmd : Command ρ}
    (h : (execute env c guard repo cmd).reply ≠ .panic) :
    (execute env c guard repo cmd).guard.poisoned = false := by
  cases cmd with
  | addListenedSeconds args =>
    obtain ⟨trackId, seconds⟩ := args
    rw [execute] at h ⊢
    rcases ListenGuard.shouldRecord_cases window c.now seconds guard with
      ⟨hnone, -⟩ | ⟨t, width, -, -, -, -, hrun⟩ | ⟨-, -, hrun⟩
    · rcases hrun : guard.shouldRecord window c.now seconds with ⟨record, guard'⟩
      rw [hrun] at h hnone
      obtain rfl : record = none := hnone
      exact absurd rfl h
    · rw [hrun]
      exact (congrArg ListenGuard.poisoned answer_guard).trans hclean
    · rw [hrun]
      exact (congrArg ListenGuard.poisoned answer_guard).trans hclean
  | logFromUi | resetDatabase | pageSource => exact hclean
  | _ =>
    simp only [execute, answer_guard]
    exact hclean

/-! ## Runs -/

/-- The application can go on. -/
structure Sound (core : Core ρ) : Prop where
  /-- there is a repository -/
  repo : core.repo ≠ none
  /-- nobody has panicked while the mutex was locked -/
  guard : core.guard.poisoned = false

/-- A request ends with a value or with an error. -/
def Answered (env : Environment ρ) (core : Core ρ) (r : Request ρ) : Prop :=
  (dispatchWithCore env core r).1 ≠ .panic

/-- A request to reset the database, or another one. -/
theorem dispatchWithCore_cases (env : Environment ρ) {core : Core ρ} (r : Request ρ)
    (hsound : Sound core) :
    (r.cmd = .resetDatabase ∧ (dispatchWithCore env core r).1 ≠ .panic ∧
      Sound (dispatchWithCore env core r).2) ∨
    (∃ repo, core.repo = some repo ∧ dispatchWithCore env core r =
      ((execute env r.circumstances core.guard repo r.cmd).reply,
        { core with
          repo := some (execute env r.circumstances core.guard repo r.cmd).repo
          guard := (execute env r.circumstances core.guard repo r.cmd).guard })) := by
  unfold dispatchWithCore
  split
  · case h_1 hreset =>
    refine .inl ⟨hreset, ?_⟩
    unfold resetDatabase
    split
    · split
      · exact ⟨nofun, nofun, hsound.guard⟩
      · exact ⟨nofun, hsound⟩
    · exact ⟨nofun, hsound⟩
  · case h_2 =>
    obtain ⟨repo, hrepo⟩ := Option.ne_none_iff_exists'.mp hsound.repo
    rw [hrepo]
    exact .inr ⟨repo, rfl, rfl⟩

/-- **One request**: it is answered if and only if it is harmless. -/
theorem answered_iff (henv : env.FindsI64) {core : Core ρ} {r : Request ρ} (hsound : Sound core) :
    Answered env core r ↔ Harmless core r := by
  rcases dispatchWithCore_cases env r hsound with ⟨hreset, hreply, -⟩ | ⟨repo, -, hrun⟩
  · refine iff_of_true hreply ⟨?_, ?_⟩
    · simp [hreset, Command.ids]
    · simp [hreset, Breaks]
  · rw [Answered, hrun, Ne, execute_eq_panic_iff henv hsound.guard, not_or]
    constructor
    · rintro ⟨hids, hrest⟩
      exact ⟨fun id hid hun => hids ⟨id, hid, hun⟩, hrest⟩
    · rintro ⟨hids, hrest⟩
      exact ⟨fun ⟨id, hid, hun⟩ => hids id hid hun, hrest⟩

/-- **One request**: if it is answered, the application can go on. -/
theorem sound_of_answered {core : Core ρ} {r : Request ρ} (hsound : Sound core)
    (h : Answered env core r) : Sound (dispatchWithCore env core r).2 := by
  rcases dispatchWithCore_cases env r hsound with ⟨-, -, hnext⟩ | ⟨repo, -, hrun⟩
  · exact hnext
  · rw [Answered, hrun] at h
    rw [hrun]
    exact ⟨nofun, execute_clean hsound.guard h⟩

/-- **Any requests, one after the other**: they are all answered, and the guard is not poisoned,
if and only if each of them is harmless when it comes. -/
theorem answers_iff (henv : env.FindsI64) (repo : Database ρ) (isTest : Bool)
    (rs : List (Request ρ)) :
    ((dispatcher env (.new repo isTest)).Along (Answered env) (.new repo isTest) rs ∧
      (dispatcher env (.new repo isTest)).Throughout (fun core => core.guard.poisoned = false)
        (.new repo isTest) rs) ↔
    (dispatcher env (.new repo isTest)).Along Harmless (.new repo isTest) rs := by
  have hstart : Sound (Core.new repo isTest) := ⟨nofun, rfl⟩
  have hkeep : ∀ core r core', Sound core → Answered env core r →
      (dispatcher env (.new repo isTest)).step core r = some core' → Sound core' := by
    rintro core r _ hsound hanswered ⟨⟩
    exact sound_of_answered hsound hanswered
  rw [← StateMachine.along_iff_of_kept hstart (fun core r => answered_iff henv) hkeep]
  refine and_iff_left_of_imp fun halong pre post core hsplit hrun => ?_
  exact (StateMachine.throughout_of_along hstart hkeep halong pre post core hsplit hrun).guard

/-- Some circumstances. -/
def circumstancesAt (now : ℕ) : Circumstances := ⟨now, "2025-01-01", none, [], .ok ()⟩

/-- Ten seconds of a track. -/
def tenSeconds : Request ℤ := ⟨.addListenedSeconds ⟨⟨"1"⟩, 10⟩, circumstancesAt 0⟩

/-- A second less than none. -/
def minusOneSecond : Request ℤ := ⟨.addListenedSeconds ⟨⟨"1"⟩, -1⟩, circumstancesAt 0⟩

theorem answers_iff_tenSeconds :
    ((dispatcher plainEnvironment (.new Database.empty false)).Along (Answered plainEnvironment)
        (.new Database.empty false) [tenSeconds, minusOneSecond] ∧
      (dispatcher plainEnvironment (.new Database.empty false)).Throughout
        (fun core => core.guard.poisoned = false) (.new Database.empty false)
        [tenSeconds, minusOneSecond]) ↔
    (dispatcher plainEnvironment (.new Database.empty false)).Along Harmless
      (.new Database.empty false) [tenSeconds, minusOneSecond] := by
  have hfinds : plainEnvironment.FindsI64 := by
    rintro sql vals db _ ⟨⟩
    exact nofun
  exact answers_iff hfinds Database.empty false [tenSeconds, minusOneSecond]

/-- The requests are not always answered: a negative number of seconds makes the dispatcher
panic, and after it the same request that was answered before it makes it panic, too. -/
theorem record_after_panic : ¬ ∀ rs : List (Request ℤ), (∀ r ∈ rs, r.cmd ≠ .getHtmlBundle) →
    (dispatcher plainEnvironment (.new Database.empty false)).Along (Answered plainEnvironment)
      (.new Database.empty false) rs := by
  intro hall
  have halong := hall [tenSeconds, minusOneSecond, tenSeconds] (by
    intro r hr
    simp only [List.mem_cons, List.not_mem_nil, or_false] at hr
    rcases hr with rfl | rfl | rfl <;> nofun)
  -- the third request is the first one again
  exact halong [tenSeconds, minusOneSecond] tenSeconds [] _ rfl rfl rfl

/-! ## The ids of new rows -/

/-- Where the result of a command contains the ids of new rows. -/
def createdIds : Command ρ → Json → List Json
  | .addTrack _, id | .addListen _, id | .addTag _, id | .addMeta _, id
  | .addTrackSource _, id => [id]
  | .addTracks _, .arr ids => ids
  | _, _ => []

/-- A result is what the operation returns, as JSON. -/
theorem answer_eq_ok {toJson : α → Json} {p : Operation ρ α} {value : Json}
    (h : (answer c guard repo (toVal toJson p)).reply = .ok value) : ∃ a, value = toJson a := by
  unfold answer at h
  split at h
  · case h_1 value' s' hrun =>
    obtain ⟨a, s'', -, hpure⟩ := bind_eq_ok.mp hrun
    obtain ⟨rfl, -⟩ := pure_eq_ok.mp hpure
    obtain rfl := Reply.ok.inj h
    exact ⟨a, rfl⟩
  · cases h
  · cases h

/-- **The ids of new rows**: each of them is a number in JSON, and is refused where an id is
expected, whichever row it belongs to. -/
theorem created_ids_rejected {cmd : Command ρ} {value id : Json}
    (h : (execute env c guard repo cmd).reply = .ok value) (hid : id ∈ createdIds cmd value) :
    (∃ n, id = .int n) ∧ ∀ n, (BigintId.fromJson id).bind BigintId.toI64 ≠ some n := by
  have hint : ∃ n, id = .int n := by
    cases cmd with
    | addTrack | addListen | addTag | addMeta | addTrackSource =>
      obtain ⟨n, rfl⟩ := answer_eq_ok h
      exact ⟨n, List.mem_singleton.mp hid⟩
    | addTracks tracks =>
      obtain ⟨ids, rfl⟩ := answer_eq_ok h
      obtain ⟨n, -, rfl⟩ := List.mem_map.mp hid
      exact ⟨n, rfl⟩
    | _ => cases hid
  obtain ⟨n, rfl⟩ := hint
  exact ⟨⟨n, rfl⟩, nofun⟩

/-- A new tag. -/
def rock : Command ℤ := .addTag ⟨"rock"⟩

theorem created_ids_rejected_rock :
    (∃ n, Json.int 1 = .int n) ∧
      ∀ n, (BigintId.fromJson (.int 1)).bind BigintId.toI64 ≠ some n := by
  have hreply : (execute plainEnvironment (circumstancesAt 0) .new Database.empty rock).reply =
      .ok (.int 1) := rfl
  exact created_ids_rejected hreply (List.mem_singleton_self _)

/-- The id of a new tag does not come back. -/
theorem new_tag_id_lost : ¬ ∀ (cmd : Command ℤ) (value id : Json),
    (execute plainEnvironment (circumstancesAt 0) .new Database.empty cmd).reply = .ok value →
      id ∈ createdIds cmd value →
        ∃ n, id = .int n ∧ (BigintId.fromJson id).bind BigintId.toI64 = some n := by
  intro hall
  obtain ⟨n, -, hread⟩ := hall rock (.int 1) (.int 1) rfl (List.mem_singleton_self _)
  cases hread

end Dispatch

end Vamp
