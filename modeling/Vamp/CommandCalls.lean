import Vamp.AppWsHandler
import Vamp.RepositoryRuns

/-!
# Commands as calls

A command is one call of the repository, or none (`Command.call`). What `execute` leaves behind
is what the call alone would leave behind (`execute_repo`). Only `add_listened_seconds` depends on
the guard as well (`execute_counts`).

Above it are the requests and the messages, from any connections, one after the other: what a
message does is what a request does, if it contains one (`handle_cases`), and a request does what
its command does, or begins with empty tables (`dispatchWithCore_core`).
-/

namespace Vamp

open Program Repository

variable {ρ α β : Type}

/-- The call that a command makes. Without the ids that it needs, it makes none. -/
def Command.call (c : Dispatch.Circumstances) : Command ρ → Option (Call ρ)
  | addTrack track => some (.addTrack track)
  | addTracks tracks => some (.addTracks tracks)
  | updateTrack ⟨id, update⟩ => id.toI64.map fun id => .updateTrack id update
  | getTracks ⟨none, criteria, limit⟩ => some (.getTracks none criteria limit)
  | getTracks ⟨some cursor, criteria, limit⟩ =>
    cursor.toI64.map fun cursor => .getTracks (some cursor) criteria limit
  | getTracksWithSources ⟨none, criteria, limit⟩ => some (.getTracksWithSources none criteria limit)
  | getTracksWithSources ⟨some cursor, criteria, limit⟩ =>
    cursor.toI64.map fun cursor => .getTracksWithSources (some cursor) criteria limit
  | getTracksFiltered ⟨none, criteria, limit⟩ => some (.getTracksFiltered none criteria limit)
  | getTracksFiltered ⟨some cursor, criteria, limit⟩ =>
    cursor.toI64.map fun cursor => .getTracksFiltered (some cursor) criteria limit
  | getTrack ⟨id⟩ => id.toI64.map .getTrack
  | deleteTrack ⟨id⟩ => id.toI64.map .deleteTrack
  | addListen ⟨trackId, listenedFrom, listenedTo⟩ =>
    trackId.toI64.map fun trackId => .addListen trackId listenedFrom listenedTo
  | getListensForTrack ⟨trackId⟩ => trackId.toI64.map .getListensForTrack
  | addListenedSeconds ⟨trackId, seconds⟩ =>
    trackId.toI64.map fun trackId => .addListenedSeconds c.date trackId seconds
  | addTag ⟨name⟩ => some (.addTag name)
  | editTag ⟨id, name⟩ => id.toI64.map fun id => .editTag id name
  | deleteTag ⟨id⟩ => id.toI64.map .deleteTag
  | getAllTags => some .getAllTags
  | getTags ⟨pattern⟩ => some (.getTags pattern)
  | assignTag ⟨trackId, tagId⟩ => do some (.assignTag (← trackId.toI64) (← tagId.toI64))
  | assignTags assignments => some (.assignTags assignments)
  | removeTag ⟨trackId, tagId⟩ => do some (.removeTag (← trackId.toI64) (← tagId.toI64))
  | getTagsForTrack ⟨trackId⟩ => trackId.toI64.map .getTagsForTrack
  | addMeta ⟨trackId, key, value⟩ => trackId.toI64.map fun trackId => .addMeta trackId key value
  | updateMeta ⟨id, value⟩ => id.toI64.map fun id => .updateMeta id value
  | deleteMeta ⟨id⟩ => id.toI64.map .deleteMeta
  | getMetaForTrack ⟨trackId⟩ => trackId.toI64.map .getMetaForTrack
  | addTrackSource ⟨trackId, url⟩ => trackId.toI64.map fun trackId => .addTrackSource trackId url
  | removeTrackSource ⟨trackId, url⟩ =>
    trackId.toI64.map fun trackId => .removeTrackSource trackId url
  | editTrackSource ⟨trackId, oldUrl, newUrl⟩ =>
    trackId.toI64.map fun trackId => .editTrackSource trackId oldUrl newUrl
  | getSourcesForTrack ⟨trackId⟩ => trackId.toI64.map .getSourcesForTrack
  | getHtmlBundle | logFromUi _ | resetDatabase | pageSource _ => none

namespace Dispatch

variable {env : Environment ρ} {c : Circumstances} {guard : ListenGuard} {repo : Database ρ}

/-! ## One command -/

/-- The tables after a call, if there is one. -/
def afterCall (env : Environment ρ) (c : Circumstances) (repo : Database ρ)
    (call : Option (Call ρ)) : Database ρ :=
  call.elim repo fun call => turn env repo ⟨call, c.faults⟩

theorem repo_answer {p : Operation ρ Json} :
    (answer c guard repo p).repo = (p.final ⟨repo, none, c.faults⟩).committed := by
  rw [answer, final]
  split <;> rename_i h <;> rw [h]

/-- A value that is made of the result does not change what is left behind. -/
theorem final_bind_pure {p : Operation ρ α} {f : α → β} (s : Session (Database ρ) SqlxError) :
    (p >>= fun a => pure (f a) : Operation ρ β).final s = p.final s := by
  have hbind : (p >>= fun a => pure (f a) : Operation ρ β) s =
      EStateM.bind p (fun a => pure (f a)) s := rfl
  rw [final, final, hbind, EStateM.bind]
  cases p s <;> rfl

theorem final_ignore {p : Operation ρ α} (s : Session (Database ρ) SqlxError) :
    (ignore p).final s = p.final s := final_bind_pure s

/-- Two operations leave the same behind. -/
def SameFinal (p : Operation ρ α) (q : Operation ρ β) : Prop := ∀ s, p.final s = q.final s

theorem SameFinal.ignore (p : Operation ρ α) : SameFinal p (ignore p) := fun s =>
  (final_ignore s).symm

theorem SameFinal.refl (p : Operation ρ α) : SameFinal p p := fun _ => rfl

section Families

variable {toJson : α → Json}

/-- The commands that are a call in any case. -/
theorem repo_call {p : Operation ρ α} {call : Call ρ} (h : SameFinal p (call.run env)) :
    (answer c guard repo (toVal toJson p)).repo = afterCall env c repo (some call) := by
  rw [repo_answer, toVal, final_bind_pure, h]
  rfl

/-- The commands that need an id. -/
theorem repo_read {id : BigintId} {f : ℤ → Operation ρ α} {call : ℤ → Call ρ}
    (h : ∀ n, SameFinal (f n) ((call n).run env)) :
    (answer c guard repo (toVal toJson (orCrash id.toI64 >>= f))).repo =
      afterCall env c repo (id.toI64.map call) := by
  cases id.toI64 with
  | none => rfl
  | some n => exact repo_call (h n)

/-- The commands that need two of them. -/
theorem repo_read_two {id id' : BigintId} {f : ℤ → ℤ → Operation ρ α} {call : ℤ → ℤ → Call ρ}
    (h : ∀ n n', SameFinal (f n n') ((call n n').run env)) :
    (answer c guard repo (toVal toJson (orCrash id.toI64 >>= fun n =>
        orCrash id'.toI64 >>= f n))).repo =
      afterCall env c repo (do some (call (← id.toI64) (← id'.toI64))) := by
  cases id.toI64 with
  | none => rfl
  | some n =>
    cases id'.toI64 with
    | none => rfl
    | some n' => exact repo_call (h n n')

/-- The commands that may be given a cursor. -/
theorem repo_cursor {id : BigintId} {f : Option ℤ → Operation ρ α} {call : ℤ → Call ρ}
    (h : ∀ n, SameFinal (f (some n)) ((call n).run env)) :
    (answer c guard repo (toVal toJson (readCursor (some id) >>= f))).repo =
      afterCall env c repo (id.toI64.map call) := by
  rw [readCursor]
  cases id.toI64 with
  | none => rfl
  | some n => exact repo_call (h n)

end Families

/-- **A command leaves behind what its call leaves behind**, unless it counts seconds. -/
theorem execute_repo (env : Environment ρ) (c : Circumstances) (guard : ListenGuard)
    (repo : Database ρ) {cmd : Command ρ} (hcmd : ∀ args, cmd ≠ .addListenedSeconds args) :
    (execute env c guard repo cmd).repo = afterCall env c repo (cmd.call c) := by
  cases cmd with
  | addTrack | addTracks | addTag | getAllTags | getTags => exact repo_call (.ignore _)
  | assignTags => exact repo_call (.refl _)
  | updateTrack | deleteTrack | editTag | deleteTag | updateMeta | deleteMeta
  | removeTrackSource | editTrackSource => exact repo_read fun _ => .refl _
  | getTrack | addListen | getListensForTrack | getTagsForTrack | addMeta | getMetaForTrack
  | addTrackSource | getSourcesForTrack => exact repo_read fun _ => .ignore _
  | assignTag | removeTag => exact repo_read_two fun _ _ => .refl _
  | getTracks args | getTracksWithSources args | getTracksFiltered args =>
    obtain ⟨_ | cursor, criteria, limit⟩ := args
    · exact repo_call (.ignore _)
    · exact repo_cursor fun _ => .ignore _
  | addListenedSeconds args => exact absurd rfl (hcmd args)
  | getHtmlBundle =>
    rw [execute]
    cases c.script <;> rfl
  | logFromUi | resetDatabase | pageSource => rfl

/-- Nor does it change the guard, or count seconds. -/
theorem execute_guard_of_ne (env : Environment ρ) (c : Circumstances) (guard : ListenGuard)
    (repo : Database ρ) {cmd : Command ρ} (hcmd : ∀ args, cmd ≠ .addListenedSeconds args) :
    (execute env c guard repo cmd).guard = guard := by
  cases cmd with
  | addListenedSeconds args => exact absurd rfl (hcmd args)
  | logFromUi | resetDatabase | pageSource => rfl
  | _ => exact answer_guard

theorem call_ne_addListenedSeconds {c : Circumstances} {cmd : Command ρ} {call : Call ρ}
    (hcmd : ∀ args, cmd ≠ .addListenedSeconds args) (h : cmd.call c = some call) :
    ∀ date trackId seconds, call ≠ .addListenedSeconds date trackId seconds := by
  rintro date trackId seconds rfl
  cases cmd with
  | addListenedSeconds args => exact hcmd args rfl
  | getTracks args | getTracksWithSources args | getTracksFiltered args =>
    obtain ⟨_ | cursor, criteria, limit⟩ := args
    · cases h
    · obtain ⟨_, -, ⟨⟩⟩ := Option.map_eq_some_iff.mp h
  | assignTag | removeTag =>
    obtain ⟨_, -, h⟩ := Option.bind_eq_some_iff.mp h
    obtain ⟨_, -, ⟨⟩⟩ := Option.bind_eq_some_iff.mp h
  | addTrack | addTracks | addTag | getAllTags | getTags | assignTags | getHtmlBundle | logFromUi
  | resetDatabase | pageSource => cases h
  | _ => obtain ⟨_, -, ⟨⟩⟩ := Option.map_eq_some_iff.mp h

/-- The seconds are counted if the guard lets them pass, and the id can be read. -/
theorem execute_counts (env : Environment ρ) (c : Circumstances) (guard : ListenGuard)
    (repo : Database ρ) (args : AddListenedSecondsArgs) :
    (execute env c guard repo (.addListenedSeconds args)).guard =
        (guard.shouldRecord window c.now args.seconds).2 ∧
      (execute env c guard repo (.addListenedSeconds args)).repo =
        if (guard.shouldRecord window c.now args.seconds).1 = some true then
          afterCall env c repo ((Command.addListenedSeconds args).call c)
        else repo := by
  rw [execute]
  rcases guard.shouldRecord window c.now args.seconds with ⟨_ | _ | _, guard'⟩
  · exact ⟨rfl, rfl⟩
  · exact ⟨answer_guard, rfl⟩
  · refine ⟨answer_guard, ?_⟩
    rw [if_pos rfl]
    change _ = afterCall env c repo
      (args.trackId.toI64.map fun n => .addListenedSeconds c.date n args.seconds)
    exact repo_read fun _ => .refl _

/-! ## One request -/

/-- A request does nothing, replaces the tables or executes its command. -/
theorem dispatchWithCore_core (env : Environment ρ) (core : Core ρ) (r : Request ρ) :
    ((r.cmd = .resetDatabase ∨ core.repo = none) ∧ (dispatchWithCore env core r).2 = core) ∨
    (r.cmd = .resetDatabase ∧
      (dispatchWithCore env core r).2 = { core with repo := some Database.empty }) ∨
    (∃ repo, core.repo = some repo ∧ r.cmd ≠ .resetDatabase ∧ (dispatchWithCore env core r).2 =
      { core with
        repo := some (execute env r.circumstances core.guard repo r.cmd).repo
        guard := (execute env r.circumstances core.guard repo r.cmd).guard }) := by
  unfold dispatchWithCore
  split
  · case h_1 hreset =>
    unfold resetDatabase
    split
    · split
      · exact .inr (.inl ⟨hreset, rfl⟩)
      · exact .inl ⟨.inl hreset, rfl⟩
    · exact .inl ⟨.inl hreset, rfl⟩
  · case h_2 hcmd =>
    cases hrepo : core.repo with
    | none => exact .inl ⟨.inr rfl, rfl⟩
    | some repo => exact .inr (.inr ⟨repo, rfl, hcmd, rfl⟩)

end Dispatch

namespace AppWsHandler

open Dispatch

variable (env : Environment ρ) (numbers : Numbers ρ) (parser : Parser)

/-! ## One message -/

/-- The backend, with the messages that it gets on all of its connections. -/
def server (core : Core ρ) : StateMachine (Core ρ) (Circumstances × Message) where
  init := core
  step core e := some (handle env numbers parser e.1 core e.2).2

/-- The command in a message, if it is a request. -/
def commandOf : Message → Option (Command ρ)
  | .other => none
  | .text text =>
    match readText numbers parser text with
    | some (.request ⟨_, cmd⟩) => some cmd
    | _ => none

/-- **A message does what its command does.** -/
theorem handle_cases (c : Circumstances) (core : Core ρ) (message : Message) :
    (handle env numbers parser c core message).2 =
      (commandOf numbers parser message).elim core fun cmd =>
        (dispatchWithCore env core ⟨cmd, c⟩).2 := by
  cases message with
  | other => rfl
  | text text =>
    rw [handle, commandOf]
    rcases readText numbers parser text with _ | ⟨id, cmd⟩ | _
    · rfl
    · rcases hrun : dispatchWithCore env core ⟨cmd, c⟩ with ⟨value | message | _, core'⟩ <;>
        simp only [hrun, Option.elim]
    · rfl

end AppWsHandler

end Vamp
