import Vamp.PlayerStore

/-!
# The active playlist

The store knows the active playlist by its id. `PlaylistsTab` highlights its tab and shows it, or
the first playlist if there is none with this id. `App` remembers the id when a track of the
playlist is played, and advances through the playlist with it.

The id is kept in step by `handleDelete`, which chooses a neighbour of the playlist that is
deleted. `createPlaylist` does not touch it. So a playlist that is created where there is none is
shown, but it is not active: its tab is not highlighted, and playback stops after a track of it
(`active_exists_iff`).
-/

namespace Vamp

variable {τ : Type}

/-- With what `playTrack` is called for a track: the source, the label and the id. It is not called
if there is no URL. -/
def TrackWithSources.toPlay (nextTrack : TrackWithSources τ) :
    Option (String × String × τ) :=
  match nextTrack.sources with
  | [] | "" :: _ => none
  | url :: _ => some (url, nextTrack.artist ++ " - " ++ nextTrack.trackName, nextTrack.id)

namespace PlayerStore

open JsArray

/-! ## The tab and the player -/

/-- `activePlaylist` of `PlaylistsTab`: what is shown. -/
def activePlaylist (s : PlayerStore τ) : Option (Playlist τ) :=
  (s.playlists.find? fun pl => pl.id = s.activePlaylistId).or (get s.playlists 0)

/-- The playlists whose tabs are highlighted. -/
def highlighted (s : PlayerStore τ) : List (Playlist τ) :=
  s.playlists.filter fun pl => s.activePlaylistId = pl.id

/-- The playlist after the first one with an id, or else the one before. -/
def next (id : String) (s : PlayerStore τ) : Option (Playlist τ) :=
  let idx := findIndex (fun pl => pl.id = id) s.playlists
  (get s.playlists (idx + 1)).or (get s.playlists (idx - 1))

/-- `handleDelete`. -/
def handleDelete (id : String) (s : PlayerStore τ) : PlayerStore τ :=
  if s.activePlaylistId = id then
    (s.setActivePlaylistId (((s.next id).map Playlist.id).getD "")).deletePlaylist id
  else s.deletePlaylist id

/-- The queue of `handleEnded`, if there is one. `App` has set `playPlaylist` to the active
playlist when a track in the tab was played. -/
def queue (selectedTracks : Tracks τ) (playPlaylist : Option String) (s : PlayerStore τ) :
    Option (Tracks τ) :=
  match playPlaylist with
  | none | some "" => none
  | some playPlaylist =>
    match s.playlists.find? fun pl => pl.id = playPlaylist with
    | some activePlaylist =>
      if activePlaylist.tracks.length > 0 then some activePlaylist.tracks else some selectedTracks
    | none => some selectedTracks

/-- `handleEnded`, until it calls `playTrack`. -/
def handleEnded [DecidableEq τ] (loopEnabled : Bool) (selectedTracks : Tracks τ)
    (playPlaylist : Option String) (dbTrackId : Option τ) (s : PlayerStore τ) :
    Option (Option (String × String × τ)) :=
  if loopEnabled then some none
  else match s.queue selectedTracks playPlaylist with
    | none | some [] => some none
    | some queue => do
      let currentIndex ← findIndexM (Option.map fun t => decide (some t.id = dbTrackId)) queue
      let nextIndex := (if currentIndex = -1 then 0 else currentIndex + 1) % queue.length
      let nextTrack ← (get queue nextIndex).join
      some nextTrack.toPlay

/-- An action of the user. -/
inductive UserAction (τ : Type) : Type where
  /-- at a time -/
  | createPlaylist (now : ℤ) (name : String)
  | handleDelete (id : String)
  | setActivePlaylistId (id : String)
  | addTrackToPlaylist (playlistId : String) (track : TrackWithSources τ)
  | removeTrackFromPlaylist (playlistId : String) (trackId : τ)
  deriving DecidableEq

/-- The store under the actions of the user. -/
def user (τ : Type) [DecidableEq τ] : StateMachine (PlayerStore τ) (UserAction τ) where
  init := initial
  step
    | s, .createPlaylist now name => some (s.createPlaylist now name)
    | s, .handleDelete id => some (s.handleDelete id)
    | s, .setActivePlaylistId id => some (s.setActivePlaylistId id)
    | s, .addTrackToPlaylist playlistId track => s.addTrackToPlaylist playlistId track
    | s, .removeTrackFromPlaylist playlistId trackId =>
      s.removeTrackFromPlaylist playlistId trackId

/-- What is deleted or selected has a tab. -/
def Listed (s : PlayerStore τ) : UserAction τ → Prop
  | .handleDelete id | .setActivePlaylistId id => id ∈ s.ids
  | _ => True

instance (s : PlayerStore τ) (a : UserAction τ) : Decidable (Listed s a) :=
  match a with
  | .handleDelete id | .setActivePlaylistId id => inferInstanceAs (Decidable (id ∈ s.ids))
  | .createPlaylist _ _ | .addTrackToPlaylist _ _ | .removeTrackFromPlaylist _ _ => .isTrue trivial

/-! ## What is expected -/

/-- **The active playlist exists**, if any does. -/
def ActiveExists (s : PlayerStore τ) : Prop := s.playlists ≠ [] → s.activePlaylistId ∈ s.ids

/-- The tab that is highlighted, what is shown, and the queue of what is played there are the same
playlist. -/
def SamePlaylist (s : PlayerStore τ) : Prop :=
  ∀ pl, s.activePlaylist = some pl → pl ∈ s.highlighted ∧
    ∀ selectedTracks, pl.tracks ≠ [] →
      s.queue selectedTracks (some s.activePlaylistId) = some pl.tracks

/-- The condition on a step: a playlist is not created where there is none (or gets the id that is
active anyway), and the neighbour of the active playlist that is deleted has another id, if any
playlist has. -/
def Careful (s : PlayerStore τ) : UserAction τ → Prop
  | .createPlaylist now _ => s.playlists = [] → s.activePlaylistId = newId now
  | .handleDelete id => s.activePlaylistId = id → (∃ other ∈ s.ids, other ≠ id) →
    ∀ pl, s.next id = some pl → pl.id ≠ id
  | _ => True

/-- A playlist is not created where there is none. -/
def CreatedBeside (s : PlayerStore τ) : UserAction τ → Prop
  | .createPlaylist _ _ => s.playlists ≠ []
  | _ => True

section Tab

variable {s : PlayerStore τ} {id : String}

theorem queue_of_ne (h : id ≠ "") (selectedTracks : Tracks τ) {pl : Playlist τ}
    (hfound : (s.playlists.find? fun pl => pl.id = id) = some pl) (htracks : pl.tracks ≠ []) :
    s.queue selectedTracks (some id) = some pl.tracks := by
  unfold queue
  split
  · cases ‹some id = none›
  · exact absurd (Option.some.inj ‹_›) h
  · obtain rfl := Option.some.inj ‹some id = _›
    rw [hfound]
    exact if_pos (List.length_pos_of_ne_nil htracks)

/-- **The same playlist** is highlighted, shown and played if and only if the active one exists. -/
theorem activeExists_iff (hids : ∀ id ∈ s.ids, id ≠ "") : ActiveExists s ↔ SamePlaylist s := by
  constructor
  · intro hexists shown hshown
    have hsome : s.playlists ≠ [] := by
      intro hnil
      rw [activePlaylist, hnil] at hshown
      cases hshown
    obtain ⟨pl, hpl, hid⟩ := List.mem_map.mp (hexists hsome)
    have hfind : (s.playlists.find? fun pl => pl.id = s.activePlaylistId).isSome :=
      List.find?_isSome.mpr ⟨pl, hpl, decide_eq_true hid⟩
    obtain ⟨found, hfound⟩ := Option.isSome_iff_exists.mp hfind
    rw [activePlaylist, hfound, Option.some_or, Option.some.injEq] at hshown
    subst hshown
    have hactive := of_decide_eq_true (List.find?_some
      (p := fun pl : Playlist τ => decide (pl.id = s.activePlaylistId)) hfound)
    have hmem : found ∈ s.playlists := List.mem_of_find?_eq_some hfound
    refine ⟨List.mem_filter.mpr ⟨hmem, decide_eq_true hactive.symm⟩, fun selectedTracks => ?_⟩
    exact queue_of_ne (hids _ (hexists hsome)) selectedTracks hfound
  · intro hsame hsome
    obtain ⟨shown, hshown⟩ : ∃ pl, s.activePlaylist = some pl := by
      unfold activePlaylist
      cases s.playlists.find? fun pl => pl.id = s.activePlaylistId with
      | some pl => exact ⟨pl, rfl⟩
      | none =>
        obtain ⟨pl, pls, hcons⟩ := List.exists_cons_of_ne_nil hsome
        exact ⟨pl, by rw [hcons]; rfl⟩
    obtain ⟨hmem, hactive⟩ := List.mem_filter.mp (hsame shown hshown).1
    rw [of_decide_eq_true hactive]
    exact List.mem_map_of_mem hmem

/-- A track is found where it is. -/
theorem findIndexM_track [DecidableEq τ] {ts : List (TrackWithSources τ)} {i : ℕ}
    {t : TrackWithSources τ} (ht : ts[i]? = some t)
    (hdistinct : (ts.map TrackWithSources.id).Nodup) :
    findIndexM (Option.map fun t' => decide (t'.id = t.id)) (ts.map some) = some (i : ℤ) := by
  rw [findIndexM_map_some]
  rcases findIndex_cases (fun t' : TrackWithSources τ => decide (t'.id = t.id)) ts
    with ⟨-, hnone⟩ | ⟨j, t', hfound, ht', hid⟩
  · exact absurd rfl (of_decide_eq_false (hnone t (List.mem_of_getElem? ht)))
  · obtain ⟨hj, -⟩ := List.getElem?_eq_some_iff.mp ht'
    have hlt : j < (ts.map TrackWithSources.id).length := by rwa [List.length_map]
    have hji : j = i := by
      refine (List.getElem?_inj hlt hdistinct).mp ?_
      rw [List.getElem?_map, List.getElem?_map, ht, ht', Option.map_some, Option.map_some,
        of_decide_eq_true hid]
    rw [hfound, hji]

/-- **Playback advances** through the playlist that is shown, and after its last track goes on with
the first. -/
theorem handleEnded_next [DecidableEq τ] {pl : Playlist τ} {ts : List (TrackWithSources τ)}
    (hsame : SamePlaylist s) (hshown : s.activePlaylist = some pl)
    (htracks : pl.tracks = ts.map some) (hdistinct : (ts.map TrackWithSources.id).Nodup) {i : ℕ}
    {t : TrackWithSources τ} (ht : ts[i]? = some t) (selectedTracks : Tracks τ) :
    ∃ nextTrack, ts[(i + 1) % ts.length]? = some nextTrack ∧
      s.handleEnded false selectedTracks (some s.activePlaylistId) (some t.id) =
        some nextTrack.toPlay := by
  obtain ⟨hi, -⟩ := List.getElem?_eq_some_iff.mp ht
  have hlength : 0 < ts.length := Nat.zero_lt_of_lt hi
  have hqueue : s.queue selectedTracks (some s.activePlaylistId) = some (ts.map some) := by
    rw [← htracks]
    refine (hsame pl hshown).2 selectedTracks fun hnil => ?_
    rw [htracks, List.map_eq_nil_iff] at hnil
    exact absurd hnil (List.length_pos_iff.mp hlength)
  have hnext : (i + 1) % ts.length < ts.length := Nat.mod_lt _ hlength
  have hindex : ((i : ℤ) + 1) % ((ts.map some).length : ℤ) = ((i + 1) % ts.length : ℕ) := by
    rw [List.length_map, Int.natCast_emod, Int.natCast_succ]
  have hget : get (ts.map some) ((i + 1) % ts.length : ℕ) =
      some (some ts[(i + 1) % ts.length]) := by
    rw [JsArray.get, if_pos (Int.natCast_nonneg _), Int.toNat_natCast, List.getElem?_map,
      List.getElem?_eq_getElem hnext, Option.map_some]
  refine ⟨ts[(i + 1) % ts.length], List.getElem?_eq_getElem hnext, ?_⟩
  have hcurrent := findIndexM_track ht hdistinct
  unfold handleEnded
  rw [if_neg Bool.false_ne_true, hqueue]
  cases ts with
  | nil => cases hi
  | cons t₀ ts =>
    have hfound : ((i : ℤ) = -1) = False := eq_false (by omega)
    simp only [List.map_cons] at hcurrent hindex hget ⊢
    simp only [Option.some.injEq, hcurrent, Option.bind_eq_bind, Option.bind_some, hfound,
      if_false, hindex, hget, Option.join_some]

/-- **The neighbour** of a playlist is another one, if there is another one. -/
theorem next_cases (h : id ∈ s.ids) :
    ∃ (i : ℕ) (pl : Playlist τ), s.playlists[i]? = some pl ∧ pl.id = id ∧
      ((s.next id = none ∧ s.playlists = [pl]) ∨
        ∃ (j : ℕ) (pl' : Playlist τ), j ≠ i ∧ s.playlists[j]? = some pl' ∧
          s.next id = some pl') := by
  rcases findIndex_cases (fun pl : Playlist τ => decide (pl.id = id)) s.playlists
    with ⟨-, hnone⟩ | ⟨i, pl, hidx, hpl, hid⟩
  · obtain ⟨pl, hpl, hid⟩ := List.mem_map.mp h
    exact absurd hid (of_decide_eq_false (hnone pl hpl))
  refine ⟨i, pl, hpl, of_decide_eq_true hid, ?_⟩
  have hafter : get s.playlists ((i : ℤ) + 1) = s.playlists[i + 1]? := if_pos (by omega)
  unfold next
  rw [hidx]
  dsimp only
  rw [hafter]
  cases hnext : s.playlists[i + 1]? with
  | some pl' => exact .inr ⟨i + 1, pl', Nat.succ_ne_self i, hnext, rfl⟩
  | none =>
    have hlength := List.getElem?_eq_none_iff.mp hnext
    cases i with
    | zero =>
      obtain ⟨hlt, hpl⟩ := List.getElem?_eq_some_iff.mp hpl
      refine .inl ⟨rfl, List.ext_getElem (Nat.le_antisymm hlength hlt) fun j hj hj' => ?_⟩
      obtain rfl : j = 0 := Nat.lt_one_iff.mp hj'
      exact hpl
    | succ i =>
      have hbefore : get s.playlists ((i + 1 : ℕ) - 1 : ℤ) = s.playlists[i]? := by
        rw [Int.natCast_succ, Int.add_sub_cancel]
        exact if_pos (Int.natCast_nonneg i)
      obtain ⟨hlt, -⟩ := List.getElem?_eq_some_iff.mp hpl
      have hi : i < s.playlists.length := by omega
      exact .inr ⟨i, s.playlists[i], by omega, List.getElem?_eq_getElem hi,
        hbefore.trans (List.getElem?_eq_getElem hi)⟩

end Tab

/-! ## Steps of the user -/

/-- The edit of the store in an action of the user. -/
def UserAction.action : UserAction τ → Action τ
  | .createPlaylist now name => .createPlaylist now name
  | .handleDelete id => .deletePlaylist id
  | .setActivePlaylistId id => .setActivePlaylistId id
  | .addTrackToPlaylist playlistId track => .addTrackToPlaylist playlistId track
  | .removeTrackFromPlaylist playlistId trackId => .removeTrackFromPlaylist playlistId trackId

/-- The active id after an action. -/
def activeAfter (s : PlayerStore τ) : UserAction τ → String
  | .handleDelete id =>
    if s.activePlaylistId = id then ((s.next id).map Playlist.id).getD "" else s.activePlaylistId
  | .setActivePlaylistId id => id
  | _ => s.activePlaylistId

section UserSteps

variable {s s' : PlayerStore τ} {a : UserAction τ}

theorem activeExists_iff_ids : ActiveExists s ↔ (s.ids ≠ [] → s.activePlaylistId ∈ s.ids) := by
  rw [ActiveExists, ids, Ne, Ne, List.map_eq_nil_iff]

/-- After the deletion of a playlist that has a tab. -/
theorem activeExists_handleDelete_iff {id : String} (hexists : ActiveExists s) (hid : id ∈ s.ids)
    (hids : s'.ids = s.ids.filter fun other => other ≠ id)
    (hactive : s'.activePlaylistId = s.activeAfter (.handleDelete id)) :
    ActiveExists s' ↔ Careful s (.handleDelete id) := by
  rw [activeExists_iff_ids, hactive, activeAfter, Careful]
  have hmem : ∀ other, other ∈ s'.ids ↔ other ∈ s.ids ∧ other ≠ id := by
    intro other
    rw [hids, List.mem_filter, decide_eq_true_iff]
  have hsome : s'.ids ≠ [] ↔ ∃ other ∈ s.ids, other ≠ id := by
    rw [Ne, List.eq_nil_iff_forall_not_mem]
    simp only [hmem, not_forall, not_not]
  rw [hsome]
  by_cases hsame : s.activePlaylistId = id
  · rw [if_pos hsame, hmem]
    obtain ⟨i, pl, hpl, hplid, ⟨-, hsingle⟩ | ⟨j, pl', -, hpl', hnext⟩⟩ := next_cases hid
    · -- nothing remains
      have hnone : ¬ ∃ other ∈ s.ids, other ≠ id := by
        rintro ⟨other, hother, hne⟩
        rw [ids, hsingle] at hother
        exact hne ((List.mem_singleton.mp hother).trans hplid)
      exact iff_of_true (fun hother => absurd hother hnone) fun _ hother => absurd hother hnone
    · have hlisted : pl'.id ∈ s.ids := List.mem_map_of_mem (List.mem_of_getElem? hpl')
      rw [hnext, Option.map_some, Option.getD_some]
      constructor
      · rintro h - hother _ ⟨⟩
        exact (h hother).2
      · exact fun h hother => ⟨hlisted, h hsame hother pl' rfl⟩
  · rw [if_neg hsame, hmem]
    refine iff_of_true ?_ fun h => absurd h hsame
    rintro ⟨other, hother, -⟩
    exact ⟨activeExists_iff_ids.mp hexists (List.ne_nil_of_mem hother), hsame⟩

variable [DecidableEq τ]

/-- **What a step does** to ids. It does not throw. -/
theorem user_step (a : UserAction τ) (hs : ∀ pl ∈ s.playlists, TracksOk pl.tracks) :
    ∃ s', (user τ).step s a = some s' ∧ (∀ pl ∈ s'.playlists, TracksOk pl.tracks) ∧
      s'.ids = idsAfter s.ids a.action ∧ s'.activePlaylistId = s.activeAfter a := by
  cases a with
  | createPlaylist now name =>
    refine ⟨_, rfl, ?_, List.map_append, rfl⟩
    exact List.forall_mem_append.mpr ⟨hs,
      List.forall_mem_singleton.mpr ⟨List.not_mem_nil, List.nodup_nil⟩⟩
  | handleDelete id =>
    have hplaylists : (s.handleDelete id).playlists =
        s.playlists.filter fun pl => pl.id ≠ id := by
      unfold handleDelete
      split <;> rfl
    refine ⟨_, rfl, ?_, ?_, ?_⟩
    · rw [hplaylists]
      exact fun pl hpl => hs pl (List.mem_of_mem_filter hpl)
    · rw [ids, hplaylists, UserAction.action, idsAfter, ids, List.filter_map]
      rfl
    · rw [handleDelete, activeAfter]
      split <;> rfl
  | setActivePlaylistId id => exact ⟨_, rfl, hs, rfl, rfl⟩
  | addTrackToPlaylist playlistId track =>
    obtain ⟨s', hrun, htracks, hids, hactive, -⟩ :=
      updatePlaylist_spec hs fun pl hpl _ => addTrack_ok track (hs pl hpl)
    exact ⟨s', hrun, htracks, hids, hactive⟩
  | removeTrackFromPlaylist playlistId trackId =>
    obtain ⟨s', hrun, htracks, hids, hactive, -⟩ :=
      updatePlaylist_spec hs fun pl hpl _ => removeTrack_ok trackId (hs pl hpl)
    exact ⟨s', hrun, htracks, hids, hactive⟩

/-- **The exact condition for one step.** -/
theorem activeExists_step_iff (hs : ∀ pl ∈ s.playlists, TracksOk pl.tracks)
    (hexists : ActiveExists s) (hlisted : Listed s a) (hstep : (user τ).step s a = some s') :
    ActiveExists s' ↔ Careful s a := by
  obtain ⟨s'', hstep', -, hids, hactive⟩ := user_step a hs
  obtain rfl := Option.some.inj (hstep.symm.trans hstep')
  have hold := activeExists_iff_ids.mp hexists
  cases a with
  | createPlaylist now name =>
    have hids : s'.ids = s.ids ++ [newId now] := hids
    have hactive : s'.activePlaylistId = s.activePlaylistId := hactive
    have hnil : s.playlists = [] ↔ s.ids = [] := List.map_eq_nil_iff.symm
    rw [activeExists_iff_ids, Careful, hids, hactive, hnil, List.mem_append, List.mem_singleton]
    constructor
    · intro h hnone
      rcases h (List.concat_ne_nil _ _) with hmem | hnew
      · rw [hnone] at hmem
        cases hmem
      · exact hnew
    · intro h _
      by_cases hnone : s.ids = []
      · exact .inr (h hnone)
      · exact .inl (hold hnone)
  | handleDelete id => exact activeExists_handleDelete_iff hexists hlisted hids hactive
  | setActivePlaylistId id =>
    refine iff_of_true (activeExists_iff_ids.mpr fun _ => ?_) trivial
    rw [hids, hactive]
    exact hlisted
  | addTrackToPlaylist playlistId track =>
    refine iff_of_true (activeExists_iff_ids.mpr ?_) trivial
    rw [hids, hactive]
    exact hold
  | removeTrackFromPlaylist playlistId trackId =>
    refine iff_of_true (activeExists_iff_ids.mpr ?_) trivial
    rw [hids, hactive]
    exact hold

end UserSteps

/-! ## Runs of the user -/

theorem GivenOut.ne_empty {nows : List ℤ} {id : String} (h : GivenOut nows id) : id ≠ "" := by
  rcases h with rfl | ⟨now, -, rfl⟩
  · decide
  · exact newId_ne (by decide)

/-- The times at which the user creates playlists. -/
def userClocks (actions : List (UserAction τ)) : List ℤ :=
  clocks (actions.map UserAction.action)

theorem userClocks_concat (actions : List (UserAction τ)) (a : UserAction τ) :
    userClocks (actions ++ [a]) = userClocks actions ++ a.action.clock.toList := by
  rw [userClocks, List.map_append, List.map_singleton, clocks_concat, userClocks]

section UserRuns

variable [DecidableEq τ] {actions : List (UserAction τ)} {s : PlayerStore τ}

/-- No action of the user throws. -/
theorem user_run (actions : List (UserAction τ)) :
    ∃ s, (user τ).run initial actions = some s ∧ (∀ pl ∈ s.playlists, TracksOk pl.tracks) ∧
      ∀ id ∈ s.ids, GivenOut (userClocks actions) id := by
  induction actions using List.reverseRecOn with
  | nil => exact ⟨_, rfl, wellFormed_initial.tracks, List.forall_mem_singleton.mpr (.inl rfl)⟩
  | append_singleton actions a ih =>
    obtain ⟨s, hrun, hs, hids⟩ := ih
    obtain ⟨s', hstep, hs', hids', -⟩ := user_step a hs
    refine ⟨s', StateMachine.run_concat_eq_some.mpr ⟨s, hrun, hstep⟩, hs', ?_⟩
    rw [hids', userClocks_concat]
    exact givenOut_idsAfter hids

/-- What holds of the state after a run. -/
theorem of_user_run (hrun : (user τ).run initial actions = some s) :
    (∀ pl ∈ s.playlists, TracksOk pl.tracks) ∧
      ∀ id ∈ s.ids, GivenOut (userClocks actions) id := by
  obtain ⟨s', hrun', hs⟩ := user_run actions
  obtain rfl := Option.some.inj (hrun.symm.trans hrun')
  exact hs

/-- What the last step of a run did. -/
theorem of_user_step {a : UserAction τ} {s' : PlayerStore τ}
    (hrun : (user τ).run initial actions = some s) (hstep : (user τ).step s a = some s') :
    s'.ids = idsAfter s.ids a.action ∧ s'.activePlaylistId = s.activeAfter a := by
  obtain ⟨s₁, hstep₁, -, hids, hactive⟩ := user_step a (of_user_run hrun).1
  obtain rfl := Option.some.inj (hstep.symm.trans hstep₁)
  exact ⟨hids, hactive⟩

/-- What is active was given out, or there is none. -/
theorem active_givenOut (hlisted : (user τ).Along Listed initial actions)
    (hrun : (user τ).run initial actions = some s) :
    s.activePlaylistId = "" ∨ GivenOut (userClocks actions) s.activePlaylistId := by
  refine StateMachine.run_induction (M := user τ) (P := fun actions s =>
    (user τ).Along Listed initial actions →
      s.activePlaylistId = "" ∨ GivenOut (userClocks actions) s.activePlaylistId)
    (fun _ => .inr (.inl rfl)) ?_ hrun hlisted
  intro actions s a s' hrun ih hstep hlisted
  have hmono : ∀ {id}, GivenOut (userClocks actions) id →
      GivenOut (userClocks (actions ++ [a])) id := by
    intro id hid
    rw [userClocks_concat]
    exact hid.mono (List.subset_append_left _ _)
  have hids := (of_user_run hrun).2
  have hold := (ih hlisted.init).imp_right hmono
  rw [(of_user_step hrun hstep).2]
  cases a with
  | handleDelete id =>
    rw [activeAfter]
    split
    · obtain ⟨i, pl, -, -, ⟨hnone, -⟩ | ⟨j, pl', -, hpl', hsome⟩⟩ :=
        next_cases (hlisted.last hrun : id ∈ s.ids)
      · exact .inl (by rw [hnone]; rfl)
      · rw [hsome]
        exact .inr (hmono (hids _ (List.mem_map_of_mem (List.mem_of_getElem? hpl'))))
    · exact hold
  | setActivePlaylistId id => exact .inr (hmono (hids _ (hlisted.last hrun)))
  | _ => exact hold

/-- With distinct clock values, ids are distinct. -/
theorem nodup_ids (hclocks : (userClocks actions).Nodup)
    (hrun : (user τ).run initial actions = some s) : s.ids.Nodup := by
  refine StateMachine.run_induction (M := user τ) (P := fun actions s =>
    (userClocks actions).Nodup → s.ids.Nodup) (fun _ => wellFormed_initial.ids) ?_ hrun hclocks
  intro actions s a s' hrun ih hstep hclocks
  rw [userClocks_concat] at hclocks
  rw [(of_user_step hrun hstep).1]
  exact nodup_idsAfter (ih (List.nodup_append.mp hclocks).1)
    (fresh_of_clocks (of_user_run hrun).2 hclocks)

/-- With distinct clock values, it only matters where playlists are created. -/
theorem careful_iff {a : UserAction τ} (hlisted : (user τ).Along Listed initial (actions ++ [a]))
    (hclocks : (userClocks (actions ++ [a])).Nodup)
    (hrun : (user τ).run initial actions = some s) : Careful s a ↔ CreatedBeside s a := by
  rw [userClocks_concat] at hclocks
  cases a with
  | createPlaylist now name =>
    have hnew : s.activePlaylistId ≠ newId now := by
      rcases active_givenOut hlisted.init hrun with hnone | hgiven
      · rw [hnone]
        exact Ne.symm (newId_ne (by decide))
      · intro hsame
        refine not_givenOut (fun hnow => ?_) (hsame ▸ hgiven)
        exact (List.nodup_append.mp hclocks).2.2 now hnow now (List.mem_singleton.mpr rfl) rfl
    exact ⟨fun h hnil => hnew (h hnil), fun h hnil => absurd hnil h⟩
  | handleDelete id =>
    refine iff_of_true (fun _ _ pl hnext hid => ?_) trivial
    obtain ⟨i, pl₀, hpl₀, hid₀, ⟨hnone, -⟩ | ⟨j, pl', hne, hpl', hsome⟩⟩ :=
      next_cases (hlisted.last hrun : id ∈ s.ids)
    · cases hnone.symm.trans hnext
    · obtain rfl := Option.some.inj (hsome.symm.trans hnext)
      have hnodup := nodup_ids (List.nodup_append.mp hclocks).1 hrun
      obtain ⟨hi, -⟩ := List.getElem?_eq_some_iff.mp hpl₀
      have hlt : i < s.ids.length := by rwa [ids, List.length_map]
      refine hne ((List.getElem?_inj hlt hnodup).mp ?_).symm
      rw [ids, List.getElem?_map, List.getElem?_map, hpl₀, hpl', Option.map_some, Option.map_some,
        hid₀, hid]
  | _ => exact Iff.rfl

/-- **The active playlist exists**, and it is the one that is highlighted, shown and played,
throughout a run if and only if its steps are careful. When clock values are distinct, this means
that no playlist is created where there is none. -/
theorem active_exists_iff (actions : List (UserAction τ))
    (hlisted : (user τ).Along Listed initial actions) :
    (∃ s, (user τ).run initial actions = some s) ∧
      ((user τ).Throughout (fun s => ActiveExists s ∧ SamePlaylist s) initial actions ↔
        (user τ).Along Careful initial actions) ∧
      ((userClocks actions).Nodup →
        ((user τ).Throughout (fun s => ActiveExists s ∧ SamePlaylist s) initial actions ↔
          (user τ).Along CreatedBeside initial actions)) := by
  obtain ⟨s, hrun, -⟩ := user_run actions
  have hsame : ∀ s : PlayerStore τ, (user τ).Reachable s →
      ((ActiveExists s ∧ SamePlaylist s) ↔ ActiveExists s) := by
    rintro s ⟨es, hes⟩
    have hids := (of_user_run hes).2
    exact and_iff_left_of_imp (activeExists_iff fun id hid => (hids id hid).ne_empty).mp
  have hexact : (user τ).Throughout (fun s => ActiveExists s ∧ SamePlaylist s) initial actions ↔
      (user τ).Along Careful initial actions := by
    refine StateMachine.throughout_iff_along_under (M := user τ) (Q := Listed) ?_ ?_ hrun hlisted
    · exact (hsame _ .init).mpr fun _ => List.mem_singleton.mpr rfl
    · intro s a s' hs hold hok hstep
      rw [hsame s' (hs.step hstep)]
      obtain ⟨es, hes⟩ := hs
      exact activeExists_step_iff (of_user_run hes).1 hold.1 hok hstep
  refine ⟨⟨s, hrun⟩, hexact, fun hclocks => hexact.trans ?_⟩
  refine StateMachine.Along.congr ?_
  rintro pre a post s₁ rfl hpre
  rw [List.append_cons] at hlisted hclocks
  refine careful_iff hlisted.init ?_ hpre
  rw [userClocks, List.map_append, clocks, List.filterMap_append] at hclocks
  exact (List.nodup_append.mp hclocks).1

/-- A playlist that is made active before another one is deleted. -/
def selected : List (UserAction ℕ) :=
  [.createPlaylist 1 "Piano", .addTrackToPlaylist "pl_1" ⟨1, "Chopin", "Nocturne", []⟩,
    .setActivePlaylistId "pl_1", .handleDelete "default"]

theorem active_exists_iff_selected :
    (∃ s, (user ℕ).run initial selected = some s) ∧
      ((user ℕ).Throughout (fun s => ActiveExists s ∧ SamePlaylist s) initial selected ↔
        (user ℕ).Along Careful initial selected) ∧
      ((userClocks selected).Nodup →
        ((user ℕ).Throughout (fun s => ActiveExists s ∧ SamePlaylist s) initial selected ↔
          (user ℕ).Along CreatedBeside initial selected)) := by
  refine active_exists_iff selected ?_
  exact .cons trivial rfl (.cons trivial rfl (.cons (by decide) rfl (.cons (by decide) rfl .nil)))

/-- Everything is deleted, and then a playlist is created. -/
def startedAgain : List (UserAction ℕ) := [.handleDelete "default", .createPlaylist 1 "Piano"]

theorem active_missing_startedAgain :
    (user ℕ).Along Listed initial startedAgain ∧
      ∃ s, (user ℕ).run initial startedAgain = some s ∧
        s.activePlaylist = some ⟨"pl_1", "Piano", []⟩ ∧ s.highlighted = [] ∧ ¬ ActiveExists s := by
  refine ⟨.cons (by decide) rfl (.cons trivial rfl .nil), _, rfl, by decide, by decide, ?_⟩
  exact fun h => absurd (h (by decide)) (by decide)

end UserRuns

end PlayerStore

end Vamp
