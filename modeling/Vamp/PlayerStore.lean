import Mathlib.Data.List.Nodup
import Mathlib.Data.Option.Basic
import Vamp.BigintId
import Vamp.JsArray
import Vamp.StateMachine

/-!
# The playlists of the player

`usePlayerStore` keeps the playlists of the frontend. They are edited by index and by id, in arrays
whose elements could be undefined, and an edit that comes upon such an element throws.

Every edit of a playlist is an update of its tracks (`updatePlaylist`). What the updates do to
tracks that are defined and distinct is said once for each of them (`TracksOk`), and one step
lemma makes playlists of it (`step_spec`). So playlists are well formed in every run
(`playlists_wellFormed`).
-/

namespace Vamp

variable {τ : Type}

/-- `TrackWithSources`, as far as the player reads it. -/
structure TrackWithSources (τ : Type) : Type where
  /-- the id, a string or a number -/
  id : τ
  artist : String
  trackName : String
  /-- the URLs of the sources -/
  sources : List String
  deriving DecidableEq

/-- An array of tracks. `none` is undefined. -/
abbrev Tracks (τ : Type) : Type := List (Option (TrackWithSources τ))

/-- `Playlist`. -/
structure Playlist (τ : Type) : Type where
  id : String
  name : String
  tracks : Tracks τ
  deriving DecidableEq

/-- The playlists in `PlayerStore`. -/
structure PlayerStore (τ : Type) : Type where
  playlists : List (Playlist τ)
  activePlaylistId : String
  deriving DecidableEq

namespace PlayerStore

open JsArray

/-! ## The store -/

/-- The store at the start. -/
def initial : PlayerStore τ := ⟨[⟨"default", "Playlist 1", []⟩], "default"⟩

/-- The id of a playlist that is created now. -/
def newId (now : ℤ) : String := "pl_" ++ toString now

/-- `createPlaylist`, when `Date.now()` is `now`. -/
def createPlaylist (now : ℤ) (name : String) (s : PlayerStore τ) : PlayerStore τ :=
  { s with playlists := s.playlists ++ [⟨newId now, name, []⟩] }

/-- `deletePlaylist`. -/
def deletePlaylist (playlistId : String) (s : PlayerStore τ) : PlayerStore τ :=
  { s with playlists := s.playlists.filter fun pl => pl.id ≠ playlistId }

/-- `setActivePlaylistId`. -/
def setActivePlaylistId (id : String) (s : PlayerStore τ) : PlayerStore τ :=
  { s with activePlaylistId := id }

/-- Every playlist with an id gets other tracks. -/
def updatePlaylist (playlistId : String) (update : Tracks τ → Option (Tracks τ))
    (s : PlayerStore τ) : Option (PlayerStore τ) := do
  let playlists ← s.playlists.mapM fun pl =>
    if pl.id ≠ playlistId then some pl
    else (update pl.tracks).map fun tracks => { pl with tracks }
  some { s with playlists }

section Ids

variable [DecidableEq τ]

/-- A track goes to the end, if it is not there. -/
def addTrack (track : TrackWithSources τ) (tracks : Tracks τ) : Option (Tracks τ) := do
  if ← tracks.anyM (Option.map fun t => decide (t.id = track.id)) then some tracks
  else some (tracks ++ [some track])

/-- A track is taken out. -/
def removeTrack (trackId : τ) (tracks : Tracks τ) : Option (Tracks τ) :=
  tracks.filterM (Option.map fun t => decide (t.id ≠ trackId))

/-- A track is taken out at one index, and put in at another. -/
def reorderTrack (fromIndex toIndex : ℤ) (tracks : Tracks τ) : Option (Tracks τ) :=
  let (removed, tracks) := splice tracks fromIndex 1 []
  let moved := removed.head?.join
  some (splice tracks toIndex 0 [moved]).2

/-- `addTrackToPlaylist`. -/
def addTrackToPlaylist (playlistId : String) (track : TrackWithSources τ) (s : PlayerStore τ) :
    Option (PlayerStore τ) :=
  s.updatePlaylist playlistId (addTrack track)

/-- `removeTrackFromPlaylist`. -/
def removeTrackFromPlaylist (playlistId : String) (trackId : τ) (s : PlayerStore τ) :
    Option (PlayerStore τ) :=
  s.updatePlaylist playlistId (removeTrack trackId)

omit [DecidableEq τ] in
/-- `reorderPlaylistTrack`. -/
def reorderPlaylistTrack (playlistId : String) (fromIndex toIndex : ℤ) (s : PlayerStore τ) :
    Option (PlayerStore τ) :=
  s.updatePlaylist playlistId (reorderTrack fromIndex toIndex)

/-- An action of the store. -/
inductive Action (τ : Type) : Type where
  /-- at a time -/
  | createPlaylist (now : ℤ) (name : String)
  | deletePlaylist (playlistId : String)
  | addTrackToPlaylist (playlistId : String) (track : TrackWithSources τ)
  | removeTrackFromPlaylist (playlistId : String) (trackId : τ)
  | reorderPlaylistTrack (playlistId : String) (fromIndex toIndex : ℤ)
  | setActivePlaylistId (id : String)
  deriving DecidableEq

/-- What an action does; `none` if it throws. -/
def step (s : PlayerStore τ) : Action τ → Option (PlayerStore τ)
  | .createPlaylist now name => some (s.createPlaylist now name)
  | .deletePlaylist playlistId => some (s.deletePlaylist playlistId)
  | .addTrackToPlaylist playlistId track => s.addTrackToPlaylist playlistId track
  | .removeTrackFromPlaylist playlistId trackId => s.removeTrackFromPlaylist playlistId trackId
  | .reorderPlaylistTrack playlistId fromIndex toIndex =>
    s.reorderPlaylistTrack playlistId fromIndex toIndex
  | .setActivePlaylistId id => some (s.setActivePlaylistId id)

/-- The store under its actions. -/
def machine (τ : Type) [DecidableEq τ] : StateMachine (PlayerStore τ) (Action τ) where
  init := initial
  step := step

/-- `handleDragEnd` of `PlaylistView`, where a track is dropped over another one: the indices
with which it calls `onReorder`, if it does. -/
def handleDragEnd (tracks : Tracks τ) (activeId overId : τ) : Option (Option (ℤ × ℤ)) :=
  if activeId = overId then some none
  else do
    let fromIndex ← findIndexM (Option.map fun t => decide (t.id = activeId)) tracks
    let toIndex ← findIndexM (Option.map fun t => decide (t.id = overId)) tracks
    if fromIndex ≠ -1 ∧ toIndex ≠ -1 then some (some (fromIndex, toIndex)) else some none

end Ids

/-! ## Well-formed playlists -/

/-- Tracks that are defined, with distinct ids. -/
structure TracksOk (tracks : Tracks τ) : Prop where
  /-- nothing is undefined -/
  defined : none ∉ tracks
  /-- ids are distinct -/
  distinct : (tracks.map (Option.map TrackWithSources.id)).Nodup

/-- The ids of the playlists. -/
def ids (s : PlayerStore τ) : List String := s.playlists.map Playlist.id

/-- **Playlists are well formed**: their ids are distinct, and so are the tracks in each. -/
structure WellFormed (s : PlayerStore τ) : Prop where
  /-- ids are distinct -/
  ids : s.ids.Nodup
  /-- tracks are defined and distinct -/
  tracks : ∀ pl ∈ s.playlists, TracksOk pl.tracks

theorem wellFormed_initial : (initial : PlayerStore τ).WellFormed :=
  ⟨List.nodup_singleton _, List.forall_mem_singleton.mpr ⟨List.not_mem_nil, List.nodup_nil⟩⟩

/-! ## What updates do to tracks -/

section Updates

variable {tracks : Tracks τ}

theorem map_id_map_some (ts : List (TrackWithSources τ)) :
    (ts.map some).map (Option.map TrackWithSources.id) =
      (ts.map TrackWithSources.id).map some := by
  rw [List.map_map, List.map_map]
  rfl

theorem tracksOk_map_some {ts : List (TrackWithSources τ)} :
    TracksOk (ts.map some) ↔ (ts.map TrackWithSources.id).Nodup := by
  constructor
  · intro h
    have hdistinct := h.distinct
    rwa [map_id_map_some, List.nodup_map_iff (Option.some_injective τ)] at hdistinct
  · intro h
    refine ⟨by simp, ?_⟩
    rwa [map_id_map_some, List.nodup_map_iff (Option.some_injective τ)]

/-- What is defined are tracks. -/
theorem TracksOk.exists_eq (h : TracksOk tracks) :
    ∃ ts : List (TrackWithSources τ), tracks = ts.map some ∧
      (ts.map TrackWithSources.id).Nodup := by
  have hsome : ∀ tracks : Tracks τ, none ∉ tracks →
      ∃ ts : List (TrackWithSources τ), tracks = ts.map some := by
    intro tracks
    induction tracks with
    | nil => exact fun _ => ⟨[], rfl⟩
    | cons t tracks ih =>
      intro hdefined
      rw [List.mem_cons, not_or] at hdefined
      obtain ⟨ts, rfl⟩ := ih hdefined.2
      obtain ⟨t, rfl⟩ := Option.ne_none_iff_exists'.mp (Ne.symm hdefined.1)
      exact ⟨t :: ts, rfl⟩
  obtain ⟨ts, rfl⟩ := hsome tracks h.defined
  exact ⟨ts, rfl, tracksOk_map_some.mp h⟩

/-- An integer is an index of an array. -/
def Inside (tracks : Tracks τ) (i : ℤ) : Prop := 0 ≤ i ∧ i < tracks.length

instance (tracks : Tracks τ) (i : ℤ) : Decidable (Inside tracks i) :=
  inferInstanceAs (Decidable (_ ∧ _))

theorem reorderTrack_ok {fromIndex toIndex : ℤ} (h : TracksOk tracks)
    (hfrom : Inside tracks fromIndex) (hto : Inside tracks toIndex) :
    ∃ tracks', reorderTrack fromIndex toIndex tracks = some tracks' ∧ TracksOk tracks' ∧
      Moved tracks fromIndex.toNat toIndex.toNat tracks' := by
  obtain ⟨hfrom₀, hfrom⟩ := hfrom
  obtain ⟨hto₀, hto⟩ := hto
  obtain ⟨i, rfl⟩ := Int.eq_ofNat_of_zero_le hfrom₀
  obtain ⟨j, rfl⟩ := Int.eq_ofNat_of_zero_le hto₀
  rw [Int.toNat_natCast, Int.toNat_natCast]
  obtain ⟨hremoved, hmoved⟩ := moved_splice (Int.ofNat_lt.mp hfrom) (Int.ofNat_lt.mp hto)
  have hreorder : reorderTrack i j tracks =
      some (splice (splice tracks i 1 []).2 j 0 [(splice tracks i 1 []).1.head?.join]).2 := rfl
  rw [hremoved] at hreorder
  refine ⟨_, hreorder, ⟨?_, ?_⟩, hmoved⟩
  · exact fun hmem => h.defined (hmoved.perm.mem_iff.mp hmem)
  · exact (hmoved.perm.map _).nodup_iff.mpr h.distinct

variable [DecidableEq τ]

theorem addTrack_ok (track : TrackWithSources τ) (h : TracksOk tracks) :
    ∃ tracks', addTrack track tracks = some tracks' ∧ TracksOk tracks' := by
  obtain ⟨ts, rfl, hdistinct⟩ := h.exists_eq
  rw [addTrack, anyM_map_some, Option.bind_eq_bind, Option.bind_some]
  cases hany : ts.any fun t => t.id = track.id with
  | true => exact ⟨_, rfl, h⟩
  | false =>
    refine ⟨(ts ++ [track]).map some, by rw [List.map_append]; rfl, tracksOk_map_some.mpr ?_⟩
    rw [List.map_append, List.map_singleton, ← List.concat_eq_append]
    refine hdistinct.concat fun hmem => ?_
    obtain ⟨t, ht, hid⟩ := List.mem_map.mp hmem
    exact List.any_eq_false.mp hany t ht (decide_eq_true hid)

theorem removeTrack_ok (trackId : τ) (h : TracksOk tracks) :
    ∃ tracks', removeTrack trackId tracks = some tracks' ∧ TracksOk tracks' := by
  obtain ⟨ts, rfl, hdistinct⟩ := h.exists_eq
  refine ⟨_, filterM_map_some, tracksOk_map_some.mpr ?_⟩
  exact hdistinct.sublist (List.filter_sublist.map _)

/-- A track that is found by its id. -/
theorem findTrack_cases (ts : List (TrackWithSources τ)) (id : τ) :
    findIndexM (Option.map fun t => decide (t.id = id)) (ts.map some) = some (-1) ∨
      ∃ (i : ℕ) (t : TrackWithSources τ),
        findIndexM (Option.map fun t => decide (t.id = id)) (ts.map some) = some (i : ℤ) ∧
          (ts.map some)[i]? = some (some t) ∧ t.id = id ∧ Inside (ts.map some) i := by
  rw [findIndexM_map_some]
  rcases findIndex_cases (fun t : TrackWithSources τ => decide (t.id = id)) ts
    with ⟨hnone, -⟩ | ⟨i, t, hfound, ht, hid⟩
  · exact .inl (congrArg some hnone)
  · obtain ⟨hi, -⟩ := List.getElem?_eq_some_iff.mp ht
    refine .inr ⟨i, t, congrArg some hfound, ?_, of_decide_eq_true hid, Int.natCast_nonneg i, ?_⟩
    · rw [List.getElem?_map, ht, Option.map_some]
    · rw [List.length_map]
      exact Int.ofNat_lt.mpr hi

/-- **What a drag reorders**: the indices of the two tracks, which are inside. -/
theorem handleDragEnd_spec (h : TracksOk tracks) (activeId overId : τ) :
    handleDragEnd tracks activeId overId = some none ∨
      ∃ i j : ℕ, handleDragEnd tracks activeId overId = some (some ((i : ℤ), (j : ℤ))) ∧
        Inside tracks i ∧ Inside tracks j ∧
        (∃ t, tracks[i]? = some (some t) ∧ t.id = activeId) ∧
        ∃ t, tracks[j]? = some (some t) ∧ t.id = overId := by
  obtain ⟨ts, rfl, -⟩ := h.exists_eq
  unfold handleDragEnd
  by_cases hsame : activeId = overId
  · exact .inl (if_pos hsame)
  rw [if_neg hsame]
  rcases findTrack_cases ts activeId with hfrom | ⟨i, t, hfrom, ht, hactive, hi⟩
  · rcases findTrack_cases ts overId with hto | ⟨j, t', hto, -⟩
    all_goals
      rw [hfrom, hto]
      exact .inl rfl
  · rcases findTrack_cases ts overId with hto | ⟨j, t', hto, ht', hover, hj⟩
    · rw [hfrom, hto, Option.bind_eq_bind, Option.bind_some, Option.bind_some]
      have hmissing : ¬ ((i : ℤ) ≠ -1 ∧ (-1 : ℤ) ≠ -1) := fun hboth => hboth.2 rfl
      exact .inl (if_neg hmissing)
    · rw [hfrom, hto, Option.bind_eq_bind, Option.bind_some, Option.bind_some]
      have hfound : (i : ℤ) ≠ -1 ∧ (j : ℤ) ≠ -1 := by omega
      exact .inr ⟨i, j, if_pos hfound, hi, hj, ⟨t, ht, hactive⟩, ⟨t', ht', hover⟩⟩

end Updates

/-! ## What actions do to playlists -/

/-- The playlists with other ids. -/
def others (playlistId : String) (s : PlayerStore τ) : List (Playlist τ) :=
  s.playlists.filter fun pl => pl.id ≠ playlistId

/-- A playlist after an update that does not throw. -/
def updated (playlistId : String) (update : Tracks τ → Option (Tracks τ)) (pl : Playlist τ) :
    Playlist τ :=
  if pl.id ≠ playlistId then pl else { pl with tracks := (update pl.tracks).getD [] }

section Steps

variable {s : PlayerStore τ} {playlistId : String} {update : Tracks τ → Option (Tracks τ)}
  {pl : Playlist τ}

theorem updated_of_ne (h : pl.id ≠ playlistId) : updated playlistId update pl = pl := if_pos h

theorem updated_of_eq {tracks : Tracks τ} (h : pl.id = playlistId)
    (hupdate : update pl.tracks = some tracks) :
    updated playlistId update pl = { pl with tracks } := by
  rw [updated, if_neg (not_not_intro h), hupdate, Option.getD_some]

@[simp] theorem id_updated : (updated playlistId update pl).id = pl.id := by
  unfold updated
  split <;> rfl

theorem others_map_updated (pls : List (Playlist τ)) :
    (pls.map (updated playlistId update)).filter (fun pl => pl.id ≠ playlistId) =
      pls.filter fun pl => pl.id ≠ playlistId := by
  induction pls with
  | nil => rfl
  | cons pl pls ih =>
    rw [List.map_cons, List.filter_cons, List.filter_cons, id_updated, ih]
    split
    · rw [updated_of_ne (of_decide_eq_true ‹_›)]
    · rfl

/-- **An update changes the tracks of the named playlist**, and nothing else. -/
theorem updatePlaylist_spec (hs : ∀ pl ∈ s.playlists, TracksOk pl.tracks)
    (h : ∀ pl ∈ s.playlists, pl.id = playlistId →
      ∃ tracks, update pl.tracks = some tracks ∧ TracksOk tracks) :
    ∃ s', s.updatePlaylist playlistId update = some s' ∧
      (∀ pl ∈ s'.playlists, TracksOk pl.tracks) ∧ s'.ids = s.ids ∧
      s'.activePlaylistId = s.activePlaylistId ∧ s'.others playlistId = s.others playlistId ∧
      s'.playlists = s.playlists.map (updated playlistId update) := by
  have hrun : s.updatePlaylist playlistId update =
      some { s with playlists := s.playlists.map (updated playlistId update) } := by
    rw [updatePlaylist, mapM_of_forall fun pl hpl => ?_]
    · rfl
    · by_cases hid : pl.id = playlistId
      · obtain ⟨tracks, htracks, -⟩ := h pl hpl hid
        rw [if_neg (not_not_intro hid), updated_of_eq hid htracks, htracks]
        rfl
      · rw [if_pos hid, updated_of_ne hid]
  have hids : ids { s with playlists := s.playlists.map (updated playlistId update) } = s.ids := by
    rw [ids, List.map_map]
    exact List.map_congr_left fun pl _ => id_updated
  refine ⟨_, hrun, ?_, hids, rfl, others_map_updated _, rfl⟩
  intro _ hmem
  obtain ⟨pl, hpl, rfl⟩ := List.mem_map.mp hmem
  by_cases hid : pl.id = playlistId
  · obtain ⟨tracks, htracks, hok⟩ := h pl hpl hid
    rwa [updated_of_eq hid htracks]
  · rw [updated_of_ne hid]
    exact hs pl hpl

end Steps

section Actions

variable [DecidableEq τ] {s : PlayerStore τ}

/-- The playlist that an action names. -/
def Action.playlistId : Action τ → String
  | .createPlaylist now _ => newId now
  | .deletePlaylist playlistId | .addTrackToPlaylist playlistId _
  | .removeTrackFromPlaylist playlistId _ | .reorderPlaylistTrack playlistId _ _
  | .setActivePlaylistId playlistId => playlistId

/-- The indices of a reorder are indices of the named playlist. -/
def Within (s : PlayerStore τ) : Action τ → Prop
  | .reorderPlaylistTrack playlistId fromIndex toIndex => ∀ pl ∈ s.playlists,
    pl.id = playlistId → Inside pl.tracks fromIndex ∧ Inside pl.tracks toIndex
  | _ => True

/-- **What an edit leaves alone**: all other playlists, and with a reorder the order of all other
tracks. -/
def Edits (s : PlayerStore τ) (a : Action τ) : Prop :=
  ∃ s', s.step a = some s' ∧ s'.others a.playlistId = s.others a.playlistId ∧
    match a with
    | .reorderPlaylistTrack playlistId fromIndex toIndex => ∀ pl ∈ s.playlists,
      pl.id = playlistId → ∃ tracks, { pl with tracks } ∈ s'.playlists ∧
        Moved pl.tracks fromIndex.toNat toIndex.toNat tracks
    | _ => True

/-- The ids after an action. -/
def idsAfter (ids : List String) : Action τ → List String
  | .createPlaylist now _ => ids ++ [newId now]
  | .deletePlaylist playlistId => ids.filter fun id => id ≠ playlistId
  | _ => ids

/-- A playlist is created with an id that is new. -/
def Fresh (ids : List String) : Action τ → Prop
  | .createPlaylist now _ => newId now ∉ ids
  | _ => True

omit [DecidableEq τ] in
theorem nodup_idsAfter {ids : List String} {a : Action τ} (h : ids.Nodup) (hfresh : Fresh ids a) :
    (idsAfter ids a).Nodup := by
  cases a with
  | createPlaylist now name =>
    rw [idsAfter, ← List.concat_eq_append]
    exact h.concat hfresh
  | deletePlaylist playlistId => exact h.filter _
  | _ => exact h

/-- **What an action does.** -/
theorem step_spec {a : Action τ} (hs : ∀ pl ∈ s.playlists, TracksOk pl.tracks)
    (hwithin : Within s a) :
    ∃ s', s.step a = some s' ∧ (∀ pl ∈ s'.playlists, TracksOk pl.tracks) ∧
      s'.ids = idsAfter s.ids a ∧ Edits s a := by
  cases a with
  | createPlaylist now name =>
    refine ⟨_, rfl, ?_, List.map_append, _, rfl, ?_, trivial⟩
    · exact List.forall_mem_append.mpr ⟨hs,
        List.forall_mem_singleton.mpr ⟨List.not_mem_nil, List.nodup_nil⟩⟩
    · rw [others, createPlaylist, List.filter_append, others]
      simp [Action.playlistId]
  | deletePlaylist playlistId =>
    refine ⟨_, rfl, fun pl hpl => hs pl (List.mem_of_mem_filter hpl), ?_, _, rfl, ?_, trivial⟩
    · rw [idsAfter, ids, ids, List.filter_map]
      rfl
    · rw [others, deletePlaylist, List.filter_filter]
      exact List.filter_congr fun pl _ => Bool.and_self _
  | addTrackToPlaylist playlistId track =>
    obtain ⟨s', hrun, hs', hids, -, hothers, -⟩ :=
      updatePlaylist_spec hs fun pl hpl _ => addTrack_ok track (hs pl hpl)
    exact ⟨s', hrun, hs', hids, s', hrun, hothers, trivial⟩
  | removeTrackFromPlaylist playlistId trackId =>
    obtain ⟨s', hrun, hs', hids, -, hothers, -⟩ :=
      updatePlaylist_spec hs fun pl hpl _ => removeTrack_ok trackId (hs pl hpl)
    exact ⟨s', hrun, hs', hids, s', hrun, hothers, trivial⟩
  | reorderPlaylistTrack playlistId fromIndex toIndex =>
    have hmoved : ∀ pl ∈ s.playlists, pl.id = playlistId → ∃ tracks,
        reorderTrack fromIndex toIndex pl.tracks = some tracks ∧ TracksOk tracks ∧
          Moved pl.tracks fromIndex.toNat toIndex.toNat tracks := by
      intro pl hpl hid
      obtain ⟨hfrom, hto⟩ := hwithin pl hpl hid
      exact reorderTrack_ok (hs pl hpl) hfrom hto
    have hok : ∀ pl ∈ s.playlists, pl.id = playlistId → ∃ tracks,
        reorderTrack fromIndex toIndex pl.tracks = some tracks ∧ TracksOk tracks := by
      intro pl hpl hid
      obtain ⟨tracks, htracks, hok, -⟩ := hmoved pl hpl hid
      exact ⟨tracks, htracks, hok⟩
    obtain ⟨s', hrun, hs', hids, -, hothers, hplaylists⟩ := updatePlaylist_spec hs hok
    refine ⟨s', hrun, hs', hids, s', hrun, hothers, fun pl hpl hid => ?_⟩
    obtain ⟨tracks, htracks, -, hmoved⟩ := hmoved pl hpl hid
    refine ⟨tracks, ?_, hmoved⟩
    rw [hplaylists, ← updated_of_eq hid htracks]
    exact List.mem_map_of_mem hpl
  | setActivePlaylistId id => exact ⟨_, rfl, hs, rfl, _, rfl, rfl, trivial⟩

/-- A drag in a playlist reorders within it. -/
theorem within_handleDragEnd {pl : Playlist τ} (hs : s.WellFormed) (hpl : pl ∈ s.playlists)
    {activeId overId : τ} {fromIndex toIndex : ℤ}
    (h : handleDragEnd pl.tracks activeId overId = some (some (fromIndex, toIndex))) :
    Within s (.reorderPlaylistTrack pl.id fromIndex toIndex) := by
  intro pl' hpl' hid
  obtain rfl : pl' = pl := List.inj_on_of_nodup_map hs.ids hpl' hpl hid
  rcases handleDragEnd_spec (hs.tracks pl' hpl') activeId overId with
    hnone | ⟨i, j, hsome, hi, hj, -⟩
  · rw [hnone] at h
    cases h
  · rw [hsome] at h
    obtain ⟨rfl, rfl⟩ := Prod.mk.inj (Option.some.inj (Option.some.inj h))
    exact ⟨hi, hj⟩

end Actions

/-! ## Runs -/

theorem newId_injective {now now' : ℤ} (h : newId now = newId now') : now = now' := by
  have htext : (toString now).toList = (toString now').toList := by
    have hlist := congrArg String.toList h
    rw [newId, newId, String.toList_append, String.toList_append] at hlist
    exact List.append_cancel_left hlist
  have hparsed := BigintId.parseSigned_toString now
  rw [htext, BigintId.parseSigned_toString, Option.some.injEq] at hparsed
  exact hparsed.symm

/-- The first character of an id tells whether it was given out. -/
theorem newId_ne {now : ℤ} {id : String} (h : id.toList.head? ≠ some 'p') : newId now ≠ id := by
  rintro rfl
  refine h ?_
  rw [newId, String.toList_append]
  rfl

section Runs

variable [DecidableEq τ]

/-- When a playlist is created. -/
def Action.clock : Action τ → Option ℤ
  | .createPlaylist now _ => some now
  | _ => none

/-- The times at which playlists are created. -/
def clocks (actions : List (Action τ)) : List ℤ := actions.filterMap Action.clock

/-- The ids that were given out at some times. -/
def GivenOut (nows : List ℤ) (id : String) : Prop := id = "default" ∨ ∃ now ∈ nows, id = newId now

theorem GivenOut.mono {nows nows' : List ℤ} {id : String} (h : GivenOut nows id)
    (hsubset : nows ⊆ nows') : GivenOut nows' id := by
  rcases h with hdefault | ⟨now, hnow, hid⟩
  · exact .inl hdefault
  · exact .inr ⟨now, hsubset hnow, hid⟩

/-- A new clock value gives a new id. -/
theorem not_givenOut {nows : List ℤ} {now : ℤ} (h : now ∉ nows) : ¬ GivenOut nows (newId now) := by
  rintro (hdefault | ⟨now', hnow', hid⟩)
  · exact newId_ne (by decide) hdefault
  · exact h (newId_injective hid ▸ hnow')

omit [DecidableEq τ] in
theorem givenOut_idsAfter {nows : List ℤ} {a : Action τ} {ids : List String}
    (h : ∀ id ∈ ids, GivenOut nows id) :
    ∀ id ∈ idsAfter ids a, GivenOut (nows ++ a.clock.toList) id := by
  have hold : ∀ id ∈ ids, GivenOut (nows ++ a.clock.toList) id := fun id hid =>
    (h id hid).mono (List.subset_append_left _ _)
  cases a with
  | createPlaylist now name =>
    refine List.forall_mem_append.mpr ⟨hold, List.forall_mem_singleton.mpr (.inr ⟨now, ?_, rfl⟩)⟩
    exact List.mem_append_right _ (List.mem_singleton.mpr rfl)
  | deletePlaylist playlistId => exact fun id hid => hold id (List.mem_of_mem_filter hid)
  | _ => exact hold

omit [DecidableEq τ] in
theorem fresh_of_clocks {nows : List ℤ} {a : Action τ} {ids : List String}
    (hids : ∀ id ∈ ids, GivenOut nows id) (hclocks : (nows ++ a.clock.toList).Nodup) :
    Fresh ids a := by
  cases a with
  | createPlaylist now name =>
    refine fun hmem => not_givenOut (fun hnow => ?_) (hids _ hmem)
    exact (List.nodup_append.mp hclocks).2.2 now hnow now (List.mem_singleton.mpr rfl) rfl
  | _ => trivial

omit [DecidableEq τ] in
theorem clocks_concat (actions : List (Action τ)) (a : Action τ) :
    clocks (actions ++ [a]) = clocks actions ++ a.clock.toList := by
  rw [clocks, List.filterMap_append]
  cases a <;> rfl

/-- **No run goes wrong**, as long as clock values are new and indices are inside. -/
theorem run_spec {actions : List (Action τ)} (hclocks : (clocks actions).Nodup)
    (hwithin : (machine τ).Along Within initial actions) :
    ∃ s, (machine τ).run initial actions = some s ∧ s.WellFormed ∧
      ∀ id ∈ s.ids, GivenOut (clocks actions) id := by
  induction actions using List.reverseRecOn with
  | nil => exact ⟨_, rfl, wellFormed_initial, List.forall_mem_singleton.mpr (.inl rfl)⟩
  | append_singleton actions a ih =>
    rw [clocks_concat] at hclocks
    obtain ⟨s, hrun, hs, hids⟩ := ih (List.nodup_append.mp hclocks).1 hwithin.init
    obtain ⟨s', hstep, htracks, hids', -⟩ := step_spec hs.tracks (hwithin.last hrun)
    refine ⟨s', StateMachine.run_concat_eq_some.mpr ⟨s, hrun, hstep⟩, ⟨?_, htracks⟩, ?_⟩
    · rw [hids']
      exact nodup_idsAfter hs.ids (fresh_of_clocks hids hclocks)
    · rw [hids', clocks_concat]
      exact givenOut_idsAfter hids

/-- **Playlists stay well formed** under all edits, whatever their order: ids and the tracks in
each playlist are distinct, and nothing is undefined. An edit leaves all other playlists as they
were, and a reorder puts the track where it should be and leaves the order of the others. -/
theorem playlists_wellFormed (actions : List (Action τ)) (hclocks : (clocks actions).Nodup)
    (hwithin : (machine τ).Along Within initial actions) :
    (∃ s, (machine τ).run initial actions = some s ∧ s.WellFormed) ∧
      (machine τ).Along Edits initial actions := by
  constructor
  · obtain ⟨s, hrun, hs, -⟩ := run_spec hclocks hwithin
    exact ⟨s, hrun, hs⟩
  · rintro pre a post s rfl hrun
    rw [clocks, List.filterMap_append] at hclocks
    rw [List.append_cons] at hwithin
    obtain ⟨s', hrun', hs, -⟩ := run_spec (List.nodup_append.mp hclocks).1 hwithin.init.init
    obtain rfl := Option.some.inj (hrun.symm.trans hrun')
    obtain ⟨-, -, -, -, hedits⟩ := step_spec hs.tracks (hwithin.init.last hrun)
    exact hedits

/-- Two tracks that change places, and a new playlist. -/
def swapped : List (Action ℕ) :=
  [.addTrackToPlaylist "default" ⟨1, "Chopin", "Nocturne", ["nocturne.mp3"]⟩,
    .addTrackToPlaylist "default" ⟨2, "Bach", "Prelude", []⟩,
    .reorderPlaylistTrack "default" 0 1, .createPlaylist 1 "Piano"]

theorem playlists_wellFormed_swapped :
    (∃ s, (machine ℕ).run initial swapped = some s ∧ s.WellFormed) ∧
      (machine ℕ).Along Edits initial swapped := by
  refine playlists_wellFormed swapped (by decide) ?_
  refine .cons trivial rfl (.cons trivial rfl (.cons ?_ rfl (.cons trivial rfl .nil)))
  exact List.forall_mem_singleton.mpr fun _ => by decide

end Runs

end PlayerStore

end Vamp
