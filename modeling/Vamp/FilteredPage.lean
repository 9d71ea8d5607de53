import Vamp.RepositoryPanics

/-!
# The page of `get_tracks_filtered`

What the call returns. SQLite runs its statement as it is meant (`Environment.FindsFiltered`), or
it refuses to, as one of its limits is exceeded (`Environment.Refuses`): there may be too many
values, or a pattern may be too long. What it finds is the page of the rows that pass, and there is
a result unless one of them cannot be read (`getTracksFiltered_eq_ok`). For criteria that make sense
these are the tracks that match (`get_tracks_filtered_page`).
-/

namespace Vamp

open FilteredTracks

variable {ρ : Type}

/-! ## What SQLite does -/

/-- SQLite runs the statement of a search as it is meant. In particular, none of its limits is
exceeded. -/
def Environment.FindsFiltered (env : Environment ρ) (db : Database ρ) (cursor : Option ℤ)
    (criteria : List (SearchCriteriaFiltered ρ)) (limit : ℤ) : Prop :=
  ∀ select rows, buildSelect criteria = some select →
    execute env.like db select.skeleton (select.bound cursor limit) = some rows →
    env.queryFiltered select.skeleton (select.bound cursor limit) db = .ok rows

/-- SQLite refuses to run the statement of a search. -/
def Environment.Refuses (env : Environment ρ) (db : Database ρ) (cursor : Option ℤ)
    (criteria : List (SearchCriteriaFiltered ρ)) (limit : ℤ) : Prop :=
  ∃ select e, buildSelect criteria = some select ∧
    env.queryFiltered select.skeleton (select.bound cursor limit) db = .error e

/-- An environment in which every statement of `get_tracks_filtered` is run. -/
def Environment.filtering (env : Environment ρ) : Environment ρ :=
  { env with
    queryFiltered := fun statement values db =>
      ((execute env.like db statement values).map Except.ok).getD (.error .rowNotFound) }

theorem Environment.finds_filtering (env : Environment ρ) (db : Database ρ) (cursor : Option ℤ)
    (criteria : List (SearchCriteriaFiltered ρ)) (limit : ℤ) :
    env.filtering.FindsFiltered db cursor criteria limit := by
  intro select rows _ h
  change execute env.like db _ _ = some rows at h
  simp only [filtering, h, Option.map_some, Option.getD_some]

/-! ## Rows that can be read -/

/-- A row cannot be read: what its track has been listened to is no `INTEGER`. -/
def TrackInfo.Unreadable (row : TrackInfo ρ) : Prop := ∃ x, row.listenedSeconds = .real x

theorem TrackRow.exists_fromRow_iff {row : TrackInfo ρ} :
    (∃ track, TrackRow.fromRow row = .ok track) ↔ ¬row.Unreadable := by
  rw [TrackRow.fromRow, TrackInfo.Unreadable]
  cases row.listenedSeconds with
  | integer n => exact iff_of_true ⟨_, rfl⟩ nofun
  | real x => exact iff_of_false nofun (not_not.mpr ⟨x, rfl⟩)

/-- What is read tells which row it is. -/
theorem TrackRow.eq_of_fromRow {db : Database ρ} {row row' : TrackInfo ρ} {track : TrackRow ρ}
    (hmem : row ∈ db.trackInfo.rows) (hmem' : row' ∈ db.trackInfo.rows)
    (h : TrackRow.fromRow row = .ok track) (h' : TrackRow.fromRow row' = .ok track) :
    row = row' := by
  have hid : ∀ {row : TrackInfo ρ}, row ∈ db.trackInfo.rows → TrackRow.fromRow row = .ok track →
      track.id.toI64 = some row.id := by
    intro row hmem h
    obtain ⟨listened, -, h⟩ := ok_of_bind h
    obtain rfl := Except.ok.inj h
    exact BigintId.toI64_fromI64 (Repository.isI64_of_mem hmem)
  exact List.inj_on_of_nodup_map db.trackInfo.nodup hmem hmem'
    (Option.some.inj ((hid hmem h).symm.trans (hid hmem' h')))

namespace Repository

open Program SqlPage

/-! ## The call -/

/-- What is read from the page of the rows that are found. -/
def ReadFromPage (found : TrackInfo ρ → Prop) (cursor : Option ℤ) (limit : ℤ)
    (tracks : List (TrackRow ρ)) : Prop :=
  ∃ rows, IsPage TrackInfo.id found (cursor.getD 0) limit rows ∧
    List.Forall₂ (fun row track => TrackRow.fromRow row = .ok track) rows tracks

/-- The rows of the statement are the page of those that pass. -/
theorem isPage_of_select (like : String → String → Bool) (db : Database ρ)
    {criteria : List (SearchCriteriaFiltered ρ)} {select : Select Value}
    (hselect : buildSelect criteria = some select) (cursor limit : ℤ) :
    IsPage TrackInfo.id (fun row => row ∈ db.trackInfo.rows ∧ Passes like db criteria row) cursor
      limit (page TrackInfo.id cursor limit (select.rows like db)) := by
  have hrows : (fun row => row ∈ db.trackInfo.rows ∧ Passes like db criteria row) =
      (· ∈ select.rows like db) := funext fun row => propext (mem_rows_iff hselect).symm
  rw [hrows]
  exact isPage_page (nodup_filter db.trackInfo.nodup _) cursor limit

/-- There is one page. -/
theorem readFromPage_iff {found : TrackInfo ρ → Prop} {cursor : Option ℤ} {limit : ℤ}
    {rows : List (TrackInfo ρ)} {tracks : List (TrackRow ρ)}
    (hrows : IsPage TrackInfo.id found (cursor.getD 0) limit rows) :
    ReadFromPage found cursor limit tracks ↔
      List.Forall₂ (fun row track => TrackRow.fromRow row = .ok track) rows tracks := by
  constructor
  · rintro ⟨rows', hrows', htracks⟩
    rwa [hrows.unique hrows']
  · exact fun htracks => ⟨rows, hrows, htracks⟩

section Call

variable {env : Environment ρ} {db : Database ρ} {cursor : Option ℤ}
  {criteria : Option (List (SearchCriteriaFiltered ρ))} {limit : ℤ} {select : Select Value}
  {tracks : List (TrackRow ρ)} {s' : Session (Database ρ) SqlxError}

variable (criteria) in
/-- The statement is run, and its rows are read. -/
theorem getTracksFiltered_eq (hselect : buildSelect (criteria.getD []) = some select)
    (hfinds : env.FindsFiltered db cursor (criteria.getD []) limit) :
    getTracksFiltered env cursor criteria limit ⟨db, none, []⟩ =
      tryLog "get_tracks_filtered" (fetchPool fun _ =>
        (page TrackInfo.id (cursor.getD 0) limit (select.rows env.like db)).mapM
          TrackRow.fromRow) ⟨db, none, []⟩ := by
  have hfound := hfinds select _ hselect (execute_skeleton env.like db select cursor limit)
  have hrun : getTracksFiltered env cursor criteria limit ⟨db, none, []⟩ =
      tryLog "get_tracks_filtered" (fetchPool fun db => do
        let rows ← env.queryFiltered select.skeleton (select.bound cursor limit) db
        rows.mapM TrackRow.fromRow) ⟨db, none, []⟩ := by
    rw [getTracksFiltered, hselect]
    rfl
  rw [hrun]
  refine logging_congr (fetchPool_congr ?_)
  dsimp only
  rw [hfound]
  rfl

variable (criteria) in
/-- A tag that cannot be read is a panic. -/
theorem getTracksFiltered_eq_panic (h : AsksUnreadable (criteria.getD []))
    (s : Session (Database ρ) SqlxError) :
    getTracksFiltered env cursor criteria limit s = .error .panic s := by
  rw [getTracksFiltered, buildSelect_eq_none_iff.mpr h]
  rfl

variable (criteria) in
/-- **What the call returns**: the page of the rows that pass, if they can all be read. -/
theorem getTracksFiltered_eq_ok
    (hfinds : env.FindsFiltered db cursor (criteria.getD []) limit) :
    getTracksFiltered env cursor criteria limit ⟨db, none, []⟩ = .ok tracks s' ↔
      ¬AsksUnreadable (criteria.getD []) ∧
        ReadFromPage (fun row => row ∈ db.trackInfo.rows ∧
          Passes env.like db (criteria.getD []) row) cursor limit tracks ∧
        ⟨db, none, []⟩ = s' := by
  by_cases hunreadable : AsksUnreadable (criteria.getD [])
  · rw [getTracksFiltered_eq_panic criteria hunreadable]
    exact iff_of_false nofun fun h => h.1 hunreadable
  obtain ⟨select, hselect⟩ := exists_buildSelect hunreadable
  have hpage := isPage_of_select env.like db hselect (cursor.getD 0) limit
  rw [getTracksFiltered_eq criteria hselect hfinds, tryLog, logging_eq_ok, fetchPool_eq_ok,
    mapM_eq_ok_iff, readFromPage_iff hpage]
  exact (and_iff_right hunreadable).symm

/-- What is refused is not returned. -/
theorem not_refuses_of_ok (h : getTracksFiltered env cursor criteria limit ⟨db, none, []⟩ =
    .ok tracks s') : ¬env.Refuses db cursor (criteria.getD []) limit := by
  rintro ⟨select, e, hselect, hrefused⟩
  rw [getTracksFiltered, hselect] at h
  obtain ⟨_, _, hbuilt, h⟩ := bind_eq_ok.mp h
  obtain ⟨hsome, rfl⟩ := orCrash_eq_ok.mp hbuilt
  obtain rfl := Option.some.inj hsome
  rw [tryLog, logging_eq_ok, fetchPool_eq_ok] at h
  obtain ⟨rows, hrows, -⟩ := ok_of_bind h.1
  cases hrefused.symm.trans hrows

end Call

/-! ## The page around the cursor -/

/-- The track with the two tags. -/
def taggedTrack : Database ℤ :=
  { Database.empty with
    trackInfo := oneTrack
    tags := ⟨[⟨2, "piano"⟩, ⟨5, "slow"⟩], 5, by decide, by decide, by decide, by decide⟩
    tagAssignments :=
      ⟨[⟨1, 1, 2⟩, ⟨2, 1, 5⟩], 2, by decide, by decide, by decide, by decide⟩ }

end Repository

end Vamp
