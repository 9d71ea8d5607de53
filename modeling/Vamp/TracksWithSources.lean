import Vamp.RepositoryPanics
import Vamp.SearchStatement

/-!
# Tracks with their sources

`get_tracks_with_sources` joins two queries by hand: the sources of all tracks of the page are
fetched at once, put into a map by the ids of the tracks, and taken out again, track by track.
As the ids on a page are distinct, no track finds the sources of another one, or finds its own gone
(`withSources_eq`).

What SQLite finds with a statement is a parameter of the environment. The join relies on it for
one statement, which has to find what it means (`Environment.Finds`).
-/

namespace Vamp

variable {ρ : Type}

/-- SQLite runs a statement as it is meant, whatever values are bound. -/
def Environment.Finds (env : Environment ρ) (sql : TrackSearch.Operators ρ) (db : Database ρ)
    (statement : TrackSearch.SearchStatement Unit) : Prop :=
  ∀ vals rows, statement.execute sql db vals = some rows →
    env.query statement.text vals db = .ok rows

namespace Repository

open Program SqlPage

/-! ## Lists of results -/

section Lists

variable {α β γ : Type}

/-- What is made of the list, next to what is made of each member. -/
theorem forall₂_zip {R : α → β → Prop} {g : α → γ} {xs : List α} {zs : List (β × γ)} :
    (∃ ys, List.Forall₂ R xs ys ∧ ys.zip (xs.map g) = zs) ↔
      List.Forall₂ (fun x z => R x z.1 ∧ g x = z.2) xs zs := by
  induction xs generalizing zs with
  | nil =>
    rw [List.forall₂_nil_left_iff]
    constructor
    · rintro ⟨ys, -, rfl⟩
      exact List.zip_nil_right
    · rintro rfl
      exact ⟨[], .nil, rfl⟩
  | cons x xs ih =>
    rw [List.forall₂_cons_left_iff]
    constructor
    · rintro ⟨ys, hys, rfl⟩
      obtain ⟨y, ys', hy, hys', rfl⟩ := List.forall₂_cons_left_iff.mp hys
      exact ⟨(y, g x), _, ⟨hy, rfl⟩, ih.mp ⟨ys', hys', rfl⟩, rfl⟩
    · rintro ⟨⟨y, _⟩, zs', ⟨hy, rfl⟩, hzs', rfl⟩
      obtain ⟨ys', hys', rfl⟩ := ih.mpr hzs'
      exact ⟨y :: ys', .cons hy hys', rfl⟩

end Lists

/-! ## The map -/

/-- **The map is emptied**, but not of what is still looked for. -/
theorem withSources_eq {tracks : List (TrackRow ρ × ℤ)} {map : ℤ → List SourceRow}
    (hnodup : (tracks.map Prod.snd).Nodup) :
    withSources tracks map = tracks.map fun track => (track.1, map track.2) := by
  induction tracks generalizing map with
  | nil => rfl
  | cons track tracks ih =>
    rw [List.map_cons, List.nodup_cons] at hnodup
    rw [withSources, ih hnodup.2, List.map_cons]
    refine congrArg _ (List.map_congr_left fun other hother => ?_)
    have hne : other.2 ≠ track.2 := by
      intro heq
      exact hnodup.1 (heq ▸ List.mem_map_of_mem hother)
    exact congrArg (Prod.mk other.1) (Function.update_of_ne hne _ _)

/-- The sources of a track among those of many. -/
theorem filter_sources (db : Database ρ) {ids : List ℤ} {id : ℤ} (hid : id ∈ ids) :
    (orderAsc TrackSource.id (db.trackSources.rows.filter fun row => row.trackId ∈ ids)).filter
        (fun row => row.trackId = id) = db.selectSources id := by
  rw [← orderAsc_filter (nodup_filter db.trackSources.nodup _), List.filter_filter,
    Database.selectSources]
  refine congrArg _ (List.filter_congr fun row _ => ?_)
  by_cases hrow : row.trackId = id
  · simp [hrow, hid]
  · simp [hrow]

/-- The ids of rows can be read. -/
theorem mapM_toI64_of_rows {rows : List (TrackInfo ρ)} {tracks : List (TrackRow ρ)}
    (hids : ∀ row ∈ rows, IsI64 row.id) (h : rows.mapM TrackRow.fromRow = .ok tracks) :
    (tracks.mapM fun track => track.id.toI64) = some (rows.map TrackInfo.id) := by
  induction rows generalizing tracks with
  | nil =>
    obtain rfl := Except.ok.inj h
    rfl
  | cons row rows ih =>
    obtain ⟨hid, hids⟩ := List.forall_mem_cons.mp hids
    rw [List.mapM_cons] at h
    obtain ⟨track, hrow, h⟩ := ok_of_bind h
    obtain ⟨tracks', hrows, h⟩ := ok_of_bind h
    obtain rfl := Except.ok.inj h
    obtain ⟨total, -, hrow⟩ := ok_of_bind hrow
    obtain rfl := Except.ok.inj hrow
    rw [List.mapM_cons, ih hids hrows]
    dsimp only
    rw [BigintId.toI64_fromI64 hid]
    rfl

/-! ## The join -/

/-- The sources of a track: all of its rows and no others, in the order of their ids. -/
def AreSourcesOf (db : Database ρ) (id : ℤ) (sources : List SourceRow) : Prop :=
  ∃ rows : List TrackSource, Ascending TrackSource.id rows ∧
    (∀ row, row ∈ rows ↔ row ∈ db.trackSources.rows ∧ row.trackId = id) ∧
    rows.map SourceRow.fromRow = sources

/-- There is one list of the sources of a track. -/
theorem areSourcesOf_iff {db : Database ρ} {id : ℤ} {sources : List SourceRow} :
    AreSourcesOf db id sources ↔ (db.selectSources id).map SourceRow.fromRow = sources := by
  have hnodup := nodup_filter db.trackSources.nodup fun row => row.trackId = id
  have hmem : ∀ row, row ∈ db.selectSources id ↔
      row ∈ db.trackSources.rows ∧ row.trackId = id := by
    intro row
    rw [Database.selectSources, (orderAsc_perm _).mem_iff, List.mem_filter, decide_eq_true_iff]
  constructor
  · rintro ⟨rows, hascending, hrows, rfl⟩
    have hsame : db.selectSources id = rows :=
      (ascending_orderAsc hnodup).eq_of_mem_iff hascending fun row =>
        (hmem row).trans (hrows row).symm
    rw [hsame]
  · rintro rfl
    exact ⟨_, ascending_orderAsc hnodup, hmem, rfl⟩

section Search

variable {env : Environment ρ} {sql : TrackSearch.Operators ρ} {db : Database ρ}
  {cursor : Option ℤ} {criteria : Option (List (TrackSearch.SearchCriteria ρ))} {limit : ℤ}
  {s' : Session (Database ρ) SqlxError}

/-- The rows of the page. -/
def pageOf (sql : TrackSearch.Operators ρ) (db : Database ρ) (cursor : Option ℤ)
    (criteria : Option (List (TrackSearch.SearchCriteria ρ))) (limit : ℤ) : List (TrackInfo ρ) :=
  page TrackInfo.id (cursor.getD 0) limit
    ((TrackSearch.searchStatement (criteria.getD [])).rows sql db)

/-- **What `get_tracks` returns**, if SQLite runs its statement as it is meant. -/
theorem getTracks_eq_ok {statement : String × List (TrackSearch.BindVal ρ)}
    (haccepted : TrackSearch.getTracks cursor criteria limit = .ok statement)
    (hcolumns : ∀ sc ∈ criteria.getD [], sc.columnName ≠ "tags")
    (hfinds : env.Finds sql db (TrackSearch.searchStatement (criteria.getD [])).slots)
    {tracks : List (TrackRow ρ)} :
    getTracks env cursor criteria limit ⟨db, none, []⟩ = .ok tracks s' ↔
      (pageOf sql db cursor criteria limit).mapM TrackRow.fromRow = .ok tracks ∧
        ⟨db, none, []⟩ = s' := by
  obtain ⟨text, vals⟩ := statement
  obtain ⟨rfl, rfl⟩ := TrackSearch.getTracks_eq_statement haccepted
    (TrackSearch.forColumns_of_getTracks haccepted hcolumns)
  have hexecute : (TrackSearch.searchStatement (criteria.getD [])).slots.execute sql db _ =
      some (pageOf sql db cursor criteria limit) :=
    TrackSearch.execute_statement _ (cursor.getD 0) limit
  have hquery := hfinds _ _ hexecute
  rw [getTracks, haccepted]
  dsimp only
  rw [tryLog, logging_eq_ok, fetchPool_eq_ok, hquery]
  rfl

/-- The ids of the page are distinct, and can be read. -/
theorem ids_pageOf (hlimit : 0 ≤ limit) :
    ((pageOf sql db cursor criteria limit).map TrackInfo.id).Nodup ∧
      ∀ row ∈ pageOf sql db cursor criteria limit, IsI64 row.id := by
  have hnodup := nodup_filter db.trackInfo.nodup fun track =>
    (TrackSearch.searchStatement (criteria.getD [])).conditions.all
      (TrackSearch.SqlCondition.holds sql track)
  refine ⟨?_, fun row hrow => ?_⟩
  · have hascending := ascending_around (ascending_orderAsc hnodup) (cursor.getD 0) limit.toNat
    rw [← page_eq hnodup _ hlimit] at hascending
    exact List.pairwise_map.mpr (hascending.imp fun hlt => Int.ne_of_lt hlt)
  · exact isI64_of_mem (List.mem_of_mem_filter (page_subset _ limit _ hrow))

/-- What `get_tracks_with_sources` does with the tracks. -/
def joinSources (tracks : List (TrackRow ρ)) : Operation ρ (List (TrackRow ρ × List SourceRow)) :=
  if tracks.isEmpty then pure []
  else do
    let ids ← orCrash (tracks.mapM fun track => track.id.toI64)
    let allSources ← tryLog "get_tracks_with_sources: fetch sources" (fetchPool fun db =>
      .ok (orderAsc TrackSource.id (db.trackSources.rows.filter fun row => row.trackId ∈ ids)))
    pure (withSources (tracks.zip ids) fun id =>
      (allSources.filter fun row => row.trackId = id).map SourceRow.fromRow)

/-- **The join by hand** is the join. -/
theorem joinSources_eq_ok {rows : List (TrackInfo ρ)} {tracks : List (TrackRow ρ)}
    {result : List (TrackRow ρ × List SourceRow)} (hnodup : (rows.map TrackInfo.id).Nodup)
    (hids : ∀ row ∈ rows, IsI64 row.id) (htracks : rows.mapM TrackRow.fromRow = .ok tracks) :
    joinSources tracks ⟨db, none, []⟩ = .ok result s' ↔
      tracks.zip (rows.map fun row => (db.selectSources row.id).map SourceRow.fromRow) = result ∧
        ⟨db, none, []⟩ = s' := by
  rw [joinSources]
  split
  · -- there is nothing to fetch
    rename_i hempty
    rw [pure_eq_ok, List.isEmpty_iff.mp hempty, List.zip_nil_left]
  · have hlength : tracks.length = rows.length := (mapM_eq_ok_iff.mp htracks).length_eq.symm
    have hfst : (tracks.zip (rows.map TrackInfo.id)).map Prod.snd = rows.map TrackInfo.id :=
      List.map_snd_zip (by rw [List.length_map, hlength])
    have hjoined : withSources (tracks.zip (rows.map TrackInfo.id)) (fun id =>
          ((orderAsc TrackSource.id (db.trackSources.rows.filter fun row =>
            row.trackId ∈ rows.map TrackInfo.id)).filter fun row => row.trackId = id).map
              SourceRow.fromRow) =
        tracks.zip (rows.map fun row => (db.selectSources row.id).map SourceRow.fromRow) := by
      have hzip : tracks.zip (rows.map fun row =>
            (db.selectSources row.id).map SourceRow.fromRow) =
          (tracks.zip (rows.map TrackInfo.id)).map
            (Prod.map id fun id => (db.selectSources id).map SourceRow.fromRow) := by
        rw [← List.zip_map_right, List.map_map]
        rfl
      rw [withSources_eq (by rwa [hfst]), hzip]
      refine List.map_congr_left fun pair hpair => ?_
      rw [filter_sources db (List.of_mem_zip hpair).2]
      rfl
    simp only [bind_eq_ok, orCrash_eq_ok, mapM_toI64_of_rows hids htracks, pure_eq_ok, tryLog,
      logging_eq_ok]
    constructor
    · rintro ⟨ids, _, ⟨⟨⟩, rfl⟩, allSources, _, hfetch, rfl, rfl⟩
      obtain ⟨⟨⟩, rfl⟩ := fetchPool_eq_ok.mp hfetch
      exact ⟨hjoined.symm, rfl⟩
    · rintro ⟨rfl, rfl⟩
      exact ⟨_, _, ⟨rfl, rfl⟩, _, _, fetchPool_eq_ok.mpr ⟨rfl, rfl⟩, hjoined, rfl⟩

/-- **What `get_tracks_with_sources` returns**. -/
theorem getTracksWithSources_eq_ok {statement : String × List (TrackSearch.BindVal ρ)}
    (hlimit : 0 ≤ limit) (haccepted : TrackSearch.getTracks cursor criteria limit = .ok statement)
    (hcolumns : ∀ sc ∈ criteria.getD [], sc.columnName ≠ "tags")
    (hfinds : env.Finds sql db (TrackSearch.searchStatement (criteria.getD [])).slots)
    {result : List (TrackRow ρ × List SourceRow)} :
    getTracksWithSources env cursor criteria limit ⟨db, none, []⟩ = .ok result s' ↔
      List.Forall₂ (fun row pair => TrackRow.fromRow row = .ok pair.1 ∧
          AreSourcesOf db row.id pair.2) (pageOf sql db cursor criteria limit) result ∧
        ⟨db, none, []⟩ = s' := by
  have hjoin : getTracksWithSources env cursor criteria limit =
      getTracks env cursor criteria limit >>= joinSources := rfl
  obtain ⟨hnodup, hids⟩ : ((pageOf sql db cursor criteria limit).map TrackInfo.id).Nodup ∧ _ :=
    ids_pageOf hlimit
  simp only [areSourcesOf_iff]
  rw [hjoin, bind_eq_ok, ← forall₂_zip (R := fun row track => TrackRow.fromRow row = .ok track)
    (g := fun row => (db.selectSources row.id).map SourceRow.fromRow)]
  constructor
  · rintro ⟨tracks, s₁, htracks, h⟩
    obtain ⟨hrows, rfl⟩ := (getTracks_eq_ok haccepted hcolumns hfinds).mp htracks
    obtain ⟨hresult, hs'⟩ := (joinSources_eq_ok hnodup hids hrows).mp h
    exact ⟨⟨tracks, mapM_eq_ok_iff.mp hrows, hresult⟩, hs'⟩
  · rintro ⟨⟨tracks, hrows, hresult⟩, hs'⟩
    have hrows' := mapM_eq_ok_iff.mpr hrows
    exact ⟨tracks, _, (getTracks_eq_ok haccepted hcolumns hfinds).mpr ⟨hrows', rfl⟩,
      (joinSources_eq_ok hnodup hids hrows').mpr ⟨hresult, hs'⟩⟩

end Search

/-- **Nothing is lost or mixed up.** For a search without tags that is accepted, the tracks of the
result are the page around the cursor of those that satisfy every criterion, and each of them
comes with exactly its sources. There is a result unless a row of the page cannot be read. -/
theorem get_tracks_with_sources_joins (env : Environment ρ) (sql : TrackSearch.Operators ρ)
    (db : Database ρ) (cursor : Option ℤ)
    (criteria : Option (List (TrackSearch.SearchCriteria ρ))) (limit : ℤ) (hlimit : 0 ≤ limit)
    (haccepted : ∃ statement, TrackSearch.getTracks cursor criteria limit = .ok statement)
    (hcolumns : ∀ sc ∈ criteria.getD [], sc.columnName ≠ "tags")
    (hfinds : env.Finds sql db (TrackSearch.searchStatement (criteria.getD [])).slots) :
    ∃ matching rows : List (TrackInfo ρ),
      Ascending TrackInfo.id matching ∧
      (∀ track, track ∈ matching ↔
        track ∈ db.trackInfo.rows ∧ TrackSearch.Satisfies sql (criteria.getD []) track) ∧
      rows = (matching.filter fun track => track.id < cursor.getD 0).rtake limit.toNat ++
        (matching.filter fun track => cursor.getD 0 ≤ track.id).take limit.toNat ∧
      Ascending TrackInfo.id rows ∧
      ∀ result s', getTracksWithSources env cursor criteria limit ⟨db, none, []⟩ = .ok result s' ↔
        List.Forall₂ (fun row pair => TrackRow.fromRow row = .ok pair.1 ∧
          AreSourcesOf db row.id pair.2) rows result ∧ ⟨db, none, []⟩ = s' := by
  obtain ⟨statement, haccepted⟩ := haccepted
  have hforColumns := TrackSearch.forColumns_of_getTracks haccepted hcolumns
  have hnodup : (((TrackSearch.searchStatement (criteria.getD [])).rows sql db).map
      TrackInfo.id).Nodup := nodup_filter db.trackInfo.nodup _
  have hpage : pageOf sql db cursor criteria limit = _ := page_eq hnodup (cursor.getD 0) hlimit
  refine ⟨orderAsc TrackInfo.id _, pageOf sql db cursor criteria limit,
    ascending_orderAsc hnodup, fun track => ?_, hpage, ?_, fun result s' => ?_⟩
  · rw [(orderAsc_perm _).mem_iff, TrackSearch.mem_rows_iff hforColumns]
  · rw [hpage]
    exact ascending_around (ascending_orderAsc hnodup) _ _
  · exact getTracksWithSources_eq_ok hlimit haccepted hcolumns hfinds

/-! ## A shelf of records -/

/-- Operators of SQLite, on integers and texts. -/
def plainOperators : TrackSearch.Operators ℤ where
  compare operator value bound :=
    match value, bound with
    | .number (.integer a), .float b | .number (.real a), .float b =>
      match operator with
      | .lt => a < b
      | .gt => b < a
      | .eq => a = b
      | .lte => a ≤ b
      | .gte => b ≤ a
      | .ne => a ≠ b
    | .text s, .text t => operator = .eq ∧ s = t
    | _, _ => false
  like value pattern :=
    match value, pattern with
    | .text s, .text t => s = t
    | _, _ => false

/-- An environment in which one statement is known. -/
def searching (statement : TrackSearch.SearchStatement Unit) : Environment ℤ :=
  { plainEnvironment with
    query := fun _ vals db =>
      ((statement.execute plainOperators db vals).map Except.ok).getD (.error .rowNotFound) }

theorem finds_searching (statement : TrackSearch.SearchStatement Unit) (db : Database ℤ) :
    (searching statement).Finds plainOperators db statement := by
  intro vals rows h
  simp only [searching, h, Option.map_some, Option.getD_some]

/-- Three tracks, of which one has two sources, and one has none. -/
def shelf : Database ℤ :=
  { Database.empty with
    trackInfo := ⟨[⟨1, "Chopin", "Nocturne", 270, none, none, "2024", .integer 0⟩,
      ⟨2, "Chopin", "Prelude", 120, none, some 60, "2024", .integer 30⟩,
      ⟨3, "Liszt", "Consolation", 240, some 320, none, "2025", .integer 0⟩], 3, by decide,
      by decide, by decide, by decide⟩
    trackSources := ⟨[⟨1, 2, "prelude.mp3"⟩, ⟨2, 1, "nocturne.mp3"⟩, ⟨3, 2, "prelude.flac"⟩], 3,
      by decide, by decide, by decide, by decide⟩ }

/-- Long tracks of an artist. -/
def longByArtist : List (TrackSearch.SearchCriteria ℤ) :=
  [⟨"artist", [.textIn ["Chopin"]]⟩, ⟨"length_seconds", [.numericComparison .gt 60]⟩]

theorem get_tracks_with_sources_joins_shelf :
    ∃ matching rows : List (TrackInfo ℤ),
      Ascending TrackInfo.id matching ∧
      (∀ track, track ∈ matching ↔ track ∈ shelf.trackInfo.rows ∧
        TrackSearch.Satisfies plainOperators longByArtist track) ∧
      rows = (matching.filter fun track => track.id < 2).rtake 5 ++
        (matching.filter fun track => 2 ≤ track.id).take 5 ∧
      Ascending TrackInfo.id rows ∧
      ∀ result s', getTracksWithSources (searching (TrackSearch.searchStatement longByArtist).slots)
          (some 2) (some longByArtist) 5 ⟨shelf, none, []⟩ = .ok result s' ↔
        List.Forall₂ (fun row pair => TrackRow.fromRow row = .ok pair.1 ∧
          AreSourcesOf shelf row.id pair.2) rows result ∧ ⟨shelf, none, []⟩ = s' :=
  get_tracks_with_sources_joins (searching (TrackSearch.searchStatement longByArtist).slots)
    plainOperators shelf (some 2) (some longByArtist) 5 (by decide) ⟨_, rfl⟩ (by decide)
    (finds_searching _ shelf)

end Repository

end Vamp
