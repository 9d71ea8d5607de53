import Vamp.FilteredPage

/-!
# Which filters are dropped?

`get_tracks_filtered` accepts every kind of parameter for every column. It reads the texts for
two of the columns, and the lists of tags; the catch-all arms of its matches drop the rest without
a word. Even the texts for one column are alternatives, although `get_tracks` wants all of them.

`Satisfies` says what a parameter asks for, as `get_tracks` understands it. A call that does not
fail returns what is asked for only if the tracks of its page, which pass the criteria that are
read, happen to be that (`filters_kept_iff`).
-/

namespace Vamp

namespace FilteredTracks

variable {ρ φ : Type}

/-! ## What columns contain -/

/-- What a column of `track_info` contains. -/
inductive ColumnValue (ρ : Type) : Type where
  | null
  | number (x : Cell ρ)
  | text (s : String)
  deriving DecidableEq

/-- The column of a name; `tags` is none. -/
def CriteriaName.value? (track : TrackInfo ρ) : CriteriaName → Option (ColumnValue ρ)
  | .id => some (.number (.integer track.id))
  | .artist => some (.text track.artist)
  | .trackName => some (.text track.trackName)
  | .lengthSeconds => some (.number (.integer track.lengthSeconds))
  | .bitrateKbps => some (track.bitrateKbps.elim .null fun n => .number (.integer n))
  | .tempoBpm => some (track.tempoBpm.elim .null fun x => .number (.real x))
  | .additionTime => some (.text track.additionTime)
  | .listenedSeconds => some (.number track.listenedSeconds)
  | .tags => none

/-- What SQLite makes of the conditions of `get_tracks`, apart from `LIKE`. -/
structure Sqlite (ρ φ : Type) : Type where
  /-- the text of a number, for `LIKE` -/
  render : Cell ρ → String
  /-- `value operator ?`, for a number that is bound to it; the value is not null -/
  compare : FilterNumericOperator → ColumnValue ρ → φ → Bool
  /-- `number = ?`, for a text that is bound to it -/
  equals : Cell ρ → String → Bool

/-- What `LIKE` looks at. -/
def ColumnValue.text? (sql : Sqlite ρ φ) : ColumnValue ρ → Option String
  | .null => none
  | .number x => some (sql.render x)
  | .text s => some s

/-- `value = ?`, for a text. -/
def ColumnValue.equals (sql : Sqlite ρ φ) : ColumnValue ρ → String → Bool
  | .null, _ => false
  | .number x, t => sql.equals x t
  | .text s, t => s = t

/-- `value operator ?`. -/
def ColumnValue.compare (sql : Sqlite ρ φ) (value : ColumnValue ρ)
    (operator : FilterNumericOperator) (x : φ) : Bool :=
  match value with
  | .null => false
  | value => sql.compare operator value x

/-- What a column contains is what a parameter asks for. Lists of tags are for tags only. -/
def Satisfies (like : String → String → Bool) (sql : Sqlite ρ φ) (value : ColumnValue ρ) :
    FilterSearchParam φ → Prop
  | .numericComparison operator x => value.compare sql operator x = true
  | .numericBetween min max => value.compare sql .gte min = true ∧ value.compare sql .lte max = true
  | .textLike pattern _ => ∃ text ∈ value.text? sql, like text ("%" ++ pattern ++ "%") = true
  | .textIn values => ∃ text ∈ values, value.equals sql text = true
  | .nullCheck isNull => isNull = true ↔ value = .null
  | .tagsAny _ | .tagsAll _ => True

/-- A track is what the criteria for the columns ask for. -/
def SatisfiesAll (like : String → String → Bool) (sql : Sqlite ρ φ)
    (criteria : List (SearchCriteriaFiltered φ)) (track : TrackInfo ρ) : Prop :=
  ∀ name param, Given criteria name param → ∀ value ∈ name.value? track,
    Satisfies like sql value param

/-- **No filter is dropped**: the call fails, or every track that it returns is read from a row that
is what is asked for. -/
def FiltersKept (env : Environment ρ) (sql : Sqlite ρ ρ) (db : Database ρ) (cursor : Option ℤ)
    (criteria : List (SearchCriteriaFiltered ρ)) (limit : ℤ) : Prop :=
  ∀ tracks s',
    Repository.getTracksFiltered env cursor (some criteria) limit ⟨db, none, []⟩ = .ok tracks s' →
    ∀ track ∈ tracks, ∃ row ∈ db.trackInfo.rows,
      TrackRow.fromRow row = .ok track ∧ SatisfiesAll env.like sql criteria row

/-- A row is on the page of those that pass the criteria that are read. -/
def OnFilteredPage (like : String → String → Bool) (db : Database ρ) (cursor : Option ℤ)
    (criteria : List (SearchCriteriaFiltered φ)) (limit : ℤ) (row : TrackInfo ρ) : Prop :=
  SqlPage.OnPage TrackInfo.id (fun row => row ∈ db.trackInfo.rows ∧ Passes like db criteria row)
    (cursor.getD 0) limit row

/-! ## What is returned -/

section Returned

variable {env : Environment ρ} {db : Database ρ} {cursor : Option ℤ}
  {criteria : List (SearchCriteriaFiltered ρ)} {limit : ℤ} {row : TrackInfo ρ}

theorem OnFilteredPage.passes {like : String → String → Bool}
    (h : OnFilteredPage like db cursor criteria limit row) :
    row ∈ db.trackInfo.rows ∧ Passes like db criteria row := by
  obtain ⟨rows, hrows, hrow⟩ := h
  exact hrows.of_mem hrow

/-- What the call returns is read from the page: every row of it, and no others. -/
theorem forall₂_of_returned {tracks : List (TrackRow ρ)} {s' : Session (Database ρ) SqlxError}
    (hfinds : env.Refuses db cursor criteria limit ∨ env.FindsFiltered db cursor criteria limit)
    (h : Repository.getTracksFiltered env cursor (some criteria) limit ⟨db, none, []⟩ =
      .ok tracks s') :
    ∃ rows, (∀ row, row ∈ rows ↔ OnFilteredPage env.like db cursor criteria limit row) ∧
      List.Forall₂ (fun row track => TrackRow.fromRow row = .ok track) rows tracks := by
  have hfinds := hfinds.resolve_left (Repository.not_refuses_of_ok h)
  obtain ⟨-, ⟨rows, hrows, htracks⟩, -⟩ :=
    (Repository.getTracksFiltered_eq_ok (some criteria) hfinds).mp h
  exact ⟨rows, fun row => hrows.mem_iff, htracks⟩

/-- **There is a result** unless there is a panic, or a row of the page cannot be read. -/
theorem exists_result (hfinds : env.FindsFiltered db cursor criteria limit)
    (hreadable : ¬AsksUnreadable criteria)
    (hrows : ∀ row, OnFilteredPage env.like db cursor criteria limit row → ¬row.Unreadable) :
    ∃ tracks, Repository.getTracksFiltered env cursor (some criteria) limit ⟨db, none, []⟩ =
      .ok tracks ⟨db, none, []⟩ := by
  obtain ⟨select, hselect⟩ := exists_buildSelect hreadable
  have hpage := Repository.isPage_of_select env.like db hselect (cursor.getD 0) limit
  obtain ⟨tracks, htracks⟩ := exists_forall₂ fun row hrow =>
    TrackRow.exists_fromRow_iff.mpr (hrows row (hpage.mem_iff.mp hrow))
  exact ⟨tracks, (Repository.getTracksFiltered_eq_ok (some criteria) hfinds).mpr
    ⟨hreadable, ⟨_, hpage, htracks⟩, rfl⟩⟩

/-- **Filters are kept if and only if** the call fails, since a tag or a row of the page cannot be
read, or SQLite refuses the statement, or every row of the page, which passes the criteria that are
read, is what all of them ask for. -/
theorem filters_kept_iff (env : Environment ρ) (sql : Sqlite ρ ρ) (db : Database ρ)
    (cursor : Option ℤ) (criteria : List (SearchCriteriaFiltered ρ)) (limit : ℤ)
    (hfinds : env.Refuses db cursor criteria limit ∨ env.FindsFiltered db cursor criteria limit) :
    FiltersKept env sql db cursor criteria limit ↔
      AsksUnreadable criteria ∨ env.Refuses db cursor criteria limit ∨
        (∃ row, OnFilteredPage env.like db cursor criteria limit row ∧ row.Unreadable) ∨
        ∀ row, OnFilteredPage env.like db cursor criteria limit row →
          SatisfiesAll env.like sql criteria row := by
  constructor
  · intro h
    by_contra hnot
    push Not at hnot
    obtain ⟨hreadable, hnotRefused, hrows, row, hrow, hdropped⟩ := hnot
    obtain ⟨tracks, htracks⟩ := exists_result (hfinds.resolve_left hnotRefused) hreadable hrows
    obtain ⟨rows, hpage, hread⟩ := forall₂_of_returned hfinds htracks
    obtain ⟨track, htrack, hread⟩ := exists_of_forall₂ hread ((hpage row).mpr hrow)
    obtain ⟨row', hmem', hread', hsatisfies⟩ := h tracks _ htracks track htrack
    obtain rfl := TrackRow.eq_of_fromRow hrow.passes.1 hmem' hread hread'
    exact hdropped hsatisfies
  · intro h tracks s' htracks track htrack
    obtain ⟨rows, hpage, hread⟩ := forall₂_of_returned hfinds htracks
    obtain ⟨row, hmem, hreads⟩ := exists_of_forall₂_right hread htrack
    have hrow := (hpage row).mp hmem
    refine ⟨row, hrow.passes.1, hreads, ?_⟩
    rcases h with hpanics | hrefused | ⟨row', hrow', hunreadable⟩ | hsatisfies
    · rw [Repository.getTracksFiltered_eq_panic (some criteria) hpanics] at htracks
      cases htracks
    · exact absurd hrefused (Repository.not_refuses_of_ok htracks)
    · obtain ⟨track', -, hread'⟩ := exists_of_forall₂ hread ((hpage row').mpr hrow')
      exact absurd hunreadable (TrackRow.exists_fromRow_iff.mp ⟨track', hread'⟩)
    · exact hsatisfies row hrow

end Returned

/-! ## Texts that stand alone -/

section Alone

variable {like : String → String → Bool} {sql : Sqlite ρ φ} {track : TrackInfo ρ}

/-- The texts for a column, as the query understands them. -/
theorem satisfies_of_textMatches {column : TextColumn} {param : FilterSearchParam φ}
    (h : TextMatches like (column.read track) param) :
    Satisfies like sql (.text (column.read track)) param := by
  cases param with
  | textLike pattern caseSensitive => exact ⟨_, rfl, h⟩
  | textIn values => exact ⟨_, h, decide_eq_true rfl⟩
  | numericComparison | numericBetween | nullCheck | tagsAny | tagsAll => exact h.elim

/-- What passes is what is asked for, if there is one text for each column. -/
theorem satisfiesAll_of_alone {db : Database ρ} {criteria : List (SearchCriteriaFiltered φ)}
    (halone : ∀ name param, Given criteria name param →
      name = .tags ∨ ∃ column : TextColumn, name = column.name ∧
        ∀ param', Given criteria name param' → param' = param)
    (hpasses : Passes like db criteria track) : SatisfiesAll like sql criteria track := by
  intro name param hgiven value hvalue
  rcases halone name param hgiven with rfl | ⟨column, rfl, hsame⟩
  · cases hvalue
  · obtain ⟨c, hc, hname, -⟩ := hgiven
    obtain ⟨param', hgiven', hmatches⟩ := hpasses.text column ⟨c, hc, hname⟩
    obtain rfl := hsame param' hgiven'
    have hread : column.name.value? track = some (.text (column.read track)) := by
      cases column <;> rfl
    obtain rfl := Option.some.inj (hread.symm.trans hvalue)
    exact satisfies_of_textMatches hmatches

/-- **One text for each column** is what `get_tracks_filtered` is made for. -/
theorem filters_kept_of_alone {env : Environment ρ} {sql : Sqlite ρ ρ} {db : Database ρ}
    {cursor : Option ℤ} {criteria : List (SearchCriteriaFiltered ρ)} {limit : ℤ}
    (hfinds : env.Refuses db cursor criteria limit ∨ env.FindsFiltered db cursor criteria limit)
    (halone : ∀ name param, Given criteria name param →
      name = .tags ∨ ∃ column : TextColumn, name = column.name ∧
        ∀ param', Given criteria name param' → param' = param) :
    FiltersKept env sql db cursor criteria limit := by
  intro tracks s' htracks track htrack
  obtain ⟨rows, hpage, hread⟩ := forall₂_of_returned hfinds htracks
  obtain ⟨row, hmem, hreads⟩ := exists_of_forall₂_right hread htrack
  obtain ⟨hrow, hpasses⟩ := ((hpage row).mp hmem).passes
  exact ⟨row, hrow, hreads, satisfiesAll_of_alone halone hpasses⟩

end Alone

/-! ## Long tracks -/

/-- The orders that an operator accepts. -/
def FilterNumericOperator.accepts : FilterNumericOperator → Ordering → Bool
  | .lt => Ordering.isLT
  | .gt => Ordering.isGT
  | .eq => Ordering.isEq
  | .lte => Ordering.isLE
  | .gte => Ordering.isGE
  | .ne => Ordering.isNe

/-- SQLite, where all numbers are integers. -/
def integers : Sqlite ℤ ℤ where
  render
    | .integer n | .real n => toString n
  compare operator
    | .null, _ => false
    | .number (.integer n), x | .number (.real n), x => operator.accepts (Ord.compare n x)
    | .text s, x => operator.accepts (Ord.compare s (toString x))
  equals
    | .integer n, t | .real n, t => toString n = t

/-- Tracks of more than five minutes. -/
def longTracks : List (SearchCriteriaFiltered ℤ) :=
  [⟨.lengthSeconds, [.numericComparison .gt 300]⟩]

/-- A track of four minutes and a half. -/
def shortTrack : Database ℤ := { Database.empty with trackInfo := oneTrack }

theorem filters_kept_iff_longTracks :
    FiltersKept plainEnvironment.filtering integers shortTrack none longTracks 50 ↔
      AsksUnreadable longTracks ∨
        plainEnvironment.filtering.Refuses shortTrack none longTracks 50 ∨
        (∃ row, OnFilteredPage plainEnvironment.like shortTrack none longTracks 50 row ∧
          row.Unreadable) ∨
        ∀ row, OnFilteredPage plainEnvironment.like shortTrack none longTracks 50 row →
          SatisfiesAll plainEnvironment.like integers longTracks row :=
  filters_kept_iff plainEnvironment.filtering integers shortTrack none longTracks 50
    (.inr (plainEnvironment.finds_filtering _ _ _ _))

/-- It is returned all the same. -/
theorem not_filtersKept_longTracks :
    ¬FiltersKept plainEnvironment.filtering integers shortTrack none longTracks 50 := by
  intro h
  have hnone : ∀ name, Constrained longTracks name → name = .lengthSeconds := by
    rintro name ⟨c, hc, rfl⟩
    rw [List.mem_singleton.mp hc]
  have hreadable : ¬AsksUnreadable longTracks := by
    rintro ⟨param, ⟨c, hc, hname, -⟩, -⟩
    cases hnone .tags ⟨c, hc, hname⟩
  have hpasses : ∀ row, Passes plainEnvironment.like shortTrack longTracks row := by
    refine fun row => ⟨fun column hconstrained => ?_, ?_⟩
    · cases column <;> cases hnone _ hconstrained
    · rintro param ⟨c, hc, hname, -⟩
      cases hnone .tags ⟨c, hc, hname⟩
  let row : TrackInfo ℤ := ⟨1, "Chopin", "Nocturne", 270, none, none, "2024", .integer 0⟩
  have hrow : OnFilteredPage plainEnvironment.like shortTrack none longTracks 50 row :=
    ⟨[row], ⟨[row], List.pairwise_singleton _ row, fun other => (and_iff_left (hpasses other)).symm,
      rfl⟩, List.mem_singleton_self row⟩
  have hfinds := plainEnvironment.finds_filtering shortTrack none longTracks 50
  obtain ⟨tracks, htracks⟩ := exists_result hfinds hreadable fun other hother => by
    obtain rfl := List.mem_singleton.mp hother.passes.1
    exact nofun
  obtain ⟨rows, hpage, hread⟩ := forall₂_of_returned (.inr hfinds) htracks
  obtain ⟨track, htrack, -⟩ := exists_of_forall₂ hread ((hpage row).mpr hrow)
  obtain ⟨other, hmem, -, hsatisfies⟩ := h tracks _ htracks track htrack
  obtain rfl := List.mem_singleton.mp hmem
  have hlong : FilterNumericOperator.gt.accepts (Ord.compare (270 : ℤ) 300) = true :=
    hsatisfies .lengthSeconds (.numericComparison .gt 300)
      ⟨_, List.mem_singleton_self _, rfl, List.mem_singleton_self _⟩ _ rfl
  exact absurd hlong (by decide)

end FilteredTracks

end Vamp
