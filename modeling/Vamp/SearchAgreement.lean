import Vamp.TracksWithSources

/-!
# The two searches

There are two searches: `get_tracks`, whose criteria name a column by a string and all have to
hold, and `get_tracks_filtered`, whose criteria have a type of their own, are merged by column,
and only one for each column has to hold. They build their statements in different ways, one by
hand and one with `sea_query`.

Every search for texts by `get_tracks_filtered` can be written for `get_tracks` (`plain`), with
the pattern as it is sent to SQLite. What `get_tracks` finds then is never more
(`passes_of_satisfies`), and when each column is asked for once, both return the same tracks,
whatever is in the tables, on every page (`searches_agree`).
-/

namespace Vamp

open FilteredTracks TrackSearch

variable {ρ : Type}

namespace FilteredTracks

/-! ## From one search to the other -/

/-- The name of a column in `get_tracks`. -/
def CriteriaName.columnName : CriteriaName → String
  | id => "id"
  | artist => "artist"
  | trackName => "track_name"
  | lengthSeconds => "length_seconds"
  | bitrateKbps => "bitrate_kbps"
  | tempoBpm => "tempo_bpm"
  | additionTime => "addition_time"
  | tags => "tags"
  | listenedSeconds => "listened_seconds"

/-- An operator of the one search as one of the other. -/
def FilterNumericOperator.plain : FilterNumericOperator → NumericOperator
  | lt => .lt
  | gt => .gt
  | eq => .eq
  | lte => .lte
  | gte => .gte
  | ne => .ne

/-- A parameter of the one search as one of the other: `get_tracks` does not surround patterns. -/
def FilterSearchParam.plain : FilterSearchParam ρ → SearchParam ρ
  | numericComparison operator value => .numericComparison operator.plain value
  | numericBetween min max => .numericBetween min max
  | textLike pattern caseSensitive => .textLike ("%" ++ pattern ++ "%") caseSensitive
  | textIn values => .textIn values
  | nullCheck isNull => .nullCheck isNull
  | tagsAny tagIds => .tagsIn tagIds
  | tagsAll tagIds => .tagsAll tagIds

/-- A criterion of the one search as one of the other. -/
def SearchCriteriaFiltered.plain (c : SearchCriteriaFiltered ρ) : SearchCriteria ρ :=
  ⟨c.filterName.columnName, c.criteria.map FilterSearchParam.plain⟩

/-- The search of `get_tracks`. -/
def plain (criteria : List (SearchCriteriaFiltered ρ)) : List (SearchCriteria ρ) :=
  criteria.map SearchCriteriaFiltered.plain

/-- A column of the one search as one of the other. -/
def TextColumn.plain : TextColumn → Column
  | trackName => .trackName
  | artist => .artist

theorem TextColumn.name_plain (column : TextColumn) :
    column.plain.name = column.name.columnName := by
  cases column <;> rfl

theorem TextColumn.read_plain (column : TextColumn) (track : TrackInfo ρ) :
    column.plain.read track = .text (column.read track) := by
  cases column <;> rfl

theorem TextColumn.name_ne_tags (column : TextColumn) : column.name ≠ .tags := by
  cases column <;> exact CriteriaName.noConfusion

/-- A parameter asks for texts. -/
def FilterSearchParam.IsText : FilterSearchParam ρ → Prop
  | textLike _ _ => True
  | textIn _ => True
  | _ => False

/-- A search for texts in the columns that have them. -/
def ForTexts (criteria : List (SearchCriteriaFiltered ρ)) : Prop :=
  ∀ c ∈ criteria, (∃ column : TextColumn, c.filterName = column.name) ∧
    ∀ param ∈ c.criteria, param.IsText

/-- A search that asks for a text once in each column that it names. -/
structure AsksOnce (criteria : List (SearchCriteriaFiltered ρ)) : Prop where
  /-- it is a search for texts -/
  texts : ForTexts criteria
  /-- no column is named twice -/
  nodup : (criteria.map SearchCriteriaFiltered.filterName).Nodup
  /-- there is one parameter for each -/
  one : ∀ c ∈ criteria, ∃ param, c.criteria = [param]

end FilteredTracks

namespace TrackSearch

/-- What `LIKE` and `=` of SQLite make of texts. -/
structure Operators.Reads (sql : Operators ρ) (like : String → String → Bool) : Prop where
  /-- there is one `LIKE` -/
  like (text pattern : String) : sql.like (.text text) (.text pattern) = like text pattern
  /-- texts are compared as they are -/
  eq (text value : String) : sql.compare .eq (.text text) (.text value) = true ↔ text = value

end TrackSearch

namespace FilteredTracks

variable {sql : Operators ρ} {like : String → String → Bool} {db : Database ρ}
  {criteria : List (SearchCriteriaFiltered ρ)} {track : TrackInfo ρ}

/-! ## What they find -/

/-- A parameter asks both searches for the same texts. -/
theorem holds_plain_iff (hreads : sql.Reads like) {param : FilterSearchParam ρ}
    (hparam : param.IsText) {text : String} :
    param.plain.Holds sql (.text text) ↔ TextMatches like text param := by
  cases param with
  | textLike pattern caseSensitive =>
    change sql.like (.text text) (.text ("%" ++ pattern ++ "%")) = true ↔
      like text ("%" ++ pattern ++ "%") = true
    rw [hreads.like]
  | textIn values =>
    constructor
    · rintro ⟨value, hvalue, heq⟩
      rw [(hreads.eq text value).mp heq]
      exact hvalue
    · exact fun hmem => ⟨text, hmem, (hreads.eq text text).mpr rfl⟩
  | numericComparison | numericBetween | nullCheck | tagsAny | tagsAll => exact hparam.elim

/-- What a track is asked for by `get_tracks`, column by column. -/
theorem satisfies_plain_iff (hreads : sql.Reads like) (htexts : ForTexts criteria) :
    TrackSearch.Satisfies sql (plain criteria) track ↔ ∀ column : TextColumn, ∀ param,
      Given criteria column.name param → TextMatches like (column.read track) param := by
  constructor
  · rintro h column param ⟨c, hc, hname, hparam⟩
    obtain ⟨column', hname', hholds⟩ := h c.plain (List.mem_map_of_mem hc) param.plain
      (List.mem_map_of_mem hparam)
    have hcolumn : column' = column.plain := by
      have hcolumn' := columnOf_name column'
      rw [hname', SearchCriteriaFiltered.plain, hname, ← column.name_plain,
        columnOf_name, Option.some.injEq] at hcolumn'
      exact hcolumn'.symm
    rw [hcolumn, column.read_plain] at hholds
    exact (holds_plain_iff hreads ((htexts c hc).2 param hparam)).mp hholds
  · intro h sc hsc param' hparam'
    obtain ⟨c, hc, rfl⟩ := List.mem_map.mp hsc
    obtain ⟨param, hparam, rfl⟩ := List.mem_map.mp hparam'
    obtain ⟨⟨column, hname⟩, htext⟩ := htexts c hc
    refine ⟨column.plain, ?_, ?_⟩
    · rw [column.name_plain, SearchCriteriaFiltered.plain, hname]
    · rw [column.read_plain]
      exact (holds_plain_iff hreads (htext param hparam)).mpr
        (h column param ⟨c, hc, hname, hparam⟩)

/-- A search for texts asks for no tags. -/
theorem not_given_tags (htexts : ForTexts criteria) (param : FilterSearchParam ρ) :
    ¬ Given criteria .tags param := by
  rintro ⟨c, hc, hname, -⟩
  obtain ⟨⟨column, hname'⟩, -⟩ := htexts c hc
  exact column.name_ne_tags (hname'.symm.trans hname)

/-- **What `get_tracks` finds, `get_tracks_filtered` finds**, unless a column is named and asked
for nothing. -/
theorem passes_of_satisfies (hreads : sql.Reads like) (htexts : ForTexts criteria)
    (hasks : ∀ c ∈ criteria, c.criteria ≠ [])
    (h : TrackSearch.Satisfies sql (plain criteria) track) : Passes like db criteria track where
  text column hconstrained := by
    obtain ⟨c, hc, hname⟩ := hconstrained
    obtain ⟨param, hparam⟩ := List.exists_mem_of_ne_nil _ (hasks c hc)
    have hgiven : Given criteria column.name param := ⟨c, hc, hname, hparam⟩
    exact ⟨param, hgiven, (satisfies_plain_iff hreads htexts).mp h column param hgiven⟩
  tags param hparam := absurd hparam (not_given_tags htexts param)

/-- There is one parameter for a column that is asked for once. -/
theorem AsksOnce.eq_of_given (h : AsksOnce criteria) {name : CriteriaName}
    {param param' : FilterSearchParam ρ} (hparam : Given criteria name param)
    (hparam' : Given criteria name param') : param = param' := by
  obtain ⟨c, hc, hname, hmem⟩ := hparam
  obtain ⟨c', hc', hname', hmem'⟩ := hparam'
  obtain rfl : c = c' := List.inj_on_of_nodup_map h.nodup hc hc' (hname.trans hname'.symm)
  obtain ⟨one, hone⟩ := h.one c hc
  rw [hone, List.mem_singleton] at hmem hmem'
  exact hmem.trans hmem'.symm

/-- **Both find the same**, when each column is asked for once. -/
theorem satisfies_iff_passes (hreads : sql.Reads like) (h : AsksOnce criteria) :
    TrackSearch.Satisfies sql (plain criteria) track ↔ Passes like db criteria track := by
  constructor
  · refine passes_of_satisfies hreads h.texts fun c hc hnil => ?_
    obtain ⟨param, hone⟩ := h.one c hc
    cases hnil.symm.trans hone
  · intro hpasses
    refine (satisfies_plain_iff hreads h.texts).mpr fun column param hparam => ?_
    have ⟨c, hc, hname, _⟩ := hparam
    obtain ⟨param', hparam', hmatches⟩ := hpasses.text column ⟨c, hc, hname⟩
    rwa [h.eq_of_given hparam hparam']

/-- A search for texts is one for columns of `track_info`. -/
theorem ForTexts.forColumns (h : ForTexts criteria) : ForColumns (plain criteria) := by
  intro sc hsc
  obtain ⟨c, hc, rfl⟩ := List.mem_map.mp hsc
  obtain ⟨⟨column, hname⟩, htext⟩ := h c hc
  constructor
  · rw [SearchCriteriaFiltered.plain, hname]
    change column.name.columnName ∈ allowedColumns
    cases column <;> decide
  · rintro param' hparam'
    obtain ⟨param, hparam, rfl⟩ := List.mem_map.mp hparam'
    have hparam := htext param hparam
    cases param with
    | textLike | textIn => exact id
    | numericComparison | numericBetween | nullCheck | tagsAny | tagsAll => exact hparam.elim

/-- Its columns are not `tags`. -/
theorem ForTexts.columnName_ne_tags (h : ForTexts criteria) :
    ∀ sc ∈ plain criteria, sc.columnName ≠ "tags" := by
  intro sc hsc
  obtain ⟨c, hc, rfl⟩ := List.mem_map.mp hsc
  obtain ⟨⟨column, hname⟩, -⟩ := h c hc
  rw [SearchCriteriaFiltered.plain, hname]
  change column.name.columnName ≠ "tags"
  cases column <;> decide

/-- It is accepted by `get_tracks`. -/
theorem ForTexts.accepted (h : ForTexts criteria) (cursor : Option ℤ) (limit : ℤ) :
    ∃ statement, getTracks cursor (some (plain criteria)) limit = .ok statement := by
  have hcollect : ∀ sc ∈ plain criteria, sc.Accepted := by
    intro sc hsc
    rw [SearchCriteria.Accepted, if_neg (h.columnName_ne_tags sc hsc)]
    exact h.forColumns sc hsc
  obtain ⟨c, hc⟩ := (foldlM_ok_iff (c := ⟨[], [], none⟩) fun c sc => (collect_cases c sc).1).mpr
    hcollect
  exact ⟨_, by rw [getTracks, Option.getD_some, hc]; rfl⟩

/-- It is turned into a query by `get_tracks_filtered`. -/
theorem ForTexts.buildSelect (h : ForTexts criteria) :
    ∃ select, buildSelect criteria = some select := by
  refine exists_buildSelect ?_
  rintro ⟨param, hparam, -⟩
  exact not_given_tags h param hparam

/-- **The rows of both statements are the same**, in the order of the table. -/
theorem rows_plain (hreads : sql.Reads like) (h : AsksOnce criteria) {select : Select Value}
    (hselect : FilteredTracks.buildSelect criteria = some select) :
    (searchStatement (plain criteria)).rows sql db = select.rows like db := by
  refine List.filter_congr fun track htrack => Bool.eq_iff_iff.mpr ?_
  have hplain : track ∈ (searchStatement (plain criteria)).rows sql db ↔
      track ∈ db.trackInfo.rows ∧ TrackSearch.Satisfies sql (plain criteria) track :=
    TrackSearch.mem_rows_iff h.texts.forColumns
  have hfiltered : track ∈ select.rows like db ↔
      track ∈ db.trackInfo.rows ∧ Passes like db criteria track := mem_rows_iff hselect
  rw [SearchStatement.rows, List.mem_filter, and_congr_right_iff] at hplain
  rw [Select.rows, List.mem_filter, and_congr_right_iff] at hfiltered
  rw [hplain htrack, hfiltered htrack]
  exact satisfies_iff_passes hreads h

end FilteredTracks

namespace Repository

open Program

/-- **The two searches agree**: a search for texts that names no column twice finds the same
tracks on every page, whether by `get_tracks` or by `get_tracks_filtered`, if SQLite runs both
statements as they are meant and reads texts the same way in both. -/
theorem searches_agree (env : Environment ρ) (sql : Operators ρ) (db : Database ρ)
    (criteria : List (SearchCriteriaFiltered ρ)) (hasks : AsksOnce criteria)
    (hreads : sql.Reads env.like)
    (hfinds : env.Finds sql db (searchStatement (plain criteria)).slots)
    (cursor : Option ℤ) (limit : ℤ) (hfiltered : env.FindsFiltered db cursor criteria limit)
    (tracks : List (TrackRow ρ)) (s' : Session (Database ρ) SqlxError) :
    getTracks env cursor (some (plain criteria)) limit ⟨db, none, []⟩ = .ok tracks s' ↔
      getTracksFiltered env cursor (some criteria) limit ⟨db, none, []⟩ = .ok tracks s' := by
  obtain ⟨statement, haccepted⟩ := hasks.texts.accepted cursor limit
  obtain ⟨select, hselect⟩ := hasks.texts.buildSelect
  rw [getTracks_eq_ok haccepted hasks.texts.columnName_ne_tags hfinds, pageOf, Option.getD_some,
    rows_plain hreads hasks hselect, getTracksFiltered_eq (some criteria) hselect hfiltered, tryLog,
    logging_eq_ok, fetchPool_eq_ok]

/-- Two pieces by an artist. -/
def piecesByArtist : List (SearchCriteriaFiltered ℤ) :=
  [⟨.artist, [.textIn ["Chopin"]]⟩, ⟨.trackName, [.textIn ["Nocturne", "Prelude"]]⟩]

theorem asksOnce_piecesByArtist : AsksOnce piecesByArtist where
  texts c hc := by
    simp only [piecesByArtist, List.mem_cons, List.not_mem_nil, or_false] at hc
    obtain rfl | rfl := hc
    · exact ⟨⟨.artist, rfl⟩, fun param hparam => List.mem_singleton.mp hparam ▸ trivial⟩
    · exact ⟨⟨.trackName, rfl⟩, fun param hparam => List.mem_singleton.mp hparam ▸ trivial⟩
  nodup := by decide
  one c hc := by
    simp only [piecesByArtist, List.mem_cons, List.not_mem_nil, or_false] at hc
    obtain rfl | rfl := hc <;> exact ⟨_, rfl⟩

/-- An environment in which they are found by both searches. -/
def searchingPieces : Environment ℤ :=
  (searching (searchStatement (plain piecesByArtist)).slots).filtering

theorem searches_agree_piecesByArtist : AsksOnce piecesByArtist ∧
    ∀ (limit : ℤ) (tracks : List (TrackRow ℤ)) (s' : Session (Database ℤ) SqlxError),
      getTracks searchingPieces (some 2) (some (plain piecesByArtist)) limit ⟨shelf, none, []⟩ =
          .ok tracks s' ↔
        getTracksFiltered searchingPieces (some 2) (some piecesByArtist) limit ⟨shelf, none, []⟩ =
          .ok tracks s' :=
  ⟨asksOnce_piecesByArtist, fun limit => searches_agree searchingPieces plainOperators shelf
    piecesByArtist asksOnce_piecesByArtist ⟨fun _ _ => rfl, fun text value => by
      simp [plainOperators]⟩ (finds_searching _ shelf) (some 2) limit
    (Environment.finds_filtering _ _ _ _ _)⟩

end Repository

end Vamp
