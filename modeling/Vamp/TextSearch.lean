import Vamp.CriteriaSets
import Vamp.Repository
import Vamp.SqlLike

/-!
# Searching for a text

`TextLike` and `get_tags` look for a text with `LIKE`, between two `%`. The text is not escaped, so
`%` and `_` in it are wildcards; and `LIKE` does not know about `case_sensitive`, which is not read
at all. So a search is one for the text itself if and only if there are no wildcards in it, and no
letters when their case is to matter (`text_search_literal_iff`). This is about the rows that are
selected; what `get_tracks_filtered` makes of them is the page that it always returns
(`getTracksFiltered_textLike_eq_ok`).
-/

namespace Vamp

open FilteredTracks SqlLike

variable {ρ : Type}

/-- `LIKE` does what is documented. This is about texts and patterns without U+0000, where SQLite
stops reading, and about patterns of up to 50000 bytes, as it refuses longer ones. -/
def Environment.LikeIsDocumented (env : Environment ρ) : Prop :=
  ∀ text pattern, env.like text pattern = true ↔ Like pattern.toList text.toList

/-- The ways to search for a text. -/
inductive TextSearch : Type where
  /-- `TextLike`, for a column -/
  | textLike (column : TextColumn) (caseSensitive : Bool)
  /-- `get_tags` -/
  | tags
  deriving DecidableEq, Repr

/-- The case of letters is to matter. -/
def TextSearch.caseSensitive : TextSearch → Bool
  | textLike _ caseSensitive => caseSensitive
  | tags => false

namespace FilteredTracks

/-! ## A criterion that stands alone -/

/-- A parameter is all that is given for a column. -/
def Alone {φ : Type} (criteria : List (SearchCriteriaFiltered φ)) (column : TextColumn)
    (param : FilterSearchParam φ) : Prop :=
  Given criteria column.name param ∧
    ∀ param', Given criteria column.name param' → param' = param

/-- The criteria that are not for a column. -/
def others {φ : Type} (criteria : List (SearchCriteriaFiltered φ)) (column : TextColumn) :
    List (SearchCriteriaFiltered φ) :=
  criteria.filter fun c => c.filterName ≠ column.name

variable {φ : Type} {criteria : List (SearchCriteriaFiltered φ)} {column : TextColumn}
  {name : CriteriaName} {param : FilterSearchParam φ} {like : String → String → Bool}
  {db : Database ρ} {track : TrackInfo ρ}

theorem constrained_others_iff :
    Constrained (others criteria column) name ↔ Constrained criteria name ∧ name ≠ column.name := by
  simp only [Constrained, others, List.mem_filter, decide_eq_true_eq]
  constructor
  · rintro ⟨c, ⟨hc, hne⟩, rfl⟩
    exact ⟨⟨c, hc, rfl⟩, hne⟩
  · rintro ⟨⟨c, hc, rfl⟩, hne⟩
    exact ⟨c, ⟨hc, hne⟩, rfl⟩

theorem given_others_iff : Given (others criteria column) name param ↔
    Given criteria name param ∧ name ≠ column.name := by
  simp only [Given, others, List.mem_filter, decide_eq_true_eq]
  constructor
  · rintro ⟨c, ⟨hc, hne⟩, rfl, hparam⟩
    exact ⟨⟨c, hc, rfl, hparam⟩, hne⟩
  · rintro ⟨⟨c, hc, rfl, hparam⟩, hne⟩
    exact ⟨c, ⟨hc, hne⟩, rfl, hparam⟩

theorem TextColumn.name_injective {column column' : TextColumn} (h : column.name = column'.name) :
    column = column' := by
  cases column <;> cases column' <;> first | rfl | cases h

theorem TextColumn.tags_ne_name (column : TextColumn) : CriteriaName.tags ≠ column.name := by
  cases column <;> nofun

/-- A track passes if it passes the one criterion, and all the others. -/
theorem passes_alone_iff (h : Alone criteria column param) : Passes like db criteria track ↔
    TextMatches like (column.read track) param ∧ Passes like db (others criteria column) track := by
  obtain ⟨hgiven, honly⟩ := h
  constructor
  · intro hpasses
    refine ⟨?_, fun column' hconstrained => ?_, fun param' hparam' => ?_⟩
    · obtain ⟨c, hc, hname, -⟩ := hgiven
      obtain ⟨param', hgiven', hmatches⟩ := hpasses.text column ⟨c, hc, hname⟩
      exact honly param' hgiven' ▸ hmatches
    · obtain ⟨hconstrained, hne⟩ := constrained_others_iff.mp hconstrained
      obtain ⟨param', hgiven', hmatches⟩ := hpasses.text column' hconstrained
      exact ⟨param', given_others_iff.mpr ⟨hgiven', hne⟩, hmatches⟩
    · exact hpasses.tags param' (given_others_iff.mp hparam').1
  · rintro ⟨hmatches, hpasses⟩
    refine ⟨fun column' hconstrained => ?_, fun param' hparam' => ?_⟩
    · by_cases hcolumn : column' = column
      · subst hcolumn
        exact ⟨param, hgiven, hmatches⟩
      · obtain ⟨param', hgiven', hmatches'⟩ := hpasses.text column'
          (constrained_others_iff.mpr ⟨hconstrained, fun hname =>
            hcolumn (TextColumn.name_injective hname)⟩)
        exact ⟨param', (given_others_iff.mp hgiven').1, hmatches'⟩
    · exact hpasses.tags param' (given_others_iff.mpr ⟨hparam', column.tags_ne_name⟩)

end FilteredTracks

/-! ## What a search is to find -/

/-- **A row is selected exactly when its text contains the pattern**, as far as it is for this
search to decide. -/
def TextSearch.Literal (env : Environment ρ) (pattern : String) : TextSearch → Prop
  | textLike column caseSensitive =>
    ∀ (db : Database ρ) (criteria : List (SearchCriteriaFiltered ρ)),
      Alone criteria column (.textLike pattern caseSensitive) → ∀ track,
      (∃ cursor n rows, statementRows env.like db cursor (some criteria) n = some rows ∧
        track ∈ rows) ↔
      ¬AsksUnreadable criteria ∧ track ∈ db.trackInfo.rows ∧
        Contains caseSensitive (column.read track).toList pattern.toList ∧
        Passes env.like db (others criteria column) track
  | tags =>
    ∀ db : Database ρ, ∃ found, SqlPage.Ascending Tag.id found ∧
      (∀ tag, tag ∈ found ↔
        tag ∈ db.tags.rows ∧ Contains false tag.tagName.toList pattern.toList) ∧
      Repository.getTags env pattern ⟨db, none, []⟩ =
        .ok (found.map TagRow.fromRow) ⟨db, none, []⟩

variable {env : Environment ρ} {pattern : String}

/-- What is asked of `LIKE`. -/
theorem like_wrapped_iff (henv : env.LikeIsDocumented) (text : String) :
    env.like text ("%" ++ pattern ++ "%") = true ↔
      Like ('%' :: (pattern.toList ++ ['%'])) text.toList := by
  have hwrapped : ("%" ++ pattern ++ "%").toList = '%' :: (pattern.toList ++ ['%']) := by
    rw [String.toList_append, String.toList_append]
    rfl
  rw [henv, hwrapped]

/-- A pattern is found by `LIKE` exactly where it is contained. -/
def FindsContained (pattern : String) (caseSensitive : Bool) : Prop :=
  ∀ text, Like ('%' :: (pattern.toList ++ ['%'])) text ↔
    Contains caseSensitive text pattern.toList

/-! ## Tracks -/

/-- A database of one track. -/
def titled (text : String) : Database ρ :=
  { Database.empty with
    trackInfo := .single ⟨1, text, text, 0, none, none, "", .integer 0⟩ rfl }

theorem read_titled {text : String} {column : TextColumn} {track : TrackInfo ρ}
    (h : track ∈ (titled text : Database ρ).trackInfo.rows) : column.read track = text := by
  obtain rfl := List.mem_singleton.mp h
  cases column <;> rfl

/-- One criterion. -/
def oneText (column : TextColumn) (pattern : String) (caseSensitive : Bool) :
    List (SearchCriteriaFiltered ρ) :=
  [⟨column.name, [.textLike pattern caseSensitive]⟩]

theorem alone_oneText (column : TextColumn) (pattern : String) (caseSensitive : Bool) :
    Alone (oneText (ρ := ρ) column pattern caseSensitive) column
      (.textLike pattern caseSensitive) := by
  refine ⟨⟨_, List.mem_singleton_self _, rfl, List.mem_singleton_self _⟩, ?_⟩
  rintro param ⟨c, hc, -, hparam⟩
  obtain rfl := List.mem_singleton.mp hc
  exact List.mem_singleton.mp hparam

theorem not_asksUnreadable_oneText (column : TextColumn) (pattern : String) (caseSensitive : Bool) :
    ¬AsksUnreadable (oneText (ρ := ρ) column pattern caseSensitive) := by
  rintro ⟨param, ⟨c, hc, hname, -⟩, -⟩
  obtain rfl := List.mem_singleton.mp hc
  exact column.tags_ne_name hname.symm

theorem passes_others_oneText (column : TextColumn) (pattern : String) (caseSensitive : Bool)
    (like : String → String → Bool) (db : Database ρ) (track : TrackInfo ρ) :
    Passes like db (others (oneText (ρ := ρ) column pattern caseSensitive) column) track := by
  have hnone : others (oneText (ρ := ρ) column pattern caseSensitive) column = [] := by
    simp [others, oneText]
  rw [hnone]
  exact ⟨fun _ ⟨_, hc, _⟩ => absurd hc List.not_mem_nil,
    fun _ ⟨_, hc, _⟩ => absurd hc List.not_mem_nil⟩

theorem literal_textLike_iff (henv : env.LikeIsDocumented) (column : TextColumn)
    (caseSensitive : Bool) :
    (TextSearch.textLike column caseSensitive).Literal env pattern ↔
      FindsContained pattern caseSensitive := by
  have hreturned : ∀ {db : Database ρ} {criteria : List (SearchCriteriaFiltered ρ)},
      Alone criteria column (.textLike pattern caseSensitive) → ∀ {track : TrackInfo ρ},
      ((∃ cursor n rows, statementRows env.like db cursor (some criteria) n = some rows ∧
        track ∈ rows) ↔
      ¬AsksUnreadable criteria ∧ track ∈ db.trackInfo.rows ∧
        Like ('%' :: (pattern.toList ++ ['%'])) (column.read track).toList ∧
        Passes env.like db (others criteria column) track) := by
    intro db criteria halone track
    rw [exists_selected_iff, passes_alone_iff halone]
    exact and_congr_right fun _ => and_congr_right fun _ => and_congr_left fun _ =>
      like_wrapped_iff henv _
  constructor
  · intro h text
    let text' := String.ofList text
    let track : TrackInfo ρ := ⟨1, text', text', 0, none, none, "", .integer 0⟩
    have htrack : track ∈ (titled text' : Database ρ).trackInfo.rows := List.mem_singleton_self _
    have halone := alone_oneText (ρ := ρ) column pattern caseSensitive
    have hfound := h (titled text') _ halone track
    rw [hreturned halone, read_titled htrack, String.toList_ofList] at hfound
    simpa only [not_asksUnreadable_oneText, passes_others_oneText, htrack, not_false_eq_true,
      true_and, and_true] using hfound
  · intro h db criteria halone track
    rw [hreturned halone, h]

/-- **The call**, for a pattern that stands for itself: it returns the page of the tracks that
contain it, if SQLite runs the statement. -/
theorem getTracksFiltered_textLike_eq_ok (henv : env.LikeIsDocumented) {db : Database ρ}
    {cursor : Option ℤ} {criteria : List (SearchCriteriaFiltered ρ)} {limit : ℤ}
    {column : TextColumn} {caseSensitive : Bool}
    (halone : Alone criteria column (.textLike pattern caseSensitive))
    (hplain : Plain pattern.toList) (hcase : caseSensitive = true → Caseless pattern.toList)
    (hfinds : env.FindsFiltered db cursor criteria limit) {tracks : List (TrackRow ρ)}
    {s' : Session (Database ρ) SqlxError} :
    Repository.getTracksFiltered env cursor (some criteria) limit ⟨db, none, []⟩ = .ok tracks s' ↔
      ¬AsksUnreadable criteria ∧
        Repository.ReadFromPage (fun row => row ∈ db.trackInfo.rows ∧
          Contains caseSensitive (column.read row).toList pattern.toList ∧
          Passes env.like db (others criteria column) row) cursor limit tracks ∧
        ⟨db, none, []⟩ = s' := by
  have hfound : ∀ row, Passes env.like db criteria row ↔
      Contains caseSensitive (column.read row).toList pattern.toList ∧
        Passes env.like db (others criteria column) row := by
    intro row
    rw [passes_alone_iff halone]
    refine and_congr_left fun _ => (like_wrapped_iff henv _).trans ?_
    exact (like_between_contains_iff caseSensitive _).mpr ⟨hplain, hcase⟩ _
  simp only [Repository.getTracksFiltered_eq_ok (some criteria) hfinds, Option.getD_some, hfound]

/-! ## Tags -/

/-- A database of one tag. -/
def tagNamed (name : String) : Database ρ :=
  { Database.empty with
    tags := .single ⟨1, name⟩ rfl }

/-- What `get_tags` finds. -/
theorem getTags_eq (db : Database ρ) : Repository.getTags env pattern ⟨db, none, []⟩ =
    .ok ((db.selectTags fun tag => env.like tag.tagName ("%" ++ pattern ++ "%")).map TagRow.fromRow)
      ⟨db, none, []⟩ := rfl

theorem literal_tags_iff (henv : env.LikeIsDocumented) :
    TextSearch.tags.Literal env pattern ↔ FindsContained pattern false := by
  have hmem : ∀ {db : Database ρ} {tag : Tag},
      tag ∈ db.selectTags (fun tag => env.like tag.tagName ("%" ++ pattern ++ "%")) ↔
        tag ∈ db.tags.rows ∧ Like ('%' :: (pattern.toList ++ ['%'])) tag.tagName.toList := by
    intro db tag
    rw [Database.selectTags, (SqlPage.orderAsc_perm _).mem_iff, List.mem_filter,
      like_wrapped_iff henv]
  constructor
  · intro h text
    let tag : Tag := ⟨1, String.ofList text⟩
    obtain ⟨found, -, hfound, hrun⟩ := h (tagNamed (String.ofList text))
    rw [getTags_eq] at hrun
    obtain ⟨hrows, -⟩ := EStateM.Result.ok.inj hrun
    have htag : tag ∈ (tagNamed tag.tagName : Database ρ).tags.rows := List.mem_singleton_self _
    -- what is returned has the names of what is found
    have hnames := congrArg (List.map TagRow.tagName) hrows
    rw [List.map_map, List.map_map] at hnames
    have htext : tag.tagName.toList = text := String.toList_ofList
    rw [← htext]
    constructor
    · intro hlike
      have hname := List.mem_map_of_mem (f := TagRow.tagName ∘ TagRow.fromRow)
        (hmem.mpr ⟨htag, hlike⟩)
      rw [hnames] at hname
      obtain ⟨tag', htag', hsame⟩ := List.mem_map.mp hname
      have hcontains := ((hfound tag').mp htag').2
      rwa [show tag'.tagName = tag.tagName from hsame] at hcontains
    · intro hcontains
      have hname := List.mem_map_of_mem (f := TagRow.tagName ∘ TagRow.fromRow)
        ((hfound tag).mpr ⟨htag, hcontains⟩)
      rw [← hnames] at hname
      obtain ⟨tag', htag', hsame⟩ := List.mem_map.mp hname
      have hlike := (hmem.mp htag').2
      rwa [show tag'.tagName = tag.tagName from hsame] at hlike
  · intro h db
    refine ⟨_, SqlPage.ascending_orderAsc (SqlPage.nodup_filter db.tags.nodup _), fun tag => ?_,
      getTags_eq db⟩
    exact hmem.trans (and_congr_right fun _ => h _)

/-! ## Exactly when it works -/

/-- **When a search for a text is one for the text itself**: it has no wildcards, and no letters if
their case is to matter. -/
theorem text_search_literal_iff (env : Environment ρ) (henv : env.LikeIsDocumented)
    (search : TextSearch) (pattern : String) : search.Literal env pattern ↔
      Plain pattern.toList ∧ (search.caseSensitive = true → Caseless pattern.toList) := by
  rw [← like_between_contains_iff]
  cases search with
  | textLike column caseSensitive => exact literal_textLike_iff henv column caseSensitive
  | tags => exact literal_tags_iff henv

/-- SQLite, as far as `LIKE` is concerned. -/
def likeEnvironment : Environment ℤ := { plainEnvironment with like := SqlLike.like }

theorem likeEnvironment_documented : likeEnvironment.LikeIsDocumented := SqlLike.like_iff

theorem text_search_literal_iff_nocturne :
    (TextSearch.textLike .trackName false).Literal likeEnvironment "Nocturne" ↔
      Plain "Nocturne".toList ∧ (false = true → Caseless "Nocturne".toList) :=
  text_search_literal_iff likeEnvironment likeEnvironment_documented (.textLike .trackName false)
    "Nocturne"

/-- A search for an underscore finds all tags. -/
theorem not_literal_underscore :
    ¬∀ (env : Environment ℤ), env.LikeIsDocumented → ∀ (search : TextSearch) (pattern : String),
      search.Literal env pattern := by
  intro h
  have hfinds : FindsContained "_" false :=
    (literal_tags_iff likeEnvironment_documented).mp
      (h likeEnvironment likeEnvironment_documented .tags "_")
  have hcontains : Contains false "slow".toList "_".toList :=
    (hfinds _).mp (matchList_iff.mp (by decide))
  exact absurd hcontains (by decide)

end Vamp
