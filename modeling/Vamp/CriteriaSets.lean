import Vamp.DroppedFilters

/-!
# Are criteria sets?

Criteria can be rearranged in many ways that should not matter: the list of criteria and the lists
inside of its parameters can be permuted, what is in them can be repeated, and criteria for one
column can be merged or split (`Rearranged`). What is asked for stays the same (`matches_iff`), and
so does what is returned, but for one thing: the query for all of the tags compares the number of
different tags that a track has with the length of the list. A tag that is listed twice makes that
impossible (`passes_iff`), and whatever was found before is lost (`criteria_are_sets_iff`).

All of this is about statements that SQLite runs: values that are repeated can be too many for it.
-/

namespace Vamp

namespace FilteredTracks

variable {ρ φ : Type}

/-! ## Rearranging -/

/-- The same elements, in any order, and any number of times. -/
def SameElements {α : Type} (xs ys : List α) : Prop := ∀ x, x ∈ xs ↔ x ∈ ys

/-- Two parameters, of which one is the other with its list rearranged. -/
inductive FilterSearchParam.SameSet : FilterSearchParam φ → FilterSearchParam φ → Prop
  | refl (param : FilterSearchParam φ) : SameSet param param
  | textIn {values values' : List String} (h : SameElements values values') :
    SameSet (.textIn values) (.textIn values')
  | tagsAny {tagIds tagIds' : List BigintId} (h : SameElements tagIds tagIds') :
    SameSet (.tagsAny tagIds) (.tagsAny tagIds')
  | tagsAll {tagIds tagIds' : List BigintId} (h : SameElements tagIds tagIds') :
    SameSet (.tagsAll tagIds) (.tagsAll tagIds')

/-- Criteria that are rearranged. -/
inductive Rearranged : List (SearchCriteriaFiltered φ) → List (SearchCriteriaFiltered φ) → Prop
  /-- the criteria are permuted -/
  | perm {criteria criteria' : List (SearchCriteriaFiltered φ)} (h : criteria.Perm criteria') :
    Rearranged criteria criteria'
  /-- one of the criteria is repeated -/
  | again (c : SearchCriteriaFiltered φ) (criteria : List (SearchCriteriaFiltered φ)) :
    Rearranged (c :: criteria) (c :: c :: criteria)
  /-- the parameters for a column are permuted and repeated -/
  | params (name : CriteriaName) {params params' : List (FilterSearchParam φ)}
    (h : SameElements params params') (criteria : List (SearchCriteriaFiltered φ)) :
    Rearranged (⟨name, params⟩ :: criteria) (⟨name, params'⟩ :: criteria)
  /-- what a parameter lists is permuted and repeated -/
  | values (name : CriteriaName) {param param' : FilterSearchParam φ} (h : param.SameSet param')
    (params : List (FilterSearchParam φ)) (criteria : List (SearchCriteriaFiltered φ)) :
    Rearranged (⟨name, param :: params⟩ :: criteria) (⟨name, param' :: params⟩ :: criteria)
  /-- criteria for one column are merged -/
  | merge (name : CriteriaName) (params params' : List (FilterSearchParam φ))
    (criteria : List (SearchCriteriaFiltered φ)) :
    Rearranged (⟨name, params⟩ :: ⟨name, params'⟩ :: criteria)
      (⟨name, params ++ params'⟩ :: criteria)
  /-- and all of this can be undone, -/
  | symm {criteria criteria' : List (SearchCriteriaFiltered φ)}
    (h : Rearranged criteria criteria') : Rearranged criteria' criteria
  /-- one step after the other -/
  | trans {criteria criteria' criteria'' : List (SearchCriteriaFiltered φ)}
    (h : Rearranged criteria criteria') (h' : Rearranged criteria' criteria'') :
    Rearranged criteria criteria''

theorem FilterSearchParam.SameSet.symm {param param' : FilterSearchParam φ}
    (h : param.SameSet param') : param'.SameSet param := by
  cases h with
  | refl => exact .refl param
  | textIn h => exact .textIn fun x => (h x).symm
  | tagsAny h => exact .tagsAny fun x => (h x).symm
  | tagsAll h => exact .tagsAll fun x => (h x).symm

theorem SameElements.trans {α : Type} {xs ys zs : List α} (h : SameElements xs ys)
    (h' : SameElements ys zs) : SameElements xs zs := fun x => (h x).trans (h' x)

theorem FilterSearchParam.SameSet.trans {param param' param'' : FilterSearchParam φ}
    (h : param.SameSet param') (h' : param'.SameSet param'') : param.SameSet param'' := by
  cases h with
  | refl => exact h'
  | textIn h =>
    cases h' with
    | refl => exact .textIn h
    | textIn h' => exact .textIn (h.trans h')
  | tagsAny h =>
    cases h' with
    | refl => exact .tagsAny h
    | tagsAny h' => exact .tagsAny (h.trans h')
  | tagsAll h =>
    cases h' with
    | refl => exact .tagsAll h
    | tagsAll h' => exact .tagsAll (h.trans h')

/-! ## What is asked for -/

/-- All that some criteria ask for is asked for by others. -/
structure Includes (criteria criteria' : List (SearchCriteriaFiltered φ)) : Prop where
  /-- the columns -/
  constrained {name : CriteriaName} (h : Constrained criteria name) : Constrained criteria' name
  /-- and the parameters -/
  given {name : CriteriaName} {param : FilterSearchParam φ} (h : Given criteria name param) :
    ∃ param', param.SameSet param' ∧ Given criteria' name param'

theorem Includes.trans {criteria criteria' criteria'' : List (SearchCriteriaFiltered φ)}
    (h : Includes criteria criteria') (h' : Includes criteria' criteria'') :
    Includes criteria criteria'' where
  constrained hname := h'.constrained (h.constrained hname)
  given hgiven := by
    obtain ⟨param', hsame, hgiven'⟩ := h.given hgiven
    obtain ⟨param'', hsame', hgiven''⟩ := h'.given hgiven'
    exact ⟨param'', hsame.trans hsame', hgiven''⟩

/-- Criteria that have others among them. -/
theorem includes_of_subset {criteria criteria' : List (SearchCriteriaFiltered φ)}
    (h : criteria ⊆ criteria') : Includes criteria criteria' where
  constrained := fun ⟨c, hc, hname⟩ => ⟨c, h hc, hname⟩
  given := fun {_ param} ⟨c, hc, hname, hparam⟩ => ⟨param, .refl param, c, h hc, hname, hparam⟩

/-- The first ones are replaced, for the same name. -/
theorem includes_of_heads {heads heads' criteria : List (SearchCriteriaFiltered φ)}
    (h : Includes heads heads') : Includes (heads ++ criteria) (heads' ++ criteria) where
  constrained := by
    rintro name ⟨c, hc, hname⟩
    rcases List.mem_append.mp hc with hc | hc
    · obtain ⟨c', hc', hname'⟩ := h.constrained ⟨c, hc, hname⟩
      exact ⟨c', List.mem_append_left _ hc', hname'⟩
    · exact ⟨c, List.mem_append_right _ hc, hname⟩
  given := by
    rintro name param ⟨c, hc, hname, hparam⟩
    rcases List.mem_append.mp hc with hc | hc
    · obtain ⟨param', hsame, c', hc', hgiven⟩ := h.given ⟨c, hc, hname, hparam⟩
      exact ⟨param', hsame, c', List.mem_append_left _ hc', hgiven⟩
    · exact ⟨param, .refl param, c, List.mem_append_right _ hc, hname, hparam⟩

/-- The parameters of one of the criteria are replaced. -/
theorem includes_of_params {name : CriteriaName} {params params' : List (FilterSearchParam φ)}
    (h : ∀ param ∈ params, ∃ param' ∈ params', param.SameSet param')
    (criteria : List (SearchCriteriaFiltered φ)) :
    Includes (⟨name, params⟩ :: criteria) (⟨name, params'⟩ :: criteria) := by
  have hhead : Includes [⟨name, params⟩] [⟨name, params'⟩] := by
    constructor
    · rintro name' ⟨c, hc, hname⟩
      obtain rfl := List.mem_singleton.mp hc
      exact ⟨_, List.mem_singleton_self _, hname⟩
    · rintro name' param ⟨c, hc, hname, hparam⟩
      obtain rfl := List.mem_singleton.mp hc
      obtain ⟨param', hparam', hsame⟩ := h param hparam
      exact ⟨param', hsame, _, List.mem_singleton_self _, hname, hparam'⟩
  exact includes_of_heads hhead

/-- Criteria are merged. -/
theorem includes_merged (name : CriteriaName) (params params' : List (FilterSearchParam φ)) :
    Includes [⟨name, params⟩, ⟨name, params'⟩] [⟨name, params ++ params'⟩] where
  constrained := by
    rintro name' ⟨c, hc, hname⟩
    refine ⟨_, List.mem_singleton_self _, ?_⟩
    rcases List.mem_pair.mp hc with rfl | rfl <;> exact hname
  given := by
    rintro name' param ⟨c, hc, hname, hparam⟩
    refine ⟨param, .refl param, _, List.mem_singleton_self _, ?_⟩
    rcases List.mem_pair.mp hc with rfl | rfl
    · exact ⟨hname, List.mem_append_left _ hparam⟩
    · exact ⟨hname, List.mem_append_right _ hparam⟩

/-- Criteria are split. -/
theorem includes_split (name : CriteriaName) (params params' : List (FilterSearchParam φ)) :
    Includes [⟨name, params ++ params'⟩] [⟨name, params⟩, ⟨name, params'⟩] where
  constrained := by
    rintro name' ⟨c, hc, hname⟩
    obtain rfl := List.mem_singleton.mp hc
    exact ⟨_, List.mem_cons_self .., hname⟩
  given := by
    rintro name' param ⟨c, hc, hname, hparam⟩
    obtain rfl := List.mem_singleton.mp hc
    rcases List.mem_append.mp hparam with hparam | hparam
    · exact ⟨param, .refl param, _, List.mem_cons_self .., hname, hparam⟩
    · refine ⟨param, .refl param, _, List.mem_cons_of_mem _ (List.mem_singleton_self _), ?_⟩
      exact ⟨hname, hparam⟩

/-- **Rearranging changes nothing about what is asked for.** -/
theorem Rearranged.includes {criteria criteria' : List (SearchCriteriaFiltered φ)}
    (h : Rearranged criteria criteria') :
    Includes criteria criteria' ∧ Includes criteria' criteria := by
  induction h with
  | perm h => exact ⟨includes_of_subset h.subset, includes_of_subset h.symm.subset⟩
  | again c criteria =>
    refine ⟨includes_of_subset (List.subset_cons_self c _), includes_of_subset ?_⟩
    exact List.cons_subset.mpr ⟨List.mem_cons_self .., List.Subset.refl _⟩
  | params name h criteria =>
    exact ⟨includes_of_params (fun param hparam => ⟨param, (h param).mp hparam, .refl param⟩) _,
      includes_of_params (fun param hparam => ⟨param, (h param).mpr hparam, .refl param⟩) _⟩
  | values name h params criteria =>
    have hhead : ∀ param param' : FilterSearchParam φ, param.SameSet param' →
        ∀ p ∈ param :: params, ∃ p' ∈ param' :: params, p.SameSet p' := by
      intro param param' h p hp
      rcases List.mem_cons.mp hp with rfl | hp
      · exact ⟨param', List.mem_cons_self .., h⟩
      · exact ⟨p, List.mem_cons_of_mem _ hp, .refl p⟩
    exact ⟨includes_of_params (hhead _ _ h) _, includes_of_params (hhead _ _ h.symm) _⟩
  | merge name params params' criteria =>
    exact ⟨includes_of_heads (includes_merged name params params'),
      includes_of_heads (includes_split name params params')⟩
  | symm _ ih => exact ⟨ih.2, ih.1⟩
  | trans _ _ ih ih' => exact ⟨ih.1.trans ih'.1, ih'.2.trans ih.2⟩

/-! ## What matches -/

variable {like : String → String → Bool} {db : Database ρ} {track : TrackInfo ρ}
  {criteria criteria' : List (SearchCriteriaFiltered φ)} {param param' : FilterSearchParam φ}

theorem FilterSearchParam.SameSet.textMatches {text : String} (h : param.SameSet param')
    (hmatches : TextMatches like text param) : TextMatches like text param' := by
  cases h with
  | refl => exact hmatches
  | textIn h => exact (h text).mp hmatches
  | tagsAny | tagsAll => exact hmatches.elim

theorem FilterSearchParam.SameSet.tagsMatch (h : param.SameSet param')
    (hmatches : TagsMatch db track param) : TagsMatch db track param' := by
  cases h with
  | refl => exact hmatches
  | textIn => trivial
  | tagsAny h =>
    rcases hmatches with rfl | ⟨tagId, htagId, hcarries⟩
    · exact .inl (List.eq_nil_iff_forall_not_mem.mpr fun tagId htagId =>
        List.not_mem_nil ((h tagId).mpr htagId))
    · exact .inr ⟨tagId, (h tagId).mp htagId, hcarries⟩
  | tagsAll h => exact fun tagId htagId => hmatches tagId ((h tagId).mpr htagId)

/-- Criteria that ask for the same match the same. -/
theorem Includes.matches (h : Includes criteria criteria') (h' : Includes criteria' criteria)
    (hmatches : Matches like db criteria track) : Matches like db criteria' track where
  text column hconstrained := by
    obtain ⟨param, hgiven, htext⟩ := hmatches.text column (h'.constrained hconstrained)
    obtain ⟨param', hsame, hgiven'⟩ := h.given hgiven
    exact ⟨param', hgiven', hsame.textMatches htext⟩
  tags param hgiven := by
    obtain ⟨param', hsame, hgiven'⟩ := h'.given hgiven
    exact hsame.symm.tagsMatch (hmatches.tags param' hgiven')

theorem matches_iff (h : Rearranged criteria criteria') :
    Matches like db criteria track ↔ Matches like db criteria' track :=
  ⟨h.includes.1.matches h.includes.2, h.includes.2.matches h.includes.1⟩

theorem Includes.asksUnreadable (h : Includes criteria criteria')
    (hunreadable : AsksUnreadable criteria) : AsksUnreadable criteria' := by
  obtain ⟨param, hgiven, id, hid, hunreadable⟩ := hunreadable
  obtain ⟨param', hsame, hgiven'⟩ := h.given hgiven
  refine ⟨param', hgiven', id, ?_, hunreadable⟩
  cases hsame with
  | refl => exact hid
  | textIn => exact absurd hid List.not_mem_nil
  | tagsAny h => exact (h id).mp hid
  | tagsAll h => exact (h id).mp hid

theorem asksUnreadable_iff (h : Rearranged criteria criteria') :
    AsksUnreadable criteria ↔ AsksUnreadable criteria' :=
  ⟨h.includes.1.asksUnreadable, h.includes.2.asksUnreadable⟩

/-! ## What passes -/

/-- A list of all of the tags contains a tag twice. -/
def RepeatsTag (criteria : List (SearchCriteriaFiltered φ)) : Prop :=
  ∃ tagIds, Given criteria .tags (.tagsAll tagIds) ∧ ¬(tagIds.map BigintId.toI64).Nodup

/-- **What passes** is what matches, and nothing at all if a tag is listed twice. -/
theorem passes_iff : Passes like db criteria track ↔
    Matches like db criteria track ∧ ¬RepeatsTag criteria := by
  constructor
  · intro hpasses
    refine ⟨⟨hpasses.text, fun param hgiven => ?_⟩, ?_⟩
    · have htags := hpasses.tags param hgiven
      cases param with
      | tagsAny tagIds => exact htags
      | tagsAll tagIds => exact htags.2
      | textLike | textIn | numericComparison | numericBetween | nullCheck => trivial
    · rintro ⟨tagIds, hgiven, hrepeats⟩
      exact hrepeats (hpasses.tags _ hgiven).1
  · rintro ⟨hmatches, hnodup⟩
    refine ⟨hmatches.text, fun param hgiven => ?_⟩
    have htags := hmatches.tags param hgiven
    cases param with
    | tagsAny tagIds => exact htags
    | tagsAll tagIds =>
      exact ⟨not_not.mp fun hrepeats => hnodup ⟨tagIds, hgiven, hrepeats⟩, htags⟩
    | textLike | textIn | numericComparison | numericBetween | nullCheck => trivial

/-! ## Two searches -/

section Searches

variable {env : Environment ρ} {db : Database ρ} {cursor : Option ℤ} {limit : ℤ}
  {criteria criteria' : List (SearchCriteriaFiltered ρ)}

/-- What is returned is the page of what is asked for, if it can be read. In particular, a list of
all of the tags returns the tracks that carry every tag in it. -/
def ReturnsMatching (env : Environment ρ) (db : Database ρ) (cursor : Option ℤ)
    (criteria : List (SearchCriteriaFiltered ρ)) (limit : ℤ) : Prop :=
  ∀ tracks s',
    Repository.getTracksFiltered env cursor (some criteria) limit ⟨db, none, []⟩ = .ok tracks s' ↔
      ¬AsksUnreadable criteria ∧
        Repository.ReadFromPage (fun row => row ∈ db.trackInfo.rows ∧
          Matches env.like db criteria row) cursor limit tracks ∧
        ⟨db, none, []⟩ = s'

/-- **Criteria are sets**: the one search is as good as the other. -/
structure AreSets (env : Environment ρ) (db : Database ρ) (cursor : Option ℤ)
    (criteria criteria' : List (SearchCriteriaFiltered ρ)) (limit : ℤ) : Prop where
  /-- their outcomes are the same, be they results or failures, -/
  unchanged :
    Repository.getTracksFiltered env cursor (some criteria) limit ⟨db, none, []⟩ =
      Repository.getTracksFiltered env cursor (some criteria') limit ⟨db, none, []⟩
  /-- and they are what is asked for, -/
  returns : ReturnsMatching env db cursor criteria limit
  /-- by either of them -/
  returns' : ReturnsMatching env db cursor criteria' limit

/-- Calls that panic together, and have the same page, have the same outcome. -/
theorem getTracksFiltered_congr (hunreadable : AsksUnreadable criteria ↔ AsksUnreadable criteria')
    (hfinds : env.FindsFiltered db cursor criteria limit)
    (hfinds' : env.FindsFiltered db cursor criteria' limit)
    (hpages : ¬AsksUnreadable criteria → ∀ rows rows',
      SqlPage.IsPage TrackInfo.id (fun row => row ∈ db.trackInfo.rows ∧
        Passes env.like db criteria row) (cursor.getD 0) limit rows →
      SqlPage.IsPage TrackInfo.id (fun row => row ∈ db.trackInfo.rows ∧
        Passes env.like db criteria' row) (cursor.getD 0) limit rows' → rows = rows') :
    Repository.getTracksFiltered env cursor (some criteria) limit ⟨db, none, []⟩ =
      Repository.getTracksFiltered env cursor (some criteria') limit ⟨db, none, []⟩ := by
  by_cases hpanics : AsksUnreadable criteria
  · rw [Repository.getTracksFiltered_eq_panic (some criteria) hpanics,
      Repository.getTracksFiltered_eq_panic (some criteria') (hunreadable.mp hpanics)]
  · obtain ⟨select, hselect⟩ := exists_buildSelect hpanics
    obtain ⟨select', hselect'⟩ := exists_buildSelect (mt hunreadable.mpr hpanics)
    have hpage := hpages hpanics _ _
      (Repository.isPage_of_select env.like db hselect (cursor.getD 0) limit)
      (Repository.isPage_of_select env.like db hselect' (cursor.getD 0) limit)
    rw [Repository.getTracksFiltered_eq (some criteria) hselect hfinds,
      Repository.getTracksFiltered_eq (some criteria') hselect' hfinds', hpage]

open Classical in
/-- The tracks that match have a page. -/
theorem exists_isPage_matching (like : String → String → Bool) (db : Database ρ)
    (criteria : List (SearchCriteriaFiltered ρ)) (cursor limit : ℤ) :
    ∃ rows, SqlPage.IsPage TrackInfo.id
      (fun row => row ∈ db.trackInfo.rows ∧ Matches like db criteria row) cursor limit rows := by
  have hmem : (fun row => row ∈ db.trackInfo.rows ∧ Matches like db criteria row) =
      (· ∈ db.trackInfo.rows.filter fun row => Matches like db criteria row) := by
    funext row
    rw [List.mem_filter, decide_eq_true_eq]
  rw [hmem]
  exact ⟨_, SqlPage.isPage_page (SqlPage.nodup_filter db.trackInfo.nodup _) cursor limit⟩

/-- A search returns what is asked for unless a tag that is listed twice hides it. -/
theorem returnsMatching_iff (hfinds : env.FindsFiltered db cursor criteria limit) :
    ReturnsMatching env db cursor criteria limit ↔
      ¬RepeatsTag criteria ∨ AsksUnreadable criteria ∨ limit = 0 ∨
        ∀ track ∈ db.trackInfo.rows, ¬Matches env.like db criteria track := by
  have hreturned : ∀ {tracks s'},
      Repository.getTracksFiltered env cursor (some criteria) limit ⟨db, none, []⟩ =
        .ok tracks s' ↔ _ := Repository.getTracksFiltered_eq_ok (some criteria) hfinds
  by_cases hpanics : AsksUnreadable criteria
  · refine iff_of_true (fun tracks s' => ?_) (.inr (.inl hpanics))
    rw [hreturned]
    exact iff_of_false (fun h => h.1 hpanics) (fun h => h.1 hpanics)
  by_cases hrepeats : RepeatsTag criteria
  · -- nothing passes, so nothing may be on the page
    obtain ⟨rows, hrows⟩ := exists_isPage_matching env.like db criteria (cursor.getD 0) limit
    obtain ⟨select, hselect⟩ := exists_buildSelect hpanics
    have hnothing := Repository.isPage_of_select env.like db hselect (cursor.getD 0) limit
    rw [hnothing.eq_nil_iff.mpr (.inr fun row hrow => (passes_iff.mp hrow.2).2 hrepeats)]
      at hnothing
    rw [or_iff_right (not_not.mpr hrepeats), or_iff_right hpanics]
    have hempty : (limit = 0 ∨ ∀ track ∈ db.trackInfo.rows, ¬Matches env.like db criteria track) ↔
        rows = [] := by
      simp only [hrows.eq_nil_iff, not_and]
    rw [hempty]
    constructor
    · intro h
      have hcall := hreturned.mpr
        ⟨hpanics, (Repository.readFromPage_iff hnothing).mpr .nil, rfl⟩
      obtain ⟨-, hread, -⟩ := (h _ _).mp hcall
      exact List.forall₂_nil_right_iff.mp ((Repository.readFromPage_iff hrows).mp hread)
    · rintro rfl tracks s'
      rw [hreturned, Repository.readFromPage_iff hrows]
      exact and_congr_right fun _ => and_congr_left fun _ => Repository.readFromPage_iff hnothing
  · refine iff_of_true (fun tracks s' => ?_) (.inl hrepeats)
    rw [hreturned]
    simp only [Option.getD_some, passes_iff, hrepeats, not_false_eq_true, and_true]

/-- **When criteria are sets**: neither of the searches lists a tag twice in a list of all of the
tags; or both panic, or there is nothing to be found. -/
theorem criteria_are_sets_iff (env : Environment ρ) (db : Database ρ) (cursor : Option ℤ)
    {criteria criteria' : List (SearchCriteriaFiltered ρ)} (limit : ℤ)
    (h : Rearranged criteria criteria') (hfinds : env.FindsFiltered db cursor criteria limit)
    (hfinds' : env.FindsFiltered db cursor criteria' limit) :
    AreSets env db cursor criteria criteria' limit ↔
      (¬RepeatsTag criteria ∧ ¬RepeatsTag criteria') ∨ AsksUnreadable criteria ∨ limit = 0 ∨
        ∀ track ∈ db.trackInfo.rows, ¬Matches env.like db criteria track := by
  have hmatching : ReturnsMatching env db cursor criteria' limit ↔
      ¬RepeatsTag criteria' ∨ AsksUnreadable criteria ∨ limit = 0 ∨
        ∀ track ∈ db.trackInfo.rows, ¬Matches env.like db criteria track := by
    rw [returnsMatching_iff hfinds', asksUnreadable_iff h]
    simp only [matches_iff h]
  constructor
  · intro hsets
    rw [and_or_right]
    exact ⟨(returnsMatching_iff hfinds).mp hsets.returns, hmatching.mp hsets.returns'⟩
  · intro hcondition
    obtain ⟨hnodup, hnodup'⟩ := and_or_right.mp hcondition
    refine ⟨?_, (returnsMatching_iff hfinds).mpr hnodup, hmatching.mpr hnodup'⟩
    refine getTracksFiltered_congr (asksUnreadable_iff h) hfinds hfinds' ?_
    intro hreadable rows rows' hrows hrows'
    rcases hcondition with ⟨hnodup, hnodup'⟩ | hpanics | hlimit | hnone
    · have hsame : (fun row => row ∈ db.trackInfo.rows ∧ Passes env.like db criteria row) =
          fun row => row ∈ db.trackInfo.rows ∧ Passes env.like db criteria' row := by
        funext row
        simp only [passes_iff, hnodup, hnodup', matches_iff h]
      rw [hsame] at hrows
      exact hrows.unique hrows'
    · exact absurd hpanics hreadable
    · rw [hrows.eq_nil_iff.mpr (.inl hlimit), hrows'.eq_nil_iff.mpr (.inl hlimit)]
    · have hnothing : ∀ row, ¬(row ∈ db.trackInfo.rows ∧ Passes env.like db criteria row) :=
        fun row hrow => hnone row hrow.1 (passes_iff.mp hrow.2).1
      have hnothing' : ∀ row, ¬(row ∈ db.trackInfo.rows ∧ Passes env.like db criteria' row) :=
        fun row hrow => hnone row hrow.1 ((matches_iff h).mpr (passes_iff.mp hrow.2).1)
      rw [hrows.eq_nil_iff.mpr (.inr hnothing), hrows'.eq_nil_iff.mpr (.inr hnothing')]

end Searches

/-! ## A tag that is listed twice -/

/-- Tracks with a tag. -/
def tagged : List (SearchCriteriaFiltered φ) := [⟨.tags, [.tagsAll [⟨"2"⟩]]⟩]

/-- The same. -/
def taggedTwice : List (SearchCriteriaFiltered φ) := [⟨.tags, [.tagsAll [⟨"2"⟩, ⟨"2"⟩]]⟩]

theorem rearranged_tagged : Rearranged (φ := φ) tagged taggedTwice := by
  refine .values .tags (.tagsAll fun x => ?_) [] []
  simp

theorem criteria_are_sets_iff_tagged :
    AreSets plainEnvironment.filtering Repository.taggedTrack none tagged taggedTwice 50 ↔
      (¬RepeatsTag (tagged (φ := ℤ)) ∧ ¬RepeatsTag (taggedTwice (φ := ℤ))) ∨
        AsksUnreadable (tagged (φ := ℤ)) ∨ (50 : ℤ) = 0 ∨
        ∀ track ∈ Repository.taggedTrack.trackInfo.rows,
          ¬Matches plainEnvironment.like Repository.taggedTrack (tagged (φ := ℤ)) track :=
  criteria_are_sets_iff plainEnvironment.filtering Repository.taggedTrack none 50 rearranged_tagged
    (plainEnvironment.finds_filtering _ _ _ _) (plainEnvironment.finds_filtering _ _ _ _)

/-- The track with the tag is found no more. -/
theorem not_areSets_taggedTwice :
    ¬∀ (env : Environment ℤ) (db : Database ℤ) (cursor : Option ℤ)
      (criteria criteria' : List (SearchCriteriaFiltered ℤ)) (limit : ℤ),
      Rearranged criteria criteria' → env.FindsFiltered db cursor criteria limit →
      env.FindsFiltered db cursor criteria' limit →
      AreSets env db cursor criteria criteria' limit := by
  intro h
  have hfinds' := plainEnvironment.finds_filtering Repository.taggedTrack none taggedTwice 50
  have hsets := h plainEnvironment.filtering Repository.taggedTrack none tagged taggedTwice 50
    rearranged_tagged (plainEnvironment.finds_filtering _ _ _ _) hfinds'
  have hgiven : ∀ {name param}, Given (taggedTwice (φ := ℤ)) name param →
      name = .tags ∧ param = .tagsAll [⟨"2"⟩, ⟨"2"⟩] := by
    rintro name param ⟨c, hc, hname, hparam⟩
    obtain rfl := List.mem_singleton.mp hc
    exact ⟨hname.symm, List.mem_singleton.mp hparam⟩
  rcases (returnsMatching_iff hfinds').mp hsets.returns' with
    hnodup | ⟨param, hparam, id, hid, hnone⟩ | hlimit | hnone
  · refine hnodup ⟨_, ⟨_, List.mem_singleton_self _, rfl, List.mem_singleton_self _⟩, ?_⟩
    decide
  · obtain ⟨-, rfl⟩ := hgiven hparam
    rcases List.mem_pair.mp hid with rfl | rfl <;> exact absurd hnone (by decide)
  · cases hlimit
  · refine hnone ⟨1, "Chopin", "Nocturne", 270, none, none, "2024", .integer 0⟩
      (List.mem_singleton_self _) ⟨?_, fun param hparam => ?_⟩
    · rintro column ⟨c, hc, hname⟩
      obtain rfl := List.mem_singleton.mp hc
      cases column <;> cases hname
    · obtain ⟨-, rfl⟩ := hgiven hparam
      intro tagId htagId
      refine ⟨⟨1, 1, 2⟩, List.mem_cons_self .., rfl, ?_⟩
      rcases List.mem_pair.mp htagId with rfl | rfl <;> decide

end FilteredTracks

end Vamp
