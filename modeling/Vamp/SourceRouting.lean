import Mathlib.Data.List.DropRight
import Vamp.FixedPattern

/-!
# Which player a source is for

`getTrackSource` classifies what the user enters as the source of a track: patterns for videos of
YouTube are tried first, then it is parsed as a URL, and everything else is a file.

The patterns look at the whole text, so they are found in texts of any kind: `v=` in the query of
every URL and in names of files, and the first eleven characters of something longer. The exact
condition for a source to be routed right is about the first match (`routesRight_iff`). What was
classified is always classified the same way again (`getTrackSource_again`).
-/

namespace Vamp

namespace Utils

open FixedPattern

/-- `TrackSourceType`. -/
inductive TrackSourceType : Type where
  | youtube
  | soundcloud
  | localFile
  deriving DecidableEq

/-- `TrackSource`. -/
structure TrackSource : Type where
  type : TrackSourceType
  /-- the id of a video, a URL, or the raw text -/
  id : String
  deriving DecidableEq

/-- What is read of a URL that was parsed. -/
structure ParsedUrl : Type where
  hostname : String
  pathname : String
  deriving DecidableEq

/-! ## The code -/

/-- White space and line terminators. -/
def isSpace (c : Char) : Bool :=
  (9 ≤ c.toNat && c.toNat ≤ 13) || (0x2000 ≤ c.toNat && c.toNat ≤ 0x200A) ||
    [0x20, 0xA0, 0x1680, 0x2028, 0x2029, 0x202F, 0x205F, 0x3000, 0xFEFF].contains c.toNat

/-- `trim`. -/
def trim (s : String) : String :=
  String.ofList ((s.toList.dropWhile isSpace).rdropWhile isSpace)

/-- `[a-zA-Z0-9_-]`. -/
def isIdChar (c : Char) : Bool := c.isAlphanum || c = '_' || c = '-'

/-- `([a-zA-Z0-9_-]{11})`. -/
def idGroup : List (Char → Bool) := List.replicate 11 isIdChar

/-- A text in a pattern. -/
def literal (text : String) : List (Char → Bool) := text.toList.map fun y x => decide (x = y)

/-- `[?&]v=` and an id. -/
def queryPattern : FixedPattern Char :=
  ⟨[fun c => c = '?' || c = '&', fun c => c = 'v', fun c => c = '='], idGroup, false⟩

/-- `ytPatterns`. -/
def ytPatterns : List (FixedPattern Char) :=
  [queryPattern, ⟨literal "youtu.be/", idGroup, false⟩,
    ⟨literal "youtube.com/embed/", idGroup, false⟩,
    ⟨literal "youtube.com/shorts/", idGroup, false⟩, ⟨[], idGroup, true⟩]

/-- The match of the first pattern that is found. -/
def ytMatch (trimmed : String) : Option (Found Char) :=
  ytPatterns.findSome? fun p => p.find trimmed.toList

/-- A URL of SoundCloud, other than the site itself. The path starts with a slash. -/
def isSoundCloud (parseUrl : String → Option ParsedUrl) (trimmed : String) : Bool :=
  match parseUrl trimmed with
  | some parsed => parsed.hostname = "soundcloud.com" && parsed.pathname.length > 1
  | none => false

/-- `getTrackSource`. `parseUrl` is `new URL`, `none` if it throws. -/
def getTrackSource (parseUrl : String → Option ParsedUrl) (raw : String) : Option TrackSource :=
  let trimmed := trim raw
  if trimmed = "" then none
  else match ytMatch trimmed with
    | some m => some ⟨.youtube, String.ofList m.group⟩
    | none =>
      if isSoundCloud parseUrl trimmed then some ⟨.soundcloud, trimmed⟩
      else some ⟨.localFile, trimmed⟩

/-- `Track`: what the player gets. -/
structure Track (δ : Type) : Type where
  id : String
  label : String
  sourceType : TrackSourceType
  dbTrackId : Option δ
  deriving DecidableEq

/-- `loadVideo`: the track that is set. -/
def loadVideo {δ : Type} (parseUrl : String → Option ParsedUrl) (raw label : String)
    (dbTrackId : Option δ) : Option (Track δ) :=
  match getTrackSource parseUrl (trim raw) with
  | some ⟨.youtube, id⟩ => some ⟨id, label, .youtube, dbTrackId⟩
  | some ⟨.soundcloud, id⟩ => some ⟨id, label, .soundcloud, dbTrackId⟩
  | _ => none

/-! ## What is expected -/

/-- An absolute URL with the host soundcloud.com and a path. The path of a URL with a host starts
with a slash. -/
def SoundCloudUrl (parseUrl : String → Option ParsedUrl) (text : String) : Prop :=
  ∃ url, parseUrl text = some url ∧ url.hostname = "soundcloud.com" ∧ 1 < url.pathname.length

/-- A bare id. -/
def IsBareId (text : String) : Prop :=
  text.toList.length = 11 ∧ ∀ c ∈ text.toList, isIdChar c = true

/-- A text with a host of YouTube. -/
def HasHost (text : String) : Prop :=
  "youtube.com".toList <:+: text.toList ∨ "youtu.be".toList <:+: text.toList

instance (text : String) : Decidable (HasHost text) := inferInstanceAs (Decidable (_ ∨ _))

/-- The group is a **maximal run** of exactly 11 id characters. -/
structure MaximalRun (m : Found Char) : Prop where
  length : m.group.length = 11
  chars : ∀ c ∈ m.group, isIdChar c = true
  /-- none stands before it -/
  before : ∀ c ∈ (m.before ++ m.lead).getLast?, isIdChar c = false
  /-- none stands after it -/
  after : ∀ c ∈ m.after.head?, isIdChar c = false

/-- **A source is routed right.** -/
structure RoutesRight (parseUrl : String → Option ParsedUrl) (raw : String) : Prop where
  /-- URLs of SoundCloud, whatever their query -/
  soundcloud : SoundCloudUrl parseUrl (trim raw) →
    getTrackSource parseUrl raw = some ⟨.soundcloud, trim raw⟩
  /-- only ids and what has the host are for YouTube, and nothing longer is cut -/
  youtube : ∀ id, getTrackSource parseUrl raw = some ⟨.youtube, id⟩ →
    (IsBareId (trim raw) ∨ HasHost (trim raw)) ∧
      ∃ m, ytMatch (trim raw) = some m ∧ m.text = (trim raw).toList ∧ m.group = id.toList ∧
        MaximalRun m
  /-- everything else is a file -/
  other : ¬ SoundCloudUrl parseUrl (trim raw) →
    (IsBareId (trim raw) ∨ HasHost (trim raw) →
      ∀ id, getTrackSource parseUrl raw ≠ some ⟨.youtube, id⟩) →
    getTrackSource parseUrl raw = some ⟨.localFile, trim raw⟩
  /-- the id is classified the same way again -/
  again : ∀ source, getTrackSource parseUrl raw = some source →
    getTrackSource parseUrl source.id = some source

/-! ## Trimming -/

theorem trim_of_forall {s : String} (h : ∀ c ∈ s.toList, isSpace c = false) : trim s = s := by
  have hfirst : s.toList.dropWhile isSpace = s.toList :=
    List.dropWhile_eq_self_iff.mpr fun hlt => Bool.eq_false_iff.mp (h _ (List.getElem_mem hlt))
  have hlast : s.toList.rdropWhile isSpace = s.toList :=
    List.rdropWhile_eq_self_iff.mpr fun hne => Bool.eq_false_iff.mp (h _ (List.getLast_mem hne))
  rw [trim, hfirst, hlast, String.ofList_toList]

/-- What was trimmed stays. -/
theorem trim_trim (s : String) : trim (trim s) = trim s := by
  have hstart := List.rdropWhile_prefix isSpace (s.toList.dropWhile isSpace)
  have hfirst : ((s.toList.dropWhile isSpace).rdropWhile isSpace).dropWhile isSpace =
      (s.toList.dropWhile isSpace).rdropWhile isSpace := by
    refine List.dropWhile_eq_self_iff.mpr fun hlt => ?_
    rw [hstart.getElem hlt]
    exact List.dropWhile_get_zero_not isSpace s.toList (hlt.trans_le hstart.length_le)
  rw [trim, trim, String.toList_ofList, hfirst, List.rdropWhile_idempotent]

/-- Id characters are printable ASCII characters. -/
theorem toNat_of_isIdChar {c : Char} (h : isIdChar c = true) : 32 < c.toNat ∧ c.toNat < 128 := by
  delta isIdChar Char.isAlphanum Char.isAlpha Char.isUpper Char.isLower Char.isDigit at h
  simp only [Bool.or_eq_true, Bool.and_eq_true, decide_eq_true_eq, ge_iff_le,
    UInt32.le_iff_toNat_le, Char.toNat_val, UInt32.reduceToNat, Char.reduceVal] at h
  rcases h with (((h | h) | h) | rfl) | rfl
  · omega
  · omega
  · omega
  · decide
  · decide

theorem isSpace_of_isIdChar {c : Char} (h : isIdChar c = true) : isSpace c = false := by
  have hcode := toNat_of_isIdChar h
  simp only [isSpace, Bool.or_eq_false_iff, Bool.and_eq_false_iff, decide_eq_false_iff_not,
    List.contains_eq_mem, List.mem_cons, List.not_mem_nil, or_false]
  omega

/-! ## The patterns -/

section Patterns

variable {p : FixedPattern Char} {m : Found Char} {text : String}

/-- What leads to an id: a query, a host, or nothing if it is a bare one. -/
theorem lead_cases (hp : p ∈ ytPatterns) (hfits : p.Fits m) :
    (p = queryPattern ∧ m.lead ∈ ["?v=".toList, "&v=".toList]) ∨
      m.lead ∈ ["youtu.be/".toList, "youtube.com/embed/".toList, "youtube.com/shorts/".toList] ∨
      (m.before = [] ∧ m.lead = [] ∧ m.after = []) := by
  have hlead := hfits.lead
  simp only [ytPatterns, List.mem_cons, List.not_mem_nil, or_false] at hp
  rcases hp with rfl | rfl | rfl | rfl | rfl
  · obtain ⟨x, y, z, hxyz⟩ := List.length_eq_three.mp (length_of_fits hlead)
    rw [hxyz] at hlead
    simp only [queryPattern, fits, Bool.and_true, Bool.and_eq_true, Bool.or_eq_true,
      decide_eq_true_eq] at hlead
    obtain ⟨rfl | rfl, rfl, rfl⟩ := hlead
    all_goals
      rw [hxyz]
      exact .inl ⟨rfl, by decide⟩
  · rw [fits_singletons_iff.mp hlead]
    exact .inr (.inl (by decide))
  · rw [fits_singletons_iff.mp hlead]
    exact .inr (.inl (by decide))
  · rw [fits_singletons_iff.mp hlead]
    exact .inr (.inl (by decide))
  · obtain ⟨hbefore, hafter⟩ := hfits.anchored rfl
    exact .inr (.inr ⟨hbefore, List.eq_nil_of_length_eq_zero (length_of_fits hlead), hafter⟩)

theorem group_of_fits (hp : p ∈ ytPatterns) (hfits : p.Fits m) :
    m.group.length = 11 ∧ ∀ c ∈ m.group, isIdChar c = true := by
  have hgroup : p.group = idGroup := by
    simp only [ytPatterns, List.mem_cons, List.not_mem_nil, or_false] at hp
    rcases hp with rfl | rfl | rfl | rfl | rfl
    all_goals rfl
  have hfits : fits idGroup m.group = true := hgroup ▸ hfits.group
  exact fits_replicate_iff.mp hfits

/-- No id character leads to an id. -/
theorem before_of_fits (hp : p ∈ ytPatterns) (hfits : p.Fits m) :
    ∀ c ∈ (m.before ++ m.lead).getLast?, isIdChar c = false := by
  have hends : ∀ lead ∈ ["?v=".toList, "&v=".toList, "youtu.be/".toList,
      "youtube.com/embed/".toList, "youtube.com/shorts/".toList],
      lead ≠ [] ∧ ∀ c ∈ lead.getLast?, isIdChar c = false := by
    intro lead hlead
    simp only [List.mem_cons, List.not_mem_nil, or_false] at hlead
    rcases hlead with rfl | rfl | rfl | rfl | rfl
    all_goals
      refine ⟨by decide, fun c hc => ?_⟩
      cases hc
      rfl
  have hlast : m.lead ≠ [] ∧ (∀ c ∈ m.lead.getLast?, isIdChar c = false) →
      ∀ c ∈ (m.before ++ m.lead).getLast?, isIdChar c = false := by
    rintro ⟨hne, h⟩
    rwa [List.getLast?_append_of_ne_nil _ hne]
  rcases lead_cases hp hfits with ⟨-, hlead⟩ | hlead | ⟨hbefore, hlead, -⟩
  · exact hlast (hends _ (List.mem_append_left _ hlead))
  · exact hlast (hends _ (List.mem_append_right ["?v=".toList, "&v=".toList] hlead))
  · rw [hbefore, hlead]
    rintro c ⟨⟩

/-- What was matched, and by which pattern. -/
theorem fits_of_ytMatch (h : ytMatch text = some m) :
    ∃ p ∈ ytPatterns, p.find text.toList = some m ∧ m.text = text.toList ∧ p.Fits m := by
  obtain ⟨p, hp, hfind⟩ := List.exists_of_findSome?_eq_some h
  obtain ⟨htext, hfits⟩ := find_eq_some hfind
  exact ⟨p, hp, hfind, htext, hfits⟩

/-- Only the pattern for queries is found where there is neither an id nor a host. -/
theorem allowed_of_ytMatch (h : ytMatch text = some m)
    (hquery : queryPattern.find text.toList ≠ none → HasHost text) :
    IsBareId text ∨ HasHost text := by
  obtain ⟨p, hp, hfind, htext, hfits⟩ := fits_of_ytMatch h
  rcases lead_cases hp hfits with ⟨rfl, -⟩ | hlead | ⟨hbefore, hlead, hafter⟩
  · exact .inr (hquery (Option.ne_none_iff_exists'.mpr ⟨m, hfind⟩))
  · have hhosts : ∀ lead ∈ ["youtu.be/".toList, "youtube.com/embed/".toList,
        "youtube.com/shorts/".toList],
        "youtube.com".toList <:+: lead ∨ "youtu.be".toList <:+: lead := by decide
    have hinfix : m.lead <:+: text.toList := by
      rw [← htext, Found.text, List.append_assoc]
      exact List.infix_append _ _ _
    exact .inr ((hhosts _ hlead).imp (·.trans hinfix) (·.trans hinfix))
  · have hgroup : m.group = text.toList := by
      rw [← htext, Found.text, hbefore, hlead, hafter, List.append_nil]
      rfl
    rw [IsBareId, ← hgroup]
    exact .inl (group_of_fits hp hfits)

/-- Something else than id characters is nowhere in an id. -/
theorem ne_of_isBareId (h : IsBareId text) {y : Char} (hy : isIdChar y = false) :
    ∀ x ∈ text.toList, decide (x = y) = false := by
  intro x hx
  refine decide_eq_false ?_
  rintro rfl
  exact Bool.false_ne_true (hy.symm.trans (h.2 x hx))

theorem query_of_isBareId (h : IsBareId text) : queryPattern.find text.toList = none := by
  have hmem : (fun c => decide (c = '=')) ∈ queryPattern.lead :=
    .tail _ (.tail _ List.mem_cons_self)
  exact find_eq_none hmem (ne_of_isBareId h (by decide))

/-- **A bare id** is found as such. -/
theorem ytMatch_of_isBareId (h : IsBareId text) :
    ytMatch text = some ⟨[], [], text.toList, []⟩ := by
  have hslash : ∀ lead : String, '/' ∈ lead.toList →
      (⟨literal lead, idGroup, false⟩ : FixedPattern Char).find text.toList = none :=
    fun lead hmem => find_eq_none (List.mem_map_of_mem hmem) (ne_of_isBareId h (by decide))
  have hbare : (⟨[], idGroup, true⟩ : FixedPattern Char).find text.toList =
      some ⟨[], [], text.toList, []⟩ := find_group (fits_replicate_iff.mpr h)
  simp only [ytMatch, ytPatterns, List.findSome?_cons, query_of_isBareId h, hbare,
    hslash "youtu.be/" (by decide), hslash "youtube.com/embed/" (by decide),
    hslash "youtube.com/shorts/" (by decide)]

end Patterns

/-! ## The routes -/

section Routes

variable {parseUrl : String → Option ParsedUrl} {raw : String}

theorem isSoundCloud_iff {text : String} :
    isSoundCloud parseUrl text = true ↔ SoundCloudUrl parseUrl text := by
  unfold isSoundCloud SoundCloudUrl
  cases parseUrl text with
  | none => exact iff_of_false Bool.false_ne_true fun ⟨_, h, _⟩ => nomatch h
  | some url =>
    simp only [Bool.and_eq_true, decide_eq_true_eq, gt_iff_lt, Option.some.injEq,
      exists_eq_left']

theorem getTrackSource_of_ytMatch {m : Found Char} (parseUrl : String → Option ParsedUrl)
    (h : trim raw ≠ "") (hm : ytMatch (trim raw) = some m) :
    getTrackSource parseUrl raw = some ⟨.youtube, String.ofList m.group⟩ := by
  rw [getTrackSource, if_neg h, hm]

/-- **The three routes.** -/
theorem getTrackSource_cases (parseUrl : String → Option ParsedUrl) (h : trim raw ≠ "") :
    (∃ m, ytMatch (trim raw) = some m ∧
      getTrackSource parseUrl raw = some ⟨.youtube, String.ofList m.group⟩) ∨
    (ytMatch (trim raw) = none ∧ SoundCloudUrl parseUrl (trim raw) ∧
      getTrackSource parseUrl raw = some ⟨.soundcloud, trim raw⟩) ∨
    (ytMatch (trim raw) = none ∧ ¬ SoundCloudUrl parseUrl (trim raw) ∧
      getTrackSource parseUrl raw = some ⟨.localFile, trim raw⟩) := by
  cases hm : ytMatch (trim raw) with
  | some m => exact .inl ⟨m, rfl, getTrackSource_of_ytMatch parseUrl h hm⟩
  | none =>
    rw [getTrackSource, if_neg h, hm, ← isSoundCloud_iff]
    by_cases hsoundcloud : isSoundCloud parseUrl (trim raw) = true
    · exact .inr (.inl ⟨rfl, hsoundcloud, if_pos hsoundcloud⟩)
    · exact .inr (.inr ⟨rfl, hsoundcloud, if_neg hsoundcloud⟩)

/-- **For YouTube** is everything with a place where one of the patterns fits. -/
theorem youtube_iff (h : trim raw ≠ "") :
    (∃ id, getTrackSource parseUrl raw = some ⟨.youtube, id⟩) ↔
      ∃ p ∈ ytPatterns, ∃ m : Found Char, m.text = (trim raw).toList ∧ p.Fits m := by
  have hsome : (ytMatch (trim raw)).isSome = true ↔
      ∃ p ∈ ytPatterns, ∃ m : Found Char, m.text = (trim raw).toList ∧ p.Fits m := by
    simp only [ytMatch, List.isSome_findSome?, List.any_eq_true, find_isSome_iff]
  rw [← hsome]
  rcases getTrackSource_cases parseUrl h with ⟨m, hm, hroute⟩ | ⟨hm, -, hroute⟩ |
    ⟨hm, -, hroute⟩
  · exact iff_of_true ⟨_, hroute⟩ (by rw [hm, Option.isSome_some])
  all_goals
    refine iff_of_false ?_ (by rw [hm]; exact Bool.false_ne_true)
    rintro ⟨id, hid⟩
    cases hroute.symm.trans hid

/-- There is no source if and only if there is no text. -/
theorem getTrackSource_eq_none_iff : getTrackSource parseUrl raw = none ↔ trim raw = "" := by
  refine ⟨fun hnone => by_contra fun h => ?_, fun h => if_pos h⟩
  rcases getTrackSource_cases parseUrl h with ⟨m, -, hsome⟩ | ⟨-, -, hsome⟩ |
    ⟨-, -, hsome⟩
  all_goals cases hnone.symm.trans hsome

theorem getTrackSource_trim : getTrackSource parseUrl (trim raw) = getTrackSource parseUrl raw := by
  rw [getTrackSource, getTrackSource, trim_trim]

/-- A bare id is the id of a video. -/
theorem getTrackSource_of_isBareId {id : String} (h : IsBareId id) :
    getTrackSource parseUrl id = some ⟨.youtube, id⟩ := by
  have htrim : trim id = id := trim_of_forall fun c hc => isSpace_of_isIdChar (h.2 c hc)
  have hne : id ≠ "" := by
    rintro rfl
    cases h.1
  rw [getTrackSource, htrim, if_neg hne, ytMatch_of_isBareId h]
  exact congrArg (fun id => some (TrackSource.mk .youtube id)) String.ofList_toList

/-- **The id of a source** is classified the same way again. -/
theorem getTrackSource_again {source : TrackSource}
    (h : getTrackSource parseUrl raw = some source) :
    getTrackSource parseUrl source.id = some source := by
  have hne : trim raw ≠ "" := by
    intro hempty
    cases (getTrackSource_eq_none_iff.mpr hempty).symm.trans h
  rcases getTrackSource_cases parseUrl hne with ⟨m, hm, hsome⟩ | ⟨-, -, hsome⟩ |
    ⟨-, -, hsome⟩
  · obtain rfl := Option.some.inj (hsome.symm.trans h)
    obtain ⟨p, hp, -, -, hfits⟩ := fits_of_ytMatch hm
    refine getTrackSource_of_isBareId ?_
    rw [IsBareId, String.toList_ofList]
    exact group_of_fits hp hfits
  · obtain rfl := Option.some.inj (hsome.symm.trans h)
    exact getTrackSource_trim.trans hsome
  · obtain rfl := Option.some.inj (hsome.symm.trans h)
    exact getTrackSource_trim.trans hsome

/-- **The player** gets what was classified. It does not get files. -/
theorem loadVideo_eq {δ : Type} (label : String) (dbTrackId : Option δ) :
    loadVideo parseUrl raw label dbTrackId = (getTrackSource parseUrl raw).bind fun source =>
      if source.type = .localFile then none
      else some ⟨source.id, label, source.type, dbTrackId⟩ := by
  rw [loadVideo, getTrackSource_trim]
  rcases getTrackSource parseUrl raw with _ | ⟨type, id⟩
  · rfl
  · cases type <;> rfl

end Routes

/-! ## The exact condition -/

/-- What no pattern is found in is routed right. -/
theorem routesRight_of_none {parseUrl : String → Option ParsedUrl} {raw : String}
    (h : trim raw ≠ "") (hnone : ytMatch (trim raw) = none) : RoutesRight parseUrl raw := by
  rcases getTrackSource_cases parseUrl h with ⟨m, hm, -⟩ | ⟨-, hurl, hroute⟩ | ⟨-, hurl, hroute⟩
  · cases hnone.symm.trans hm
  · refine ⟨fun _ => hroute, fun id hid => ?_, fun hno => absurd hurl hno,
      fun _ => getTrackSource_again⟩
    cases hroute.symm.trans hid
  · refine ⟨fun hyes => absurd hyes hurl, fun id hid => ?_, fun _ _ => hroute,
      fun _ => getTrackSource_again⟩
    cases hroute.symm.trans hid

/-- **Every source is routed right** if and only if the first match of a pattern, if there is any,
is not in a URL of SoundCloud, not in the query of anything without a host of YouTube, and is not
followed by another id character. -/
theorem routesRight_iff (parseUrl : String → Option ParsedUrl) (raw : String)
    (h : trim raw ≠ "") :
    RoutesRight parseUrl raw ↔ ∀ m, ytMatch (trim raw) = some m →
      ¬ SoundCloudUrl parseUrl (trim raw) ∧
      (queryPattern.find (trim raw).toList ≠ none → HasHost (trim raw)) ∧
      ∀ c ∈ m.after.head?, isIdChar c = false := by
  cases hm : ytMatch (trim raw) with
  | none => exact iff_of_true (routesRight_of_none h hm) nofun
  | some m =>
    have hsome := getTrackSource_of_ytMatch parseUrl h hm
    obtain ⟨p, hp, -, htext, hfits⟩ := fits_of_ytMatch hm
    constructor
    · rintro hroutes m' ⟨⟩
      obtain ⟨hallowed, m', hm', -, -, hrun⟩ := hroutes.youtube _ hsome
      obtain rfl := Option.some.inj (hm.symm.trans hm')
      refine ⟨fun hurl => ?_, fun hquery => ?_, hrun.after⟩
      · cases hsome.symm.trans (hroutes.soundcloud hurl)
      · exact hallowed.resolve_left fun hbare => hquery (query_of_isBareId hbare)
    · intro hcond
      obtain ⟨hurl, hquery, hafter⟩ := hcond m rfl
      have hallowed := allowed_of_ytMatch hm hquery
      obtain ⟨hlength, hchars⟩ := group_of_fits hp hfits
      refine ⟨fun hurl' => absurd hurl' hurl, ?_, fun _ hnone => ?_, fun _ => getTrackSource_again⟩
      · intro id hid
        obtain rfl := (TrackSource.mk.inj (Option.some.inj (hsome.symm.trans hid))).2
        exact ⟨hallowed, m, hm, htext, String.toList_ofList.symm, hlength, hchars,
          before_of_fits hp hfits, hafter⟩
      · exact absurd hsome (hnone hallowed _)

theorem routesRight_iff_short :
    RoutesRight (fun _ => some ⟨"youtu.be", "/dQw4w9WgXcQ"⟩) " https://youtu.be/dQw4w9WgXcQ" ↔
      ∀ m, ytMatch (trim " https://youtu.be/dQw4w9WgXcQ") = some m →
        ¬ SoundCloudUrl (fun _ => some ⟨"youtu.be", "/dQw4w9WgXcQ"⟩)
          (trim " https://youtu.be/dQw4w9WgXcQ") ∧
        (queryPattern.find (trim " https://youtu.be/dQw4w9WgXcQ").toList ≠ none →
          HasHost (trim " https://youtu.be/dQw4w9WgXcQ")) ∧
        ∀ c ∈ m.after.head?, isIdChar c = false :=
  routesRight_iff _ _ (by decide)

/-- A file that looks like a query. -/
def mix : String := "/music/mix?v=summer_2019a.mp3"

/-- A URL of SoundCloud that looks like a query. -/
def cloud : String := "https://soundcloud.com/artist/track?v=summer_2019"

/-- Something longer than an id. -/
def longer : String := "https://youtu.be/dQw4w9WgXcQx"

theorem misrouted :
    (getTrackSource (fun _ => none) mix = some ⟨.youtube, "summer_2019"⟩ ∧
      ¬ RoutesRight (fun _ => none) mix) ∧
    (getTrackSource (fun _ => some ⟨"soundcloud.com", "/artist/track"⟩) cloud =
        some ⟨.youtube, "summer_2019"⟩ ∧
      ¬ RoutesRight (fun _ => some ⟨"soundcloud.com", "/artist/track"⟩) cloud) ∧
    (getTrackSource (fun _ => some ⟨"youtu.be", "/dQw4w9WgXcQx"⟩) longer =
        some ⟨.youtube, "dQw4w9WgXcQ"⟩ ∧
      ¬ RoutesRight (fun _ => some ⟨"youtu.be", "/dQw4w9WgXcQx"⟩) longer) := by
  have hmix : getTrackSource (fun _ => none) mix = some ⟨.youtube, "summer_2019"⟩ := by decide
  have hcloud : getTrackSource (fun _ => some ⟨"soundcloud.com", "/artist/track"⟩) cloud =
      some ⟨.youtube, "summer_2019"⟩ := by decide
  have hlonger : getTrackSource (fun _ => some ⟨"youtu.be", "/dQw4w9WgXcQx"⟩) longer =
      some ⟨.youtube, "dQw4w9WgXcQ"⟩ := by decide
  refine ⟨⟨hmix, fun h => ?_⟩, ⟨hcloud, fun h => ?_⟩, ⟨hlonger, fun h => ?_⟩⟩
  · -- neither an id nor a host
    rcases (h.youtube _ hmix).1 with ⟨hlength, -⟩ | hhost
    · exact absurd hlength (by decide)
    · exact absurd hhost (by decide)
  · cases hcloud.symm.trans (h.soundcloud ⟨_, rfl, by decide⟩)
  · obtain ⟨-, m, hm, -, -, hrun⟩ := h.youtube _ hlonger
    have hfound : ytMatch (trim longer) = some
        ⟨"https://".toList, "youtu.be/".toList, "dQw4w9WgXcQ".toList, ['x']⟩ := by decide
    obtain rfl := Option.some.inj (hfound.symm.trans hm)
    exact absurd (hrun.after 'x' rfl) (by decide)

end Utils

end Vamp
