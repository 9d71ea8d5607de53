import Vamp.Integrity
import Vamp.LibraryPaging
import Vamp.TracksWithSources

/-!
# The library while the database changes

`LibraryWidget` on top of the repository. A request is answered by `get_tracks_with_sources`, some
time after it was made, and the answer arrives some time after that; meanwhile anything may be
added, changed and removed, requests may fail, and pages may be requested with cursors of long ago.

When nothing is written anymore, the library catches up (`catches_up`): from some day on it shows
a part of the tracks as they are now, each of them with its sources, and the button that is used
leads to the last track, or to the first.
-/

namespace Vamp

universe u

/-! ## Pages that are requested with any cursor -/

namespace LibraryWidget

open SqlPage

variable {α : Type u} {key : α → ℤ} {rows : List α}

/-- The limit that `loadPage` chooses. -/
def limitFor (cursor : Option ℤ) : ℕ := if cursor = none then pageSize else halfPageSize

/-- The page that is found with a cursor. -/
def pageFor (key : α → ℤ) (rows : List α) (cursor : Option ℤ) : List α :=
  getTracksWithSources key rows cursor (limitFor cursor)

/-- A window of the library is shown. -/
def IsWindow (key : α → ℤ) (rows tracks : List α) : Prop :=
  ∃ v : Window, v.Valid (orderAsc key rows).length ∧ tracks = v.content (orderAsc key rows)

/-- **Every page is a window**, whether there is a row with the cursor as its key or not. -/
theorem isWindow_pageFor (hnodup : (rows.map key).Nodup) (hpos : ∀ row ∈ rows, 0 < key row)
    (cursor : Option ℤ) : IsWindow key rows (pageFor key rows cursor) := by
  rcases Nat.eq_zero_or_pos (orderAsc key rows).length with hnone | hn
  · -- there is nothing to show
    obtain rfl : rows = [] := by
      rw [(orderAsc_perm rows).length_eq] at hnone
      exact List.eq_nil_of_length_eq_zero hnone
    refine ⟨noWindow, .inl rfl, List.subset_nil.mp (page_subset (cursor.getD 0) _ _)⟩
  · cases cursor with
    | none =>
      exact ⟨firstWindow _, valid_firstWindow hn, getTracksWithSources_none hnodup hpos⟩
    | some c =>
      have hle := List.length_filter_le (fun row => decide (key row < c)) (orderAsc key rows)
      refine ⟨windowAround (orderAsc key rows).length
        ((orderAsc key rows).filter fun row => key row < c).length, .inr ⟨?_, ?_, ?_⟩, ?_⟩
      · simp only [windowAround, halfPageSize]
        omega
      · exact Nat.min_le_left _ _
      · simp only [windowAround, halfPageSize, pageSize]
        omega
      · have hlimit : limitFor (some c) = halfPageSize := rfl
        rw [pageFor, getTracksWithSources, hlimit, page_eq hnodup _ (Int.natCast_nonneg _),
          Option.getD_some, Int.toNat_natCast, around_eq (ascending_orderAsc hnodup),
          Window.content, windowAround]
        dsimp only
        rw [Nat.min_comm, ← List.take_eq_take_min]

/-- Requests are answered with windows. -/
theorem exists_windows (hnodup : (rows.map key).Nodup) (hpos : ∀ row ∈ rows, 0 < key row)
    {requests : List (Option ℤ × ℕ)} (hlimits : ∀ r ∈ requests, r.2 = limitFor r.1) :
    ∃ vs : List Window, (∀ v ∈ vs, v.Valid (orderAsc key rows).length) ∧
      (requests.map fun (cursor, limit) => getTracksWithSources key rows cursor limit) =
        vs.map (Window.content (orderAsc key rows)) := by
  induction requests with
  | nil => exact ⟨[], nofun, rfl⟩
  | cons r requests ih =>
    obtain ⟨cursor, limit⟩ := r
    obtain ⟨hlimit, hrest⟩ := List.forall_mem_cons.mp hlimits
    obtain rfl : limit = limitFor cursor := hlimit
    obtain ⟨v, hv, hcontent⟩ := isWindow_pageFor hnodup hpos cursor
    obtain ⟨vs, hvs, hcontents⟩ := ih hrest
    refine ⟨v :: vs, List.forall_mem_cons.mpr ⟨hv, hvs⟩, ?_⟩
    rw [List.map_cons, List.map_cons, hcontents]
    exact congrArg (· :: _) hcontent

/-- `loadPage`, with what comes in; an error is only logged. -/
def receive (key : α → ℤ) (answer : Option (List α)) (w : LibraryWidget α) : LibraryWidget α :=
  match w.requests with
  | [] => w
  | _ :: requests =>
    match answer with
    | none => { w with requests }
    | some withSources =>
      let pos := min (withSources.length - 1) halfPageSize
      ⟨withSources, withSources[pos]?.map key, requests⟩

/-- An answer that was found in these rows. -/
theorem receive_eq_answered {w : LibraryWidget α} {cursor : Option ℤ} {limit : ℕ}
    {requests : List (Option ℤ × ℕ)} (h : w.requests = (cursor, limit) :: requests) :
    w.receive key (some (getTracksWithSources key rows cursor limit)) = w.answered key rows := by
  rw [receive, answered, h]

/-- The end is reached with `handlePageNext`, from wherever. -/
theorem stop_after {turns : ℕ → Pipeline.Turn} {p : Pipeline Window} {n : ℕ} (hn : 0 < n)
    (hfair : Pipeline.Fair turns) (hvalid : ∀ v ∈ p.all, v.Valid n) :
    ∃ m, ∀ m', m ≤ m' → (Pipeline.after (pageTurn n 15) turns p m').shown.start <
        (Pipeline.after (pageTurn n 15) turns p m').shown.stop ∧
      (Pipeline.after (pageTurn n 15) turns p m').shown.stop = n := by
  have hrank : ∀ v : Window, v.Valid n → n - (pageTurn n 15 v).stop ≤ n - v.stop - 1 := by
    intro v hv
    have hstop := (pageTurn_next hn hv).2.2
    omega
  have hreached := Pipeline.eventually_rank_zero (fun v : Window => n - v.stop) hfair
    (fun v hv => valid_pageTurn hn hv) hrank hvalid
  obtain ⟨m, hm⟩ := hreached
  refine ⟨m, fun m' hm' => ?_⟩
  obtain ⟨hvalid, hrank⟩ := hm m' hm' _ List.mem_cons_self
  rcases hvalid with hnone | ⟨hlt, hle, -⟩
  · rw [hnone] at hrank
    exact absurd hrank (Nat.ne_of_gt hn)
  · exact ⟨hlt, Nat.le_antisymm hle (Nat.le_of_sub_eq_zero hrank)⟩

end LibraryWidget

/-! ## The system -/

open Program Repository SqlPage LibraryWidget

/-- A track of the library. -/
abbrev Entry (ρ : Type) : Type := TrackRow ρ × List SourceRow

/-- The widget, and what it depends on. -/
structure Library (ρ : Type) : Type where
  /-- the tables -/
  db : Database ρ
  /-- what is shown, and what is requested -/
  widget : LibraryWidget (Entry ρ)
  /-- what was found for the oldest requests, or that nothing was found -/
  underway : List (Option (List (Entry ρ)))

namespace Library

variable {ρ : Type}

/-- The id of a track, as the backend reads it. -/
def trackId (entry : Entry ρ) : ℤ := entry.1.id.toI64.getD 0

/-- A button of the widget. -/
inductive Button : Type where
  | next | prev
  deriving DecidableEq

/-- The index of the next cursor on the page. -/
def Button.idx : Button → ℕ
  | next => halfPageSize + halfPageSize / 2
  | prev => halfPageSize / 2

/-- What happens. -/
inductive Event (ρ : Type) : Type where
  /-- a call of the repository, by whomever -/
  | call (t : Turn ρ)
  | press (button : Button)
  /-- the page is loaded again, also after a track was added or deleted -/
  | loadPage (cursor : Option ℤ)
  /-- the backend takes the next request -/
  | serve (faults : List (Option SqlxError))
  /-- the oldest request is answered -/
  | answered

section Machine

variable (env : Environment ρ)

/-- What is found for a request, unless there is an error. -/
def found (cursor : Option ℤ) (limit : ℕ) (faults : List (Option SqlxError)) (db : Database ρ) :
    Option (List (Entry ρ)) :=
  match Repository.getTracksWithSources env cursor (some []) limit ⟨db, none, faults⟩ with
  | .ok entries _ => some entries
  | .error _ _ => none

/-- What an event does. -/
def step (s : Library ρ) : Event ρ → Option (Library ρ)
  | .call t => some { s with db := turn env s.db t }
  | .press button => some { s with widget := s.widget.paginate trackId button.idx }
  | .loadPage cursor => some { s with widget := s.widget.loadPage cursor }
  | .serve faults =>
    match s.widget.requests[s.underway.length]? with
    | none => none
    | some (cursor, limit) => some { s with
        db := turn env s.db ⟨.getTracksWithSources cursor (some []) limit, faults⟩
        underway := s.underway ++ [found env cursor limit faults s.db] }
  | .answered =>
    match s.underway with
    | [] => none
    | answer :: underway => some { s with widget := s.widget.receive trackId answer, underway }

/-- A new installation, in which the widget is mounted. -/
def mounted (cursor : Option ℤ) : Library ρ :=
  ⟨Database.empty, LibraryWidget.loadPage cursor ⟨[], cursor, []⟩, []⟩

/-- The library. -/
def system (cursor : Option ℤ) : StateMachine (Library ρ) (Event ρ) where
  init := mounted cursor
  step := step env

end Machine

/-! ## What a search finds -/

/-- All totals are integers that can be read. -/
def Readable (db : Database ρ) : Prop :=
  ∀ row ∈ db.trackInfo.rows, ∃ n, row.listenedSeconds = .integer n

/-- A track with its sources. -/
def entry (db : Database ρ) (row : TrackInfo ρ) : Entry ρ :=
  (⟨.fromI64 row.id, row.artist, row.trackName, some row.lengthSeconds, row.bitrateKbps,
      row.tempoBpm, row.additionTime,
      match row.listenedSeconds with
      | .integer n => n
      | .real _ => 0⟩,
    (db.selectSources row.id).map SourceRow.fromRow)

/-- All tracks with their sources. -/
def entries (db : Database ρ) : List (Entry ρ) := db.trackInfo.rows.map (entry db)

variable {env : Environment ρ} {sql : TrackSearch.Operators ρ} {db : Database ρ}

theorem fromRow_entry (hreadable : Readable db) {row : TrackInfo ρ}
    (hrow : row ∈ db.trackInfo.rows) : TrackRow.fromRow row = .ok (entry db row).1 := by
  obtain ⟨n, hn⟩ := hreadable row hrow
  rw [TrackRow.fromRow, entry, hn]
  rfl

theorem trackId_entry {row : TrackInfo ρ} (hrow : row ∈ db.trackInfo.rows) :
    trackId (entry db row) = row.id := by
  rw [trackId, entry, BigintId.toI64_fromI64 (isI64_of_mem hrow), Option.getD_some]

theorem map_trackId_entries : (entries db).map trackId = db.trackInfo.rows.map TrackInfo.id := by
  rw [entries, List.map_map]
  exact List.map_congr_left fun _ => trackId_entry

/-- **What is found** without failures is a page of all tracks. -/
theorem getTracksWithSources_eq (hfinds : env.Finds sql db ⟨[]⟩) (hreadable : Readable db)
    (cursor : Option ℤ) (limit : ℕ) :
    Repository.getTracksWithSources env cursor (some []) limit ⟨db, none, []⟩ =
      .ok (LibraryWidget.getTracksWithSources trackId (entries db) cursor limit)
        ⟨db, none, []⟩ := by
  have hrows : (TrackSearch.searchStatement ((some []).getD [])).rows sql db =
      db.trackInfo.rows := List.filter_eq_self.mpr fun _ _ => rfl
  have hpage : LibraryWidget.getTracksWithSources trackId (entries db) cursor limit =
      (pageOf sql db cursor (some []) limit).map (entry db) := by
    rw [LibraryWidget.getTracksWithSources, entries, pageOf, hrows]
    exact page_map (fun _ => trackId_entry) _ _
  rw [hpage]
  have hnone : ∀ sc ∈ (some ([] : List (TrackSearch.SearchCriteria ρ))).getD [],
      sc.columnName ≠ "tags" := fun _ hsc => absurd hsc List.not_mem_nil
  refine (Repository.getTracksWithSources_eq_ok (Int.natCast_nonneg limit) rfl hnone hfinds).mpr
    ⟨?_, rfl⟩
  rw [List.forall₂_map_right_iff, List.forall₂_same]
  intro row hrow
  have hmem : row ∈ db.trackInfo.rows := hrows ▸ page_subset _ _ _ hrow
  exact ⟨fromRow_entry hreadable hmem, areSourcesOf_iff.mpr rfl⟩

/-- Without failures, what is found is on the page, and nothing is written. -/
theorem serve_eq (hfinds : env.Finds sql db ⟨[]⟩) (hreadable : Readable db) (cursor : Option ℤ)
    (limit : ℕ) :
    found env cursor limit [] db =
        some (LibraryWidget.getTracksWithSources trackId (entries db) cursor limit) ∧
      turn env db ⟨.getTracksWithSources cursor (some []) limit, []⟩ = db := by
  have hfound := getTracksWithSources_eq hfinds hreadable cursor limit
  constructor
  · rw [found, hfound]
  · have hignore : ignore (Repository.getTracksWithSources env cursor (some []) (limit : ℤ))
        ⟨db, none, []⟩ = .ok () ⟨db, none, []⟩ := by
      rw [ignore, bind_eq_ok]
      exact ⟨_, _, hfound, rfl⟩
    rw [turn, Call.run, final, hignore]

/-! ## What holds in every run -/

/-- The system is in order. -/
structure Sound (s : Library ρ) : Prop where
  /-- the tables come from a new installation -/
  past : Database.History Database.empty s.db
  /-- every request has the limit of its cursor -/
  limits : ∀ r ∈ s.widget.requests, r.2 = limitFor r.1
  /-- what is underway was requested -/
  underway : s.underway.length ≤ s.widget.requests.length

theorem sound_mounted (cursor : Option ℤ) : Sound (mounted cursor : Library ρ) where
  past := .refl _
  limits := List.forall_mem_singleton.mpr rfl
  underway := Nat.zero_le _

/-- A request is made. -/
theorem Sound.loadPage {s : Library ρ} (h : Sound s) (cursor : Option ℤ) :
    Sound { s with widget := s.widget.loadPage cursor } where
  past := h.past
  limits := List.forall_mem_append.mpr ⟨h.limits, List.forall_mem_singleton.mpr rfl⟩
  underway := by
    rw [LibraryWidget.loadPage, List.length_append]
    exact Nat.le_add_right_of_le h.underway

/-- A button makes a request. -/
theorem exists_paginate (idx : ℕ) (w : LibraryWidget (Entry ρ)) :
    ∃ cursor, w.paginate trackId idx = w.loadPage cursor := by
  unfold LibraryWidget.paginate
  split
  · exact ⟨_, rfl⟩
  · exact ⟨_, rfl⟩

theorem requests_receive (answer : Option (List (Entry ρ))) (w : LibraryWidget (Entry ρ)) :
    (w.receive trackId answer).requests = w.requests.tail := by
  unfold LibraryWidget.receive
  split
  · case h_1 hnone => rw [hnone, List.tail_nil]
  · case h_2 hrequests =>
    rw [hrequests, List.tail_cons]
    cases answer <;> rfl

/-- What the backend does with a request. -/
theorem serve_eq_some {s s' : Library ρ} {faults : List (Option SqlxError)}
    (h : step env s (.serve faults) = some s') :
    ∃ cursor limit, s.widget.requests[s.underway.length]? = some (cursor, limit) ∧
      s' = { s with
        db := turn env s.db ⟨.getTracksWithSources cursor (some []) limit, faults⟩
        underway := s.underway ++ [found env cursor limit faults s.db] } := by
  rw [Library.step] at h
  split at h
  · cases h
  · case h_2 cursor limit hrequest => exact ⟨cursor, limit, hrequest, (Option.some.inj h).symm⟩

/-- What an answer does. -/
theorem answered_eq_some {s s' : Library ρ} (h : step env s .answered = some s') :
    ∃ answer underway, s.underway = answer :: underway ∧
      s' = { s with widget := s.widget.receive trackId answer, underway } := by
  rw [Library.step] at h
  split at h
  · cases h
  · case h_2 answer underway hunderway =>
    exact ⟨answer, underway, hunderway, (Option.some.inj h).symm⟩

/-- **Every step keeps the system in order.** -/
theorem Sound.step {s s' : Library ρ} {e : Event ρ} (h : Sound s)
    (hstep : step env s e = some s') : Sound s' := by
  cases e with
  | call t =>
    obtain rfl := Option.some.inj hstep
    exact ⟨(Integrity.keptByAll_history _).turn env t h.past, h.limits, h.underway⟩
  | press button =>
    obtain ⟨cursor, hcursor⟩ := exists_paginate button.idx s.widget
    obtain rfl := Option.some.inj hstep
    rw [hcursor]
    exact h.loadPage cursor
  | loadPage cursor =>
    obtain rfl := Option.some.inj hstep
    exact h.loadPage cursor
  | serve faults =>
    obtain ⟨cursor, limit, hrequest, rfl⟩ := serve_eq_some hstep
    refine ⟨(Integrity.keptByAll_history _).turn env _ h.past, h.limits, ?_⟩
    rw [List.length_append, List.length_singleton]
    exact (List.getElem?_eq_some_iff.mp hrequest).1
  | answered =>
    obtain ⟨answer, underway, hunderway, rfl⟩ := answered_eq_some hstep
    have hlength := h.underway
    rw [hunderway, List.length_cons] at hlength
    refine ⟨h.past, ?_, ?_⟩
    · rw [requests_receive]
      exact fun r hr => h.limits r (List.mem_of_mem_tail hr)
    · rw [requests_receive, List.length_tail]
      exact Nat.le_sub_one_of_lt hlength

theorem sound_of_run {cursor : Option ℤ} {es : List (Event ρ)} {s : Library ρ}
    (hrun : (system env cursor).run (mounted cursor) es = some s) : Sound s := by
  refine StateMachine.run_induction (M := system env cursor) (P := fun _ s => Sound s)
    (sound_mounted cursor) ?_ hrun
  intro _ _ _ _ _ ih hstep
  exact ih.step hstep

/-- Every id is positive. -/
theorem trackId_pos (h : Database.History Database.empty db) :
    ∀ row ∈ entries db, 0 < trackId row := by
  intro row hrow
  obtain ⟨track, htrack, rfl⟩ := List.mem_map.mp hrow
  rw [trackId_entry htrack]
  by_contra hle
  obtain ⟨old, hold, -⟩ := h.tracks.old track htrack (Int.not_lt.mp hle)
  exact absurd hold List.not_mem_nil

/-! ## When nothing is written anymore -/

/-- The next one of a list belongs to a prefix of it, too. -/
theorem prefix_concat {α : Type u} {xs ys : List α} {y : α} (h : xs <+: ys)
    (hy : ys[xs.length]? = some y) : xs ++ [y] <+: ys := by
  obtain ⟨rest, rfl⟩ := h
  cases rest with
  | nil =>
    rw [List.append_nil, List.getElem?_eq_none (Nat.le_refl _)] at hy
    cases hy
  | cons y' rest =>
    rw [List.getElem?_append_right (Nat.le_refl _), Nat.sub_self, List.getElem?_cons_zero] at hy
    obtain rfl := Option.some.inj hy
    exact ⟨rest, by rw [List.append_assoc, List.singleton_append]⟩

/-- What is found in some tables for a request. -/
def answerIn (db : Database ρ) (r : Option ℤ × ℕ) : Option (List (Entry ρ)) :=
  some (LibraryWidget.getTracksWithSources trackId (entries db) r.1 r.2)

/-- **Old pages go**: what is underway was found in these tables, but for the first answers,
which are not marked. -/
structure Refreshing (db : Database ρ) (s : Library ρ) (p : Pipeline Bool) : Prop where
  /-- the system is in order -/
  sound : Sound s
  /-- the tables stay -/
  tables : s.db = db
  /-- the answers -/
  pending : ∃ k ≤ s.underway.length,
    p.pending = List.replicate k false ++ List.replicate (s.widget.requests.length - k) true ∧
      s.underway.drop k <+: (s.widget.requests.drop k).map (answerIn db)
  /-- the page -/
  shown : p.shown = true → IsWindow trackId (entries db) s.widget.tracks

/-- **New pages come**: the widget shows windows, and everything underway was found in these
tables. -/
structure Following (db : Database ρ) (s : Library ρ) (p : Pipeline Window) : Prop where
  /-- the system is in order -/
  sound : Sound s
  /-- the tables stay -/
  tables : s.db = db
  /-- the answers -/
  underway : s.underway <+: s.widget.requests.map (answerIn db)
  /-- the pages -/
  shows : Shows trackId (entries db) s.widget p

/-- The turn of an event, if it is one. -/
def Event.turn? : Event ρ → Option Pipeline.Turn
  | .press _ => some .ask
  | .answered => some .answer
  | _ => none

section Quiet

variable {s s' : Library ρ}

/-- Whatever is underway is old. -/
theorem refreshing_start (h : Sound s) : Refreshing s.db s
    ⟨false, List.replicate s.underway.length false ++
      List.replicate (s.widget.requests.length - s.underway.length) true⟩ := by
  refine ⟨h, rfl, ⟨_, Nat.le_refl _, rfl, ?_⟩, nofun⟩
  rw [List.drop_length]
  exact List.nil_prefix

theorem Refreshing.press {p : Pipeline Bool} {button : Button} (h : Refreshing db s p)
    (hstep : step env s (.press button) = some s') :
    Refreshing db s' (p.ask fun _ => true) := by
  have hsound := h.sound.step hstep
  obtain ⟨cursor, hcursor⟩ := exists_paginate button.idx s.widget
  obtain rfl := Option.some.inj hstep
  rw [hcursor] at hsound ⊢
  obtain ⟨k, hk, hpending, hprefix⟩ := h.pending
  have hle := h.sound.underway
  refine ⟨hsound, h.tables, ⟨k, hk, ?_, ?_⟩, h.shown⟩
  · rw [Pipeline.ask, hpending, LibraryWidget.loadPage, List.length_append, List.length_singleton,
      Nat.sub_add_comm (hk.trans hle), List.replicate_succ', List.append_assoc]
  · rw [LibraryWidget.loadPage, List.drop_append_of_le_length (hk.trans hle), List.map_append]
    exact hprefix.trans (List.prefix_append _ _)

theorem Refreshing.serve {p : Pipeline Bool} (hfinds : env.Finds sql db ⟨[]⟩)
    (hreadable : Readable db) (h : Refreshing db s p) (hstep : step env s (.serve []) = some s') :
    Refreshing db s' p := by
  have hsound := h.sound.step hstep
  obtain ⟨cursor, limit, hrequest, rfl⟩ := serve_eq_some hstep
  obtain ⟨k, hk, hpending, hprefix⟩ := h.pending
  obtain ⟨hfound, hturn⟩ := serve_eq hfinds hreadable cursor limit
  rw [h.tables, hfound, hturn] at hsound ⊢
  refine ⟨hsound, rfl, ⟨k, ?_, hpending, ?_⟩, h.shown⟩
  · rw [List.length_append]
    exact Nat.le_add_right_of_le hk
  · rw [List.drop_append_of_le_length hk]
    refine prefix_concat hprefix ?_
    rw [List.length_drop, List.getElem?_map, List.getElem?_drop, Nat.add_sub_cancel' hk, hrequest]
    rfl

theorem Refreshing.answered {p : Pipeline Bool} (hnodup : ((entries db).map trackId).Nodup)
    (hpos : ∀ row ∈ entries db, 0 < trackId row) (h : Refreshing db s p)
    (hstep : step env s .answered = some s') : Refreshing db s' p.answer := by
  have hsound := h.sound.step hstep
  obtain ⟨answer, underway, hunderway, rfl⟩ := answered_eq_some hstep
  obtain ⟨k, hk, hpending, hprefix⟩ := h.pending
  have hle := h.sound.underway
  obtain ⟨shown, pending⟩ := p
  obtain rfl : pending = _ := hpending
  rw [hunderway, List.length_cons] at hk hle
  cases hrequests : s.widget.requests with
  | nil =>
    rw [hrequests] at hle
    exact absurd hle (Nat.not_succ_le_zero _)
  | cons r requests =>
    rw [hunderway, hrequests] at hprefix
    cases k with
    | zero =>
      -- a new page
      obtain ⟨rfl, hrest⟩ := List.cons_prefix_cons.mp hprefix
      refine ⟨hsound, h.tables, ⟨0, Nat.zero_le _, ?_, ?_⟩, fun _ => ?_⟩
      · rw [requests_receive, hrequests]
        rfl
      · rw [requests_receive, hrequests]
        exact hrest
      · obtain ⟨cursor, limit⟩ := r
        obtain rfl : limit = limitFor cursor :=
          h.sound.limits (cursor, limit) (hrequests ▸ List.mem_cons_self)
        have htracks : (s.widget.receive trackId (answerIn db (cursor, limitFor cursor))).tracks =
            pageFor trackId (entries db) cursor := by
          rw [LibraryWidget.receive, hrequests]
          rfl
        rw [htracks]
        exact isWindow_pageFor hnodup hpos cursor
    | succ k =>
      -- one of the old ones
      refine ⟨hsound, h.tables, ⟨k, Nat.le_of_succ_le_succ hk, ?_, ?_⟩, nofun⟩
      · have hlength : (r :: requests).length - (k + 1) = requests.length - k :=
          Nat.add_sub_add_right ..
        rw [requests_receive, hrequests, List.tail_cons, ← hlength]
        rfl
      · rw [requests_receive, hrequests]
        exact hprefix

/-- When all pages are new, the windows are known. -/
theorem Refreshing.following {p : Pipeline Bool} (hnodup : ((entries db).map trackId).Nodup)
    (hpos : ∀ row ∈ entries db, 0 < trackId row) (h : Refreshing db s p)
    (hall : ∀ fresh ∈ p.all, fresh = true) : ∃ q, Following db s q := by
  obtain ⟨k, -, hpending, hprefix⟩ := h.pending
  obtain ⟨hshown, hnew⟩ := List.forall_mem_cons.mp hall
  have hk : k = 0 := by
    rw [hpending] at hnew
    by_contra hne
    have hfalse := hnew false (List.mem_append_left _ (List.mem_replicate.mpr ⟨hne, rfl⟩))
    cases hfalse
  subst hk
  obtain ⟨v, hv, htracks⟩ := h.shown hshown
  obtain ⟨vs, hvs, hrequests⟩ := exists_windows hnodup hpos h.sound.limits
  exact ⟨⟨v, vs⟩, h.sound, h.tables, hprefix, htracks, hrequests,
    List.forall_mem_cons.mpr ⟨hv, hvs⟩⟩

theorem Following.press {p : Pipeline Window} {button : Button}
    (hnodup : ((entries db).map trackId).Nodup) (hpos : ∀ row ∈ entries db, 0 < trackId row)
    (hn : 0 < (orderAsc trackId (entries db)).length) (h : Following db s p)
    (hstep : step env s (.press button) = some s') :
    Following db s' (p.ask (pageTurn (orderAsc trackId (entries db)).length button.idx)) := by
  have hsound := h.sound.step hstep
  obtain rfl := Option.some.inj hstep
  refine ⟨hsound, h.tables, ?_, h.shows.paginate hnodup hpos hn button.idx⟩
  obtain ⟨cursor, hcursor⟩ := exists_paginate button.idx s.widget
  rw [hcursor, LibraryWidget.loadPage, List.map_append]
  exact h.underway.trans (List.prefix_append _ _)

theorem Following.serve {p : Pipeline Window} (hfinds : env.Finds sql db ⟨[]⟩)
    (hreadable : Readable db) (h : Following db s p) (hstep : step env s (.serve []) = some s') :
    Following db s' p := by
  have hsound := h.sound.step hstep
  obtain ⟨cursor, limit, hrequest, rfl⟩ := serve_eq_some hstep
  obtain ⟨hfound, hturn⟩ := serve_eq hfinds hreadable cursor limit
  rw [h.tables, hfound, hturn] at hsound ⊢
  refine ⟨hsound, rfl, prefix_concat h.underway ?_, h.shows⟩
  rw [List.getElem?_map, hrequest]
  rfl

theorem Following.answered {p : Pipeline Window} (h : Following db s p)
    (hstep : step env s .answered = some s') : Following db s' p.answer := by
  have hsound := h.sound.step hstep
  obtain ⟨answer, underway, hunderway, rfl⟩ := answered_eq_some hstep
  have hprefix := h.underway
  rw [hunderway] at hprefix
  cases hrequests : s.widget.requests with
  | nil =>
    rw [hrequests] at hprefix
    exact absurd hprefix.length_le (Nat.not_succ_le_zero _)
  | cons r requests =>
    rw [hrequests] at hprefix
    obtain ⟨rfl, hrest⟩ := List.cons_prefix_cons.mp hprefix
    refine ⟨hsound, h.tables, ?_, ?_⟩
    · rw [requests_receive, hrequests]
      exact hrest
    · obtain ⟨cursor, limit⟩ := r
      rw [answerIn, receive_eq_answered hrequests]
      exact h.shows.answered

end Quiet

/-! ## The library catches up -/

/-- The track is the last one in the direction of a button. -/
def Button.Outermost (db : Database ρ) (row : Entry ρ) : Button → Prop
  | next => ∀ other ∈ entries db, trackId other ≤ trackId row
  | prev => ∀ other ∈ entries db, trackId row ≤ trackId other

/-- A window that does not go on in the direction of a button. -/
def Button.Settled (n : ℕ) (v : Window) : Button → Prop
  | next => v.start < v.stop ∧ v.stop = n
  | prev => v.start = 0 ∧ 0 < v.stop

/-- The outermost track is in such a window. -/
theorem Button.Settled.mem {button : Button} {v : Window} {row : Entry ρ}
    (hnodup : ((entries db).map trackId).Nodup) (hrow : row ∈ entries db)
    (houtermost : button.Outermost db row)
    (h : button.Settled (orderAsc trackId (entries db)).length v) :
    row ∈ v.content (orderAsc trackId (entries db)) := by
  cases button with
  | next =>
    obtain ⟨hlt, hstop⟩ := h
    exact mem_content ⟨by omega, by omega⟩ (getElem?_greatest hnodup hrow houtermost)
  | prev => exact mem_content ⟨h.1.le, h.2⟩ (getElem?_least hnodup hrow houtermost)

theorem Button.eventually_settled (button : Button) {turns : ℕ → Pipeline.Turn}
    {p : Pipeline Window} {n : ℕ} (hn : 0 < n) (hfair : Pipeline.Fair turns)
    (hvalid : ∀ v ∈ p.all, v.Valid n) : ∃ m, ∀ m', m ≤ m' →
      button.Settled n (Pipeline.after (pageTurn n button.idx) turns p m').shown := by
  cases button with
  | next => exact stop_after hn hfair hvalid
  | prev => exact start_prevWindows hn hfair hvalid

/-- From some day on nothing is written anymore, the database does not fail, and a button is used
again and again. -/
structure Quiet (env : Environment ρ) (button : Button) (states : ℕ → Library ρ)
    (events : ℕ → Event ρ) : Prop where
  /-- one step after the other -/
  steps : ∀ n, step env (states n) (events n) = some (states (n + 1))
  /-- what may happen -/
  happens : ∀ n, events n = .press button ∨ events n = .serve [] ∨ events n = .answered
  /-- the button is used -/
  pressed : ∀ n, ∃ m, n ≤ m ∧ events m = .press button
  /-- requests are answered -/
  answered : ∀ n, ∃ m, n ≤ m ∧ events m = .answered

section CatchesUp

variable {button : Button} {states : ℕ → Library ρ} {events : ℕ → Event ρ}

theorem Quiet.turns (h : Quiet env button states events) (k : ℕ) (turn : Pipeline.Turn) (n : ℕ) :
    ∃ m, n ≤ m ∧ (events (k + m)).turn? = some turn := by
  cases turn with
  | ask =>
    obtain ⟨m, hm, hevent⟩ := h.pressed (k + n)
    obtain ⟨d, rfl⟩ := Nat.exists_eq_add_of_le hm
    refine ⟨n + d, Nat.le_add_right n d, ?_⟩
    rw [← Nat.add_assoc, hevent]
    rfl
  | answer =>
    obtain ⟨m, hm, hevent⟩ := h.answered (k + n)
    obtain ⟨d, rfl⟩ := Nat.exists_eq_add_of_le hm
    refine ⟨n + d, Nat.le_add_right n d, ?_⟩
    rw [← Nat.add_assoc, hevent]
    rfl

/-- What the steps do to a pipeline, they do in the long run. -/
theorem Quiet.eventually (h : Quiet env button states events) (k : ℕ) {ω : Type u} {f : ω → ω}
    {R : Library ρ → Pipeline ω → Prop} {P : Pipeline ω → Prop} {p : Pipeline ω}
    (hstart : R (states k) p)
    (hpress : ∀ s s' p, R s p → step env s (.press button) = some s' → R s' (p.ask f))
    (hserve : ∀ s s' p, R s p → step env s (.serve []) = some s' → R s' p)
    (hanswered : ∀ s s' p, R s p → step env s .answered = some s' → R s' p.answer)
    (hP : ∀ turns, Pipeline.Fair turns → ∃ m, ∀ m', m ≤ m' → P (Pipeline.after f turns p m')) :
    ∃ N, ∀ n, N ≤ n → ∃ q, R (states n) q ∧ P q := by
  have hfollows : ∃ N, ∀ n, N ≤ n → ∃ q, R (states (k + n)) q ∧ P q := by
    refine Pipeline.eventually_follows (h.turns k) hstart ?_ ?_ hP
    · intro n p hpause hR
      have hstep := h.steps (k + n)
      rcases h.happens (k + n) with hevent | hevent | hevent <;> rw [hevent] at hpause hstep
      · cases hpause
      · exact hserve _ _ _ hR hstep
      · cases hpause
    · intro n turn p hturn hR
      have hstep := h.steps (k + n)
      rcases h.happens (k + n) with hevent | hevent | hevent <;> rw [hevent] at hturn hstep
      · obtain rfl := Option.some.inj hturn
        exact hpress _ _ _ hR hstep
      · cases hturn
      · obtain rfl := Option.some.inj hturn
        exact hanswered _ _ _ hR hstep
  obtain ⟨N, hN⟩ := hfollows
  refine ⟨k + N, fun n hn => ?_⟩
  obtain ⟨d, rfl⟩ := Nat.exists_eq_add_of_le ((Nat.le_add_right k N).trans hn)
  exact hN d (Nat.add_le_add_iff_left.mp hn)

/-- **The library catches up.** After whatever has happened, when nothing is written anymore, the
database does not fail, its rows can be read, and one of the buttons is used again and again: from
some day on the page is a part of the tracks as they are now, with their sources, and goes as far as
the button leads. -/
theorem catches_up {cursor : Option ℤ} {es : List (Event ρ)} {s : Library ρ}
    (hrun : (system env cursor).run (mounted cursor) es = some s) (hstart : states 0 = s)
    (hquiet : Quiet env button states events) (hfinds : env.Finds sql s.db ⟨[]⟩)
    (hreadable : Readable s.db) :
    ∃ N, ∀ n, N ≤ n → IsWindow trackId (entries s.db) (states n).widget.tracks ∧
      ∀ row ∈ entries s.db, button.Outermost s.db row → row ∈ (states n).widget.tracks := by
  have hsound := sound_of_run hrun
  have hnodup : ((entries s.db).map trackId).Nodup := map_trackId_entries ▸ s.db.trackInfo.nodup
  have hpos := trackId_pos hsound.past
  obtain ⟨p₀, hp₀⟩ : ∃ p, Refreshing s.db (states 0) p := by
    rw [hstart]
    exact ⟨_, refreshing_start hsound⟩
  -- some day all pages are new
  obtain ⟨N, hN⟩ : ∃ N, ∀ n, N ≤ n → ∃ q, Refreshing s.db (states n) q ∧
      ∀ fresh ∈ q.all, fresh = true := by
    refine hquiet.eventually 0 (f := fun _ => true) hp₀
      (fun _ _ _ => Refreshing.press) (fun _ _ _ => Refreshing.serve hfinds hreadable)
      (fun _ _ _ => Refreshing.answered hnodup hpos) fun turns hfair => ?_
    obtain ⟨m, -, hm⟩ := Pipeline.eventually_all (n := 0) (Q := fun _ => True)
      (P := fun fresh => fresh = true) hfair (fun _ _ => trivial) (fun _ _ => rfl)
      fun _ _ => trivial
    exact ⟨m, fun m' hm' => Pipeline.forall_all_after (P := fun fresh => fresh = true)
      (fun _ _ => rfl) hm hm'⟩
  have hwindow : ∀ n, N ≤ n → IsWindow trackId (entries s.db) (states n).widget.tracks := by
    intro n hn
    obtain ⟨q, hq, hall⟩ := hN n hn
    exact hq.shown (hall _ List.mem_cons_self)
  rcases List.eq_nil_or_concat (entries s.db) with hnone | ⟨init, last, hsome⟩
  · -- there is no track
    rw [hnone]
    exact ⟨N, fun n hn => ⟨hnone ▸ hwindow n hn, nofun⟩⟩
  · have hn : 0 < (orderAsc trackId (entries s.db)).length := by
      rw [(orderAsc_perm _).length_eq, hsome, List.concat_eq_append, List.length_append]
      exact Nat.succ_pos _
    obtain ⟨q, hq, hall⟩ := hN N (Nat.le_refl N)
    obtain ⟨p, hp⟩ := hq.following hnodup hpos hall
    -- and some day after that the end is reached
    obtain ⟨N', hN'⟩ := hquiet.eventually N
      (P := fun p => button.Settled (orderAsc trackId (entries s.db)).length p.shown) hp
      (fun _ _ _ => Following.press hnodup hpos hn)
      (fun _ _ _ => Following.serve hfinds hreadable) (fun _ _ _ => Following.answered)
      fun turns hfair => button.eventually_settled hn hfair hp.shows.valid
    refine ⟨max N N', fun n hn => ⟨hwindow n ((Nat.le_max_left N N').trans hn), ?_⟩⟩
    intro row hrow houtermost
    obtain ⟨p', hp', hsettled⟩ := hN' n ((Nat.le_max_right N N').trans hn)
    rw [hp'.shows.tracks]
    exact hsettled.mem hnodup hrow houtermost

/-! ## Two tracks -/

/-- A page is requested when there is one track, and arrives when there are two. -/
def twoTracks : List (Event ℤ) :=
  [.call ⟨.addTrack ⟨"Chopin", "Nocturne", some 270, none, none, "2024", ["nocturne.mp3"]⟩, []⟩,
    .serve [],
    .call ⟨.addTrack ⟨"Liszt", "Consolation", some 240, none, none, "2025", ["liszt.mp3"]⟩, []⟩]

/-- SQLite runs the search for all tracks. -/
def withTracks : Environment ℤ := searching ⟨[]⟩

/-- The library after some events. -/
def afterEvents (s : Library ℤ) (es : List (Event ℤ)) : Library ℤ :=
  es.foldl (fun s e => (step withTracks s e).getD s) s

/-- The answer, the button and its request, again and again. -/
def pressing (n : ℕ) : Event ℤ :=
  match n % 3 with
  | 0 => .answered
  | 1 => .press .next
  | _ => .serve []

/-- What becomes of the library. -/
def pressed : ℕ → Library ℤ
  | 0 => afterEvents (mounted none) twoTracks
  | n + 1 => afterEvents (pressed n) [pressing n]

/-- What is possible, happens. -/
theorem pressed_succ {n : ℕ} {s : Library ℤ}
    (h : step withTracks (pressed n) (pressing n) = some s) : pressed (n + 1) = s := by
  rw [pressed, afterEvents, List.foldl_cons, List.foldl_nil, h, Option.getD_some]

/-- Every event is possible when it is its turn. -/
theorem step_pressed (n : ℕ) :
    (pressed n).widget.requests.length = (if n % 3 = 1 then 0 else 1) ∧
      (pressed n).underway.length = (if n % 3 = 0 then 1 else 0) →
    ∃ s, step withTracks (pressed n) (pressing n) = some s ∧
      s.widget.requests.length = (if (n + 1) % 3 = 1 then 0 else 1) ∧
      s.underway.length = (if (n + 1) % 3 = 0 then 1 else 0) := by
  rintro ⟨hrequests, hunderway⟩
  obtain hn | hn | hn : n % 3 = 0 ∨ n % 3 = 1 ∨ n % 3 = 2 := by omega
  · -- the answer
    have hevent : pressing n = .answered := by simp only [pressing, hn]
    have hnext : (n + 1) % 3 = 1 := by omega
    rw [hn] at hrequests hunderway
    obtain ⟨answer, hone⟩ := List.length_eq_one_iff.mp hunderway
    rw [hevent, step, hone, hnext]
    refine ⟨_, rfl, ?_, rfl⟩
    rw [requests_receive, List.length_tail, hrequests]
    rfl
  · -- the button
    have hevent : pressing n = .press .next := by simp only [pressing, hn]
    have hnext : (n + 1) % 3 = 2 := by omega
    rw [hn] at hrequests hunderway
    obtain ⟨cursor, hpaginate⟩ := exists_paginate Button.next.idx (pressed n).widget
    rw [hevent, step, hpaginate, hnext]
    refine ⟨_, rfl, ?_, hunderway⟩
    rw [LibraryWidget.loadPage, List.length_append, hrequests]
    rfl
  · -- its request
    have hevent : pressing n = .serve [] := by simp only [pressing, hn]
    have hnext : (n + 1) % 3 = 0 := by omega
    rw [hn] at hrequests hunderway
    obtain ⟨⟨cursor, limit⟩, hone⟩ := List.length_eq_one_iff.mp hrequests
    have hnone : (pressed n).underway = [] := List.eq_nil_of_length_eq_zero hunderway
    rw [hevent, step, hone, hnone, hnext]
    exact ⟨_, rfl, congrArg List.length hone, rfl⟩

/-- How much is requested and underway. -/
theorem counts_pressed (n : ℕ) :
    (pressed n).widget.requests.length = (if n % 3 = 1 then 0 else 1) ∧
      (pressed n).underway.length = (if n % 3 = 0 then 1 else 0) := by
  induction n with
  | zero => exact ⟨rfl, rfl⟩
  | succ n ih =>
    obtain ⟨s, hstep, hcounts⟩ := step_pressed n ih
    rw [pressed_succ hstep]
    exact hcounts

/-- The button is used again and again, and nothing is written. -/
theorem quiet_pressed : Quiet withTracks .next pressed pressing where
  steps n := by
    obtain ⟨s, hstep, -⟩ := step_pressed n (counts_pressed n)
    rw [hstep, pressed_succ hstep]
  happens n := by
    obtain hn | hn | hn : n % 3 = 0 ∨ n % 3 = 1 ∨ n % 3 = 2 := by omega
    · exact .inr (.inr (by simp only [pressing, hn]))
    · exact .inl (by simp only [pressing, hn])
    · exact .inr (.inl (by simp only [pressing, hn]))
  pressed n := by
    refine ⟨3 * n + 1, by omega, ?_⟩
    simp only [pressing, show (3 * n + 1) % 3 = 1 by omega]
  answered n := by
    refine ⟨3 * n, by omega, ?_⟩
    simp only [pressing, show 3 * n % 3 = 0 by omega]

theorem catches_up_twoTracks :
    ∃ N, ∀ n, N ≤ n → 2 ∈ (pressed n).widget.tracks.map trackId := by
  have hrun : (system withTracks none).run (mounted none) twoTracks = some (pressed 0) := rfl
  have htotals : (pressed 0).db.trackInfo.rows.map TrackInfo.listenedSeconds =
      [.integer 0, .integer 0] := by decide +kernel
  have hreadable : Readable (pressed 0).db := by
    intro row hrow
    have hmem := htotals ▸ List.mem_map_of_mem (f := TrackInfo.listenedSeconds) hrow
    rcases List.mem_pair.mp hmem with htotal | htotal <;> exact ⟨0, htotal⟩
  obtain ⟨N, hN⟩ := catches_up hrun rfl quiet_pressed (finds_searching ⟨[]⟩ _) hreadable
  have hids : (entries (pressed 0).db).map trackId = [1, 2] := by decide +kernel
  obtain ⟨row, hrow, hid⟩ : ∃ row ∈ entries (pressed 0).db, trackId row = 2 :=
    List.mem_map.mp (hids ▸ List.mem_of_getElem? (i := 1) rfl)
  refine ⟨N, fun n hn => List.mem_map.mpr ⟨row, (hN n hn).2 row hrow fun other hother => ?_, hid⟩⟩
  have hother : trackId other ∈ [1, 2] := hids ▸ List.mem_map_of_mem hother
  rcases List.mem_pair.mp hother with hother | hother <;> omega

end CatchesUp

end Library

end Vamp
