import Vamp.Pipeline
import Vamp.SqlPage

/-!
# Paging through the library

`LibraryWidget` shows a page of tracks around a cursor. It requests the next page with a track
of the page that is shown now as the cursor, and shows what is answered. It may be asked for
pages while requests are pending, which are answered in order.

A page is a part of the tracks in the order of their ids, a `Window`. What paging does to windows
is arithmetic (`pageTurn`), and the requests are a `Pipeline` of windows (`Shows`). The next
window ends later and touches the one before, and the previous one starts earlier; so no track
is missed (`paging_misses_nothing`).
-/

namespace Vamp

universe u

/-! ## The widget -/

/-- `HALF_PAGE_SIZE`. -/
def halfPageSize : ℕ := 10

/-- `PAGE_SIZE`. -/
def pageSize : ℕ := 20

/-- `LibraryWidget`, without criteria. -/
structure LibraryWidget (α : Type u) : Type u where
  /-- the page -/
  tracks : List α
  /-- the cursor for a reload -/
  cursor : Option ℤ
  /-- the requests that are pending: a cursor and a limit -/
  requests : List (Option ℤ × ℕ)

namespace LibraryWidget

open SqlPage

variable {α : Type u}

/-- `loadPage`, until it waits for the answer. -/
def loadPage (fromCursor : Option ℤ) (w : LibraryWidget α) : LibraryWidget α :=
  let limit := if fromCursor = none then pageSize else halfPageSize
  { w with requests := w.requests ++ [(fromCursor, limit)] }

/-- The widget when it was mounted without a cursor. -/
def mounted : LibraryWidget α := loadPage none ⟨[], none, []⟩

/-- What happens to the widget. -/
inductive Event : Type where
  | handlePageNext
  | handlePagePrev
  /-- the oldest request is answered -/
  | answered
  deriving DecidableEq

variable (key : α → ℤ) (rows : List α)

/-- `getTracksWithSources`, for tracks with these ids. Without a cursor it starts at 0. -/
def getTracksWithSources (cursor : Option ℤ) (limit : ℕ) : List α :=
  page key (cursor.getD 0) limit rows

/-- `paginate`. There is no track at the index if and only if there is none at all. -/
def paginate (idx : ℕ) (w : LibraryWidget α) : LibraryWidget α :=
  match w.tracks[min idx (w.tracks.length - 1)]? with
  | none => w.loadPage none
  | some track => w.loadPage (some (key track))

/-- `handlePageNext`. -/
def handlePageNext (w : LibraryWidget α) : LibraryWidget α :=
  w.paginate key (halfPageSize + halfPageSize / 2)

/-- `handlePagePrev`. -/
def handlePagePrev (w : LibraryWidget α) : LibraryWidget α :=
  w.paginate key (halfPageSize / 2)

/-- `loadPage`, with the answer. -/
def answered (w : LibraryWidget α) : LibraryWidget α :=
  match w.requests with
  | [] => w
  | (fromCursor, limit) :: requests =>
    let withSources := getTracksWithSources key rows fromCursor limit
    let pos := min (withSources.length - 1) halfPageSize
    ⟨withSources, withSources[pos]?.map key, requests⟩

/-- What an event does. -/
def step (w : LibraryWidget α) : Event → LibraryWidget α
  | .handlePageNext => w.handlePageNext key
  | .handlePagePrev => w.handlePagePrev key
  | .answered => w.answered key rows

/-- Some events of a run that does not end, in which only one of the two buttons is used. -/
def after (button : Event) (turns : ℕ → Pipeline.Turn) (w : LibraryWidget α) :
    ℕ → LibraryWidget α
  | 0 => w
  | n + 1 => (after button turns w n).step key rows <|
    match turns n with
    | .ask => button
    | .answer => .answered

/-! ## Windows -/

/-- A part of a list. -/
structure Window : Type where
  /-- the first index -/
  start : ℕ
  /-- the index after the last one -/
  stop : ℕ
  deriving DecidableEq

/-- What is in a window. -/
def Window.content (sorted : List α) (v : Window) : List α := (sorted.take v.stop).drop v.start

/-- Nothing is shown yet. -/
def noWindow : Window := ⟨0, 0⟩

/-- The window without a cursor. -/
def firstWindow (n : ℕ) : Window := ⟨0, min n pageSize⟩

/-- The window around an index. -/
def windowAround (n c : ℕ) : Window := ⟨c - halfPageSize, min n (c + halfPageSize)⟩

/-- The window that is requested with the index `idx`. -/
def pageTurn (n idx : ℕ) (v : Window) : Window :=
  if v.stop ≤ v.start then firstWindow n
  else windowAround n (v.start + min idx (v.stop - v.start - 1))

/-- A window of a list of length `n`, or nothing. -/
def Window.Valid (n : ℕ) (v : Window) : Prop :=
  v = noWindow ∨ (v.start < v.stop ∧ v.stop ≤ n ∧ v.stop ≤ v.start + pageSize)

section Arithmetic

variable {n idx : ℕ} {v : Window}

/-- Without a page, the first one is requested. -/
theorem pageTurn_noWindow : pageTurn n idx noWindow = firstWindow n := if_pos (Nat.le_refl 0)

theorem valid_pageTurn (hn : 0 < n) (h : v.Valid n) : (pageTurn n idx v).Valid n := by
  refine .inr ?_
  unfold pageTurn
  split
  · simp only [firstWindow, pageSize]
    omega
  · have hidx := Nat.min_le_right idx (v.stop - v.start - 1)
    rcases h with rfl | h
    · exact absurd (Nat.le_refl 0) ‹_›
    · simp only [windowAround, halfPageSize, pageSize]
      omega

theorem valid_firstWindow (hn : 0 < n) : (firstWindow n).Valid n := by
  have hturn : pageTurn n 0 noWindow = firstWindow n := pageTurn_noWindow
  rw [← hturn]
  exact valid_pageTurn hn (.inl rfl)

/-- The next window starts where there is no gap, and ends later. -/
theorem pageTurn_next (hn : 0 < n) (h : v.Valid n) :
    (pageTurn n 15 v).start ≤ v.stop ∧ v.start ≤ (pageTurn n 15 v).stop ∧
      min n (v.stop + 5) ≤ (pageTurn n 15 v).stop := by
  rcases h with rfl | ⟨hlt, hle, hsize⟩
  · rw [pageTurn_noWindow]
    simp only [noWindow, firstWindow, pageSize]
    omega
  · rw [pageTurn, if_neg (Nat.not_le.mpr hlt)]
    simp only [windowAround, halfPageSize]
    simp only [pageSize] at hsize
    omega

/-- The previous window starts earlier. -/
theorem pageTurn_prev : (pageTurn n 5 v).start ≤ v.start - 5 := by
  unfold pageTurn
  split
  · exact Nat.zero_le _
  · have hidx := Nat.min_le_left 5 (v.stop - v.start - 1)
    simp only [windowAround, halfPageSize]
    omega

theorem stop_pageTurn_pos (hn : 0 < n) : 0 < (pageTurn n idx v).stop := by
  unfold pageTurn
  split
  · simp only [firstWindow, pageSize]
    omega
  · simp only [windowAround, halfPageSize]
    omega

end Arithmetic

/-! ## Pages are windows -/

section Pages

variable {key rows} {sorted : List α}

/-- The page around a row is the window around its index. -/
theorem getTracksWithSources_some (hnodup : (rows.map key).Nodup) {c : ℕ} {row : α}
    (hrow : (orderAsc key rows)[c]? = some row) :
    getTracksWithSources key rows (some (key row)) halfPageSize =
      (windowAround (orderAsc key rows).length c).content (orderAsc key rows) := by
  rw [getTracksWithSources, page_eq hnodup _ (Int.natCast_nonneg _), Option.getD_some,
    Int.toNat_natCast, around_getElem (ascending_orderAsc hnodup) hrow, Window.content,
    windowAround]
  dsimp only
  rw [Nat.min_comm, ← List.take_eq_take_min]

/-- The page without a cursor is the first window. -/
theorem getTracksWithSources_none (hnodup : (rows.map key).Nodup)
    (hpos : ∀ row ∈ rows, 0 < key row) :
    getTracksWithSources key rows none pageSize =
      (firstWindow (orderAsc key rows).length).content (orderAsc key rows) := by
  have hpos' : ∀ row ∈ orderAsc key rows, 0 < key row := fun row hrow =>
    hpos row ((orderAsc_perm rows).mem_iff.mp hrow)
  have hbefore : ((orderAsc key rows).filter fun row => key row < 0) = [] := by
    refine List.filter_eq_nil_iff.mpr fun row hrow => ?_
    have hlt := hpos' row hrow
    simp only [decide_eq_true_eq]
    omega
  have hafter : ((orderAsc key rows).filter fun row => 0 ≤ key row) = orderAsc key rows :=
    List.filter_eq_self.mpr fun row hrow => decide_eq_true (Int.le_of_lt (hpos' row hrow))
  rw [getTracksWithSources, page_eq hnodup _ (Int.natCast_nonneg _), around, Option.getD_none,
    hbefore, hafter, Int.toNat_natCast, Window.content, firstWindow]
  dsimp only
  rw [List.drop_zero, Nat.min_comm, ← List.take_eq_take_min]
  rfl

theorem length_content {v : Window} (h : v.Valid sorted.length) :
    (v.content sorted).length = v.stop - v.start := by
  rw [Window.content, List.length_drop, List.length_take]
  rcases h with rfl | h
  · rfl
  · omega

/-- The rows of a window. -/
theorem getElem?_content {v : Window} {i : ℕ} (hi : i < v.stop - v.start) :
    (v.content sorted)[i]? = sorted[v.start + i]? := by
  rw [Window.content, List.getElem?_drop, List.getElem?_take, if_pos (by omega)]

/-- **The widget shows windows**, and has requested others. -/
structure Shows (key : α → ℤ) (rows : List α) (w : LibraryWidget α) (p : Pipeline Window) :
    Prop where
  /-- what is shown -/
  tracks : w.tracks = p.shown.content (orderAsc key rows)
  /-- what will be answered -/
  requests : (w.requests.map fun (cursor, limit) => getTracksWithSources key rows cursor limit) =
    p.pending.map (Window.content (orderAsc key rows))
  /-- they are windows of the library -/
  valid : ∀ v ∈ p.all, v.Valid (orderAsc key rows).length

section Steps

variable {w : LibraryWidget α} {p : Pipeline Window}

/-- A request whose answer is a window. -/
theorem Shows.loadPage (h : Shows key rows w p) (turn : Window → Window) {cursor : Option ℤ}
    (hvalid : (turn p.shown).Valid (orderAsc key rows).length)
    (hpage : getTracksWithSources key rows cursor
        (if cursor = none then pageSize else halfPageSize) =
      (turn p.shown).content (orderAsc key rows)) :
    Shows key rows (w.loadPage cursor) (p.ask turn) := by
  refine ⟨h.tracks, ?_, ?_⟩
  · rw [LibraryWidget.loadPage, Pipeline.ask, List.map_append, List.map_append, h.requests]
    exact congrArg _ (congrArg (fun page => [page]) hpage)
  · exact List.forall_mem_append.mpr ⟨h.valid, List.forall_mem_singleton.mpr hvalid⟩

/-- An answer shows a window. -/
theorem Shows.answered (h : Shows key rows w p) :
    Shows key rows (w.answered key rows) p.answer := by
  obtain ⟨tracks, cursor, requests⟩ := w
  obtain ⟨shown, pending⟩ := p
  obtain ⟨htracks, hrequests, hvalid⟩ := h
  cases requests with
  | nil =>
    obtain rfl : pending = [] := List.map_eq_nil_iff.mp hrequests.symm
    exact ⟨htracks, rfl, hvalid⟩
  | cons request requests =>
    cases pending with
    | nil => cases hrequests
    | cons v pending =>
      obtain ⟨hpage, hrest⟩ := List.cons.inj hrequests
      exact ⟨hpage, hrest, fun v hv => hvalid v (List.mem_cons_of_mem _ hv)⟩

variable (hnodup : (rows.map key).Nodup) (hpos : ∀ row ∈ rows, 0 < key row)
  (hn : 0 < (orderAsc key rows).length)

include hnodup hpos hn

/-- A button requests a window. -/
theorem Shows.paginate (h : Shows key rows w p) (idx : ℕ) :
    Shows key rows (w.paginate key idx)
      (p.ask (pageTurn (orderAsc key rows).length idx)) := by
  have hshown := h.valid _ List.mem_cons_self
  have hvalid : (pageTurn (orderAsc key rows).length idx p.shown).Valid _ :=
    valid_pageTurn hn hshown
  have hlength := length_content hshown
  rw [← h.tracks] at hlength
  rcases hshown with hnone | ⟨hlt, hle, -⟩
  · -- there is no page yet
    have hturn : pageTurn (orderAsc key rows).length idx p.shown =
        firstWindow (orderAsc key rows).length := by
      rw [hnone, pageTurn_noWindow]
    have hnil : w.tracks = [] := by rw [h.tracks, hnone]; rfl
    have hpaginate : w.paginate key idx = w.loadPage none := by
      rw [LibraryWidget.paginate, hnil]
      rfl
    rw [hpaginate]
    refine h.loadPage _ hvalid ?_
    rw [hturn]
    exact getTracksWithSources_none hnodup hpos
  · -- a track of the page is the cursor
    have hidx := Nat.min_le_right idx (p.shown.stop - p.shown.start - 1)
    obtain ⟨row, hrow⟩ : ∃ row, (orderAsc key rows)[p.shown.start +
        min idx (p.shown.stop - p.shown.start - 1)]? = some row :=
      ⟨_, List.getElem?_eq_getElem (by omega)⟩
    have hturn : pageTurn (orderAsc key rows).length idx p.shown =
        windowAround (orderAsc key rows).length
          (p.shown.start + min idx (p.shown.stop - p.shown.start - 1)) :=
      if_neg (Nat.not_le.mpr hlt)
    have hcursor : w.tracks[min idx (w.tracks.length - 1)]? = some row := by
      rw [hlength, h.tracks, getElem?_content (by omega)]
      exact hrow
    have hpaginate : w.paginate key idx = w.loadPage (some (key row)) := by
      rw [LibraryWidget.paginate, hcursor]
    rw [hpaginate]
    refine h.loadPage _ hvalid ?_
    rw [hturn]
    exact getTracksWithSources_some hnodup hrow

/-- The first request. -/
theorem shows_mounted :
    Shows key rows mounted ⟨noWindow, [firstWindow (orderAsc key rows).length]⟩ := by
  have hstart : Shows key rows (⟨[], none, []⟩ : LibraryWidget α) ⟨noWindow, []⟩ :=
    ⟨rfl, rfl, List.forall_mem_singleton.mpr (.inl rfl)⟩
  exact hstart.loadPage (fun _ => firstWindow _) (valid_firstWindow hn)
    (getTracksWithSources_none hnodup hpos)

/-- Whatever happens, windows are shown. -/
theorem shows_events (events : List Event) :
    ∃ p, Shows key rows (events.foldl (step key rows) mounted) p := by
  induction events using List.reverseRecOn with
  | nil => exact ⟨_, shows_mounted hnodup hpos hn⟩
  | append_singleton events event ih =>
    obtain ⟨p, hp⟩ := ih
    rw [List.foldl_append]
    cases event with
    | handlePageNext => exact ⟨_, hp.paginate hnodup hpos hn _⟩
    | handlePagePrev => exact ⟨_, hp.paginate hnodup hpos hn _⟩
    | answered => exact ⟨_, hp.answered⟩

/-- A run with one of the buttons. -/
theorem Shows.after {button : Event} {idx : ℕ}
    (hbutton : ∀ w : LibraryWidget α, w.step key rows button = w.paginate key idx)
    (h : Shows key rows w p) (turns : ℕ → Pipeline.Turn) (m : ℕ) :
    Shows key rows (after key rows button turns w m)
      (Pipeline.after (pageTurn (orderAsc key rows).length idx) turns p m) := by
  induction m with
  | zero => exact h
  | succ m ih =>
    rw [LibraryWidget.after, Pipeline.after]
    cases turns m with
    | ask =>
      rw [hbutton]
      exact ih.paginate hnodup hpos hn idx
    | answer => exact ih.answered

end Steps

/-- A row of a window is shown. -/
theorem mem_content {v : Window} {i : ℕ} {row : α} (hi : v.start ≤ i ∧ i < v.stop)
    (hrow : sorted[i]? = some row) : row ∈ v.content sorted := by
  refine List.mem_of_getElem? (i := i - v.start) ?_
  rw [getElem?_content (by omega), Nat.add_sub_cancel' hi.1]
  exact hrow

/-- The row with the greatest id is the last one. -/
theorem getElem?_greatest (hnodup : (rows.map key).Nodup) {row : α} (hrow : row ∈ rows)
    (hgreatest : ∀ other ∈ rows, key other ≤ key row) :
    (orderAsc key rows)[(orderAsc key rows).length - 1]? = some row := by
  have hsorted : row ∈ orderAsc key rows := (orderAsc_perm rows).mem_iff.mpr hrow
  obtain ⟨i, hi, rfl⟩ := List.getElem_of_mem hsorted
  have hlast : i = (orderAsc key rows).length - 1 := by
    by_contra hne
    have hlt := List.pairwise_iff_getElem.mp (ascending_orderAsc hnodup) i
      ((orderAsc key rows).length - 1) hi (by omega) (by omega)
    exact absurd hlt (Int.not_lt.mpr
      (hgreatest _ ((orderAsc_perm rows).mem_iff.mp (List.getElem_mem _))))
  rw [← hlast]
  exact List.getElem?_eq_getElem hi

/-- The row with the least id is the first one. -/
theorem getElem?_least (hnodup : (rows.map key).Nodup) {row : α} (hrow : row ∈ rows)
    (hleast : ∀ other ∈ rows, key row ≤ key other) : (orderAsc key rows)[0]? = some row := by
  have hsorted : row ∈ orderAsc key rows := (orderAsc_perm rows).mem_iff.mpr hrow
  obtain ⟨i, hi, rfl⟩ := List.getElem_of_mem hsorted
  have hfirst : i = 0 := by
    by_contra hne
    have hlt := List.pairwise_iff_getElem.mp (ascending_orderAsc hnodup) 0 i (by omega) hi
      (by omega)
    exact absurd hlt (Int.not_lt.mpr
      (hleast _ ((orderAsc_perm rows).mem_iff.mp (List.getElem_mem _))))
  subst hfirst
  exact List.getElem?_eq_getElem hi

end Pages

/-! ## Nothing is missed -/

/-- There is no gap between the windows. -/
def Window.Adjoins (v v' : Window) : Prop := v'.start ≤ v.stop ∧ v.start ≤ v'.stop

section Nothing

variable {n : ℕ} (turns : ℕ → Pipeline.Turn) {p : Pipeline Window}

/-- The windows of a run with `handlePageNext`, from the first request. -/
def nextWindows (n m : ℕ) : Pipeline Window :=
  Pipeline.after (pageTurn n 15) turns ⟨noWindow, [firstWindow n]⟩ m

/-- What is shown after one more turn. -/
theorem shown_nextWindows (n m : ℕ) :
    (nextWindows turns n (m + 1)).shown = (nextWindows turns n m).shown ∨
      (nextWindows turns n (m + 1)).shown = pageTurn n 15 (nextWindows turns n m).shown := by
  have hfresh : Pipeline.InStep (pageTurn n 15) noWindow ⟨noWindow, [firstWindow n]⟩ := by
    rw [← pageTurn_noWindow]
    exact Pipeline.inStep_fresh _ _
  exact Pipeline.shown_step (Pipeline.inStep_after turns hfresh m) (turns m)

theorem valid_nextWindows (hn : 0 < n) (m : ℕ) :
    ∀ v ∈ (nextWindows turns n m).all, v.Valid n := by
  refine Pipeline.forall_all_after (n := 0) (fun v hv => valid_pageTurn hn hv) ?_ (Nat.zero_le m)
  exact List.forall_mem_cons.mpr
    ⟨.inl rfl, List.forall_mem_singleton.mpr (valid_firstWindow hn)⟩

/-- Consecutive windows leave no gap. -/
theorem adjoins_nextWindows (hn : 0 < n) (m : ℕ) :
    (nextWindows turns n m).shown.Adjoins (nextWindows turns n (m + 1)).shown := by
  have hvalid := valid_nextWindows turns hn m _ List.mem_cons_self
  rcases shown_nextWindows turns n m with hsame | hnext
  · rw [hsame]
    rcases hvalid with hnone | ⟨hlt, -, -⟩
    · rw [hnone]
      exact ⟨Nat.le_refl 0, Nat.le_refl 0⟩
    · exact ⟨Nat.le_of_lt hlt, Nat.le_of_lt hlt⟩
  · rw [hnext]
    obtain ⟨hstart, hstop, -⟩ := pageTurn_next hn hvalid
    exact ⟨hstart, hstop⟩

/-- What is before the end of the window was shown. -/
theorem covered_nextWindows (hn : 0 < n) (m : ℕ) {i : ℕ}
    (hi : i < (nextWindows turns n m).shown.stop) :
    ∃ m', m' ≤ m ∧ (nextWindows turns n m').shown.start ≤ i ∧
      i < (nextWindows turns n m').shown.stop := by
  induction m with
  | zero => exact absurd hi (Nat.not_lt_zero i)
  | succ m ih =>
    by_cases hlt : i < (nextWindows turns n m).shown.stop
    · obtain ⟨m', hm', hcovered⟩ := ih hlt
      exact ⟨m', by omega, hcovered⟩
    · obtain ⟨hstart, -⟩ := adjoins_nextWindows turns hn m
      exact ⟨m + 1, Nat.le_refl _, by omega, hi⟩

variable {turns}

/-- The end is reached. -/
theorem stop_nextWindows (hn : 0 < n) (hfair : Pipeline.Fair turns) :
    ∃ m, ∀ m', m ≤ m' → (nextWindows turns n m').shown.stop = n := by
  have hrank : ∀ v : Window, v.Valid n → n - (pageTurn n 15 v).stop ≤ n - v.stop - 1 := by
    intro v hv
    have hstop := (pageTurn_next hn hv).2.2
    omega
  have hreached := Pipeline.eventually_rank_zero (fun v : Window => n - v.stop) hfair
    (fun v hv => valid_pageTurn hn hv) hrank (valid_nextWindows turns hn 0)
  obtain ⟨m, hm⟩ := hreached
  refine ⟨m, fun m' hm' => ?_⟩
  obtain ⟨hvalid, hrank⟩ := hm m' hm' _ List.mem_cons_self
  have hle : (nextWindows turns n m').shown.stop ≤ n := by
    rcases hvalid with hnone | ⟨-, hle, -⟩
    · exact (congrArg Window.stop hnone).trans_le (Nat.zero_le n)
    · exact hle
  exact Nat.le_antisymm hle (Nat.le_of_sub_eq_zero hrank)

/-- How far a window is from the start. Nothing ranks above the first windows. -/
def Window.rank (v : Window) : ℕ := if v.stop = 0 then 1 else v.start

theorem rank_pageTurn_prev (hn : 0 < n) {v : Window} (h : v.Valid n) :
    (pageTurn n 5 v).rank ≤ v.rank - 1 := by
  have hstart := pageTurn_prev (n := n) (v := v)
  have hstop : 0 < (pageTurn n 5 v).stop := stop_pageTurn_pos hn
  unfold Window.rank
  rw [if_neg (Nat.ne_of_gt hstop)]
  split
  · rcases h with rfl | ⟨hlt, -, -⟩
    · exact hstart
    · omega
  · omega

/-- The start is reached with `handlePagePrev`. -/
theorem start_prevWindows (hn : 0 < n) (hfair : Pipeline.Fair turns)
    (hvalid : ∀ v ∈ p.all, v.Valid n) :
    ∃ m, ∀ m', m ≤ m' → (Pipeline.after (pageTurn n 5) turns p m').shown.start = 0 ∧
      0 < (Pipeline.after (pageTurn n 5) turns p m').shown.stop := by
  have hreached := Pipeline.eventually_rank_zero Window.rank hfair
    (fun v hv => valid_pageTurn hn hv) (fun v hv => rank_pageTurn_prev hn hv) hvalid
  obtain ⟨m, hm⟩ := hreached
  refine ⟨m, fun m' hm' => ?_⟩
  obtain ⟨-, hrank⟩ := hm m' hm' _ List.mem_cons_self
  unfold Window.rank at hrank
  split at hrank
  · cases hrank
  · exact ⟨hrank, Nat.pos_of_ne_zero ‹_›⟩

end Nothing

section Library

variable {key rows} (hnodup : (rows.map key).Nodup) (hpos : ∀ row ∈ rows, 0 < key row)
  (hn : 0 < (orderAsc key rows).length) (turns : ℕ → Pipeline.Turn)

include hnodup hpos hn

/-- What is shown with `handlePageNext`. -/
theorem tracks_after_next (m : ℕ) :
    (after key rows .handlePageNext turns mounted m).tracks =
      (nextWindows turns (orderAsc key rows).length m).shown.content (orderAsc key rows) :=
  (Shows.after hnodup hpos hn (fun _ => rfl) (shows_mounted hnodup hpos hn) turns m).tracks

/-- Every track is shown with `handlePageNext`, and the last one stays. -/
theorem next_reaches_last (hfair : Pipeline.Fair turns) :
    ∃ m, (∀ row ∈ rows, ∃ m', m' ≤ m ∧
        row ∈ (after key rows .handlePageNext turns mounted m').tracks) ∧
      ∀ m', m ≤ m' → ∀ row ∈ rows, (∀ other ∈ rows, key other ≤ key row) →
        row ∈ (after key rows .handlePageNext turns mounted m').tracks := by
  obtain ⟨m, hstop⟩ := stop_nextWindows hn hfair
  refine ⟨m, fun row hrow => ?_, fun m' hm' row hrow hgreatest => ?_⟩
  · have hsorted : row ∈ orderAsc key rows := (orderAsc_perm rows).mem_iff.mpr hrow
    obtain ⟨i, hi⟩ := List.mem_iff_getElem?.mp hsorted
    obtain ⟨hlt, -⟩ := List.getElem?_eq_some_iff.mp hi
    rw [← hstop m (Nat.le_refl m)] at hlt
    obtain ⟨m', hm', hwindow⟩ := covered_nextWindows turns hn m hlt
    refine ⟨m', hm', ?_⟩
    rw [tracks_after_next hnodup hpos hn]
    exact mem_content hwindow hi
  · rw [tracks_after_next hnodup hpos hn]
    refine mem_content ?_ (getElem?_greatest hnodup hrow hgreatest)
    have hend := hstop m' hm'
    rcases valid_nextWindows turns hn m' _ List.mem_cons_self with hnone | ⟨hlt, -, -⟩
    · rw [hnone] at hend
      exact absurd hend (Nat.ne_of_lt hn)
    · omega

/-- The first track is reached with `handlePagePrev`, and stays. -/
theorem prev_reaches_first (events : List Event) (hfair : Pipeline.Fair turns) :
    ∃ m, ∀ m', m ≤ m' → ∀ row ∈ rows, (∀ other ∈ rows, key row ≤ key other) →
      row ∈ (after key rows .handlePagePrev turns
        (events.foldl (step key rows) mounted) m').tracks := by
  obtain ⟨p, hshows⟩ := shows_events hnodup hpos hn events
  obtain ⟨m, hm⟩ := start_prevWindows hn hfair hshows.valid
  refine ⟨m, fun m' hm' row hrow hleast => ?_⟩
  obtain ⟨hstart, hstop⟩ := hm m' hm'
  have hbutton : ∀ w : LibraryWidget α, w.step key rows .handlePagePrev = w.paginate key 5 :=
    fun _ => rfl
  have hafter := hshows.after hnodup hpos hn hbutton turns m'
  rw [hafter.tracks]
  exact mem_content ⟨hstart.le, hstop⟩ (getElem?_least hnodup hrow hleast)

end Library

/-- **Paging misses nothing.** The pages that are shown with `handlePageNext` are windows without
a gap between one and the next. If requests and answers never stop, every track was shown some
day, and from then on the last track is on the page. And from whatever page, the first track is
on the page some day with `handlePagePrev`, and stays. -/
theorem paging_misses_nothing (hnodup : (rows.map key).Nodup)
    (hpos : ∀ row ∈ rows, 0 < key row) (hsome : rows ≠ []) (turns : ℕ → Pipeline.Turn) :
    (∃ windows : ℕ → Window, ∀ m,
      (after key rows .handlePageNext turns mounted m).tracks =
        (windows m).content (orderAsc key rows) ∧
      (windows m).Valid (orderAsc key rows).length ∧
      (windows m).Adjoins (windows (m + 1))) ∧
    (Pipeline.Fair turns →
      (∃ m, (∀ row ∈ rows, ∃ m', m' ≤ m ∧
          row ∈ (after key rows .handlePageNext turns mounted m').tracks) ∧
        ∀ m', m ≤ m' → ∀ row ∈ rows, (∀ other ∈ rows, key other ≤ key row) →
          row ∈ (after key rows .handlePageNext turns mounted m').tracks) ∧
      ∀ events : List Event, ∃ m, ∀ m', m ≤ m' →
        ∀ row ∈ rows, (∀ other ∈ rows, key row ≤ key other) →
          row ∈ (after key rows .handlePagePrev turns
            (events.foldl (step key rows) mounted) m').tracks) := by
  have hn : 0 < (orderAsc key rows).length := by
    rw [(orderAsc_perm rows).length_eq]
    exact List.length_pos_of_ne_nil hsome
  refine ⟨⟨fun m => (nextWindows turns (orderAsc key rows).length m).shown, fun m => ?_⟩,
    fun hfair => ⟨?_, fun events => ?_⟩⟩
  · exact ⟨tracks_after_next hnodup hpos hn turns m,
      valid_nextWindows turns hn m _ List.mem_cons_self, adjoins_nextWindows turns hn m⟩
  · exact next_reaches_last hnodup hpos hn turns hfair
  · exact prev_reaches_first hnodup hpos hn turns events hfair

/-- Every request is answered before the next one. -/
theorem fair_alternating :
    Pipeline.Fair fun m => if m % 2 = 0 then .answer else .ask := by
  intro turn n
  cases turn with
  | ask => exact ⟨2 * n + 1, by omega, if_neg (by omega)⟩
  | answer => exact ⟨2 * n, by omega, if_pos (by omega)⟩

/-- The tracks 1 to 25, and back from the last page. -/
theorem paging_misses_nothing_twentyFive :
    let turns : ℕ → Pipeline.Turn := fun m => if m % 2 = 0 then .answer else .ask
    let rows := (List.range 25).map fun i => Int.ofNat (i + 1)
    (∃ m, ∀ m', m ≤ m' → 25 ∈ (after id rows .handlePageNext turns mounted m').tracks) ∧
      ∃ m, ∀ m', m ≤ m' → 1 ∈ (after id rows .handlePagePrev turns
        ([.answered, .handlePageNext, .answered].foldl (step id rows) mounted) m').tracks := by
  intro turns rows
  obtain ⟨-, hfair⟩ := paging_misses_nothing id rows (by decide) (by decide) (by decide) turns
  obtain ⟨⟨m, -, hlast⟩, hprev⟩ := hfair fair_alternating
  obtain ⟨m₁, hfirst⟩ := hprev [.answered, .handlePageNext, .answered]
  exact ⟨⟨m, fun m' hm' => hlast m' hm' 25 (by decide) (by decide)⟩,
    ⟨m₁, fun m' hm' => hfirst m' hm' 1 (by decide) (by decide)⟩⟩

end LibraryWidget

end Vamp
