import Vamp.Blocks
import Vamp.StateMachine

/-!
# The listen tracker

`ListenTracker` of `useListenTracker.ts` counts the seconds in which a track plays, and gives a
credit for every ten of them. Its documentation says that a change of the track resets the
count. No code does. So ten seconds that were counted for several tracks are credited to the
last one of them: a track gets credit for at most what was played of it, if and only if
all tens of counted seconds, from the first one on, are of one track each
(`credits_played_iff`).
-/

namespace Vamp

/-- `ListenTracker`. -/
structure ListenTracker (τ : Type) : Type where
  /-- the track, if there is one -/
  currentTrackId : Option τ
  /-- the seconds that are not credited -/
  listened : ℕ
  /-- playing is on -/
  isPlaying : Bool
  deriving DecidableEq

namespace ListenTracker

variable {τ : Type}

/-! ## The tracker -/

/-- `new ListenTracker`. -/
def new : ListenTracker τ := ⟨none, 0, false⟩

/-- `checkPlayed`, and the arguments of the callback, if it is called. -/
def checkPlayed (t : ListenTracker τ) : ListenTracker τ × Option (τ × ℕ) :=
  match t.isPlaying, t.currentTrackId with
  | true, some trackId =>
    if 10 ≤ t.listened + 1 then
      ({ t with listened := t.listened + 1 - 10 }, some (trackId, 10))
    else ({ t with listened := t.listened + 1 }, none)
  | _, _ => (t, none)

/-- What happens to a tracker. -/
inductive Event (τ : Type) : Type where
  /-- a second is over -/
  | checkPlayed
  /-- play or pause -/
  | isPlaying (playing : Bool)
  /-- another track, or none -/
  | currentTrackId (id : Option τ)
  deriving DecidableEq

/-- Trackers. The two fields are written from outside. -/
def machine (τ : Type) : StateMachine (ListenTracker τ) (Event τ) where
  init := new
  step
    | t, .checkPlayed => some t.checkPlayed.1
    | t, .isPlaying playing => some { t with isPlaying := playing }
    | t, .currentTrackId id => some { t with currentTrackId := id }

/-- The callback is called. -/
def callbacks (t : ListenTracker τ) : Event τ → List (τ × ℕ)
  | .checkPlayed => t.checkPlayed.2.toList
  | .isPlaying _ => []
  | .currentTrackId _ => []

/-- A second is over in which a track was played. -/
def played (t : ListenTracker τ) : Event τ → List τ
  | .checkPlayed => if t.isPlaying then t.currentTrackId.toList else []
  | .isPlaying _ => []
  | .currentTrackId _ => []

/-- The calls of the callback in a run. -/
def credits (t : ListenTracker τ) (es : List (Event τ)) : List (τ × ℕ) :=
  (machine τ).trace callbacks t es

/-- The seconds of a run in which tracks were played. -/
def ticks (t : ListenTracker τ) (es : List (Event τ)) : List τ := (machine τ).trace played t es

/-- The seconds that are credited to a track. -/
def seconds [DecidableEq τ] (calls : List (τ × ℕ)) (id : τ) : ℕ :=
  ((calls.filter fun call => call.1 = id).map Prod.snd).sum

/-- The track stays current. -/
def Event.Keeps (id : τ) : Event τ → Prop
  | .currentTrackId id' => id' = some id
  | _ => True

/-- **Credit goes to the track that was played**: never more than was played of it, and, as long
as it stays, ten seconds for each ten. -/
def CreditsPlayed [DecidableEq τ] (es : List (Event τ)) : Prop :=
  (∀ pre, pre <+: es → ∀ id, seconds (credits new pre) id ≤ (ticks new pre).count id) ∧
    ∀ pre stay post t id n, es = pre ++ stay ++ post →
      (machine τ).run new pre = some t → t.currentTrackId = some id → (∀ e ∈ stay, e.Keeps id) →
        (ticks t stay).length = 10 * n → credits t stay = List.replicate n (id, 10)

/-! ## Steps -/

/-- A second that is counted, and one that is not. -/
theorem checkPlayed_cases (t : ListenTracker τ) :
    (∃ id, played t .checkPlayed = [id] ∧ t.currentTrackId = some id ∧
      ((t.listened + 1 < 10 ∧ t.checkPlayed = ({ t with listened := t.listened + 1 }, none)) ∨
        (10 ≤ t.listened + 1 ∧
          t.checkPlayed = ({ t with listened := t.listened + 1 - 10 }, some (id, 10))))) ∨
    (played t .checkPlayed = [] ∧ t.checkPlayed = (t, none)) := by
  obtain ⟨_ | id, listened, _ | _⟩ := t
  · exact .inr ⟨rfl, rfl⟩
  · exact .inr ⟨rfl, rfl⟩
  · exact .inr ⟨rfl, rfl⟩
  · refine .inl ⟨id, rfl, rfl, ?_⟩
    by_cases h : 10 ≤ listened + 1
    · exact .inr ⟨h, if_pos h⟩
    · exact .inl ⟨Nat.lt_of_not_le h, if_neg h⟩

/-- Every event is possible. -/
theorem run_isSome (t : ListenTracker τ) (es : List (Event τ)) :
    ∃ t', (machine τ).run t es = some t' := by
  induction es generalizing t with
  | nil => exact ⟨t, rfl⟩
  | cons e es ih => cases e <;> exact ih _

/-- **What a run does**: the seconds make blocks of ten, of which the last ones are credited. -/
theorem run_blocks {es : List (Event τ)} {t : ListenTracker τ}
    (hrun : (machine τ).run new es = some t) :
    t.listened = ((ticks new es).blocks 10).rest.length ∧
      credits new es = ((ticks new es).blocks 10).lasts.map fun id => (id, 10) := by
  refine StateMachine.run_induction (M := machine τ)
    (P := fun es t => t.listened = ((ticks new es).blocks 10).rest.length ∧
      credits new es = ((ticks new es).blocks 10).lasts.map fun id => (id, 10)) ⟨rfl, rfl⟩ ?_ hrun
  rintro es t e t' hes ⟨hlistened, hcredits⟩ hstep
  have hticks' : ticks new (es ++ [e]) = ticks new es ++ played t e :=
    StateMachine.trace_concat hes hstep
  have hcredits' : credits new (es ++ [e]) = credits new es ++ callbacks t e :=
    StateMachine.trace_concat hes hstep
  rw [hticks', hcredits', hcredits]
  cases e with
  | isPlaying playing =>
    obtain rfl := Option.some.inj hstep
    rw [played, callbacks, List.append_nil, List.append_nil]
    exact ⟨hlistened, rfl⟩
  | currentTrackId id =>
    obtain rfl := Option.some.inj hstep
    rw [played, callbacks, List.append_nil, List.append_nil]
    exact ⟨hlistened, rfl⟩
  | checkPlayed =>
    obtain rfl := Option.some.inj hstep
    rw [callbacks]
    rcases checkPlayed_cases t with ⟨id, hplayed, -, ⟨hlt, hcheck⟩ | ⟨hge, hcheck⟩⟩ |
      ⟨hplayed, hcheck⟩
    · rw [hplayed, hcheck]
      have hrest : ((ticks new es).blocks 10).rest.length + 1 < 10 := by omega
      rw [List.lasts_concat_of_lt hrest, List.blocks_concat_of_lt hrest, List.length_append,
        ← hlistened]
      exact ⟨rfl, List.append_nil _⟩
    · rw [hplayed, hcheck]
      have hrest : ¬ ((ticks new es).blocks 10).rest.length + 1 < 10 := by omega
      have hlt : ((ticks new es).blocks 10).rest.length < 10 := List.length_rest_lt (by decide) _
      rw [List.lasts_concat_of_not_lt hrest, List.blocks_concat_of_not_lt hrest, List.map_append]
      refine ⟨?_, rfl⟩
      dsimp only [List.length_nil]
      omega
    · rw [hplayed, hcheck, List.append_nil]
      exact ⟨hlistened, List.append_nil _⟩

/-! ## Credit -/

/-- **No second is lost.** -/
theorem conserved {es : List (Event τ)} {t : ListenTracker τ}
    (hrun : (machine τ).run new es = some t) :
    (ticks new es).length = 10 * (credits new es).length + t.listened ∧ t.listened < 10 := by
  obtain ⟨hlistened, hcredits⟩ := run_blocks hrun
  rw [hlistened, hcredits, List.length_map]
  exact ⟨List.length_eq (by decide) _, List.length_rest_lt (by decide) _⟩

/-- As long as a track stays, all credit is its own. -/
theorem credits_of_keeps {id : τ} {stay : List (Event τ)} {t : ListenTracker τ}
    (hid : t.currentTrackId = some id) (hstay : ∀ e ∈ stay, e.Keeps id) :
    ∀ call ∈ credits t stay, call = (id, 10) := by
  induction stay generalizing t with
  | nil => exact nofun
  | cons e stay ih =>
    obtain ⟨he, hrest⟩ := List.forall_mem_cons.mp hstay
    have hcons : ∀ {t'}, (machine τ).step t e = some t' →
        credits t (e :: stay) = callbacks t e ++ credits t' stay := StateMachine.trace_cons
    cases e with
    | isPlaying playing =>
      rw [hcons rfl]
      exact ih hid hrest
    | currentTrackId id' =>
      rw [hcons rfl]
      exact ih he hrest
    | checkPlayed =>
      rw [hcons rfl, callbacks]
      rcases checkPlayed_cases t with ⟨id', -, hid', ⟨-, hcheck⟩ | ⟨-, hcheck⟩⟩ | ⟨-, hcheck⟩
      · rw [hcheck]
        exact ih hid hrest
      · rw [hcheck]
        obtain rfl := Option.some.inj (hid.symm.trans hid')
        exact List.forall_mem_cons.mpr ⟨rfl, ih hid hrest⟩
      · rw [hcheck]
        exact ih hid hrest

/-- **Ten for ten**, with the pauses in between. -/
theorem credits_stay {pre stay : List (Event τ)} {t : ListenTracker τ} {id : τ} {n : ℕ}
    (hpre : (machine τ).run new pre = some t) (hid : t.currentTrackId = some id)
    (hstay : ∀ e ∈ stay, e.Keeps id) (hticks : (ticks t stay).length = 10 * n) :
    credits t stay = List.replicate n (id, 10) := by
  obtain ⟨t', hrun⟩ := run_isSome t stay
  have hboth : (machine τ).run new (pre ++ stay) = some t' :=
    StateMachine.run_append_eq_some.mpr ⟨t, hpre, hrun⟩
  have hticks' : ticks new (pre ++ stay) = ticks new pre ++ ticks t stay :=
    StateMachine.trace_append hpre
  have hcredits' : credits new (pre ++ stay) = credits new pre ++ credits t stay :=
    StateMachine.trace_append hpre
  obtain ⟨hbefore, hlt⟩ := conserved hpre
  obtain ⟨hafter, hlt'⟩ := conserved hboth
  rw [hticks', hcredits', List.length_append, List.length_append, hbefore, hticks] at hafter
  refine List.eq_replicate_iff.mpr ⟨by omega, credits_of_keeps hid hstay⟩

/-- The seconds of a prefix are a prefix of the seconds, and any. -/
theorem forall_prefix_iff {P : List τ → Prop} (es : List (Event τ)) :
    (∀ pre, pre <+: es → P (ticks new pre)) ↔ ∀ ids, ids <+: ticks new es → P ids := by
  induction es using List.reverseRecOn with
  | nil => simp [ticks]
  | append_singleton es e ih =>
    obtain ⟨t, hrun⟩ := run_isSome new es
    obtain ⟨t', hstep⟩ : ∃ t', (machine τ).step t e = some t' := by
      cases e <;> exact ⟨_, rfl⟩
    have hticks : ticks new (es ++ [e]) = ticks new es ++ played t e :=
      StateMachine.trace_concat hrun hstep
    have hplayed : played t e = [] ∨ ∃ id, played t e = [id] := by
      cases e with
      | isPlaying playing => exact .inl rfl
      | currentTrackId id => exact .inl rfl
      | checkPlayed =>
        rcases checkPlayed_cases t with ⟨id, hone, -⟩ | ⟨hnone, -⟩
        · exact .inr ⟨id, hone⟩
        · exact .inl hnone
    simp only [List.prefix_concat_iff, forall_eq_or_imp, ih]
    rcases hplayed with hnone | ⟨id, hone⟩
    · rw [hticks, hnone, List.append_nil]
      exact and_iff_right_of_imp fun h => h _ List.prefix_rfl
    · rw [hticks, hone]
      simp only [List.prefix_concat_iff, forall_eq_or_imp]

section Seconds

variable [DecidableEq τ]

theorem seconds_map (ids : List τ) (id : τ) :
    seconds (ids.map fun id => (id, 10)) id = 10 * ids.count id := by
  induction ids with
  | nil => rfl
  | cons id' ids ih =>
    rw [seconds] at ih ⊢
    by_cases h : id' = id
    · simp [h, ih, Nat.mul_add, Nat.add_comm]
    · simp [h, ih]

/-- **Credit goes to the track that was played** if and only if all tens of counted seconds are
of one track each. -/
theorem credits_played_iff (es : List (Event τ)) :
    CreditsPlayed es ↔
      ∀ block ∈ ((ticks new es).blocks 10).full, ∃ id, block = List.replicate 10 id := by
  have hblocks : (∀ ids, ids <+: ticks new es → ∀ id,
      10 * (ids.blocks 10).lasts.count id ≤ ids.count id) ↔
        ((ticks new es).blocks 10).Uniform 10 := List.count_lasts_le_iff (by decide)
  rw [← forall_prefix_iff
    (P := fun ids => ∀ id, 10 * (ids.blocks 10).lasts.count id ≤ ids.count id)] at hblocks
  have hseconds : ∀ (pre : List (Event τ)) id, seconds (credits new pre) id =
      10 * ((ticks new pre).blocks 10).lasts.count id := by
    intro pre id
    obtain ⟨t, hrun⟩ := run_isSome new pre
    rw [(run_blocks hrun).2, seconds_map]
  rw [CreditsPlayed, and_iff_left]
  · simp only [hseconds]
    exact hblocks
  · intro pre stay post t id n _ hpre hid hstay hticks
    exact credits_stay hpre hid hstay hticks

/-- Nine seconds of one track, and one of another. -/
def switched : List (Event ℕ) :=
  [.currentTrackId (some 1), .isPlaying true] ++ List.replicate 9 .checkPlayed ++
    [.currentTrackId (some 2), .checkPlayed]

theorem not_creditsPlayed_switched :
    credits new switched = [(2, 10)] ∧ (ticks new switched).count 2 = 1 ∧
      ¬ CreditsPlayed switched := by
  have hcredits : credits new switched = [(2, 10)] := by decide
  have hticks : (ticks new switched).count 2 = 1 := by decide
  refine ⟨hcredits, hticks, fun h => ?_⟩
  have hle := h.1 switched List.prefix_rfl 2
  rw [hcredits, hticks] at hle
  exact absurd hle (by decide)

end Seconds

end ListenTracker

end Vamp
