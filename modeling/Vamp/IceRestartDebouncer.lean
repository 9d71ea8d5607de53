import Mathlib.Data.List.Infix
import Vamp.TransportTypes

/-!
# The debouncer of ICE restarts

`debouncer.rs`: the task that waits for a minute after a negotiation has started, and notifies when
it has not come to an end by then. A pass of its loop is a `select!`, which waits for the first
of several things, and prefers those that stand first when there is more than one. The `sleep`
belongs to the pass: it begins anew with each of them.

Only the events that come later disturb a minute, even if they come at the time of the `Start`
itself (`notifies_exactly`).
-/

namespace Vamp

namespace IceRestartDebouncer

/-- `DebounceEvent`. -/
inductive DebounceEvent : Type where
  | start
  | «end»
  deriving DecidableEq, Repr

/-- What the loop waits for, apart from the timer. -/
inductive Arrival : Type where
  /-- an event is received -/
  | event (event : DebounceEvent)
  /-- `stopper` is cancelled -/
  | stopped
  /-- all senders are dropped -/
  | closed
  deriving DecidableEq, Repr

/-- `DEBOUNCE_TIMEOUT`. -/
def debounceTimeout : ℕ := fromSecs 60

/-- The task, between two passes of its loop. -/
structure Task : Type where
  /-- `deb_state` -/
  debState : DebounceEvent
  /-- the time -/
  now : Instant
  /-- what is going to arrive, and when -/
  arrivals : List (Instant × Arrival)
  deriving DecidableEq, Repr

/-- An arrival is handled. -/
def Task.receive (at_ : Instant) (arrivals : List (Instant × Arrival)) :
    Arrival → Option (Task × List Instant)
  | .event event => some (⟨event, at_, arrivals⟩, [])
  | .stopped | .closed => none

/-- One pass, with the times of notifications. The loop may break, or wait for ever. -/
def Task.pass (s : Task) : Option (Task × List Instant) :=
  match s.debState, s.arrivals with
  | .end, [] => none
  | .end, (t, arrival) :: arrivals => receive t arrivals arrival
  | .start, [] => some (⟨.end, s.now + debounceTimeout, []⟩, [s.now + debounceTimeout])
  | .start, (t, arrival) :: arrivals =>
    if t ≤ s.now + debounceTimeout then receive t arrivals arrival
    else some (⟨.end, s.now + debounceTimeout, s.arrivals⟩, [s.now + debounceTimeout])

/-- Notifications in the first passes. -/
def Task.passes : ℕ → Task → List Instant
  | 0, _ => []
  | n + 1, s =>
    match s.pass with
    | none => []
    | some (s, notifications) => notifications ++ s.passes n

/-- `spawn_run`. -/
def spawnRun (now : Instant) (arrivals : List (Instant × Arrival)) : Task := ⟨.end, now, arrivals⟩

/-- Events that are received at these times. -/
def received (es : List (Instant × DebounceEvent)) : List (Instant × Arrival) :=
  es.map fun (t, event) => (t, .event event)

/-- Whether the first of some events is a `Start` that is followed by an undisturbed minute: no
later event comes within it. -/
def due? : List (Instant × DebounceEvent) → Option Instant
  | (t, .start) :: es =>
    if es.all fun e => t + debounceTimeout < e.1 then some (t + debounceTimeout) else none
  | _ => none

/-- The notifications that are due: for each event, it and those that come later are looked at. -/
def due (es : List (Instant × DebounceEvent)) : List Instant := es.tails.filterMap due?

variable {es : List (Instant × DebounceEvent)} {e : DebounceEvent} {t : Instant} {n : ℕ}

theorem due_cons (e : Instant × DebounceEvent) (es : List (Instant × DebounceEvent)) :
    due (e :: es) = (due? (e :: es)).toList ++ due es := by
  rw [due, List.tails_cons, List.filterMap_cons]
  cases due? (e :: es) <;> rfl

/-- An event that is received within the minute is the only one that counts. -/
theorem passes_received (s : Task) {arrivals : List (Instant × Arrival)}
    (harrivals : s.arrivals = (t, .event e) :: arrivals)
    (hin : s.debState = .start → t ≤ s.now + debounceTimeout) (n : ℕ) :
    s.passes (n + 1) = (⟨e, t, arrivals⟩ : Task).passes n := by
  have hpass : s.pass = some (⟨e, t, arrivals⟩, []) := by
    rw [Task.pass, harrivals]
    cases hstate : s.debState with
    | «end» => rfl
    | start => exact if_pos (hin hstate)
  rw [Task.passes, hpass]
  rfl

/-- **The loop notifies of the minutes that are not disturbed**, from any `Start` or `End` on. -/
theorem passes_eq (hsorted : (t :: es.map Prod.fst).Pairwise (· ≤ ·))
    (hn : 2 * es.length + 2 ≤ n) :
    (⟨e, t, received es⟩ : Task).passes n = due ((t, e) :: es) := by
  induction es generalizing t e n with
  | nil =>
    obtain ⟨n, rfl⟩ := Nat.exists_eq_add_of_le' hn
    cases e with
    | start => rfl
    | «end» => rfl
  | cons first es ih =>
    obtain ⟨t', e'⟩ := first
    obtain ⟨n, rfl⟩ := Nat.exists_eq_add_of_le' (Nat.le_trans (Nat.le_add_left 2 _) hn)
    rw [List.length_cons] at hn
    have hlater : (t' :: es.map Prod.fst).Pairwise (· ≤ ·) := hsorted.tail
    have hrest : ∀ m, 2 * es.length + 2 ≤ m → (⟨e', t', received es⟩ : Task).passes m =
        due ((t', e') :: es) := fun m => ih hlater
    rw [due_cons]
    by_cases hin : e = .start → t' ≤ t + debounceTimeout
    · -- the event is received, and the minute is disturbed
      refine ((passes_received _ rfl hin (n + 1)).trans (hrest _ (by omega))).trans ?_
      cases e with
      | «end» => rfl
      | start =>
        have hdisturbed : due? ((t, .start) :: (t', e') :: es) = none := by
          refine if_neg fun hall => ?_
          have hlt := List.all_eq_true.mp hall _ (List.mem_cons_self ..)
          exact Nat.not_lt.mpr (hin rfl) (of_decide_eq_true hlt)
        rw [hdisturbed]
        rfl
    · -- the timer fires, and then the event is received
      obtain ⟨rfl, hout⟩ := Classical.not_imp.mp hin
      have hpass : (⟨.start, t, received ((t', e') :: es)⟩ : Task).pass =
          some (⟨.end, t + debounceTimeout, received ((t', e') :: es)⟩,
            [t + debounceTimeout]) := if_neg hout
      have hdue : due? ((t, .start) :: (t', e') :: es) = some (t + debounceTimeout) := by
        refine if_pos (List.all_eq_true.mpr fun later hmem => decide_eq_true ?_)
        have hle : t' ≤ later.1 := by
          rcases List.mem_cons.mp hmem with rfl | hmem
          · exact Nat.le_refl _
          · exact (List.pairwise_cons.mp hlater).1 _ (List.mem_map_of_mem hmem)
        exact Nat.lt_of_lt_of_le (Nat.lt_of_not_le hout) hle
      rw [Task.passes, hpass, hdue]
      refine congrArg ([t + debounceTimeout] ++ ·) ?_
      exact (passes_received _ rfl (fun hstart => by cases hstart) n).trans (hrest _ (by omega))

/-- **The loop notifies exactly after an undisturbed minute.** -/
structure Notifies (es : List (Instant × DebounceEvent)) (notifications : List Instant) : Prop where
  /-- each notification comes a minute after a `Start`, if no later event has come by then -/
  exactly : ∀ time, time ∈ notifications ↔ ∃ pre t post, es = pre ++ (t, .start) :: post ∧
    (∀ later ∈ post, t + debounceTimeout < later.1) ∧ time = t + debounceTimeout
  /-- no two come at a time -/
  once : notifications.Pairwise (· < ·)

theorem due?_eq_some {time : Instant} : due? es = some time ↔ ∃ t post,
    es = (t, .start) :: post ∧ (∀ later ∈ post, t + debounceTimeout < later.1) ∧
      time = t + debounceTimeout := by
  constructor
  · intro h
    unfold due? at h
    split at h
    · case h_1 t post =>
      obtain ⟨hall, heq⟩ := Option.ite_none_right_eq_some.mp h
      have hlater : ∀ later ∈ post, t + debounceTimeout < later.1 := fun later hmem =>
        of_decide_eq_true (List.all_eq_true.mp hall later hmem)
      exact ⟨t, post, rfl, hlater, (Option.some.inj heq).symm⟩
    · cases h
  · rintro ⟨t, post, rfl, hall, rfl⟩
    exact if_pos (List.all_eq_true.mpr fun later hmem => decide_eq_true (hall later hmem))

theorem notifies_due (hsorted : (es.map Prod.fst).Pairwise (· ≤ ·)) : Notifies es (due es) := by
  have hexactly : ∀ (es : List (Instant × DebounceEvent)) time, time ∈ due es ↔
      ∃ pre t post, es = pre ++ (t, .start) :: post ∧
        (∀ later ∈ post, t + debounceTimeout < later.1) ∧ time = t + debounceTimeout := by
    intro es time
    rw [due, List.mem_filterMap]
    constructor
    · rintro ⟨suffix, hsuffix, hdue⟩
      obtain ⟨pre, rfl⟩ := (List.mem_tails _ _).mp hsuffix
      obtain ⟨t, post, rfl, hlater, htime⟩ := due?_eq_some.mp hdue
      exact ⟨pre, t, post, rfl, hlater, htime⟩
    · rintro ⟨pre, t, post, rfl, hlater, htime⟩
      exact ⟨_, (List.mem_tails _ _).mpr (List.suffix_append _ _),
        due?_eq_some.mpr ⟨t, post, rfl, hlater, htime⟩⟩
  refine ⟨hexactly es, ?_⟩
  induction es with
  | nil => exact .nil
  | cons e es ih =>
    have hrest := ih hsorted.tail
    rw [due_cons]
    cases hdue : due? (e :: es) with
    | none => exact hrest
    | some time =>
      obtain ⟨t, post, heq, hlater, rfl⟩ := due?_eq_some.mp hdue
      obtain ⟨rfl, rfl⟩ := List.cons.inj heq
      refine List.pairwise_cons.mpr ⟨fun time htime => ?_, hrest⟩
      -- a minute that begins later ends later
      obtain ⟨pre, t', post', rfl, -, rfl⟩ := (hexactly _ _).mp htime
      have hlt := hlater (t', .start) (List.mem_append_right _ (List.mem_cons_self ..))
      exact Nat.lt_of_lt_of_le hlt (Nat.le_add_right _ _)

/-- **A notification is sent exactly after an undisturbed minute**, and the loop gets that far. -/
theorem notifies_exactly {begin : Instant} (hsorted : (begin :: es.map Prod.fst).Pairwise (· ≤ ·))
    (hn : 2 * es.length + 2 ≤ n) :
    Notifies es ((spawnRun begin (received es)).passes n) := by
  rw [spawnRun, passes_eq hsorted hn, due_cons]
  exact notifies_due hsorted.tail

/-- A negotiation that ends at once. -/
def endedAtOnce : List (Instant × DebounceEvent) := [(0, .start), (0, .end)]

/-- No event comes within the minute after its `Start`, and yet there is no notification. -/
theorem not_notified_endedAtOnce :
    ¬∀ (es : List (Instant × DebounceEvent)) (begin : Instant) (n : ℕ),
      (begin :: es.map Prod.fst).Pairwise (· ≤ ·) → 2 * es.length + 2 ≤ n →
        ∀ pre t post, es = pre ++ (t, .start) :: post →
          (∀ e ∈ es, ¬(t < e.1 ∧ e.1 ≤ t + debounceTimeout)) →
            t + debounceTimeout ∈ (spawnRun begin (received es)).passes n := by
  intro h
  have hmem := h endedAtOnce 0 6 (by decide) (by decide) [] 0 [(0, .end)] rfl (by decide)
  revert hmem
  decide

/-- Two negotiations, of which the first ends when its minute does. -/
def twoNegotiations : List (Instant × DebounceEvent) :=
  [(0, .start), (fromSecs 60, .end), (fromSecs 61, .start)]

theorem notifies_exactly_twoNegotiations :
    (spawnRun 0 (received twoNegotiations)).passes 8 = [fromSecs 121] ∧
      Notifies twoNegotiations ((spawnRun 0 (received twoNegotiations)).passes 8) :=
  ⟨by decide, notifies_exactly (by decide) (by decide)⟩

end IceRestartDebouncer

end Vamp
