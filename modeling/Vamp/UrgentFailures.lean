import Vamp.BrowserRecovery

/-!
# How soon does the browser recover?

A failure that is more urgent than the timer that is pending is to bring the timer forward, and one
that is less urgent is to leave it. `startDebounceIfFaster` compares the delay that is asked for
with the time that has gone by since the timer was started, and not with the time that is left.
So a failure shortly after an offer waits for the ten seconds of the offer, and one that comes late
puts off a timer that was about to fire. `Apt` says when the comparison is right
(`brought_forward_iff`).

In `RtcConnector` there is one timer at most. `Debouncer` has the timers of the browser, of which
there may be any number, and shows that this is so.
-/

namespace Vamp

namespace Ts

/-! ## Timers -/

/-- The timers of a browser. -/
structure Timeouts : Type where
  /-- handles and deadlines of those that are pending -/
  pending : List (ℕ × ℕ)
  /-- the next handle -/
  next : ℕ

/-- `setTimeout`. -/
def Timeouts.setTimeout (t : Timeouts) (deadline : ℕ) : Timeouts :=
  ⟨t.pending ++ [(t.next, deadline)], t.next + 1⟩

/-- `clearTimeout`. -/
def Timeouts.clearTimeout (t : Timeouts) : Option ℕ → Timeouts
  | none => t
  | some handle => { t with pending := t.pending.filter fun p => p.1 ≠ handle }

/-- The fields of `RtcConnector` that are about the timer. -/
structure Debouncer : Type where
  /-- `debounceStartTime` -/
  debounceStartTime : Option ℕ
  /-- `debounceTimer` -/
  debounceTimer : Option ℕ
  /-- the timers of the browser -/
  timeouts : Timeouts

namespace Debouncer

/-- `startDebounce`. -/
def startDebounce (b : Debouncer) (delay now : ℕ) : Debouncer :=
  let timeouts := b.timeouts.clearTimeout b.debounceTimer
  ⟨some now, some timeouts.next, timeouts.setTimeout (now + delay)⟩

/-- `startDebounceIfFaster`. -/
def startDebounceIfFaster (b : Debouncer) (delay now : ℕ) : Debouncer :=
  if !b.debounceTimer.isSome || b.debounceStartTime.any fun t => t ≠ 0 ∧ delay < now - t then
    b.startDebounce delay now
  else b

/-- `addDebounceEvent`. -/
def addDebounceEvent (b : Debouncer) (handlingDebounce : Bool) (event : DebounceEvent) (now : ℕ) :
    Debouncer :=
  if handlingDebounce then b
  else
    match event with
    | .disconnectedIce => b.startDebounceIfFaster disconnectedRestartInterval now
    | .failedIce => b.startDebounceIfFaster failedRestartInterval now
    | .closedChannel => b.startDebounceIfFaster closedChannelInterval now
    | .negotiatingChannel | .negotiatingICE => b.startDebounce negotiatingInterval now
    | .failover => b.startDebounce failoverInterval now

/-- The timer with this handle fires. -/
def fire (b : Debouncer) (handle : ℕ) : Debouncer :=
  { b with timeouts := b.timeouts.clearTimeout (some handle) }

/-- When timers will fire. -/
def deadlines (b : Debouncer) : List ℕ := b.timeouts.pending.map Prod.snd

/-- The connector is what it seems: its one timer is the one that is pending. -/
structure Tracks (b : Debouncer) (c : RtcConnector) : Prop where
  /-- `debounceStartTime` -/
  start : b.debounceStartTime = c.debounceStartTime
  /-- `debounceTimer` is set -/
  timer : b.debounceTimer.isSome = c.debounceTimer
  /-- what is pending -/
  deadlines : b.deadlines = c.scheduled.toList
  /-- is the timer of the connector -/
  handles : ∀ p ∈ b.timeouts.pending, b.debounceTimer = some p.1

variable {b : Debouncer} {c : RtcConnector}

theorem tracks_new : Tracks ⟨none, none, ⟨[], 0⟩⟩ .new where
  start := rfl
  timer := rfl
  deadlines := rfl
  handles := nofun

/-- The timer is cleared before another one is set. -/
theorem Tracks.clear (h : b.Tracks c) :
    (b.timeouts.clearTimeout b.debounceTimer).pending = [] := by
  cases htimer : b.debounceTimer with
  | none =>
    refine List.eq_nil_iff_forall_not_mem.mpr fun p hp => ?_
    cases htimer.symm.trans (h.handles p hp)
  | some handle =>
    refine List.filter_eq_nil_iff.mpr fun p hp => ?_
    obtain rfl := Option.some.inj (htimer.symm.trans (h.handles p hp))
    simp

theorem Tracks.startDebounce (h : b.Tracks c) (delay now : ℕ) :
    (b.startDebounce delay now).Tracks (c.startDebounce delay now) := by
  have hpending : (b.startDebounce delay now).timeouts.pending =
      [((b.timeouts.clearTimeout b.debounceTimer).next, now + delay)] := by
    change (b.timeouts.clearTimeout b.debounceTimer).pending ++ _ = _
    rw [h.clear]
    rfl
  refine ⟨rfl, rfl, ?_, fun p hp => ?_⟩
  · rw [Debouncer.deadlines, hpending]
    rfl
  · rw [hpending] at hp
    rw [List.mem_singleton.mp hp]
    rfl

theorem Tracks.startDebounceIfFaster (h : b.Tracks c) (delay now : ℕ) :
    (b.startDebounceIfFaster delay now).Tracks (c.startDebounceIfFaster delay now) := by
  unfold Debouncer.startDebounceIfFaster RtcConnector.startDebounceIfFaster
  rw [h.start, h.timer]
  split
  · exact h.startDebounce delay now
  · exact h

/-- **One timer at most**: every debounce event keeps it so. -/
theorem Tracks.addDebounceEvent (h : b.Tracks c) (event : DebounceEvent) (now : ℕ) :
    (b.addDebounceEvent c.handlingDebounce event now).Tracks (c.addDebounceEvent event now) := by
  unfold Debouncer.addDebounceEvent RtcConnector.addDebounceEvent
  split
  · exact h
  · cases event with
    | disconnectedIce | failedIce | closedChannel => exact h.startDebounceIfFaster _ now
    | negotiatingChannel | negotiatingICE | failover => exact h.startDebounce _ now

/-- And so does the timer when it fires. -/
theorem Tracks.fire (h : b.Tracks c) {p : ℕ × ℕ} (hp : p ∈ b.timeouts.pending) :
    (b.fire p.1).Tracks { c with scheduled := none } := by
  have hpending : (b.fire p.1).timeouts.pending = [] := by
    refine List.filter_eq_nil_iff.mpr fun q hq => ?_
    rw [Option.some.inj ((h.handles p hp).symm.trans (h.handles q hq))]
    simp
  refine ⟨h.start, h.timer, ?_, fun q hq => ?_⟩
  · rw [Debouncer.deadlines, hpending]
    rfl
  · rw [hpending] at hq
    cases hq

end Debouncer

/-! ## Failures -/

/-- A failure that the connector listens to: the debounce event, its delay, and when it comes. -/
def BrowserEvent.failure? : BrowserEvent → Option (DebounceEvent × ℕ × ℕ)
  | .iceConnectionState .disconnected now =>
    some (.disconnectedIce, disconnectedRestartInterval, now)
  | .iceConnectionState .failed now => some (.failedIce, failedRestartInterval, now)
  | .channelState .closed now => some (.closedChannel, closedChannelInterval, now)
  | _ => none

/-- The deadline that a failure asks for. -/
def BrowserEvent.deadline? (e : BrowserEvent) : Option ℕ :=
  e.failure?.map fun (_, delay, now) => now + delay

/-- The timer fires. -/
def BrowserEvent.isTimeout : BrowserEvent → Bool
  | .timeout _ _ _ => true
  | _ => false

namespace RtcConnector

/-- While a timer is pending and no handler is in progress, a failure leaves one timer, which fires
at the earlier of the two deadlines. -/
def BroughtForward (c : RtcConnector) (e : BrowserEvent) : Prop :=
  ∀ event delay now deadline c', e.failure? = some (event, delay, now) →
    c.scheduled = some deadline → c.handlingDebounce = false → machine.step c e = some c' →
      c'.scheduled = some (min deadline (now + delay)) ∧
        ∀ b : Debouncer, b.Tracks c →
          (b.addDebounceEvent c.handlingDebounce event now).deadlines =
            [min deadline (now + delay)]

/-- The timer is started anew if there is no less time left than is asked for, and only then. -/
def Apt (c : RtcConnector) (e : BrowserEvent) : Prop :=
  ∀ event delay now deadline, e.failure? = some (event, delay, now) →
    c.scheduled = some deadline → c.handlingDebounce = false →
      (c.StartsTimer delay now → now + delay ≤ deadline) ∧
        (¬c.StartsTimer delay now → deadline ≤ now + delay)

/-- **The browser recovers as soon as it is to**, in the run `es`. -/
structure Prompt (es : List BrowserEvent) : Prop where
  /-- after each failure -/
  forward : machine.Along BroughtForward machine.init es
  /-- until the timer fires, it stands at the earliest deadline that was asked for -/
  earliest : ∀ pre mid post c c' deadline, es = pre ++ (mid ++ post) →
    machine.run machine.init pre = some c → machine.run c mid = some c' →
      c.scheduled = some deadline → c.handlingDebounce = false →
        (∀ e ∈ mid, e.isTimeout = false) →
          c'.scheduled = some ((mid.filterMap BrowserEvent.deadline?).foldl min deadline)

variable {c c' : RtcConnector} {e : BrowserEvent} {event : DebounceEvent} {delay now deadline : ℕ}

/-- The timer does not depend on the connection. -/
theorem startDebounceIfFaster_frame (c : RtcConnector) (peerConnection : Option IceConnectionState)
    (channel : Option ChannelState) (delay now : ℕ) :
    ({ c with peerConnection, channel }.startDebounceIfFaster delay now).handlingDebounce =
        c.handlingDebounce ∧
      ({ c with peerConnection, channel }.startDebounceIfFaster delay now).scheduled =
        (c.startDebounceIfFaster delay now).scheduled := by
  unfold startDebounceIfFaster
  split
  · exact ⟨rfl, rfl⟩
  · exact ⟨rfl, rfl⟩

/-- A failure starts the timer, if it is faster. -/
theorem addDebounceEvent_of_failure (he : e.failure? = some (event, delay, now))
    (hidle : c.handlingDebounce = false) :
    c.addDebounceEvent event now = c.startDebounceIfFaster delay now := by
  unfold addDebounceEvent
  rw [hidle, if_neg Bool.false_ne_true]
  unfold BrowserEvent.failure? at he
  split at he
  · cases he
    rfl
  · cases he
    rfl
  · cases he
    rfl
  · cases he

/-- What a failure does. -/
theorem step_failure (he : e.failure? = some (event, delay, now))
    (hstep : machine.step c e = some c') : ∃ peerConnection channel,
      c' = { c with peerConnection, channel }.addDebounceEvent event now := by
  obtain ⟨⟨c₁, sent⟩, hsome, rfl⟩ :=
    Option.map_eq_some_iff.mp (Option.ite_none_left_eq_some.mp hstep).2
  unfold BrowserEvent.failure? at he
  split at he
  · cases he
    obtain ⟨-, hsome⟩ := Option.ite_none_right_eq_some.mp hsome
    obtain ⟨rfl, -⟩ := Prod.mk.inj (Option.some.inj hsome)
    exact ⟨_, _, rfl⟩
  · cases he
    obtain ⟨-, hsome⟩ := Option.ite_none_right_eq_some.mp hsome
    obtain ⟨rfl, -⟩ := Prod.mk.inj (Option.some.inj hsome)
    exact ⟨_, _, rfl⟩
  · cases he
    obtain ⟨-, hsome⟩ := Option.ite_none_right_eq_some.mp hsome
    obtain ⟨rfl, -⟩ := Prod.mk.inj (Option.some.inj hsome)
    exact ⟨_, _, rfl⟩
  · cases he

/-- What a failure does to the timer. -/
theorem step_of_failure (he : e.failure? = some (event, delay, now))
    (hidle : c.handlingDebounce = false) (hstep : machine.step c e = some c') :
    c'.handlingDebounce = false ∧ c'.scheduled = (c.startDebounceIfFaster delay now).scheduled := by
  obtain ⟨peerConnection, channel, rfl⟩ := step_failure he hstep
  obtain ⟨hhandling, hscheduled⟩ := c.startDebounceIfFaster_frame peerConnection channel delay now
  have hadd : { c with peerConnection, channel }.addDebounceEvent event now =
      { c with peerConnection, channel }.startDebounceIfFaster delay now :=
    addDebounceEvent_of_failure he hidle
  rw [hadd]
  exact ⟨hhandling.trans hidle, hscheduled⟩

/-- **After a failure**, the timer is right if and only if it was compared rightly. -/
theorem broughtForward_iff_apt (hstep : machine.step c e = some c') :
    c.BroughtForward e ↔ c.Apt e := by
  constructor
  · intro h event delay now deadline he hpending hidle
    obtain ⟨hscheduled, -⟩ := h event delay now deadline c' he hpending hidle hstep
    obtain ⟨-, hfaster⟩ := step_of_failure he hidle hstep
    rw [hfaster] at hscheduled
    refine ⟨fun hstarts => ?_, fun hnot => ?_⟩
    · rw [startDebounceIfFaster_of_starts hstarts] at hscheduled
      have hmin := Option.some.inj hscheduled
      omega
    · rw [startDebounceIfFaster_of_not hnot, hpending] at hscheduled
      have hmin := Option.some.inj hscheduled
      omega
  · intro h event delay now deadline c'' he hpending hidle hstep'
    obtain ⟨hstarts, hnot⟩ := h event delay now deadline he hpending hidle
    obtain ⟨-, hfaster⟩ := step_of_failure he hidle hstep'
    have hscheduled : (c.startDebounceIfFaster delay now).scheduled =
        some (min deadline (now + delay)) := by
      by_cases hstart : c.StartsTimer delay now
      · rw [startDebounceIfFaster_of_starts hstart, Nat.min_eq_right (hstarts hstart)]
        rfl
      · rw [startDebounceIfFaster_of_not hstart, Nat.min_eq_left (hnot hstart)]
        exact hpending
    refine ⟨hfaster.trans hscheduled, fun b hb => ?_⟩
    rw [(hb.addDebounceEvent event now).deadlines, addDebounceEvent_of_failure he hidle, hscheduled]
    rfl

/-- Nothing else touches a timer that is pending, until it fires. -/
theorem step_of_no_failure (halone : c.Alone) (he : e.failure? = none)
    (htimeout : e.isTimeout = false) (hidle : c.handlingDebounce = false)
    (hpending : c.scheduled = some deadline) (hstep : machine.step c e = some c') :
    c'.handlingDebounce = false ∧ c'.scheduled = c.scheduled := by
  obtain ⟨⟨c₁, sent⟩, hsome, rfl⟩ :=
    Option.map_eq_some_iff.mp (Option.ite_none_left_eq_some.mp hstep).2
  have hnobody : ∀ i : ℕ, c.handlers[i]? = none := by
    intro i
    rw [halone.idle hidle]
    rfl
  cases e with
  | start delivering uuid =>
    obtain ⟨hnone, -⟩ := Option.ite_none_right_eq_some.mp hsome
    cases hpending.symm.trans (halone.unstarted (Option.isNone_iff_eq_none.mp hnone)).2.1
  | timeout => cases htimeout
  | deliverySettled i | offerCreated i | localDescriptionSet i | rolledBack i =>
    simp only [RtcConnector.step, hnobody] at hsome
    cases hsome
  | iceConnectionState state t =>
    obtain ⟨-, hsome⟩ := Option.ite_none_right_eq_some.mp hsome
    cases state with
    | disconnected | failed => cases he
    | _ =>
      obtain ⟨rfl, -⟩ := Prod.mk.inj (Option.some.inj hsome)
      exact ⟨hidle, rfl⟩
  | channelState state t =>
    obtain ⟨-, hsome⟩ := Option.ite_none_right_eq_some.mp hsome
    cases state with
    | closed => cases he
    | _ =>
      obtain ⟨rfl, -⟩ := Prod.mk.inj (Option.some.inj hsome)
      exact ⟨hidle, rfl⟩
  | iceCandidate sdp =>
    obtain ⟨-, hsome⟩ := Option.ite_none_right_eq_some.mp hsome
    obtain ⟨rfl, -⟩ := Prod.mk.inj (Option.some.inj hsome)
    exact ⟨hidle, rfl⟩
  | close =>
    obtain ⟨rfl, -⟩ := Prod.mk.inj (Option.some.inj hsome)
    exact ⟨hidle, rfl⟩

/-- Where failures bring the timer forward, it stands at the earliest deadline. -/
theorem earliest_of_along {es : List BrowserEvent} (hreach : machine.Reachable c)
    (hrun : machine.run c es = some c') (hforward : machine.Along BroughtForward c es)
    (hpending : c.scheduled = some deadline) (hidle : c.handlingDebounce = false)
    (htimeout : ∀ e ∈ es, e.isTimeout = false) :
    c'.handlingDebounce = false ∧
      c'.scheduled = some ((es.filterMap BrowserEvent.deadline?).foldl min deadline) := by
  refine StateMachine.run_induction (M := machine) (P := fun es c' =>
    machine.Along BroughtForward c es → (∀ e ∈ es, e.isTimeout = false) →
      c'.handlingDebounce = false ∧
        c'.scheduled = some ((es.filterMap BrowserEvent.deadline?).foldl min deadline))
    (fun _ _ => ⟨hidle, hpending⟩) ?_ hrun hforward htimeout
  intro es c₁ e c₂ hrun ih hstep hforward htimeout
  obtain ⟨hidle, hpending⟩ := ih hforward.init fun e he => htimeout e (List.mem_append_left _ he)
  have hlast := htimeout e (List.mem_append_right _ (List.mem_singleton_self _))
  rw [List.filterMap_append, List.foldl_append]
  cases he : e.failure? with
  | none =>
    have hdeadline : [e].filterMap BrowserEvent.deadline? = [] := by
      simp only [List.filterMap_cons, BrowserEvent.deadline?, he, Option.map_none,
        List.filterMap_nil]
    obtain ⟨hidle', hsame⟩ := step_of_no_failure (reachable_alone (hreach.run hrun)) he hlast hidle
      hpending hstep
    rw [hdeadline, hsame, hpending]
    exact ⟨hidle', rfl⟩
  | some failure =>
    obtain ⟨event, delay, now⟩ := failure
    have hdeadline : [e].filterMap BrowserEvent.deadline? = [now + delay] := by
      simp only [List.filterMap_cons, BrowserEvent.deadline?, he, Option.map_some,
        List.filterMap_nil]
    obtain ⟨hscheduled, -⟩ :=
      hforward.last hrun event delay now _ c₂ he hpending hidle hstep
    rw [hdeadline, hscheduled]
    exact ⟨(step_of_failure he hidle hstep).1, rfl⟩

/-- **The browser recovers as soon as it is to if and only if** the time that has gone by is
compared rightly, whenever a failure comes while a timer is pending. -/
theorem brought_forward_iff {es : List BrowserEvent} (hrun : machine.run machine.init es = some c) :
    Prompt es ↔ machine.Along Apt machine.init es := by
  have hiff : machine.Along BroughtForward machine.init es ↔ machine.Along Apt machine.init es :=
    StateMachine.along_congr .init hrun fun _ _ _ _ hstep => broughtForward_iff_apt hstep
  refine ⟨fun h => hiff.mp h.forward, fun h => ⟨hiff.mpr h, ?_⟩⟩
  rintro pre mid post c₁ c₂ deadline rfl hpre hmid hpending hidle htimeout
  have hforward : machine.Along BroughtForward c₁ mid := by
    intro es e es' c₃ hsplit hes
    refine hiff.mpr h (pre ++ es) e (es' ++ post) c₃ ?_
      (StateMachine.run_append_eq_some.mpr ⟨c₁, hpre, hes⟩)
    rw [hsplit]
    simp
  exact (earliest_of_along ⟨pre, hpre⟩ hmid hforward hpending hidle htimeout).2

/-- An offer has been sent, and a tenth of a second later the connection fails. -/
def failedEarly : List BrowserEvent :=
  [.start false "id", .offerCreated 0 900 (some "offer"), .localDescriptionSet 0 1000 (some "sdp"),
    .iceConnectionState .failed 1100]

/-- The timer stays where it was, at eleven seconds. -/
theorem not_prompt_failedEarly :
    (∃ c, machine.run machine.init failedEarly = some c ∧ c.scheduled = some 11000) ∧
      ¬Prompt failedEarly := by
  refine ⟨⟨_, rfl, rfl⟩, fun h => ?_⟩
  have hearliest := h.earliest (failedEarly.take 3) (failedEarly.drop 3) [] _ _ 11000 rfl rfl rfl
    rfl rfl (by decide)
  cases hearliest

/-- The connection is lost, and fails a second and a half later. -/
def failedLate : List BrowserEvent :=
  [.start false "id", .offerCreated 0 900 (some "offer"), .localDescriptionSet 0 1000 (some "sdp"),
    .iceConnectionState .disconnected 6000, .iceConnectionState .failed 7500]

theorem brought_forward_iff_failedLate : Prompt failedLate := by
  have hother : ∀ {c : RtcConnector} {e : BrowserEvent}, e.failure? = none → c.Apt e :=
    fun hnone _ _ _ _ he => nomatch hnone.symm.trans he
  refine (brought_forward_iff rfl).mpr ?_
  refine .cons (hother rfl) rfl (.cons (hother rfl) rfl (.cons (hother rfl) rfl
    (.cons ?_ rfl (.cons ?_ rfl .nil))))
  · rintro event delay now deadline ⟨⟩ ⟨⟩ -
    refine ⟨?_, fun _ => by decide⟩
    rintro (⟨⟨⟩⟩ | ⟨t, ⟨⟩, -, hlt⟩)
    exact absurd hlt (by decide)
  · rintro event delay now deadline ⟨⟩ ⟨⟩ -
    exact ⟨fun _ => by decide, fun hnot => absurd (.inr ⟨1000, rfl, by decide, by decide⟩) hnot⟩

end RtcConnector

end Ts

end Vamp
