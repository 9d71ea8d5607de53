import Vamp.BrowserConnector

/-!
# Does the browser recover?

The debouncer of `rtc_connector.ts` is to bring the connector back whenever the connection
or its channel is lost. In a state that is neither healthy nor closed, a timer must be
pending or `onDebounceTimeout` at work (`NotStranded`).

`onDebounceTimeout` always leaves a healthy connector, a timer or a promise behind. So the
connector can only be stranded by an event that meets it **resting**, with no timer and
no invocation: two states of the ICE connection and two of the channel are not listened
to, and `startDebounceIfFaster` takes a timer that has gone off long since for one that is
pending. `Heard` says which events escape that, and it is exact.

The second part is about `send`, which has its own notion of being connected.
-/

namespace Vamp

namespace Ts

/-- `NodeState`. -/
inductive NodeState : Type where
  | connecting | connected | closing | closed
  deriving DecidableEq, Repr

/-- What becomes of a frame that is given to `send`. -/
inductive SendOutcome : Type where
  /-- `send` throws 'peer connection not connected' -/
  | notConnected
  /-- `send` throws, as there is no channel to call -/
  | noChannel
  /-- `send` of the channel is called, in this state of the channel -/
  | handed (channel : ChannelState)
  deriving DecidableEq, Repr

/-- The event is a change of `iceConnectionState`. -/
def BrowserEvent.changesIce : BrowserEvent → Bool
  | .iceConnectionState _ _ => true
  | _ => false

namespace RtcConnector

/-- The connector as a machine. Once it is closed, an `RTCPeerConnection` stays closed. -/
def machine : StateMachine RtcConnector BrowserEvent where
  init := .new
  step c e :=
    if c.peerConnection = some .closed ∧ e.changesIce = true then none
    else (c.step e).map Prod.fst

/-- What `onDebounceTimeout` takes for a connection that needs nothing. -/
def Healthy (c : RtcConnector) : Prop := c.isConnected = true ∧ c.isChannelOpen = true

/-- A timer is pending, or `onDebounceTimeout` is in progress. -/
def Recovering (c : RtcConnector) : Prop := c.scheduled.isSome ∨ c.handlers ≠ []

/-- The connector is closed, or healthy, or recovering. -/
def Attended (c : RtcConnector) : Prop :=
  c.peerConnection = some .closed ∨ c.Healthy ∨ c.Recovering

/-- After `startPeerConnection`, the connector is attended. -/
def NotStranded (c : RtcConnector) : Prop := c.peerConnection ≠ none → c.Attended

/-- The condition under which `startDebounceIfFaster` starts the timer. -/
def StartsTimer (c : RtcConnector) (delay now : ℕ) : Prop :=
  c.debounceTimer = false ∨ ∃ t, c.debounceStartTime = some t ∧ t ≠ 0 ∧ delay < now - t

/-- Neither closed nor recovering. -/
def Resting (c : RtcConnector) : Prop :=
  c.peerConnection ≠ some .closed ∧ c.scheduled = none ∧ c.handlers = []

/-- An event that tells a resting connector of a loss is one it listens to, and comes long
enough after the timer was started last. -/
def Heard (c : RtcConnector) : BrowserEvent → Prop
  | .iceConnectionState .disconnected now =>
    c.Resting → c.StartsTimer disconnectedRestartInterval now
  | .iceConnectionState .failed now => c.Resting → c.StartsTimer failedRestartInterval now
  | .iceConnectionState .new _ | .iceConnectionState .checking _ => ¬ c.Resting
  | .channelState .closed now => c.Resting → c.StartsTimer closedChannelInterval now
  | .channelState .connecting _ | .channelState .closing _ => ¬ c.Resting
  | _ => True

variable {c c' : RtcConnector} {e : BrowserEvent} {sent : List SignalMsg}

/-! ## The timer -/

theorem startDebounceIfFaster_of_starts {delay now : ℕ} (h : c.StartsTimer delay now) :
    c.startDebounceIfFaster delay now = c.startDebounce delay now := by
  refine if_pos ?_
  rcases h with htimer | ⟨t, ht, hne, hlt⟩
  · rw [htimer]
    rfl
  · rw [ht]
    simp [hne, hlt]

theorem startDebounceIfFaster_of_not {delay now : ℕ} (h : ¬ c.StartsTimer delay now) :
    c.startDebounceIfFaster delay now = c := by
  refine if_neg fun hguard => h ?_
  rcases (Bool.or_eq_true _ _).mp hguard with htimer | hlate
  · exact Or.inl (Bool.not_eq_true' _ ▸ htimer)
  · cases ht : c.debounceStartTime with
    | none =>
      rw [ht] at hlate
      cases hlate
    | some t =>
      rw [ht] at hlate
      exact Or.inr ⟨t, ht, of_decide_eq_true hlate⟩

theorem startDebounceIfFaster_cases (c : RtcConnector) (delay now : ℕ) :
    c.startDebounceIfFaster delay now = c.startDebounce delay now ∨
      c.startDebounceIfFaster delay now = c := by
  unfold startDebounceIfFaster
  split
  · exact Or.inl rfl
  · exact Or.inr rfl

/-- A timer that is pending stays or is replaced, and no invocation is lost. -/
theorem Recovering.addDebounceEvent (h : c.Recovering) (event : DebounceEvent) (now : ℕ) :
    (c.addDebounceEvent event now).Recovering := by
  have hstart : ∀ delay, (c.startDebounce delay now).Recovering := fun _ => Or.inl rfl
  have hfaster : ∀ delay, (c.startDebounceIfFaster delay now).Recovering := by
    intro delay
    rcases startDebounceIfFaster_cases c delay now with heq | heq
    · rw [heq]
      exact hstart delay
    · rw [heq]
      exact h
  unfold RtcConnector.addDebounceEvent
  split
  · exact h
  · cases event with
    | disconnectedIce | failedIce | closedChannel => exact hfaster _
    | negotiatingChannel | negotiatingICE | failover => exact hstart _

/-- When nothing is pending and the timer is not started either, the connector does not
recover. -/
theorem recovering_startDebounceIfFaster {delay now : ℕ} (hscheduled : c.scheduled = none)
    (hnil : c.handlers = []) :
    (c.startDebounceIfFaster delay now).Recovering ↔ c.StartsTimer delay now := by
  by_cases hstarts : c.StartsTimer delay now
  · rw [startDebounceIfFaster_of_starts hstarts]
    exact iff_of_true (Or.inl rfl) hstarts
  · rw [startDebounceIfFaster_of_not hstarts]
    refine iff_of_false ?_ hstarts
    rintro (hsome | hne)
    · rw [hscheduled] at hsome
      cases hsome
    · exact hne hnil

/-! ## What is known of every state -/

/-- A connector that is started and not closed has a channel. -/
def HasChannel (c : RtcConnector) : Prop :=
  c.peerConnection ≠ none → c.peerConnection ≠ some .closed → c.channel ≠ none

/-- `onDebounceTimeout` has neither thrown nor lost the channel, unless the connector is
closed. -/
structure Equipped (c : RtcConnector) : Prop where
  /-- an invocation at work awaits a promise -/
  awaits : c.handlingDebounce = true → c.peerConnection ≠ some .closed → c.handlers ≠ []
  /-- there is a channel -/
  hasChannel : c.HasChannel

theorem equipped_new : new.Equipped where
  awaits h := by cases h
  hasChannel h := absurd rfl h

/-- The end of an invocation. -/
theorem equipped_of_idle (hidle : c.handlingDebounce = false) (hchannel : c.HasChannel) :
    c.Equipped where
  awaits h := by rw [hidle] at h; cases h
  hasChannel := hchannel

/-- An invocation awaits. -/
theorem equipped_of_await (hne : c.handlers ≠ []) (hchannel : c.HasChannel) : c.Equipped where
  awaits _ _ := hne
  hasChannel := hchannel

theorem await_handlers_ne_nil (c : RtcConnector) (s : Suspended) : (c.await s).handlers ≠ [] :=
  List.append_ne_nil_of_right_ne_nil _ (List.cons_ne_nil s [])

/-- An attempt awaits the offer, or the connector is closed. -/
theorem newAttempt_attended (hchannel : c.HasChannel) (hasConnection channelOpen : Bool)
    (uuid : String) : (c.newAttempt hasConnection channelOpen uuid).Equipped ∧
      (c.newAttempt hasConnection channelOpen uuid).Attended := by
  unfold newAttempt
  dsimp only
  split
  · exact ⟨equipped_of_await (await_handlers_ne_nil _ _) hchannel,
      Or.inr (Or.inr (Or.inr (await_handlers_ne_nil _ _)))⟩
  · split
    · rename_i hclosed
      exact ⟨⟨fun _ hopen => absurd hclosed hopen, fun _ hopen => absurd hclosed hopen⟩,
        Or.inl hclosed⟩
    · exact ⟨equipped_of_await (await_handlers_ne_nil _ _) fun _ _ => nofun,
        Or.inr (Or.inr (Or.inr (await_handlers_ne_nil _ _)))⟩

/-- **`onDebounceTimeout` leaves the connector attended** at its first await. -/
theorem onDebounceTimeout_attended (h : c.Equipped) (delivering : Bool) (uuid : String) :
    (c.onDebounceTimeout delivering uuid).Equipped ∧
      (c.onDebounceTimeout delivering uuid).Attended := by
  unfold onDebounceTimeout
  split
  · rename_i hclosed
    exact ⟨h, Or.inl hclosed⟩
  · dsimp only
    split
    · rename_i hhealthy
      exact ⟨h, Or.inr (Or.inl ((Bool.and_eq_true _ _).mp hhealthy))⟩
    · split
      · exact ⟨equipped_of_await (await_handlers_ne_nil _ _) h.hasChannel,
          Or.inr (Or.inr (Or.inr (await_handlers_ne_nil _ _)))⟩
      · refine newAttempt_attended ?_ _ _ uuid
        exact h.hasChannel

/-- A failed attempt leaves a timer behind. -/
theorem debounceFailed_attended (hchannel : c.HasChannel) (now : ℕ) :
    (c.debounceFailed now).Equipped ∧ (c.debounceFailed now).Attended :=
  ⟨equipped_of_idle rfl hchannel, Or.inr (Or.inr (Or.inl rfl))⟩

/-- After `createOffer`. -/
theorem offerCreated_attended (hchannel : c.HasChannel) (hasConnection channelOpen : Bool)
    (now : ℕ) (offer : Option String) :
    (c.offerCreated hasConnection channelOpen now offer).Equipped ∧
      (c.offerCreated hasConnection channelOpen now offer).Attended := by
  cases offer with
  | none => exact debounceFailed_attended hchannel now
  | some offer =>
    unfold offerCreated
    dsimp only
    split
    · rename_i hhealthy
      exact ⟨equipped_of_idle rfl hchannel, Or.inr (Or.inl ((Bool.and_eq_true _ _).mp hhealthy))⟩
    · split
      · exact debounceFailed_attended hchannel now
      · exact ⟨equipped_of_await (await_handlers_ne_nil _ _) hchannel,
          Or.inr (Or.inr (Or.inr (await_handlers_ne_nil _ _)))⟩

/-- After `setLocalDescription(offer)`. -/
theorem localDescriptionSet_attended (hchannel : c.HasChannel) (hasConnection channelOpen : Bool)
    (offer : String) (now : ℕ) (sdp : Option String) :
    (c.localDescriptionSet hasConnection channelOpen offer now sdp).1.Equipped ∧
      (c.localDescriptionSet hasConnection channelOpen offer now sdp).1.Attended := by
  cases sdp with
  | none => exact debounceFailed_attended hchannel now
  | some sdp =>
    unfold localDescriptionSet
    dsimp only
    split
    · exact ⟨equipped_of_await (await_handlers_ne_nil _ _) hchannel,
        Or.inr (Or.inr (Or.inr (await_handlers_ne_nil _ _)))⟩
    · exact ⟨equipped_of_idle rfl hchannel, Or.inr (Or.inr (Or.inl rfl))⟩

/-- After the rollback. -/
theorem rolledBack_attended (hchannel : c.HasChannel) (now : ℕ) (ok : Bool) :
    (c.rolledBack now ok).Equipped ∧ (c.rolledBack now ok).Attended := by
  refine debounceFailed_attended ?_ now
  cases ok with
  | true => exact hchannel
  | false => exact hchannel

/-! ## Changes of the connection and the channel -/

/-- A debounce event changes neither the connection, nor the channel, nor the invocations. -/
theorem Equipped.addDebounceEvent (h : c.Equipped) (event : DebounceEvent) (now : ℕ) :
    (c.addDebounceEvent event now).Equipped := by
  obtain ⟨startTime, timer, scheduled, heq, -⟩ := addDebounceEvent_eq c event now
  rw [heq]
  exact ⟨h.awaits, h.hasChannel⟩

/-- A connector that does not rest recovers, or is closed. -/
theorem attended_of_not_resting (h : ¬ c.Resting) :
    c.peerConnection = some .closed ∨ c.Recovering := by
  by_cases hclosed : c.peerConnection = some .closed
  · exact Or.inl hclosed
  · refine Or.inr ?_
    cases hscheduled : c.scheduled with
    | some t => exact Or.inl (by rw [hscheduled]; rfl)
    | none => exact Or.inr fun hnil => h ⟨hclosed, hscheduled, hnil⟩

theorem Resting.not_recovering (h : c.Resting) : ¬ c.Recovering := by
  rintro (hsome | hne)
  · rw [h.2.1] at hsome
    cases hsome
  · exact hne h.2.2

/-- A connector that rests is attended when it is healthy, and only then. -/
theorem Resting.attended_iff (h : c.Resting) : c.Attended ↔ c.Healthy := by
  constructor
  · rintro (hclosed | hhealthy | hrecovering)
    · exact absurd hclosed h.1
    · exact hhealthy
    · exact absurd hrecovering h.not_recovering
  · exact fun hhealthy => Or.inr (Or.inl hhealthy)

/-- Nothing is at work in a connector that rests. -/
theorem Resting.idle (h : c.Resting) (hequipped : c.Equipped) : c.handlingDebounce = false := by
  cases hh : c.handlingDebounce with
  | false => rfl
  | true => exact absurd h.2.2 (hequipped.awaits hh h.1)

/-- How long the timer is to run after a loss. -/
def lossInterval : DebounceEvent → Option ℕ
  | .disconnectedIce => some disconnectedRestartInterval
  | .failedIce => some failedRestartInterval
  | .closedChannel => some closedChannelInterval
  | _ => none

/-- A loss that a resting connector listens to: it is attended exactly when the timer is
started. -/
theorem Resting.attended_addDebounceEvent_iff {event : DebounceEvent} {delay : ℕ}
    (h : c.Resting) (hidle : c.handlingDebounce = false) (hunhealthy : ¬ c.Healthy)
    (hloss : lossInterval event = some delay) (now : ℕ) :
    (c.addDebounceEvent event now).Attended ↔ c.StartsTimer delay now := by
  have hevent : c.addDebounceEvent event now = c.startDebounceIfFaster delay now := by
    unfold addDebounceEvent
    rw [if_neg (by rw [hidle]; exact Bool.false_ne_true)]
    cases event with
    | disconnectedIce | failedIce | closedChannel =>
      rw [← Option.some.inj hloss]
    | negotiatingChannel | negotiatingICE | failover => cases hloss
  rw [hevent, ← recovering_startDebounceIfFaster h.2.1 h.2.2]
  constructor
  · intro hattended
    rcases startDebounceIfFaster_cases c delay now with heq | heq
    · rw [heq]
      exact Or.inl rfl
    · rw [heq] at hattended
      exact absurd (h.attended_iff.mp hattended) hunhealthy
  · exact fun hrecovering => Or.inr (Or.inr hrecovering)

theorem not_healthy_of_disconnected (h : c.isConnected = false) : ¬ c.Healthy := by
  rintro ⟨hconnected, -⟩
  rw [h] at hconnected
  cases hconnected

theorem not_healthy_of_channel (h : c.isChannelOpen = false) : ¬ c.Healthy := by
  rintro ⟨-, hopen⟩
  rw [h] at hopen
  cases hopen

variable {now : ℕ}

theorem notStranded_iff (h : c.peerConnection ≠ none) : c.NotStranded ↔ c.Attended :=
  ⟨fun hn => hn h, fun hattended _ => hattended⟩

@[simp] theorem addDebounceEvent_peerConnection (c : RtcConnector) (event : DebounceEvent)
    (now : ℕ) : (c.addDebounceEvent event now).peerConnection = c.peerConnection := by
  obtain ⟨startTime, timer, scheduled, heq, -⟩ := addDebounceEvent_eq c event now
  rw [heq]

theorem iceConnectionState_peerConnection {state : IceConnectionState}
    (hs : c.step (.iceConnectionState state now) = some (c', sent)) :
    c'.peerConnection = some state := by
  simp only [step, Option.ite_none_right_eq_some] at hs
  obtain ⟨-, hs⟩ := hs
  split at hs <;> obtain ⟨rfl, -⟩ := Prod.mk.inj (Option.some.inj hs) <;> simp

theorem channelState_peerConnection {state : ChannelState} (halone : c.Alone)
    (hs : c.step (.channelState state now) = some (c', sent)) :
    c'.peerConnection = c.peerConnection ∧ c.peerConnection ≠ none := by
  simp only [step, Option.ite_none_right_eq_some] at hs
  obtain ⟨hsome, hs⟩ := hs
  constructor
  · split at hs <;> obtain ⟨rfl, -⟩ := Prod.mk.inj (Option.some.inj hs) <;> simp
  · intro hnone
    rw [(halone.unstarted hnone).2.2] at hsome
    cases hsome

theorem iceConnectionState_equipped {state : IceConnectionState} (hequipped : c.Equipped)
    (hopen : c.peerConnection ≠ some .closed)
    (hs : c.step (.iceConnectionState state now) = some (c', sent)) : c'.Equipped := by
  simp only [step, Option.ite_none_right_eq_some] at hs
  obtain ⟨hsome, hs⟩ := hs
  have hstarted : c.peerConnection ≠ none := Option.isSome_iff_ne_none.mp hsome
  have hequipped₁ : { c with peerConnection := some state }.Equipped :=
    ⟨fun hh _ => hequipped.awaits hh hopen, fun _ _ => hequipped.hasChannel hstarted hopen⟩
  split at hs
  · obtain ⟨rfl, -⟩ := Prod.mk.inj (Option.some.inj hs)
    exact hequipped₁.addDebounceEvent _ now
  · obtain ⟨rfl, -⟩ := Prod.mk.inj (Option.some.inj hs)
    exact hequipped₁.addDebounceEvent _ now
  · obtain ⟨rfl, -⟩ := Prod.mk.inj (Option.some.inj hs)
    exact hequipped₁

theorem channelState_equipped {state : ChannelState} (hequipped : c.Equipped)
    (hs : c.step (.channelState state now) = some (c', sent)) : c'.Equipped := by
  simp only [step, Option.ite_none_right_eq_some] at hs
  obtain ⟨-, hs⟩ := hs
  have hequipped₁ : { c with channel := some state }.Equipped :=
    ⟨hequipped.awaits, fun _ _ => Option.some_ne_none state⟩
  split at hs
  · obtain ⟨rfl, -⟩ := Prod.mk.inj (Option.some.inj hs)
    exact hequipped₁.addDebounceEvent _ now
  · obtain ⟨rfl, -⟩ := Prod.mk.inj (Option.some.inj hs)
    exact hequipped₁

/-- **The ICE connection changes its state.** The connector is left attended exactly when it
has heard of it. -/
theorem iceConnectionState_attended_iff {state : IceConnectionState} (hequipped : c.Equipped)
    (hn : c.NotStranded) (hopen : c.peerConnection ≠ some .closed)
    (hs : c.step (.iceConnectionState state now) = some (c', sent)) :
    c'.Attended ↔ c.Heard (.iceConnectionState state now) := by
  simp only [step, Option.ite_none_right_eq_some] at hs
  obtain ⟨hsome, hs⟩ := hs
  have hstarted : c.peerConnection ≠ none := Option.isSome_iff_ne_none.mp hsome
  let c₁ : RtcConnector := { c with peerConnection := some state }
  by_cases hrest : c.Resting
  · have hhealthy : c.Healthy := hrest.attended_iff.mp (hn hstarted)
    have hidle : c₁.handlingDebounce = false := hrest.idle hequipped
    have hrest₁ : state ≠ .closed → c₁.Resting := fun hne =>
      ⟨fun heq => hne (Option.some.inj heq), hrest.2⟩
    cases state with
    | new | checking =>
      obtain ⟨rfl, -⟩ := Prod.mk.inj (Option.some.inj hs)
      refine iff_of_false (fun hattended => ?_) (not_not_intro hrest)
      exact not_healthy_of_disconnected rfl ((hrest₁ (by decide)).attended_iff.mp hattended)
    | connected | completed =>
      obtain ⟨rfl, -⟩ := Prod.mk.inj (Option.some.inj hs)
      exact iff_of_true (Or.inr (Or.inl ⟨rfl, hhealthy.2⟩)) trivial
    | closed =>
      obtain ⟨rfl, -⟩ := Prod.mk.inj (Option.some.inj hs)
      exact iff_of_true (Or.inl rfl) trivial
    | disconnected =>
      obtain ⟨rfl, -⟩ := Prod.mk.inj (Option.some.inj hs)
      exact ((hrest₁ (by decide)).attended_addDebounceEvent_iff hidle
        (not_healthy_of_disconnected rfl) rfl now).trans
          ⟨fun hstarts _ => hstarts, fun hheard => hheard hrest⟩
    | failed =>
      obtain ⟨rfl, -⟩ := Prod.mk.inj (Option.some.inj hs)
      exact ((hrest₁ (by decide)).attended_addDebounceEvent_iff hidle
        (not_healthy_of_disconnected rfl) rfl now).trans
          ⟨fun hstarts _ => hstarts, fun hheard => hheard hrest⟩
  · -- a timer or an invocation is there, and stays
    have hrecovering : c₁.Recovering := (attended_of_not_resting hrest).resolve_left hopen
    cases state with
    | new | checking =>
      obtain ⟨rfl, -⟩ := Prod.mk.inj (Option.some.inj hs)
      exact iff_of_true (Or.inr (Or.inr hrecovering)) hrest
    | connected | completed | closed =>
      obtain ⟨rfl, -⟩ := Prod.mk.inj (Option.some.inj hs)
      exact iff_of_true (Or.inr (Or.inr hrecovering)) trivial
    | disconnected | failed =>
      obtain ⟨rfl, -⟩ := Prod.mk.inj (Option.some.inj hs)
      exact iff_of_true (Or.inr (Or.inr (hrecovering.addDebounceEvent _ now)))
        fun h => absurd h hrest

/-- **The channel changes its state.** The connector is left attended exactly when it has
heard of it. -/
theorem channelState_attended_iff {state : ChannelState} (hequipped : c.Equipped)
    (halone : c.Alone) (hn : c.NotStranded)
    (hs : c.step (.channelState state now) = some (c', sent)) :
    c'.Attended ↔ c.Heard (.channelState state now) := by
  obtain ⟨-, hstarted⟩ := channelState_peerConnection halone hs
  simp only [step, Option.ite_none_right_eq_some] at hs
  obtain ⟨-, hs⟩ := hs
  let c₁ : RtcConnector := { c with channel := some state }
  by_cases hrest : c.Resting
  · have hhealthy : c.Healthy := hrest.attended_iff.mp (hn hstarted)
    have hidle : c₁.handlingDebounce = false := hrest.idle hequipped
    have hrest₁ : c₁.Resting := hrest
    cases state with
    | connecting | closing =>
      obtain ⟨rfl, -⟩ := Prod.mk.inj (Option.some.inj hs)
      refine iff_of_false (fun hattended => ?_) (not_not_intro hrest)
      exact not_healthy_of_channel rfl (hrest₁.attended_iff.mp hattended)
    | «open» =>
      obtain ⟨rfl, -⟩ := Prod.mk.inj (Option.some.inj hs)
      exact iff_of_true (Or.inr (Or.inl ⟨hhealthy.1, rfl⟩)) trivial
    | closed =>
      obtain ⟨rfl, -⟩ := Prod.mk.inj (Option.some.inj hs)
      exact (hrest₁.attended_addDebounceEvent_iff hidle (not_healthy_of_channel rfl) rfl
        now).trans ⟨fun hstarts _ => hstarts, fun hheard => hheard hrest⟩
  · have hleft : c₁.peerConnection = some .closed ∨ c₁.Recovering := attended_of_not_resting hrest
    have hattended : c₁.Attended := hleft.imp_right Or.inr
    cases state with
    | connecting | closing =>
      obtain ⟨rfl, -⟩ := Prod.mk.inj (Option.some.inj hs)
      exact iff_of_true hattended hrest
    | «open» =>
      obtain ⟨rfl, -⟩ := Prod.mk.inj (Option.some.inj hs)
      exact iff_of_true hattended trivial
    | closed =>
      obtain ⟨rfl, -⟩ := Prod.mk.inj (Option.some.inj hs)
      refine iff_of_true ?_ fun h => absurd h hrest
      obtain ⟨startTime, timer, scheduled, heq, -⟩ := addDebounceEvent_eq c₁ .closedChannel now
      rcases hleft with hclosed | hrecovering
      · rw [heq]
        exact Or.inl hclosed
      · exact Or.inr (Or.inr (hrecovering.addDebounceEvent _ now))

/-! ## Runs -/

/-- An invocation is resumed: nothing but the list of invocations has changed. -/
theorem Equipped.resume (h : c.Equipped) (i : ℕ) : (c.resume i).HasChannel := h.hasChannel

/-- **Every step** keeps the connector equipped, and leaves an attended one attended exactly
when it has heard of the loss, if there is one. -/
theorem step_notStranded_iff (halone : c.Alone) (hequipped : c.Equipped)
    (hs : machine.step c e = some c') :
    c'.Equipped ∧ (c.NotStranded → (c'.NotStranded ↔ c.Heard e)) := by
  simp only [machine, Option.ite_none_left_eq_some, Option.map_eq_some_iff] at hs
  obtain ⟨hfinal, ⟨_, sent⟩, hs, rfl⟩ := hs
  -- most events leave the connector attended
  have hleft : ∀ {c' : RtcConnector} {p : Prop}, c'.Equipped ∧ c'.Attended → p →
      c'.Equipped ∧ (c.NotStranded → (c'.NotStranded ↔ p)) :=
    fun h hp => ⟨h.1, fun _ => iff_of_true (fun _ => h.2) hp⟩
  cases e with
  | start delivering uuid =>
    simp only [step, Option.ite_none_right_eq_some, Option.some.injEq, Prod.mk.injEq] at hs
    obtain ⟨hnone, rfl, -⟩ := hs
    obtain ⟨hidle, -, -⟩ := halone.unstarted (Option.isNone_iff_eq_none.mp hnone)
    let c₁ : RtcConnector := { c with peerConnection := some .new, channel := some .connecting }
    have hequipped₁ : c₁.Equipped := equipped_of_idle hidle fun _ _ => Option.some_ne_none _
    exact hleft (onDebounceTimeout_attended hequipped₁ delivering uuid) trivial
  | timeout now delivering uuid =>
    simp only [step] at hs
    split at hs
    · simp only [Option.ite_none_right_eq_some, Option.some.injEq, Prod.mk.injEq] at hs
      obtain ⟨-, rfl, -⟩ := hs
      refine hleft (onDebounceTimeout_attended ?_ delivering uuid) trivial
      exact ⟨hequipped.awaits, hequipped.hasChannel⟩
    · cases hs
  | deliverySettled i uuid =>
    simp only [step] at hs
    split at hs
    · obtain ⟨rfl, -⟩ := Prod.mk.inj (Option.some.inj hs)
      exact hleft (newAttempt_attended (hequipped.resume i) _ _ uuid) trivial
    · cases hs
  | offerCreated i now offer =>
    simp only [step] at hs
    split at hs
    · obtain ⟨rfl, -⟩ := Prod.mk.inj (Option.some.inj hs)
      exact hleft (offerCreated_attended (hequipped.resume i) _ _ now offer) trivial
    · cases hs
  | localDescriptionSet i now sdp =>
    simp only [step] at hs
    split at hs
    · have hc' := congrArg Prod.fst (Option.some.inj hs)
      rw [← hc']
      exact hleft (localDescriptionSet_attended (hequipped.resume i) _ _ _ now sdp) trivial
    · cases hs
  | rolledBack i now ok =>
    simp only [step] at hs
    split at hs
    · obtain ⟨rfl, -⟩ := Prod.mk.inj (Option.some.inj hs)
      exact hleft (rolledBack_attended (hequipped.resume i) now ok) trivial
    · cases hs
  | iceConnectionState state now =>
    have hopen : c.peerConnection ≠ some .closed := fun hclosed => hfinal ⟨hclosed, rfl⟩
    refine ⟨iceConnectionState_equipped hequipped hopen hs, fun hn => ?_⟩
    rw [← iceConnectionState_attended_iff hequipped hn hopen hs]
    refine notStranded_iff ?_
    rw [iceConnectionState_peerConnection hs]
    exact Option.some_ne_none state
  | channelState state now =>
    refine ⟨channelState_equipped hequipped hs, fun hn => ?_⟩
    rw [← channelState_attended_iff hequipped halone hn hs]
    refine notStranded_iff ?_
    obtain ⟨hsame, hstarted⟩ := channelState_peerConnection halone hs
    rw [hsame]
    exact hstarted
  | iceCandidate sdp =>
    simp only [step, Option.ite_none_right_eq_some, Option.some.injEq, Prod.mk.injEq] at hs
    obtain ⟨-, rfl, -⟩ := hs
    exact ⟨hequipped, fun hn => iff_of_true hn trivial⟩
  | close =>
    obtain ⟨rfl, -⟩ := Prod.mk.inj (Option.some.inj hs)
    cases hpeer : c.peerConnection with
    | none =>
      refine ⟨⟨fun hh => ?_, fun h => absurd rfl h⟩,
        fun _ => iff_of_true (fun h => absurd rfl h) trivial⟩
      rw [(halone.unstarted hpeer).1] at hh
      cases hh
    | some state =>
      refine hleft ⟨⟨fun _ hopen => absurd rfl hopen, fun _ hopen => absurd rfl hopen⟩, ?_⟩ trivial
      exact Or.inl rfl

/-- Invocations are alone in every state. -/
theorem reachable_alone (h : machine.Reachable c) : c.Alone := by
  refine StateMachine.invariant (M := machine) (I := Alone) alone_new ?_ h
  intro c e c' _ halone hs
  simp only [machine, Option.ite_none_left_eq_some, Option.map_eq_some_iff] at hs
  obtain ⟨-, ⟨_, sent⟩, hs, rfl⟩ := hs
  exact (halone.step hs).1

/-- Every state is equipped. -/
theorem reachable_equipped (h : machine.Reachable c) : c.Equipped := by
  refine StateMachine.invariant (M := machine) (I := Equipped) equipped_new ?_ h
  intro c e c' hreachable hequipped hs
  exact (step_notStranded_iff (reachable_alone hreachable) hequipped hs).1

/-- **Never stranded, exactly**: the connector is attended throughout a run if and only if
every loss that meets it resting is heard. -/
theorem never_stranded_iff {es : List BrowserEvent} (hrun : machine.run .new es = some c) :
    machine.Throughout NotStranded .new es ↔ machine.Along Heard .new es := by
  refine StateMachine.throughout_iff_along (M := machine) (fun h => absurd rfl h) ?_ hrun
  intro c e c' hreachable hn hs
  exact (step_notStranded_iff (reachable_alone hreachable) (reachable_equipped hreachable) hs).2 hn

/-- The first negotiation succeeds: the connection is there, and then the channel is open. -/
def established : List BrowserEvent :=
  [.start false "n", .offerCreated 0 100 (some "o"), .localDescriptionSet 0 200 (some "o"),
    .iceConnectionState .connected 1000, .channelState .open 1100]

/-- The connection is lost and comes back. -/
def lostAndFound : List BrowserEvent :=
  established ++ [.timeout 10200 false "n'", .iceConnectionState .disconnected 20000,
    .iceConnectionState .connected 21000]

theorem never_stranded_iff_lostAndFound :
    machine.Throughout NotStranded .new lostAndFound ↔ machine.Along Heard .new lostAndFound :=
  never_stranded_iff (c := (machine.run .new lostAndFound).get rfl) (Option.some_get _).symm

/-- The connection comes back while the next offer is set, which is rolled back. The timer
of the rollback goes off, finds everything well, and the connection is lost again. -/
def lostAgain : List BrowserEvent :=
  established ++ [.timeout 10200 false "n'", .iceConnectionState .disconnected 20000,
    .timeout 25000 false "n'", .offerCreated 0 25100 (some "o'"),
    .iceConnectionState .connected 25200, .localDescriptionSet 0 25250 (some "o'"),
    .rolledBack 0 25300 true, .timeout 25800 false "n''", .iceConnectionState .disconnected 26000]

/-- The connector may be stranded: 700 milliseconds after a timer was started that has gone
off, a loss is not listened to. -/
theorem stranded :
    ¬ ∀ (es : List BrowserEvent) (c : RtcConnector), machine.run .new es = some c →
      machine.Throughout NotStranded .new es := by
  intro hall
  let c := (machine.run .new lostAgain).get rfl
  have hrun : machine.run .new lostAgain = some c := (Option.some_get _).symm
  have hn : c.NotStranded := hall lostAgain c hrun lostAgain [] c (List.append_nil _).symm hrun
  rcases hn nofun with hclosed | ⟨hconnected, -⟩ | hscheduled | hne
  · exact absurd hclosed (by decide)
  · exact absurd hconnected (by decide)
  · exact absurd hscheduled (by decide)
  · exact hne rfl

/-! ## Sending -/

/-- `state`. -/
def state (c : RtcConnector) : NodeState :=
  if c.peerConnection = some .closed then .closed
  else if (c.peerConnection = some .connected || c.peerConnection = some .completed) &&
      c.channel ≠ some .open then .connected
  else .connecting

/-- `send`. -/
def send (c : RtcConnector) : SendOutcome :=
  if c.state ≠ .connected then .notConnected
  else
    match c.channel with
    | some channel => .handed channel
    | none => .noChannel

/-- A frame is handed to an open channel exactly when the connector is healthy, and to no
other channel; otherwise `send` throws. -/
def SendsOnOpen (c : RtcConnector) : Prop :=
  (c.send = .handed .open ↔ c.Healthy) ∧ ∀ channel, c.send = .handed channel → channel = .open

theorem state_eq_connected_iff :
    c.state = .connected ↔ c.isConnected = true ∧ c.isChannelOpen = false := by
  unfold state isConnected isChannelOpen
  by_cases hclosed : c.peerConnection = some .closed
  · simp [hclosed]
  · by_cases hconnected : c.peerConnection = some .connected
    · simp [hconnected]
    · simp [hclosed, hconnected]

/-- Without a connection every frame is refused. -/
theorem send_of_not_connected (h : c.isConnected = false) : c.send = .notConnected := by
  refine if_pos fun hstate => ?_
  rw [(state_eq_connected_iff.mp hstate).1] at h
  cases h

/-- A healthy connector refuses every frame, too. -/
theorem send_of_healthy (h : c.Healthy) : c.send = .notConnected := by
  refine if_pos fun hstate => ?_
  have hopen := h.2
  rw [(state_eq_connected_iff.mp hstate).2] at hopen
  cases hopen

/-- With a connection and a channel that is not open, the frame goes to that channel. -/
theorem send_of_channel {channel : ChannelState} (hconnected : c.isConnected = true)
    (hchannel : c.channel = some channel) (hne : channel ≠ .open) :
    c.send = .handed channel := by
  have hstate : c.state = .connected := by
    refine state_eq_connected_iff.mpr ⟨hconnected, ?_⟩
    rw [isChannelOpen, hchannel]
    exact decide_eq_false fun heq => hne (Option.some.inj heq)
  rw [send, if_neg (not_not_intro hstate), hchannel]

/-- **When the right frames are sent**: as long as ICE is not connected, so that none is to
be sent, and never afterwards. -/
theorem sends_on_open_iff (h : machine.Reachable c) : c.SendsOnOpen ↔ c.isConnected = false := by
  constructor
  · rintro ⟨hopen, hother⟩
    by_contra hne
    have hconnected : c.isConnected = true := Bool.of_not_eq_false hne
    cases hchannel : c.channel with
    | none =>
      -- a connected connector has a channel
      refine (reachable_equipped h).hasChannel ?_ ?_ hchannel
      · intro hnone
        rw [isConnected, hnone] at hconnected
        cases hconnected
      · intro hclosed
        rw [isConnected, hclosed] at hconnected
        cases hconnected
    | some channel =>
      by_cases hstate : channel = .open
      · have hhealthy : c.Healthy := by
          refine ⟨hconnected, ?_⟩
          rw [isChannelOpen, hchannel, hstate]
          rfl
        have hsend := (send_of_healthy hhealthy).symm.trans (hopen.mpr hhealthy)
        cases hsend
      · exact hstate (hother channel (send_of_channel hconnected hchannel hstate))
  · intro hfalse
    rw [SendsOnOpen, send_of_not_connected hfalse]
    refine ⟨iff_of_false nofun (not_healthy_of_disconnected hfalse), nofun⟩

/-- The first negotiation is in progress. -/
def negotiating : List BrowserEvent := [.start false "n"]

theorem sends_on_open_iff_negotiating :
    ((machine.run .new negotiating).get rfl).SendsOnOpen ↔
      ((machine.run .new negotiating).get rfl).isConnected = false :=
  sends_on_open_iff ⟨negotiating, (Option.some_get _).symm⟩

/-- Frames are refused by a healthy connector. -/
theorem frame_refused :
    ¬ ∀ (es : List BrowserEvent) (c : RtcConnector), machine.run .new es = some c →
      c.SendsOnOpen := by
  intro hall
  let c := (machine.run .new established).get rfl
  have hrun : machine.run .new established = some c := (Option.some_get _).symm
  have hhealthy : c.Healthy := ⟨rfl, rfl⟩
  have hsend : c.send = .handed .open := (hall established c hrun).1.mpr hhealthy
  exact absurd hsend (by decide)

end RtcConnector

end Ts

end Vamp
