import Vamp.StateMachine
import Vamp.TransportTypes

/-!
# The browser's RTC connector

`RtcConnector` of `rtc_connector.ts`, the side that makes the offers. Its heart is
`onDebounceTimeout`, which is called when the peer connection is started and whenever the
debounce timer goes off, and which awaits up to four promises. What runs between two
awaits is one step; an invocation that awaits is a member of `handlers`, and anything may
happen before it is resumed.

Promises are settled by events: whether a call of the peer connection succeeds, and what
it gives. Time is carried by the events as well. Of `sendSignallingMessage` all that
remains is the message it is given: the queue behind it, its deliveries and the transport
below may lose, repeat, delay and reorder, and whether a delivery is in progress
(`deliveryState`) is left to the event.
-/

namespace Vamp

namespace Ts

/-- `RTCIceConnectionState`. -/
inductive IceConnectionState : Type where
  | new | checking | connected | completed | disconnected | failed | closed
  deriving DecidableEq, Repr

/-- `RTCDataChannelState`. -/
inductive ChannelState : Type where
  | connecting | open | closing | closed
  deriving DecidableEq, Repr

/-- `DebounceEvent`. -/
inductive DebounceEvent : Type where
  | disconnectedIce | failedIce | closedChannel | negotiatingChannel | negotiatingICE | failover
  deriving DecidableEq, Repr

/-- `DISCONNECTED_RESTART_INTERVAL`. -/
def disconnectedRestartInterval : ℕ := 5000

/-- `FAILED_RESTART_INTERVAL`. -/
def failedRestartInterval : ℕ := 1000

/-- `CLOSED_CHANNEL_INTERVAL`. -/
def closedChannelInterval : ℕ := 1000

/-- `FAILOVER_INTERVAL`. -/
def failoverInterval : ℕ := 500

/-- `NEGOTIATING_INTERVAL`. -/
def negotiatingInterval : ℕ := max 10000 (max disconnectedRestartInterval failedRestartInterval)

/-- An offer that has been set with `setLocalDescription`. -/
structure LocalOffer : Type where
  /-- `currentNegotiationId` at that time -/
  negId : Option String
  /-- what `createOffer` gave -/
  offer : String
  /-- what `localDescription.sdp` reads -/
  sdp : String
  deriving DecidableEq, Repr

/-- An invocation of `onDebounceTimeout` that awaits a promise, with the local variables it
still needs. -/
inductive Suspended : Type where
  /-- `await this.deliveryState.resend_task` -/
  | delivery (hasConnection channelOpen : Bool)
  /-- `await this.peerConnection!.createOffer(...)` -/
  | createOffer (hasConnection channelOpen : Bool)
  /-- `await this.peerConnection!.setLocalDescription(offer)` -/
  | setLocalDescription (hasConnection channelOpen : Bool) (offer : String)
  /-- `await this.peerConnection!.setLocalDescription({type: 'rollback'})` -/
  | rollback
  deriving DecidableEq, Repr

/-- `RtcConnector`. -/
structure RtcConnector : Type where
  /-- the negotiation in progress -/
  currentNegotiationId : Option String
  /-- `peerConnection`, by its `iceConnectionState` -/
  peerConnection : Option IceConnectionState
  /-- `channel`, by its `readyState` -/
  channel : Option ChannelState
  /-- when the timer was started -/
  debounceStartTime : Option ℕ
  /-- `debounceTimer` is set, the timer may have gone off -/
  debounceTimer : Bool
  /-- when the timer goes off -/
  scheduled : Option ℕ
  /-- whether `onDebounceTimeout` is at work -/
  handlingDebounce : Bool
  /-- the invocations of `onDebounceTimeout` that await -/
  handlers : List Suspended
  /-- the offers set with `setLocalDescription` and not rolled back, newest first -/
  localOffers : List LocalOffer

/-- What can happen to the connector. -/
inductive BrowserEvent : Type where
  /-- `startPeerConnection` -/
  | start (delivering : Bool) (uuid : String)
  /-- the debounce timer goes off -/
  | timeout (now : ℕ) (delivering : Bool) (uuid : String)
  /-- the delivery in progress is over -/
  | deliverySettled (i : ℕ) (uuid : String)
  /-- `createOffer` is settled -/
  | offerCreated (i now : ℕ) (offer : Option String)
  /-- `setLocalDescription(offer)` is settled; on success, what `localDescription.sdp` reads -/
  | localDescriptionSet (i now : ℕ) (sdp : Option String)
  /-- the rollback is settled -/
  | rolledBack (i now : ℕ) (ok : Bool)
  /-- `oniceconnectionstatechange` -/
  | iceConnectionState (state : IceConnectionState) (now : ℕ)
  /-- the data channel changes its state -/
  | channelState (state : ChannelState) (now : ℕ)
  /-- `onicecandidate` -/
  | iceCandidate (sdp : String)
  /-- `close` -/
  | close

/-- What `handleSignalMsg` calls on the peer connection. -/
inductive RemoteCall : Type where
  /-- `setRemoteDescription` with an answer -/
  | setRemoteDescription (sdp : String)
  /-- `addIceCandidate` -/
  | addIceCandidate (candidate : String)
  deriving DecidableEq, Repr

/-- The id that `crypto.randomUUID` would give. -/
def BrowserEvent.uuid : BrowserEvent → Option String
  | .start _ uuid | .timeout _ _ uuid | .deliverySettled _ uuid => some uuid
  | _ => none

/-- Whether an invocation awaits the delivery, and has not begun its own attempt. -/
def Suspended.AwaitsDelivery : Suspended → Prop
  | .delivery _ _ => True
  | _ => False

namespace RtcConnector

/-- The constructor. -/
def new : RtcConnector where
  currentNegotiationId := none
  peerConnection := none
  channel := none
  debounceStartTime := none
  debounceTimer := false
  scheduled := none
  handlingDebounce := false
  handlers := []
  localOffers := []

/-- `startDebounce`. -/
def startDebounce (c : RtcConnector) (delay now : ℕ) : RtcConnector :=
  { c with debounceStartTime := some now, debounceTimer := true, scheduled := some (now + delay) }

/-- `startDebounceIfFaster`. -/
def startDebounceIfFaster (c : RtcConnector) (delay now : ℕ) : RtcConnector :=
  if !c.debounceTimer || c.debounceStartTime.any fun t => t ≠ 0 ∧ delay < now - t then
    c.startDebounce delay now
  else c

/-- `addDebounceEvent`. -/
def addDebounceEvent (c : RtcConnector) (event : DebounceEvent) (now : ℕ) : RtcConnector :=
  if c.handlingDebounce then c
  else
    match event with
    | .disconnectedIce => c.startDebounceIfFaster disconnectedRestartInterval now
    | .failedIce => c.startDebounceIfFaster failedRestartInterval now
    | .closedChannel => c.startDebounceIfFaster closedChannelInterval now
    | .negotiatingChannel | .negotiatingICE => c.startDebounce negotiatingInterval now
    | .failover => c.startDebounce failoverInterval now

/-- `isConnected`. -/
def isConnected (c : RtcConnector) : Bool :=
  c.peerConnection = some .connected || c.peerConnection = some .completed

/-- `isChannelOpen`. -/
def isChannelOpen (c : RtcConnector) : Bool := c.channel = some .open

/-- `debounceFailed`. -/
def debounceFailed (c : RtcConnector) (now : ℕ) : RtcConnector :=
  { c with handlingDebounce := false }.addDebounceEvent .failover now

/-- An invocation of `onDebounceTimeout` awaits. -/
def await (c : RtcConnector) (s : Suspended) : RtcConnector :=
  { c with handlers := c.handlers ++ [s] }

/-- `onDebounceTimeout` from the new negotiation id on, up to `createOffer`. -/
def newAttempt (c : RtcConnector) (hasConnection channelOpen : Bool) (uuid : String) :
    RtcConnector :=
  let c := { c with currentNegotiationId := some uuid }
  if channelOpen then c.await (.createOffer hasConnection channelOpen)
  else if c.peerConnection = some .closed then
    -- `createDataChannel` throws
    { c with channel := none }
  else { c with channel := some .connecting }.await (.createOffer hasConnection channelOpen)

/-- `onDebounceTimeout` up to its first await. -/
def onDebounceTimeout (c : RtcConnector) (delivering : Bool) (uuid : String) : RtcConnector :=
  if c.peerConnection = some .closed then c
  else
    let hasConnection := c.isConnected
    let channelOpen := c.isChannelOpen
    if hasConnection && channelOpen then c
    else
      let c := { c with handlingDebounce := true }
      if delivering then c.await (.delivery hasConnection channelOpen)
      else c.newAttempt hasConnection channelOpen uuid

/-- `onDebounceTimeout` after `createOffer`. -/
def offerCreated (c : RtcConnector) (hasConnection channelOpen : Bool) (now : ℕ) :
    Option String → RtcConnector
  | none => c.debounceFailed now
  | some offer =>
    let newPeerConnected := c.isConnected
    let newChannelOpen := c.isChannelOpen
    if newPeerConnected && newChannelOpen then { c with handlingDebounce := false }
    else if newPeerConnected ≠ hasConnection || newChannelOpen ≠ channelOpen then
      c.debounceFailed now
    else c.await (.setLocalDescription hasConnection channelOpen offer)

/-- `onDebounceTimeout` after `setLocalDescription(offer)`: the offer is sent, unless it is
to be rolled back. A message without `neg_id` cannot be read by the other side. -/
def localDescriptionSet (c : RtcConnector) (hasConnection channelOpen : Bool) (offer : String)
    (now : ℕ) : Option String → RtcConnector × List SignalMsg
  | none => (c.debounceFailed now, [])
  | some sdp =>
    let c := { c with localOffers := ⟨c.currentNegotiationId, offer, sdp⟩ :: c.localOffers }
    if c.isConnected ≠ hasConnection || c.isChannelOpen ≠ channelOpen then
      (c.await .rollback, [])
    else
      ({ c with handlingDebounce := false }.addDebounceEvent .negotiatingICE now,
        c.currentNegotiationId.toList.map fun negId => ⟨.offer, sdp, negId⟩)

/-- `onDebounceTimeout` after the rollback. -/
def rolledBack (c : RtcConnector) (now : ℕ) (ok : Bool) : RtcConnector :=
  (if ok then { c with localOffers := c.localOffers.tail } else c).debounceFailed now

/-- `handleSignalMsg`: the call that it makes. -/
def handleSignalMsg (c : RtcConnector) (msg : SignalMsg) : Option RemoteCall :=
  if c.peerConnection.isNone then none
  else if some msg.negId ≠ c.currentNegotiationId then none
  else
    match msg.kind with
    | .answer => some (.setRemoteDescription msg.sdp)
    | .iceCandidate => some (.addIceCandidate msg.sdp)
    | _ => none

/-- An invocation of `onDebounceTimeout` is resumed. -/
def resume (c : RtcConnector) (i : ℕ) : RtcConnector := { c with handlers := c.handlers.eraseIdx i }

/-- One step: the connector afterwards, and the messages given to `sendSignallingMessage`. -/
def step (c : RtcConnector) : BrowserEvent → Option (RtcConnector × List SignalMsg)
  | .start delivering uuid =>
    if c.peerConnection.isNone then
      some ({ c with peerConnection := some .new, channel := some .connecting }.onDebounceTimeout
        delivering uuid, [])
    else none
  | .timeout now delivering uuid =>
    match c.scheduled with
    | some t =>
      if t ≤ now then some ({ c with scheduled := none }.onDebounceTimeout delivering uuid, [])
      else none
    | none => none
  | .deliverySettled i uuid =>
    match c.handlers[i]? with
    | some (.delivery hasConnection channelOpen) =>
      some ((c.resume i).newAttempt hasConnection channelOpen uuid, [])
    | _ => none
  | .offerCreated i now offer =>
    match c.handlers[i]? with
    | some (.createOffer hasConnection channelOpen) =>
      some ((c.resume i).offerCreated hasConnection channelOpen now offer, [])
    | _ => none
  | .localDescriptionSet i now sdp =>
    match c.handlers[i]? with
    | some (.setLocalDescription hasConnection channelOpen offer) =>
      some ((c.resume i).localDescriptionSet hasConnection channelOpen offer now sdp)
    | _ => none
  | .rolledBack i now ok =>
    match c.handlers[i]? with
    | some .rollback => some ((c.resume i).rolledBack now ok, [])
    | _ => none
  | .iceConnectionState state now =>
    if c.peerConnection.isSome then
      let c := { c with peerConnection := some state }
      match state with
      | .disconnected => some (c.addDebounceEvent .disconnectedIce now, [])
      | .failed => some (c.addDebounceEvent .failedIce now, [])
      | _ => some (c, [])
    else none
  | .channelState state now =>
    if c.channel.isSome then
      let c := { c with channel := some state }
      match state with
      | .closed => some (c.addDebounceEvent .closedChannel now, [])
      | _ => some (c, [])
    else none
  | .iceCandidate sdp =>
    -- with `undefined` for an id the backend could not read the message
    if c.peerConnection.isSome then
      some (c, c.currentNegotiationId.toList.map fun negId => ⟨.iceCandidate, sdp, negId⟩)
    else none
  | .close =>
    some ({ c with
      peerConnection := c.peerConnection.map fun _ => .closed
      channel := c.channel.map fun _ => .closed }, [])

/-! ### What the parts of a step do -/

variable {c c' : RtcConnector} {e : BrowserEvent} {sent : List SignalMsg}

/-- A debounce event concerns the timer only, and is ignored while `onDebounceTimeout` is
at work. -/
theorem addDebounceEvent_eq (c : RtcConnector) (event : DebounceEvent) (now : ℕ) :
    ∃ startTime timer scheduled, c.addDebounceEvent event now =
        { c with debounceStartTime := startTime, debounceTimer := timer, scheduled := scheduled } ∧
      (c.handlingDebounce = true → scheduled = c.scheduled) := by
  have hfaster : ∀ delay, ∃ startTime timer scheduled, c.startDebounceIfFaster delay now =
      { c with debounceStartTime := startTime, debounceTimer := timer,
               scheduled := scheduled } := by
    intro delay
    unfold startDebounceIfFaster
    split
    · exact ⟨_, _, _, rfl⟩
    · exact ⟨_, _, _, rfl⟩
  unfold addDebounceEvent
  split
  · exact ⟨c.debounceStartTime, c.debounceTimer, c.scheduled, rfl, fun _ => rfl⟩
  · rename_i hidle
    cases event with
    | disconnectedIce | failedIce | closedChannel =>
      obtain ⟨startTime, timer, scheduled, heq⟩ := hfaster _
      exact ⟨startTime, timer, scheduled, heq, fun hh => absurd hh hidle⟩
    | negotiatingChannel | negotiatingICE | failover =>
      exact ⟨_, _, _, rfl, fun hh => absurd hh hidle⟩

/-- A failed attempt ends `onDebounceTimeout` and sets the timer. -/
theorem debounceFailed_eq (c : RtcConnector) (now : ℕ) :
    ∃ startTime timer scheduled, c.debounceFailed now =
      { c with
        handlingDebounce := false
        debounceStartTime := startTime
        debounceTimer := timer
        scheduled := scheduled } := by
  obtain ⟨startTime, timer, scheduled, heq, -⟩ :=
    addDebounceEvent_eq { c with handlingDebounce := false } .failover now
  exact ⟨startTime, timer, scheduled, heq⟩

/-- A new attempt has a new negotiation id, and awaits `createOffer` unless the connection
is closed. -/
theorem newAttempt_eq (c : RtcConnector) (hasConnection channelOpen : Bool) (uuid : String) :
    ∃ channel handlers, c.newAttempt hasConnection channelOpen uuid =
        { c with currentNegotiationId := some uuid, channel := channel, handlers := handlers } ∧
      (handlers = c.handlers ∨
        handlers = c.handlers ++ [.createOffer hasConnection channelOpen]) := by
  unfold newAttempt
  dsimp only
  split
  · exact ⟨c.channel, _, rfl, Or.inr rfl⟩
  · split
    · exact ⟨none, _, rfl, Or.inl rfl⟩
    · exact ⟨some .connecting, _, rfl, Or.inr rfl⟩

/-- `onDebounceTimeout` does nothing, awaits the delivery, or makes a new attempt. -/
theorem onDebounceTimeout_cases (c : RtcConnector) (delivering : Bool) (uuid : String) :
    c.onDebounceTimeout delivering uuid = c ∨
    (∃ hasConnection channelOpen, c.onDebounceTimeout delivering uuid =
      { c with
        handlingDebounce := true
        handlers := c.handlers ++ [.delivery hasConnection channelOpen] }) ∨
    ∃ channel handlers, c.onDebounceTimeout delivering uuid =
        { c with
          handlingDebounce := true
          currentNegotiationId := some uuid
          channel := channel
          handlers := handlers } ∧
      (handlers = c.handlers ∨ ∃ hasConnection channelOpen,
        handlers = c.handlers ++ [.createOffer hasConnection channelOpen]) := by
  unfold onDebounceTimeout
  split
  · exact Or.inl rfl
  · dsimp only
    split
    · exact Or.inl rfl
    · split
      · exact Or.inr (Or.inl ⟨_, _, rfl⟩)
      · obtain ⟨channel, handlers, heq, hhandlers⟩ := newAttempt_eq
          { c with handlingDebounce := true } c.isConnected c.isChannelOpen uuid
        refine Or.inr (Or.inr ⟨channel, handlers, heq, hhandlers.imp id fun h => ⟨_, _, h⟩⟩)

/-! ### One invocation at a time -/

/-- No two invocations of `onDebounceTimeout` overlap: while one is at work, no timer is
set. -/
structure Alone (c : RtcConnector) : Prop where
  /-- at most one invocation awaits -/
  one : c.handlers.length ≤ 1
  /-- an invocation that awaits is at work -/
  handling : c.handlers ≠ [] → c.handlingDebounce = true
  /-- while one is at work, no timer is set -/
  quiet : c.handlingDebounce = true → c.scheduled = none
  /-- before the connection is started, nothing happens -/
  unstarted : c.peerConnection = none →
    c.handlingDebounce = false ∧ c.scheduled = none ∧ c.channel = none

theorem alone_new : new.Alone where
  one := Nat.zero_le _
  handling h := absurd rfl h
  quiet h := by cases h
  unstarted _ := ⟨rfl, rfl, rfl⟩

theorem Alone.idle (h : c.Alone) (hh : c.handlingDebounce = false) : c.handlers = [] := by
  by_contra hne
  rw [h.handling hne] at hh
  cases hh

/-- The only invocation is resumed. -/
theorem Alone.resume (h : c.Alone) {i : ℕ} {s : Suspended} (hs : c.handlers[i]? = some s) :
    (c.resume i).handlers = [] ∧ c.handlingDebounce = true ∧ c.scheduled = none ∧
      c.peerConnection ≠ none := by
  have hone := h.one
  have hmem : s ∈ c.handlers := List.mem_of_getElem? hs
  have hhandling : c.handlingDebounce = true := h.handling (List.ne_nil_of_mem hmem)
  refine ⟨?_, hhandling, h.quiet hhandling, ?_⟩
  · obtain ⟨hlt, -⟩ := List.getElem?_eq_some_iff.mp hs
    have hlength : (c.resume i).handlers.length = c.handlers.length - 1 :=
      List.length_eraseIdx_of_lt hlt
    exact List.length_eq_zero_iff.mp (by omega)
  · intro hnone
    rw [(h.unstarted hnone).1] at hhandling
    cases hhandling

/-- A debounce event does not make a second invocation. -/
theorem Alone.addDebounceEvent (h : c.Alone) (hstarted : c.peerConnection ≠ none)
    (event : DebounceEvent) (now : ℕ) : (c.addDebounceEvent event now).Alone := by
  obtain ⟨startTime, timer, scheduled, heq, hsame⟩ := addDebounceEvent_eq c event now
  rw [heq]
  exact
    { one := h.one
      handling := h.handling
      quiet := fun hh => (hsame hh).trans (h.quiet hh)
      unstarted := fun hnone => absurd hnone hstarted }

/-- The end of an invocation. -/
theorem alone_of_finished (hstarted : c.peerConnection ≠ none) (hnil : c.handlers = [])
    (hh : c.handlingDebounce = false) : c.Alone where
  one := by rw [hnil]; exact Nat.zero_le _
  handling hne := absurd hnil hne
  quiet h := by rw [hh] at h; cases h
  unstarted hnone := absurd hnone hstarted

/-- An invocation at work awaits, or has thrown. -/
theorem alone_of_working (hstarted : c.peerConnection ≠ none) (hone : c.handlers.length ≤ 1)
    (hh : c.handlingDebounce = true) (hscheduled : c.scheduled = none) : c.Alone where
  one := hone
  handling _ := hh
  quiet _ := hscheduled
  unstarted hnone := absurd hnone hstarted

/-- An invocation begins when none is there and no timer is set. -/
theorem alone_onDebounceTimeout (hstarted : c.peerConnection ≠ none) (hnil : c.handlers = [])
    (hh : c.handlingDebounce = false) (hscheduled : c.scheduled = none) (delivering : Bool)
    (uuid : String) : (c.onDebounceTimeout delivering uuid).Alone := by
  rcases onDebounceTimeout_cases c delivering uuid with
    heq | ⟨_, _, heq⟩ | ⟨channel, handlers, heq, hhandlers⟩
  · rw [heq]
    exact alone_of_finished hstarted hnil hh
  · rw [heq]
    exact alone_of_working hstarted (by simp [hnil]) rfl hscheduled
  · rw [heq]
    refine alone_of_working hstarted ?_ rfl hscheduled
    rcases hhandlers with rfl | ⟨_, _, rfl⟩
    · simp [hnil]
    · simp [hnil]

/-- **What a step means for the negotiation.** -/
inductive Progress (c : RtcConnector) (e : BrowserEvent) :
    RtcConnector → List SignalMsg → Prop where
  /-- no attempt goes on or begins -/
  | idle {c' : RtcConnector} {sent : List SignalMsg}
      (sameId : c'.currentNegotiationId = c.currentNegotiationId)
      (sameOffers : c'.localOffers = c.localOffers)
      (handlers : ∀ s ∈ c'.handlers, s ∈ c.handlers ∨ s.AwaitsDelivery)
      (noOffer : ∀ m ∈ sent, m.kind ≠ .offer) : Progress c e c' sent
  /-- an attempt begins -/
  | begun {c' : RtcConnector} {uuid : String} (drawn : e.uuid = some uuid)
      (newId : c'.currentNegotiationId = some uuid) : Progress c e c' []
  /-- an attempt goes on, or fails -/
  | underway {c' : RtcConnector} {s : Suspended} (mem : s ∈ c.handlers) (own : ¬ s.AwaitsDelivery)
      (sameId : c'.currentNegotiationId = c.currentNegotiationId) : Progress c e c' []
  /-- an attempt succeeds: its offer is sent -/
  | offered {c' : RtcConnector} {s : Suspended} {offer sdp : String} (mem : s ∈ c.handlers)
      (own : ¬ s.AwaitsDelivery) (sameId : c'.currentNegotiationId = c.currentNegotiationId)
      (set : c'.localOffers = ⟨c.currentNegotiationId, offer, sdp⟩ :: c.localOffers)
      (finished : c'.handlers = []) :
      Progress c e c' (c.currentNegotiationId.toList.map fun negId => ⟨.offer, sdp, negId⟩)

/-- The id stays, or is drawn. -/
theorem Progress.id_cases {c' : RtcConnector} (h : c.Progress e c' sent) :
    c'.currentNegotiationId = c.currentNegotiationId ∨
      ∃ uuid, e.uuid = some uuid ∧ c'.currentNegotiationId = some uuid := by
  cases h with
  | idle sameId => exact Or.inl sameId
  | begun drawn newId => exact Or.inr ⟨_, drawn, newId⟩
  | underway mem own sameId => exact Or.inl sameId
  | offered mem own sameId => exact Or.inl sameId

/-- **An offer that is sent** has the current id, is the one set last, and ends its
attempt. -/
theorem Progress.offer_sent {c' : RtcConnector} (h : c.Progress e c' sent) {m : SignalMsg}
    (hm : m ∈ sent) (hkind : m.kind = .offer) :
    c.currentNegotiationId = some m.negId ∧ c'.handlers = [] ∧
      ∃ offer, c'.localOffers.head? = some ⟨some m.negId, offer, m.sdp⟩ := by
  cases h with
  | idle sameId sameOffers handlers noOffer => exact absurd hkind (noOffer m hm)
  | begun drawn newId => cases hm
  | underway mem own sameId => cases hm
  | @offered _ offer sdp mem own sameId set finished =>
    obtain ⟨negId, hnegId, rfl⟩ := List.mem_map.mp hm
    have hid : c.currentNegotiationId = some negId := Option.mem_toList.mp hnegId
    refine ⟨hid, finished, offer, ?_⟩
    rw [set, hid]
    rfl

/-- Nothing that concerns the negotiation has changed. -/
structure SameNegotiation (c c₁ : RtcConnector) : Prop where
  /-- the id -/
  id : c₁.currentNegotiationId = c.currentNegotiationId
  /-- the offers -/
  offers : c₁.localOffers = c.localOffers
  /-- the invocations that await -/
  handlers : c₁.handlers = c.handlers

theorem SameNegotiation.progress {c₁ : RtcConnector} (h : c.SameNegotiation c₁)
    (noOffer : ∀ m ∈ sent, m.kind ≠ .offer) : c.Progress e c₁ sent :=
  .idle h.id h.offers (fun _ hs => Or.inl (h.handlers ▸ hs)) noOffer

theorem SameNegotiation.addDebounceEvent {c₁ : RtcConnector} (h : c.SameNegotiation c₁)
    (event : DebounceEvent) (now : ℕ) : c.SameNegotiation (c₁.addDebounceEvent event now) := by
  obtain ⟨startTime, timer, scheduled, heq, -⟩ := addDebounceEvent_eq c₁ event now
  rw [heq]
  exact ⟨h.id, h.offers, h.handlers⟩

theorem SameNegotiation.onDebounceTimeout {c₁ : RtcConnector} (h : c.SameNegotiation c₁)
    (delivering : Bool) {uuid : String} (hdrawn : e.uuid = some uuid) :
    c.Progress e (c₁.onDebounceTimeout delivering uuid) [] := by
  rcases onDebounceTimeout_cases c₁ delivering uuid with
    heq | ⟨_, _, heq⟩ | ⟨channel, handlers, heq, -⟩
  · rw [heq]
    exact h.progress nofun
  · rw [heq]
    refine .idle h.id h.offers (fun s hs => ?_) nofun
    rcases List.mem_append.mp hs with hs | hs
    · exact Or.inl (h.handlers ▸ hs)
    · rw [List.mem_singleton.mp hs]
      exact Or.inr trivial
  · rw [heq]
    exact .begun hdrawn rfl

/-- An attempt that fails keeps its id. -/
theorem debounceFailed_progress {c₁ : RtcConnector} {s : Suspended} (hmem : s ∈ c.handlers)
    (hown : ¬ s.AwaitsDelivery) (hstarted : c₁.peerConnection ≠ none) (hnil : c₁.handlers = [])
    (hid : c₁.currentNegotiationId = c.currentNegotiationId) (now : ℕ) :
    (c₁.debounceFailed now).Alone ∧ c.Progress e (c₁.debounceFailed now) [] := by
  obtain ⟨startTime, timer, scheduled, heq⟩ := debounceFailed_eq c₁ now
  rw [heq]
  exact ⟨alone_of_finished hstarted hnil rfl, .underway hmem hown hid⟩

/-! ### One step -/

section Step

variable {i now : ℕ}

theorem Alone.start {delivering : Bool} {uuid : String} (h : c.Alone)
    (hs : c.step (.start delivering uuid) = some (c', sent)) :
    c'.Alone ∧ c.Progress (.start delivering uuid) c' sent := by
  simp only [step, Option.ite_none_right_eq_some, Option.some.injEq, Prod.mk.injEq] at hs
  obtain ⟨hnone, rfl, rfl⟩ := hs
  obtain ⟨hh, hscheduled, -⟩ := h.unstarted (Option.isNone_iff_eq_none.mp hnone)
  constructor
  · apply alone_onDebounceTimeout
    · intro hnone
      cases hnone
    · exact h.idle hh
    · exact hh
    · exact hscheduled
  · refine SameNegotiation.onDebounceTimeout ?_ delivering rfl
    exact ⟨rfl, rfl, rfl⟩

theorem Alone.timeout {delivering : Bool} {uuid : String} (h : c.Alone)
    (hs : c.step (.timeout now delivering uuid) = some (c', sent)) :
    c'.Alone ∧ c.Progress (.timeout now delivering uuid) c' sent := by
  simp only [step] at hs
  split at hs
  · rename_i t ht
    simp only [Option.ite_none_right_eq_some, Option.some.injEq, Prod.mk.injEq] at hs
    obtain ⟨-, rfl, rfl⟩ := hs
    have hstarted : c.peerConnection ≠ none := by
      intro hnone
      cases (h.unstarted hnone).2.1.symm.trans ht
    have hh : c.handlingDebounce = false := by
      cases hh : c.handlingDebounce with
      | true => cases (h.quiet hh).symm.trans ht
      | false => rfl
    constructor
    · apply alone_onDebounceTimeout
      · exact hstarted
      · exact h.idle hh
      · exact hh
      · rfl
    · refine SameNegotiation.onDebounceTimeout ?_ delivering rfl
      exact ⟨rfl, rfl, rfl⟩
  · cases hs

theorem Alone.deliverySettled {uuid : String} (h : c.Alone)
    (hs : c.step (.deliverySettled i uuid) = some (c', sent)) :
    c'.Alone ∧ c.Progress (.deliverySettled i uuid) c' sent := by
  simp only [step] at hs
  split at hs
  · rename_i hasConnection channelOpen hget
    obtain ⟨rfl, rfl⟩ := Prod.mk.inj (Option.some.inj hs)
    obtain ⟨hnil, hh, hscheduled, hstarted⟩ := h.resume hget
    obtain ⟨channel, handlers, heq, hhandlers⟩ :=
      newAttempt_eq (c.resume i) hasConnection channelOpen uuid
    rw [heq]
    refine ⟨alone_of_working hstarted ?_ hh hscheduled, .begun rfl rfl⟩
    rcases hhandlers with rfl | rfl
    · simp [hnil]
    · simp [hnil]
  · cases hs

theorem Alone.offerCreated {offer : Option String} (h : c.Alone)
    (hs : c.step (.offerCreated i now offer) = some (c', sent)) :
    c'.Alone ∧ c.Progress (.offerCreated i now offer) c' sent := by
  simp only [step] at hs
  split at hs
  · rename_i hasConnection channelOpen hget
    obtain ⟨rfl, rfl⟩ := Prod.mk.inj (Option.some.inj hs)
    obtain ⟨hnil, hh, hscheduled, hstarted⟩ := h.resume hget
    have hmem : Suspended.createOffer hasConnection channelOpen ∈ c.handlers :=
      List.mem_of_getElem? hget
    cases offer with
    | none =>
      refine debounceFailed_progress hmem id ?_ ?_ ?_ now
      · exact hstarted
      · exact hnil
      · rfl
    | some offer =>
      unfold RtcConnector.offerCreated
      dsimp only
      split
      · -- the situation has resolved itself
        exact ⟨alone_of_finished hstarted hnil rfl, .underway hmem id rfl⟩
      · split
        · refine debounceFailed_progress hmem id ?_ ?_ ?_ now
          · exact hstarted
          · exact hnil
          · rfl
        · refine ⟨alone_of_working hstarted ?_ hh hscheduled, .underway hmem id rfl⟩
          simp [await, hnil]
  · cases hs

theorem Alone.localDescriptionSet {sdp : Option String} (h : c.Alone)
    (hs : c.step (.localDescriptionSet i now sdp) = some (c', sent)) :
    c'.Alone ∧ c.Progress (.localDescriptionSet i now sdp) c' sent := by
  simp only [step] at hs
  split at hs
  · rename_i hasConnection channelOpen offer hget
    have hs := Option.some.inj hs
    obtain ⟨hnil, hh, hscheduled, hstarted⟩ := h.resume hget
    have hmem : Suspended.setLocalDescription hasConnection channelOpen offer ∈ c.handlers :=
      List.mem_of_getElem? hget
    cases sdp with
    | none =>
      obtain ⟨rfl, rfl⟩ := Prod.mk.inj hs
      refine debounceFailed_progress hmem id ?_ ?_ ?_ now
      · exact hstarted
      · exact hnil
      · rfl
    | some sdp =>
      unfold RtcConnector.localDescriptionSet at hs
      dsimp only at hs
      split at hs
      · -- something has changed: to be rolled back
        obtain ⟨rfl, rfl⟩ := Prod.mk.inj hs
        refine ⟨alone_of_working hstarted ?_ hh hscheduled, .underway hmem id rfl⟩
        simp [await, hnil]
      · obtain ⟨rfl, rfl⟩ := Prod.mk.inj hs
        let c₁ : RtcConnector := { c.resume i with
          localOffers := ⟨c.currentNegotiationId, offer, sdp⟩ :: c.localOffers
          handlingDebounce := false }
        have halone : c₁.Alone := alone_of_finished hstarted hnil rfl
        have hsame : c₁.SameNegotiation (c₁.addDebounceEvent .negotiatingICE now) :=
          SameNegotiation.addDebounceEvent ⟨rfl, rfl, rfl⟩ _ now
        exact ⟨halone.addDebounceEvent hstarted _ now,
          .offered hmem id hsame.id hsame.offers (hsame.handlers.trans hnil)⟩
  · cases hs

theorem Alone.rolledBack {ok : Bool} (h : c.Alone)
    (hs : c.step (.rolledBack i now ok) = some (c', sent)) :
    c'.Alone ∧ c.Progress (.rolledBack i now ok) c' sent := by
  simp only [step] at hs
  split at hs
  · rename_i hget
    obtain ⟨rfl, rfl⟩ := Prod.mk.inj (Option.some.inj hs)
    obtain ⟨hnil, hh, hscheduled, hstarted⟩ := h.resume hget
    have hmem : Suspended.rollback ∈ c.handlers := List.mem_of_getElem? hget
    cases ok with
    | true =>
      refine debounceFailed_progress hmem id ?_ ?_ ?_ now
      · exact hstarted
      · exact hnil
      · rfl
    | false =>
      refine debounceFailed_progress hmem id ?_ ?_ ?_ now
      · exact hstarted
      · exact hnil
      · rfl
  · cases hs

theorem Alone.iceConnectionState {state : IceConnectionState} (h : c.Alone)
    (hs : c.step (.iceConnectionState state now) = some (c', sent)) :
    c'.Alone ∧ c.Progress (.iceConnectionState state now) c' sent := by
  simp only [step, Option.ite_none_right_eq_some] at hs
  obtain ⟨-, hs⟩ := hs
  have hstarted' : ({ c with peerConnection := some state } : RtcConnector).peerConnection ≠ none :=
    Option.some_ne_none state
  have halone : { c with peerConnection := some state }.Alone :=
    ⟨h.one, h.handling, h.quiet, fun hnone => absurd hnone hstarted'⟩
  have hsame : c.SameNegotiation { c with peerConnection := some state } := ⟨rfl, rfl, rfl⟩
  split at hs
  · obtain ⟨rfl, rfl⟩ := Prod.mk.inj (Option.some.inj hs)
    exact ⟨halone.addDebounceEvent hstarted' _ now, (hsame.addDebounceEvent _ now).progress nofun⟩
  · obtain ⟨rfl, rfl⟩ := Prod.mk.inj (Option.some.inj hs)
    exact ⟨halone.addDebounceEvent hstarted' _ now, (hsame.addDebounceEvent _ now).progress nofun⟩
  · obtain ⟨rfl, rfl⟩ := Prod.mk.inj (Option.some.inj hs)
    exact ⟨halone, hsame.progress nofun⟩

theorem Alone.channelState {state : ChannelState} (h : c.Alone)
    (hs : c.step (.channelState state now) = some (c', sent)) :
    c'.Alone ∧ c.Progress (.channelState state now) c' sent := by
  simp only [step, Option.ite_none_right_eq_some] at hs
  obtain ⟨hsome, hs⟩ := hs
  have hstarted : c.peerConnection ≠ none := by
    intro hnone
    rw [(h.unstarted hnone).2.2] at hsome
    cases hsome
  have halone : { c with channel := some state }.Alone :=
    ⟨h.one, h.handling, h.quiet, fun hnone => absurd hnone hstarted⟩
  have hsame : c.SameNegotiation { c with channel := some state } := ⟨rfl, rfl, rfl⟩
  split at hs
  · obtain ⟨rfl, rfl⟩ := Prod.mk.inj (Option.some.inj hs)
    exact ⟨halone.addDebounceEvent hstarted _ now, (hsame.addDebounceEvent _ now).progress nofun⟩
  · obtain ⟨rfl, rfl⟩ := Prod.mk.inj (Option.some.inj hs)
    exact ⟨halone, hsame.progress nofun⟩

theorem Alone.iceCandidate {sdp : String} (h : c.Alone)
    (hs : c.step (.iceCandidate sdp) = some (c', sent)) :
    c'.Alone ∧ c.Progress (.iceCandidate sdp) c' sent := by
  simp only [step, Option.ite_none_right_eq_some, Option.some.injEq, Prod.mk.injEq] at hs
  obtain ⟨-, rfl, rfl⟩ := hs
  refine ⟨h, SameNegotiation.progress ⟨rfl, rfl, rfl⟩ fun m hm => ?_⟩
  obtain ⟨negId, -, rfl⟩ := List.mem_map.mp hm
  nofun

theorem Alone.close (h : c.Alone) (hs : c.step .close = some (c', sent)) :
    c'.Alone ∧ c.Progress .close c' sent := by
  obtain ⟨rfl, rfl⟩ := Prod.mk.inj (Option.some.inj hs)
  refine ⟨⟨h.one, h.handling, h.quiet, fun hnone => ?_⟩,
    .idle rfl rfl (fun _ hs => Or.inl hs) nofun⟩
  obtain ⟨hh, hscheduled, hchannel⟩ := h.unstarted (Option.map_eq_none_iff.mp hnone)
  exact ⟨hh, hscheduled, Option.map_eq_none_iff.mpr hchannel⟩

/-- **Every step** keeps invocations alone, and is progress of the negotiation. -/
theorem Alone.step (h : c.Alone) (hs : c.step e = some (c', sent)) :
    c'.Alone ∧ c.Progress e c' sent := by
  cases e with
  | start delivering uuid => exact h.start hs
  | timeout now delivering uuid => exact h.timeout hs
  | deliverySettled i uuid => exact h.deliverySettled hs
  | offerCreated i now offer => exact h.offerCreated hs
  | localDescriptionSet i now sdp => exact h.localDescriptionSet hs
  | rolledBack i now ok => exact h.rolledBack hs
  | iceConnectionState state now => exact h.iceConnectionState hs
  | channelState state now => exact h.channelState hs
  | iceCandidate sdp => exact h.iceCandidate hs
  | close => exact h.close hs

end Step

end RtcConnector

end Ts

end Vamp
