import Vamp.StateMachine
import Vamp.TransportHandler

/-!
# The backend's RTC connector

`RtcConnector` of `rtc_connector.rs`: the message handler that fills two queues, and the
task `run` that empties them. A turn of its loop is one step: the task first replaces the
peer connection if it has to, and then takes **any** ready branch of its `select!`. While
a branch awaits, others can do no more than put messages into the queues, so that a turn
may be taken as a whole.

What happens is kept in a history, newest first; it is what the properties of the
connector speak about. The WebRTC library is the parameter `WebRtc`.
-/

namespace Vamp

namespace Rs

/-- What is asked of the library: which texts it can read. -/
structure WebRtc : Type where
  /-- `RTCSessionDescription::offer` succeeds -/
  offer : String → Bool
  /-- `serde_json::from_str::<RTCIceCandidateInit>` succeeds -/
  candidate : String → Bool

/-- A library that reads everything. -/
def WebRtc.readsAll : WebRtc := ⟨fun _ => true, fun _ => true⟩

/-- What happens to messages and to the peer connections, which are numbered. -/
inductive Happening : Type where
  /-- the transport delivers a message -/
  | delivered (msg : SignalMsg)
  /-- the peer connection is closed and replaced -/
  | restarted
  /-- `set_remote_description` is called -/
  | setRemoteDescription (peer : ℕ) (offer : SignalMsg)
  /-- `handle_offer` sends an answer -/
  | answered (offer answer : SignalMsg)
  /-- `add_ice_candidate` is called -/
  | addIceCandidate (peer : ℕ) (candidate : SignalMsg)
  /-- a message is thrown away -/
  | discarded (msg : SignalMsg)
  deriving DecidableEq

/-- `RtcConnector` and the local variables of `run`. -/
structure RtcConnector : Type where
  /-- `signal_rx`: all messages, and the local candidates -/
  signalRx : List SignalMsg
  /-- `offer_rx`: offers -/
  offerRx : List SignalMsg
  /-- the number of the peer connection -/
  rtcPeerCon : Option ℕ
  /-- the offer to be handled -/
  currentOffer : Option SignalMsg
  /-- the negotiation of the last offer taken -/
  currentNegotiationId : Option String
  /-- whether the peer connection is to be replaced -/
  restartRtcPeer : Bool
  /-- whether the loop is still running -/
  running : Bool
  /-- what has happened, newest first -/
  history : List Happening

/-- The branches of the `select!`. The senders of both queues live as long as the task, so
neither `recv` returns `None`. -/
inductive Branch : Type where
  /-- `cancellation_token.cancelled()` -/
  | cancelled
  /-- `debounce_rx.recv()` returns an event -/
  | debounce
  /-- `debounce_rx.recv()` returns `Lagged` -/
  | lagged
  /-- `debounce_rx.recv()` returns `Closed` -/
  | debounceClosed
  /-- `offer_rx.recv()` -/
  | offer
  /-- `async {}` with an offer to be handled; the answer that the peer connection makes,
  unless some call fails -/
  | handleOffer (answer : Option String)
  /-- `signal_rx.recv()` -/
  | signal

/-- What can happen to the connector. -/
inductive RtcEvent : Type where
  /-- the transport delivers a message -/
  | deliver (msg : SignalMsg)
  /-- the peer connection has gathered a local candidate -/
  | gathered (sdp : String)
  /-- one turn of the loop -/
  | turn (branch : Branch)

namespace RtcConnector

/-- `RtcConnector::new`. -/
def new : RtcConnector where
  signalRx := []
  offerRx := []
  rtcPeerCon := none
  currentOffer := none
  currentNegotiationId := none
  restartRtcPeer := true
  running := true
  history := []

/-- Write the history. -/
def note (c : RtcConnector) (h : Happening) : RtcConnector := { c with history := h :: c.history }

/-- `message_handler`: offers go into both queues. A message that finds no room in its
queue is thrown away. -/
def messageHandler (c : RtcConnector) (msg : SignalMsg) : RtcConnector :=
  let c := c.note (.delivered msg)
  let c :=
    if msg.kind = .offer then
      let (offerRx, queued) := trySend 8 c.offerRx msg
      let c := { c with offerRx := offerRx }
      if queued then c else c.note (.discarded msg)
    else c
  let (signalRx, queued) := trySend 8 c.signalRx msg
  let c := { c with signalRx := signalRx }
  if queued then c else c.note (.discarded msg)

/-- The head of the loop: a new peer connection, at first and after a restart. -/
def head (c : RtcConnector) : RtcConnector :=
  if c.restartRtcPeer then
    match c.rtcPeerCon with
    | some peer =>
      { c with
        restartRtcPeer := false
        currentOffer := none
        currentNegotiationId := none
        rtcPeerCon := some (peer + 1)
        history := .restarted :: c.history }
    | none => { c with restartRtcPeer := false, rtcPeerCon := some 0 }
  else c

/-- `current_negotiation_id.as_ref().is_some_and(|id| !id.is_empty())`. -/
def negotiating (c : RtcConnector) : Option String := c.currentNegotiationId.filter (· ≠ "")

/-- `handle_offer`: the connector afterwards, and what is sent. -/
def handleOffer (rtc : WebRtc) (c : RtcConnector) (peer : ℕ) (offer : SignalMsg)
    (answer : Option String) : RtcConnector × List SignalMsg :=
  if rtc.offer offer.sdp then
    let c := c.note (.setRemoteDescription peer offer)
    match answer with
    | some sdp =>
      let answer : SignalMsg := ⟨.answer, sdp, offer.negId⟩
      (c.note (.answered offer answer), [answer])
    | none => (c, [])
  else (c, [])

/-- The body of the branch `signal_rx.recv()`. -/
def handleSignal (rtc : WebRtc) (c : RtcConnector) (peer : ℕ) (negotiationId : String)
    (msg : SignalMsg) : RtcConnector × List SignalMsg :=
  if msg.kind = .localCandidate then
    (c, [{ msg with kind := .iceCandidate, negId := negotiationId }])
  else if msg.negId ≠ negotiationId then (c.note (.discarded msg), [])
  else if msg.kind = .iceCandidate then
    -- `handle_incoming_candidate`: a text that cannot be read is an error, and only logged
    if rtc.candidate msg.sdp then (c.note (.addIceCandidate peer msg), []) else (c, [])
  else (c, [])

/-- A branch of the `select!`, if it is ready. -/
def select (rtc : WebRtc) (c : RtcConnector) : Branch → Option (RtcConnector × List SignalMsg)
  | .cancelled => some ({ c with running := false }, [])
  | .debounce => some ({ c with restartRtcPeer := true }, [])
  | .lagged => some (c, [])
  | .debounceClosed => some ({ c with running := false }, [])
  | .offer =>
    match c.offerRx with
    | offer :: offerRx =>
      some ({ c with
        offerRx := offerRx
        currentOffer := some offer
        currentNegotiationId := some offer.negId }, [])
    | [] => none
  | .handleOffer answer =>
    match c.negotiating, c.currentOffer, c.rtcPeerCon with
    | some _, some offer, some peer =>
      some (handleOffer rtc { c with currentOffer := none } peer offer answer)
    | _, _, _ => none
  | .signal =>
    match c.negotiating, c.signalRx, c.rtcPeerCon with
    | some negotiationId, msg :: signalRx, some peer =>
      some (handleSignal rtc { c with signalRx := signalRx } peer negotiationId msg)
    | _, _, _ => none

/-- One step: the connector afterwards, and what is sent. -/
def step (rtc : WebRtc) (c : RtcConnector) : RtcEvent → Option (RtcConnector × List SignalMsg)
  | .deliver msg => some (c.messageHandler msg, [])
  | .gathered sdp =>
    -- `send` waits until there is room
    if c.signalRx.length < 8 then
      some ({ c with signalRx := c.signalRx ++ [⟨.localCandidate, sdp, ""⟩] }, [])
    else none
  | .turn branch => if c.running then c.head.select rtc branch else none

/-- The connector as a machine. -/
def machine (rtc : WebRtc) : StateMachine RtcConnector RtcEvent where
  init := .new
  step c e := (c.step rtc e).map Prod.fst

/-! ### What the parts of a turn do -/

variable {rtc : WebRtc} {c c' : RtcConnector} {e : RtcEvent} {sent : List SignalMsg}

theorem negotiating_eq_some {id : String} (h : c.negotiating = some id) :
    c.currentNegotiationId = some id :=
  (Option.filter_eq_some_iff.mp h).1

/-- An offer is read and set, and may be answered; or it cannot be read. -/
theorem handleOffer_cases (rtc : WebRtc) (c : RtcConnector) (peer : ℕ) (offer : SignalMsg)
    (answer : Option String) :
    (rtc.offer offer.sdp = false ∧ handleOffer rtc c peer offer answer = (c, [])) ∨
    handleOffer rtc c peer offer answer = (c.note (.setRemoteDescription peer offer), []) ∨
    ∃ sdp, handleOffer rtc c peer offer answer =
      ((c.note (.setRemoteDescription peer offer)).note
        (.answered offer ⟨.answer, sdp, offer.negId⟩), [⟨.answer, sdp, offer.negId⟩]) := by
  cases hread : rtc.offer offer.sdp with
  | false => exact Or.inl ⟨rfl, by rw [handleOffer, if_neg (by rw [hread]; decide)]⟩
  | true =>
    refine Or.inr ?_
    cases answer with
    | none => exact Or.inl (by rw [handleOffer, if_pos hread])
    | some sdp => exact Or.inr ⟨sdp, by rw [handleOffer, if_pos hread]⟩

/-- A message is thrown away for its negotiation, or applied as a candidate of the current
one, or leaves no trace here. -/
theorem handleSignal_cases (rtc : WebRtc) (c : RtcConnector) (peer : ℕ) (negotiationId : String)
    (msg : SignalMsg) :
    ((handleSignal rtc c peer negotiationId msg).1 = c ∧
      ∀ m ∈ (handleSignal rtc c peer negotiationId msg).2, m.kind = .iceCandidate) ∨
    (handleSignal rtc c peer negotiationId msg = (c.note (.discarded msg), []) ∧
      msg.negId ≠ negotiationId) ∨
    (handleSignal rtc c peer negotiationId msg = (c.note (.addIceCandidate peer msg), []) ∧
      msg.kind = .iceCandidate ∧ msg.negId = negotiationId) := by
  by_cases hlocal : msg.kind = .localCandidate
  · refine Or.inl ?_
    rw [handleSignal, if_pos hlocal]
    refine ⟨rfl, fun m hm => ?_⟩
    rw [List.mem_singleton.mp hm]
  by_cases hid : msg.negId = negotiationId
  · by_cases hcandidate : msg.kind = .iceCandidate
    · by_cases hread : rtc.candidate msg.sdp = true
      · refine Or.inr (Or.inr ⟨?_, hcandidate, hid⟩)
        rw [handleSignal, if_neg hlocal, if_neg (not_not.mpr hid), if_pos hcandidate, if_pos hread]
      · refine Or.inl ?_
        rw [handleSignal, if_neg hlocal, if_neg (not_not.mpr hid), if_pos hcandidate, if_neg hread]
        exact ⟨rfl, nofun⟩
    · refine Or.inl ?_
      rw [handleSignal, if_neg hlocal, if_neg (not_not.mpr hid), if_neg hcandidate]
      exact ⟨rfl, nofun⟩
  · refine Or.inr (Or.inl ⟨?_, hid⟩)
    rw [handleSignal, if_neg hlocal, if_pos hid]

/-- Taking an offer. -/
theorem select_offer (h : c.select rtc .offer = some (c', sent)) :
    ∃ offer offerRx, c.offerRx = offer :: offerRx ∧ sent = [] ∧ c' = { c with
      offerRx := offerRx
      currentOffer := some offer
      currentNegotiationId := some offer.negId } := by
  simp only [select] at h
  split at h
  · rename_i offer offerRx hq
    obtain ⟨rfl, rfl⟩ := Prod.mk.inj (Option.some.inj h)
    exact ⟨offer, offerRx, hq, rfl, rfl⟩
  · cases h

/-- Handling the offer that was taken. -/
theorem select_handleOffer {answer : Option String}
    (h : c.select rtc (.handleOffer answer) = some (c', sent)) :
    ∃ offer peer, c.currentOffer = some offer ∧ c.rtcPeerCon = some peer ∧
      (c', sent) = handleOffer rtc { c with currentOffer := none } peer offer answer := by
  simp only [select] at h
  split at h
  · rename_i _ offer peer _ hoffer hpeer
    exact ⟨offer, peer, hoffer, hpeer, (Option.some.inj h).symm⟩
  · cases h

/-- Taking a message. -/
theorem select_signal (h : c.select rtc .signal = some (c', sent)) :
    ∃ negotiationId msg signalRx peer, c.currentNegotiationId = some negotiationId ∧
      c.signalRx = msg :: signalRx ∧ c.rtcPeerCon = some peer ∧
      (c', sent) = handleSignal rtc { c with signalRx := signalRx } peer negotiationId msg := by
  simp only [select] at h
  split at h
  · rename_i negotiationId msg signalRx peer hid hq hpeer
    exact ⟨negotiationId, msg, signalRx, peer, negotiating_eq_some hid, hq, hpeer,
      (Option.some.inj h).symm⟩
  · cases h

/-- **What the message handler does**: an offer joins the queue of offers if there is
room; nothing else changes but the other queue and the history. -/
theorem messageHandler_eq (c : RtcConnector) (msg : SignalMsg) :
    ∃ signalRx dropped, (∀ h ∈ dropped, h = .discarded msg) ∧
      c.messageHandler msg = { c with
        signalRx := signalRx
        offerRx := if msg.kind = .offer then (trySend 8 c.offerRx msg).1 else c.offerRx
        history := dropped ++ .delivered msg :: c.history } ∧
      ((c.signalRx.length < 8 ∧ (msg.kind = .offer → c.offerRx.length < 8)) → dropped = []) := by
  by_cases hoffer : msg.kind = .offer
  · by_cases hroom : c.offerRx.length < 8
    · by_cases hroom' : c.signalRx.length < 8
      · exact ⟨c.signalRx ++ [msg], [], nofun,
          by simp [messageHandler, note, trySend, hoffer, hroom, hroom'], fun _ => rfl⟩
      · exact ⟨c.signalRx, [.discarded msg], by simp,
          by simp [messageHandler, note, trySend, hoffer, hroom, hroom'],
          fun h => absurd h.1 hroom'⟩
    · by_cases hroom' : c.signalRx.length < 8
      · exact ⟨c.signalRx ++ [msg], [.discarded msg], by simp,
          by simp [messageHandler, note, trySend, hoffer, hroom, hroom'],
          fun h => absurd (h.2 hoffer) hroom⟩
      · exact ⟨c.signalRx, [.discarded msg, .discarded msg], by simp,
          by simp [messageHandler, note, trySend, hoffer, hroom, hroom'],
          fun h => absurd h.1 hroom'⟩
  · by_cases hroom' : c.signalRx.length < 8
    · exact ⟨c.signalRx ++ [msg], [], nofun,
        by simp [messageHandler, note, trySend, hoffer, hroom'], fun _ => rfl⟩
    · exact ⟨c.signalRx, [.discarded msg], by simp,
        by simp [messageHandler, note, trySend, hoffer, hroom'], fun h => absurd h.1 hroom'⟩

/-- The other queue takes the message if there is room. -/
theorem messageHandler_signalRx (c : RtcConnector) (msg : SignalMsg) :
    (c.messageHandler msg).signalRx = (trySend 8 c.signalRx msg).1 := by
  by_cases hoffer : msg.kind = .offer <;> by_cases hroom : c.offerRx.length < 8 <;>
    by_cases hroom' : c.signalRx.length < 8 <;>
    simp [messageHandler, note, trySend, hoffer, hroom, hroom']

end RtcConnector

end Rs

end Vamp
