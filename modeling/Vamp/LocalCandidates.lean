import Mathlib.Data.List.Forall2
import Mathlib.Logic.Function.Basic
import Vamp.BackendConnector

/-!
# Local candidates and the negotiation they are stamped with

A local candidate enters `signal_rx` without a negotiation: the branch that takes it out
stamps it with the current one. The queue survives both a new offer and the replacement of
the peer connection, and the callback of `on_ice_candidate` may wait for room in it.

The connector is run beside a recorder that does not influence it (`recorder_faithful`):
which offer each peer connection has as its remote description, and by whom and under
which description every candidate was gathered. A candidate is sent under its own
negotiation as long as no offer is taken, and no peer connection is replaced, while
candidates are waiting (`Undisturbed`); the invariant is `Fresh`.
-/

namespace Vamp

namespace Rs

/-- A candidate, and what was the case when it was gathered. -/
structure LocalCandidate : Type where
  /-- the peer connection that gathered it -/
  peer : ℕ
  /-- the serialized candidate -/
  sdp : String
  /-- the remote description of the peer connection at that time -/
  described : SignalMsg
  deriving DecidableEq

/-- The connector and its recorder. -/
structure RecordedConnector : Type where
  /-- the connector itself -/
  connector : RtcConnector
  /-- the remote description of each peer connection, if it has one -/
  described : ℕ → Option SignalMsg
  /-- the callbacks of `on_ice_candidate` that wait for room in `signal_rx` -/
  waiting : List LocalCandidate
  /-- for every message in `signal_rx`, the local candidate it is -/
  origins : List (Option LocalCandidate)

/-- What can happen. -/
inductive RecordedEvent : Type where
  /-- the transport delivers a message -/
  | deliver (msg : SignalMsg)
  /-- a peer connection calls back with a candidate -/
  | gathers (peer : ℕ) (sdp : String)
  /-- the callback in place `i` puts its candidate into `signal_rx` -/
  | enters (i : ℕ)
  /-- one turn of the loop; `set` says whether `set_remote_description` succeeds, should
  the turn call it and make no answer -/
  | turn (branch : Branch) (set : Bool)

namespace RecordedConnector

/-- At the start there is nothing to record. -/
def new : RecordedConnector := ⟨.new, fun _ => none, [], []⟩

/-- The offer that a branch makes the remote description of a peer connection. An answer
is made only after that. -/
def describes (rtc : WebRtc) (c : RtcConnector) (branch : Branch) (set : Bool) :
    Option (ℕ × SignalMsg) :=
  match branch, c.rtcPeerCon, c.currentOffer with
  | .handleOffer answer, some peer, some offer =>
    if rtc.offer offer.sdp && (set || answer.isSome) then some (peer, offer) else none
  | _, _, _ => none

/-- The remote descriptions after one of them may have been set. -/
def describe (described : ℕ → Option SignalMsg) :
    Option (ℕ × SignalMsg) → ℕ → Option SignalMsg
  | some (peer, offer) => Function.update described peer (some offer)
  | none => described

/-- The branch `signal` takes a message out of the queue. -/
def remaining (branch : Branch) (origins : List (Option LocalCandidate)) :
    List (Option LocalCandidate) :=
  match branch with
  | .signal => origins.tail
  | _ => origins

/-- One step: the state afterwards, and what is sent. A peer connection gathers candidates
once it has a remote description. -/
def step (rtc : WebRtc) (c : RecordedConnector) :
    RecordedEvent → Option (RecordedConnector × List SignalMsg)
  | .deliver msg =>
    (c.connector.step rtc (.deliver msg)).map fun (connector, sent) =>
      ({ c with
        connector := connector
        origins := (trySend 8 c.origins none).1 }, sent)
  | .gathers peer sdp =>
    (c.described peer).map fun offer =>
      ({ c with waiting := c.waiting ++ [⟨peer, sdp, offer⟩] }, [])
  | .enters i =>
    (c.waiting[i]?).bind fun candidate =>
      (c.connector.step rtc (.gathered candidate.sdp)).map fun (connector, sent) =>
        ({ c with
          connector := connector
          waiting := c.waiting.eraseIdx i
          origins := c.origins ++ [some candidate] }, sent)
  | .turn branch set =>
    (c.connector.step rtc (.turn branch)).map fun (connector, sent) =>
      ({ c with
        connector := connector
        described := describe c.described (describes rtc c.connector.head branch set)
        origins := remaining branch c.origins }, sent)

/-- The recorded connector as a machine. -/
def machine (rtc : WebRtc) : StateMachine RecordedConnector RecordedEvent where
  init := .new
  step c e := (c.step rtc e).map Prod.fst

/-- The message is the candidate at the head of the queue. It was gathered by the peer
connection that is current in `connector`, while an offer of the negotiation that the
message names was the remote description there. -/
def OwnCandidate (c : RecordedConnector) (connector : RtcConnector) (msg : SignalMsg) : Prop :=
  ∃ candidate, c.origins.head? = some (some candidate) ∧ candidate.sdp = msg.sdp ∧
    connector.rtcPeerCon = some candidate.peer ∧ candidate.described.negId = msg.negId

/-- A candidate that is sent in this step is sent under its own negotiation. -/
def SentUnderOwn (rtc : WebRtc) (c : RecordedConnector) (e : RecordedEvent) : Prop :=
  ∀ c' sent msg, c.step rtc e = some (c', sent) → msg ∈ sent → msg.kind = .iceCandidate →
    c.OwnCandidate c'.connector msg

/-- No candidate is waiting for room or in the queue. -/
def Drained (c : RecordedConnector) : Prop :=
  c.waiting = [] ∧ ∀ origin ∈ c.origins, origin = none

/-- Offers are taken, and peer connections replaced, only when no local candidate is on
its way; candidates are gathered by the current peer connection while no offer is to be
handled; an offer that is handled becomes the remote description; and local candidates
do not come from the transport. -/
def Undisturbed (rtc : WebRtc) (c : RecordedConnector) : RecordedEvent → Prop
  | .deliver msg => msg.kind ≠ .localCandidate
  | .gathers peer _ => c.connector.rtcPeerCon = some peer ∧ c.connector.currentOffer = none
  | .enters _ => True
  | .turn branch set =>
    (c.connector.restartRtcPeer = true → c.Drained) ∧
      match branch with
      | .offer => c.Drained
      | .handleOffer answer => ∀ offer ∈ c.connector.currentOffer,
        rtc.offer offer.sdp = true ∧ (set || answer.isSome) = true
      | _ => True

/-! ## What a step does -/

variable {rtc : WebRtc} {c c' : RecordedConnector} {sent : List SignalMsg}

/-- A delivery. -/
theorem step_deliver {msg : SignalMsg} (h : c.step rtc (.deliver msg) = some (c', sent)) :
    sent = [] ∧ c' = { c with
      connector := c.connector.messageHandler msg
      origins := (trySend 8 c.origins none).1 } := by
  obtain ⟨rfl, rfl⟩ := Prod.mk.inj (Option.some.inj h)
  exact ⟨rfl, rfl⟩

/-- A callback. -/
theorem step_gathers {peer : ℕ} {sdp : String}
    (h : c.step rtc (.gathers peer sdp) = some (c', sent)) :
    ∃ offer, c.described peer = some offer ∧ sent = [] ∧
      c' = { c with waiting := c.waiting ++ [⟨peer, sdp, offer⟩] } := by
  simp only [step, Option.map_eq_some_iff, Prod.mk.injEq] at h
  obtain ⟨offer, hoffer, rfl, rfl⟩ := h
  exact ⟨offer, hoffer, rfl, rfl⟩

/-- A candidate finds room. -/
theorem step_enters {i : ℕ} (h : c.step rtc (.enters i) = some (c', sent)) :
    ∃ candidate, c.waiting[i]? = some candidate ∧ c.connector.signalRx.length < 8 ∧ sent = [] ∧
      c' = { c with
        connector := { c.connector with
          signalRx := c.connector.signalRx ++ [⟨.localCandidate, candidate.sdp, ""⟩] }
        waiting := c.waiting.eraseIdx i
        origins := c.origins ++ [some candidate] } := by
  simp only [step, Option.bind_eq_some_iff, Option.map_eq_some_iff] at h
  obtain ⟨candidate, hcandidate, ⟨connector, sent'⟩, hs, heq⟩ := h
  simp only [RtcConnector.step, Option.ite_none_right_eq_some, Option.some.injEq,
    Prod.mk.injEq] at hs
  obtain ⟨hroom, rfl, rfl⟩ := hs
  obtain ⟨rfl, rfl⟩ := Prod.mk.inj heq
  exact ⟨candidate, hcandidate, hroom, rfl, rfl⟩

/-- A turn: the head of the loop, and a branch. -/
theorem step_turn {branch : Branch} {set : Bool}
    (h : c.step rtc (.turn branch set) = some (c', sent)) :
    ∃ connector, c.connector.step rtc (.turn branch) = some (connector, sent) ∧
      c.connector.head.select rtc branch = some (connector, sent) ∧ c' = { c with
        connector := connector
        described := describe c.described (describes rtc c.connector.head branch set)
        origins := remaining branch c.origins } := by
  simp only [step, Option.map_eq_some_iff] at h
  obtain ⟨⟨connector, sent'⟩, hs, heq⟩ := h
  obtain ⟨rfl, rfl⟩ := Prod.mk.inj heq
  refine ⟨connector, hs, ?_, rfl⟩
  simp only [RtcConnector.step, Option.ite_none_right_eq_some] at hs
  exact hs.2

/-! ## The recorder does not influence the connector -/

/-- **Recording.** Every run of the recorded connector is a run of the connector. -/
def recording (rtc : WebRtc) :
    StateMachine.Simulation (machine rtc) (RtcConnector.machine rtc) fun _ _ => True where
  R c connector := c.connector = connector
  step := by
    rintro c e c' _ rfl - hstep
    obtain ⟨⟨c₁, sent⟩, hs, rfl⟩ := Option.map_eq_some_iff.mp hstep
    have single : ∀ e' connector sent, c.connector.step rtc e' = some (connector, sent) →
        ∃ ds t, (RtcConnector.machine rtc).run c.connector ds = some t ∧ connector = t := by
      intro e' connector sent hr
      refine ⟨[e'], connector, StateMachine.run_cons_eq_some.mpr ⟨connector, ?_, rfl⟩, rfl⟩
      exact Option.map_eq_some_iff.mpr ⟨_, hr, rfl⟩
    cases e with
    | deliver msg =>
      obtain ⟨-, rfl⟩ := step_deliver hs
      exact single (.deliver msg) _ [] rfl
    | gathers peer sdp =>
      obtain ⟨offer, -, -, rfl⟩ := step_gathers hs
      exact ⟨[], c.connector, rfl, rfl⟩
    | enters i =>
      obtain ⟨candidate, -, hroom, -, rfl⟩ := step_enters hs
      exact single (.gathered candidate.sdp) _ [] (if_pos hroom)
    | turn branch set =>
      obtain ⟨connector, hturn, -, rfl⟩ := step_turn hs
      exact single (.turn branch) _ _ hturn

/-- What the recorded connector reaches, the connector reaches. -/
theorem recorder_faithful (h : (machine rtc).Reachable c) :
    (RtcConnector.machine rtc).Reachable c.connector := by
  obtain ⟨es, hrun⟩ := h
  have hinit : (recording rtc).R (machine rtc).init RtcConnector.new := rfl
  obtain ⟨ds, _, hrun', rfl⟩ := (recording rtc).run hinit (fun _ _ _ _ _ _ => trivial) hrun
  exact ⟨ds, hrun'⟩

/-! ## The invariant -/

/-- What a message in the queue has to do with its record. -/
def IsOrigin : Option LocalCandidate → SignalMsg → Prop
  | some candidate, msg => msg = ⟨.localCandidate, candidate.sdp, ""⟩
  | none, msg => msg.kind ≠ .localCandidate

/-- Candidates on their way belong to the current negotiation of the current peer
connection. -/
structure Fresh (c : RecordedConnector) : Prop where
  /-- the recorder knows the queue -/
  aligned : List.Forall₂ IsOrigin c.origins c.connector.signalRx
  /-- candidates on their way are of the current peer connection and its negotiation -/
  own : ∀ candidate, candidate ∈ c.waiting ∨ some candidate ∈ c.origins →
    c.connector.rtcPeerCon = some candidate.peer ∧
      c.connector.currentNegotiationId = some candidate.described.negId
  /-- the offer to be handled is of the current negotiation -/
  current : ∀ offer, c.connector.currentOffer = some offer →
    c.connector.currentNegotiationId = some offer.negId
  /-- when no offer is to be handled, the remote description is of the current negotiation -/
  settled : c.connector.currentOffer = none → ∀ peer offer,
    c.connector.rtcPeerCon = some peer → c.described peer = some offer →
    c.connector.currentNegotiationId = some offer.negId
  /-- later peer connections have no remote description -/
  numbered : ∀ peer offer, c.described peer = some offer →
    ∃ last, c.connector.rtcPeerCon = some last ∧ peer ≤ last

theorem fresh_new : new.Fresh where
  aligned := .nil
  own candidate h := by rcases h with h | h <;> cases h
  current offer h := by cases h
  settled _ peer offer h := by cases h
  numbered peer offer h := by cases h

/-- When nothing is on its way, nothing has to belong to the current negotiation. -/
theorem Drained.own {P : LocalCandidate → Prop} (h : c.Drained) (candidate : LocalCandidate)
    (hmem : candidate ∈ c.waiting ∨ some candidate ∈ c.origins) : P candidate := by
  rcases hmem with hmem | hmem
  · rw [h.1] at hmem
    cases hmem
  · cases h.2 _ hmem

/-- Queues of one length take or refuse an entry together. -/
theorem aligned_trySend {origins : List (Option LocalCandidate)} {queue : List SignalMsg}
    {origin : Option LocalCandidate} {msg : SignalMsg} (h : List.Forall₂ IsOrigin origins queue)
    (hmsg : IsOrigin origin msg) :
    List.Forall₂ IsOrigin (trySend 8 origins origin).1 (trySend 8 queue msg).1 := by
  simp only [trySend, h.length_eq]
  split
  · exact List.rel_append h (.cons hmsg .nil)
  · exact h

/-- A delivery: the message is not a local candidate. -/
theorem Fresh.deliver {msg : SignalMsg} (h : c.Fresh) (hmsg : msg.kind ≠ .localCandidate)
    (hs : c.step rtc (.deliver msg) = some (c', sent)) : c'.Fresh := by
  obtain ⟨-, rfl⟩ := step_deliver hs
  obtain ⟨signalRx, dropped, -, heq, -⟩ := RtcConnector.messageHandler_eq c.connector msg
  have hqueue := RtcConnector.messageHandler_signalRx c.connector msg
  constructor
  · rw [hqueue]
    exact aligned_trySend h.aligned hmsg
  · intro candidate hmem
    rw [heq]
    refine h.own candidate (hmem.imp_right fun hmem => ?_)
    rcases trySend_cases 8 c.origins none with hsend | hsend
    · rw [hsend] at hmem
      rcases List.mem_append.mp hmem with hmem | hmem
      · exact hmem
      · cases List.mem_singleton.mp hmem
    · rw [hsend] at hmem
      exact hmem
  · rw [heq]
    exact h.current
  · rw [heq]
    exact h.settled
  · rw [heq]
    exact h.numbered

/-- A callback of the current peer connection, while no offer is to be handled. -/
theorem Fresh.gathers {peer : ℕ} {sdp : String} (h : c.Fresh)
    (hu : c.Undisturbed rtc (.gathers peer sdp))
    (hs : c.step rtc (.gathers peer sdp) = some (c', sent)) : c'.Fresh := by
  obtain ⟨offer, hoffer, -, rfl⟩ := step_gathers hs
  refine ⟨h.aligned, ?_, h.current, h.settled, h.numbered⟩
  rintro candidate (hmem | hmem)
  · rcases List.mem_append.mp hmem with hmem | hmem
    · exact h.own candidate (Or.inl hmem)
    · rw [List.mem_singleton.mp hmem]
      exact ⟨hu.1, h.settled hu.2 peer offer hu.1 hoffer⟩
  · exact h.own candidate (Or.inr hmem)

/-- A candidate finds room. -/
theorem Fresh.enters {i : ℕ} (h : c.Fresh) (hs : c.step rtc (.enters i) = some (c', sent)) :
    c'.Fresh := by
  obtain ⟨entering, hentering, -, -, rfl⟩ := step_enters hs
  refine ⟨List.rel_append h.aligned (.cons rfl .nil), ?_, h.current, h.settled, h.numbered⟩
  rintro candidate (hmem | hmem)
  · exact h.own candidate (Or.inl (List.mem_of_mem_eraseIdx hmem))
  · rcases List.mem_append.mp hmem with hmem | hmem
    · exact h.own candidate (Or.inr hmem)
    · obtain rfl := Option.some.inj (List.mem_singleton.mp hmem)
      exact h.own candidate (Or.inl (List.mem_of_getElem? hentering))

/-- The head of the loop: nothing is on its way when a peer connection is replaced, and the
new one has no remote description. -/
theorem Fresh.head (h : c.Fresh) (hu : c.connector.restartRtcPeer = true → c.Drained) :
    ({ c with connector := c.connector.head } : RecordedConnector).Fresh := by
  rw [RtcConnector.head]
  split
  · rename_i hrestart
    have hdrained := hu hrestart
    split
    · rename_i peer hpeer
      refine ⟨h.aligned, hdrained.own, nofun, ?_, ?_⟩
      · intro _ _ offer hnew hoffer
        obtain rfl := Option.some.inj hnew
        obtain ⟨last, hlast, hle⟩ := h.numbered _ offer hoffer
        obtain rfl := Option.some.inj (hpeer.symm.trans hlast)
        omega
      · intro earlier offer hoffer
        obtain ⟨last, hlast, hle⟩ := h.numbered earlier offer hoffer
        obtain rfl := Option.some.inj (hpeer.symm.trans hlast)
        exact ⟨peer + 1, rfl, by omega⟩
    · rename_i hnone
      have hnumbered : ∀ peer offer, c.described peer ≠ some offer := by
        intro peer offer hoffer
        obtain ⟨last, hlast, -⟩ := h.numbered peer offer hoffer
        cases hnone.symm.trans hlast
      refine ⟨h.aligned, hdrained.own, h.current, ?_, ?_⟩
      · intro _ peer offer _ hoffer
        exact absurd hoffer (hnumbered peer offer)
      · intro peer offer hoffer
        exact absurd hoffer (hnumbered peer offer)
  · exact h

/-- Handling an offer changes nothing but the history, and sends no candidate. -/
theorem handleOffer_connector (rtc : WebRtc) (c : RtcConnector) (peer : ℕ) (offer : SignalMsg)
    (answer : Option String) :
    (∃ history, (RtcConnector.handleOffer rtc c peer offer answer).1 =
      { c with history := history }) ∧
    ∀ msg ∈ (RtcConnector.handleOffer rtc c peer offer answer).2, msg.kind = .answer := by
  rcases RtcConnector.handleOffer_cases rtc c peer offer answer with ⟨-, heq⟩ | heq | ⟨sdp, heq⟩
  · rw [heq]
    exact ⟨⟨c.history, rfl⟩, nofun⟩
  · rw [heq]
    exact ⟨⟨_, rfl⟩, nofun⟩
  · rw [heq]
    refine ⟨⟨_, rfl⟩, fun msg hmsg => ?_⟩
    rw [List.mem_singleton.mp hmsg]

/-- Handling a message changes nothing but the history. -/
theorem handleSignal_connector (rtc : WebRtc) (c : RtcConnector) (peer : ℕ)
    (negotiationId : String) (msg : SignalMsg) :
    ∃ history, (RtcConnector.handleSignal rtc c peer negotiationId msg).1 =
      { c with history := history } := by
  rcases RtcConnector.handleSignal_cases rtc c peer negotiationId msg with
    ⟨heq, -⟩ | ⟨heq, -⟩ | ⟨heq, -⟩
  · exact ⟨c.history, heq⟩
  · rw [heq]
    exact ⟨_, rfl⟩
  · rw [heq]
    exact ⟨_, rfl⟩

/-- Only a local candidate is sent, stamped with the current negotiation. -/
theorem handleSignal_sent {c : RtcConnector} {peer : ℕ} {negotiationId : String}
    {msg candidate : SignalMsg}
    (h : candidate ∈ (RtcConnector.handleSignal rtc c peer negotiationId msg).2) :
    msg.kind = .localCandidate ∧
      candidate = { msg with kind := .iceCandidate, negId := negotiationId } := by
  by_cases hlocal : msg.kind = .localCandidate
  · rw [RtcConnector.handleSignal, if_pos hlocal] at h
    exact ⟨hlocal, List.mem_singleton.mp h⟩
  · rw [RtcConnector.handleSignal, if_neg hlocal] at h
    split at h
    · cases h
    · split at h
      · split at h <;> cases h
      · cases h

/-- The connector after a branch, with its record. -/
def afterBranch (rtc : WebRtc) (c : RecordedConnector) (branch : Branch) (set : Bool)
    (connector : RtcConnector) : RecordedConnector :=
  { c with
    connector := connector
    described := describe c.described (describes rtc c.connector branch set)
    origins := remaining branch c.origins }

variable {connector : RtcConnector} {set : Bool}

/-- Taking an offer while nothing is on its way. -/
theorem Fresh.select_offer (set : Bool) (h : c.Fresh) (hdrained : c.Drained)
    (hs : c.connector.select rtc .offer = some (connector, sent)) :
    (c.afterBranch rtc .offer set connector).Fresh ∧ sent = [] := by
  obtain ⟨offer, offerRx, -, hsent, rfl⟩ := RtcConnector.select_offer hs
  refine ⟨⟨h.aligned, hdrained.own, ?_, nofun, h.numbered⟩, hsent⟩
  rintro _ ⟨⟩
  rfl

/-- Handling an offer, which becomes the remote description. -/
theorem Fresh.select_handleOffer {answer : Option String} (h : c.Fresh)
    (hset : ∀ offer ∈ c.connector.currentOffer,
      rtc.offer offer.sdp = true ∧ (set || answer.isSome) = true)
    (hs : c.connector.select rtc (.handleOffer answer) = some (connector, sent)) :
    (c.afterBranch rtc (.handleOffer answer) set connector).Fresh ∧
      ∀ msg ∈ sent, msg.kind = .answer := by
  obtain ⟨offer, peer, hoffer, hpeer, heq⟩ := RtcConnector.select_handleOffer hs
  obtain ⟨⟨history, hconnector⟩, hsent⟩ :=
    handleOffer_connector rtc { c.connector with currentOffer := none } peer offer answer
  rw [← heq] at hconnector hsent
  obtain rfl : connector = _ := hconnector
  have hdescribes : describes rtc c.connector (.handleOffer answer) set = some (peer, offer) := by
    obtain ⟨hread, hset⟩ := hset offer hoffer
    simp only [describes, hpeer, hoffer, hread, hset, Bool.and_self, if_true]
  refine ⟨⟨h.aligned, h.own, nofun, ?_, ?_⟩, hsent⟩
  · intro _ peer' offer' hpeer' hoffer'
    simp only [afterBranch, hdescribes, describe] at hoffer'
    obtain rfl := Option.some.inj (hpeer.symm.trans hpeer')
    rw [Function.update_self] at hoffer'
    obtain rfl := Option.some.inj hoffer'
    exact h.current offer hoffer
  · intro peer' offer' hoffer'
    simp only [afterBranch, hdescribes, describe] at hoffer'
    by_cases hsame : peer' = peer
    · exact ⟨peer, hpeer, Nat.le_of_eq hsame⟩
    · rw [Function.update_of_ne hsame] at hoffer'
      exact h.numbered peer' offer' hoffer'

/-- Taking a message: what is sent is at the head of the queue, and so it is of the current
negotiation. -/
theorem Fresh.select_signal (set : Bool) (h : c.Fresh)
    (hs : c.connector.select rtc .signal = some (connector, sent)) :
    (c.afterBranch rtc .signal set connector).Fresh ∧
      ∀ msg ∈ sent, c.OwnCandidate connector msg := by
  obtain ⟨negotiationId, msg, signalRx, peer, hid, hqueue, hpeer, heq⟩ :=
    RtcConnector.select_signal hs
  obtain ⟨history, hconnector⟩ := handleSignal_connector rtc
    { c.connector with signalRx := signalRx } peer negotiationId msg
  rw [← heq] at hconnector
  obtain rfl : connector = _ := hconnector
  have haligned := h.aligned
  rw [hqueue] at haligned
  obtain ⟨origin, origins, horigin, hrest, horigins⟩ := List.forall₂_cons_right_iff.mp haligned
  constructor
  · refine ⟨?_, ?_, h.current, h.settled, h.numbered⟩
    · simp only [afterBranch, remaining, horigins]
      exact hrest
    · intro candidate hmem
      refine h.own candidate (hmem.imp_right fun hmem => ?_)
      exact List.mem_of_mem_tail hmem
  · intro candidate hmem
    have hsent := congrArg Prod.snd heq
    simp only at hsent
    rw [hsent] at hmem
    obtain ⟨hlocal, rfl⟩ := handleSignal_sent hmem
    -- only a gathered candidate is local
    cases origin with
    | none => exact absurd hlocal horigin
    | some gathered =>
      obtain rfl : msg = _ := horigin
      obtain ⟨hpeer', hid'⟩ :=
        h.own gathered (Or.inr (by rw [horigins]; exact List.mem_cons_self ..))
      refine ⟨gathered, by rw [horigins]; rfl, rfl, hpeer', ?_⟩
      exact Option.some.inj (hid'.symm.trans hid)

/-- Any branch, under the conditions that concern it. -/
theorem Fresh.select {branch : Branch} (h : c.Fresh)
    (hu : match branch with
      | .offer => c.Drained
      | .handleOffer answer => ∀ offer ∈ c.connector.currentOffer,
        rtc.offer offer.sdp = true ∧ (set || answer.isSome) = true
      | _ => True)
    (hs : c.connector.select rtc branch = some (connector, sent)) :
    (c.afterBranch rtc branch set connector).Fresh ∧
      ∀ msg ∈ sent, msg.kind = .iceCandidate → c.OwnCandidate connector msg := by
  cases branch with
  | cancelled | debounce | lagged | debounceClosed =>
    obtain ⟨rfl, rfl⟩ := Prod.mk.inj (Option.some.inj hs)
    exact ⟨⟨h.aligned, h.own, h.current, h.settled, h.numbered⟩, nofun⟩
  | offer =>
    obtain ⟨hfresh, rfl⟩ := h.select_offer set hu hs
    exact ⟨hfresh, nofun⟩
  | handleOffer answer =>
    obtain ⟨hfresh, hsent⟩ := h.select_handleOffer hu hs
    refine ⟨hfresh, fun msg hmsg hkind => ?_⟩
    cases (hsent msg hmsg).symm.trans hkind
  | signal =>
    obtain ⟨hfresh, hsent⟩ := h.select_signal set hs
    exact ⟨hfresh, fun msg hmsg _ => hsent msg hmsg⟩

/-- **A step** that does not disturb candidates on their way keeps the invariant, and sends
candidates under their own negotiation only. -/
theorem Fresh.step {e : RecordedEvent} (h : c.Fresh) (hu : c.Undisturbed rtc e)
    (hs : c.step rtc e = some (c', sent)) :
    c'.Fresh ∧ ∀ msg ∈ sent, msg.kind = .iceCandidate → c.OwnCandidate c'.connector msg := by
  cases e with
  | deliver msg =>
    obtain ⟨rfl, -⟩ := step_deliver hs
    exact ⟨h.deliver hu hs, nofun⟩
  | gathers peer sdp =>
    obtain ⟨-, -, rfl, -⟩ := step_gathers hs
    exact ⟨h.gathers hu hs, nofun⟩
  | enters i =>
    obtain ⟨-, -, -, rfl, -⟩ := step_enters hs
    exact ⟨h.enters hs, nofun⟩
  | turn branch set =>
    obtain ⟨connector, -, hselect, rfl⟩ := step_turn hs
    have hhead := h.head hu.1
    refine hhead.select ?_ hselect
    -- the head may take the offer away, but makes none
    have hoffer : ∀ offer ∈ c.connector.head.currentOffer, offer ∈ c.connector.currentOffer := by
      intro offer hoffer
      rw [RtcConnector.head] at hoffer
      split at hoffer
      · split at hoffer
        · cases hoffer
        · exact hoffer
      · exact hoffer
    cases branch with
    | offer => exact hu.2
    | handleOffer answer => exact fun offer hmem => hu.2 offer (hoffer offer hmem)
    | cancelled | debounce | lagged | debounceClosed | signal => trivial

/-- The invariant holds along every undisturbed run. -/
theorem run_fresh {es : List RecordedEvent} (hrun : (machine rtc).run .new es = some c)
    (hall : (machine rtc).Along (Undisturbed rtc) .new es) : c.Fresh := by
  refine StateMachine.run_induction (M := machine rtc)
    (P := fun es c => (machine rtc).Along (Undisturbed rtc) .new es → c.Fresh)
    (fun _ => fresh_new) ?_ hrun hall
  intro es c e c' hrun ih hstep hall
  obtain ⟨⟨c₁, sent⟩, hs, rfl⟩ := Option.map_eq_some_iff.mp hstep
  exact ((ih hall.init).step (hall.last hrun) hs).1

/-- **Candidates under their own negotiation.** Along every run in which candidates on
their way are not disturbed, each candidate is sent under the negotiation whose offer was
the remote description of the current peer connection when it gathered the candidate. -/
theorem candidates_sent_under_own (rtc : WebRtc) (es : List RecordedEvent)
    (hall : (machine rtc).Along (Undisturbed rtc) .new es) :
    (machine rtc).Along (SentUnderOwn rtc) .new es := by
  intro pre e post c hsplit hrun c' sent msg hs hmem hkind
  subst hsplit
  have hfresh : c.Fresh := run_fresh hrun hall.init
  exact (hfresh.step (hall pre e post c rfl hrun) hs).2 msg hmem hkind

/-! ## With and without the condition -/

/-- An offer is answered, and the candidate gathered then is sent. -/
def answered : List RecordedEvent :=
  [.deliver ⟨.offer, "o", "n"⟩, .turn .offer true, .turn (.handleOffer (some "a")) true,
    .turn .signal true, .gathers 0 "c", .enters 0]

theorem candidates_sent_under_own_answered :
    (machine .readsAll).Along (SentUnderOwn .readsAll) .new (answered ++ [.turn .signal true]) := by
  refine candidates_sent_under_own .readsAll _ ?_
  refine .cons nofun rfl ?_
  refine .cons ⟨fun _ => ⟨rfl, by decide⟩, rfl, by decide⟩ rfl ?_
  refine .cons ⟨nofun, fun _ _ => ⟨rfl, rfl⟩⟩ rfl ?_
  refine .cons ⟨nofun, trivial⟩ rfl ?_
  refine .cons ⟨rfl, rfl⟩ rfl ?_
  refine .cons trivial rfl ?_
  exact .cons ⟨nofun, trivial⟩ rfl .nil

/-- The peer connection is replaced and the next offer is answered while the candidate is
still in the queue. -/
def overtaken : List RecordedEvent :=
  answered ++ [.turn .debounce true, .deliver ⟨.offer, "o'", "n'"⟩, .turn .offer true,
    .turn (.handleOffer (some "a'")) true]

/-- Not every run sends candidates under their own negotiation: the candidate of the first
peer connection and negotiation is sent by the second peer connection, under the second
negotiation. -/
theorem candidate_sent_under_other :
    ¬ ∀ (rtc : WebRtc) (es : List RecordedEvent),
      (machine rtc).Along (SentUnderOwn rtc) .new es := by
  intro hall
  let M := machine .readsAll
  let c := (M.run .new overtaken).get rfl
  have hrun : M.run .new overtaken = some c := (Option.some_get _).symm
  have hlast : c.SentUnderOwn .readsAll (.turn .signal true) :=
    (hall .readsAll (overtaken ++ [.turn .signal true])).last hrun
  let r := (c.step .readsAll (.turn .signal true)).get rfl
  have hs : c.step .readsAll (.turn .signal true) = some r := (Option.some_get _).symm
  obtain ⟨candidate, hhead, -, -, hid⟩ :=
    hlast r.1 r.2 ⟨.iceCandidate, "c", "n'"⟩ hs (List.mem_singleton_self _) rfl
  have horigin : c.origins.head? = some (some ⟨0, "c", ⟨.offer, "o", "n"⟩⟩) := rfl
  obtain rfl := Option.some.inj (Option.some.inj (horigin.symm.trans hhead))
  exact absurd hid (by decide)

end RecordedConnector

end Rs

end Vamp
