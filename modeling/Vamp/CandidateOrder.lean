import Vamp.BackendConnector

/-!
# Candidates and their offers

The transport delivers an offer before its candidates. The connector puts them into two
queues, and its `select!` may take the queues in any order. Two promises are broken by
that: a candidate is applied only after its offer has been, and a candidate of the newest
offer is not thrown away.

Both are kept when no candidate is taken ahead of its offer (`OffersFirst`):

* when a candidate is applied, the offer of the current negotiation has been set on this
  very peer connection, because `current_offer` is empty (`Tracks.described`);
* the newest offer is still the last one in its queue, or it is the current one
  (`Tracks.newest`), so that a candidate that differs from the current one and from the
  queued one is not of the newest offer.
-/

namespace Vamp

namespace Rs

namespace RtcConnector

/-- The negotiation of the newest offer delivered, if the peer connection has not been
restarted since. -/
def standing : List Happening → Option String
  | [] => none
  | .delivered msg :: history => if msg.kind = .offer then some msg.negId else standing history
  | .restarted :: _ => none
  | _ :: history => standing history

/-- What has happened since `c`, newest first. -/
def news (c' c : RtcConnector) : List Happening :=
  c'.history.take (c'.history.length - c.history.length)

/-- A candidate that is applied in this step comes after its offer, on the same peer
connection. -/
def AppliedAfterOffer (rtc : WebRtc) (c : RtcConnector) (e : RtcEvent) : Prop :=
  ∀ c' sent peer candidate, c.step rtc e = some (c', sent) →
    .addIceCandidate peer candidate ∈ c'.news c →
    ∃ offer, .setRemoteDescription peer offer ∈ c.history ∧ offer.negId = candidate.negId

/-- A candidate that is thrown away in this step is not of the newest offer. -/
def NewestKept (rtc : WebRtc) (c : RtcConnector) (e : RtcEvent) : Prop :=
  ∀ c' sent candidate, c.step rtc e = some (c', sent) →
    .discarded candidate ∈ c'.news c → candidate.kind = .iceCandidate →
    standing c.history ≠ some candidate.negId

/-- The queues do not overflow. -/
def HasRoom (c : RtcConnector) : RtcEvent → Prop
  | .deliver msg => c.signalRx.length < 8 ∧ (msg.kind = .offer → c.offerRx.length < 8)
  | _ => True

/-- The branch taken is not ahead of an offer: a candidate of the current negotiation is
not taken before `current_offer` is handled, another one not when it is of the last offer
in the queue; and an offer that is handled can be read. -/
def TakesOfferFirst (rtc : WebRtc) (c : RtcConnector) : Branch → Prop
  | .signal => ∀ msg ∈ c.signalRx.head?, msg.kind = .iceCandidate →
    if c.currentNegotiationId = some msg.negId then c.currentOffer = none
    else ∀ offer ∈ c.offerRx.getLast?, offer.negId ≠ msg.negId
  | .handleOffer _ => ∀ offer ∈ c.currentOffer, rtc.offer offer.sdp = true
  | _ => True

/-- The turn, if the event is one, is not ahead of an offer. -/
def OffersFirst (rtc : WebRtc) (c : RtcConnector) : RtcEvent → Prop
  | .turn branch => c.head.TakesOfferFirst rtc branch
  | _ => True

/-! ## Proper happenings -/

/-- No candidate is applied and nothing is thrown away. -/
def Quiet : Happening → Prop
  | .addIceCandidate _ _ | .discarded _ => False
  | _ => True

/-- What happens after `past` keeps both promises. -/
structure Proper (past hs : List Happening) : Prop where
  /-- a candidate is applied after its offer -/
  applied : ∀ peer candidate, .addIceCandidate peer candidate ∈ hs →
    ∃ offer, .setRemoteDescription peer offer ∈ past ∧ offer.negId = candidate.negId
  /-- a candidate that is thrown away is not of the newest offer -/
  kept : ∀ candidate, .discarded candidate ∈ hs → candidate.kind = .iceCandidate →
    standing past ≠ some candidate.negId

theorem proper_of_quiet {past hs : List Happening} (h : ∀ x ∈ hs, Quiet x) : Proper past hs where
  applied _ _ hmem := (h _ hmem).elim
  kept _ hmem := (h _ hmem).elim

/-! ## The invariant -/

/-- How the three places of an offer hang together: the queue, `current_offer` with
`current_negotiation_id`, and the peer connection. -/
structure Tracks (c : RtcConnector) : Prop where
  /-- the newest offer is the last one in the queue, or the current one -/
  newest : ∀ id, standing c.history = some id →
    (∃ offer, c.offerRx.getLast? = some offer ∧ offer.negId = id) ∨
      c.offerRx = [] ∧ c.currentNegotiationId = some id
  /-- the offer to be handled is of the current negotiation -/
  current : ∀ offer, c.currentOffer = some offer → c.currentNegotiationId = some offer.negId
  /-- when no offer is to be handled, that of the current negotiation has been set -/
  described : c.currentOffer = none → ∀ id, c.currentNegotiationId = some id →
    ∃ peer offer, c.rtcPeerCon = some peer ∧ .setRemoteDescription peer offer ∈ c.history ∧
      offer.negId = id

variable {rtc : WebRtc} {c c' : RtcConnector} {sent : List SignalMsg} {e : RtcEvent}

theorem tracks_new : new.Tracks where
  newest id h := by cases h
  current offer h := by cases h
  described _ id h := by cases h

theorem news_eq {hs : List Happening} (h : c'.history = hs ++ c.history) : c'.news c = hs := by
  rw [news, h, List.length_append, Nat.add_sub_cancel_right, List.take_left]

/-- A note that is neither a delivery nor a restart changes nothing. -/
theorem Tracks.note {h : Happening} (ht : c.Tracks)
    (hstanding : standing (h :: c.history) = standing c.history) : (c.note h).Tracks where
  newest id hid := ht.newest id (hstanding.symm.trans hid)
  current := ht.current
  described hnone id hid := by
    obtain ⟨peer, offer, hpeer, hmem, heq⟩ := ht.described hnone id hid
    exact ⟨peer, offer, hpeer, List.mem_cons_of_mem _ hmem, heq⟩

/-! ## One step -/

/-- A delivery. -/
theorem Tracks.messageHandler (h : c.Tracks) {msg : SignalMsg} (hroom : c.HasRoom (.deliver msg)) :
    (c.messageHandler msg).Tracks ∧
      (c.messageHandler msg).history = .delivered msg :: c.history := by
  obtain ⟨signalRx, dropped, -, heq, hdropped⟩ := messageHandler_eq c msg
  obtain rfl := hdropped hroom
  rw [heq]
  refine ⟨?_, rfl⟩
  constructor
  · intro id hid
    by_cases hoffer : msg.kind = .offer
    · -- the newest offer now
      have hid : some msg.negId = some id := (if_pos hoffer).symm.trans hid
      refine Or.inl ⟨msg, ?_, Option.some.inj hid⟩
      simp only [if_pos hoffer, trySend, if_pos (hroom.2 hoffer)]
      exact List.getLast?_concat ..
    · have hid : standing c.history = some id := (if_neg hoffer).symm.trans hid
      simp only [if_neg hoffer]
      exact h.newest id hid
  · exact h.current
  · intro hnone id hid
    obtain ⟨peer, offer, hpeer, hmem, hoffer⟩ := h.described hnone id hid
    exact ⟨peer, offer, hpeer, List.mem_cons_of_mem _ hmem, hoffer⟩

/-- A local candidate does not matter. -/
theorem Tracks.signalRx (h : c.Tracks) (queue : List SignalMsg) :
    ({ c with signalRx := queue } : RtcConnector).Tracks where
  newest := h.newest
  current := h.current
  described := h.described

/-- The head of the loop. -/
theorem Tracks.head (h : c.Tracks) :
    c.head.Tracks ∧ (c.head.history = c.history ∨
      c.head.history = .restarted :: c.history ∧ c.head.currentNegotiationId = none) := by
  unfold RtcConnector.head
  split
  · split
    · -- a restart: nothing is current, nothing is standing
      refine ⟨⟨?_, ?_, ?_⟩, Or.inr ⟨rfl, rfl⟩⟩
      · intro id hid
        cases hid
      · intro offer hoffer
        cases hoffer
      · intro _ id hid
        cases hid
    · rename_i hnone
      refine ⟨⟨h.newest, h.current, ?_⟩, Or.inl rfl⟩
      intro hcurrent id hid
      obtain ⟨peer, _, hpeer, -⟩ := h.described hcurrent id hid
      cases hnone.symm.trans hpeer
  · exact ⟨h, Or.inl rfl⟩

/-- Taking an offer. -/
theorem Tracks.select_offer (h : c.Tracks) (hs : c.select rtc .offer = some (c', sent)) :
    c'.Tracks ∧ c'.history = c.history := by
  obtain ⟨offer, offerRx, hq, -, rfl⟩ := RtcConnector.select_offer hs
  refine ⟨⟨?_, ?_, ?_⟩, rfl⟩
  · intro id hid
    rcases h.newest id hid with ⟨last, hlast, hlast_id⟩ | ⟨hempty, -⟩
    · rw [hq] at hlast
      cases offerRx with
      | nil =>
        have hsame : offer = last := Option.some.inj hlast
        rw [← hsame] at hlast_id
        exact Or.inr ⟨rfl, congrArg some hlast_id⟩
      | cons x offerRx => exact Or.inl ⟨last, hlast, hlast_id⟩
    · cases hq.symm.trans hempty
  · rintro _ ⟨⟩
    rfl
  · intro hnone
    cases hnone

/-- Handling an offer that can be read. -/
theorem Tracks.select_handleOffer (h : c.Tracks) {answer : Option String}
    (hread : c.TakesOfferFirst rtc (.handleOffer answer))
    (hs : c.select rtc (.handleOffer answer) = some (c', sent)) :
    c'.Tracks ∧ ∃ hs, c'.history = hs ++ c.history ∧ ∀ x ∈ hs, Quiet x := by
  obtain ⟨offer, peer, hoffer, hpeer, hc'⟩ := RtcConnector.select_handleOffer hs
  have hset : (RtcConnector.note { c with currentOffer := none }
      (.setRemoteDescription peer offer)).Tracks := by
    refine ⟨h.newest, nofun, ?_⟩
    intro _ id hid
    have hcurrent := (h.current offer hoffer).symm.trans hid
    exact ⟨peer, offer, hpeer, List.mem_cons_self .., Option.some.inj hcurrent⟩
  rcases handleOffer_cases rtc { c with currentOffer := none } peer offer answer with
    ⟨hbad, -⟩ | heq | ⟨sdp, heq⟩
  · rw [hread offer hoffer] at hbad
    cases hbad
  · rw [heq] at hc'
    obtain ⟨rfl, -⟩ := Prod.mk.inj hc'
    refine ⟨hset, [.setRemoteDescription peer offer], rfl, ?_⟩
    intro x hx
    rw [List.mem_singleton.mp hx]
    trivial
  · rw [heq] at hc'
    obtain ⟨rfl, -⟩ := Prod.mk.inj hc'
    refine ⟨hset.note rfl, [.answered offer ⟨.answer, sdp, offer.negId⟩,
      .setRemoteDescription peer offer], rfl, ?_⟩
    intro x hx
    rcases List.mem_cons.mp hx with rfl | hx
    · trivial
    · rw [List.mem_singleton.mp hx]
      trivial

/-- Taking a message, not ahead of an offer: what is applied comes after its offer, what
is thrown away is not of the newest one. -/
theorem Tracks.select_signal (h : c.Tracks) (hfirst : c.TakesOfferFirst rtc .signal)
    (hs : c.select rtc .signal = some (c', sent)) :
    c'.Tracks ∧ ∃ hs, c'.history = hs ++ c.history ∧ Proper c.history hs := by
  obtain ⟨id, msg, signalRx, peer, hid, hq, hpeer, hc'⟩ := RtcConnector.select_signal hs
  have hhead : msg ∈ c.signalRx.head? := by
    rw [hq]
    rfl
  rcases handleSignal_cases rtc { c with signalRx := signalRx } peer id msg with
    ⟨heq, -⟩ | ⟨heq, hne⟩ | ⟨heq, hcandidate, hmsg⟩
  · -- neither applied nor thrown away
    obtain rfl : c' = _ := (congrArg Prod.fst hc').trans heq
    exact ⟨h.signalRx signalRx, [], rfl, proper_of_quiet nofun⟩
  · -- thrown away: it is not of the current negotiation, nor of the last offer in the queue
    rw [heq] at hc'
    obtain ⟨rfl, -⟩ := Prod.mk.inj hc'
    refine ⟨(h.signalRx signalRx).note rfl, [.discarded msg], rfl, ⟨?_, ?_⟩⟩
    · intro _ _ hmem
      cases List.mem_singleton.mp hmem
    · intro candidate hmem hkind hnewest
      obtain rfl := Happening.discarded.inj (List.mem_singleton.mp hmem)
      have hcur : c.currentNegotiationId ≠ some candidate.negId := by
        rw [hid]
        exact fun heq => hne (Option.some.inj heq).symm
      have hlast := hfirst candidate hhead hkind
      rw [if_neg hcur] at hlast
      rcases h.newest candidate.negId hnewest with ⟨offer, hoffer, hoffer_id⟩ | ⟨-, hcur'⟩
      · exact hlast offer hoffer hoffer_id
      · exact hcur hcur'
  · -- applied: the offer of the current negotiation has been set
    rw [heq] at hc'
    obtain ⟨rfl, -⟩ := Prod.mk.inj hc'
    refine ⟨(h.signalRx signalRx).note rfl, [.addIceCandidate peer msg], rfl, ⟨?_, ?_⟩⟩
    · intro _ candidate hmem
      obtain ⟨rfl, rfl⟩ := Happening.addIceCandidate.inj (List.mem_singleton.mp hmem)
      have hcur : c.currentNegotiationId = some candidate.negId := by rw [hid, hmsg]
      have hnone := hfirst candidate hhead hcandidate
      rw [if_pos hcur] at hnone
      obtain ⟨peer', offer, hpeer', hmem, hoffer⟩ := h.described hnone _ hcur
      obtain rfl := Option.some.inj (hpeer.symm.trans hpeer')
      exact ⟨offer, hmem, hoffer⟩
    · intro _ hmem
      cases List.mem_singleton.mp hmem

/-- Any branch that is not ahead of an offer. Only `signal` applies candidates or throws
them away, and it needs a current negotiation. -/
theorem Tracks.select {branch : Branch} (h : c.Tracks) (hfirst : c.TakesOfferFirst rtc branch)
    (hs : c.select rtc branch = some (c', sent)) :
    c'.Tracks ∧ ∃ hs, c'.history = hs ++ c.history ∧
      ((∀ x ∈ hs, Quiet x) ∨ c.currentNegotiationId ≠ none ∧ Proper c.history hs) := by
  cases branch with
  | cancelled | debounce | lagged | debounceClosed =>
    obtain ⟨rfl, -⟩ := Prod.mk.inj (Option.some.inj hs)
    exact ⟨⟨h.newest, h.current, h.described⟩, [], rfl, Or.inl nofun⟩
  | offer =>
    obtain ⟨htracks, hhistory⟩ := h.select_offer hs
    exact ⟨htracks, [], hhistory, Or.inl nofun⟩
  | handleOffer answer =>
    obtain ⟨htracks, hs, hhistory, hquiet⟩ := h.select_handleOffer hfirst hs
    exact ⟨htracks, hs, hhistory, Or.inl hquiet⟩
  | signal =>
    obtain ⟨id, _, _, _, hid, -⟩ := RtcConnector.select_signal hs
    obtain ⟨htracks, hs, hhistory, hproper⟩ := h.select_signal hfirst hs
    exact ⟨htracks, hs, hhistory, Or.inr ⟨by rw [hid]; simp, hproper⟩⟩

/-- **A step** that is not ahead of an offer keeps the invariant and both promises. -/
theorem Tracks.step (h : c.Tracks) (hroom : c.HasRoom e) (hfirst : c.OffersFirst rtc e)
    (hs : c.step rtc e = some (c', sent)) :
    c'.Tracks ∧ ∃ hs, c'.history = hs ++ c.history ∧ Proper c.history hs := by
  cases e with
  | deliver msg =>
    obtain ⟨rfl, -⟩ := Prod.mk.inj (Option.some.inj hs)
    obtain ⟨htracks, hhistory⟩ := h.messageHandler hroom
    refine ⟨htracks, [.delivered msg], hhistory, proper_of_quiet ?_⟩
    intro x hx
    rw [List.mem_singleton.mp hx]
    trivial
  | gathered sdp =>
    simp only [RtcConnector.step, Option.ite_none_right_eq_some, Option.some.injEq,
      Prod.mk.injEq] at hs
    obtain ⟨-, rfl, -⟩ := hs
    exact ⟨h.signalRx _, [], rfl, proper_of_quiet nofun⟩
  | turn branch =>
    simp only [RtcConnector.step, Option.ite_none_right_eq_some] at hs
    obtain ⟨hhead, hhistory⟩ := h.head
    obtain ⟨htracks, hs, hhistory', hproper⟩ := hhead.select hfirst hs.2
    rcases hhistory with hhistory | ⟨hhistory, hnone⟩
    · rw [hhistory] at hhistory' hproper
      rcases hproper with hquiet | ⟨-, hproper⟩
      · exact ⟨htracks, hs, hhistory', proper_of_quiet hquiet⟩
      · exact ⟨htracks, hs, hhistory', hproper⟩
    · -- the turn begins with a restart: nothing is negotiated
      rcases hproper with hquiet | ⟨hsome, -⟩
      · refine ⟨htracks, hs ++ [.restarted], ?_, proper_of_quiet ?_⟩
        · rw [hhistory', hhistory, List.append_assoc]
          rfl
        · intro x hx
          rcases List.mem_append.mp hx with hx | hx
          · exact hquiet x hx
          · rw [List.mem_singleton.mp hx]
            trivial
      · exact absurd hnone hsome

/-- The invariant holds along every run that is not ahead of an offer. -/
theorem run_tracks {es : List RtcEvent} (hrun : (machine rtc).run .new es = some c)
    (hall : (machine rtc).Along (fun c e => c.HasRoom e ∧ c.OffersFirst rtc e) .new es) :
    c.Tracks := by
  refine StateMachine.run_induction (M := machine rtc) (P := fun es c =>
    (machine rtc).Along (fun c e => c.HasRoom e ∧ c.OffersFirst rtc e) .new es → c.Tracks)
    (fun _ => tracks_new) ?_ hrun hall
  intro es c e c' hrun ih hstep hall
  obtain ⟨hroom, hfirst⟩ := hall.last hrun
  obtain ⟨⟨c₁, sent⟩, hs, rfl⟩ := Option.map_eq_some_iff.mp hstep
  exact ((ih hall.init).step hroom hfirst hs).1

/-- **Candidates in order.** Along every run in which the queues do not overflow and no
branch is taken ahead of an offer, candidates are applied after their offers, and those of
the newest offer are not thrown away. -/
theorem candidates_in_order (rtc : WebRtc) (es : List RtcEvent)
    (hall : (machine rtc).Along (fun c e => c.HasRoom e ∧ c.OffersFirst rtc e) .new es) :
    (machine rtc).Along (fun c e => c.AppliedAfterOffer rtc e ∧ c.NewestKept rtc e) .new es := by
  intro pre e post c hsplit hrun
  subst hsplit
  have htracks : c.Tracks := run_tracks hrun hall.init
  obtain ⟨hroom, hfirst⟩ := hall pre e post c rfl hrun
  constructor
  · intro c' sent peer candidate hs hmem
    obtain ⟨-, hs, hhistory, hproper⟩ := htracks.step hroom hfirst hs
    rw [news_eq hhistory] at hmem
    exact hproper.applied peer candidate hmem
  · intro c' sent candidate hs hmem
    obtain ⟨-, hs, hhistory, hproper⟩ := htracks.step hroom hfirst hs
    rw [news_eq hhistory] at hmem
    exact hproper.kept candidate hmem

/-! ## With and without the condition -/

/-- An offer is handled, and then its candidate is applied. -/
def oneByOne : List RtcEvent :=
  [.deliver ⟨.offer, "o", "n"⟩, .turn .offer, .turn (.handleOffer (some "a")), .turn .signal,
    .deliver ⟨.iceCandidate, "c", "n"⟩, .turn .signal]

theorem candidates_in_order_oneByOne :
    (machine .readsAll).Along
      (fun c e => c.AppliedAfterOffer .readsAll e ∧ c.NewestKept .readsAll e)
      .new oneByOne := by
  refine candidates_in_order .readsAll oneByOne ?_
  refine .cons ⟨⟨by decide, fun _ => by decide⟩, trivial⟩ rfl ?_
  refine .cons ⟨trivial, trivial⟩ rfl ?_
  refine .cons ⟨trivial, fun _ _ => rfl⟩ rfl ?_
  refine .cons ⟨trivial, ?_⟩ rfl ?_
  · rintro _ ⟨⟩ hkind
    cases hkind
  refine .cons ⟨⟨by decide, fun _ => by decide⟩, trivial⟩ rfl ?_
  refine .cons ⟨trivial, ?_⟩ rfl .nil
  · rintro _ ⟨⟩ _
    rfl

/-- Every candidate is delivered after an offer of its negotiation; `seen` are the
negotiations offered so far. -/
def offersLead (seen : List String) : List RtcEvent → Bool
  | [] => true
  | .deliver msg :: es =>
    if msg.kind = .offer then offersLead (msg.negId :: seen) es
    else (msg.kind ≠ .iceCandidate || msg.negId ∈ seen) && offersLead seen es
  | _ :: es => offersLead seen es

/-- The offer has been taken, but not handled, and the candidate is next in its queue. -/
def aheadOfCurrent : List RtcEvent :=
  [.deliver ⟨.offer, "o", "n"⟩, .deliver ⟨.iceCandidate, "c", "n"⟩, .turn .offer, .turn .signal]

/-- A second offer is in its queue, and its candidate is next in the other queue. -/
def aheadOfQueued : List RtcEvent :=
  [.deliver ⟨.offer, "o", "n"⟩, .turn .offer, .turn (.handleOffer (some "a")), .turn .signal,
    .deliver ⟨.offer, "o'", "n'"⟩, .deliver ⟨.iceCandidate, "c'", "n'"⟩, .turn .signal]

/-- Neither promise is kept in every run, although offers are delivered first and there is
room in the queues: a candidate is applied before its offer is set, and a candidate of the
newest offer is thrown away. -/
theorem candidates_disordered :
    (¬ ∀ (rtc : WebRtc) (es : List RtcEvent), offersLead [] es = true →
      (machine rtc).Along HasRoom .new es →
      (machine rtc).Along (AppliedAfterOffer rtc) .new es) ∧
    ¬ ∀ (rtc : WebRtc) (es : List RtcEvent), offersLead [] es = true →
      (machine rtc).Along HasRoom .new es → (machine rtc).Along (NewestKept rtc) .new es := by
  constructor
  · -- the candidate is taken before its offer is set
    intro hall
    let M := machine .readsAll
    let c := (M.run .new aheadOfCurrent).get rfl
    have hrun : M.run .new aheadOfCurrent = some c := (Option.some_get _).symm
    have hroom : M.Along HasRoom .new (aheadOfCurrent ++ [.turn .signal]) := by
      refine .cons ⟨by decide, fun _ => by decide⟩ rfl ?_
      refine .cons ⟨by decide, fun _ => by decide⟩ rfl ?_
      exact .cons trivial rfl (.cons trivial rfl (.cons trivial rfl .nil))
    have hlast : c.AppliedAfterOffer .readsAll (.turn .signal) :=
      (hall .readsAll (aheadOfCurrent ++ [.turn .signal]) rfl hroom).last hrun
    let r := (c.step .readsAll (.turn .signal)).get rfl
    have hs : c.step .readsAll (.turn .signal) = some r := (Option.some_get _).symm
    obtain ⟨offer, hmem, -⟩ :=
      hlast r.1 r.2 0 ⟨.iceCandidate, "c", "n"⟩ hs (List.mem_singleton_self _)
    have hhistory : c.history =
        [.delivered ⟨.iceCandidate, "c", "n"⟩, .delivered ⟨.offer, "o", "n"⟩] := rfl
    rw [hhistory] at hmem
    simp at hmem
  · -- the newer offer is still in the queue when its candidate is taken
    intro hall
    let M := machine .readsAll
    let c := (M.run .new aheadOfQueued).get rfl
    have hrun : M.run .new aheadOfQueued = some c := (Option.some_get _).symm
    have hroom : M.Along HasRoom .new (aheadOfQueued ++ [.turn .signal]) := by
      refine .cons ⟨by decide, fun _ => by decide⟩ rfl ?_
      refine .cons trivial rfl (.cons trivial rfl (.cons trivial rfl ?_))
      refine .cons ⟨by decide, fun _ => by decide⟩ rfl ?_
      refine .cons ⟨by decide, fun _ => by decide⟩ rfl ?_
      exact .cons trivial rfl (.cons trivial rfl .nil)
    have hlast : c.NewestKept .readsAll (.turn .signal) :=
      (hall .readsAll (aheadOfQueued ++ [.turn .signal]) rfl hroom).last hrun
    let r := (c.step .readsAll (.turn .signal)).get rfl
    have hs : c.step .readsAll (.turn .signal) = some r := (Option.some_get _).symm
    exact hlast r.1 r.2 ⟨.iceCandidate, "c'", "n'"⟩ hs (List.mem_singleton_self _) rfl rfl

end RtcConnector

end Rs

end Vamp
