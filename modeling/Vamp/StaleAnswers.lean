import Vamp.BackendConnector
import Vamp.BrowserConnector

/-!
# Stale answers

The browser's connector and the backend's, and between them everything that either has
ever sent: any message may be delivered at any later time, in any order, any number of
times, or never.

The negotiation id keeps the two together. The browser changes it before the new offer
exists, and several things may go wrong until the offer is sent: `createOffer` and
`setLocalDescription` may fail, the connection may have changed, the offer may be rolled
back. What makes it work is that an attempt sends at most one offer under its id, as its
very last act, and that no other attempt can begin before (`Alone`): an offer with the
current id is on its way only when the offer set last is that one (`Inv.current`).
-/

namespace Vamp

/-! ## Where answers come from -/

namespace Rs.RtcConnector

/-- Offers come from `pool`, and answers from offers. -/
structure Answers (pool : List SignalMsg) (c : RtcConnector) : Prop where
  /-- the offers in the queue -/
  offerRx : ∀ offer ∈ c.offerRx, offer ∈ pool ∧ offer.kind = .offer
  /-- the offer to be handled -/
  currentOffer : ∀ offer ∈ c.currentOffer, offer ∈ pool ∧ offer.kind = .offer
  /-- the answers -/
  answered : ∀ offer answer, .answered offer answer ∈ c.history →
    offer ∈ pool ∧ offer.kind = .offer ∧ answer.negId = offer.negId

variable {rtc : WebRtc} {c c' : RtcConnector} {e : RtcEvent} {sent pool pool' : List SignalMsg}

theorem answers_new : new.Answers pool where
  offerRx _ h := by cases h
  currentOffer _ h := by cases h
  answered _ _ h := by cases h

theorem Answers.mono (h : c.Answers pool) (hsub : pool ⊆ pool') : c.Answers pool' where
  offerRx offer hmem := ⟨hsub (h.offerRx offer hmem).1, (h.offerRx offer hmem).2⟩
  currentOffer offer hmem := ⟨hsub (h.currentOffer offer hmem).1, (h.currentOffer offer hmem).2⟩
  answered offer answer hmem := by
    obtain ⟨hpool, hkind⟩ := h.answered offer answer hmem
    exact ⟨hsub hpool, hkind⟩

/-- The happenings of other kinds do not matter. -/
theorem Answers.note (h : c.Answers pool) {x : Happening}
    (hx : ∀ offer answer, x ≠ .answered offer answer) : (c.note x).Answers pool where
  offerRx := h.offerRx
  currentOffer := h.currentOffer
  answered offer answer hmem := by
    rcases List.mem_cons.mp hmem with heq | hmem
    · exact absurd heq.symm (hx offer answer)
    · exact h.answered offer answer hmem

theorem Answers.head (h : c.Answers pool) :
    c.head.Answers pool ∧ c.history <:+ c.head.history := by
  unfold RtcConnector.head
  split
  · split
    · refine ⟨⟨h.offerRx, nofun, fun offer answer hmem => ?_⟩, List.suffix_cons ..⟩
      rcases List.mem_cons.mp hmem with heq | hmem
      · cases heq
      · exact h.answered offer answer hmem
    · exact ⟨⟨h.offerRx, h.currentOffer, h.answered⟩, List.suffix_rfl⟩
  · exact ⟨h, List.suffix_rfl⟩

theorem Answers.messageHandler (h : c.Answers pool) {msg : SignalMsg} (hmsg : msg ∈ pool) :
    (c.messageHandler msg).Answers pool ∧ c.history <:+ (c.messageHandler msg).history := by
  obtain ⟨signalRx, dropped, hdropped, heq, -⟩ := messageHandler_eq c msg
  rw [heq]
  refine ⟨⟨?_, h.currentOffer, ?_⟩, ⟨dropped ++ [.delivered msg], by simp⟩⟩
  · intro offer hmem
    by_cases hoffer : msg.kind = .offer
    · simp only [if_pos hoffer] at hmem
      rcases trySend_cases 8 c.offerRx msg with hq | hq
      · rw [hq] at hmem
        rcases List.mem_append.mp hmem with hmem | hmem
        · exact h.offerRx offer hmem
        · rw [List.mem_singleton.mp hmem]
          exact ⟨hmsg, hoffer⟩
      · rw [hq] at hmem
        exact h.offerRx offer hmem
    · simp only [if_neg hoffer] at hmem
      exact h.offerRx offer hmem
  · intro offer answer hmem
    rcases List.mem_append.mp hmem with hmem | hmem
    · cases hdropped _ hmem
    · rcases List.mem_cons.mp hmem with heq | hmem
      · cases heq
      · exact h.answered offer answer hmem

/-- A branch: what is sent as an answer has been made of an offer. -/
theorem Answers.select {branch : Branch} (h : c.Answers pool)
    (hs : c.select rtc branch = some (c', sent)) :
    c'.Answers pool ∧ c.history <:+ c'.history ∧
      ∀ m ∈ sent, m.kind = .answer → ∃ offer, .answered offer m ∈ c'.history := by
  cases branch with
  | cancelled | debounce | lagged | debounceClosed =>
    obtain ⟨rfl, rfl⟩ := Prod.mk.inj (Option.some.inj hs)
    exact ⟨⟨h.offerRx, h.currentOffer, h.answered⟩, List.suffix_rfl, nofun⟩
  | offer =>
    obtain ⟨offer, offerRx, hq, rfl, rfl⟩ := select_offer hs
    refine ⟨⟨fun o ho => ?_, fun o ho => ?_, h.answered⟩, List.suffix_rfl, nofun⟩
    · exact h.offerRx o (by rw [hq]; exact List.mem_cons_of_mem _ ho)
    · obtain rfl := Option.some.inj ho
      exact h.offerRx offer (by rw [hq]; exact List.mem_cons_self ..)
  | handleOffer answer =>
    obtain ⟨offer, peer, hoffer, -, hc'⟩ := select_handleOffer hs
    obtain ⟨hpool, hkind⟩ := h.currentOffer offer hoffer
    have htaken : ({ c with currentOffer := none } : RtcConnector).Answers pool :=
      ⟨h.offerRx, nofun, h.answered⟩
    -- the offer is taken: it is not set, it is set, or it is answered
    rcases handleOffer_cases rtc { c with currentOffer := none } peer offer answer with
      ⟨-, heq⟩ | heq | ⟨sdp, heq⟩
    · obtain ⟨rfl, rfl⟩ := Prod.mk.inj (hc'.trans heq)
      exact ⟨htaken, List.suffix_rfl, nofun⟩
    · obtain ⟨rfl, rfl⟩ := Prod.mk.inj (hc'.trans heq)
      exact ⟨htaken.note nofun, List.suffix_cons .., nofun⟩
    · obtain ⟨rfl, rfl⟩ := Prod.mk.inj (hc'.trans heq)
      refine ⟨⟨h.offerRx, nofun, fun o a hmem => ?_⟩, ⟨[_, _], rfl⟩, fun m hm _ => ?_⟩
      · rcases List.mem_cons.mp hmem with heq | hmem
        · obtain ⟨rfl, rfl⟩ := Happening.answered.inj heq
          exact ⟨hpool, hkind, rfl⟩
        · rcases List.mem_cons.mp hmem with heq | hmem
          · cases heq
          · exact h.answered o a hmem
      · rw [List.mem_singleton.mp hm]
        exact ⟨offer, List.mem_cons_self ..⟩
  | signal =>
    obtain ⟨id, msg, signalRx, peer, -, -, -, hc'⟩ := select_signal hs
    have htaken : ({ c with signalRx := signalRx } : RtcConnector).Answers pool :=
      ⟨h.offerRx, h.currentOffer, h.answered⟩
    -- what is sent here is a candidate
    rcases handleSignal_cases rtc { c with signalRx := signalRx } peer id msg with
      ⟨heq, hsent⟩ | ⟨heq, -⟩ | ⟨heq, -, -⟩
    · rw [← hc'] at heq hsent
      obtain rfl : c' = { c with signalRx := signalRx } := heq
      refine ⟨htaken, List.suffix_rfl, fun m hm hkind => ?_⟩
      cases (hsent m hm).symm.trans hkind
    · obtain ⟨rfl, rfl⟩ := Prod.mk.inj (hc'.trans heq)
      exact ⟨htaken.note nofun, List.suffix_cons .., nofun⟩
    · obtain ⟨rfl, rfl⟩ := Prod.mk.inj (hc'.trans heq)
      exact ⟨htaken.note nofun, List.suffix_cons .., nofun⟩

/-- **A step of the backend**: answers are made of offers that were delivered. -/
theorem Answers.step (h : c.Answers pool) (hpool : ∀ msg, e = .deliver msg → msg ∈ pool)
    (hs : c.step rtc e = some (c', sent)) :
    c'.Answers pool ∧ c.history <:+ c'.history ∧
      ∀ m ∈ sent, m.kind = .answer → ∃ offer, .answered offer m ∈ c'.history := by
  cases e with
  | deliver msg =>
    obtain ⟨rfl, rfl⟩ := Prod.mk.inj (Option.some.inj hs)
    obtain ⟨hanswers, hhistory⟩ := h.messageHandler (hpool msg rfl)
    exact ⟨hanswers, hhistory, nofun⟩
  | gathered sdp =>
    simp only [RtcConnector.step, Option.ite_none_right_eq_some, Option.some.injEq,
      Prod.mk.injEq] at hs
    obtain ⟨-, rfl, rfl⟩ := hs
    exact ⟨⟨h.offerRx, h.currentOffer, h.answered⟩, List.suffix_rfl, nofun⟩
  | turn branch =>
    simp only [RtcConnector.step, Option.ite_none_right_eq_some] at hs
    obtain ⟨hhead, hhistory⟩ := h.head
    obtain ⟨hanswers, hhistory', hsent⟩ := hhead.select hs.2
    exact ⟨hanswers, hhistory.trans hhistory', hsent⟩

end Rs.RtcConnector

/-! ## The two connectors -/

/-- The two connectors, and everything that either has ever sent, oldest first. -/
structure Negotiation : Type where
  /-- the initiator -/
  browser : Ts.RtcConnector
  /-- the responder -/
  backend : Rs.RtcConnector
  /-- what the browser has given to `sendSignallingMessage` -/
  toBackend : List SignalMsg
  /-- what the backend has given to `send_default` -/
  toBrowser : List SignalMsg

/-- What can happen. -/
inductive NegotiationEvent : Type where
  /-- something happens to the browser's connector -/
  | browser (e : Ts.BrowserEvent)
  /-- something other than a delivery happens to the backend's connector -/
  | backend (e : Rs.RtcEvent)
  /-- a message of the browser is delivered -/
  | toBackend (i : ℕ)
  /-- a message of the backend is delivered, and handled by `handleSignalMsg` -/
  | toBrowser (i : ℕ)

/-- The id that `crypto.randomUUID` would give. -/
def NegotiationEvent.uuid : NegotiationEvent → Option String
  | .browser e => e.uuid
  | _ => none

namespace Negotiation

/-- Nothing has happened yet. -/
def new : Negotiation := ⟨.new, .new, [], []⟩

/-- The backend makes a step. -/
def backendStep (rtc : Rs.WebRtc) (s : Negotiation) (e : Rs.RtcEvent) : Option Negotiation := do
  let (backend, sent) ← s.backend.step rtc e
  return { s with backend := backend, toBrowser := s.toBrowser ++ sent }

/-- One step. -/
def step (rtc : Rs.WebRtc) (s : Negotiation) : NegotiationEvent → Option Negotiation
  | .browser e => do
    let (browser, sent) ← s.browser.step e
    return { s with browser := browser, toBackend := s.toBackend ++ sent }
  | .backend e =>
    match e with
    | .deliver _ => none
    | e => s.backendStep rtc e
  | .toBackend i => do
    let msg ← s.toBackend[i]?
    s.backendStep rtc (.deliver msg)
  | .toBrowser i => if i < s.toBrowser.length then some s else none

/-- The two connectors as a machine. -/
def machine (rtc : Rs.WebRtc) : StateMachine Negotiation NegotiationEvent where
  init := .new
  step := step rtc

/-- The ids drawn in a run. -/
def drawn (es : List NegotiationEvent) : List String := es.filterMap NegotiationEvent.uuid

/-- If the event makes `handleSignalMsg` call `setRemoteDescription` with an answer, then
`handle_offer` has made that answer of the offer that was set last and not rolled back,
and of no other. -/
def AnswersCurrent (s : Negotiation) (e : NegotiationEvent) : Prop :=
  ∀ i answer sdp, e = .toBrowser i → s.toBrowser[i]? = some answer →
    s.browser.handleSignalMsg answer = some (.setRemoteDescription sdp) →
    sdp = answer.sdp ∧ ∃ d, s.browser.localOffers.head? = some d ∧ d.negId = some answer.negId ∧
      .answered ⟨.offer, d.sdp, answer.negId⟩ answer ∈ s.backend.history ∧
      ∀ offer, .answered offer answer ∈ s.backend.history →
        offer = ⟨.offer, d.sdp, answer.negId⟩

/-- What ties the two connectors together; `ids` are the ids drawn so far. -/
structure Inv (ids : List String) (s : Negotiation) : Prop where
  /-- one attempt at a time -/
  alone : s.browser.Alone
  /-- the current id was drawn -/
  id : ∀ id, s.browser.currentNegotiationId = some id → id ∈ ids
  /-- offers have ids that were drawn -/
  offers : ∀ m ∈ s.toBackend, m.kind = .offer → m.negId ∈ ids
  /-- when an offer with the current id has been sent, its attempt is over, and it is the
  one set last -/
  current : ∀ m ∈ s.toBackend, m.kind = .offer →
    s.browser.currentNegotiationId = some m.negId →
    (∀ h ∈ s.browser.handlers, h.AwaitsDelivery) ∧
      ∃ offer, s.browser.localOffers.head? = some ⟨some m.negId, offer, m.sdp⟩
  /-- the backend answers offers of the browser -/
  backend : s.backend.Answers s.toBackend
  /-- answers on their way have been made by `handle_offer` -/
  answers : ∀ m ∈ s.toBrowser, m.kind = .answer → ∃ offer, .answered offer m ∈ s.backend.history

variable {rtc : Rs.WebRtc} {s s' : Negotiation} {e : NegotiationEvent} {ids : List String}

theorem inv_new : Inv [] new where
  alone := Ts.RtcConnector.alone_new
  id _ h := by cases h
  offers _ h := by cases h
  current _ h := by cases h
  backend := Rs.RtcConnector.answers_new
  answers _ h := by cases h

/-- An offer that was there before has the current id only if nothing has happened to its
attempt. -/
theorem Inv.current_step {b : Ts.BrowserEvent} {browser : Ts.RtcConnector} {sent : List SignalMsg}
    (h : Inv ids s) (hfresh : ∀ uuid, b.uuid = some uuid → uuid ∉ ids)
    (hprogress : s.browser.Progress b browser sent) {m : SignalMsg} (hm : m ∈ s.toBackend)
    (hkind : m.kind = .offer) (hid : browser.currentNegotiationId = some m.negId) :
    (∀ x ∈ browser.handlers, x.AwaitsDelivery) ∧
      ∃ offer, browser.localOffers.head? = some ⟨some m.negId, offer, m.sdp⟩ := by
  cases hprogress with
  | idle sameId sameOffers handlers noOffer =>
    obtain ⟨hawait, hhead⟩ := h.current m hm hkind (sameId.symm.trans hid)
    refine ⟨fun x hx => (handlers x hx).elim (hawait x) fun hx => hx, ?_⟩
    rw [sameOffers]
    exact hhead
  | begun drawn newId =>
    -- no offer has the new id yet
    obtain rfl := Option.some.inj (newId.symm.trans hid)
    exact absurd (h.offers m hm hkind) (hfresh _ drawn)
  | underway mem own sameId =>
    -- an attempt that is not over has not sent its offer
    exact absurd ((h.current m hm hkind (sameId.symm.trans hid)).1 _ mem) own
  | offered mem own sameId =>
    exact absurd ((h.current m hm hkind (sameId.symm.trans hid)).1 _ mem) own

/-- A step of the browser. -/
theorem Inv.browser {b : Ts.BrowserEvent} (h : Inv ids s)
    (hfresh : ∀ uuid, b.uuid = some uuid → uuid ∉ ids)
    (hs : step rtc s (.browser b) = some s') : Inv (ids ++ b.uuid.toList) s' := by
  simp only [step, Option.bind_eq_bind, Option.bind_eq_some_iff, Option.pure_def,
    Option.some.injEq] at hs
  obtain ⟨⟨browser, sent⟩, hb, rfl⟩ := hs
  obtain ⟨halone, hprogress⟩ := h.alone.step hb
  refine ⟨halone, ?_, ?_, ?_, h.backend.mono (List.subset_append_left ..), h.answers⟩
  · intro id hid
    rcases hprogress.id_cases with hsame | ⟨uuid, hdrawn, hnew⟩
    · exact List.mem_append_left _ (h.id id (hsame.symm.trans hid))
    · obtain rfl := Option.some.inj (hnew.symm.trans hid)
      rw [hdrawn]
      exact List.mem_append_right _ (List.mem_singleton_self _)
  · intro m hm hkind
    rcases List.mem_append.mp hm with hm | hm
    · exact List.mem_append_left _ (h.offers m hm hkind)
    · exact List.mem_append_left _ (h.id m.negId (hprogress.offer_sent hm hkind).1)
  · intro m hm hkind hid
    rcases List.mem_append.mp hm with hm | hm
    · exact h.current_step hfresh hprogress hm hkind hid
    · -- the offer just sent is the one just set
      obtain ⟨-, hfinished, hhead⟩ := hprogress.offer_sent hm hkind
      refine ⟨fun x hx => ?_, hhead⟩
      rw [hfinished] at hx
      cases hx

/-- A step of the backend, a delivery or not. -/
theorem Inv.backendStep {r : Rs.RtcEvent} (h : Inv ids s)
    (hpool : ∀ msg, r = .deliver msg → msg ∈ s.toBackend)
    (hs : s.backendStep rtc r = some s') : Inv ids s' := by
  simp only [Negotiation.backendStep, Option.bind_eq_bind, Option.bind_eq_some_iff,
    Option.pure_def, Option.some.injEq] at hs
  obtain ⟨⟨backend, sent⟩, hb, rfl⟩ := hs
  obtain ⟨hbackend, hhistory, hsent⟩ := h.backend.step hpool hb
  refine { h with backend := hbackend, answers := fun m hm hkind => ?_ }
  rcases List.mem_append.mp hm with hm | hm
  · obtain ⟨offer, hmem⟩ := h.answers m hm hkind
    exact ⟨offer, hhistory.subset hmem⟩
  · exact hsent m hm hkind

/-- **Every step** keeps the two connectors tied together, if the id it draws is new. -/
theorem Inv.step (h : Inv ids s) (hfresh : ∀ uuid, e.uuid = some uuid → uuid ∉ ids)
    (hs : step rtc s e = some s') : Inv (ids ++ e.uuid.toList) s' := by
  cases e with
  | browser b => exact h.browser hfresh hs
  | backend r =>
    simp only [NegotiationEvent.uuid, Option.toList_none, List.append_nil]
    cases r with
    | deliver msg => cases hs
    | gathered sdp => exact h.backendStep (fun _ he => by cases he) hs
    | turn branch => exact h.backendStep (fun _ he => by cases he) hs
  | toBackend i =>
    simp only [NegotiationEvent.uuid, Option.toList_none, List.append_nil]
    simp only [Negotiation.step, Option.bind_eq_bind, Option.bind_eq_some_iff] at hs
    obtain ⟨msg, hmsg, hs⟩ := hs
    refine h.backendStep ?_ hs
    rintro _ ⟨⟩
    exact List.mem_of_getElem? hmsg
  | toBrowser i =>
    simp only [NegotiationEvent.uuid, Option.toList_none, List.append_nil]
    simp only [Negotiation.step, Option.ite_none_right_eq_some, Option.some.injEq] at hs
    obtain ⟨-, rfl⟩ := hs
    exact h

/-- The two connectors are tied together along every run that draws no id twice. -/
theorem run_inv {es : List NegotiationEvent} (hrun : (machine rtc).run .new es = some s)
    (hnodup : (drawn es).Nodup) : Inv (drawn es) s := by
  refine StateMachine.run_induction (M := machine rtc)
    (P := fun es s => (drawn es).Nodup → Inv (drawn es) s) (fun _ => inv_new) ?_ hrun hnodup
  intro es s e s' _ ih hs hnodup
  have hdrawn : drawn (es ++ [e]) = drawn es ++ e.uuid.toList := by
    cases hu : e.uuid with
    | none => simp [drawn, hu]
    | some uuid => simp [drawn, hu]
  rw [hdrawn] at hnodup ⊢
  obtain ⟨hes, -, hdisjoint⟩ := List.nodup_append.mp hnodup
  refine (ih hes).step ?_ hs
  intro uuid huuid hmem
  exact hdisjoint uuid hmem uuid (by rw [huuid]; exact List.mem_singleton_self _) rfl

/-- The answer that is applied has the current id. -/
theorem handleSignalMsg_eq_setRemoteDescription {c : Ts.RtcConnector} {msg : SignalMsg}
    {sdp : String} (h : c.handleSignalMsg msg = some (.setRemoteDescription sdp)) :
    msg.kind = .answer ∧ sdp = msg.sdp ∧ c.currentNegotiationId = some msg.negId := by
  unfold Ts.RtcConnector.handleSignalMsg at h
  split at h
  · cases h
  · split at h
    · cases h
    · rename_i hid
      split at h
      · rename_i hkind
        obtain rfl := Ts.RemoteCall.setRemoteDescription.inj (Option.some.inj h)
        exact ⟨hkind, rfl, (not_not.mp hid).symm⟩
      · cases h
      · cases h

/-- One step: the answer that is applied was made of the offer that was set last. -/
theorem Inv.answersCurrent (h : Inv ids s) (e : NegotiationEvent) : s.AnswersCurrent e := by
  intro i answer sdp _ hget hcall
  obtain ⟨hkind, rfl, hid⟩ := handleSignalMsg_eq_setRemoteDescription hcall
  -- every offer it was made of has the current id, and so is the one that was set last
  have hmade : ∀ offer, .answered offer answer ∈ s.backend.history →
      ∃ o, s.browser.localOffers.head? = some ⟨some answer.negId, o, offer.sdp⟩ ∧
        offer = ⟨.offer, offer.sdp, answer.negId⟩ := by
    intro offer hmem
    obtain ⟨hpool, hoffer, hnegId⟩ := h.backend.answered offer answer hmem
    obtain ⟨-, o, hhead⟩ := h.current offer hpool hoffer (hid.trans (by rw [hnegId]))
    refine ⟨o, by rw [hnegId, hhead], ?_⟩
    rw [hnegId, ← hoffer]
  obtain ⟨offer, hmem⟩ := h.answers answer (List.mem_of_getElem? hget) hkind
  obtain ⟨o, hhead, hoffer⟩ := hmade offer hmem
  refine ⟨rfl, _, hhead, rfl, hoffer ▸ hmem, ?_⟩
  intro offer' hmem'
  obtain ⟨o', hhead', hoffer'⟩ := hmade offer' hmem'
  have hsame := Option.some.inj (hhead.symm.trans hhead')
  rw [hoffer', (Ts.LocalOffer.mk.inj hsame).2.2]

/-- **Stale answers are never applied.** Along every run that draws no id twice, whenever
`handleSignalMsg` calls `setRemoteDescription` with an answer, `handle_offer` has made that
answer of exactly the offer that the browser has set last and not rolled back. -/
theorem answers_current (rtc : Rs.WebRtc) (es : List NegotiationEvent)
    (hnodup : (drawn es).Nodup) : (machine rtc).Along AnswersCurrent .new es := by
  intro pre e post s hsplit hrun
  subst hsplit
  have hpre : (drawn pre).Nodup := by
    rw [drawn, List.filterMap_append] at hnodup
    exact (List.nodup_append.mp hnodup).1
  exact (run_inv hrun hpre).answersCurrent e

/-- A first offer is answered late: the browser has started over, and its second offer is
answered as well. Both answers are delivered. -/
def startedOver : List NegotiationEvent :=
  [.browser (.start false "n"), .browser (.offerCreated 0 0 (some "o")),
    .browser (.localDescriptionSet 0 0 (some "o")), .toBackend 0, .backend (.turn .offer),
    .backend (.turn (.handleOffer (some "a"))), .browser (.timeout 10000 false "n'"),
    .browser (.offerCreated 0 10000 (some "o'")),
    .browser (.localDescriptionSet 0 10000 (some "o'")), .toBackend 1, .backend (.turn .offer),
    .backend (.turn (.handleOffer (some "a'"))), .toBrowser 0, .toBrowser 1]

/-- The stale answer is not applied, the other one is. -/
theorem answers_current_startedOver :
    (∃ s, (machine .readsAll).run .new startedOver = some s ∧
      s.toBrowser = [⟨.answer, "a", "n"⟩, ⟨.answer, "a'", "n'"⟩] ∧
      s.browser.handleSignalMsg ⟨.answer, "a", "n"⟩ = none ∧
      s.browser.handleSignalMsg ⟨.answer, "a'", "n'"⟩ = some (.setRemoteDescription "a'")) ∧
    (machine .readsAll).Along AnswersCurrent .new startedOver := by
  constructor
  · let s := ((machine .readsAll).run .new startedOver).get rfl
    exact ⟨s, (Option.some_get _).symm, rfl, rfl, rfl⟩
  · exact answers_current .readsAll startedOver (by decide)

end Negotiation

end Vamp
