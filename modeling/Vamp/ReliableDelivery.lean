import Vamp.Acknowledgements
import Vamp.StopAndWait
import Vamp.TransportRoom

/-!
# Reliable delivery

One sending endpoint, one receiving endpoint, in either language, and a room between them
that loses, repeats, delays and reorders what it likes. The two of them are a `link` of
the stop-and-wait protocol:

* a `send` offers its payload under the next number, and waits for it;
* a message that comes in arrives, and the sequence filter hands it on if it is fresh;
* an acknowledgement, wherever it is (in the queue of the receiver, on the wire, in the
  queue of the sender), has a number that has arrived; so when a pending `send` takes it,
  its item may be completed;
* aborting a `send` gives it up; its frames and acknowledgements stay around.

The simulation carries the reliability of the link over to the handlers. The receiver may
send as well; its messages and their acknowledgements travel among the others.
-/

namespace Vamp

open StopAndWait

variable {τ κ : Type}

/-! ## What an endpoint has done -/

namespace Effect

/-- The number and the payload of a `send`. -/
def asSent : Effect τ κ → Option (ℕ × τ)
  | .sent sn payload => some (sn, payload)
  | _ => none

/-- The number and the payload of a message passed to `message_handler`. -/
def asHanded : Effect τ κ → Option (ℕ × τ)
  | .handled _ sn payload => some (sn, payload)
  | _ => none

/-- The number of a `send` that returns `Ok`. -/
def asCompleted : Effect τ κ → Option ℕ
  | .returned sn (.ok ()) => some sn
  | _ => none

theorem filterMap_asHanded (effs : List (Effect τ κ)) :
    effs.filterMap asHanded = (effs.filter isHandled).filterMap asHanded := by
  rw [List.filterMap_filter]
  refine List.filterMap_congr fun eff _ => ?_
  cases eff with
  | handled id sn payload => rfl
  | _ => rfl

end Effect

namespace Endpoint

variable {codec : Codec τ κ} {v v' : View τ κ} {e : HandlerEvent τ κ} {effs : List (Effect τ κ)}

/-- **The sending side of a move**: `send` takes a number; or the pending `send` returns
`Ok` for an acknowledgement of its number; or nothing but that the pending `send` may be
gone. -/
theorem Move.sender_cases (h : Move codec v e v' effs) :
    (∃ payload ok, ∃ waits : Bool, e = .send payload ok ∧ v.pending = none ∧
      v'.next = v.language.bump v.next ∧
      v'.pending =
        (if waits then some (v.next, codec.encode (.normal v.next v.nodeId payload)) else none) ∧
      effs.filterMap Effect.asSent = [(v.next, payload)] ∧
      effs.filterMap Effect.asCompleted = []) ∨
    (∃ sn res, v.pending = some (sn, res) ∧ v'.pending = none ∧ v'.next = v.next ∧
      effs.filterMap Effect.asSent = [] ∧ effs.filterMap Effect.asCompleted = [sn] ∧
      ((∃ frame ok id, e = .receive frame ok ∧ codec.decode frame = .ok (.ack sn id)) ∨
        ∃ id, .ack sn id ∈ v.incomingAck)) ∨
    ((v'.pending = v.pending ∨ v'.pending = none) ∧ v'.next = v.next ∧
      effs.filterMap Effect.asSent = [] ∧ effs.filterMap Effect.asCompleted = []) := by
  cases h with
  | sent payload ok waits effects free rest =>
    have hquiet : ∀ eff ∈ effects, eff.asSent = none ∧ eff.asCompleted = none := by
      intro eff heff
      rcases rest eff heff with ⟨frame, rfl, -⟩ | ⟨err, rfl⟩
      · exact ⟨rfl, rfl⟩
      · exact ⟨rfl, rfl⟩
    refine Or.inl ⟨payload, ok, waits, rfl, free, rfl, rfl, ?_, ?_⟩
    · have hnil : effects.filterMap Effect.asSent = [] :=
        List.filterMap_eq_nil_iff.mpr fun eff heff => (hquiet eff heff).1
      simp only [List.filterMap_cons, Effect.asSent, hnil]
    · exact List.filterMap_eq_nil_iff.mpr (List.forall_mem_cons.mpr
        ⟨rfl, fun eff heff => (hquiet eff heff).2⟩)
  | refused err => exact Or.inr (Or.inr ⟨Or.inl rfl, rfl, rfl, rfl⟩)
  | transmitted busy frames =>
    refine Or.inr (Or.inr ⟨Or.inl rfl, rfl, ?_, ?_⟩)
    · refine List.filterMap_eq_nil_iff.mpr fun eff heff => ?_
      obtain ⟨frame, rfl, -⟩ := frames eff heff
      rfl
    · refine List.filterMap_eq_nil_iff.mpr fun eff heff => ?_
      obtain ⟨frame, rfl, -⟩ := frames eff heff
      rfl
  | normal decoded queue acks_of =>
    refine Or.inr (Or.inr ⟨Or.inl rfl, rfl, ?_, ?_⟩)
    · refine List.filterMap_eq_nil_iff.mpr fun eff heff => ?_
      grind [Effect.asSent]
    · refine List.filterMap_eq_nil_iff.mpr fun eff heff => ?_
      grind [Effect.asCompleted]
  | ack decoded queue => exact Or.inr (Or.inr ⟨Or.inl rfl, rfl, rfl, rfl⟩)
  | @acked frame ok sn nodeId res here decoded busy =>
    exact Or.inr (Or.inl
      ⟨sn, res, busy, rfl, rfl, rfl, rfl, Or.inl ⟨frame, ok, nodeId, rfl, decoded⟩⟩)
  | garbage decoded => exact Or.inr (Or.inr ⟨Or.inl rfl, rfl, rfl, rfl⟩)
  | ackSent queue frames =>
    refine Or.inr (Or.inr ⟨Or.inl rfl, rfl, ?_, ?_⟩)
    · refine List.filterMap_eq_nil_iff.mpr fun eff heff => ?_
      obtain ⟨frame, answers, rfl, -⟩ := frames eff heff
      rfl
    · refine List.filterMap_eq_nil_iff.mpr fun eff heff => ?_
      obtain ⟨frame, answers, rfl, -⟩ := frames eff heff
      rfl
  | @ackTaken sn nodeId res incomingAck queue busy =>
    refine Or.inr (Or.inl ⟨sn, res, busy, rfl, rfl, rfl, rfl, Or.inr ⟨nodeId, ?_⟩⟩)
    rw [queue]
    exact List.mem_cons_self ..
  | ackSkipped queue => exact Or.inr (Or.inr ⟨Or.inl rfl, rfl, rfl, rfl⟩)
  | aborted event errors =>
    refine Or.inr (Or.inr ⟨Or.inr rfl, rfl, ?_, ?_⟩)
    · refine List.filterMap_eq_nil_iff.mpr fun eff heff => ?_
      obtain ⟨sn, err, rfl⟩ := errors eff heff
      rfl
    · refine List.filterMap_eq_nil_iff.mpr fun eff heff => ?_
      obtain ⟨sn, err, rfl⟩ := errors eff heff
      rfl

/-! ## The two ends of the link -/

/-- What any endpoint `n` puts on the wire is a message of its own or an acknowledgement. -/
structure Tidy (codec : Codec τ κ) (n : NodeId) (v : View τ κ) : Prop where
  /-- the identity -/
  nodeId : v.nodeId = n
  /-- the pending frame is a message -/
  pending : ∀ sn res, v.pending = some (sn, res) →
    ∃ payload, res = codec.encode (.normal sn n payload)
  /-- acknowledgements are queued -/
  ackQ : ∀ m ∈ v.ackQ, ∃ sn id, m = .ack sn id

/-- The sending end `a` of a link. -/
structure Sends (codec : Codec τ κ) (a : NodeId) (v : View τ κ) (l : Link ℕ τ) : Prop where
  /-- one number for each item -/
  next : v.next = v.language.firstNumber + l.offered.length
  /-- numbers were given in order -/
  below : ∀ p ∈ l.offered, p.1 < v.next
  /-- `send` waits when the link waits -/
  waiting : l.waiting = v.pending.map Prod.fst
  /-- the pending frame carries an offered item -/
  pending : ∀ sn res, v.pending = some (sn, res) →
    ∃ payload, (sn, payload) ∈ l.offered ∧ res = codec.encode (.normal sn a payload)
  /-- what is acknowledged has arrived -/
  incomingAck : ∀ sn id, .ack sn id ∈ v.incomingAck → sn ∈ l.arrived

/-- The receiving end of a link from `a`. -/
structure Receives (a : NodeId) (v : View τ κ) (l : Link ℕ τ) : Prop where
  /-- the filter holds the last number of the link -/
  last : v.filter.lastSn = l.last
  /-- the filter holds no other identity -/
  identity : ∀ id ∈ v.filter.nodeId, id = a
  /-- what is to be acknowledged has arrived -/
  ackQ : ∀ sn id, .ack sn id ∈ v.ackQ → sn ∈ l.arrived

variable {a n : NodeId} {l l' : Link ℕ τ}

theorem Tidy.move (h : Tidy codec n v) (hmove : Move codec v e v' effs) : Tidy codec n v' := by
  obtain ⟨hnode, hpending, hackQ⟩ := h
  refine ⟨hmove.nodeId_eq.trans hnode, ?_, ?_⟩
  · intro sn res hp
    rcases hmove.sender_cases with
      ⟨payload, _, waits, -, -, -, hp', -⟩ | ⟨_, _, -, hp', -⟩ | ⟨hp' | hp', -⟩
    · rw [hp', hnode] at hp
      cases waits with
      | true =>
        obtain ⟨rfl, rfl⟩ := Prod.mk.inj (Option.some.inj hp)
        exact ⟨payload, rfl⟩
      | false => cases hp
    · cases hp'.symm.trans hp
    · exact hpending sn res (hp'.symm.trans hp)
    · cases hp'.symm.trans hp
  · intro m hm
    rcases hmove.ackQ_cases hm with hm | ⟨_, _, sn, id, _, -, -, rfl⟩
    · exact hackQ m hm
    · exact ⟨sn, id, rfl⟩

/-- The sending end does not notice what arrives. -/
theorem Sends.mono (h : Sends codec a v l) (hoffered : l'.offered = l.offered)
    (hwaiting : l'.waiting = l.waiting) (harrived : l.arrived ⊆ l'.arrived) :
    Sends codec a v l' where
  next := by rw [hoffered, h.next]
  below := by rw [hoffered]; exact h.below
  waiting := by rw [hwaiting, h.waiting]
  pending := by rw [hoffered]; exact h.pending
  incomingAck sn id hm := harrived (h.incomingAck sn id hm)

/-- The receiving end does not notice what is sent. -/
theorem Receives.congr (h : Receives a v l) (hlast : l'.last = l.last)
    (harrived : l'.arrived = l.arrived) : Receives a v l' where
  last := by rw [hlast, h.last]
  identity := h.identity
  ackQ := by rw [harrived]; exact h.ackQ

theorem bump_eq {language : Language} {k : ℕ} (h : k + 1 < 2 ^ 32) :
    language.bump (language.firstNumber + k) = language.firstNumber + (k + 1) := by
  cases language with
  | rust => simp only [Language.bump, Language.firstNumber]; omega
  | typeScript => simp only [Language.bump, Language.firstNumber]; omega

/-- The sending end after `send` has numbered a payload. -/
theorem Sends.offer (h : Sends codec a v l) {payload : τ} {waits : Bool}
    (hlanguage : v'.language = v.language) (hnext : v'.next = v.next + 1)
    (hpending : v'.pending =
      if waits then some (v.next, codec.encode (.normal v.next a payload)) else none)
    (hincoming : ∀ sn id, .ack sn id ∈ v'.incomingAck → sn ∈ l.arrived) :
    Sends codec a v' { l with
      offered := l.offered ++ [(v.next, payload)]
      waiting := if waits then some v.next else none } := by
  constructor
  case next =>
    rw [hnext, hlanguage, List.length_append, h.next]
    rfl
  case below =>
    intro p hp
    rw [hnext]
    rcases List.mem_append.mp hp with hp | hp
    · exact (h.below p hp).trans (Nat.lt_succ_self _)
    · rw [List.mem_singleton.mp hp]
      exact Nat.lt_succ_self _
  case waiting =>
    rw [hpending]
    cases waits with
    | true => rfl
    | false => rfl
  case pending =>
    intro sn res hp
    rw [hpending] at hp
    cases waits with
    | true =>
      obtain ⟨rfl, rfl⟩ := Prod.mk.inj (Option.some.inj hp)
      exact ⟨payload, List.mem_append_right _ (List.mem_singleton_self _), rfl⟩
    | false => cases hp
  case incomingAck => exact hincoming

/-- The sending end when no `send` is pending any more. -/
theorem Sends.rest (h : Sends codec a v l) (hoffered : l'.offered = l.offered)
    (hwaiting : l'.waiting = none) (hlanguage : v'.language = v.language)
    (hnext : v'.next = v.next) (hpending : v'.pending = none)
    (hincoming : ∀ sn id, .ack sn id ∈ v'.incomingAck → sn ∈ l'.arrived) :
    Sends codec a v' l' where
  next := by rw [hnext, hlanguage, hoffered, h.next]
  below := by rw [hnext, hoffered]; exact h.below
  waiting := by rw [hwaiting, hpending, Option.map_none]
  pending sn res hp := by cases hpending.symm.trans hp
  incomingAck := hincoming

/-- The sending end when it still waits for what it has waited for. -/
theorem Sends.keep (h : Sends codec a v l) (hlanguage : v'.language = v.language)
    (hnext : v'.next = v.next) (hpending : v'.pending = v.pending)
    (hincoming : ∀ sn id, .ack sn id ∈ v'.incomingAck → sn ∈ l.arrived) :
    Sends codec a v' l where
  next := by rw [hnext, hlanguage, h.next]
  below := by rw [hnext]; exact h.below
  waiting := by rw [hpending, h.waiting]
  pending := by rw [hpending]; exact h.pending
  incomingAck := hincoming

/-- **A move of the sending end is a run of the link**: an offer, a completion, giving up,
or nothing. -/
theorem Sends.move (h : Sends codec a v l) (hmove : Move codec v e v' effs) (hnode : v.nodeId = a)
    (hacks : ∀ frame ok sn id, e = .receive frame ok → codec.decode frame = .ok (.ack sn id) →
      sn ∈ l.arrived)
    (hbound : ∀ payload ok, e = .send payload ok → l.offered.length + 1 < 2 ^ 32) :
    ∃ ds l', (link ℕ τ).run l ds = some l' ∧ Sends codec a v' l' ∧
      l'.offered = l.offered ++ effs.filterMap Effect.asSent ∧
      l'.completed = l.completed ++ effs.filterMap Effect.asCompleted ∧
      l'.arrived = l.arrived ∧ l'.last = l.last ∧ l'.handed = l.handed := by
  have hincoming : ∀ sn id, .ack sn id ∈ v'.incomingAck → sn ∈ l.arrived := by
    intro sn id hm
    rcases hmove.incomingAck_cases hm with hm | ⟨frame, ok, sn', id', rfl, hdec, heq⟩
    · exact h.incomingAck sn id hm
    · obtain ⟨rfl, rfl⟩ := TransportMsg.ack.inj heq
      exact hacks frame ok sn id rfl hdec
  rcases hmove.sender_cases with
    ⟨payload, ok, waits, rfl, hfree, hnext, hpending, hsent, hcompleted⟩ |
      ⟨sn, res, hbusy, hpending, hnext, hsent, hcompleted, hack⟩ |
      ⟨hpending, hnext, hsent, hcompleted⟩
  · -- a new item
    have hwaiting : l.waiting = none := by rw [h.waiting, hfree, Option.map_none]
    have hbump : v'.next = v.next + 1 := by
      rw [hnext, h.next, bump_eq (hbound payload ok rfl)]
      rfl
    rw [hnode] at hpending
    refine ⟨[.offer v.next payload waits], _,
      StateMachine.run_cons_eq_some.mpr ⟨_, step_offer waits hwaiting h.below, rfl⟩,
      h.offer hmove.language_eq hbump hpending hincoming, ?_, ?_, rfl, rfl, rfl⟩
    · rw [hsent]
    · rw [hcompleted, List.append_nil]
  · -- the pending item is acknowledged
    have hwaiting : l.waiting = some sn := by rw [h.waiting, hbusy, Option.map_some]
    have harrived : sn ∈ l.arrived := by
      rcases hack with ⟨frame, ok, id, rfl, hdec⟩ | ⟨id, hm⟩
      · exact hacks frame ok sn id rfl hdec
      · exact h.incomingAck sn id hm
    refine ⟨[.complete sn], _,
      StateMachine.run_cons_eq_some.mpr ⟨_, step_complete hwaiting harrived, rfl⟩,
      h.rest rfl rfl hmove.language_eq hnext hpending hincoming, ?_, ?_, rfl, rfl, rfl⟩
    · rw [hsent, List.append_nil]
    · rw [hcompleted]
  · have hoffered : l.offered = l.offered ++ effs.filterMap Effect.asSent := by
      rw [hsent, List.append_nil]
    have hdone : l.completed = l.completed ++ effs.filterMap Effect.asCompleted := by
      rw [hcompleted, List.append_nil]
    rcases hpending with hpending | hpending
    · -- nothing
      exact ⟨[], l, rfl, h.keep hmove.language_eq hnext hpending hincoming, hoffered, hdone,
        rfl, rfl, rfl⟩
    · -- given up
      exact ⟨[.giveUp], _, rfl, h.rest rfl rfl hmove.language_eq hnext hpending hincoming,
        hoffered, hdone, rfl, rfl, rfl⟩

/-- **A move of the receiving end is a run of the link**: an arrival, or nothing. -/
theorem Receives.move (h : Receives a v l) (hmove : Move codec v e v' effs)
    (hmsgs : ∀ frame ok sn id payload, e = .receive frame ok →
      codec.decode frame = .ok (.normal sn id payload) → id = a ∧ (sn, payload) ∈ l.offered) :
    ∃ ds l', (link ℕ τ).run l ds = some l' ∧ Receives a v' l' ∧
      l'.handed = l.handed ++ effs.filterMap Effect.asHanded ∧
      l'.offered = l.offered ∧ l'.waiting = l.waiting ∧ l'.completed = l.completed ∧
      l.arrived ⊆ l'.arrived ∧
      ∀ frame ok sn id payload, e = .receive frame ok →
        codec.decode frame = .ok (.normal sn id payload) → sn ∈ l'.arrived := by
  rw [Effect.filterMap_asHanded]
  rcases hmove.receiver_cases with
    ⟨frame, ok, sn, id, payload, rfl, hdec, hfilter, hhanded⟩ | ⟨hfilter, hhanded, hnone⟩
  · obtain ⟨rfl, hoffered⟩ := hmsgs frame ok sn id payload rfl hdec
    -- one frame is decoded, and to one message
    have honly : ∀ frame' ok' sn' id' payload',
        HandlerEvent.receive (τ := τ) frame ok = .receive frame' ok' →
        codec.decode frame' = .ok (.normal sn' id' payload') → sn' = sn := by
      rintro _ _ sn' id' payload' ⟨⟩ hdec'
      exact (TransportMsg.normal.inj (Except.ok.inj (hdec'.symm.trans hdec))).1
    have hqueue : ∀ sn' id', TransportMsg.ack sn' id' ∈ v'.ackQ → sn' ∈ sn :: l.arrived := by
      intro sn' id' hm
      rcases hmove.ackQ_cases hm with hm | ⟨frame', ok', sn₀, id₀, payload₀, he, hdec', heq⟩
      · exact List.mem_cons_of_mem _ (h.ackQ sn' id' hm)
      · obtain ⟨rfl, rfl⟩ := TransportMsg.ack.inj heq
        rw [honly frame' ok' sn' id' payload₀ he hdec']
        exact List.mem_cons_self ..
    have hin : ∀ frame' ok' sn' id' payload',
        HandlerEvent.receive (τ := τ) frame ok = .receive frame' ok' →
        codec.decode frame' = .ok (.normal sn' id' payload') → sn' ∈ sn :: l.arrived := by
      intro frame' ok' sn' id' payload' he hdec'
      rw [honly frame' ok' sn' id' payload' he hdec']
      exact List.mem_cons_self ..
    rcases v.filter.next_cases id sn with
      ⟨hpass, hid, hlast, -, hfresh⟩ | ⟨hstop, id', last, hid, hlast, hwhy⟩
    · -- fresh: handed on
      rw [h.last] at hfresh
      refine ⟨[.arrive sn payload], _,
        StateMachine.run_cons_eq_some.mpr ⟨_, step_arrive_fresh hoffered hfresh, rfl⟩,
        ⟨?_, ?_, hqueue⟩, ?_, rfl, rfl, rfl, List.subset_cons_self .., hin⟩
      · rw [hfilter, hlast]
      · intro id' hid'
        rw [hfilter, hid] at hid'
        exact (Option.some.inj hid').symm
      · rw [hhanded, if_pos hpass]
        rfl
    · -- filtered: not above the last number
      have hstale : ¬ l.Fresh sn := by
        intro hfresh
        have hlt : last < sn := hfresh last (h.last.symm.trans hlast)
        rcases hwhy with hne | hle
        · exact hne (h.identity id' hid)
        · exact absurd hlt (Nat.not_lt.mpr hle)
      refine ⟨[.arrive sn payload], _,
        StateMachine.run_cons_eq_some.mpr ⟨_, step_arrive_stale hoffered hstale, rfl⟩,
        ⟨?_, ?_, hqueue⟩, ?_, rfl, rfl, rfl, List.subset_cons_self .., hin⟩
      · rw [hfilter, hstop]
        exact h.last
      · rw [hfilter, hstop]
        exact h.identity
      · rw [hhanded, hstop, if_neg Bool.false_ne_true, List.filterMap_nil, List.append_nil]
  · -- any other event: the link stays where it is
    refine ⟨[], l, rfl, ⟨?_, ?_, ?_⟩, ?_, rfl, rfl, rfl, List.Subset.refl _, ?_⟩
    · rw [hfilter, h.last]
    · rw [hfilter]
      exact h.identity
    · intro sn id hm
      rcases hmove.ackQ_cases hm with hm | ⟨frame, ok, sn', id', payload, rfl, hdec, -⟩
      · exact h.ackQ sn id hm
      · exact absurd hdec (hnone frame ok sn' id' payload rfl)
    · rw [hhanded, List.filterMap_nil, List.append_nil]
    · intro frame ok sn id payload he hdec
      exact absurd hdec (hnone frame ok sn id payload he)

end Endpoint

/-! ## The two ends in their room -/

namespace Room

/-- The effects of `n`, oldest first. -/
def effectsOf (w : Room τ κ) (n : NodeId) : List (Effect τ κ) :=
  w.log.filterMap fun entry => if entry.1 = n then some entry.2 else none

/-- The payloads that `n` has sent, with their numbers, oldest first. -/
def sentBy (w : Room τ κ) (n : NodeId) : List (ℕ × τ) := (w.effectsOf n).filterMap Effect.asSent

/-- The payloads passed to the `message_handler` of `n`, with their numbers, oldest first. -/
def handedAt (w : Room τ κ) (n : NodeId) : List (ℕ × τ) :=
  (w.effectsOf n).filterMap Effect.asHanded

/-- The numbers of the calls of `send` at `n` that have returned `Ok`, oldest first. -/
def completedBy (w : Room τ κ) (n : NodeId) : List ℕ :=
  (w.effectsOf n).filterMap Effect.asCompleted

variable {codec : Codec τ κ} {a b : NodeId} {w w' : Room τ κ} {e : RoomEvent τ} {l : Link ℕ τ}
  {ep ep' : Endpoint τ κ} {he : HandlerEvent τ κ} {effects : List (Effect τ κ)}

theorem effectsOf_perform_self :
    (w.perform e ep' effects).effectsOf e.owner = w.effectsOf e.owner ++ effects := by
  simp [effectsOf, perform, List.filterMap_map]

theorem effectsOf_perform_ne {n : NodeId} (h : e.owner ≠ n) :
    (w.perform e ep' effects).effectsOf n = w.effectsOf n := by
  simp [effectsOf, perform, List.filterMap_map, h]

/-- The room of `a`, `b` and the link from `a` to `b`. -/
structure Linked (codec : Codec τ κ) (a b : NodeId) (w : Room τ κ) (l : Link ℕ τ) : Prop where
  /-- the sending end -/
  sender : ∃ ep, w.ends a = some ep ∧ Endpoint.Tidy codec a (ep.view codec) ∧
    Endpoint.Sends codec a (ep.view codec) l
  /-- the receiving end -/
  receiver : ∃ ep, w.ends b = some ep ∧ Endpoint.Tidy codec b (ep.view codec) ∧
    Endpoint.Receives a (ep.view codec) l
  /-- nobody else is there -/
  others : ∀ n, n ≠ a → n ≠ b → w.ends n = none
  /-- nobody else has put anything on the wire -/
  sources : ∀ p ∈ w.wire, p.src = a ∨ p.src = b
  /-- messages of `a` on the wire are offered items -/
  messages : ∀ p ∈ w.wire, p.src = a → ∀ sn id payload,
    codec.decode p.frame = .ok (.normal sn id payload) → id = a ∧ (sn, payload) ∈ l.offered
  /-- acknowledgements of `b` on the wire are of numbers that have arrived -/
  acks : ∀ p ∈ w.wire, p.src = b → ∀ sn id,
    codec.decode p.frame = .ok (.ack sn id) → sn ∈ l.arrived
  /-- what was offered -/
  offered : l.offered = w.sentBy a
  /-- what was handed on -/
  handed : l.handed = w.handedAt b
  /-- what was completed -/
  completed : l.completed = w.completedBy a

/-- No endpoint is created, and fewer than `2 ^ 32` payloads are sent by `a`. -/
def Steady (a : NodeId) (w : Room τ κ) (e : RoomEvent τ) : Prop :=
  (∀ n language, e ≠ .create n language) ∧
    ∀ payload ok, e = .send a payload ok → (w.sentBy a).length + 1 < 2 ^ 32

/-- A packet of the other end. -/
theorem Linked.src_of_receive (h : Linked codec a b w l) {frame : κ} {ok : Bool}
    (hhe : w.handlerEvent e = some (.receive frame ok)) :
    ∃ p ∈ w.wire, p.frame = frame ∧ (e.owner = a → p.src = b) ∧ (e.owner = b → p.src = a) := by
  obtain ⟨p, hp, hframe, hsrc, -⟩ := handlerEvent_receive hhe
  refine ⟨p, hp, hframe, ?_, ?_⟩
  · intro howner
    exact (h.sources p hp).resolve_left fun heq => hsrc (heq.trans howner.symm)
  · intro howner
    exact (h.sources p hp).resolve_right fun heq => hsrc (heq.trans howner.symm)

/-- A move of the sending end. -/
theorem Linked.move_sender (h : Linked codec a b w l) (hab : a ≠ b) (howner : e.owner = a)
    (hsteady : Steady a w e) (hep : w.ends e.owner = some ep) (hhe : w.handlerEvent e = some he)
    (hmove : Endpoint.Move codec (ep.view codec) he (ep'.view codec) effects) :
    ∃ ds l', (link ℕ τ).run l ds = some l' ∧ Linked codec a b (w.perform e ep' effects) l' := by
  subst howner
  obtain ⟨ep₀, hep₀, htidy, hsends⟩ := h.sender
  obtain rfl := Option.some.inj (hep.symm.trans hep₀)
  have hacks : ∀ frame ok sn id, he = .receive frame ok →
      codec.decode frame = .ok (.ack sn id) → sn ∈ l.arrived := by
    rintro frame ok sn id rfl hdec
    obtain ⟨p, hp, rfl, hsrc, -⟩ := h.src_of_receive hhe
    exact h.acks p hp (hsrc rfl) sn id hdec
  have hbound : ∀ payload ok, he = .send payload ok → l.offered.length + 1 < 2 ^ 32 := by
    rintro payload ok rfl
    rw [h.offered]
    exact hsteady.2 payload ok (handlerEvent_send hhe)
  obtain ⟨ds, l', hrun, hsends', hoffered, hcompleted, harrived, hlast, hhanded⟩ :=
    hsends.move hmove htidy.nodeId hacks hbound
  have hold : ∀ x ∈ l.offered, x ∈ l'.offered := by
    intro x hx
    rw [hoffered]
    exact List.mem_append_left _ hx
  refine ⟨ds, l', hrun, ?_⟩
  constructor
  · exact ⟨ep', ends_perform_self .., htidy.move hmove, hsends'⟩
  · obtain ⟨epb, hepb, htidyb, hreceives⟩ := h.receiver
    exact ⟨epb, (ends_perform_ne _ _ hab.symm).trans hepb, htidyb, hreceives.congr hlast harrived⟩
  · intro n hna hnb
    rw [ends_perform_ne _ _ hna]
    exact h.others n hna hnb
  · intro p hp
    rcases mem_wire_perform hp with hp | ⟨hsrc, -⟩
    · exact h.sources p hp
    · exact Or.inl hsrc
  · intro p hp hsrc sn id payload hdec
    rcases mem_wire_perform hp with hp | ⟨-, hmem⟩
    · obtain ⟨hid, hmem⟩ := h.messages p hp hsrc sn id payload hdec
      exact ⟨hid, hold _ hmem⟩
    rcases hmove.wire_cases hmem with
      ⟨-, ⟨payload', hsent, hencode⟩ | ⟨sn', hpending⟩⟩ | ⟨_, _, sn', _, _, id', -, -, -, hencode⟩ |
        ⟨m, hm, hencode, -⟩
    · -- the first transmission
      obtain ⟨rfl, rfl, rfl⟩ := TransportMsg.normal.inj (codec.faithful hencode hdec)
      refine ⟨htidy.nodeId, ?_⟩
      rw [hoffered]
      exact List.mem_append_right _ (List.mem_filterMap.mpr ⟨_, hsent, rfl⟩)
    · -- a later one
      obtain ⟨payload', hmem', hencode⟩ := hsends.pending sn' _ hpending
      obtain ⟨rfl, rfl, rfl⟩ := TransportMsg.normal.inj (codec.faithful hencode.symm hdec)
      exact ⟨rfl, hold _ hmem'⟩
    · -- an acknowledgement is never decoded as a message
      cases codec.faithful hencode hdec
    · obtain ⟨sn', id', rfl⟩ := htidy.ackQ m hm
      cases codec.faithful hencode hdec
  · intro p hp hsrc sn id hdec
    rw [harrived]
    rcases mem_wire_perform hp with hp | ⟨hsrc', -⟩
    · exact h.acks p hp hsrc sn id hdec
    · exact absurd (hsrc'.symm.trans hsrc) hab
  · rw [hoffered, h.offered, sentBy, sentBy, effectsOf_perform_self, List.filterMap_append]
  · rw [hhanded, h.handed, handedAt, handedAt, effectsOf_perform_ne hab]
  · rw [hcompleted, h.completed, completedBy, completedBy, effectsOf_perform_self,
      List.filterMap_append]

/-- A move of the receiving end. -/
theorem Linked.move_receiver (h : Linked codec a b w l) (hab : a ≠ b) (howner : e.owner = b)
    (hep : w.ends e.owner = some ep) (hhe : w.handlerEvent e = some he)
    (hmove : Endpoint.Move codec (ep.view codec) he (ep'.view codec) effects) :
    ∃ ds l', (link ℕ τ).run l ds = some l' ∧ Linked codec a b (w.perform e ep' effects) l' := by
  subst howner
  obtain ⟨ep₀, hep₀, htidy, hreceives⟩ := h.receiver
  obtain rfl := Option.some.inj (hep.symm.trans hep₀)
  have hmsgs : ∀ frame ok sn id payload, he = .receive frame ok →
      codec.decode frame = .ok (.normal sn id payload) → id = a ∧ (sn, payload) ∈ l.offered := by
    rintro frame ok sn id payload rfl hdec
    obtain ⟨p, hp, rfl, -, hsrc⟩ := h.src_of_receive hhe
    exact h.messages p hp (hsrc rfl) sn id payload hdec
  obtain ⟨ds, l', hrun, hreceives', hhanded, hoffered, hwaiting, hcompleted, harrived, hin⟩ :=
    hreceives.move hmove hmsgs
  refine ⟨ds, l', hrun, ?_⟩
  constructor
  · obtain ⟨epa, hepa, htidya, hsends⟩ := h.sender
    exact ⟨epa, (ends_perform_ne _ _ hab).trans hepa, htidya,
      hsends.mono hoffered hwaiting harrived⟩
  · exact ⟨ep', ends_perform_self .., htidy.move hmove, hreceives'⟩
  · intro n hna hnb
    rw [ends_perform_ne _ _ hnb]
    exact h.others n hna hnb
  · intro p hp
    rcases mem_wire_perform hp with hp | ⟨hsrc, -⟩
    · exact h.sources p hp
    · exact Or.inr hsrc
  · intro p hp hsrc sn id payload hdec
    rw [hoffered]
    rcases mem_wire_perform hp with hp | ⟨hsrc', -⟩
    · exact h.messages p hp hsrc sn id payload hdec
    · exact absurd (hsrc.symm.trans hsrc') hab
  · intro p hp hsrc sn id hdec
    rcases mem_wire_perform hp with hp | ⟨-, hmem⟩
    · exact harrived (h.acks p hp hsrc sn id hdec)
    rcases hmove.wire_cases hmem with
      ⟨-, ⟨payload', -, hencode⟩ | ⟨sn', hpending⟩⟩ |
        ⟨frame, ok, sn', id', payload, id'', rfl, hdec', -, hencode⟩ | ⟨m, hm, hencode, -⟩
    · -- a message is never decoded as an acknowledgement
      cases codec.faithful hencode hdec
    · obtain ⟨payload', hencode⟩ := htidy.pending sn' _ hpending
      cases codec.faithful hencode.symm hdec
    · -- acknowledged on the spot
      obtain ⟨rfl, -⟩ := TransportMsg.ack.inj (codec.faithful hencode hdec)
      exact hin frame ok sn id' payload rfl hdec'
    · -- acknowledged from the queue
      obtain ⟨sn', id', rfl⟩ := htidy.ackQ m hm
      obtain ⟨rfl, -⟩ := TransportMsg.ack.inj (codec.faithful hencode hdec)
      exact harrived (hreceives.ackQ sn id' hm)
  · rw [hoffered, h.offered, sentBy, sentBy, effectsOf_perform_ne hab.symm]
  · rw [hhanded, h.handed, handedAt, handedAt, effectsOf_perform_self, List.filterMap_append]
  · rw [hcompleted, h.completed, completedBy, completedBy, effectsOf_perform_ne hab.symm]

/-- Two new endpoints. -/
def pair (a b : NodeId) (la lb : Language) : Room τ κ := (empty.create a la).create b lb

theorem linked_pair (hab : a ≠ b) (la lb : Language) :
    Linked codec a b (pair a b la lb) (link ℕ τ).init where
  sender := by
    refine ⟨.new la a, (ends_create_ne lb hab).trans (ends_create_self a la), ?_, ?_⟩
    · cases la <;> exact ⟨rfl, nofun, nofun⟩
    · cases la <;> exact ⟨rfl, nofun, rfl, nofun, nofun⟩
  receiver := by
    refine ⟨.new lb b, ends_create_self b lb, ?_, ?_⟩
    · cases lb <;> exact ⟨rfl, nofun, nofun⟩
    · cases lb <;> exact ⟨rfl, nofun, nofun⟩
  others n hna hnb := (ends_create_ne lb hnb).trans (ends_create_ne la hna)
  sources p hp := by cases hp
  messages p hp := by cases hp
  acks p hp := by cases hp
  offered := rfl
  handed := rfl
  completed := rfl

/-- **Two handlers and their room are a stop-and-wait link**, step by step. -/
noncomputable def linkSimulation (codec : Codec τ κ) (hab : a ≠ b) (start : Room τ κ) :
    StateMachine.Simulation (machine codec start) (link ℕ τ) (Steady a) where
  R := Linked codec a b
  step {w e w' l} h hsteady hs := by
    rcases step_cases hs with ⟨n, language, rfl, -⟩ | ⟨ep, ep', he, effects, hep, hhe, hmove, rfl⟩
    · exact absurd rfl (hsteady.1 n language)
    by_cases ha : e.owner = a
    · exact h.move_sender hab ha hsteady hep hhe hmove
    by_cases hb : e.owner = b
    · exact h.move_receiver hab hb hep hhe hmove
    · exact absurd ((h.others _ ha hb).symm.trans hep) (by simp)

/-- The payloads passed to `send` at `n`, oldest first. -/
def sendCalls (n : NodeId) (es : List (RoomEvent τ)) : List τ :=
  es.filterMap fun
    | .send m payload _ => if m = n then some payload else none
    | _ => none

/-- What a step sends is what is passed to `send`, or nothing. -/
theorem sentBy_step {n : NodeId} (hs : step codec w e = some w') :
    w'.sentBy n = w.sentBy n ∨
      ∃ sn payload, w'.sentBy n = w.sentBy n ++ [(sn, payload)] ∧ sendCalls n [e] = [payload] := by
  rcases step_cases hs with ⟨m, language, rfl, -, rfl⟩ | ⟨ep, ep', he, effects, -, hhe, hmove, rfl⟩
  · exact Or.inl rfl
  by_cases hn : e.owner = n
  · subst hn
    rw [sentBy, effectsOf_perform_self, List.filterMap_append]
    rcases hmove.sender_cases with
      ⟨payload, ok, _, rfl, -, -, -, hsent, -⟩ | ⟨_, _, -, -, -, hsent, -⟩ | ⟨-, -, hsent, -⟩
    · refine Or.inr ⟨_, payload, by rw [hsent]; rfl, ?_⟩
      rw [handlerEvent_send hhe]
      simp [sendCalls, RoomEvent.owner]
    · exact Or.inl (by rw [hsent, List.append_nil]; rfl)
    · exact Or.inl (by rw [hsent, List.append_nil]; rfl)
  · exact Or.inl (by rw [sentBy, effectsOf_perform_ne hn]; rfl)

theorem sendCalls_append (n : NodeId) (es es' : List (RoomEvent τ)) :
    sendCalls n (es ++ es') = sendCalls n es ++ sendCalls n es' :=
  List.filterMap_append ..

/-- What has been sent was passed to `send`, in this order. -/
theorem sentBy_sublist {n : NodeId} {start : Room τ κ} {es : List (RoomEvent τ)}
    (hstart : start.sentBy n = []) (hrun : (machine codec start).run start es = some w) :
    ((w.sentBy n).map Prod.snd).Sublist (sendCalls n es) := by
  refine StateMachine.run_induction (M := machine codec start)
    (P := fun es w => ((w.sentBy n).map Prod.snd).Sublist (sendCalls n es)) ?_ ?_ hrun
  · rw [hstart]
    exact List.nil_sublist _
  · intro es w e w' _ ih hs
    rw [sendCalls_append]
    rcases sentBy_step (n := n) hs with hsame | ⟨sn, payload, hsent, hcalls⟩
    · rw [hsame]
      exact ih.trans (List.sublist_append_left ..)
    · rw [hsent, hcalls, List.map_append]
      exact ih.append (List.Sublist.refl _)

/-- With fewer than `2 ^ 32` calls of `send` in all, and no endpoint created, every step is
steady. -/
theorem along_steady {start : Room τ κ} {es : List (RoomEvent τ)} (hstart : start.sentBy a = [])
    (hcreate : ∀ e ∈ es, ∀ n language, e ≠ .create n language)
    (hcount : (sendCalls a es).length < 2 ^ 32) :
    (machine codec start).Along (Steady a) start es := by
  intro pre e post w hsplit hrun
  subst hsplit
  refine ⟨hcreate e (by simp), ?_⟩
  rintro payload ok rfl
  have hle : (w.sentBy a).length ≤ (sendCalls a pre).length := by
    simpa using (sentBy_sublist hstart hrun).length_le
  have hthis : sendCalls a (RoomEvent.send a payload ok :: post) = payload :: sendCalls a post := by
    simp [sendCalls]
  rw [sendCalls_append, hthis, List.length_append, List.length_cons] at hcount
  omega

/-- Reliable delivery from `a` to `b`, in a run `es` that ends in `w`. -/
structure Reliable (a b : NodeId) (es : List (RoomEvent τ)) (w : Room τ κ) : Prop where
  /-- payloads are sent in the order in which they are passed to `send` -/
  called : ((w.sentBy a).map Prod.snd).Sublist (sendCalls a es)
  /-- each under a number of its own -/
  numbered : (w.sentBy a).Pairwise fun p q => p.1 < q.1
  /-- they are handed on in the order in which they are sent, each at most once -/
  handed : (w.handedAt b).Sublist (w.sentBy a)
  /-- a completed one is handed on exactly once -/
  once : ∀ sn ∈ w.completedBy a, ∃ payload, (sn, payload) ∈ w.sentBy a ∧
    (w.handedAt b).filter (fun p => p.1 = sn) = [(sn, payload)]

/-- It is a matter of what has been called and done. -/
theorem Reliable.congr {es es' : List (RoomEvent τ)} (h : Reliable a b es w)
    (hlog : w'.log = w.log) (hcalls : sendCalls a es' = sendCalls a es) : Reliable a b es' w' := by
  have heffects : w'.effectsOf = w.effectsOf := by
    funext n
    rw [effectsOf, effectsOf, hlog]
  have hsent : w'.sentBy a = w.sentBy a := by rw [sentBy, sentBy, heffects]
  have hhanded : w'.handedAt b = w.handedAt b := by rw [handedAt, handedAt, heffects]
  have hcompleted : w'.completedBy a = w.completedBy a := by
    rw [completedBy, completedBy, heffects]
  refine ⟨?_, hsent ▸ h.numbered, ?_, ?_⟩
  · rw [hsent, hcalls]
    exact h.called
  · rw [hsent, hhanded]
    exact h.handed
  · rw [hsent, hhanded, hcompleted]
    exact h.once

/-- What the link promises, the handlers keep. -/
theorem Linked.reliable {start : Room τ κ} {es : List (RoomEvent τ)} (h : Linked codec a b w l)
    (hl : (link ℕ τ).Reachable l) (hstart : start.sentBy a = [])
    (hrun : (machine codec start).run start es = some w) : Reliable a b es w := by
  obtain ⟨hnumbered, hhanded, honce⟩ := reachable_reliable hl
  refine ⟨sentBy_sublist hstart hrun, ?_, ?_, ?_⟩
  · rw [← h.offered]
    exact hnumbered
  · rw [← h.offered, ← h.handed]
    exact hhanded
  · rw [← h.offered, ← h.handed, ← h.completed]
    exact honce

/-- A link goes along with two handlers. -/
theorem linked_of_run (codec : Codec τ κ) (hab : a ≠ b) (la lb : Language)
    {es : List (RoomEvent τ)} (hrun : (machine codec (pair a b la lb)).run (pair a b la lb) es =
      some w)
    (hsteady : (machine codec (pair a b la lb)).Along (Steady a) (pair a b la lb) es) :
    ∃ l, Linked codec a b w l ∧ (link ℕ τ).Reachable l := by
  obtain ⟨ds, l, hlink, hlinked⟩ :=
    (linkSimulation codec hab (pair a b la lb)).run (linked_pair hab la lb) hsteady hrun
  exact ⟨l, hlinked, ds, hlink⟩

/-- **Reliable delivery**, in either language at either end, whatever the room does to the
frames: it is the reliability of the link that simulates the two handlers. -/
theorem reliable_delivery (codec : Codec τ κ) (hab : a ≠ b) (la lb : Language)
    {es : List (RoomEvent τ)} (hrun : (machine codec (pair a b la lb)).run (pair a b la lb) es =
      some w)
    (hcreate : ∀ e ∈ es, ∀ n language, e ≠ .create n language)
    (hcount : (sendCalls a es).length < 2 ^ 32) : Reliable a b es w := by
  have hsteady : (machine codec (pair a b la lb)).Along (Steady a) (pair a b la lb) es :=
    along_steady rfl hcreate hcount
  obtain ⟨l, hlinked, hl⟩ := linked_of_run codec hab la lb hrun hsteady
  exact hlinked.reliable hl rfl hrun

/-- A message that is sent twice, received twice and acknowledged twice. -/
def retried : List (RoomEvent Unit) :=
  [.send "a" () true, .transmit "a" true, .transmit "a" true, .deliver "b" 1 true,
    .deliver "b" 0 true, .deliver "a" 3 true, .recvAck "a", .deliver "a" 2 true]

theorem reliable_delivery_retried : ∃ w,
    (machine (.identity Unit) (pair "a" "b" .rust .typeScript)).run
      (pair "a" "b" .rust .typeScript) retried = some w ∧
    w.completedBy "a" = [0] ∧ Reliable "a" "b" retried w := by
  let w := ((machine (.identity Unit) (pair "a" "b" .rust .typeScript)).run
    (pair "a" "b" .rust .typeScript) retried).get rfl
  have hrun : _ = some w := (Option.some_get _).symm
  refine ⟨w, hrun, rfl, ?_⟩
  exact reliable_delivery (.identity Unit) (by decide) .rust .typeScript hrun
    (by simp [retried]) (by simp [retried, sendCalls])

end Room

end Vamp
