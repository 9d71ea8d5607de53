import Vamp.Acknowledgements
import Vamp.TransportRoom

/-!
# Where an acknowledgement comes from

A `send` that returns `Ok` has seen an acknowledgement with its number. Whose message that
acknowledgement answers, it does not know: an acknowledgement carries an identity, and the
pending `send` looks at the number only (and the two languages do not agree on whose
identity it is).

Every acknowledgement answers a message that its source has received; this much holds in
every run (`Traced`). So what `send` returns `Ok` for was received by a peer, provided that
the endpoint has been shown an acknowledgement of its own message. A late acknowledgement
for an earlier incarnation, whose numbers are the same, will do as well for the code.
-/

namespace Vamp

variable {τ κ : Type}

namespace Room

/-- `m` has received the message `k` of `n`. -/
def Arrived (codec : Codec τ κ) (w : Room τ κ) (m n : NodeId) (k : ℕ) : Prop :=
  ∃ p ∈ w.received m, ∃ payload, codec.decode p.frame = .ok (.normal k n payload)

/-- Whatever `send` returns `Ok` for in this step, some peer has received before. -/
def ReturnsReceived (codec : Codec τ κ) (w : Room τ κ) (e : RoomEvent τ) : Prop :=
  ∀ w' n k, step codec w e = some w' → (n, .returned k (.ok ())) ∈ w'.news w →
    ∃ m, m ≠ n ∧ w.Arrived codec m n k

/-- The event shows the pending `send` an acknowledgement of the number `k`: in TypeScript
when it comes in, in Rust when it is taken from the queue. -/
def ShowsAck (codec : Codec τ κ) (w : Room τ κ) (e : RoomEvent τ) (v : Endpoint.View τ κ)
    (k : ℕ) : Prop :=
  (v.language = .typeScript ∧
    ∃ p ∈ w.delivered e, ∃ id, codec.decode p.frame = .ok (.ack k id)) ∨
  e = .recvAck e.owner ∧ ∃ id rest, v.incomingAck = .ack k id :: rest

/-- When the pending `send` is shown an acknowledgement of its number, the endpoint has
received one that answers its own message. -/
def OwnAck (codec : Codec τ κ) (w : Room τ κ) (e : RoomEvent τ) : Prop :=
  ∀ ep k res, w.ends e.owner = some ep → (ep.view codec).pending = some (k, res) →
    w.ShowsAck codec e (ep.view codec) k →
    ∃ p ∈ w.received e.owner ++ (w.delivered e).toList, ∃ id,
      codec.decode p.frame = .ok (.ack k id) ∧ p.answers = some e.owner

/-- Acknowledgements are traced to the messages they answer. -/
structure Traced (codec : Codec τ κ) (w : Room τ κ) : Prop where
  /-- an acknowledgement on the wire: its source has received the message -/
  wire : ∀ p ∈ w.wire, ∀ k id n, codec.decode p.frame = .ok (.ack k id) → p.answers = some n →
    w.Arrived codec p.src n k
  /-- an acknowledgement to be sent: likewise -/
  ackQ : ∀ m ep, w.ends m = some ep → ∀ q ∈ (ep.view codec).ackQ,
    ∃ k n, q = .ack k n ∧ w.Arrived codec m n k
  /-- what has been received was on the wire, from somebody else -/
  received : ∀ n, ∀ p ∈ w.received n, p ∈ w.wire ∧ p.src ≠ n

variable {codec : Codec τ κ} {w w' : Room τ κ} {e : RoomEvent τ} {ep ep' : Endpoint τ κ}
  {he : HandlerEvent τ κ} {effects : List (Effect τ κ)}

theorem traced_empty : Traced codec (empty : Room τ κ) where
  wire p hp := by cases hp
  ackQ m ep h := by cases h
  received n p hp := by cases hp

/-- What has been received stays so. -/
theorem mem_received_perform {n : NodeId} {p : Packet κ} (h : p ∈ w.received n) :
    p ∈ (w.perform e ep' effects).received n := by
  by_cases hn : n = e.owner
  · subst hn
    rw [received_perform_self]
    exact List.mem_append_left _ h
  · rw [received_perform_ne ep' effects hn]
    exact h

/-- An endpoint receives nothing by the events of others. -/
theorem received_of_run {es : List (RoomEvent τ)} {m : NodeId}
    (hrun : (machine codec w).run w es = some w') (hothers : ∀ e ∈ es, e.owner ≠ m) :
    w'.received m = w.received m := by
  refine StateMachine.run_induction (M := machine codec w)
    (P := fun es w' => (∀ e ∈ es, e.owner ≠ m) → w'.received m = w.received m)
    (fun _ => rfl) ?_ hrun hothers
  intro es w₁ e w₂ _ ih hs hothers
  rw [← ih fun e he => hothers e (List.mem_append_left _ he)]
  rcases step_cases hs with ⟨n, language, rfl, -, rfl⟩ | ⟨ep, ep', he, effects, -, -, -, rfl⟩
  · rfl
  · exact received_perform_ne ep' effects
      (hothers e (List.mem_append_right _ (List.mem_singleton_self e))).symm

theorem Arrived.perform {m n : NodeId} {k : ℕ} (h : w.Arrived codec m n k) :
    (w.perform e ep' effects).Arrived codec m n k := by
  obtain ⟨p, hp, payload, hdec⟩ := h
  exact ⟨p, mem_received_perform hp, payload, hdec⟩

/-- The message that comes in has arrived. -/
theorem arrived_of_receive {frame : κ} {ok : Bool} {k : ℕ} {n : NodeId} {payload : τ}
    (hhe : w.handlerEvent e = some (.receive frame ok))
    (hdec : codec.decode frame = .ok (.normal k n payload)) :
    (w.perform e ep' effects).Arrived codec e.owner n k := by
  obtain ⟨p, -, rfl, -, hdel⟩ := handlerEvent_receive hhe
  refine ⟨p, ?_, payload, hdec⟩
  rw [received_perform_self, hdel]
  exact List.mem_append_right _ (List.mem_singleton_self p)

/-- **An acknowledgement put on the wire is traced**: it answers the message that has just
come in, or comes from the queue. -/
theorem Traced.wire_of_move (h : Traced codec w) (hep : w.ends e.owner = some ep)
    (hhe : w.handlerEvent e = some he)
    (hmove : Endpoint.Move codec (ep.view codec) he (ep'.view codec) effects) {frame : κ}
    {k : ℕ} {id n : NodeId} (hmem : .wire frame (some n) ∈ effects)
    (hdec : codec.decode frame = .ok (.ack k id)) :
    (w.perform e ep' effects).Arrived codec e.owner n k := by
  rcases hmove.wire_cases hmem with
    ⟨hnone, -⟩ | ⟨frame₀, ok, sn, nodeId, payload, id', rfl, hdec₀, hanswers, hencode⟩ |
      ⟨q, hq, hencode, hanswers⟩
  · cases hnone
  · obtain ⟨rfl, -⟩ := TransportMsg.ack.inj (codec.faithful hencode hdec)
    obtain rfl := Option.some.inj hanswers
    exact arrived_of_receive hhe hdec₀
  · obtain ⟨k', n', rfl, harrived⟩ := h.ackQ e.owner ep hep q hq
    obtain ⟨rfl, -⟩ := TransportMsg.ack.inj (codec.faithful hencode hdec)
    obtain rfl := Option.some.inj (hanswers k n' rfl)
    exact harrived.perform

/-- A new endpoint has no acknowledgements to send. -/
theorem view_new_ackQ (language : Language) (n : NodeId) :
    ((Endpoint.new language n : Endpoint τ κ).view codec).ackQ = [] := by
  cases language with
  | rust => rfl
  | typeScript => rfl

/-- Every step keeps acknowledgements traced. -/
theorem Traced.step (h : Traced codec w) (hs : step codec w e = some w') : Traced codec w' := by
  rcases step_cases hs with
    ⟨n, language, rfl, -, rfl⟩ | ⟨ep, ep', he, effects, hep, hhe, hmove, rfl⟩
  · -- a new endpoint
    refine { wire := h.wire, ackQ := ?_, received := h.received }
    intro m ep hm q hq
    by_cases hmn : m = n
    · subst hmn
      obtain rfl := Option.some.inj ((ends_create_self ..).symm.trans hm)
      rw [view_new_ackQ] at hq
      cases hq
    · rw [ends_create_ne language hmn] at hm
      exact h.ackQ m ep hm q hq
  · -- the wire grows, and the moved endpoint is the only one that changes
    constructor
    · intro p hp k id n hdec hanswers
      rcases mem_wire_perform hp with hp | ⟨hsrc, hmem⟩
      · exact (h.wire p hp k id n hdec hanswers).perform
      · rw [hanswers] at hmem
        rw [hsrc]
        exact h.wire_of_move hep hhe hmove hmem hdec
    · intro m ep₁ hm q hq
      by_cases hmn : m = e.owner
      · subst hmn
        obtain rfl := Option.some.inj ((ends_perform_self ..).symm.trans hm)
        rcases hmove.ackQ_cases hq with hq | ⟨frame, ok, sn, nodeId, payload, rfl, hdec, rfl⟩
        · obtain ⟨k, n, rfl, harrived⟩ := h.ackQ e.owner ep hep q hq
          exact ⟨k, n, rfl, harrived.perform⟩
        · exact ⟨sn, nodeId, rfl, arrived_of_receive hhe hdec⟩
      · rw [ends_perform_ne _ _ hmn] at hm
        obtain ⟨k, n, rfl, harrived⟩ := h.ackQ m ep₁ hm q hq
        exact ⟨k, n, rfl, harrived.perform⟩
    · intro n p hp
      have hold : p ∈ w.received n → p ∈ (w.perform e ep' effects).wire ∧ p.src ≠ n := by
        intro hp
        obtain ⟨hwire, hsrc⟩ := h.received n p hp
        exact ⟨List.mem_append_left _ hwire, hsrc⟩
      by_cases hn : n = e.owner
      · subst hn
        rw [received_perform_self] at hp
        rcases List.mem_append.mp hp with hp | hp
        · exact hold hp
        · obtain ⟨hwire, hsrc⟩ := delivered_other hhe (Option.mem_toList.mp hp)
          exact ⟨List.mem_append_left _ hwire, hsrc⟩
      · rw [received_perform_ne _ _ hn] at hp
        exact hold hp

/-- Acknowledgements are traced in every state that can be reached. -/
theorem reachable_traced (h : (machine codec empty).Reachable w) : Traced codec w :=
  StateMachine.invariant traced_empty (fun _ _ _ _ hT hs => hT.step hs) h

/-- A `send` that returns `Ok` was shown an acknowledgement of its number. -/
theorem showsAck_of_returned {k : ℕ} (hhe : w.handlerEvent e = some he)
    (hmove : Endpoint.Move codec (ep.view codec) he (ep'.view codec) effects)
    (hmem : .returned k (.ok ()) ∈ effects) :
    ∃ res, (ep.view codec).pending = some (k, res) ∧ w.ShowsAck codec e (ep.view codec) k := by
  rcases hmove.returned_cases hmem with
    ⟨res, hpending, ⟨hts, frame, ok, id, rfl, hdec⟩ | ⟨rfl, id, rest, hq⟩⟩
  · obtain ⟨p, -, rfl, -, hdel⟩ := handlerEvent_receive hhe
    exact ⟨res, hpending, Or.inl ⟨hts, p, hdel, id, hdec⟩⟩
  · exact ⟨res, hpending, Or.inr ⟨handlerEvent_recvAck hhe, id, rest, hq⟩⟩

/-- One step: with acknowledgements traced, the endpoint's own acknowledgement shows that
its message was received. -/
theorem Traced.returnsReceived (h : Traced codec w) (hown : w.OwnAck codec e) :
    w.ReturnsReceived codec e := by
  intro w' n k hs hmem
  rcases step_cases hs with
    ⟨n', language, rfl, -, rfl⟩ | ⟨ep, ep', he, effects, hep, hhe, hmove, rfl⟩
  · rw [news_create] at hmem
    cases hmem
  rw [news_perform] at hmem
  obtain ⟨eff, heff, heq⟩ := List.mem_map.mp hmem
  obtain ⟨rfl, rfl⟩ := Prod.mk.inj heq
  obtain ⟨res, hpending, hshows⟩ := showsAck_of_returned hhe hmove heff
  obtain ⟨p, hp, id, hdec, hanswers⟩ := hown ep k res hep hpending hshows
  obtain ⟨hwire, hsrc⟩ : p ∈ w.wire ∧ p.src ≠ e.owner := by
    rcases List.mem_append.mp hp with hp | hp
    · exact h.received e.owner p hp
    · exact delivered_other hhe (Option.mem_toList.mp hp)
  exact ⟨p.src, hsrc, h.wire p hwire k id e.owner hdec hanswers⟩

/-- **A successful `send` was received**, along every run in which a pending `send` is
shown an acknowledgement of its number only when its endpoint has received one that
answers its own message. -/
theorem returns_received (codec : Codec τ κ) (es : List (RoomEvent τ))
    (h : (machine codec empty).Along (OwnAck codec) empty es) :
    (machine codec empty).Along (ReturnsReceived codec) empty es := by
  intro pre e post w hsplit hrun
  have htraced : Traced codec w := reachable_traced ⟨pre, hrun⟩
  exact htraced.returnsReceived (h pre e post w hsplit hrun)

/-- Nothing is delivered or taken from a queue. -/
theorem OwnAck.of_quiet (hdel : w.delivered e = none) (hrecv : e ≠ .recvAck e.owner) :
    w.OwnAck codec e := by
  rintro ep k res - - (⟨-, p, hp, -⟩ | ⟨h, -⟩)
  · exact absurd (hdel.symm.trans hp) (by simp)
  · exact absurd h hrecv

/-- The owner does not wait for anything. -/
theorem OwnAck.of_idle (hep : w.ends e.owner = some ep) (hidle : (ep.view codec).pending = none) :
    w.OwnAck codec e := by
  intro ep₁ k res hep₁ hpending
  obtain rfl := Option.some.inj (hep.symm.trans hep₁)
  exact absurd (hidle.symm.trans hpending) (by simp)

/-- The owner has its acknowledgement, or is being delivered it. -/
theorem OwnAck.of_mem {k : ℕ} {res : MyRes κ} {p : Packet κ} {id : NodeId}
    (hep : w.ends e.owner = some ep) (hpending : (ep.view codec).pending = some (k, res))
    (hp : p ∈ w.received e.owner ++ (w.delivered e).toList)
    (hdec : codec.decode p.frame = .ok (.ack k id)) (hanswers : p.answers = some e.owner) :
    w.OwnAck codec e := by
  intro ep₁ k₁ res₁ hep₁ hpending₁ _
  obtain rfl := Option.some.inj (hep.symm.trans hep₁)
  obtain ⟨rfl, -⟩ := Prod.mk.inj (Option.some.inj (hpending.symm.trans hpending₁))
  exact ⟨p, hp, id, hdec, hanswers⟩

/-- A message goes out, and its acknowledgement comes back. -/
def roundTrip : List (RoomEvent Unit) :=
  [.create "self" .rust, .create "peer" .typeScript, .send "self" () true, .transmit "self" true,
    .deliver "peer" 0 true, .deliver "self" 1 true, .recvAck "self"]

theorem returns_received_roundTrip :
    (machine (.identity Unit) empty).Along (OwnAck (.identity Unit)) empty roundTrip ∧
      (machine (.identity Unit) empty).Along (ReturnsReceived (.identity Unit)) empty
        roundTrip := by
  let M := machine (.identity Unit) empty
  have hown : M.Along (OwnAck (.identity Unit)) empty roundTrip := by
    refine .cons (.of_quiet rfl nofun) rfl ?_
    refine .cons (.of_quiet rfl nofun) rfl ?_
    refine .cons (.of_quiet rfl nofun) rfl ?_
    refine .cons (.of_quiet rfl nofun) rfl ?_
    refine .cons (.of_idle rfl rfl) rfl ?_
    refine .cons (.of_mem (p := ⟨"peer", .ack 0 "peer", some "self"⟩) rfl rfl ?_ rfl rfl) rfl ?_
    · exact List.mem_singleton_self _
    refine .cons (.of_mem (p := ⟨"peer", .ack 0 "peer", some "self"⟩) rfl rfl ?_ rfl rfl) rfl ?_
    · exact List.mem_singleton_self _
    exact .nil
  exact ⟨hown, returns_received (.identity Unit) roundTrip hown⟩

/-- An endpoint is acknowledged, its successor sends a message that is lost. -/
def beforeStaleAck : List (RoomEvent Unit) :=
  [.create "old" .rust, .create "peer" .typeScript, .send "old" () true, .transmit "old" true,
    .deliver "peer" 0 true, .create "new" .rust, .send "new" () true, .transmit "new" true,
    .deliver "new" 1 true]

/-- The acknowledgement for the old endpoint satisfies the new one: its `send` returns
`Ok` for a message that nobody has received. -/
theorem staleAck_taken :
    ¬ ∀ (codec : Codec Unit (TransportMsg Unit)) (es : List (RoomEvent Unit)),
      (machine codec empty).Along (ReturnsReceived codec) empty es := by
  intro hall
  let M := machine (.identity Unit) empty
  let w := (M.run empty beforeStaleAck).get rfl
  have hrun : M.run empty beforeStaleAck = some w := (Option.some_get _).symm
  have hstep : ReturnsReceived (.identity Unit) w (.recvAck "new") :=
    (hall (.identity Unit) (beforeStaleAck ++ [.recvAck "new"])).last hrun
  let w' := (step (.identity Unit) w (.recvAck "new")).get rfl
  obtain ⟨m, hm, p, hp, payload, hdec⟩ :=
    hstep w' "new" 0 (Option.some_get _).symm (List.mem_singleton_self _)
  have hreceived : ∀ q ∈ w.received m, q = ⟨"old", .normal 0 "old" (), none⟩ := by
    intro q hq
    by_cases hpeer : m = "peer"
    · subst hpeer
      exact List.mem_singleton.mp hq
    by_cases hold : m = "old"
    · subst hold
      cases hq
    rw [received_of_run hrun (by simp [beforeStaleAck, RoomEvent.owner, Ne.symm hm, Ne.symm hpeer,
      Ne.symm hold])] at hq
    cases hq
  rw [hreceived p hp] at hdec
  exact absurd (TransportMsg.normal.inj (Except.ok.inj hdec)).2.1 (by decide)

end Room

end Vamp
