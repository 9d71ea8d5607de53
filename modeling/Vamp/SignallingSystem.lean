import Vamp.ReliableDelivery
import Vamp.SignalDelivery

/-!
# Peers and their server

The transport handlers of the peers of a room, and the signalling server between them. A frame
that a peer puts on the wire may be received by the server on any of the peer's connections, at
any later time, or never; so may the registration. Then the tasks of the server go their way, and
whatever they have placed in the queue of a connection may arrive at the peer that it belongs to.

As long as no peer is sent what it has written itself, which takes two connections of one peer in
the room, this is one of the ways in which a `Room` may go (`room_of_run`), and what has been
proved of every room holds of the peers: they signal reliably (`signalling_reliable`). A peer that
has been sent what it has written is deaf for the others (`deaf_after_echo`).
-/

namespace Vamp

/-- The peers of a room, and the server between them. -/
structure SignallingSystem : Type where
  /-- the handlers of the peers, by identity -/
  ends : NodeId → Option (Endpoint SignalMsg Message)
  /-- everything that the peers have put on the wire, oldest first -/
  wire : List (Packet Message)
  /-- the effects of all handlers, oldest first -/
  log : List (NodeId × Effect SignalMsg Message)
  /-- the server -/
  server : Server
  /-- everything that was ever placed in the queue of a connection, oldest first -/
  placed : List Server.Placement

namespace SignallingSystem

/-- What can happen. -/
inductive Event : Type where
  /-- a peer is created, under a fresh identity -/
  | create (n : NodeId) (language : Language) : Event
  /-- a handler does something on its own, or is told to -/
  | call (n : NodeId) (e : HandlerEvent SignalMsg Message) : Event
  /-- a task of the server takes a step -/
  | serve (e : ServerEvent) : Event
  /-- what has been placed at a position arrives at a peer -/
  | arrive (n : NodeId) (i : ℕ) (ok : Bool) : Event

/-- The peers of a room, and a server without connections. -/
def of (w : Room SignalMsg Message) : SignallingSystem := ⟨w.ends, w.wire, w.log, .init, []⟩

/-- The room of the peers, but for who has received what. -/
def room (s : SignallingSystem) : Room SignalMsg Message := ⟨s.ends, s.wire, fun _ => [], s.log⟩

/-- A handler has moved. -/
def perform (s : SignallingSystem) (n : NodeId) (ep : Endpoint SignalMsg Message)
    (effects : List (Effect SignalMsg Message)) : SignallingSystem :=
  { s with
    ends := Function.update s.ends n (some ep)
    wire := s.wire ++ effects.filterMap (Effect.packet n)
    log := s.log ++ effects.map fun eff => (n, eff) }

/-- A handler moves. -/
def handle (codec : Codec SignalMsg Message) (s : SignallingSystem) (n : NodeId)
    (e : HandlerEvent SignalMsg Message) : Option SignallingSystem := do
  let ep ← s.ends n
  let (ep', effects) ← ep.step codec e
  return s.perform n ep' effects

/-- What comes to the server: the registration of a peer, or what the peer has put on the wire. -/
def brings (tag : RoutingTag) (owner : ConnectionId → NodeId) (s : SignallingSystem) :
    ServerEvent → Bool
  | .task c (.receive _ message) =>
    message = toWireMsg tag none ∨ ∃ p ∈ s.wire, p.src = owner c ∧ p.frame = message
  | _ => true

/-- One step. -/
def step (cfg : ServerConfig) (text : JsonText) (tag : RoutingTag) (owner : ConnectionId → NodeId)
    (s : SignallingSystem) : Event → Option SignallingSystem
  | .create n language =>
    if (s.ends n).isNone then
      some { s with ends := Function.update s.ends n (some (.new language n)) }
    else none
  | .call _ (.receive _ _) => none
  | .call n e => s.handle (signallingCodec text tag) n e
  | .serve e =>
    if s.brings tag owner e then
      (s.server.step cfg (serverReads text) e).map fun server =>
        { s with server := server, placed := s.placed ++ (s.server.placement cfg e).toList }
    else none
  | .arrive n i ok =>
    match s.placed[i]? with
    | some p =>
      if owner p.dst = n then
        s.handle (signallingCodec text tag) n (.receive p.message ok)
      else none
    | none => none

/-- The peers of a room and their server, each connection belonging to a peer. -/
def system (cfg : ServerConfig) (text : JsonText) (tag : RoutingTag)
    (owner : ConnectionId → NodeId) (start : Room SignalMsg Message) :
    StateMachine SignallingSystem Event where
  init := of start
  step := step cfg text tag owner

/-- What an event means in the room. -/
def Event.inRoom? : Event → Option (RoomEvent SignalMsg)
  | .create n language => some (.create n language)
  | .call n (.send payload ok) => some (.send n payload ok)
  | .call n (.transmit ok) => some (.transmit n ok)
  | .call n .ackTask => some (.ackTask n)
  | .call n .recvAck => some (.recvAck n)
  | .call n (.abort reason) => some (.abort n reason)
  | .call n .stop => some (.stop n)
  | _ => none

/-- A frame is delivered. -/
def isDelivery : RoomEvent SignalMsg → Bool
  | .deliver _ _ _ => true
  | _ => false

/-- The room as the peers know it. -/
structure InRoom (s : SignallingSystem) (w : Room SignalMsg Message) : Prop where
  ends : w.ends = s.ends
  wire : w.wire = s.wire
  log : w.log = s.log

/-- No peer has been sent what it has written. -/
def NoEcho (owner : ConnectionId → NodeId) (s : SignallingSystem) : Prop :=
  ∀ p ∈ s.placed, owner p.src ≠ owner p.dst

/-- The server has run, and what it has accepted was brought to it. -/
structure Served (cfg : ServerConfig) (text : JsonText) (tag : RoutingTag)
    (owner : ConnectionId → NodeId) (s : SignallingSystem) (es : List ServerEvent) : Prop where
  /-- a run of the server -/
  run : (signallingServer cfg (serverReads text)).run .init es = some s.server
  /-- what it has placed -/
  placed : Server.placements cfg (serverReads text) es = s.placed
  /-- what it has accepted -/
  accepted : ∀ c, ∀ message ∈ Server.acceptedFrom cfg (serverReads text) es c,
    message = toWireMsg tag none ∨ ∃ q ∈ s.wire, q.src = owner c ∧ q.frame = message

variable {cfg : ServerConfig} {text : JsonText} {tag : RoutingTag} {owner : ConnectionId → NodeId}
  {s s' : SignallingSystem} {w : Room SignalMsg Message} {n : NodeId}
  {he : HandlerEvent SignalMsg Message}

theorem handle_eq_some {codec : Codec SignalMsg Message} (h : s.handle codec n he = some s') :
    ∃ ep ep' effects, s.ends n = some ep ∧ ep.step codec he = some (ep', effects) ∧
      s' = s.perform n ep' effects := by
  simp only [handle, Option.bind_eq_bind, Option.bind_eq_some_iff, Option.pure_def,
    Option.some.injEq] at h
  obtain ⟨ep, hep, ⟨ep', effects⟩, hstep, rfl⟩ := h
  exact ⟨ep, ep', effects, hep, hstep, rfl⟩

/-- **What a step can do**: create a peer, let one act, let the server act, or bring a frame. -/
theorem step_cases {e : Event} (h : step cfg text tag owner s e = some s') :
    (∃ n language, e = .create n language ∧ s.ends n = none ∧
      s' = { s with ends := Function.update s.ends n (some (.new language n)) }) ∨
    (∃ n he ep ep' effects, e = .call n he ∧ (∀ frame ok, he ≠ .receive frame ok) ∧
      s.ends n = some ep ∧ ep.step (signallingCodec text tag) he = some (ep', effects) ∧
      s' = s.perform n ep' effects) ∨
    (∃ e' server, e = .serve e' ∧ s.brings tag owner e' = true ∧
      s.server.step cfg (serverReads text) e' = some server ∧
      s' = { s with server := server, placed := s.placed ++ (s.server.placement cfg e').toList }) ∨
    ∃ n i ok p ep ep' effects, e = .arrive n i ok ∧ s.placed[i]? = some p ∧ owner p.dst = n ∧
      s.ends n = some ep ∧
      ep.step (signallingCodec text tag) (.receive p.message ok) = some (ep', effects) ∧
      s' = s.perform n ep' effects := by
  cases e with
  | create n language =>
    obtain ⟨hnone, heq⟩ := Option.ite_none_right_eq_some.mp h
    exact Or.inl ⟨n, language, rfl, Option.isNone_iff_eq_none.mp hnone,
      (Option.some.inj heq).symm⟩
  | call n he =>
    have hne : ∀ frame ok, he ≠ .receive frame ok := by
      rintro frame ok rfl
      cases h
    have hhandle : s.handle (signallingCodec text tag) n he = some s' := by
      cases he with
      | receive frame ok => cases h
      | _ => exact h
    obtain ⟨ep, ep', effects, hep, hstep, rfl⟩ := handle_eq_some hhandle
    exact Or.inr (Or.inl ⟨n, he, ep, ep', effects, rfl, hne, hep, hstep, rfl⟩)
  | serve e =>
    obtain ⟨hbrings, heq⟩ := Option.ite_none_right_eq_some.mp h
    obtain ⟨server, hserver, rfl⟩ := Option.map_eq_some_iff.mp heq
    exact Or.inr (Or.inr (Or.inl ⟨e, server, rfl, hbrings, hserver, rfl⟩))
  | arrive n i ok =>
    cases hp : s.placed[i]? with
    | none => simp [step, hp] at h
    | some p =>
      simp only [step, hp, Option.ite_none_right_eq_some] at h
      obtain ⟨hdst, hhandle⟩ := h
      obtain ⟨ep, ep', effects, hep, hstep, rfl⟩ := handle_eq_some hhandle
      exact Or.inr (Or.inr (Or.inr
        ⟨n, i, ok, p, ep, ep', effects, rfl, hp, hdst, hep, hstep, rfl⟩))

/-! ## The server -/

/-- A message is accepted when it is received. -/
theorem receive_of_acceptance {fromStr : String → Option (WireMsg Json)} {server : Server}
    {e : ServerEvent} {c : ConnectionId} {message : Message}
    (h : server.acceptance fromStr e = some (c, message)) :
    ∃ now, e = .task c (.receive now message) := by
  obtain ⟨k, hk⟩ := Server.acceptance_isSome_conn h
  cases e with
  | task d e =>
    obtain rfl : d = c := Option.some.inj (Server.acceptance_owner h)
    cases e with
    | receive now m =>
      by_cases hawait : k.listen = .awaiting
      · simp only [Server.acceptance, hk, if_pos hawait] at h
        rcases Connection.receive_cases fromStr k server.metrics now m with
          ⟨parsed, hl, -⟩ | ⟨hl | hl, -⟩
        · rw [hl] at h
          obtain ⟨-, rfl⟩ := Prod.mk.inj (Option.some.inj h)
          exact ⟨now, rfl⟩
        · rw [hl, hawait] at h
          cases h
        · rw [hl] at h
          cases h
      · simp only [Server.acceptance, hk, if_neg hawait] at h
        cases h
    | _ => cases h
  | _ => cases h

section Served

variable {es : List ServerEvent}

theorem served_of (w : Room SignalMsg Message) : Served cfg text tag owner (of w) [] where
  run := rfl
  placed := rfl
  accepted c message hmem := by cases hmem

/-- The peers go on. -/
theorem Served.perform (h : Served cfg text tag owner s es) (n : NodeId)
    (ep : Endpoint SignalMsg Message) (effects : List (Effect SignalMsg Message)) :
    Served cfg text tag owner (s.perform n ep effects) es where
  run := h.run
  placed := h.placed
  accepted c message hmem := by
    refine (h.accepted c message hmem).imp_right ?_
    rintro ⟨q, hq, hbrought⟩
    exact ⟨q, List.mem_append_left _ hq, hbrought⟩

/-- The server goes on. -/
theorem Served.serve (h : Served cfg text tag owner s es) {e : ServerEvent} {server : Server}
    (hbrings : s.brings tag owner e = true)
    (hstep : s.server.step cfg (serverReads text) e = some server) :
    Served cfg text tag owner
      { s with server := server, placed := s.placed ++ (s.server.placement cfg e).toList }
      (es ++ [e]) where
  run := StateMachine.run_concat_eq_some.mpr ⟨_, h.run, hstep⟩
  placed := by rw [Server.placements_concat h.run hstep, h.placed]
  accepted c message hmem := by
    rw [Server.acceptedFrom_concat h.run hstep, List.mem_append] at hmem
    rcases hmem with hmem | hmem
    · exact h.accepted c message hmem
    · -- what is accepted now has been brought
      obtain ⟨p, hp, rfl⟩ := List.mem_map.mp hmem
      obtain ⟨hacc, hsrc⟩ := Option.filter_eq_some_iff.mp (Option.mem_toList.mp hp)
      obtain rfl : p.1 = c := of_decide_eq_true hsrc
      obtain ⟨now, rfl⟩ := receive_of_acceptance hacc
      exact of_decide_eq_true hbrings

/-- **What is placed** has been put on the wire by the peer that it comes from. -/
theorem Served.brought (h : Served cfg text tag owner s es) {p : Server.Placement}
    (hp : p ∈ s.placed) : ∃ q ∈ s.wire, q.src = owner p.src ∧ q.frame = p.message := by
  obtain ⟨-, hget, parsed, hparse, hlookedUp⟩ :=
    (Server.run_history h.run).placed p (h.placed ▸ hp)
  obtain ⟨-, -, -, -, -, -, -, -, -, -, -, hpayload, -⟩ := hlookedUp
  rcases h.accepted p.src p.message (List.mem_of_getElem? hget) with hregistration | hbrought
  · -- of a registration, there is nothing to place
    rw [hregistration] at hparse
    obtain ⟨-, rfl, -⟩ := parseIncoming_toWireMsg_iff.mp hparse
    cases hpayload
  · exact hbrought

end Served

/-- The server goes its way. -/
theorem run_serve {start : Room SignalMsg Message} {es : List ServerEvent} {server : Server}
    (hrun : (signallingServer cfg (serverReads text)).run s.server es = some server)
    (hbrings : ∀ e ∈ es, s.brings tag owner e = true) :
    (system cfg text tag owner start).run s (es.map .serve) =
      some { s with
        server := server
        placed := s.placed ++ (signallingServer cfg (serverReads text)).trace
          (fun s e => (s.placement cfg e).toList) s.server es } := by
  induction es generalizing s with
  | nil =>
    obtain rfl : s.server = server := Option.some.inj hrun
    simp
  | cons e es ih =>
    obtain ⟨server₁, hserver, hrun⟩ := StateMachine.run_cons_eq_some.mp hrun
    let s₁ : SignallingSystem := { s with
      server := server₁
      placed := s.placed ++ (s.server.placement cfg e).toList }
    have hstep : step cfg text tag owner s (.serve e) = some s₁ := by
      have hserver : s.server.step cfg (serverReads text) e = some server₁ := hserver
      simp only [step, hbrings e List.mem_cons_self, hserver, if_true, Option.map_some, s₁]
    have hrest := ih (s := s₁) hrun fun e' he' => hbrings e' (List.mem_cons_of_mem e he')
    refine StateMachine.run_cons_eq_some.mpr ⟨s₁, hstep, hrest.trans ?_⟩
    rw [StateMachine.trace_cons hserver, ← List.append_assoc]

/-! ## The room -/

theorem inRoom_of (w : Room SignalMsg Message) : InRoom (of w) w := ⟨rfl, rfl, rfl⟩

/-- A handler moves in the room as well. -/
theorem InRoom.act (h : InRoom s w) {codec : Codec SignalMsg Message} {r : RoomEvent SignalMsg}
    {ep ep' : Endpoint SignalMsg Message} {effects : List (Effect SignalMsg Message)}
    (hep : s.ends r.owner = some ep) (hhe : w.handlerEvent r = some he)
    (hstep : ep.step codec he = some (ep', effects)) :
    ∃ w', w.act codec r = some w' ∧ InRoom (s.perform r.owner ep' effects) w' := by
  refine ⟨w.perform r ep' effects, ?_, ?_, ?_, ?_⟩
  · simp only [Room.act, h.ends, hep, hhe, hstep, Option.bind_eq_bind, Option.bind_some,
      Option.pure_def]
  · rw [Room.perform, h.ends]
    rfl
  · rw [Room.perform, h.wire]
    rfl
  · rw [Room.perform, h.log]
    rfl

/-- What a handler does without a frame coming in, it does in the room. -/
theorem inRoom_call (n : NodeId) (hne : ∀ frame ok, he ≠ .receive frame ok)
    (w : Room SignalMsg Message) :
    ∃ r, Event.inRoom? (.call n he) = some r ∧ r.owner = n ∧ isDelivery r = false ∧
      w.handlerEvent r = some he ∧ ∀ codec, Room.step codec w r = w.act codec r := by
  cases he with
  | send payload ok => exact ⟨.send n payload ok, rfl, rfl, rfl, rfl, fun _ => rfl⟩
  | transmit ok => exact ⟨.transmit n ok, rfl, rfl, rfl, rfl, fun _ => rfl⟩
  | receive frame ok => exact absurd rfl (hne frame ok)
  | ackTask => exact ⟨.ackTask n, rfl, rfl, rfl, rfl, fun _ => rfl⟩
  | recvAck => exact ⟨.recvAck n, rfl, rfl, rfl, rfl, fun _ => rfl⟩
  | abort reason => exact ⟨.abort n reason, rfl, rfl, rfl, rfl, fun _ => rfl⟩
  | stop => exact ⟨.stop n, rfl, rfl, rfl, rfl, fun _ => rfl⟩

section Runs

variable {start : Room SignalMsg Message} {sent : List ServerEvent}

/-- **A step of the peers and their server** is one of the room, or none. -/
theorem room_of_step {e : Event} (hstep : step cfg text tag owner s e = some s')
    (hserved : Served cfg text tag owner s sent) (hecho : NoEcho owner s) (hw : InRoom s w) :
    ∃ ds w', (Room.machine (signallingCodec text tag) start).run w ds = some w' ∧ InRoom s' w' ∧
      (ds.filter fun d => !isDelivery d) = e.inRoom?.toList := by
  rcases step_cases hstep with ⟨n, language, rfl, hnone, rfl⟩ |
    ⟨n, he, ep, ep', effects, rfl, hne, hep, hmove, rfl⟩ | ⟨e, server, rfl, -, -, rfl⟩ |
    ⟨n, i, ok, p, ep, ep', effects, rfl, hp, rfl, hep, hmove, rfl⟩
  · have hcreate : Room.step (signallingCodec text tag) w (.create n language) =
        some (w.create n language) := by
      simp [Room.step, hw.ends, hnone]
    refine ⟨[.create n language], w.create n language, ?_, ?_, rfl⟩
    · exact StateMachine.run_cons_eq_some.mpr ⟨_, hcreate, rfl⟩
    · exact ⟨by rw [Room.create, hw.ends], hw.wire, hw.log⟩
  · obtain ⟨r, hr, rfl, hdelivery, hhe, hact⟩ := inRoom_call n hne w
    obtain ⟨w', hw', hin⟩ := hw.act hep hhe hmove
    refine ⟨[r], w', ?_, hin, ?_⟩
    · exact StateMachine.run_cons_eq_some.mpr ⟨_, (hact _).trans hw', rfl⟩
    · simp [hr, hdelivery]
  · exact ⟨[], w, rfl, ⟨hw.ends, hw.wire, hw.log⟩, rfl⟩
  · -- what arrives is on the wire, and somebody else has put it there
    obtain ⟨q, hq, hsrc, hframe⟩ := hserved.brought (List.mem_of_getElem? hp)
    obtain ⟨j, hj⟩ := List.getElem?_of_mem (hw.wire.symm ▸ hq)
    have hother : q.src ≠ owner p.dst := hsrc ▸ hecho p (List.mem_of_getElem? hp)
    have hhe : w.handlerEvent (.deliver (owner p.dst) j ok) = some (.receive p.message ok) := by
      simp only [Room.handlerEvent, hj, if_neg hother, hframe]
    obtain ⟨w', hw', hin⟩ := hw.act (r := .deliver (owner p.dst) j ok) hep hhe hmove
    exact ⟨[.deliver (owner p.dst) j ok], w', StateMachine.run_cons_eq_some.mpr ⟨_, hw', rfl⟩, hin,
      rfl⟩

/-- The server goes on, or the peers do. -/
theorem served_of_step {e : Event} (hstep : step cfg text tag owner s e = some s')
    (hserved : Served cfg text tag owner s sent) :
    (∃ sent', Served cfg text tag owner s' sent') ∧ ∀ p ∈ s.placed, p ∈ s'.placed := by
  rcases step_cases hstep with ⟨n, language, rfl, -, rfl⟩ |
    ⟨n, he, ep, ep', effects, rfl, -, -, -, rfl⟩ | ⟨e, server, rfl, hbrings, hserver, rfl⟩ |
    ⟨n, i, ok, p, ep, ep', effects, rfl, -, -, -, -, rfl⟩
  · exact ⟨⟨sent, hserved.run, hserved.placed, hserved.accepted⟩, fun _ hp => hp⟩
  · exact ⟨⟨sent, hserved.perform n ep' effects⟩, fun _ hp => hp⟩
  · exact ⟨⟨_, hserved.serve hbrings hserver⟩, fun _ hp => List.mem_append_left _ hp⟩
  · exact ⟨⟨sent, hserved.perform n ep' effects⟩, fun _ hp => hp⟩

/-- The room can go along: with the same handlers, frames and effects, and with the same events
but for the deliveries, which are its own. -/
def RoomFollows (text : JsonText) (tag : RoutingTag) (start : Room SignalMsg Message)
    (es : List Event) (s : SignallingSystem) : Prop :=
  ∃ ds w, (Room.machine (signallingCodec text tag) start).run start ds = some w ∧ InRoom s w ∧
    (ds.filter fun d => !isDelivery d) = es.filterMap Event.inRoom?

/-- The server runs, and the room goes along. -/
theorem follows_of_run {es : List Event}
    (hrun : (system cfg text tag owner start).run (of start) es = some s) :
    (∃ sent, Served cfg text tag owner s sent) ∧
      (NoEcho owner s → RoomFollows text tag start es s) := by
  refine StateMachine.run_induction (M := system cfg text tag owner start)
    (P := fun es s => (∃ sent, Served cfg text tag owner s sent) ∧
      (NoEcho owner s → RoomFollows text tag start es s))
    ⟨⟨[], served_of start⟩, fun _ => ⟨[], start, rfl, inRoom_of start, rfl⟩⟩ ?_ hrun
  rintro es s e s' - ⟨⟨sent, hserved⟩, ih⟩ hstep
  obtain ⟨hserved', hkept⟩ := served_of_step hstep hserved
  refine ⟨hserved', fun hecho => ?_⟩
  have hecho : NoEcho owner s := fun p hp => hecho p (hkept p hp)
  obtain ⟨ds, w, hds, hw, hsame⟩ := ih hecho
  obtain ⟨ds', w', hds', hw', hsame'⟩ := room_of_step hstep hserved hecho hw
  refine ⟨ds ++ ds', w', StateMachine.run_append_eq_some.mpr ⟨w, hds, hds'⟩, hw', ?_⟩
  rw [List.filter_append, List.filterMap_append, hsame, hsame', List.filterMap_cons]
  cases e.inRoom? <;> rfl

end Runs

/-! ## Reliability -/

/-- Deliveries are no calls. -/
theorem sendCalls_filter (n : NodeId) (ds : List (RoomEvent SignalMsg)) :
    Room.sendCalls n (ds.filter fun d => !isDelivery d) = Room.sendCalls n ds := by
  rw [Room.sendCalls, Room.sendCalls, List.filterMap_filter]
  refine List.filterMap_congr fun d _ => ?_
  cases d <;> rfl

/-- Who creates a peer in the room has created it. -/
theorem create_of_inRoom {e : Event} {n : NodeId} {language : Language}
    (h : e.inRoom? = some (.create n language)) : e = .create n language := by
  cases e with
  | create m l =>
    obtain ⟨rfl, rfl⟩ := RoomEvent.create.inj (Option.some.inj h)
    rfl
  | call m he => cases he <;> cases h
  | serve e => cases h
  | arrive m i ok => cases h

/-! ## An offer through the server -/

/-- The backend has the first connection, the browser the others. -/
def owners (c : ConnectionId) : NodeId := if c = 0 then "backend" else "browser"

/-- The browser and the backend. -/
def browserAndBackend : Room SignalMsg Message := .pair "browser" "backend" .typeScript .rust

/-- What is offered. -/
def offered : SignalMsg := ⟨.offer, "v=0", "1"⟩

/-- The server brings the offer from its second connection to the first one, and to a peer. -/
def brought (n : NodeId) : List Event :=
  (Server.meeting (toWireMsg "r" none) Server.offerMessage).map .serve ++ [.arrive n 0 true]

/-- Whatever comes to the server is a registration, or the offer. -/
theorem brings_meeting (howner : owner 1 = "browser") {e : ServerEvent}
    (he : e ∈ Server.meeting (toWireMsg "r" none) Server.offerMessage)
    (hwire : (⟨"browser", Server.offerMessage, none⟩ : Packet Message) ∈ s.wire) :
    s.brings "r" owner e = true := by
  simp only [Server.meeting, List.mem_cons, List.not_mem_nil, or_false] at he
  rcases he with rfl | rfl | rfl | rfl | rfl | rfl | rfl | rfl | rfl | rfl | rfl
  · rfl
  · rfl
  · rfl
  · rfl
  · rfl
  · rfl
  · simp [brings]
  · rfl
  · simp only [brings, decide_eq_true_eq]
    exact Or.inr ⟨_, hwire, howner.symm, rfl⟩
  · rfl
  · rfl

/-- What the server brings is read. -/
theorem run_brought {start : Room SignalMsg Message} (howner : owner 1 = "browser")
    (hinit : s.server = .init) (hnone : s.placed = [])
    (hwire : (⟨"browser", Server.offerMessage, none⟩ : Packet Message) ∈ s.wire)
    {ep ep' : Endpoint SignalMsg Message} {effects : List (Effect SignalMsg Message)}
    (hep : s.ends (owner 0) = some ep)
    (hread : ep.step (signallingCodec .inverse "r") (.receive Server.offerMessage true) =
      some (ep', effects)) :
    ∃ s', (system {} .inverse "r" owner start).run s (brought (owner 0)) = some s' ∧
      s'.placed = [⟨1, 1, 0, Server.offerMessage⟩] ∧
      s'.log = s.log ++ effects.map fun eff => (owner 0, eff) := by
  obtain ⟨server, hserver, hplaced, -⟩ := Server.run_meeting Server.parse_offer.1
    Server.parse_offer.2
  -- the server places the offer, and does nothing else that the peers see
  let s₁ : SignallingSystem :=
    { s with server := server, placed := [⟨1, 1, 0, Server.offerMessage⟩] }
  have hserve : (system {} .inverse "r" owner start).run s
      ((Server.meeting (toWireMsg "r" none) Server.offerMessage).map .serve) = some s₁ := by
    refine (run_serve (hinit ▸ hserver) fun e he => brings_meeting howner he hwire).trans ?_
    rw [hnone, hinit]
    exact congrArg (fun ps => some { s with server := server, placed := ps }) hplaced
  have harrive : step {} .inverse "r" owner s₁ (.arrive (owner 0) 0 true) =
      some (s₁.perform (owner 0) ep' effects) := by
    have hhandle : s₁.handle (signallingCodec .inverse "r") (owner 0)
        (.receive Server.offerMessage true) = some (s₁.perform (owner 0) ep' effects) := by
      simp only [handle, s₁, hep, hread, Option.bind_eq_bind, Option.bind_some, Option.pure_def]
    exact (if_pos rfl).trans hhandle
  refine ⟨s₁.perform (owner 0) ep' effects, ?_, rfl, rfl⟩
  exact StateMachine.run_append_eq_some.mpr ⟨s₁, hserve,
    StateMachine.run_cons_eq_some.mpr ⟨_, harrive, rfl⟩⟩

theorem decoder_offer :
    Rs.RtcConnector.decoder .inverse Server.offerMessage = .ok (.normal 1 "browser" offered) :=
  decoder_toWireMsg_eq_ok.mpr ⟨by decide, rfl⟩

/-- The browser sends an offer, which comes to the backend. -/
def offering : List Event := .call "browser" (.send offered true) :: brought "backend"

theorem run_offering : ∃ s,
    (system {} .inverse "r" owners browserAndBackend).run (of browserAndBackend) offering = some s ∧
      s.placed = [⟨1, 1, 0, Server.offerMessage⟩] ∧ s.room.handedAt "backend" = [(1, offered)] := by
  obtain ⟨s, hs, hinit, hnone, hwire, hbackend, hlog⟩ :
      ∃ s, step {} .inverse "r" owners (of browserAndBackend)
        (.call "browser" (.send offered true)) = some s ∧ s.server = .init ∧ s.placed = [] ∧
          s.wire = [⟨"browser", Server.offerMessage, none⟩] ∧
          s.ends "backend" = some (.new .rust "backend") ∧
          s.log = [("browser", .sent 1 offered), ("browser", .wire Server.offerMessage none)] :=
    ⟨_, rfl, rfl, rfl, rfl, rfl, rfl⟩
  obtain ⟨ep, hread⟩ : ∃ ep, (Endpoint.new .rust "backend").step (signallingCodec .inverse "r")
      (.receive Server.offerMessage true) =
        some (ep, [.ackQueued 1 "browser", .handled "browser" 1 offered]) := by
    simp only [Endpoint.step, Endpoint.new, Rs.TransportHandler.step,
      Rs.TransportHandler.wsNodeHandle, signallingCodec, decoder_offer]
    exact ⟨_, rfl⟩
  have hmem : (⟨"browser", Server.offerMessage, none⟩ : Packet Message) ∈ s.wire :=
    hwire ▸ List.mem_singleton_self _
  have hbackend : s.ends (owners 0) = some (.new .rust "backend") := hbackend
  obtain ⟨s', hs', hplaced, hlog'⟩ := run_brought rfl hinit hnone hmem hbackend hread
  refine ⟨s', StateMachine.run_cons_eq_some.mpr ⟨s, hs, hs'⟩, hplaced, ?_⟩
  rw [Room.handedAt, Room.effectsOf, room, hlog', hlog]
  rfl

theorem noEcho_offering (hplaced : s.placed = [⟨1, 1, 0, Server.offerMessage⟩]) :
    NoEcho owners s := by
  intro p hp
  rw [hplaced, List.mem_singleton] at hp
  subst hp
  decide

/-! ## Whatever happens -/

/-- **The peers and their server are a room**, as long as no peer is sent what it has written. -/
theorem room_of_run {start : Room SignalMsg Message} {es : List Event}
    (hrun : (system cfg text tag owner start).run (of start) es = some s)
    (hecho : NoEcho owner s) : RoomFollows text tag start es s :=
  (follows_of_run hrun).2 hecho

theorem room_of_run_offering : ∃ s : SignallingSystem,
    s.placed = [⟨1, 1, 0, Server.offerMessage⟩] ∧
      RoomFollows .inverse "r" browserAndBackend offering s := by
  obtain ⟨s, hrun, hplaced, -⟩ := run_offering
  exact ⟨s, hplaced, room_of_run hrun (noEcho_offering hplaced)⟩

/-- **Reliable signalling.** Two peers, each in either language, that signal through the server:
whatever its tasks, and the connections of the peers, do in between, the calls of `send` at the
one peer are handed on at the other one in their order, each at most once, and exactly once if the
call has returned. -/
theorem signalling_reliable {a b : NodeId} (hab : a ≠ b) (la lb : Language) {es : List Event}
    (hrun : (system cfg text tag owner (Room.pair a b la lb)).run (of (Room.pair a b la lb)) es =
      some s)
    (hcreate : ∀ e ∈ es, ∀ n language, e ≠ .create n language)
    (hcount : (Room.sendCalls a (es.filterMap Event.inRoom?)).length < 2 ^ 32)
    (hecho : NoEcho owner s) :
    Room.Reliable a b (es.filterMap Event.inRoom?) s.room := by
  obtain ⟨ds, w, hds, hw, hsame⟩ := (follows_of_run hrun).2 hecho
  have hcalls : Room.sendCalls a (es.filterMap Event.inRoom?) = Room.sendCalls a ds := by
    rw [← hsame, sendCalls_filter]
  have hcreate' : ∀ d ∈ ds, ∀ n language, d ≠ .create n language := by
    rintro _ hd n language rfl
    have hmem : RoomEvent.create n language ∈ es.filterMap Event.inRoom? :=
      hsame ▸ List.mem_filter.mpr ⟨hd, rfl⟩
    obtain ⟨e, he, hroom⟩ := List.mem_filterMap.mp hmem
    exact hcreate e he n language (create_of_inRoom hroom)
  have hsteady : (Room.machine (signallingCodec text tag) (Room.pair a b la lb)).Along
      (Room.Steady a) (Room.pair a b la lb) ds :=
    Room.along_steady rfl hcreate' (hcalls ▸ hcount)
  obtain ⟨l, hlinked, hreach⟩ := Room.linked_of_run (signallingCodec text tag) hab la lb hds hsteady
  exact (hlinked.reliable hreach rfl hds).congr hw.log.symm hcalls

theorem signalling_reliable_offering : ∃ s : SignallingSystem,
    s.room.handedAt "backend" = [(1, offered)] ∧
      Room.Reliable "browser" "backend" (offering.filterMap Event.inRoom?) s.room := by
  obtain ⟨s, hrun, hplaced, hhanded⟩ := run_offering
  have hcreate : ∀ e ∈ offering, ∀ n language, e ≠ .create n language := by
    simp [offering, brought, Server.meeting]
  exact ⟨s, hhanded, signalling_reliable (by decide) .typeScript .rust hrun hcreate (by decide)
    (noEcho_offering hplaced)⟩

/-! ## Echoes -/

/-- The filters of the peers remember what has been handed on. -/
structure Remember (text : JsonText) (tag : RoutingTag) (s : SignallingSystem) : Prop where
  /-- somebody who is not there has done nothing -/
  absent : ∀ n, s.ends n = none → s.room.effectsOf n = []
  /-- a peer remembers what it has done -/
  present : ∀ n ep, s.ends n = some ep →
    Endpoint.Remembers (signallingCodec text tag) (s.room.effectsOf n) ep

theorem effectsOf_perform (n m : NodeId) (ep : Endpoint SignalMsg Message)
    (effects : List (Effect SignalMsg Message)) :
    (s.perform n ep effects).room.effectsOf m =
      s.room.effectsOf m ++ if n = m then effects else [] := by
  by_cases h : n = m <;> simp [Room.effectsOf, room, perform, List.filterMap_map, h]

theorem Remember.perform (h : Remember text tag s) {ep ep' : Endpoint SignalMsg Message}
    {effects : List (Effect SignalMsg Message)} (hep : s.ends n = some ep)
    (hstep : ep.step (signallingCodec text tag) he = some (ep', effects)) :
    Remember text tag (s.perform n ep' effects) where
  absent m hm := by
    have hne : m ≠ n := by
      rintro rfl
      simp [SignallingSystem.perform] at hm
    have hnone : s.ends m = none := (Function.update_of_ne hne _ _).symm.trans hm
    rw [effectsOf_perform, h.absent m hnone, if_neg (Ne.symm hne), List.append_nil]
  present m ep₁ hm := by
    rw [effectsOf_perform]
    by_cases hne : m = n
    · subst hne
      have hself : (s.perform m ep' effects).ends m = some ep' := Function.update_self ..
      obtain rfl : ep' = ep₁ := Option.some.inj (hself.symm.trans hm)
      have heffects : Endpoint.effects (signallingCodec text tag) ep he = effects := by
        simp [Endpoint.effects, hstep]
      rw [if_pos rfl]
      exact heffects ▸ (h.present m ep hep).step (heffects.symm ▸ Endpoint.step_move hstep)
    · have hsome : s.ends m = some ep₁ := (Function.update_of_ne hne _ _).symm.trans hm
      rw [if_neg (Ne.symm hne), List.append_nil]
      exact h.present m ep₁ hsome

theorem remember_of : Remember text tag (of .empty) where
  absent _ _ := rfl
  present n ep hep := by cases hep

theorem Remember.create (h : Remember text tag s) {language : Language} (hnone : s.ends n = none) :
    Remember text tag { s with ends := Function.update s.ends n (some (.new language n)) } where
  absent m hm := by
    have hne : m ≠ n := by
      rintro rfl
      simp at hm
    exact h.absent m ((Function.update_of_ne hne _ _).symm.trans hm)
  present m ep hm := by
    by_cases hne : m = n
    · subst hne
      have hself : Function.update s.ends m (some (.new language m)) m = some (.new language m) :=
        Function.update_self ..
      obtain rfl : Endpoint.new language m = ep := Option.some.inj (hself.symm.trans hm)
      have hrun : (Endpoint.machine (signallingCodec text tag) language m).run (.new language m)
          [] = some (.new language m) := rfl
      exact (h.absent m hnone).symm ▸ Endpoint.run_remembers hrun
    · exact h.present m ep ((Function.update_of_ne hne _ _).symm.trans hm)

/-- The filters remember every run. -/
theorem remember_of_run {es : List Event}
    (hrun : (system cfg text tag owner .empty).run (of .empty) es = some s) :
    Remember text tag s := by
  refine StateMachine.run_induction (M := system cfg text tag owner .empty)
    (P := fun _ s => Remember text tag s) remember_of ?_ hrun
  intro es s e s' _ h hstep
  rcases step_cases hstep with ⟨n, language, -, hnone, rfl⟩ |
    ⟨n, he, ep, ep', effects, -, -, hep, hmove, rfl⟩ | ⟨e, server, -, -, -, rfl⟩ |
    ⟨n, i, ok, p, ep, ep', effects, -, -, -, hep, hmove, rfl⟩
  · exact h.create hnone
  · exact h.perform hep hmove
  · exact ⟨h.absent, h.present⟩
  · exact h.perform hep hmove

/-- **An echo deafens a peer.** Once a peer has been handed what it has written itself, nothing
that the others write is ever handed to it. -/
theorem deaf_after_echo {es : List Event}
    (hrun : (system cfg text tag owner .empty).run (of .empty) es = some s) {sn : ℕ}
    {payload : SignalMsg} (hecho : (n, .handled n sn payload) ∈ s.log) :
    ∀ id sn' payload', (n, .handled id sn' payload') ∈ s.log → id = n := by
  intro id sn' payload' hmem
  have hremember := remember_of_run hrun
  have hdone : ∀ {eff}, (n, eff) ∈ s.log → eff ∈ s.room.effectsOf n := fun h =>
    List.mem_filterMap.mpr ⟨_, h, if_pos rfl⟩
  cases hep : s.ends n with
  | none =>
    have hnothing := hdone hecho
    rw [hremember.absent n hep] at hnothing
    cases hnothing
  | some ep =>
    have hself := (hremember.present n ep hep).identity _ _ _ (hdone hecho)
    have hother := (hremember.present n ep hep).identity _ _ _ (hdone hmem)
    exact Option.some.inj (hother.symm.trans hself)

/-- The browser sends an offer, which comes back on another connection of its own. -/
def echoing : List Event :=
  [.create "browser" .typeScript, .call "browser" (.send offered true)] ++ brought "browser"

theorem deaf_after_echo_echoing : ∃ s : SignallingSystem,
    ("browser", .handled "browser" 1 offered) ∈ s.log ∧
      ∀ id sn payload, ("browser", .handled id sn payload) ∈ s.log → id = "browser" := by
  let h : Ts.TransportHandler SignalMsg := {
    (Ts.TransportHandler.new "browser" : Ts.TransportHandler SignalMsg) with
    seqNumOut := 1
    awaitedDelivery := some ⟨1, .normal 1 "browser" offered⟩ }
  obtain ⟨s, hs, hinit, hnone, hwire, hbrowser⟩ :
      ∃ s, (system {} .inverse "r" (fun _ => "browser") .empty).run (of .empty)
        [.create "browser" .typeScript, .call "browser" (.send offered true)] = some s ∧
          s.server = .init ∧ s.placed = [] ∧
          s.wire = [⟨"browser", Server.offerMessage, none⟩] ∧
          s.ends "browser" = some (.typeScript h) := ⟨_, rfl, rfl, rfl, rfl, rfl⟩
  let effects : List (Effect SignalMsg Message) := [.ackQueued 1 "browser",
    .wire (toWireMsg "r" (some (.ack 1 "browser"))) (some "browser"),
    .handled "browser" 1 offered]
  obtain ⟨ep, hread⟩ : ∃ ep, (Endpoint.typeScript h).step (signallingCodec .inverse "r")
      (.receive Server.offerMessage true) = some (ep, effects) := by
    simp only [Endpoint.step, Ts.TransportHandler.step, signallingCodec, decoder_offer]
    exact ⟨_, rfl⟩
  have hmem : (⟨"browser", Server.offerMessage, none⟩ : Packet Message) ∈ s.wire :=
    hwire ▸ List.mem_singleton_self _
  obtain ⟨s', hs', -, hlog⟩ :
      ∃ s', (system {} .inverse "r" (fun _ => "browser") .empty).run s (brought "browser") =
        some s' ∧ s'.placed = [⟨1, 1, 0, Server.offerMessage⟩] ∧
          s'.log = s.log ++ effects.map fun eff => ("browser", eff) :=
    run_brought rfl hinit hnone hmem hbrowser hread
  have hrun : (system {} .inverse "r" (fun _ => "browser") .empty).run (of .empty) echoing =
      some s' := StateMachine.run_append_eq_some.mpr ⟨s, hs, hs'⟩
  have hecho : ("browser", Effect.handled "browser" 1 offered) ∈ s'.log := by
    rw [hlog]
    exact List.mem_append_right _ (List.mem_map_of_mem (by simp [effects]))
  exact ⟨s', hecho, deaf_after_echo hrun hecho⟩

end SignallingSystem

end Vamp
