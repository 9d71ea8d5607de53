import Mathlib.Logic.Function.Basic
import Vamp.TransportHandler

/-!
# Transport handlers in one room

Any number of transport handlers, in either language, and what the room between them may
do to their frames: everything that was ever put on the wire may be delivered to anybody
but its source, at any later time, in any order, any number of times, or never. Handlers
are created under identities that are never used again; a handler that is torn down is
one that nothing happens to any more.
-/

namespace Vamp

variable {τ κ : Type}

/-- A frame on the wire. -/
structure Packet (κ : Type) : Type where
  /-- the endpoint that has put it there -/
  src : NodeId
  /-- the frame -/
  frame : κ
  /-- for an acknowledgement, the identity in the message it acknowledges -/
  answers : Option NodeId

/-- The frame that an effect puts on the wire. -/
def Effect.packet (src : NodeId) : Effect τ κ → Option (Packet κ)
  | .wire frame answers => some ⟨src, frame, answers⟩
  | _ => none

/-- The room: the endpoints, everything that was ever on the wire, who has received what,
and what the endpoints have done. -/
structure Room (τ κ : Type) : Type where
  /-- the endpoints, by identity -/
  ends : NodeId → Option (Endpoint τ κ)
  /-- everything ever put on the wire, oldest first -/
  wire : List (Packet κ)
  /-- the packets delivered to each endpoint, oldest first -/
  received : NodeId → List (Packet κ)
  /-- the effects of all endpoints, oldest first -/
  log : List (NodeId × Effect τ κ)

/-- What can happen in the room. -/
inductive RoomEvent (τ : Type) : Type where
  /-- an endpoint is created, under a fresh identity -/
  | create (n : NodeId) (language : Language) : RoomEvent τ
  /-- `send` is called -/
  | send (n : NodeId) (payload : τ) (ok : Bool) : RoomEvent τ
  /-- the pending message is put on the wire, at first or again -/
  | transmit (n : NodeId) (ok : Bool) : RoomEvent τ
  /-- the packet at a position of the wire is delivered -/
  | deliver (n : NodeId) (i : ℕ) (ok : Bool) : RoomEvent τ
  /-- the acknowledging task of a Rust endpoint runs -/
  | ackTask (n : NodeId) : RoomEvent τ
  /-- the pending `send` of a Rust endpoint takes an acknowledgement -/
  | recvAck (n : NodeId) : RoomEvent τ
  /-- the pending `send` is aborted -/
  | abort (n : NodeId) (reason : String) : RoomEvent τ
  /-- `stop` is called -/
  | stop (n : NodeId) : RoomEvent τ

/-- The endpoint that an event happens to. -/
def RoomEvent.owner : RoomEvent τ → NodeId
  | .create n _ | .send n _ _ | .transmit n _ | .deliver n _ _ | .ackTask n | .recvAck n
  | .abort n _ | .stop n => n

namespace Room

/-- An empty room. -/
def empty : Room τ κ where
  ends := fun _ => none
  wire := []
  received := fun _ => []
  log := []

/-- The packet that an event delivers. -/
def delivered (w : Room τ κ) : RoomEvent τ → Option (Packet κ)
  | .deliver _ i _ => w.wire[i]?
  | _ => none

/-- What an event means to its endpoint. A packet is not delivered to its source. -/
def handlerEvent (w : Room τ κ) : RoomEvent τ → Option (HandlerEvent τ κ)
  | .create _ _ => none
  | .send _ payload ok => some (.send payload ok)
  | .transmit _ ok => some (.transmit ok)
  | .deliver n i ok =>
    match w.wire[i]? with
    | some p => if p.src = n then none else some (.receive p.frame ok)
    | none => none
  | .ackTask _ => some .ackTask
  | .recvAck _ => some .recvAck
  | .abort _ reason => some (.abort reason)
  | .stop _ => some .stop

/-- The room after endpoint `n` has become `ep`, with these effects, at an event. -/
def perform (w : Room τ κ) (e : RoomEvent τ) (ep : Endpoint τ κ) (effects : List (Effect τ κ)) :
    Room τ κ where
  ends := Function.update w.ends e.owner (some ep)
  wire := w.wire ++ effects.filterMap (Effect.packet e.owner)
  received := Function.update w.received e.owner
    (w.received e.owner ++ (w.delivered e).toList)
  log := w.log ++ effects.map fun eff => (e.owner, eff)

/-- An endpoint takes its part in an event. -/
def act (codec : Codec τ κ) (w : Room τ κ) (e : RoomEvent τ) : Option (Room τ κ) := do
  let ep ← w.ends e.owner
  let he ← w.handlerEvent e
  let (ep', effects) ← ep.step codec he
  return w.perform e ep' effects

/-- The room with a new endpoint. -/
def create (w : Room τ κ) (n : NodeId) (language : Language) : Room τ κ :=
  { w with ends := Function.update w.ends n (some (.new language n)) }

/-- One step of the room. -/
def step (codec : Codec τ κ) (w : Room τ κ) : RoomEvent τ → Option (Room τ κ)
  | .create n language => if (w.ends n).isNone then some (w.create n language) else none
  | e => w.act codec e

/-- The room, from any start. -/
def machine (codec : Codec τ κ) (start : Room τ κ) : StateMachine (Room τ κ) (RoomEvent τ) where
  init := start
  step := step codec

/-- What has been done since `w`. -/
def news (w' w : Room τ κ) : List (NodeId × Effect τ κ) := w'.log.drop w.log.length

variable {codec : Codec τ κ} {w w' : Room τ κ} {e : RoomEvent τ}

theorem act_eq_some (h : w.act codec e = some w') :
    ∃ ep ep' he effects, w.ends e.owner = some ep ∧ w.handlerEvent e = some he ∧
      Endpoint.Move codec (ep.view codec) he (ep'.view codec) effects ∧
      w' = w.perform e ep' effects := by
  simp only [act, Option.bind_eq_bind, Option.bind_eq_some_iff, Option.pure_def,
    Option.some.injEq] at h
  obtain ⟨ep, hep, he, hhe, ⟨ep', effects⟩, hstep, rfl⟩ := h
  exact ⟨ep, ep', he, effects, hep, hhe, Endpoint.step_move hstep, rfl⟩

/-- **What a step of the room can do**: create an endpoint, or move one. -/
theorem step_cases (h : step codec w e = some w') :
    (∃ n language, e = .create n language ∧ w.ends n = none ∧ w' = w.create n language) ∨
    ∃ ep ep' he effects, w.ends e.owner = some ep ∧ w.handlerEvent e = some he ∧
      Endpoint.Move codec (ep.view codec) he (ep'.view codec) effects ∧
      w' = w.perform e ep' effects := by
  cases e with
  | create n language =>
    simp only [step, Option.ite_none_right_eq_some, Option.some.injEq] at h
    exact Or.inl ⟨n, language, rfl, Option.isNone_iff_eq_none.mp h.1, h.2.symm⟩
  | _ => exact Or.inr (act_eq_some h)

/-- A delivery hands its owner a frame of the wire that somebody else has put there. -/
theorem handlerEvent_deliver {n : NodeId} {i : ℕ} {ok : Bool} {he : HandlerEvent τ κ}
    (h : w.handlerEvent (.deliver n i ok) = some he) :
    ∃ p, w.wire[i]? = some p ∧ p.src ≠ n ∧ he = .receive p.frame ok := by
  simp only [handlerEvent] at h
  cases hp : w.wire[i]? with
  | none => simp [hp] at h
  | some p =>
    simp only [hp, Option.ite_none_left_eq_some, Option.some.injEq] at h
    exact ⟨p, rfl, h.1, h.2.symm⟩

/-- A delivered packet was on the wire, and comes from somebody else. -/
theorem handlerEvent_receive {frame : κ} {ok : Bool}
    (h : w.handlerEvent e = some (.receive frame ok)) :
    ∃ p ∈ w.wire, p.frame = frame ∧ p.src ≠ e.owner ∧ w.delivered e = some p := by
  cases e with
  | deliver n i ok' =>
    obtain ⟨p, hp, hsrc, hframe⟩ := handlerEvent_deliver h
    obtain ⟨rfl, -⟩ := HandlerEvent.receive.inj hframe
    exact ⟨p, List.mem_of_getElem? hp, rfl, hsrc, hp⟩
  | _ => cases h

/-- What is delivered when a handler takes part was on the wire, from somebody else. -/
theorem delivered_other {he : HandlerEvent τ κ} {p : Packet κ} (h : w.handlerEvent e = some he)
    (hp : w.delivered e = some p) : p ∈ w.wire ∧ p.src ≠ e.owner := by
  cases e with
  | deliver n i ok =>
    obtain ⟨q, hq, hsrc, -⟩ := handlerEvent_deliver h
    obtain rfl : q = p := Option.some.inj (hq.symm.trans hp)
    exact ⟨List.mem_of_getElem? hq, hsrc⟩
  | _ => cases hp

/-- Only the pending `send` of the owner takes from its queue. -/
theorem handlerEvent_recvAck (h : w.handlerEvent e = some .recvAck) : e = .recvAck e.owner := by
  cases e with
  | deliver n i ok =>
    obtain ⟨p, -, -, hframe⟩ := handlerEvent_deliver h
    cases hframe
  | recvAck n => rfl
  | _ => cases h

/-- `send` is called by its owner. -/
theorem handlerEvent_send {payload : τ} {ok : Bool}
    (h : w.handlerEvent e = some (.send payload ok)) :
    e = .send e.owner payload ok := by
  cases e with
  | send n payload' ok' =>
    obtain ⟨rfl, rfl⟩ := HandlerEvent.send.inj (Option.some.inj h)
    rfl
  | deliver n i ok' =>
    obtain ⟨p, -, -, hframe⟩ := handlerEvent_deliver h
    cases hframe
  | _ => cases h

/-! ### The room with a new endpoint -/

theorem ends_create_self (n : NodeId) (language : Language) :
    (w.create n language).ends n = some (.new language n) :=
  Function.update_self ..

theorem ends_create_ne {m n : NodeId} (language : Language) (h : m ≠ n) :
    (w.create n language).ends m = w.ends m :=
  Function.update_of_ne h ..

theorem news_create (n : NodeId) (language : Language) : (w.create n language).news w = [] :=
  List.drop_length ..

/-! ### The room after a move -/

@[simp] theorem ends_perform_self (ep : Endpoint τ κ) (effects : List (Effect τ κ)) :
    (w.perform e ep effects).ends e.owner = some ep :=
  Function.update_self ..

theorem ends_perform_ne {n : NodeId} (ep : Endpoint τ κ) (effects : List (Effect τ κ))
    (h : n ≠ e.owner) : (w.perform e ep effects).ends n = w.ends n :=
  Function.update_of_ne h ..

theorem received_perform_self (ep : Endpoint τ κ) (effects : List (Effect τ κ)) :
    (w.perform e ep effects).received e.owner =
      w.received e.owner ++ (w.delivered e).toList :=
  Function.update_self ..

theorem received_perform_ne {n : NodeId} (ep : Endpoint τ κ) (effects : List (Effect τ κ))
    (h : n ≠ e.owner) : (w.perform e ep effects).received n = w.received n :=
  Function.update_of_ne h ..

theorem news_perform (ep : Endpoint τ κ) (effects : List (Effect τ κ)) :
    (w.perform e ep effects).news w = effects.map fun eff => (e.owner, eff) :=
  List.drop_left ..

/-- A packet after a move was there before, or comes from an effect. -/
theorem mem_wire_perform {ep : Endpoint τ κ} {effects : List (Effect τ κ)} {p : Packet κ}
    (h : p ∈ (w.perform e ep effects).wire) :
    p ∈ w.wire ∨ p.src = e.owner ∧ .wire p.frame p.answers ∈ effects := by
  rcases List.mem_append.mp h with h | h
  · exact Or.inl h
  · obtain ⟨eff, heff, hp⟩ := List.mem_filterMap.mp h
    cases eff with
    | wire frame answers =>
      obtain rfl := Option.some.inj hp
      exact Or.inr ⟨rfl, heff⟩
    | _ => cases hp

end Room

end Vamp
