import Vamp.StateMachine
import Vamp.TransportTypes

/-!
# The two transport handlers

`TransportHandler` of `ws_node_handler.rs` and its TypeScript counterpart in
`transport_handler.ts`: sequence filtering, acknowledgements and reliable sending. They
follow one design and differ in detail, so each keeps its own definitions here, and what
the rest of the development uses is the common view of a step (`Endpoint.Move`).

* The Rust handler queues acknowledgements for a task, queues incoming ones for the
  pending `send`, counts modulo `2 ^ 32` from 0, and repeats the sender's identity in an
  acknowledgement.
* The TypeScript handler acknowledges on the spot, compares an incoming acknowledgement
  with the delivery it awaits, counts from 1, and puts its own identity in.

A step is what runs between two awaits. The serializer is the parameter `Codec`; the
carrier below (websocket, data channel) decides in the events whether it takes a frame.
-/

namespace Vamp

variable {τ κ : Type}

/-! ## Parameters and observations -/

/-- The serializer of a handler (`encoder` and `decoder`). All that is assumed of it: a
frame is decoded, if at all, to the message it was encoded from. -/
structure Codec (τ κ : Type) where
  /-- `encode` -/
  encode : TransportMsg τ → MyRes κ
  /-- `decode` -/
  decode : κ → MyRes (TransportMsg τ)
  /-- what is decoded is what was encoded -/
  faithful : ∀ {m m' : TransportMsg τ} {frame : κ}, encode m = .ok frame →
    decode frame = .ok m' → m' = m

/-- What a handler does that others notice. -/
inductive Effect (τ κ : Type) : Type where
  /-- `send` has given the payload its number -/
  | sent (sn : ℕ) (payload : τ) : Effect τ κ
  /-- `send` has refused a payload -/
  | refused (err : MyErr) : Effect τ κ
  /-- an acknowledgement of the message `sn` of `nodeId` is queued for sending -/
  | ackQueued (sn : ℕ) (nodeId : NodeId) : Effect τ κ
  /-- a frame goes out; for an acknowledgement, `answers` is the identity in the message
  it acknowledges -/
  | wire (frame : κ) (answers : Option NodeId) : Effect τ κ
  /-- the payload of the message `sn` of `nodeId` is passed to `message_handler` -/
  | handled (nodeId : NodeId) (sn : ℕ) (payload : τ) : Effect τ κ
  /-- the `send` number `sn` returns -/
  | returned (sn : ℕ) (res : MyRes Unit) : Effect τ κ

/-- Whether an effect is a call of `message_handler`. -/
def Effect.isHandled : Effect τ κ → Bool
  | .handled _ _ _ => true
  | _ => false

theorem Effect.filter_isHandled_eq_nil {effs : List (Effect τ κ)}
    (h : ∀ eff ∈ effs, eff.isHandled = false) : effs.filter Effect.isHandled = [] :=
  List.filter_eq_nil_iff.mpr fun eff heff => by rw [h eff heff]; exact Bool.false_ne_true

/-- What can happen to a handler. `ok` is whether the carrier takes the frame. -/
inductive HandlerEvent (τ κ : Type) : Type where
  /-- `send` is called -/
  | send (payload : τ) (ok : Bool) : HandlerEvent τ κ
  /-- the pending message is put on the wire, at first or again -/
  | transmit (ok : Bool) : HandlerEvent τ κ
  /-- a frame comes in -/
  | receive (frame : κ) (ok : Bool) : HandlerEvent τ κ
  /-- the acknowledging task takes an acknowledgement from its queue (Rust) -/
  | ackTask : HandlerEvent τ κ
  /-- the pending `send` takes an acknowledgement from its queue (Rust) -/
  | recvAck : HandlerEvent τ κ
  /-- the pending `send` is aborted, in Rust by dropping its future -/
  | abort (reason : String) : HandlerEvent τ κ
  /-- `stop` is called (TypeScript; in Rust it consumes the handler) -/
  | stop : HandlerEvent τ κ

/-! ## The sequence filter -/

/-- `SnFilter`. Identity and number are set together. -/
@[ext] structure SnFilter : Type where
  /-- whose messages are filtered -/
  nodeId : Option NodeId
  /-- the last number let through -/
  lastSn : Option ℕ
  /-- both are set, or none -/
  paired : nodeId.isSome = lastSn.isSome

namespace SnFilter

/-- `SnFilter::new`. -/
def new : SnFilter := ⟨none, none, rfl⟩

/-- `SnFilter::next` (Rust): the filter afterwards, and whether the message passes. -/
def next (f : SnFilter) (nodeId : NodeId) (sn : ℕ) : SnFilter × Bool :=
  match hlast : f.lastSn with
  | none => (⟨some nodeId, some sn, rfl⟩, true)
  | some last =>
    if f.nodeId ≠ some nodeId then (f, false)
    else if sn ≤ last then (f, false)
    else ({ f with lastSn := some sn, paired := by rw [f.paired, hlast]; rfl }, true)

/-- `SnFilter.accept` (TypeScript). -/
def accept (f : SnFilter) (nodeId : NodeId) (sn : ℕ) : SnFilter × Bool :=
  match hid : f.nodeId, f.lastSn with
  | some id, some last =>
    if id ≠ nodeId then (f, false)
    else if sn ≤ last then (f, false)
    else ({ f with lastSn := some sn, paired := by rw [hid]; rfl }, true)
  | _, _ => (⟨some nodeId, some sn, rfl⟩, true)

/-- Nothing has passed yet. -/
theorem nodeId_eq_none {f : SnFilter} : f.nodeId = none ↔ f.lastSn = none := by
  rw [← Option.not_isSome_iff_eq_none, ← Option.not_isSome_iff_eq_none, f.paired]

theorem next_of_none {f : SnFilter} (h : f.lastSn = none) (nodeId : NodeId) (sn : ℕ) :
    f.next nodeId sn = (⟨some nodeId, some sn, rfl⟩, true) := by
  unfold next
  split
  · rfl
  · rename_i hlast
    exact absurd (h.symm.trans hlast) (by simp)

/-- **What the filter does**: the first message passes and sets the identity; after that
a message passes if it is of that identity and above the last number; a message that does
not pass leaves no trace. -/
theorem next_cases (f : SnFilter) (nodeId : NodeId) (sn : ℕ) :
    ((f.next nodeId sn).2 = true ∧ (f.next nodeId sn).1.nodeId = some nodeId ∧
      (f.next nodeId sn).1.lastSn = some sn ∧
      (f.nodeId = none ∨ f.nodeId = some nodeId) ∧ ∀ last ∈ f.lastSn, last < sn) ∨
    (f.next nodeId sn = (f, false) ∧ ∃ id last, f.nodeId = some id ∧ f.lastSn = some last ∧
      (id ≠ nodeId ∨ sn ≤ last)) := by
  cases hlast : f.lastSn with
  | none =>
    refine Or.inl ?_
    rw [next_of_none hlast]
    exact ⟨rfl, rfl, rfl, Or.inl (nodeId_eq_none.mpr hlast), fun last h => by cases h⟩
  | some last =>
    obtain ⟨id, hid⟩ : ∃ id, f.nodeId = some id := by
      rw [← Option.isSome_iff_exists, f.paired, hlast]
      rfl
    unfold next
    split
    · rename_i h
      exact absurd (hlast.symm.trans h) (by simp)
    · rename_i last' h
      obtain rfl : last = last' := Option.some.inj (hlast.symm.trans h)
      by_cases hne : f.nodeId ≠ some nodeId
      · rw [if_pos hne]
        refine Or.inr ⟨rfl, id, last, hid, rfl, Or.inl ?_⟩
        rintro rfl
        exact hne hid
      · rw [if_neg hne]
        by_cases hle : sn ≤ last
        · rw [if_pos hle]
          exact Or.inr ⟨rfl, id, last, hid, rfl, Or.inr hle⟩
        · rw [if_neg hle]
          refine Or.inl ⟨rfl, not_not.mp hne, rfl, Or.inr (not_not.mp hne), ?_⟩
          intro m hm
          obtain rfl := Option.some.inj hm
          exact Nat.not_le.mp hle

/-- The two filters are the same filter. -/
theorem accept_eq_next (f : SnFilter) (nodeId : NodeId) (sn : ℕ) :
    f.accept nodeId sn = f.next nodeId sn := by
  obtain ⟨id, last, paired⟩ := f
  cases id with
  | none =>
    cases last with
    | none => rfl
    | some last => cases paired
  | some id =>
    cases last with
    | none => cases paired
    | some last =>
      by_cases hid : id = nodeId
      · simp [accept, next, hid]
      · simp [accept, next, hid]

end SnFilter

/-! ## Rust -/

namespace Rs

/-- `try_send` on a queue, and whether there was room. -/
def trySend {α : Type} (capacity : ℕ) (queue : List α) (x : α) : List α × Bool :=
  if queue.length < capacity then (queue ++ [x], true) else (queue, false)

theorem trySend_cases {α : Type} (capacity : ℕ) (queue : List α) (x : α) :
    trySend capacity queue x = (queue ++ [x], true) ∨
      trySend capacity queue x = (queue, false) := by
  unfold trySend
  split
  · exact Or.inl rfl
  · exact Or.inr rfl

/-- A `send` in progress: `send_and_wait_ack_repeated`. -/
structure Sending (κ : Type) : Type where
  /-- the number of the message -/
  sn : ℕ
  /-- the encoded message -/
  wire : κ
  /-- whether the attempt has got as far as waiting for the acknowledgement -/
  waiting : Bool

/-- `TransportHandler`. -/
structure TransportHandler (τ κ : Type) : Type where
  /-- the number of the next message -/
  seqNumOut : ℕ
  /-- the identity of this endpoint -/
  nodeIdOut : NodeId
  /-- `sequence_filter_handle` -/
  sequenceFilter : SnFilter
  /-- the queue to the acknowledging task -/
  ackQ : List (TransportMsg τ)
  /-- the queue to the pending `send` -/
  incomingAck : List (TransportMsg τ)
  /-- the pending `send` -/
  sending : Option (Sending κ)

namespace TransportHandler

/-- `TransportHandler::new`. -/
def new (nodeId : NodeId) : TransportHandler τ κ where
  seqNumOut := 0
  nodeIdOut := nodeId
  sequenceFilter := .new
  ackQ := []
  incomingAck := []
  sending := none

/-- `ws_node_handle`. The acknowledgement is queued before the filter is asked. -/
def wsNodeHandle (codec : Codec τ κ) (h : TransportHandler τ κ) (msg : κ) :
    TransportHandler τ κ × List (Effect τ κ) :=
  match codec.decode msg with
  | .error _ => (h, [])
  | .ok (.normal sn nodeId payload) =>
    let (ackQ, queued) := trySend 16 h.ackQ (.ack sn nodeId)
    let (filter, passed) := h.sequenceFilter.next nodeId sn
    ({ h with ackQ := ackQ, sequenceFilter := filter },
      (if queued then [.ackQueued sn nodeId] else []) ++
        if passed then [.handled nodeId sn payload] else [])
  | .ok (.ack sn nodeId) =>
    ({ h with incomingAck := (trySend 16 h.incomingAck (.ack sn nodeId)).1 }, [])

/-- `send` up to its first await. -/
def send (codec : Codec τ κ) (h : TransportHandler τ κ) (payload : τ) :
    TransportHandler τ κ × List (Effect τ κ) :=
  let sn := h.seqNumOut
  let h := { h with seqNumOut := (h.seqNumOut + 1) % 2 ^ 32 }
  match codec.encode (.normal sn h.nodeIdOut payload) with
  | .error err => (h, [.sent sn payload, .returned sn (.error err)])
  | .ok wire => ({ h with sending := some ⟨sn, wire, false⟩ }, [.sent sn payload])

/-- One step of the handler, its acknowledging task, or its pending `send`. -/
def step (codec : Codec τ κ) (h : TransportHandler τ κ) :
    HandlerEvent τ κ → Option (TransportHandler τ κ × List (Effect τ κ))
  | .send payload _ =>
    -- `&mut self`: one `send` at a time
    if h.sending.isNone then some (h.send codec payload) else none
  | .transmit ok =>
    -- `ws_node.send`, at first, after a timeout, or after an error
    match h.sending with
    | some s =>
      if ok then some ({ h with sending := some { s with waiting := true } }, [.wire s.wire none])
      else some ({ h with sending := some { s with waiting := false } }, [])
    | none => none
  | .receive frame _ => some (h.wsNodeHandle codec frame)
  | .ackTask =>
    match h.ackQ with
    | ack :: ackQ =>
      match codec.encode ack, ack with
      | .ok wire, .ack _ nodeId => some ({ h with ackQ := ackQ }, [.wire wire (some nodeId)])
      | .ok wire, .normal _ _ _ => some ({ h with ackQ := ackQ }, [.wire wire none])
      | .error _, _ => some ({ h with ackQ := ackQ }, [])
    | [] => none
  | .recvAck =>
    match h.sending, h.incomingAck with
    | some s, ack :: incomingAck =>
      if s.waiting then
        match ack with
        | .ack sn _ =>
          if sn = s.sn then
            some ({ h with sending := none, incomingAck := incomingAck }, [.returned sn (.ok ())])
          else some ({ h with incomingAck := incomingAck }, [])
        | .normal _ _ _ => some ({ h with incomingAck := incomingAck }, [])
      else none
    | _, _ => none
  | .abort _ => if h.sending.isSome then some ({ h with sending := none }, []) else none
  | .stop => none

end TransportHandler

end Rs

/-! ## TypeScript -/

namespace Ts

/-- `awaited_delivery`, with the message that `resend` has captured. -/
structure AwaitedDelivery (τ : Type) : Type where
  /-- the number of the message -/
  sn : ℕ
  /-- the message -/
  msg : TransportMsg τ

/-- `TransportHandler`. -/
structure TransportHandler (τ : Type) : Type where
  /-- the delivery in progress -/
  awaitedDelivery : Option (AwaitedDelivery τ)
  /-- the number of the last message, which JavaScript counts exactly up to `2 ^ 53` -/
  seqNumOut : ℕ
  /-- the identity of this endpoint -/
  nodeIdOut : NodeId
  /-- whether `signal` is aborted -/
  aborted : Bool
  /-- `sn_filter` -/
  snFilter : SnFilter

namespace TransportHandler

/-- The constructor. -/
def new (nodeId : NodeId) : TransportHandler τ where
  awaitedDelivery := none
  seqNumOut := 0
  nodeIdOut := nodeId
  aborted := false
  snFilter := .new

/-- `sender`: encode a message and pass it to the carrier; `none` when either throws. -/
def sender (codec : Codec τ κ) (ok : Bool) (msg : TransportMsg τ) : Option κ :=
  if ok then (codec.encode msg).toOption else none

/-- `handle_incoming`, after decoding. The acknowledgement goes out before the filter is
asked, under this endpoint's own identity. -/
def handleIncoming (codec : Codec τ κ) (h : TransportHandler τ) (ok : Bool) :
    TransportMsg τ → TransportHandler τ × List (Effect τ κ)
  | .ack sn _ =>
    match h.awaitedDelivery with
    | some awaited =>
      if awaited.sn = sn then ({ h with awaitedDelivery := none }, [.returned sn (.ok ())])
      else (h, [])
    | none => (h, [])
  | .normal sn nodeId payload =>
    let (filter, accepted) := h.snFilter.accept nodeId sn
    ({ h with snFilter := filter },
      (match sender codec ok (.ack sn h.nodeIdOut) with
        | some frame => [.ackQueued sn nodeId, .wire frame (some nodeId)]
        | none => []) ++
        if accepted then [.handled nodeId sn payload] else [])

/-- `abort_current_delivery`. -/
def abortCurrentDelivery (h : TransportHandler τ) (reason : String) :
    TransportHandler τ × List (Effect τ κ) :=
  match h.awaitedDelivery with
  | some awaited =>
    ({ h with awaitedDelivery := none }, [.returned awaited.sn (.error (.text reason))])
  | none => (h, [])

/-- `resend`: the sender may throw, and the timer is set again anyway. -/
def resend (codec : Codec τ κ) (ok : Bool) (msg : TransportMsg τ) : List (Effect τ κ) :=
  (sender codec ok msg).toList.map fun frame => .wire frame none

/-- `send`. -/
def send (codec : Codec τ κ) (h : TransportHandler τ) (payload : τ) (ok : Bool) :
    TransportHandler τ × List (Effect τ κ) :=
  if h.awaitedDelivery.isSome then (h, [.refused (.text "send already in progress")])
  else if h.aborted then (h, [.refused (.text "send aborted")])
  else
    let h := { h with seqNumOut := h.seqNumOut + 1 }
    let sn := h.seqNumOut
    let msg : TransportMsg τ := .normal sn h.nodeIdOut payload
    ({ h with awaitedDelivery := some ⟨sn, msg⟩ }, .sent sn payload :: resend codec ok msg)

/-- One step of the handler. -/
def step (codec : Codec τ κ) (h : TransportHandler τ) :
    HandlerEvent τ κ → Option (TransportHandler τ × List (Effect τ κ))
  | .send payload ok => some (h.send codec payload ok)
  | .transmit ok =>
    -- the resend timer
    match h.awaitedDelivery with
    | some awaited => some (h, resend codec ok awaited.msg)
    | none => none
  | .receive frame ok =>
    match codec.decode frame with
    | .ok msg => some (h.handleIncoming codec ok msg)
    | .error _ => some (h, [])
  | .abort reason => some (h.abortCurrentDelivery reason)
  | .stop =>
    let (h, effects) := h.abortCurrentDelivery "send aborted"
    some ({ h with aborted := true }, effects)
  | .ackTask => none
  | .recvAck => none

end TransportHandler

end Ts

/-! ## Endpoints of either kind -/

/-- The two implementations. -/
inductive Language : Type where
  /-- `ws_node_handler.rs` -/
  | rust
  /-- `transport_handler.ts` -/
  | typeScript
  deriving DecidableEq, Repr

/-- The number of the first message. -/
def Language.firstNumber : Language → ℕ
  | rust => 0
  | typeScript => 1

/-- The number after a number. -/
def Language.bump : Language → ℕ → ℕ
  | rust, n => (n + 1) % 2 ^ 32
  | typeScript, n => n + 1

/-- A transport handler in one of the two languages. -/
inductive Endpoint (τ κ : Type) : Type where
  /-- a Rust handler -/
  | rust (h : Rs.TransportHandler τ κ) : Endpoint τ κ
  /-- a TypeScript handler -/
  | typeScript (h : Ts.TransportHandler τ) : Endpoint τ κ

namespace Endpoint

/-- A new endpoint. -/
def new (language : Language) (nodeId : NodeId) : Endpoint τ κ :=
  match language with
  | .rust => .rust (.new nodeId)
  | .typeScript => .typeScript (.new nodeId)

/-- One step of an endpoint. -/
def step (codec : Codec τ κ) : Endpoint τ κ → HandlerEvent τ κ →
    Option (Endpoint τ κ × List (Effect τ κ))
  | .rust h, e => (h.step codec e).map (Prod.map .rust id)
  | .typeScript h, e => (h.step codec e).map (Prod.map .typeScript id)

/-- What the two kinds of endpoints have in common. -/
structure View (τ κ : Type) : Type where
  /-- the implementation -/
  language : Language
  /-- the identity -/
  nodeId : NodeId
  /-- the number of the next message -/
  next : ℕ
  /-- the number of the pending message, and the frame that is sent for it -/
  pending : Option (ℕ × MyRes κ)
  /-- the sequence filter -/
  filter : SnFilter
  /-- acknowledgements to be sent -/
  ackQ : List (TransportMsg τ)
  /-- acknowledgements to be taken by the pending `send` -/
  incomingAck : List (TransportMsg τ)

/-- The view of an endpoint. -/
def view (codec : Codec τ κ) : Endpoint τ κ → View τ κ
  | .rust h =>
    { language := .rust
      nodeId := h.nodeIdOut
      next := h.seqNumOut
      pending := h.sending.map fun s => (s.sn, .ok s.wire)
      filter := h.sequenceFilter
      ackQ := h.ackQ
      incomingAck := h.incomingAck }
  | .typeScript h =>
    { language := .typeScript
      nodeId := h.nodeIdOut
      next := h.seqNumOut + 1
      pending := h.awaitedDelivery.map fun a => (a.sn, codec.encode a.msg)
      filter := h.snFilter
      ackQ := []
      incomingAck := [] }

/-- **What a step can do**, in either language: the event, the view before, the view
after, and the effects. -/
inductive Move (codec : Codec τ κ) (v : View τ κ) :
    HandlerEvent τ κ → View τ κ → List (Effect τ κ) → Prop where
  /-- `send` numbers a payload, and waits for it unless it cannot be encoded -/
  | sent (payload : τ) (ok waits : Bool) (effects : List (Effect τ κ)) (free : v.pending = none)
      (rest : ∀ eff ∈ effects,
        (∃ frame, eff = .wire frame none ∧
          codec.encode (.normal v.next v.nodeId payload) = .ok frame) ∨
        ∃ err, eff = .returned v.next (.error err)) :
      Move codec v (.send payload ok)
        { v with
          next := v.language.bump v.next
          pending :=
            if waits then some (v.next, codec.encode (.normal v.next v.nodeId payload)) else none }
        (.sent v.next payload :: effects)
  /-- `send` refuses a payload -/
  | refused {payload : τ} {ok : Bool} (err : MyErr) :
      Move codec v (.send payload ok) v [.refused err]
  /-- the pending frame goes out, or does not -/
  | transmitted {ok : Bool} {sn : ℕ} {res : MyRes κ} {effects : List (Effect τ κ)}
      (busy : v.pending = some (sn, res))
      (frames : ∀ eff ∈ effects, ∃ frame, eff = .wire frame none ∧ res = .ok frame) :
      Move codec v (.transmit ok) v effects
  /-- a message comes in: it is acknowledged, if the carrier or the queue takes the
  acknowledgement, and passed on, if the filter lets it through -/
  | normal {frame : κ} {ok : Bool} {sn : ℕ} {nodeId : NodeId} {payload : τ}
      {ackQ : List (TransportMsg τ)} {acks : List (Effect τ κ)}
      (decoded : codec.decode frame = .ok (.normal sn nodeId payload))
      (queue : ackQ = v.ackQ ∨ ackQ = v.ackQ ++ [.ack sn nodeId])
      (acks_of : ∀ eff ∈ acks, eff = .ackQueued sn nodeId ∨
        ∃ id frame', eff = .wire frame' (some nodeId) ∧ codec.encode (.ack sn id) = .ok frame') :
      Move codec v (.receive frame ok)
        { v with filter := (v.filter.next nodeId sn).1, ackQ := ackQ }
        (acks ++ if (v.filter.next nodeId sn).2 then [.handled nodeId sn payload] else [])
  /-- an acknowledgement comes in and is queued or ignored -/
  | ack {frame : κ} {ok : Bool} {sn : ℕ} {nodeId : NodeId} {incomingAck : List (TransportMsg τ)}
      (decoded : codec.decode frame = .ok (.ack sn nodeId))
      (queue : incomingAck = v.incomingAck ∨ incomingAck = v.incomingAck ++ [.ack sn nodeId]) :
      Move codec v (.receive frame ok) { v with incomingAck := incomingAck } []
  /-- an acknowledgement comes in and completes the pending `send` (TypeScript) -/
  | acked {frame : κ} {ok : Bool} {sn : ℕ} {nodeId : NodeId} {res : MyRes κ}
      (here : v.language = .typeScript) (decoded : codec.decode frame = .ok (.ack sn nodeId))
      (busy : v.pending = some (sn, res)) :
      Move codec v (.receive frame ok) { v with pending := none } [.returned sn (.ok ())]
  /-- a frame comes in that nothing can be made of -/
  | garbage {frame : κ} {ok : Bool} {err : MyErr} (decoded : codec.decode frame = .error err) :
      Move codec v (.receive frame ok) v []
  /-- a queued acknowledgement goes out, or cannot be encoded -/
  | ackSent {m : TransportMsg τ} {ackQ : List (TransportMsg τ)} {effects : List (Effect τ κ)}
      (queue : v.ackQ = m :: ackQ)
      (frames : ∀ eff ∈ effects, ∃ frame answers, eff = .wire frame answers ∧
        codec.encode m = .ok frame ∧ ∀ sn nodeId, m = .ack sn nodeId → answers = some nodeId) :
      Move codec v .ackTask { v with ackQ := ackQ } effects
  /-- the pending `send` takes the acknowledgement it waits for -/
  | ackTaken {sn : ℕ} {nodeId : NodeId} {res : MyRes κ} {incomingAck : List (TransportMsg τ)}
      (queue : v.incomingAck = .ack sn nodeId :: incomingAck)
      (busy : v.pending = some (sn, res)) :
      Move codec v .recvAck { v with pending := none, incomingAck := incomingAck }
        [.returned sn (.ok ())]
  /-- the pending `send` takes a message that is not the one it waits for -/
  | ackSkipped {m : TransportMsg τ} {incomingAck : List (TransportMsg τ)}
      (queue : v.incomingAck = m :: incomingAck) :
      Move codec v .recvAck { v with incomingAck := incomingAck } []
  /-- the pending `send` is given up -/
  | aborted {e : HandlerEvent τ κ} {effects : List (Effect τ κ)}
      (event : (∃ reason, e = .abort reason) ∨ e = .stop)
      (errors : ∀ eff ∈ effects, ∃ sn err, eff = .returned sn (.error err)) :
      Move codec v e { v with pending := none } effects

variable {codec : Codec τ κ}

/-! ### Each function of a Rust handler makes a move -/

section Rust

variable {h h' : Rs.TransportHandler τ κ} {effects : List (Effect τ κ)}

theorem view_rust_busy {s : Rs.Sending κ} (hs : h.sending = some s) :
    (view codec (.rust h)).pending = some (s.sn, .ok s.wire) := by
  simp only [view, hs, Option.map_some]

/-- Getting on with an attempt does not show in the view. -/
theorem view_rust_waiting {s : Rs.Sending κ} (hs : h.sending = some s) (waiting : Bool) :
    view codec (.rust { h with sending := some { s with waiting := waiting } }) =
      view codec (.rust h) := by
  simp only [view, hs, Option.map_some]

theorem move_rust_send (codec : Codec τ κ) (payload : τ) (ok : Bool) (hnone : h.sending = none) :
    Move codec (view codec (.rust h)) (.send payload ok)
      (view codec (.rust (h.send codec payload).1)) (h.send codec payload).2 := by
  have hfree : (view codec (.rust h)).pending = none := by
    simp only [view, hnone, Option.map_none]
  cases hwire : codec.encode (.normal h.seqNumOut h.nodeIdOut payload) with
  | error err =>
    have hmove : Move codec (view codec (.rust h)) _ _ _ :=
      .sent payload ok false [.returned h.seqNumOut (.error err)] hfree
        fun eff heff => Or.inr ⟨err, List.mem_singleton.mp heff⟩
    simpa only [Rs.TransportHandler.send, hwire, view, Language.bump, hnone, Option.map_none,
      Bool.false_eq_true, if_false] using hmove
  | ok wire =>
    have hmove : Move codec (view codec (.rust h)) _ _ _ :=
      .sent payload ok true [] hfree fun eff heff => by cases heff
    simpa only [Rs.TransportHandler.send, view, Language.bump, hwire, if_true,
      Option.map_some] using hmove

theorem move_rust_transmit {ok : Bool} (hstep : h.step codec (.transmit ok) = some (h', effects)) :
    Move codec (view codec (.rust h)) (.transmit ok) (view codec (.rust h')) effects := by
  cases hs : h.sending with
  | none => simp [Rs.TransportHandler.step, hs] at hstep
  | some s =>
    cases ok with
    | true =>
      simp only [Rs.TransportHandler.step, hs, if_true, Option.some.injEq, Prod.mk.injEq] at hstep
      obtain ⟨rfl, rfl⟩ := hstep
      rw [view_rust_waiting hs]
      refine .transmitted (view_rust_busy hs) fun eff heff => ?_
      exact ⟨s.wire, List.mem_singleton.mp heff, rfl⟩
    | false =>
      simp only [Rs.TransportHandler.step, hs, Bool.false_eq_true, if_false, Option.some.injEq,
        Prod.mk.injEq] at hstep
      obtain ⟨rfl, rfl⟩ := hstep
      rw [view_rust_waiting hs]
      exact .transmitted (view_rust_busy hs) fun eff heff => by cases heff

/-- The two queues may be full; the filter is asked in any case. -/
theorem move_wsNodeHandle (codec : Codec τ κ) (h : Rs.TransportHandler τ κ) (frame : κ)
    (ok : Bool) :
    Move codec (view codec (.rust h)) (.receive frame ok)
      (view codec (.rust (h.wsNodeHandle codec frame).1)) (h.wsNodeHandle codec frame).2 := by
  cases hdec : codec.decode frame with
  | error err =>
    simp only [Rs.TransportHandler.wsNodeHandle, hdec]
    exact .garbage hdec
  | ok m =>
    cases m with
    | normal sn nodeId payload =>
      rcases Rs.trySend_cases 16 h.ackQ (TransportMsg.ack sn nodeId) with hq | hq
      · simp only [Rs.TransportHandler.wsNodeHandle, hdec, hq, if_true]
        exact .normal hdec (Or.inr rfl) fun eff heff => Or.inl (List.mem_singleton.mp heff)
      · simp only [Rs.TransportHandler.wsNodeHandle, hdec, hq, Bool.false_eq_true, if_false]
        exact .normal hdec (Or.inl rfl) fun eff heff => by cases heff
    | ack sn nodeId =>
      rcases Rs.trySend_cases 16 h.incomingAck (TransportMsg.ack sn nodeId) with hq | hq
      · simp only [Rs.TransportHandler.wsNodeHandle, hdec, hq]
        exact .ack hdec (Or.inr rfl)
      · simp only [Rs.TransportHandler.wsNodeHandle, hdec, hq]
        exact .ack hdec (Or.inl rfl)

theorem move_rust_ackTask (hstep : h.step codec .ackTask = some (h', effects)) :
    Move codec (view codec (.rust h)) .ackTask (view codec (.rust h')) effects := by
  cases hq : h.ackQ with
  | nil => simp [Rs.TransportHandler.step, hq] at hstep
  | cons m ackQ =>
    have hqueue : (view codec (.rust h)).ackQ = m :: ackQ := hq
    cases hwire : codec.encode m with
    | error err =>
      simp only [Rs.TransportHandler.step, hq, hwire, Option.some.injEq, Prod.mk.injEq] at hstep
      obtain ⟨rfl, rfl⟩ := hstep
      exact .ackSent hqueue fun eff heff => by cases heff
    | ok wire =>
      cases m with
      | ack sn nodeId =>
        simp only [Rs.TransportHandler.step, hq, hwire, Option.some.injEq, Prod.mk.injEq] at hstep
        obtain ⟨rfl, rfl⟩ := hstep
        refine .ackSent hqueue fun eff heff => ⟨wire, some nodeId, List.mem_singleton.mp heff,
          hwire, ?_⟩
        rintro _ _ ⟨⟩
        rfl
      | normal sn nodeId payload =>
        simp only [Rs.TransportHandler.step, hq, hwire, Option.some.injEq, Prod.mk.injEq] at hstep
        obtain ⟨rfl, rfl⟩ := hstep
        exact .ackSent hqueue fun eff heff => ⟨wire, none, List.mem_singleton.mp heff, hwire,
          fun _ _ hm => by cases hm⟩

/-- Whatever is taken from the queue leaves it; only the awaited number ends the `send`. -/
theorem move_rust_recvAck (hstep : h.step codec .recvAck = some (h', effects)) :
    Move codec (view codec (.rust h)) .recvAck (view codec (.rust h')) effects := by
  cases hs : h.sending with
  | none => simp [Rs.TransportHandler.step, hs] at hstep
  | some s =>
    cases hq : h.incomingAck with
    | nil => simp [Rs.TransportHandler.step, hs, hq] at hstep
    | cons m incomingAck =>
      have hqueue : (view codec (.rust h)).incomingAck = m :: incomingAck := hq
      have hskip : Move codec (view codec (.rust h)) .recvAck
          (view codec (.rust { h with incomingAck := incomingAck })) [] :=
        .ackSkipped hqueue
      simp only [Rs.TransportHandler.step, hs, hq, Option.ite_none_right_eq_some] at hstep
      rw [← hs] at hstep
      obtain ⟨-, hstep⟩ := hstep
      cases m with
      | ack sn nodeId =>
        by_cases hsn : sn = s.sn
        · subst hsn
          simp only [if_true, Option.some.injEq, Prod.mk.injEq] at hstep
          obtain ⟨rfl, rfl⟩ := hstep
          exact .ackTaken hqueue (view_rust_busy hs)
        · simp only [if_neg hsn, Option.some.injEq, Prod.mk.injEq] at hstep
          obtain ⟨rfl, rfl⟩ := hstep
          exact hskip
      | normal sn nodeId payload =>
        simp only [Option.some.injEq, Prod.mk.injEq] at hstep
        obtain ⟨rfl, rfl⟩ := hstep
        exact hskip

/-- A Rust step is a move. -/
theorem move_rust {e : HandlerEvent τ κ} (hstep : h.step codec e = some (h', effects)) :
    Move codec (view codec (.rust h)) e (view codec (.rust h')) effects := by
  cases e with
  | send payload ok =>
    simp only [Rs.TransportHandler.step, Option.ite_none_right_eq_some,
      Option.some.injEq] at hstep
    obtain ⟨hfree, hsend⟩ := hstep
    have hmove := move_rust_send codec payload ok (Option.isNone_iff_eq_none.mp hfree)
    rwa [hsend] at hmove
  | transmit ok => exact move_rust_transmit hstep
  | receive frame ok =>
    have hmove := move_wsNodeHandle codec h frame ok
    rwa [Option.some.inj hstep] at hmove
  | ackTask => exact move_rust_ackTask hstep
  | recvAck => exact move_rust_recvAck hstep
  | abort reason =>
    simp only [Rs.TransportHandler.step, Option.ite_none_right_eq_some, Option.some.injEq,
      Prod.mk.injEq] at hstep
    obtain ⟨-, rfl, rfl⟩ := hstep
    exact .aborted (Or.inl ⟨reason, rfl⟩) fun eff heff => by cases heff
  | stop => cases hstep

end Rust

/-! ### Each function of a TypeScript handler makes a move -/

section TypeScript

variable {h h' : Ts.TransportHandler τ} {effects : List (Effect τ κ)}

theorem view_typeScript_busy {awaited : Ts.AwaitedDelivery τ}
    (ha : h.awaitedDelivery = some awaited) :
    (view codec (.typeScript h)).pending = some (awaited.sn, codec.encode awaited.msg) := by
  simp only [view, ha, Option.map_some]

theorem sender_eq_some {ok : Bool} {msg : TransportMsg τ} {frame : κ}
    (h : Ts.TransportHandler.sender codec ok msg = some frame) : codec.encode msg = .ok frame := by
  cases ok with
  | true =>
    cases hwire : codec.encode msg with
    | ok frame' =>
      simp only [Ts.TransportHandler.sender, hwire, if_true] at h
      rw [Option.some.inj h]
    | error err =>
      simp only [Ts.TransportHandler.sender, hwire, if_true] at h
      cases h
  | false => cases h

/-- What `resend` puts out is the encoded message. -/
theorem resend_frames {ok : Bool} {msg : TransportMsg τ} {eff : Effect τ κ}
    (h : eff ∈ Ts.TransportHandler.resend codec ok msg) :
    ∃ frame, eff = .wire frame none ∧ codec.encode msg = .ok frame := by
  obtain ⟨frame, hframe, rfl⟩ := List.mem_map.mp h
  exact ⟨frame, rfl, sender_eq_some (Option.mem_toList.mp hframe)⟩

/-- Aborting the delivery in progress, in the view. -/
theorem abort_view (codec : Codec τ κ) (h : Ts.TransportHandler τ) (reason : String) :
    view codec (.typeScript (h.abortCurrentDelivery (κ := κ) reason).1) =
        { view codec (.typeScript h) with pending := none } ∧
      ∀ eff ∈ (h.abortCurrentDelivery (κ := κ) reason).2,
        ∃ sn err, eff = Effect.returned sn (.error err) := by
  cases ha : h.awaitedDelivery with
  | none =>
    simp only [Ts.TransportHandler.abortCurrentDelivery, ha, view, Option.map_none]
    exact ⟨trivial, fun eff heff => by cases heff⟩
  | some awaited =>
    simp only [Ts.TransportHandler.abortCurrentDelivery, ha, view, Option.map_none]
    exact ⟨trivial, fun eff heff => ⟨_, _, List.mem_singleton.mp heff⟩⟩

theorem move_typeScript_send (codec : Codec τ κ) (h : Ts.TransportHandler τ) (payload : τ)
    (ok : Bool) :
    Move codec (view codec (.typeScript h)) (.send payload ok)
      (view codec (.typeScript (h.send codec payload ok).1)) (h.send codec payload ok).2 := by
  cases ha : h.awaitedDelivery with
  | some awaited =>
    simp only [Ts.TransportHandler.send, ha, Option.isSome_some, if_true]
    exact .refused _
  | none =>
    cases hab : h.aborted with
    | true =>
      simp only [Ts.TransportHandler.send, ha, Option.isSome_none, Bool.false_eq_true, if_false,
        hab, if_true]
      exact .refused _
    | false =>
      simp only [Ts.TransportHandler.send, ha, Option.isSome_none, Bool.false_eq_true, if_false,
        hab]
      have hfree : (view codec (.typeScript h)).pending = none := by
        simp only [view, ha, Option.map_none]
      exact .sent payload ok true _ hfree fun eff heff => Or.inl (resend_frames heff)

theorem move_typeScript_transmit {ok : Bool}
    (hstep : h.step codec (.transmit ok) = some (h', effects)) :
    Move codec (view codec (.typeScript h)) (.transmit ok) (view codec (.typeScript h'))
      effects := by
  cases ha : h.awaitedDelivery with
  | none => simp [Ts.TransportHandler.step, ha] at hstep
  | some awaited =>
    simp only [Ts.TransportHandler.step, ha, Option.some.injEq, Prod.mk.injEq] at hstep
    obtain ⟨rfl, rfl⟩ := hstep
    exact .transmitted (view_typeScript_busy ha) fun eff heff => resend_frames heff

/-- An acknowledgement counts if its number is the one awaited. -/
theorem move_handleIncoming_ack (h : Ts.TransportHandler τ) (ok : Bool) {frame : κ} {sn : ℕ}
    {nodeId : NodeId} (hdec : codec.decode frame = .ok (.ack sn nodeId)) :
    Move codec (view codec (.typeScript h)) (.receive frame ok)
      (view codec (.typeScript (h.handleIncoming codec ok (.ack sn nodeId)).1))
      (h.handleIncoming codec ok (.ack sn nodeId)).2 := by
  have hquiet : Move codec (view codec (.typeScript h)) (.receive frame ok)
      (view codec (.typeScript h)) [] := .ack hdec (Or.inl rfl)
  cases ha : h.awaitedDelivery with
  | none =>
    simp only [Ts.TransportHandler.handleIncoming, ha]
    exact hquiet
  | some awaited =>
    simp only [Ts.TransportHandler.handleIncoming, ha]
    by_cases hsn : awaited.sn = sn
    · subst hsn
      simp only [if_true]
      exact .acked rfl hdec (view_typeScript_busy ha)
    · simp only [if_neg hsn]
      exact hquiet

/-- A message is acknowledged, if the carrier takes it, and offered to the filter. -/
theorem move_handleIncoming_normal (h : Ts.TransportHandler τ) (ok : Bool) {frame : κ} {sn : ℕ}
    {nodeId : NodeId} {payload : τ} (hdec : codec.decode frame = .ok (.normal sn nodeId payload)) :
    Move codec (view codec (.typeScript h)) (.receive frame ok)
      (view codec (.typeScript (h.handleIncoming codec ok (.normal sn nodeId payload)).1))
      (h.handleIncoming codec ok (.normal sn nodeId payload)).2 := by
  simp only [Ts.TransportHandler.handleIncoming, SnFilter.accept_eq_next]
  refine .normal hdec (Or.inl rfl) ?_
  intro eff heff
  cases hs : Ts.TransportHandler.sender codec ok (.ack sn h.nodeIdOut) with
  | none =>
    rw [hs] at heff
    cases heff
  | some frame' =>
    rw [hs] at heff
    rcases List.mem_cons.mp heff with rfl | heff
    · exact Or.inl rfl
    · exact Or.inr ⟨h.nodeIdOut, frame', List.mem_singleton.mp heff, sender_eq_some hs⟩

/-- A TypeScript step is a move. -/
theorem move_typeScript {e : HandlerEvent τ κ} (hstep : h.step codec e = some (h', effects)) :
    Move codec (view codec (.typeScript h)) e (view codec (.typeScript h')) effects := by
  cases e with
  | send payload ok =>
    have hmove := move_typeScript_send codec h payload ok
    rwa [Option.some.inj hstep] at hmove
  | transmit ok => exact move_typeScript_transmit hstep
  | receive frame ok =>
    cases hdec : codec.decode frame with
    | error err =>
      simp only [Ts.TransportHandler.step, hdec, Option.some.injEq, Prod.mk.injEq] at hstep
      obtain ⟨rfl, rfl⟩ := hstep
      exact .garbage hdec
    | ok m =>
      simp only [Ts.TransportHandler.step, hdec, Option.some.injEq] at hstep
      cases m with
      | ack sn nodeId =>
        have hmove := move_handleIncoming_ack h ok hdec
        rwa [hstep] at hmove
      | normal sn nodeId payload =>
        have hmove := move_handleIncoming_normal h ok hdec
        rwa [hstep] at hmove
  | abort reason =>
    obtain ⟨hview, herrors⟩ := abort_view codec h reason
    simp only [Ts.TransportHandler.step, Option.some.injEq] at hstep
    rw [hstep] at hview herrors
    rw [hview]
    exact .aborted (Or.inl ⟨reason, rfl⟩) herrors
  | stop =>
    obtain ⟨hview, herrors⟩ := abort_view codec h "send aborted"
    simp only [Ts.TransportHandler.step, Option.some.injEq, Prod.mk.injEq] at hstep
    obtain ⟨rfl, rfl⟩ := hstep
    have hview' : view codec (.typeScript { (h.abortCurrentDelivery (κ := κ) "send aborted").1 with
        aborted := true }) = { view codec (.typeScript h) with pending := none } := hview
    rw [hview']
    exact .aborted (Or.inr rfl) herrors
  | ackTask => cases hstep
  | recvAck => cases hstep

end TypeScript

/-- **Every step is a move**, in both languages. -/
theorem step_move {ep ep' : Endpoint τ κ} {e : HandlerEvent τ κ} {effects : List (Effect τ κ)}
    (h : ep.step codec e = some (ep', effects)) :
    Move codec (ep.view codec) e (ep'.view codec) effects := by
  cases ep with
  | rust h₁ =>
    obtain ⟨⟨h₂, effects₂⟩, hstep, heq⟩ := Option.map_eq_some_iff.mp h
    obtain ⟨rfl, rfl⟩ := Prod.mk.inj heq
    exact move_rust hstep
  | typeScript h₁ =>
    obtain ⟨⟨h₂, effects₂⟩, hstep, heq⟩ := Option.map_eq_some_iff.mp h
    obtain ⟨rfl, rfl⟩ := Prod.mk.inj heq
    exact move_typeScript hstep

/-! ### What a move shows

One case for each kind of move; the interesting ones are named in the statements. -/

section Inversion

variable {v v' : View τ κ} {e : HandlerEvent τ κ} {effects : List (Effect τ κ)}

theorem Move.nodeId_eq (h : Move codec v e v' effects) : v'.nodeId = v.nodeId := by
  cases h <;> rfl

theorem Move.language_eq (h : Move codec v e v' effects) : v'.language = v.language := by
  cases h <;> rfl

/-- A frame on the wire is a message, the acknowledgement of one that has just come in,
or a queued acknowledgement. -/
theorem Move.wire_cases {frame : κ} {answers : Option NodeId} (h : Move codec v e v' effects)
    (hmem : .wire frame answers ∈ effects) :
    (answers = none ∧ ((∃ payload, .sent v.next payload ∈ effects ∧
        codec.encode (.normal v.next v.nodeId payload) = .ok frame) ∨
      ∃ sn, v.pending = some (sn, .ok frame))) ∨
    (∃ frame₀ ok sn nodeId payload id, e = .receive frame₀ ok ∧
      codec.decode frame₀ = .ok (.normal sn nodeId payload) ∧ answers = some nodeId ∧
      codec.encode (.ack sn id) = .ok frame) ∨
    ∃ m ∈ v.ackQ, codec.encode m = .ok frame ∧
      ∀ sn nodeId, m = .ack sn nodeId → answers = some nodeId := by
  cases h <;> grind

/-- What is queued for sending was queued before, or acknowledges what has come in. -/
theorem Move.ackQ_cases (h : Move codec v e v' effects) {m : TransportMsg τ} (hm : m ∈ v'.ackQ) :
    m ∈ v.ackQ ∨ ∃ frame ok sn nodeId payload, e = .receive frame ok ∧
      codec.decode frame = .ok (.normal sn nodeId payload) ∧ m = .ack sn nodeId := by
  cases h <;> grind

/-- What is queued for the pending `send` was queued before, or has come in. -/
theorem Move.incomingAck_cases (h : Move codec v e v' effects) {m : TransportMsg τ}
    (hm : m ∈ v'.incomingAck) :
    m ∈ v.incomingAck ∨ ∃ frame ok sn nodeId, e = .receive frame ok ∧
      codec.decode frame = .ok (.ack sn nodeId) ∧ m = .ack sn nodeId := by
  cases h <;> grind

/-- A `send` returns `Ok` for an acknowledgement of its number: one that has just come in,
in TypeScript, or the next one in the queue. -/
theorem Move.returned_cases {k : ℕ} (h : Move codec v e v' effects)
    (hmem : .returned k (.ok ()) ∈ effects) :
    ∃ res, v.pending = some (k, res) ∧
      ((v.language = .typeScript ∧ ∃ frame ok nodeId, e = .receive frame ok ∧
          codec.decode frame = .ok (.ack k nodeId)) ∨
        e = .recvAck ∧ ∃ nodeId rest, v.incomingAck = .ack k nodeId :: rest) := by
  cases h <;> grind

/-- **The receiving side of a move**: a message comes in, and the filter decides; or
nothing. -/
theorem Move.receiver_cases (h : Move codec v e v' effs) :
    (∃ frame ok sn id payload, e = .receive frame ok ∧
      codec.decode frame = .ok (.normal sn id payload) ∧ v'.filter = (v.filter.next id sn).1 ∧
      effs.filter Effect.isHandled =
        if (v.filter.next id sn).2 then [.handled id sn payload] else []) ∨
    (v'.filter = v.filter ∧ effs.filter Effect.isHandled = [] ∧
      ∀ frame ok sn id payload, e = .receive frame ok →
        codec.decode frame ≠ .ok (.normal sn id payload)) := by
  cases h with
  | sent payload ok waits effects free rest =>
    refine Or.inr ⟨rfl, ?_, fun _ _ _ _ _ he => by cases he⟩
    refine Effect.filter_isHandled_eq_nil (List.forall_mem_cons.mpr ⟨rfl, fun eff heff => ?_⟩)
    rcases rest eff heff with ⟨frame, rfl, -⟩ | ⟨err, rfl⟩
    · rfl
    · rfl
  | refused err => exact Or.inr ⟨rfl, rfl, fun _ _ _ _ _ he => by cases he⟩
  | transmitted busy frames =>
    refine Or.inr ⟨rfl, Effect.filter_isHandled_eq_nil fun eff heff => ?_,
      fun _ _ _ _ _ he => by cases he⟩
    obtain ⟨frame, rfl, -⟩ := frames eff heff
    rfl
  | @normal frame ok sn id payload ackQ acks decoded queue acks_of =>
    refine Or.inl ⟨frame, ok, sn, id, payload, rfl, decoded, rfl, ?_⟩
    have hnil : acks.filter Effect.isHandled = [] := by
      refine Effect.filter_isHandled_eq_nil fun eff heff => ?_
      rcases acks_of eff heff with rfl | ⟨id', frame', rfl, -⟩
      · rfl
      · rfl
    rw [List.filter_append, hnil, List.nil_append]
    split
    · rfl
    · rfl
  | ack decoded queue =>
    refine Or.inr ⟨rfl, rfl, ?_⟩
    rintro _ _ _ _ _ ⟨⟩ hdec
    cases decoded.symm.trans hdec
  | acked here decoded busy =>
    refine Or.inr ⟨rfl, rfl, ?_⟩
    rintro _ _ _ _ _ ⟨⟩ hdec
    cases decoded.symm.trans hdec
  | garbage decoded =>
    refine Or.inr ⟨rfl, rfl, ?_⟩
    rintro _ _ _ _ _ ⟨⟩ hdec
    cases decoded.symm.trans hdec
  | ackSent queue frames =>
    refine Or.inr ⟨rfl, Effect.filter_isHandled_eq_nil fun eff heff => ?_,
      fun _ _ _ _ _ he => by cases he⟩
    obtain ⟨frame, answers, rfl, -⟩ := frames eff heff
    rfl
  | ackTaken queue busy => exact Or.inr ⟨rfl, rfl, fun _ _ _ _ _ he => by cases he⟩
  | ackSkipped queue => exact Or.inr ⟨rfl, rfl, fun _ _ _ _ _ he => by cases he⟩
  | aborted event errors =>
    refine Or.inr ⟨rfl, Effect.filter_isHandled_eq_nil fun eff heff => ?_, ?_⟩
    · obtain ⟨sn, err, rfl⟩ := errors eff heff
      rfl
    · rintro _ _ _ _ _ rfl
      rcases event with ⟨reason, he⟩ | he
      · cases he
      · cases he

end Inversion

end Endpoint

end Vamp
