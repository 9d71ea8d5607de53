import Vamp.MsgProcessor
import Vamp.Serde
import Vamp.TransportHandler

/-!
# Signals on the wire

How the messages of the signalling protocol are written as text, and how they are read: by the
backend, which wants to know the signal, and by the server, which wants to know the tag and
whether there is anything to forward.

A signal that has been written is forwarded, and is read as what it was, if and only if its room
has a name and its number has 32 bits (`signal_passes_iff`). More than what has been written may
be read, with its members in another order for example. Of that too, whatever the backend takes
for a signal is forwarded by the server, unless its room has no name (`forwarded_of_decoder`).

How a text is read as JSON is a parameter; what is written is assumed to be read again.
-/

namespace Vamp

open Serde Serde.Fields

variable {τ υ : Type}

/-! ## Writing -/

/-- The name of a `SignalKind`. -/
def SignalKind.name : SignalKind → String
  | offer => "offer"
  | answer => "answer"
  | iceCandidate => "ice-candidate"
  | localCandidate => "local-candidate"

/-- `SignalMsg` as JSON. -/
def SignalMsg.toJson (m : SignalMsg) : Json :=
  .obj [("type", .str m.kind.name), ("sdp", .str m.sdp), ("neg_id", .str m.negId)]

/-- `TransportMsg` as JSON. -/
def TransportMsg.toJson (payload : τ → Json) : TransportMsg τ → Json
  | ack sn nodeId => .obj [("type", .str "ack"), ("sn", .int sn), ("node_id", .str nodeId)]
  | normal sn nodeId a =>
    .obj [("type", .str "normal"), ("sn", .int sn), ("node_id", .str nodeId),
      ("payload", payload a)]

/-- `WireMsg` as JSON. -/
def WireMsg.toJson (payload : τ → Json) (w : WireMsg τ) : Json :=
  .obj [("tag", .str w.tag), ("message", w.message.elim .null (TransportMsg.toJson payload))]

/-- `to_wire_msg`. Without a message, it is a registration. -/
def toWireMsg (rtt : RoutingTag) (msg : Option (TransportMsg SignalMsg)) : Message :=
  .text ((WireMsg.mk rtt msg).toJson SignalMsg.toJson).write

/-! ## Reading -/

/-- The `SignalKind` of a name. -/
def SignalKind.ofName : String → Option SignalKind
  | "offer" => some offer
  | "answer" => some answer
  | "ice-candidate" => some iceCandidate
  | "local-candidate" => some localCandidate
  | _ => none

/-- `SignalKind` from JSON. -/
def SignalKind.read : Reader SignalKind := fun j => (variant j).bind ofName

/-- `SignalMsg` from JSON. -/
def SignalMsg.read : Reader SignalMsg :=
  (SignalMsg.mk <$> required "type" SignalKind.read <*> required "sdp" string <*>
    required "neg_id" string).read

namespace TransportMsg

/-- The fields of an acknowledgement. -/
def ackFields : Fields (TransportMsg τ) :=
  ack <$> required "sn" u32 <*> required "node_id" string

/-- The fields of a message with a payload. -/
def normalFields (payload : Reader τ) : Fields (TransportMsg τ) :=
  normal <$> required "sn" u32 <*> required "node_id" string <*> required "payload" payload

/-- The content of a variant. -/
def readVariant (payload : Reader τ) (name : String) : Reader (TransportMsg τ) := fun content =>
  match name with
  | "ack" => ackFields.read content
  | "normal" => (normalFields payload).read content
  | _ => none

/-- `TransportMsg` from JSON. -/
protected def read (payload : Reader τ) : Reader (TransportMsg τ) := fun j => do
  let (tag, content) ← tagInside "type" j
  let name ← string tag
  readVariant payload name content

end TransportMsg

/-- The fields of a `WireMsg`. -/
def WireMsg.fields (payload : Reader τ) : Fields (WireMsg τ) :=
  WireMsg.mk <$> required "tag" string <*> optional "message" (TransportMsg.read payload)

/-- How a text is read as JSON. -/
structure JsonText : Type where
  /-- the value of a text, if it has one -/
  parse : String → Option Json
  /-- what is written is read again: in what is sent, these are texts and 32-bit numbers -/
  parse_write : ∀ j : Json, parse j.write = some j

/-- There is such a reader. -/
noncomputable def JsonText.inverse : JsonText where
  parse := Function.partialInv Json.write
  parse_write j := (Function.Injective.isPartialInv (fun _ _ => Json.write_injective) j _).mpr rfl

/-- `from_wire_msg`. -/
def fromWireMsg (text : JsonText) (raw : String) : Option (TransportMsg SignalMsg) :=
  ((text.parse raw).bind (WireMsg.fields SignalMsg.read).read).bind WireMsg.message

/-- What the server reads: any payload will do. -/
def serverReads (text : JsonText) (raw : String) : Option (WireMsg Json) :=
  (text.parse raw).bind (WireMsg.fields some).read

/-- The kind of a message that is not a text. -/
def Message.typeName : Message → String
  | .text _ => "text"
  | .binary _ => "binary"
  | .ping _ => "ping"
  | .pong _ => "pong"
  | .close => "close"
  | .frame _ => "frame"

/-- The decoder of the backend's connector. -/
def Rs.RtcConnector.decoder (text : JsonText) : Message → MyRes (TransportMsg SignalMsg)
  | .text raw =>
    match fromWireMsg text raw with
    | some m => .ok m
    | none => .error (.text ("invalid signalling message: " ++ raw))
  | message => .error (.text ("expected text signalling message: " ++ message.typeName))

open Rs.RtcConnector

variable {text : JsonText}

theorem decoder_eq_ok {message : Message} {m : TransportMsg SignalMsg} :
    decoder text message = .ok m ↔ ∃ raw, message = .text raw ∧ fromWireMsg text raw = some m := by
  cases message with
  | text raw =>
    cases h : fromWireMsg text raw <;> simp [decoder, h]
  | _ => simp [decoder]

/-! ## What is written -/

/-- The message with another payload. -/
def TransportMsg.map (f : τ → υ) : TransportMsg τ → TransportMsg υ
  | ack sn nodeId => ack sn nodeId
  | normal sn nodeId a => normal sn nodeId (f a)

theorem TransportMsg.map_id (m : TransportMsg τ) : m.map id = m := by
  cases m <;> rfl

theorem u32_natCast (n : ℕ) : u32 (.int n) = if n < UInt32.size then some n else none := rfl

theorem SignalMsg.read_toJson (m : SignalMsg) : SignalMsg.read m.toJson = some m := by
  obtain ⟨kind, sdp, negId⟩ := m
  cases kind <;> rfl

section Written

variable {payload : τ → Json} {read : Reader υ} {f : τ → υ}

/-- A message is read if its number has 32 bits. -/
theorem TransportMsg.read_toJson (h : ∀ a, read (payload a) = some (f a)) (m : TransportMsg τ) :
    TransportMsg.read read (m.toJson payload) =
      if m.sn < UInt32.size then some (m.map f) else none := by
  cases m with
  | ack sn nodeId =>
    have hread : TransportMsg.read read ((ack sn nodeId).toJson payload) =
        ((u32 (.int sn)).bind fun sn => some (ack sn)).bind fun g => some (g nodeId) := rfl
    rw [hread, u32_natCast]
    change _ = if sn < UInt32.size then _ else _
    split <;> rfl
  | normal sn nodeId a =>
    have hread : TransportMsg.read read ((normal sn nodeId a).toJson payload) =
        (((u32 (.int sn)).bind fun sn => some (normal sn)).bind fun g => some (g nodeId)).bind
          fun g => (read (payload a)).bind fun b => some (g b) := rfl
    rw [hread, h, u32_natCast]
    change _ = if sn < UInt32.size then _ else _
    split <;> rfl

theorem WireMsg.read_toJson_some (h : ∀ a, read (payload a) = some (f a)) (tag : RoutingTag)
    (m : TransportMsg τ) : (fields read).read ((WireMsg.mk tag (some m)).toJson payload) =
      if m.sn < UInt32.size then some ⟨tag, some (m.map f)⟩ else none := by
  have hread : (fields read).read ((WireMsg.mk tag (some m)).toJson payload) =
      (option (TransportMsg.read read) (m.toJson payload)).bind fun message =>
        some ⟨tag, message⟩ := rfl
  have hoption : option (TransportMsg.read read) (m.toJson payload) =
      (TransportMsg.read read (m.toJson payload)).map some := by
    cases m <;> rfl
  rw [hread, hoption, TransportMsg.read_toJson h]
  split <;> rfl

end Written

theorem fromWireMsg_write (tag : RoutingTag) (m : TransportMsg SignalMsg) :
    fromWireMsg text ((WireMsg.mk tag (some m)).toJson SignalMsg.toJson).write =
      if m.sn < UInt32.size then some m else none := by
  have hid : ∀ a, SignalMsg.read a.toJson = some (id a) := SignalMsg.read_toJson
  rw [fromWireMsg, text.parse_write, Option.bind_some, WireMsg.read_toJson_some hid,
    TransportMsg.map_id]
  split <;> rfl

theorem serverReads_write (tag : RoutingTag) (m : TransportMsg SignalMsg) :
    serverReads text ((WireMsg.mk tag (some m)).toJson SignalMsg.toJson).write =
      if m.sn < UInt32.size then some ⟨tag, some (m.map SignalMsg.toJson)⟩ else none := by
  have hsome : ∀ a : SignalMsg, some a.toJson = some a.toJson := fun _ => rfl
  rw [serverReads, text.parse_write, Option.bind_some, WireMsg.read_toJson_some hsome]

theorem parseIncoming_of_some {V : Type} {fromStr : String → Option (WireMsg V)} {raw : String}
    {w : WireMsg V} (h : fromStr raw = some w) :
    parseIncoming fromStr (.text raw) =
      if w.tag.isEmpty then .error (.text "empty routing tag")
      else .ok ⟨w.tag, w.message.isSome⟩ := by
  simp only [parseIncoming, bind, Except.bind, h]

theorem parseIncoming_of_none {V : Type} {fromStr : String → Option (WireMsg V)} {raw : String}
    (h : fromStr raw = none) : parseIncoming fromStr (.text raw) =
      .error (.text ("invalid signalling message: " ++ raw)) := by
  simp only [parseIncoming, bind, Except.bind, h]

/-- **What the server takes** of what is written. -/
theorem parseIncoming_toWireMsg_iff {tag : RoutingTag} {msg : Option (TransportMsg SignalMsg)}
    {parsed : ParsedMessage} :
    parseIncoming (serverReads text) (toWireMsg tag msg) = .ok parsed ↔
      tag ≠ "" ∧ ⟨tag, msg.isSome⟩ = parsed ∧ ∀ m ∈ msg, m.sn < UInt32.size := by
  cases msg with
  | none =>
    have hread : serverReads text ((WireMsg.mk tag none).toJson SignalMsg.toJson).write =
        some ⟨tag, none⟩ := by
      rw [serverReads, text.parse_write]
      rfl
    rw [toWireMsg, parseIncoming_of_some hread]
    by_cases htag : tag = "" <;> simp [htag]
  | some m =>
    by_cases hsn : m.sn < UInt32.size
    · rw [toWireMsg, parseIncoming_of_some ((serverReads_write tag m).trans (if_pos hsn))]
      by_cases htag : tag = "" <;> simp [hsn, htag]
    · rw [toWireMsg, parseIncoming_of_none ((serverReads_write tag m).trans (if_neg hsn))]
      simp [hsn]

/-- **What the backend reads** of what is written. -/
theorem decoder_toWireMsg_eq_ok {tag : RoutingTag} {m m' : TransportMsg SignalMsg} :
    decoder text (toWireMsg tag (some m)) = .ok m' ↔ m.sn < UInt32.size ∧ m = m' := by
  rw [toWireMsg, decoder, fromWireMsg_write]
  by_cases hsn : m.sn < UInt32.size <;> simp [hsn]

/-- **A signal passes** the server and is read as what it was, if and only if its room has a name
and its number has 32 bits. -/
theorem signal_passes_iff (text : JsonText) (tag : RoutingTag) (m : TransportMsg SignalMsg) :
    parseIncoming (serverReads text) (toWireMsg tag (some m)) = .ok ⟨tag, true⟩ ∧
        decoder text (toWireMsg tag (some m)) = .ok m ↔
      tag ≠ "" ∧ m.sn < UInt32.size := by
  constructor
  · rintro ⟨hparse, -⟩
    obtain ⟨htag, -, hsn⟩ := parseIncoming_toWireMsg_iff.mp hparse
    exact ⟨htag, hsn m rfl⟩
  · rintro ⟨htag, hsn⟩
    refine ⟨parseIncoming_toWireMsg_iff.mpr ⟨htag, rfl, ?_⟩, ?_⟩
    · rintro _ ⟨⟩
      exact hsn
    · exact decoder_toWireMsg_eq_ok.mpr ⟨hsn, rfl⟩

/-- The codec of the backend's connector. -/
def signallingCodec (text : JsonText) (tag : RoutingTag) : Codec SignalMsg Message where
  encode m := .ok (toWireMsg tag (some m))
  decode := decoder text
  faithful hencode hdecode := by
    obtain rfl := Except.ok.inj hencode
    exact (decoder_toWireMsg_eq_ok.mp hdecode).2.symm

/-! ## What is read -/

/-- Of a payload, the server only wants to know that it is there. -/
theorem refines_some (payload : Reader τ) : Refines (fun _ _ => True) payload some :=
  fun j _ _ => ⟨j, rfl, trivial⟩

namespace TransportMsg

theorem refines_ackFields :
    (ackFields : Fields (TransportMsg τ)).Refines (fun _ _ => True)
      (ackFields : Fields (TransportMsg υ)) := by
  have hsn : (required "sn" u32).Refines Eq (required "sn" u32) := .required (.refl u32)
  have hnode : (required "node_id" string).Refines Eq (required "node_id" string) :=
    .required (.refl string)
  exact .seq (.map (fun _ _ _ _ _ _ => trivial) hsn) hnode

theorem refines_normalFields (payload : Reader τ) :
    (normalFields payload).Refines (fun _ _ => True) (normalFields some) := by
  have hsn : (required "sn" u32).Refines Eq (required "sn" u32) := .required (.refl u32)
  have hnode : (required "node_id" string).Refines Eq (required "node_id" string) :=
    .required (.refl string)
  have hpayload : (required "payload" payload).Refines (fun _ _ => True)
      (required "payload" some) := .required (refines_some payload)
  exact .seq (.seq (.map (fun _ _ _ _ _ _ _ _ _ => trivial) hsn) hnode) hpayload

theorem refines_read (payload : Reader τ) :
    Refines (fun _ _ => True) (TransportMsg.read payload) (TransportMsg.read some) := by
  intro j m hread
  obtain ⟨⟨tag, content⟩, htag, hread⟩ := Option.bind_eq_some_iff.mp hread
  obtain ⟨name, hname, hread⟩ := Option.bind_eq_some_iff.mp hread
  obtain ⟨m', hm', -⟩ : ∃ m', readVariant some name content = some m' ∧ True := by
    unfold readVariant at hread ⊢
    split at hread
    · exact refines_ackFields.read content m hread
    · exact (refines_normalFields payload).read content m hread
    · cases hread
  refine ⟨m', Option.bind_eq_some_iff.mpr ⟨_, htag, ?_⟩, trivial⟩
  exact Option.bind_eq_some_iff.mpr ⟨name, hname, hm'⟩

end TransportMsg

/-- The server finds the same tag, and a message where there is one. -/
theorem WireMsg.refines_fields (payload : Reader τ) :
    (fields payload).Refines
      (fun w w' => w.tag = w'.tag ∧ w.message.isSome = w'.message.isSome) (fields some) := by
  have htag : (required "tag" string).Refines Eq (required "tag" string) :=
    .required (.refl string)
  have hmessage : (optional "message" (TransportMsg.read payload)).Refines
      (Option.Rel fun _ _ => True) (optional "message" (TransportMsg.read some)) :=
    .optional (TransportMsg.refines_read payload)
  refine .seq (.map ?_ htag) hmessage
  rintro tag _ rfl message message' h
  refine ⟨rfl, ?_⟩
  cases h <;> rfl

/-- **Whatever is taken for a signal is forwarded**, if its room has a name. -/
theorem forwarded_of_decoder {message : Message} {m : TransportMsg SignalMsg}
    (h : decoder text message = .ok m) :
    ∃ tag, parseIncoming (serverReads text) message =
      if tag = "" then .error (.text "empty routing tag") else .ok ⟨tag, true⟩ := by
  obtain ⟨raw, rfl, hread⟩ := decoder_eq_ok.mp h
  obtain ⟨w, hw, hm⟩ := Option.bind_eq_some_iff.mp hread
  obtain ⟨j, hj, hw⟩ := Option.bind_eq_some_iff.mp hw
  obtain ⟨w', hw', htag, hsome⟩ := (WireMsg.refines_fields SignalMsg.read).read j w hw
  have hserver : serverReads text raw = some w' := Option.bind_eq_some_iff.mpr ⟨j, hj, hw'⟩
  rw [hm] at hsome
  refine ⟨w'.tag, ?_⟩
  rw [parseIncoming_of_some hserver]
  simp [← hsome]

/-- An acknowledgement with its members in another order, and one more. -/
def reordered : Json :=
  .obj [("message", .obj [("node_id", .str "browser"), ("sn", .int 0), ("sent", .bool true),
    ("type", .str "ack")]), ("tag", .str "r")]

theorem forwarded_of_decoder_reordered :
    ∃ tag, parseIncoming (serverReads .inverse) (.text reordered.write) =
      if tag = "" then .error (.text "empty routing tag") else .ok ⟨tag, true⟩ := by
  have hread : decoder .inverse (.text reordered.write) = .ok (.ack 0 "browser") := by
    refine decoder_eq_ok.mpr ⟨_, rfl, ?_⟩
    rw [fromWireMsg, JsonText.parse_write]
    rfl
  exact forwarded_of_decoder hread

end Vamp
