import Mathlib.Algebra.Group.Nat.Defs
import Mathlib.Data.Nat.Notation

/-!
# Messages and errors shared by both programs

`transport_types.rs`, its TypeScript twin `generatedTypes.ts`, and the result
type of `commands/common.rs`. Sequence numbers are `u32` in Rust and numbers in
TypeScript; both are `ℕ` here, and the wrap-around of the Rust counter is written
out where the counter is advanced.
-/

namespace Vamp

universe u

/-! ## Errors -/

/-- `MyErr`: a boxed error. Only errors that the program builds itself are
inspected, so an error is the text it was made from, or the parts that
`build_err` formats as `[cid={} rtt_tag={:?}]: {}`. -/
inductive MyErr : Type where
  /-- an error made from a plain text -/
  | text : String → MyErr
  /-- an error of the routing layer: connection id, routing tag, text -/
  | routed : ℕ → String → String → MyErr
  deriving DecidableEq, Repr

/-- `MyRes<T>`. -/
abbrev MyRes (α : Type u) : Type u := Except MyErr α

/-! ## Time -/

/-- `std::time::Instant`, in nanoseconds since some origin. -/
abbrev Instant : Type := ℕ

/-- `Duration::from_secs`, in nanoseconds. -/
def fromSecs (s : ℕ) : ℕ := s * 1000000000

/-! ## Transport messages -/

/-- The identity a transport endpoint draws when it is created (a UUID). -/
abbrev NodeId : Type := String

/-- `TransportMsg<T>`: a payload, or the acknowledgement of one. -/
inductive TransportMsg (α : Type u) : Type u where
  /-- acknowledges the message with this number -/
  | ack (sn : ℕ) (nodeId : NodeId) : TransportMsg α
  /-- carries a payload -/
  | normal (sn : ℕ) (nodeId : NodeId) (payload : α) : TransportMsg α
  deriving DecidableEq, Repr

/-- `TransportMsg::sn`. -/
def TransportMsg.sn {α : Type u} : TransportMsg α → ℕ
  | ack sn _ | normal sn _ _ => sn

/-- `WireMsg<T>`: what goes through the signalling server. A missing message
only registers its sender under the tag. -/
structure WireMsg (α : Type u) : Type u where
  /-- the routing tag -/
  tag : String
  /-- the transported message, if any -/
  message : Option (TransportMsg α)
  deriving DecidableEq, Repr

/-! ## Signalling messages -/

/-- `SignalKind`. -/
inductive SignalKind : Type where
  /-- a session description offered by the browser -/
  | offer
  /-- the backend's reply to an offer -/
  | answer
  /-- a candidate of the other peer -/
  | iceCandidate
  /-- a candidate of this peer, not yet sent -/
  | localCandidate
  deriving DecidableEq, Repr

/-- `SignalMsg`. -/
structure SignalMsg : Type where
  /-- the field `type` on the wire -/
  kind : SignalKind
  /-- a session description, or a serialized candidate -/
  sdp : String
  /-- the negotiation the message belongs to -/
  negId : String
  deriving DecidableEq, Repr

end Vamp
