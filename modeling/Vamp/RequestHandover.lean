import Vamp.Deliveries
import Vamp.DispatchClient

/-!
# Requests that are not taken

The two kinds of `Connection` under a `DispatchClient`, and what becomes of a request that they do
not take. A `WSConnection` throws an error, or drops the request without a word, as its socket
does. `DataTransport` returns a promise that has been rejected, at which nobody looks. In none of
these cases is the entry of the request removed from `pending` (`fails_cleanly_iff`): it stays
until a response comes in for a request that was never sent (`forsaken`).
-/

namespace Vamp

namespace Ts

variable {κ τ μ φ : Type}

/-- `readyState` of a `WebSocket`. -/
inductive ReadyState : Type where
  | connecting
  | open
  | closing
  | closed
  deriving DecidableEq

/-- What becomes of a message that is given to a connection. -/
inductive Handover : Type where
  /-- it is on its way -/
  | taken
  /-- it is not, and `send` returns -/
  | dropped
  /-- it is not, and `send` throws an error of this name -/
  | thrown (name : String)
  deriving DecidableEq

/-- The error that is thrown. -/
def Handover.thrown? : Handover → Option String
  | .thrown name => some name
  | .taken | .dropped => none

/-- `send` of a `WebSocket`. -/
def ReadyState.send : ReadyState → Handover
  | .connecting => .thrown "InvalidStateError"
  | .open => .taken
  | .closing | .closed => .dropped

/-- `WSConnection`. -/
structure WSConnection : Type where
  /-- `ws`, before `connect` and after `close` there is none -/
  ws : Option ReadyState

/-- `WSConnection::send`. `stringify` is `JSON.stringify`. -/
def WSConnection.send (stringify : μ → Except String String) (connection : WSConnection) (msg : μ) :
    Handover :=
  match connection.ws with
  | none => .thrown "TypeError"
  | some ws =>
    match stringify msg with
    | .error name => .thrown name
    | .ok _ => ws.send

/-- `DataTransport`. -/
structure DataTransport (μ : Type) : Type where
  /-- `dcTransportHandler` -/
  dcTransportHandler : DeliveringHandler μ

/-- `DataTransport::send`. What it returns has been rejected when the message is refused. -/
def DataTransport.send (codec : Codec μ φ) (transport : DataTransport μ) (msg : μ) (ok : Bool) :
    DataTransport μ × Handover :=
  match transport.dcTransportHandler.send codec msg ok with
  | (h, (none, .refused _) :: _) => (⟨h⟩, .dropped)
  | (h, _) => (⟨h⟩, .taken)

/-- `Connection`. -/
inductive Connection (μ : Type) : Type where
  | webSocket (connection : WSConnection)
  | dataTransport (transport : DataTransport μ)

namespace Connection

/-- `send`. -/
def send (stringify : μ → Except String String) (codec : Codec μ φ) (msg : μ) (ok : Bool) :
    Connection μ → Connection μ × Handover
  | .webSocket connection => (.webSocket connection, connection.send stringify msg)
  | .dataTransport transport =>
    let (transport, handover) := transport.send codec msg ok
    (.dataTransport transport, handover)

/-- **A connection takes a message**: its socket is open, and the message can be written; or nothing
is being delivered, and the transport has not been stopped. -/
def Takes (stringify : μ → Except String String) (msg : μ) : Connection μ → Prop
  | .webSocket connection => connection.ws = some .open ∧ (stringify msg).isOk = true
  | .dataTransport transport => transport.dcTransportHandler.awaitedDelivery = none ∧
      transport.dcTransportHandler.aborted = false

theorem webSocket_taken_iff (stringify : μ → Except String String) (connection : WSConnection)
    (msg : μ) : connection.send stringify msg = .taken ↔
      connection.ws = some .open ∧ (stringify msg).isOk = true := by
  rw [WSConnection.send]
  cases connection.ws with
  | none => exact iff_of_false nofun fun h => nomatch h.1
  | some ws =>
    cases stringify msg with
    | error name => exact iff_of_false nofun fun h => nomatch h.2
    | ok text =>
      cases ws with
      | «open» => exact iff_of_true rfl ⟨rfl, rfl⟩
      | connecting | closing | closed => exact iff_of_false nofun fun h => nomatch h.1

theorem dataTransport_taken_iff (codec : Codec μ φ) (transport : DataTransport μ) (msg : μ)
    (ok : Bool) : (transport.send codec msg ok).2 = .taken ↔
      transport.dcTransportHandler.awaitedDelivery = none ∧
        transport.dcTransportHandler.aborted = false := by
  rw [DataTransport.send, DeliveringHandler.send]
  cases hbusy : transport.dcTransportHandler.awaitedDelivery with
  | some i => exact iff_of_false nofun fun h => nomatch h.1
  | none =>
    cases haborted : transport.dcTransportHandler.aborted with
    | true => exact iff_of_false nofun fun h => nomatch h.2
    | false => exact iff_of_true rfl ⟨rfl, rfl⟩

theorem taken_iff (stringify : μ → Except String String) (codec : Codec μ φ)
    (connection : Connection μ) (msg : μ) (ok : Bool) :
    (connection.send stringify codec msg ok).2 = .taken ↔ connection.Takes stringify msg := by
  cases connection with
  | webSocket connection => exact webSocket_taken_iff stringify connection msg
  | dataTransport transport => exact dataTransport_taken_iff codec transport msg ok

end Connection

namespace DispatchClient

/-- `send`, over a connection. -/
def sendOver (stringify : DataTransportMessage κ τ → Except String String)
    (codec : Codec (DataTransportMessage κ τ) φ) (c : DispatchClient)
    (connection : Connection (DataTransportMessage κ τ)) (cmd : κ) (ok : Bool) :
    DispatchClient × Connection (DataTransportMessage κ τ) × Handover × List (ClientDeed κ τ) :=
  let (connection, handover) :=
    connection.send stringify codec (.request ⟨c.nextId.repr, cmd⟩) ok
  let (c, deeds) := c.send cmd handover.thrown?
  (c, connection, handover, deeds)

/-- **A request that is not taken fails cleanly**: its promise is rejected, its entry is
removed, and the others are as they were. -/
def FailsCleanly (stringify : DataTransportMessage κ τ → Except String String)
    (codec : Codec (DataTransportMessage κ τ) φ) (c : DispatchClient)
    (connection : Connection (DataTransportMessage κ τ)) (cmd : κ) (ok : Bool) : Prop :=
  let (c', _, handover, deeds) := c.sendOver stringify codec connection cmd ok
  handover ≠ .taken → (∃ message, .rejected c.nextId message ∈ deeds) ∧
    c'.pending.lookup c.nextId.repr = none ∧
      ∀ id, id ≠ c.nextId.repr → c'.pending.lookup id = c.pending.lookup id

variable (stringify : DataTransportMessage κ τ → Except String String)
  (codec : Codec (DataTransportMessage κ τ) φ)

/-- **A request fails cleanly if and only if it does not fail.** -/
theorem fails_cleanly_iff (c : DispatchClient)
    (connection : Connection (DataTransportMessage κ τ)) (cmd : κ) (ok : Bool) :
    c.FailsCleanly stringify codec connection cmd ok ↔
      connection.Takes stringify (.request ⟨c.nextId.repr, cmd⟩) := by
  rw [← connection.taken_iff stringify codec (.request ⟨c.nextId.repr, cmd⟩) ok]
  constructor
  · intro hclean
    by_contra htaken
    obtain ⟨-, hremoved, -⟩ := hclean htaken
    change (c.pending.insert c.nextId.repr c.nextId).lookup c.nextId.repr = none at hremoved
    rw [Finmap.lookup_insert] at hremoved
    cases hremoved
  · intro htaken hnot
    exact absurd htaken hnot

/-- A client that has just sent a request over an idle transport. -/
def afterOne : DispatchClient × Connection (DataTransportMessage Unit Bool) × Handover ×
    List (ClientDeed Unit Bool) :=
  new.sendOver (fun _ => .ok "") (.identity _) (.dataTransport ⟨.new "self"⟩) () true

/-- The next request is dropped, and its promise is not rejected. -/
theorem not_failsCleanly_afterOne :
    ¬FailsCleanly (fun _ => .ok "") (.identity _) afterOne.1 afterOne.2.1 () true := by
  intro hclean
  obtain ⟨⟨message, hmem⟩, -⟩ := hclean (by decide)
  rcases List.mem_singleton.mp hmem with ⟨⟩

/-- **An entry is forsaken**: it stays until a response with its id comes in. -/
theorem forsaken {es : List (ClientEvent κ τ)} {c c' : DispatchClient} {n : ℕ}
    (hn : n < c.nextId) (hentry : c.pending.lookup n.repr = some n)
    (hrun : machine.run c es = some c') (hanswers : answers n.repr es = []) :
    c'.pending.lookup n.repr = some n := by
  refine (StateMachine.run_induction (M := machine)
    (P := fun es c' => answers n.repr es = [] → n < c'.nextId ∧
      c'.pending.lookup n.repr = some n) (fun _ => ⟨hn, hentry⟩) ?_ hrun hanswers).2
  intro es c e c' _ ih hstep hanswers
  rw [answers_concat, List.append_eq_nil_iff, Option.toList_eq_nil_iff] at hanswers
  obtain ⟨hn, hentry⟩ := ih hanswers.1
  obtain rfl := Option.some.inj hstep
  cases e with
  | send cmd thrown =>
    refine ⟨Nat.lt_succ_of_lt hn, ?_⟩
    change (c.pending.insert c.nextId.repr c.nextId).lookup n.repr = some n
    rw [Finmap.lookup_insert_eq_ite, if_neg]
    · exact hentry
    · exact fun heq => Nat.ne_of_lt hn (Nat.repr_injective heq)
  | receive msg =>
    refine ⟨?_, (c.lookup_receive msg _).mpr ⟨hentry, hanswers.2⟩⟩
    exact Nat.lt_of_lt_of_eq hn (c.sent_receive msg).2.symm

end DispatchClient

end Ts

end Vamp
