import Vamp.Json
import Vamp.MsgProcessor
import Vamp.StateMachine

/-!
# The legacy signalling server, in two languages

`handle_connection` of `signalling-server/src/wsserver.rs`, and `WSNode` of `sserver.ts`, of
which it is a port. Both keep the same two tables: the connections, each with the addresses
that it has announced, and the routing table, which says who owns an address. What a message
does to them is one step, under the lock in Rust and in one callback in TypeScript.

The machine around the tables is the same for both; what differs is the `Program`. How a text
is read as JSON is a parameter of each.
-/

namespace Vamp

namespace Legacy

/-- A string, by its UTF-16 code units. In Rust its surrogates are paired. -/
abbrev Address : Type := List UInt16

/-- The id of a socket. Both programs count, and hand out every id once. -/
abbrev SocketId : Type := ℕ

/-- `ROUTE_LIMIT`. -/
def routeLimit : ℕ := 2

/-- `SSMsg`: what the server reads of a message. -/
structure SSMsg : Type where
  /-- the address of the sender -/
  src : Address
  /-- the address of the receiver -/
  dst : Address
  deriving DecidableEq

/-- `ConnectionInfo`. -/
structure ConnectionInfo : Type where
  /-- whether the socket still takes frames (`send_task` runs, the socket is open) -/
  listening : Bool
  /-- the announced addresses, in order -/
  localAddrs : List Address
  deriving DecidableEq

/-- `SharedState`. -/
structure SharedState : Type where
  /-- the live connections -/
  connections : Finmap fun _ : SocketId => ConnectionInfo
  /-- the owner of every announced address -/
  rTable : Finmap fun _ : Address => SocketId

/-- `SharedState::new`. -/
def SharedState.new : SharedState := ⟨∅, ∅⟩

/-- Frames, with the sockets on which they are put. -/
abbrev Sent : Type := List (SocketId × Message)

/-- The branch in which the handling of a message ends. -/
inductive Branch : Type where
  /-- it is no text, or the text cannot be read -/
  | skipped
  /-- `src` is registered from a different connection -/
  | claimed
  /-- `dst` is not registered -/
  | dstNotFound
  /-- too many refs -/
  | tooManyRefs
  /-- `src` announces itself -/
  | announced
  /-- `dst` has no live connection -/
  | noConnection
  /-- the socket of `dst` does not take the frame -/
  | forwardFailed (d : SocketId)
  /-- the frame is put on the socket of `dst` -/
  | forwarded (d : SocketId)
  deriving DecidableEq

/-- The message is accepted: its `src` is registered. -/
def Branch.accepts : Branch → Bool
  | announced | noConnection | forwardFailed _ | forwarded _ => true
  | skipped | claimed | dstNotFound | tooManyRefs => false

/-- How the handling of a message ends, and what is sent meanwhile. -/
structure Outcome : Type where
  /-- the branch -/
  branch : Branch
  /-- the frames -/
  sent : Sent

/-- `error_msg`. -/
def errorMsg (msg : String) : Message :=
  .text (Json.obj [("src", .str "error"), ("msg", .str msg)]).write

namespace SharedState

/-- A socket is opened. -/
def connect (s : SharedState) (i : SocketId) : SharedState :=
  { s with connections := s.connections.insert i ⟨true, []⟩ }

/-- The socket takes no more frames. -/
def deafen (s : SharedState) (i : SocketId) : SharedState :=
  match s.connections.lookup i with
  | some c => { s with connections := s.connections.insert i { c with listening := false } }
  | none => s

/-- The `src` of a message is claimed by a different connection. -/
def claimedByOther (s : SharedState) (i : SocketId) (src : Address) : Bool :=
  (s.rTable.lookup src).any (· ≠ i)

/-- The `dst` of a message is unknown. -/
def dstUnknown (s : SharedState) (data : SSMsg) : Bool :=
  data.dst ≠ data.src && (s.rTable.lookup data.dst).isNone

end SharedState

/-! ## Rust -/

namespace Rs

open SharedState

/-- `c.tx.send`, to the connection itself. The result is ignored. -/
def reply (s : SharedState) (i : SocketId) (msg : String) : Sent :=
  match s.connections.lookup i with
  | some c => if c.listening then [(i, errorMsg msg)] else []
  | none => []

/-- Register `src` in the routing table, and with the connection. -/
def register (s : SharedState) (i : SocketId) (src : Address) : SharedState where
  rTable := s.rTable.insert src i
  connections :=
    match s.connections.lookup i with
    | some c => s.connections.insert i { c with localAddrs := c.localAddrs ++ [src] }
    | none => s.connections

/-- Forward the raw frame to the socket of `dst`. -/
def forward (s : SharedState) (i : SocketId) (raw : Message) (dst : Address) : Outcome :=
  match s.rTable.lookup dst with
  | none => ⟨.noConnection, reply s i "Failed to find connection for destination"⟩
  | some d =>
    match s.connections.lookup d with
    | some c =>
      if c.listening then ⟨.forwarded d, [(d, raw)]⟩
      else ⟨.forwardFailed d, reply s i "Failed to forward message"⟩
    | none => ⟨.noConnection, reply s i "Failed to find connection for destination"⟩

/-- `handle_connection`, for one message: from taking the lock to letting it go. -/
def handleMessage (i : SocketId) (raw : Message) (data : SSMsg) (s : SharedState) :
    SharedState × Outcome :=
  if s.claimedByOther i data.src then
    (s, ⟨.claimed, reply s i "Source already registered from a different connection"⟩)
  else if s.dstUnknown data then
    (s, ⟨.dstNotFound, reply s i "Destination not found"⟩)
  else if routeLimit < (s.connections.lookup i).elim 0 fun c => c.localAddrs.length then
    (s, ⟨.tooManyRefs, reply s i "too many refs, reset server registration"⟩)
  else
    let s := register s i data.src
    -- announced, or a heartbeat
    if data.dst = data.src then (s, ⟨.announced, []⟩)
    else (s, forward s i raw data.dst)

/-- The text of a message: binary messages are read as UTF-8, other frames are skipped. -/
def textOf : Message → Option String
  | .text text => some text
  | .binary bytes => String.fromUTF8? bytes
  | _ => none

/-- How a message is read; `fromStr` is `serde_json::from_str::<SSMsg>`. -/
def read (fromStr : String → Option SSMsg) (raw : Message) : Option SSMsg :=
  (textOf raw).bind fromStr

/-- The cleanup when a socket is closed. -/
def cleanup (i : SocketId) (s : SharedState) : SharedState :=
  match s.connections.lookup i with
  | some c => ⟨s.connections.erase i, s.rTable.eraseAll c.localAddrs⟩
  | none => s

end Rs

/-! ## TypeScript -/

namespace Ts

open SharedState

/-- `ws.send`, to the connection itself. -/
def send (s : SharedState) (i : SocketId) (msg : String) : Sent :=
  ((s.connections.lookup i).filter ConnectionInfo.listening).toList.map fun _ => (i, errorMsg msg)

/-- `onmessage`, after parsing. -/
def onmessage (i : SocketId) (raw : Message) (data : SSMsg) (s : SharedState) :
    SharedState × Outcome :=
  match s.connections.lookup i with
  | none => (s, ⟨.skipped, []⟩)
  | some remoteInfo =>
    if s.claimedByOther i data.src then
      (s, ⟨.claimed, send s i "Source already registered from a different connection"⟩)
    else if s.dstUnknown data then
      (s, ⟨.dstNotFound, send s i "Destination not found"⟩)
    else if routeLimit < remoteInfo.localAddrs.length then
      (s, ⟨.tooManyRefs, send s i "too many refs, reset server registration"⟩)
    else
      let s : SharedState :=
        { rTable := s.rTable.insert data.src i
          connections := s.connections.insert i
            { remoteInfo with localAddrs := remoteInfo.localAddrs ++ [data.src] } }
      let dstCon := (s.rTable.lookup data.dst).bind fun d =>
        (s.connections.lookup d).map fun c => (d, c)
      if data.dst = data.src then (s, ⟨.announced, []⟩)
      else
        match dstCon with
        | none => (s, ⟨.noConnection, send s i "Failed to find connection for destination"⟩)
        | some (d, c) =>
          if c.listening then (s, ⟨.forwarded d, [(d, raw)]⟩)
          -- the error reaches a callback
          else (s, ⟨.forwardFailed d, send s i "Failed to forward message"⟩)

/-- `on('close')`. -/
def onclose (i : SocketId) (s : SharedState) : SharedState :=
  match s.connections.lookup i with
  | some con =>
    let rTable := con.localAddrs.foldl (fun rTable src => rTable.erase src) s.rTable
    ⟨s.connections.erase i, rTable⟩
  | none => s

end Ts

/-! ## The server -/

/-- What a program does with messages and when a socket is closed. -/
structure Program : Type where
  /-- a message comes in on a socket -/
  message : SocketId → Message → SharedState → SharedState × Outcome
  /-- a socket is closed -/
  close : SocketId → SharedState → SharedState

/-- `wsserver.rs`; how a message is read is a parameter, see `Rs.read`. -/
def wsserver (read : Message → Option SSMsg) : Program where
  message i raw s :=
    match read raw with
    | some data => Rs.handleMessage i raw data s
    | none => (s, ⟨.skipped, []⟩)
  close := Rs.cleanup

/-- `sserver.ts`; `read` is `JSON.parse(msg.data.toString())`, for messages whose `src` and
`dst` are strings. -/
def sserver (read : Message → Option SSMsg) : Program where
  message i raw s :=
    match read raw with
    | some data => Ts.onmessage i raw data s
    | none => (s, ⟨.skipped, []⟩)
  close := Ts.onclose

/-- Where the handling of a socket has got to. -/
inductive Task : Type where
  /-- there is no such socket yet -/
  | absent
  /-- messages are received -/
  | serving
  /-- the socket is closed -/
  | finished
  deriving DecidableEq

/-- The server: its sockets, and what they share. -/
structure Server : Type where
  /-- the sockets -/
  task : SocketId → Task
  /-- the tables -/
  shared : SharedState

/-- The events of the sockets. -/
inductive SocketEvent : Type where
  /-- a socket is opened; it gets an id that no other one has had -/
  | connect (i : SocketId)
  /-- a message is handled -/
  | message (i : SocketId) (raw : Message)
  /-- a write fails, and nothing more is written -/
  | deafen (i : SocketId)
  /-- a socket is closed -/
  | close (i : SocketId)
  deriving DecidableEq

namespace Server

/-- The server without sockets. -/
def init : Server := ⟨fun _ => .absent, .new⟩

/-- One step, and its outcome. -/
def step (p : Program) (s : Server) : SocketEvent → Option (Server × Outcome)
  | .connect i =>
    if s.task i = .absent then
      some (⟨Function.update s.task i .serving, s.shared.connect i⟩, ⟨.skipped, []⟩)
    else none
  | .message i raw =>
    if s.task i = .serving then
      let (shared, outcome) := p.message i raw s.shared
      some ({ s with shared := shared }, outcome)
    else none
  | .deafen i =>
    if s.task i = .serving then
      some ({ s with shared := s.shared.deafen i }, ⟨.skipped, []⟩)
    else none
  | .close i =>
    if s.task i = .serving then
      some (⟨Function.update s.task i .finished, p.close i s.shared⟩, ⟨.skipped, []⟩)
    else none

/-- The server as a state machine. -/
def machine (p : Program) : StateMachine Server SocketEvent where
  init := init
  step s e := (s.step p e).map Prod.fst

/-- The frames that a step sends. -/
def sent (p : Program) (s : Server) (e : SocketEvent) : Sent :=
  ((s.step p e).map fun r => r.2.sent).getD []

/-- The frames that a run puts on a socket, in order. -/
def framesOn (p : Program) (es : List SocketEvent) (i : SocketId) : List Message :=
  (((machine p).trace (sent p) init es).filter fun f => f.1 = i).map Prod.snd

end Server

/-! ## What the handling of a message can do -/

namespace SharedState

variable {s : SharedState} {i : SocketId} {a : Address} {data : SSMsg}

/-- The number of addresses that are listed with a connection. -/
def refs (s : SharedState) (i : SocketId) : ℕ :=
  (s.connections.lookup i).elim 0 fun c => c.localAddrs.length

/-- The message passes the checks of its two addresses. -/
structure Passes (s : SharedState) (i : SocketId) (data : SSMsg) : Prop where
  /-- nobody else has `src` -/
  src : s.claimedByOther i data.src = false
  /-- somebody has `dst`, or it is `src` -/
  dst : s.dstUnknown data = false

theorem claimedByOther_eq_false :
    s.claimedByOther i a = false ↔ ∀ j, s.rTable.lookup a = some j → j = i := by
  rw [claimedByOther]
  cases s.rTable.lookup a with
  | none => exact iff_of_true rfl nofun
  | some j =>
    rw [Option.any_some, decide_eq_false_iff_not, not_not]
    exact ⟨fun h j' hj' => (Option.some.inj hj').symm.trans h, fun h => h j rfl⟩

theorem dstUnknown_eq_false :
    s.dstUnknown data = false ↔ data.dst = data.src ∨ ∃ d, s.rTable.lookup data.dst = some d := by
  rw [dstUnknown, Bool.and_eq_false_iff, decide_eq_false_iff_not, not_not,
    Option.isNone_eq_false_iff, Option.isSome_iff_exists]

end SharedState

namespace Rs

variable {s : SharedState} {i : SocketId} {raw : Message} {data : SSMsg}

/-- **What a message can do**: it is refused, with a reply, and nothing changes; or it is
accepted and registered, and goes to its destination if that is somebody else. -/
theorem handleMessage_cases (i : SocketId) (raw : Message) (data : SSMsg) (s : SharedState) :
    (∃ branch msg, handleMessage i raw data s = (s, ⟨branch, reply s i msg⟩) ∧
      ((branch = .claimed ∧ ¬ s.Passes i data) ∨ (branch = .dstNotFound ∧ ¬ s.Passes i data) ∨
        (branch = .tooManyRefs ∧ s.Passes i data ∧ routeLimit < s.refs i))) ∨
    (s.Passes i data ∧ s.refs i ≤ routeLimit ∧
      handleMessage i raw data s = (register s i data.src,
        if data.dst = data.src then ⟨.announced, []⟩
        else forward (register s i data.src) i raw data.dst)) := by
  unfold handleMessage
  cases hsrc : s.claimedByOther i data.src with
  | true =>
    refine .inl ⟨.claimed, _, rfl, .inl ⟨rfl, fun h => ?_⟩⟩
    cases hsrc.symm.trans h.src
  | false =>
    cases hdst : s.dstUnknown data with
    | true =>
      refine .inl ⟨.dstNotFound, _, rfl, .inr (.inl ⟨rfl, fun h => ?_⟩)⟩
      cases hdst.symm.trans h.dst
    | false =>
      by_cases hlimit : routeLimit < s.refs i
      · exact .inl ⟨.tooManyRefs, "too many refs, reset server registration", if_pos hlimit,
          .inr (.inr ⟨rfl, ⟨hsrc, hdst⟩, hlimit⟩)⟩
      · refine .inr ⟨⟨hsrc, hdst⟩, Nat.le_of_not_lt hlimit, ?_⟩
        exact (if_neg hlimit).trans (apply_ite (Prod.mk _) _ _ _).symm

theorem forward_accepts (s : SharedState) (i : SocketId) (raw : Message) (dst : Address) :
    (forward s i raw dst).branch.accepts = true := by
  unfold forward
  split
  · rfl
  · split
    · split
      · rfl
      · rfl
    · rfl

end Rs

/-! ## The two programs -/

section Programs

variable {s : SharedState} {i : SocketId}

theorem send_eq_reply (s : SharedState) (i : SocketId) (msg : String) :
    Ts.send s i msg = Rs.reply s i msg := by
  unfold Ts.send Rs.reply
  cases s.connections.lookup i with
  | none => rfl
  | some c =>
    dsimp only
    rw [Option.filter_some]
    cases c.listening with
    | true => rfl
    | false => rfl

/-- **A message that both programs have read** is handled alike. -/
theorem onmessage_eq {c : ConnectionInfo} (hi : s.connections.lookup i = some c) (raw : Message)
    (data : SSMsg) : Ts.onmessage i raw data s = Rs.handleMessage i raw data s := by
  have hregister : Rs.register s i data.src =
      ⟨s.connections.insert i { c with localAddrs := c.localAddrs ++ [data.src] },
        s.rTable.insert data.src i⟩ := by
    simp only [Rs.register, hi]
  unfold Ts.onmessage Rs.handleMessage Rs.forward
  simp only [hi, send_eq_reply, Option.elim_some, hregister]
  -- only the last branch is written differently
  congr 4
  cases (s.rTable.insert data.src i).lookup data.dst with
  | none => rfl
  | some d =>
    rw [Option.bind_some]
    dsimp only
    cases (s.connections.insert i
        { c with localAddrs := c.localAddrs ++ [data.src] }).lookup d with
    | none => rfl
    | some c' =>
      rw [Option.map_some]
      dsimp only
      split
      · rfl
      · rfl

end Programs

section Reading

variable {read : Message → Option SSMsg} {raw : Message}

theorem wsserver_skip (h : read raw = none) (i : SocketId) (s : SharedState) :
    (wsserver read).message i raw s = (s, ⟨.skipped, []⟩) := by
  simp only [wsserver, h]

theorem wsserver_read {data : SSMsg} (h : read raw = some data) (i : SocketId) (s : SharedState) :
    (wsserver read).message i raw s = Rs.handleMessage i raw data s := by
  simp only [wsserver, h]

end Reading

namespace Server

variable {p : Program} {s : Server} {e : SocketEvent} {r : Server × Outcome}

/-- What a step can do. -/
theorem step_cases (h : s.step p e = some r) :
    (∃ i, e = .connect i ∧ s.task i = .absent ∧
      r = (⟨Function.update s.task i .serving, s.shared.connect i⟩, ⟨.skipped, []⟩)) ∨
    (∃ i raw, e = .message i raw ∧ s.task i = .serving ∧
      r = ({ s with shared := (p.message i raw s.shared).1 }, (p.message i raw s.shared).2)) ∨
    (∃ i, e = .deafen i ∧ s.task i = .serving ∧
      r = ({ s with shared := s.shared.deafen i }, ⟨.skipped, []⟩)) ∨
    ∃ i, e = .close i ∧ s.task i = .serving ∧
      r = (⟨Function.update s.task i .finished, p.close i s.shared⟩, ⟨.skipped, []⟩) := by
  cases e with
  | connect i =>
    simp only [step, Option.ite_none_right_eq_some, Option.some.injEq] at h
    exact .inl ⟨i, rfl, h.1, h.2.symm⟩
  | message i raw =>
    simp only [step, Option.ite_none_right_eq_some, Option.some.injEq] at h
    exact .inr (.inl ⟨i, raw, rfl, h.1, h.2.symm⟩)
  | deafen i =>
    simp only [step, Option.ite_none_right_eq_some, Option.some.injEq] at h
    exact .inr (.inr (.inl ⟨i, rfl, h.1, h.2.symm⟩))
  | close i =>
    simp only [step, Option.ite_none_right_eq_some, Option.some.injEq] at h
    exact .inr (.inr (.inr ⟨i, rfl, h.1, h.2.symm⟩))

theorem machine_step (p : Program) (s : Server) (e : SocketEvent) :
    (machine p).step s e = (s.step p e).map Prod.fst := rfl

/-- A step of the machine is a step with some outcome. -/
theorem machine_step_eq_some {s' : Server} :
    (machine p).step s e = some s' ↔ ∃ outcome, s.step p e = some (s', outcome) := by
  rw [machine_step, Option.map_eq_some_iff]
  constructor
  · rintro ⟨⟨s₁, outcome⟩, h, rfl⟩
    exact ⟨outcome, h⟩
  · rintro ⟨outcome, h⟩
    exact ⟨_, h, rfl⟩

end Server

end Legacy

end Vamp
