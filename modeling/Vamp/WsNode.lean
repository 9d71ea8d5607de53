import Mathlib.Data.List.Infix
import Mathlib.Data.Nat.Notation
import Vamp.StateMachine

/-!
# The reconnecting websocket

`run_loop` of `ws_node.rs`, with the two tasks that it spawns for every connection. The
receiving end of the queue of outgoing frames is owned by the loop while there is no
connection; it moves into `sender_task`, and is returned by it. So a state of the loop and a
state of the task carry the frames that are in the queue at that moment.

A step is what runs between two awaits. The environment decides in the events whether a
connection can be made, whether a frame is sent, when a task ends and what a `select!` picks.
Frames get to the wire in order, and a connection loses one at most (`queue_kept`).
-/

namespace Vamp

namespace WsNode

variable {τ : Type}

/-- The capacity of the queue. -/
def capacity : ℕ := 64

/-! ## The tasks of a connection -/

/-- Where `sender_task` stands, with the frames in its queue. -/
inductive SenderTask (τ : Type) : Type where
  /-- in the `select!` -/
  | waiting (sendRx : List τ)
  /-- in `Sender::send` -/
  | sending (m : τ) (sendRx : List τ)
  /-- returned, with the queue -/
  | finished (sendRx : List τ)
  deriving DecidableEq

/-- What `sender_task` meets with. -/
inductive SenderEvent : Type where
  /-- a frame is taken from the queue, and passed to `Sender::send` -/
  | recv
  /-- `Sender::send` returns -/
  | sent (ok : Bool)
  /-- the queue is empty, and nobody can put frames into it any more -/
  | closed
  /-- the stopper is seen -/
  | cancelled
  deriving DecidableEq

/-- `sender_task`. -/
def SenderTask.step (cancelled closed : Bool) :
    SenderTask τ → SenderEvent → Option (SenderTask τ)
  | .waiting (m :: sendRx), .recv => some (.sending m sendRx)
  | .sending _ sendRx, .sent true => some (.waiting sendRx)
  -- the connection is broken
  | .sending _ sendRx, .sent false => some (.finished sendRx)
  | .waiting [], .closed => if closed then some (.finished []) else none
  | .waiting sendRx, .cancelled => if cancelled then some (.finished sendRx) else none
  | _, _ => none

/-- Where `receive_task` stands. -/
inductive ReceiveTask : Type where
  /-- in the `select!` -/
  | running
  /-- returned, with the handler -/
  | finished
  /-- the handler has panicked -/
  | panicked
  deriving DecidableEq

/-- What `receive_task` meets with. -/
inductive ReceiveEvent : Type where
  /-- a message comes in, and is handled -/
  | handled
  /-- the peer has closed the connection, or there is an error -/
  | lost
  /-- a message comes in, and the handler panics -/
  | panics
  /-- the stopper is seen -/
  | cancelled
  deriving DecidableEq

/-- `receive_task`. -/
def ReceiveTask.step (cancelled : Bool) : ReceiveTask → ReceiveEvent → Option ReceiveTask
  | .running, .handled => some .running
  | .running, .lost => some .finished
  | .running, .panics => some .panicked
  | .running, .cancelled => if cancelled then some .finished else none
  | _, _ => none

theorem ReceiveTask.step_panicked {cancelled : Bool} {t : ReceiveTask} {e : ReceiveEvent}
    (h : t.step cancelled e = some .panicked) : e = .panics := by
  unfold step at h
  split at h
  · cases h
  · cases h
  · rfl
  · rw [Option.ite_none_right_eq_some] at h
    cases h.2
  · cases h

/-! ## The loop -/

/-- Which task the loop waits for. -/
inductive Awaited : Type where
  /-- either of them, in the `select!` -/
  | either
  /-- the sender; the receiver has returned the handler -/
  | sender
  /-- the receiver; the sender has returned the queue -/
  | receiver
  /-- both, as the node has been stopped -/
  | both
  deriving DecidableEq

/-- Where `run_loop` stands. -/
inductive Phase (τ : Type) : Type where
  /-- in the `select!` on `connect` -/
  | connecting (sendRx : List τ)
  /-- asleep after an error -/
  | sleeping (sendRx : List τ)
  /-- waiting for the tasks of a connection, with its stopper -/
  | connected (awaited : Awaited) (receive : ReceiveTask) (sender : SenderTask τ)
      (localStopper : Bool)
  /-- returned; a sender that nobody waits for any more may be left -/
  | ended (left : Option (SenderTask τ))
  deriving DecidableEq

/-- The node. -/
structure Node (τ : Type) : Type where
  /-- where `run_loop` stands -/
  phase : Phase τ
  /-- `stopper` -/
  stopper : Bool
  /-- every `send_tx` has been dropped -/
  closed : Bool
  /-- how many connections there have been, for the record -/
  connections : ℕ
  deriving DecidableEq

/-- What the node meets with. -/
inductive NodeEvent (τ : Type) : Type where
  /-- a frame is put into the queue through `send_tx` -/
  | enqueue (m : τ)
  /-- the last `send_tx` is dropped -/
  | close
  /-- `stop` is called -/
  | stop
  /-- `connect` returns -/
  | connect (ok : Bool)
  /-- `sleep` is over -/
  | wake
  /-- the loop sees the stopper -/
  | cancelled
  /-- the loop gets what the receiver returns -/
  | joinReceive
  /-- the loop gets what the sender returns -/
  | joinSender
  /-- the loop gets what both return, and ends -/
  | joinBoth
  /-- the sender -/
  | sender (e : SenderEvent)
  /-- the receiver -/
  | receive (e : ReceiveEvent)
  deriving DecidableEq

/-- A frame is put into a queue, if there is room. -/
def put (m : τ) (sendRx : List τ) : Option (List τ) :=
  if sendRx.length < capacity then some (sendRx ++ [m]) else none

theorem eq_of_map_put {α : Type} {f : List τ → α} {m : τ} {sendRx : List τ} {a : α}
    (h : (put m sendRx).map f = some a) : a = f (sendRx ++ [m]) := by
  obtain ⟨sendRx', hput, rfl⟩ := Option.map_eq_some_iff.mp h
  rw [put, Option.ite_none_right_eq_some] at hput
  rw [Option.some.inj hput.2]

/-- A frame is put into the queue that the sender owns. -/
def SenderTask.push (m : τ) : SenderTask τ → Option (SenderTask τ)
  | .waiting sendRx => (put m sendRx).map .waiting
  | .sending m' sendRx => (put m sendRx).map (.sending m')
  | .finished sendRx => (put m sendRx).map .finished

/-- A frame is put into the queue, whoever owns it. -/
def Phase.push (m : τ) : Phase τ → Option (Phase τ)
  | .connecting sendRx => (put m sendRx).map .connecting
  | .sleeping sendRx => (put m sendRx).map .sleeping
  | .connected awaited receive sender localStopper =>
    (sender.push m).map fun sender => .connected awaited receive sender localStopper
  -- what nobody waits for returns its queue to nobody
  | .ended (some (.finished _)) => none
  | .ended (some sender) => (sender.push m).map fun sender => .ended (some sender)
  | .ended none => none

namespace Node

/-- A new node. -/
def init : Node τ := ⟨.connecting [], false, false, 0⟩

/-- The loop begins again, unless the node has been stopped. -/
def again (s : Node τ) (sendRx : List τ) : Node τ :=
  { s with phase := if s.stopper then .ended none else .connecting sendRx }

/-- `run_loop` and its tasks. -/
def step (s : Node τ) : NodeEvent τ → Option (Node τ)
  | .enqueue m => if s.closed then none else (s.phase.push m).map fun phase => { s with phase }
  | .close => some { s with closed := true }
  | .stop => some { s with stopper := true }
  | .connect ok =>
    match s.phase with
    | .connecting sendRx =>
      if ok then
        some { s with
          phase := .connected .either .running (.waiting sendRx) false
          connections := s.connections + 1 }
      else some { s with phase := .sleeping sendRx }
    | _ => none
  | .wake =>
    match s.phase with
    | .sleeping sendRx => some (s.again sendRx)
    | _ => none
  | .cancelled =>
    if s.stopper then
      match s.phase with
      | .connecting _ | .sleeping _ => some { s with phase := .ended none }
      | .connected .either receive sender localStopper =>
        some { s with phase := .connected .both receive sender localStopper }
      | _ => none
    else none
  | .joinReceive =>
    match s.phase with
    | .connected .either .finished sender _ =>
      some { s with phase := .connected .sender .finished sender true }
    | .connected .either .panicked sender _ => some { s with phase := .ended (some sender) }
    | .connected .receiver .finished (.finished sendRx) _ => some (s.again sendRx)
    | .connected .receiver .panicked (.finished _) _ => some { s with phase := .ended none }
    | _ => none
  | .joinSender =>
    match s.phase with
    | .connected .either receive (.finished sendRx) _ =>
      some { s with phase := .connected .receiver receive (.finished sendRx) true }
    | .connected .sender _ (.finished sendRx) _ => some (s.again sendRx)
    | _ => none
  | .joinBoth =>
    match s.phase with
    | .connected .both .running _ _ => none
    | .connected .both _ (.finished _) _ => some { s with phase := .ended none }
    | _ => none
  | .sender e =>
    match s.phase with
    | .connected awaited receive sender localStopper =>
      (sender.step (localStopper || s.stopper) s.closed e).map fun sender =>
        { s with phase := .connected awaited receive sender localStopper }
    | .ended (some sender) =>
      (sender.step s.stopper s.closed e).map fun sender => { s with phase := .ended (some sender) }
    | _ => none
  | .receive e =>
    match s.phase with
    | .connected awaited receive sender localStopper =>
      (receive.step (localStopper || s.stopper) e).map fun receive =>
        { s with phase := .connected awaited receive sender localStopper }
    | _ => none

/-- The node as a state machine. -/
def machine : StateMachine (Node τ) (NodeEvent τ) := ⟨init, step⟩

end Node

/-! ## What a step does to the frames -/

namespace SenderTask

/-- The queue of the task. -/
def queue : SenderTask τ → List τ
  | .waiting sendRx | .sending _ sendRx | .finished sendRx => sendRx

/-- The frame that is being sent. -/
def inFlight : SenderTask τ → Option τ
  | .sending m _ => some m
  | .waiting _ | .finished _ => none

/-- The task has not returned. -/
def active : SenderTask τ → Bool
  | .waiting _ | .sending _ _ => true
  | .finished _ => false

/-- A step of the task. -/
theorem step_cases {cancelled closed : Bool} {t t' : SenderTask τ} {e : SenderEvent}
    (h : t.step cancelled closed e = some t') :
    (∃ m sendRx, e = .recv ∧ t = .waiting (m :: sendRx) ∧ t' = .sending m sendRx) ∨
    (∃ m sendRx, e = .sent true ∧ t = .sending m sendRx ∧ t' = .waiting sendRx) ∨
    (∃ m sendRx, e = .sent false ∧ t = .sending m sendRx ∧ t' = .finished sendRx) ∨
    ∃ sendRx, (e = .closed ∨ e = .cancelled) ∧ t = .waiting sendRx ∧ t' = .finished sendRx := by
  unfold step at h
  split at h
  · exact .inl ⟨_, _, rfl, rfl, (Option.some.inj h).symm⟩
  · exact .inr (.inl ⟨_, _, rfl, rfl, (Option.some.inj h).symm⟩)
  · exact .inr (.inr (.inl ⟨_, _, rfl, rfl, (Option.some.inj h).symm⟩))
  · rw [Option.ite_none_right_eq_some] at h
    exact .inr (.inr (.inr ⟨_, .inl rfl, rfl, (Option.some.inj h.2).symm⟩))
  · rw [Option.ite_none_right_eq_some] at h
    exact .inr (.inr (.inr ⟨_, .inr rfl, rfl, (Option.some.inj h.2).symm⟩))
  · cases h

theorem push_eq_some {m : τ} {t t' : SenderTask τ} (h : t.push m = some t') :
    t'.queue = t.queue ++ [m] ∧ t'.inFlight = t.inFlight ∧ t'.active = t.active := by
  cases t with
  | waiting sendRx =>
    obtain rfl := eq_of_map_put h
    exact ⟨rfl, rfl, rfl⟩
  | sending m' sendRx =>
    obtain rfl := eq_of_map_put h
    exact ⟨rfl, rfl, rfl⟩
  | finished sendRx =>
    obtain rfl := eq_of_map_put h
    exact ⟨rfl, rfl, rfl⟩

end SenderTask

namespace Phase

/-- The sender of the last connection, unless its queue has been taken back. -/
def sender : Phase τ → Option (SenderTask τ)
  | .connected _ _ sender _ => some sender
  | .ended left => left
  | .connecting _ | .sleeping _ => none

/-- The queue, unless it has been dropped. -/
def queue : Phase τ → Option (List τ)
  | .connecting sendRx | .sleeping sendRx => some sendRx
  | .connected _ _ sender _ => some sender.queue
  | .ended (some (.finished _)) | .ended none => none
  | .ended (some sender) => some sender.queue

/-- The frame that is being sent. -/
def inFlight (p : Phase τ) : Option τ := p.sender.bind SenderTask.inFlight

/-- There is a sender that has not returned. -/
def active (p : Phase τ) : Bool := p.sender.any SenderTask.active

theorem queue_of_active {left : SenderTask τ} (h : left.active = true) :
    (ended (some left)).queue = some left.queue := by
  cases left with
  | waiting sendRx => rfl
  | sending m sendRx => rfl
  | finished sendRx => cases h

theorem queue_of_not_active {left : SenderTask τ} (h : left.active = false) :
    (ended (some left)).queue = none := by
  cases left with
  | waiting sendRx => cases h
  | sending m sendRx => cases h
  | finished sendRx => rfl

/-- The loop has returned, or is about to. -/
def leaving : Phase τ → Bool
  | .ended _ => true
  | .connected awaited receive _ _ => awaited = .both || receive = .panicked
  | .connecting _ | .sleeping _ => false

end Phase

namespace Node

/-- What a step does to the queue, and to the frame that is being sent. -/
inductive Change (s : Node τ) : NodeEvent τ → Node τ → Prop where
  /-- a frame is put into the queue -/
  | enqueued {m : τ} {s' : Node τ} {sendRx : List τ} (hqueue : s.phase.queue = some sendRx)
      (hqueue' : s'.phase.queue = some (sendRx ++ [m]))
      (hflight : s'.phase.inFlight = s.phase.inFlight) (hactive : s'.phase.active = s.phase.active)
      (hconnections : s'.connections = s.connections) : Change s (.enqueue m) s'
  /-- a frame is taken from the queue, to be sent -/
  | received {m : τ} {s' : Node τ} {sendRx : List τ}
      (hqueue : s.phase.queue = some (m :: sendRx)) (hqueue' : s'.phase.queue = some sendRx)
      (hflight : s.phase.inFlight = none) (hflight' : s'.phase.inFlight = some m)
      (hactive : s.phase.active = true) (hconnections : s'.connections = s.connections) :
      Change s (.sender .recv) s'
  /-- a frame has been sent, or not; then the task has returned -/
  | sent {m : τ} {ok : Bool} {s' : Node τ} (hflight : s.phase.inFlight = some m)
      (hflight' : s'.phase.inFlight = none) (hactive : s.phase.active = true)
      (hactive' : s'.phase.active = ok)
      (hqueue : s'.phase.queue = s.phase.queue ∨ s'.phase.queue = none)
      (hconnections : s'.connections = s.connections) : Change s (.sender (.sent ok)) s'
  /-- a new connection has the queue -/
  | connected {s' : Node τ} (hflight : s.phase.inFlight = none)
      (hflight' : s'.phase.inFlight = none) (hqueue : s'.phase.queue = s.phase.queue)
      (hconnections : s'.connections = s.connections + 1) : Change s (.connect true) s'
  /-- neither queue nor frame change, unless the queue is dropped -/
  | quiet {e : NodeEvent τ} {s' : Node τ} (henqueue : ∀ m, e ≠ .enqueue m)
      (hrecv : e ≠ .sender .recv) (hsent : ∀ ok, e ≠ .sender (.sent ok))
      (hflight : s'.phase.inFlight = s.phase.inFlight)
      (hactive : s'.phase.active = true → s.phase.active = true)
      (hqueue : s'.phase.queue = s.phase.queue ∨ s'.phase.queue = none)
      (hconnections : s'.connections = s.connections) : Change s e s'

section Change

variable {s s' : Node τ} {e : NodeEvent τ}

theorem inFlight_eq {p : Phase τ} {t : SenderTask τ} (h : p.sender = some t) :
    p.inFlight = t.inFlight := by
  rw [Phase.inFlight, h, Option.bind_some]

theorem active_eq {p : Phase τ} {t : SenderTask τ} (h : p.sender = some t) :
    p.active = t.active := by
  rw [Phase.active, h, Option.any_some]

/-- A step of the sender, wherever the loop stands. -/
theorem change_of_sender {t t' : SenderTask τ} {cancelled closed : Bool} {e : SenderEvent}
    (h : t.step cancelled closed e = some t') (hsender : s.phase.sender = some t)
    (hsender' : s'.phase.sender = some t') (hconnections : s'.connections = s.connections)
    (hqueue : t.active = true → s.phase.queue = some t.queue)
    (hqueue' : t'.active = true → s'.phase.queue = some t'.queue)
    (hdropped : s'.phase.queue = some t'.queue ∨ s'.phase.queue = none) :
    Change s (.sender e) s' := by
  have hflight := inFlight_eq hsender
  have hflight' := inFlight_eq hsender'
  have hactive := active_eq hsender
  have hactive' := active_eq hsender'
  rcases SenderTask.step_cases h with ⟨m, sendRx, rfl, rfl, rfl⟩ | ⟨m, sendRx, rfl, rfl, rfl⟩ |
    ⟨m, sendRx, rfl, rfl, rfl⟩ | ⟨sendRx, he, rfl, rfl⟩
  · exact .received (hqueue rfl) (hqueue' rfl) hflight hflight' hactive hconnections
  · refine .sent hflight hflight' hactive hactive' (.inl ?_) hconnections
    exact (hqueue' rfl).trans (hqueue rfl).symm
  · refine .sent hflight hflight' hactive hactive' ?_ hconnections
    rw [hqueue rfl]
    exact hdropped
  · refine .quiet nofun ?_ ?_ (hflight'.trans hflight.symm) ?_ ?_ hconnections
    · rcases he with rfl | rfl
      · exact nofun
      · exact nofun
    · rcases he with rfl | rfl
      · exact nofun
      · exact nofun
    · intro _
      exact hactive
    · rw [hqueue rfl]
      exact hdropped

/-- The loop begins again with the queue that a sender has returned. -/
theorem change_again {sendRx : List τ} (henqueue : ∀ m, e ≠ .enqueue m) (hrecv : e ≠ .sender .recv)
    (hsent : ∀ ok, e ≠ .sender (.sent ok)) (hflight : s.phase.inFlight = none)
    (hqueue : s.phase.queue = some sendRx) : Change s e (s.again sendRx) := by
  unfold again
  cases s.stopper with
  | true => exact .quiet henqueue hrecv hsent hflight.symm nofun (.inr rfl) rfl
  | false => exact .quiet henqueue hrecv hsent hflight.symm nofun (.inl hqueue.symm) rfl

/-- Nothing but the place of the loop changes. -/
theorem change_of_sender_eq (henqueue : ∀ m, e ≠ .enqueue m) (hrecv : e ≠ .sender .recv)
    (hsent : ∀ ok, e ≠ .sender (.sent ok)) (hsender : s'.phase.sender = s.phase.sender)
    (hqueue : s'.phase.queue = s.phase.queue ∨ s'.phase.queue = none)
    (hconnections : s'.connections = s.connections) : Change s e s' := by
  have hactive : s'.phase.active = s.phase.active := by rw [Phase.active, Phase.active, hsender]
  refine .quiet henqueue hrecv hsent ?_ (fun h => hactive ▸ h) hqueue hconnections
  rw [Phase.inFlight, Phase.inFlight, hsender]

/-- The loop goes from one place to another, and the sender stays what it is. -/
theorem change_of_phase {p p' : Phase τ} (henqueue : ∀ m, e ≠ .enqueue m)
    (hrecv : e ≠ .sender .recv) (hsent : ∀ ok, e ≠ .sender (.sent ok)) (hphase : s.phase = p)
    (hsender : p'.sender = p.sender) (hqueue : p'.queue = p.queue ∨ p'.queue = none) :
    Change s e { s with phase := p' } := by
  subst hphase
  exact change_of_sender_eq henqueue hrecv hsent hsender hqueue rfl

/-- A frame is put into the queue, wherever it is. -/
theorem change_of_push {m : τ} {phase : Phase τ} (h : s.phase.push m = some phase) :
    Change s (.enqueue m) { s with phase } := by
  cases hphase : s.phase with
  | connecting sendRx =>
    rw [hphase] at h
    obtain rfl := eq_of_map_put h
    exact .enqueued (congrArg Phase.queue hphase) rfl (congrArg Phase.inFlight hphase).symm
      (congrArg Phase.active hphase).symm rfl
  | sleeping sendRx =>
    rw [hphase] at h
    obtain rfl := eq_of_map_put h
    exact .enqueued (congrArg Phase.queue hphase) rfl (congrArg Phase.inFlight hphase).symm
      (congrArg Phase.active hphase).symm rfl
  | connected awaited receive sender localStopper =>
    rw [hphase, Phase.push, Option.map_eq_some_iff] at h
    obtain ⟨sender', hsender, rfl⟩ := h
    obtain ⟨hqueue, hflight, hactive⟩ := SenderTask.push_eq_some hsender
    refine .enqueued (congrArg Phase.queue hphase) (congrArg some hqueue) ?_ ?_ rfl
    · exact hflight.trans (congrArg Phase.inFlight hphase).symm
    · exact hactive.trans (congrArg Phase.active hphase).symm
  | ended left =>
    rw [hphase] at h
    cases left with
    | none => cases h
    | some t =>
      cases hactive : t.active with
      | false =>
        obtain ⟨sendRx, rfl⟩ : ∃ sendRx, t = .finished sendRx := by
          cases t with
          | waiting sendRx => cases hactive
          | sending m sendRx => cases hactive
          | finished sendRx => exact ⟨sendRx, rfl⟩
        cases h
      | true =>
        have hpush : (Phase.ended (some t)).push m = (t.push m).map fun t => .ended (some t) := by
          cases t with
          | waiting sendRx => rfl
          | sending m' sendRx => rfl
          | finished sendRx => cases hactive
        rw [hpush, Option.map_eq_some_iff] at h
        obtain ⟨t', ht', rfl⟩ := h
        obtain ⟨hqueue, hflight, hsame⟩ := SenderTask.push_eq_some ht'
        have hold : s.phase.queue = some t.queue := by rw [hphase, Phase.queue_of_active hactive]
        refine .enqueued hold ?_ ?_ ?_ rfl
        · rw [Phase.queue_of_active (hsame.trans hactive), hqueue]
        · exact hflight.trans (congrArg Phase.inFlight hphase).symm
        · exact hsame.trans (congrArg Phase.active hphase).symm

/-- **What a step can do**, as far as the frames are concerned. -/
theorem step_change (h : s.step e = some s') : Change s e s' := by
  cases e with
  | enqueue m =>
    rw [step] at h
    split at h
    · cases h
    · obtain ⟨phase, hphase, rfl⟩ := Option.map_eq_some_iff.mp h
      exact change_of_push hphase
  | close =>
    obtain rfl := Option.some.inj h
    exact change_of_sender_eq nofun nofun nofun rfl (.inl rfl) rfl
  | stop =>
    obtain rfl := Option.some.inj h
    exact change_of_sender_eq nofun nofun nofun rfl (.inl rfl) rfl
  | connect ok =>
    rw [step] at h
    split at h
    · case h_1 sendRx hphase =>
      have hflight : s.phase.inFlight = none := congrArg Phase.inFlight hphase
      have hqueue : s.phase.queue = some sendRx := congrArg Phase.queue hphase
      cases ok with
      | true =>
        obtain rfl := Option.some.inj h
        exact .connected hflight rfl hqueue.symm rfl
      | false =>
        obtain rfl := Option.some.inj h
        exact change_of_phase nofun nofun nofun hphase rfl (.inl rfl)
    · cases h
  | wake =>
    rw [step] at h
    split at h
    · case h_1 sendRx hphase =>
      obtain rfl := Option.some.inj h
      exact change_again nofun nofun nofun (congrArg Phase.inFlight hphase)
        (congrArg Phase.queue hphase)
    · cases h
  | cancelled =>
    rw [step] at h
    split at h
    · split at h
      · case h_1 sendRx hphase =>
        obtain rfl := Option.some.inj h
        exact change_of_phase nofun nofun nofun hphase rfl (.inr rfl)
      · case h_2 sendRx hphase =>
        obtain rfl := Option.some.inj h
        exact change_of_phase nofun nofun nofun hphase rfl (.inr rfl)
      · case h_3 receive sender localStopper hphase =>
        obtain rfl := Option.some.inj h
        exact change_of_phase nofun nofun nofun hphase rfl (.inl rfl)
      · cases h
    · cases h
  | joinReceive =>
    rw [step] at h
    split at h
    · case h_1 sender localStopper hphase =>
      obtain rfl := Option.some.inj h
      exact change_of_phase nofun nofun nofun hphase rfl (.inl rfl)
    · case h_2 sender localStopper hphase =>
      obtain rfl := Option.some.inj h
      refine change_of_phase nofun nofun nofun hphase rfl ?_
      cases hactive : sender.active with
      | true => exact .inl (Phase.queue_of_active hactive)
      | false => exact .inr (Phase.queue_of_not_active hactive)
    · case h_3 sendRx localStopper hphase =>
      obtain rfl := Option.some.inj h
      exact change_again nofun nofun nofun (congrArg Phase.inFlight hphase)
        (congrArg Phase.queue hphase)
    · case h_4 sendRx localStopper hphase =>
      obtain rfl := Option.some.inj h
      exact .quiet nofun nofun nofun (congrArg Phase.inFlight hphase).symm nofun (.inr rfl) rfl
    · cases h
  | joinSender =>
    rw [step] at h
    split at h
    · case h_1 receive sendRx localStopper hphase =>
      obtain rfl := Option.some.inj h
      exact change_of_phase nofun nofun nofun hphase rfl (.inl rfl)
    · case h_2 receive sendRx localStopper hphase =>
      obtain rfl := Option.some.inj h
      exact change_again nofun nofun nofun (congrArg Phase.inFlight hphase)
        (congrArg Phase.queue hphase)
    · cases h
  | joinBoth =>
    rw [step] at h
    split at h
    · cases h
    · case h_2 receive sendRx localStopper _ hphase =>
      obtain rfl := Option.some.inj h
      exact .quiet nofun nofun nofun (congrArg Phase.inFlight hphase).symm nofun (.inr rfl) rfl
    · cases h
  | sender e =>
    rw [step] at h
    split at h
    · case h_1 awaited receive sender localStopper hphase =>
      obtain ⟨sender', hsender, rfl⟩ := Option.map_eq_some_iff.mp h
      exact change_of_sender hsender (congrArg Phase.sender hphase) rfl rfl
        (fun _ => congrArg Phase.queue hphase) (fun _ => rfl) (.inl rfl)
    · case h_2 sender hphase =>
      obtain ⟨sender', hsender, rfl⟩ := Option.map_eq_some_iff.mp h
      refine change_of_sender hsender (congrArg Phase.sender hphase) rfl rfl (fun hactive => ?_)
        Phase.queue_of_active ?_
      · exact (congrArg Phase.queue hphase).trans (Phase.queue_of_active hactive)
      · cases hactive : sender'.active with
        | true => exact .inl (Phase.queue_of_active hactive)
        | false => exact .inr (Phase.queue_of_not_active hactive)
    · cases h
  | receive e =>
    rw [step] at h
    split at h
    · case h_1 awaited receive sender localStopper hphase =>
      obtain ⟨receive', -, rfl⟩ := Option.map_eq_some_iff.mp h
      exact change_of_phase nofun nofun nofun hphase rfl (.inl rfl)
    · cases h

end Change

/-! ## How the loop ends -/

section Ending

variable {s s' : Node τ} {e : NodeEvent τ}

/-- The loop will not make another connection. -/
def Leaving (s : Node τ) : Prop := s.stopper = true ∨ s.phase.leaving = true

theorem leaving_push {m : τ} {p p' : Phase τ} (h : p.push m = some p') :
    p'.leaving = p.leaving := by
  cases p with
  | connecting sendRx =>
    obtain ⟨_, -, rfl⟩ := Option.map_eq_some_iff.mp h
    rfl
  | sleeping sendRx =>
    obtain ⟨_, -, rfl⟩ := Option.map_eq_some_iff.mp h
    rfl
  | connected awaited receive sender localStopper =>
    obtain ⟨_, -, rfl⟩ := Option.map_eq_some_iff.mp h
    rfl
  | ended left =>
    rcases left with _ | sendRx | ⟨m', sendRx⟩ | sendRx
    · cases h
    · obtain ⟨_, -, rfl⟩ := Option.map_eq_some_iff.mp h
      rfl
    · obtain ⟨_, -, rfl⟩ := Option.map_eq_some_iff.mp h
      rfl
    · cases h

/-- Nothing has been decided in a step from `s`. -/
theorem leaving_of_phase (h : s'.Leaving) (hstopper : s'.stopper = s.stopper)
    (hleaving : s'.phase.leaving = true → s.Leaving) :
    s.Leaving ∨ e = .stop ∨ e = .receive .panics :=
  .inl (h.elim (fun h => .inl (hstopper.symm.trans h)) hleaving)

theorem leaving_again {sendRx : List τ} (h : (s.again sendRx).Leaving) :
    s.Leaving ∨ e = .stop ∨ e = .receive .panics := by
  rcases h with hstop | hleaving
  · exact .inl (.inl hstop)
  · unfold again at hleaving
    cases hstop : s.stopper with
    | true => exact .inl (.inl hstop)
    | false =>
      rw [hstop] at hleaving
      cases hleaving

/-- **What makes the loop leave**: the node is stopped, or the handler panics. -/
theorem leaving_step (h : s.step e = some s') (hleaving : s'.Leaving) :
    s.Leaving ∨ e = .stop ∨ e = .receive .panics := by
  have hsame : ∀ {p : Phase τ}, s.phase = p → p.leaving = true → s.Leaving :=
    fun hphase h => .inr (hphase ▸ h)
  cases e with
  | enqueue m =>
    rw [step] at h
    split at h
    · cases h
    · obtain ⟨phase, hphase, rfl⟩ := Option.map_eq_some_iff.mp h
      exact leaving_of_phase hleaving rfl fun h => .inr ((leaving_push hphase).symm.trans h)
  | close =>
    obtain rfl := Option.some.inj h
    exact .inl hleaving
  | stop => exact .inr (.inl rfl)
  | connect ok =>
    rw [step] at h
    split at h
    · cases ok with
      | true =>
        obtain rfl := Option.some.inj h
        exact leaving_of_phase hleaving rfl nofun
      | false =>
        obtain rfl := Option.some.inj h
        exact leaving_of_phase hleaving rfl nofun
    · cases h
  | wake =>
    rw [step] at h
    split at h
    · obtain rfl := Option.some.inj h
      exact leaving_again hleaving
    · cases h
  | cancelled =>
    rw [step] at h
    split at h
    · case isTrue hstop => exact .inl (.inl hstop)
    · cases h
  | joinReceive =>
    rw [step] at h
    split at h
    · obtain rfl := Option.some.inj h
      exact leaving_of_phase hleaving rfl nofun
    · case h_2 sender localStopper hphase => exact .inl (hsame hphase rfl)
    · obtain rfl := Option.some.inj h
      exact leaving_again hleaving
    · case h_4 sendRx localStopper hphase => exact .inl (hsame hphase rfl)
    · cases h
  | joinSender =>
    rw [step] at h
    split at h
    · case h_1 receive sendRx localStopper hphase =>
      obtain rfl := Option.some.inj h
      exact leaving_of_phase hleaving rfl fun h => hsame hphase h
    · obtain rfl := Option.some.inj h
      exact leaving_again hleaving
    · cases h
  | joinBoth =>
    rw [step] at h
    split at h
    · cases h
    · case h_2 receive sendRx localStopper _ hphase => exact .inl (hsame hphase rfl)
    · cases h
  | sender e =>
    rw [step] at h
    split at h
    · case h_1 awaited receive sender localStopper hphase =>
      obtain ⟨sender', -, rfl⟩ := Option.map_eq_some_iff.mp h
      exact leaving_of_phase hleaving rfl fun h => hsame hphase h
    · case h_2 sender hphase => exact .inl (hsame hphase rfl)
    · cases h
  | receive e =>
    rw [step] at h
    split at h
    · case h_1 awaited receive sender localStopper hphase =>
      obtain ⟨receive', hreceive, rfl⟩ := Option.map_eq_some_iff.mp h
      by_cases he : e = .panics
      · exact .inr (.inr (congrArg _ he))
      · refine leaving_of_phase hleaving rfl fun h => hsame hphase ?_
        rw [Phase.leaving, Bool.or_eq_true, decide_eq_true_eq] at h ⊢
        refine h.imp_right fun hpanicked => ?_
        rw [decide_eq_true_eq] at hpanicked
        exact absurd (ReceiveTask.step_panicked (hpanicked ▸ hreceive)) he
    · cases h

end Ending

/-! ## What becomes of the frames -/

/-- How `Sender::send` has ended. -/
structure Result (τ : Type) : Type where
  /-- on which connection -/
  connection : ℕ
  /-- the frame -/
  frame : τ
  /-- what has been returned -/
  ok : Bool
  deriving DecidableEq

/-- The frame that an event puts into the queue. -/
def enqueuedBy (_ : Node τ) : NodeEvent τ → List τ
  | .enqueue m => [m]
  | _ => []

/-- The frame that an event takes from the queue. -/
def receivedBy (s : Node τ) : NodeEvent τ → List τ
  | .sender .recv => (s.phase.queue.bind List.head?).toList
  | _ => []

/-- The call of `Sender::send` that an event ends. -/
def resultBy (s : Node τ) : NodeEvent τ → List (Result τ)
  | .sender (.sent ok) => s.phase.inFlight.toList.map fun m => ⟨s.connections, m, ok⟩
  | _ => []

/-- The frames that a run puts into the queue. -/
def enqueued (es : List (NodeEvent τ)) : List τ := machine.trace enqueuedBy init es

/-- The frames that `sender_task` takes from the queue. -/
def received (es : List (NodeEvent τ)) : List τ := machine.trace receivedBy init es

/-- How the calls of `Sender::send` end, on all connections. -/
def results (es : List (NodeEvent τ)) : List (Result τ) := machine.trace resultBy init es

/-- The calls on one connection. -/
def resultsOn (es : List (NodeEvent τ)) (k : ℕ) : List (Result τ) :=
  (results es).filter fun r => r.connection = k

/-- Only the last call fails. -/
def FailsLast (rs : List (Result τ)) : Prop :=
  ∀ pre r post, rs = pre ++ r :: post → r.ok = false → post = []

/-- The frames that have been sent. -/
def delivered (es : List (NodeEvent τ)) : List τ :=
  ((results es).filter Result.ok).map Result.frame

/-- The queue is kept in order, and a connection loses at most one frame. -/
structure QueueKept (es : List (NodeEvent τ)) (s : Node τ) : Prop where
  /-- frames are sent in the order in which they were put into the queue -/
  ordered : (delivered es).Sublist (enqueued es)
  /-- none is sent twice -/
  once : (enqueued es).Nodup → (delivered es).Nodup
  /-- what is taken from the queue is passed to `Sender::send` -/
  passed : received es = (results es).map Result.frame ++ s.phase.inFlight.toList
  /-- what is taken from the queue is what was put into it first -/
  taken : received es <+: enqueued es
  /-- what has not been taken is still there, unless the queue has been dropped -/
  kept : ∀ sendRx, s.phase.queue = some sendRx → enqueued es = received es ++ sendRx
  /-- a connection does not send after an error -/
  lost : ∀ k, FailsLast (resultsOn es k)
  /-- the queue is dropped only after `stop`, or when the handler has panicked -/
  dropped : s.phase.queue = none → .stop ∈ es ∨ .receive .panics ∈ es

section Runs

variable {es : List (NodeEvent τ)} {s s' : Node τ} {e : NodeEvent τ}

theorem FailsLast.concat {rs : List (Result τ)} {r : Result τ} (h : ∀ r ∈ rs, r.ok = true) :
    FailsLast (rs ++ [r]) := by
  intro pre r' post hsplit hfail
  rcases List.split_concat hsplit with ⟨-, -, hpost⟩ | ⟨post', -, hrs⟩
  · exact hpost
  · have hmem : r' ∈ rs := by
      rw [hrs]
      exact List.mem_append_right _ (List.mem_cons_self ..)
    cases hfail.symm.trans (h r' hmem)

/-- What is known of the calls on the connections. -/
structure Calls (es : List (NodeEvent τ)) (s : Node τ) : Prop where
  /-- a connection does not send after an error -/
  last : ∀ k, FailsLast (resultsOn es k)
  /-- a sender that has not returned has had no error -/
  clean : s.phase.active = true → ∀ r ∈ resultsOn es s.connections, r.ok = true
  /-- there have been no other connections -/
  known : ∀ r ∈ results es, r.connection ≤ s.connections

theorem enqueuedBy_eq_nil (h : ∀ m, e ≠ .enqueue m) : enqueuedBy s e = [] := by
  cases e with
  | enqueue m => exact absurd rfl (h m)
  | _ => rfl

theorem receivedBy_eq_nil (h : e ≠ .sender .recv) : receivedBy s e = [] := by
  cases e with
  | sender e =>
    cases e with
    | recv => exact absurd rfl h
    | _ => rfl
  | _ => rfl

theorem resultBy_eq_nil (h : ∀ ok, e ≠ .sender (.sent ok)) : resultBy s e = [] := by
  cases e with
  | sender e =>
    cases e with
    | sent ok => exact absurd rfl (h ok)
    | _ => rfl
  | _ => rfl

theorem results_concat (hrun : machine.run init es = some s) (hs : s.step e = some s') :
    results (es ++ [e]) = results es ++ resultBy s e :=
  StateMachine.trace_concat (M := machine) hrun hs

theorem resultsOn_of_nil (hrun : machine.run init es = some s) (hs : s.step e = some s')
    (h : resultBy s e = []) (k : ℕ) : resultsOn (es ++ [e]) k = resultsOn es k := by
  rw [resultsOn, resultsOn, results_concat hrun hs, h, List.append_nil]

/-- A step that ends no call, on the same connection. -/
theorem Calls.of_nil (h : Calls es s) (hrun : machine.run init es = some s)
    (hs : s.step e = some s') (hnil : resultBy s e = [])
    (hactive : s'.phase.active = true → s.phase.active = true)
    (hconnections : s'.connections = s.connections) : Calls (es ++ [e]) s' where
  last k := by
    rw [resultsOn_of_nil hrun hs hnil]
    exact h.last k
  clean hs' := by
    rw [resultsOn_of_nil hrun hs hnil, hconnections]
    exact h.clean (hactive hs')
  known := by
    rw [results_concat hrun hs, hnil, List.append_nil, hconnections]
    exact h.known

theorem Calls.step (h : Calls es s) (hrun : machine.run init es = some s)
    (hs : s.step e = some s') : Calls (es ++ [e]) s' := by
  cases step_change hs with
  | enqueued _ _ _ hactive hconnections =>
    exact h.of_nil hrun hs rfl (fun h => hactive ▸ h) hconnections
  | received _ _ _ _ hactive hconnections =>
    exact h.of_nil hrun hs rfl (fun _ => hactive) hconnections
  | @sent m ok _ hflight _ hactive hactive' _ hconnections =>
    have hresult : resultBy s (.sender (.sent ok)) = [⟨s.connections, m, ok⟩] := by
      simp only [resultBy, hflight, Option.toList_some, List.map_cons, List.map_nil]
    have hresults := results_concat hrun hs
    rw [hresult] at hresults
    have hthis : resultsOn (es ++ [.sender (.sent ok)]) s.connections =
        resultsOn es s.connections ++ [⟨s.connections, m, ok⟩] := by
      rw [resultsOn, hresults, List.filter_append, resultsOn]
      simp
    refine ⟨fun k => ?_, fun hs' => ?_, ?_⟩
    · by_cases hk : k = s.connections
      · subst hk
        rw [hthis]
        exact .concat (h.clean hactive)
      · have hother : resultsOn (es ++ [.sender (.sent ok)]) k = resultsOn es k := by
          rw [resultsOn, hresults, List.filter_append, resultsOn]
          simp [Ne.symm hk]
        rw [hother]
        exact h.last k
    · rw [hconnections, hthis, List.forall_mem_append]
      refine ⟨h.clean hactive, ?_⟩
      intro r hr
      rw [List.mem_singleton.mp hr]
      exact hactive'.symm.trans hs'
    · rw [hresults, hconnections, List.forall_mem_append]
      refine ⟨h.known, ?_⟩
      intro r hr
      rw [List.mem_singleton.mp hr]
  | connected _ hflight' _ hconnections =>
    refine ⟨fun k => ?_, fun _ r hr => ?_, ?_⟩
    · rw [resultsOn_of_nil hrun hs rfl]
      exact h.last k
    · -- there has been no call on the new connection
      rw [resultsOn_of_nil hrun hs rfl, hconnections, resultsOn, List.mem_filter,
        decide_eq_true_eq] at hr
      have hle := h.known r hr.1
      omega
    · intro r hr
      simp only [results_concat hrun hs, resultBy, List.append_nil] at hr
      have hle := h.known r hr
      omega
  | quiet _ _ hsent _ hactive _ hconnections =>
    exact h.of_nil hrun hs (resultBy_eq_nil hsent) hactive hconnections

/-- Where the frames are. -/
structure Frames (es : List (NodeEvent τ)) (s : Node τ) : Prop where
  /-- taken from the queue, and passed to `Sender::send` -/
  passed : received es = (results es).map Result.frame ++ s.phase.inFlight.toList
  /-- taken in order -/
  taken : received es <+: enqueued es
  /-- or in the queue -/
  kept : ∀ sendRx, s.phase.queue = some sendRx → enqueued es = received es ++ sendRx

/-- A step that puts nothing into the queue, and takes nothing from it. -/
theorem Frames.of_kept (h : Frames es s) (henqueued : enqueued (es ++ [e]) = enqueued es)
    (hreceived : received (es ++ [e]) = received es)
    (hpassed : received es =
      (results (es ++ [e])).map Result.frame ++ s'.phase.inFlight.toList)
    (hqueue : s'.phase.queue = s.phase.queue ∨ s'.phase.queue = none) :
    Frames (es ++ [e]) s' where
  passed := hreceived.trans hpassed
  taken := by
    rw [hreceived, henqueued]
    exact h.taken
  kept sendRx hq := by
    rw [henqueued, hreceived]
    rcases hqueue with hsame | hnone
    · exact h.kept sendRx (hsame.symm.trans hq)
    · cases hnone.symm.trans hq

theorem Frames.step (h : Frames es s) (hrun : machine.run init es = some s)
    (hs : s.step e = some s') : Frames (es ++ [e]) s' := by
  have henqueued : enqueued (es ++ [e]) = enqueued es ++ enqueuedBy s e :=
    StateMachine.trace_concat (M := machine) hrun hs
  have hreceived : received (es ++ [e]) = received es ++ receivedBy s e :=
    StateMachine.trace_concat (M := machine) hrun hs
  have hresults := results_concat hrun hs
  cases step_change hs with
  | @enqueued m _ sendRx hqueue hqueue' hflight _ _ =>
    rw [enqueuedBy] at henqueued
    simp only [receivedBy, List.append_nil] at hreceived
    simp only [resultBy, List.append_nil] at hresults
    refine ⟨?_, ?_, ?_⟩
    · rw [hreceived, hresults, hflight, h.passed]
    · rw [hreceived, henqueued]
      exact h.taken.trans (List.prefix_append _ _)
    · intro sendRx' hq
      obtain rfl := Option.some.inj (hqueue'.symm.trans hq)
      rw [henqueued, hreceived, h.kept sendRx hqueue, List.append_assoc]
  | @received m _ sendRx hqueue hqueue' hflight hflight' _ _ =>
    have hhead : receivedBy s (.sender .recv) = [m] := by
      rw [receivedBy, hqueue]
      rfl
    simp only [enqueuedBy, List.append_nil] at henqueued
    rw [hhead] at hreceived
    simp only [resultBy, List.append_nil] at hresults
    have hold := h.kept _ hqueue
    have hnew : enqueued es = received es ++ [m] ++ sendRx := by
      rw [hold, List.append_assoc, List.singleton_append]
    refine ⟨?_, ?_, ?_⟩
    · have hpassed := h.passed
      rw [hflight, Option.toList_none, List.append_nil] at hpassed
      rw [hreceived, hresults, hflight', hpassed, Option.toList_some]
    · rw [hreceived, henqueued, hnew]
      exact List.prefix_append _ _
    · intro sendRx' hq
      obtain rfl := Option.some.inj (hqueue'.symm.trans hq)
      rw [henqueued, hreceived, hnew]
  | @sent m ok _ hflight hflight' _ _ hqueue _ =>
    have hresult : resultBy s (.sender (.sent ok)) = [⟨s.connections, m, ok⟩] := by
      simp only [resultBy, hflight, Option.toList_some, List.map_cons, List.map_nil]
    simp only [enqueuedBy, List.append_nil] at henqueued
    simp only [receivedBy, List.append_nil] at hreceived
    rw [hresult] at hresults
    refine h.of_kept henqueued hreceived ?_ hqueue
    rw [hresults, hflight', h.passed, hflight, List.map_append]
    simp
  | connected hflight hflight' hqueue _ =>
    simp only [enqueuedBy, List.append_nil] at henqueued
    simp only [receivedBy, List.append_nil] at hreceived
    simp only [resultBy, List.append_nil] at hresults
    refine h.of_kept henqueued hreceived ?_ (.inl hqueue)
    rw [hresults, hflight', h.passed, hflight]
  | quiet henqueue hrecv hsent hflight _ hqueue _ =>
    rw [enqueuedBy_eq_nil henqueue, List.append_nil] at henqueued
    rw [receivedBy_eq_nil hrecv, List.append_nil] at hreceived
    rw [resultBy_eq_nil hsent, List.append_nil] at hresults
    refine h.of_kept henqueued hreceived ?_ hqueue
    rw [hresults, hflight, h.passed]

theorem queue_eq_none {p : Phase τ} (h : p.queue = none) : p.leaving = true := by
  cases p with
  | connecting sendRx => cases h
  | sleeping sendRx => cases h
  | connected awaited receive sender localStopper => cases h
  | ended left => rfl

/-- **The queue over any number of connections**: whatever the order of events, frames are sent
in the order in which they have been put into the queue, and only those are lost whose
`Sender::send` has returned an error, one on a connection at most. -/
theorem queue_kept (hrun : machine.run init es = some s) : QueueKept es s := by
  have hcalls : Calls es s := by
    refine StateMachine.run_induction (M := machine) ?_ (fun es s e s' hrun h hs => ?_) hrun
    · refine ⟨fun k => ?_, (fun _ r hr => nomatch hr), (fun r hr => nomatch hr)⟩
      intro pre r post hsplit
      cases pre <;> cases hsplit
    · exact h.step hrun hs
  have hframes : Frames es s := by
    refine StateMachine.run_induction (M := machine) ?_ (fun es s e s' hrun h hs => ?_) hrun
    · refine ⟨rfl, List.prefix_rfl, fun sendRx hq => ?_⟩
      obtain rfl := Option.some.inj hq
      rfl
    · exact h.step hrun hs
  have hleaving : s.Leaving → .stop ∈ es ∨ .receive .panics ∈ es := by
    refine StateMachine.run_induction (M := machine)
      (P := fun es s => s.Leaving → .stop ∈ es ∨ .receive .panics ∈ es) ?_
      (fun es s e s' hrun h hs hleaving => ?_) hrun
    · rintro (h | h)
      · cases h
      · cases h
    · rcases leaving_step hs hleaving with hold | rfl | rfl
      · exact (h hold).imp (List.mem_append_left _) (List.mem_append_left _)
      · exact .inl (List.mem_append_right _ (List.mem_singleton_self _))
      · exact .inr (List.mem_append_right _ (List.mem_singleton_self _))
  have hsub : (delivered es).Sublist (enqueued es) := by
    have hsent : (delivered es).Sublist ((results es).map Result.frame) :=
      List.filter_sublist.map Result.frame
    refine (hsent.trans ?_).trans hframes.taken.sublist
    rw [hframes.passed]
    exact List.sublist_append_left _ _
  refine ⟨hsub, fun h => hsub.nodup h, hframes.passed, hframes.taken, hframes.kept, hcalls.last, ?_⟩
  intro hqueue
  exact hleaving (.inr (queue_eq_none hqueue))

end Runs

/-- A frame is lost on the first connection, and the next one is sent on the second. -/
def reconnected : List (NodeEvent ℕ) :=
  [.enqueue 1, .enqueue 2, .connect false, .wake, .connect true, .sender .recv,
    .sender (.sent false), .joinSender, .receive .cancelled, .joinReceive, .connect true,
    .sender .recv, .sender (.sent true)]

theorem queue_kept_reconnected :
    QueueKept reconnected ((machine.run init reconnected).get rfl) :=
  queue_kept (Option.some_get _).symm

example : enqueued reconnected = [1, 2] ∧ delivered reconnected = [2] := by decide

end Node

end WsNode

end Vamp
