import Vamp.Acknowledgements
import Vamp.WsNode

/-!
# How are messages sent again?

`send_and_wait_ack_repeated` of `ws_node_handler.rs`, on the node that carries its frames. The
loop has three ways round. After a timeout, it goes on after having waited. When an attempt
fails, it goes on at once; and an attempt fails at once when there is no connection yet, or when
`run_loop` has ended. So there are attempts in quick succession before the first connection, and
there is no end to them after the last.

`Attempts` says what is expected of the loop. It is so for as long as attempts fail late only, and
nobody waits in `send` when `run_loop` ends (`retries_iff`).
-/

namespace Vamp

namespace WsNode

variable {τ : Type}

/-- `run_loop` has ended. -/
def Phase.isEnded : Phase τ → Bool
  | .ended _ => true
  | .connecting _ | .sleeping _ | .connected _ _ _ _ => false

/-- The handler of incoming frames has not been dropped. -/
def Phase.ownsHandler : Phase τ → Bool
  | .connecting _ | .sleeping _ => true
  | .connected _ receive _ _ => receive ≠ .panicked
  | .ended _ => false

/-- What happens in a node by itself. -/
def NodeEvent.own : NodeEvent τ → Bool
  | .enqueue _ | .close | .receive .handled => false
  | _ => true

/-- `connected_state`, after a step of the node. -/
def connectedState (isConnected : Bool) (e : NodeEvent τ) (s : Node τ) : Bool :=
  match s.phase, e with
  | .ended _, _ => false
  | _, .connect true => true
  | _, _ => isConnected

theorem isEnded_push {m : τ} {p p' : Phase τ} (h : p.push m = some p') :
    p'.isEnded = p.isEnded := by
  cases p with
  | connecting sendRx | sleeping sendRx =>
    rw [eq_of_map_put h]
    rfl
  | connected awaited receive sender localStopper =>
    obtain ⟨sender', -, rfl⟩ := Option.map_eq_some_iff.mp h
    rfl
  | ended left =>
    cases left with
    | none => cases h
    | some sender =>
      cases sender with
      | finished sendRx => cases h
      | waiting sendRx | sending m' sendRx =>
        obtain ⟨sender', -, rfl⟩ := Option.map_eq_some_iff.mp h
        rfl

/-- Frames do not end the loop. -/
theorem Node.isEnded_enqueue {m : τ} {s s' : Node τ} (h : s.step (.enqueue m) = some s') :
    s'.phase.isEnded = s.phase.isEnded := by
  obtain ⟨p, hpush, rfl⟩ := Option.map_eq_some_iff.mp (Option.ite_none_left_eq_some.mp h).2
  exact isEnded_push hpush

theorem Node.isEnded_handled {s s' : Node τ} (h : s.step (.receive .handled) = some s') :
    s'.phase.isEnded = s.phase.isEnded := by
  unfold Node.step at h
  cases hphase : s.phase with
  | connected awaited receive sender localStopper =>
    rw [hphase] at h
    obtain ⟨receive', -, rfl⟩ := Option.map_eq_some_iff.mp h
    rfl
  | connecting sendRx | sleeping sendRx | ended left =>
    rw [hphase] at h
    cases h

theorem connectedState_of_isEnded {isConnected : Bool} {e : NodeEvent τ} {s : Node τ}
    (h : s.phase.isEnded = true) : connectedState isConnected e s = false := by
  unfold connectedState
  cases hphase : s.phase with
  | ended left => rfl
  | connecting sendRx | sleeping sendRx | connected awaited receive sender localStopper =>
    rw [hphase] at h
    cases h

end WsNode

namespace Rs

variable {τ κ : Type}

/-! ## The handler on its node -/

/-- How far an attempt has got. -/
inductive Stage : Type where
  /-- `sleep` is set, and the flag is going to be read -/
  | begun
  /-- in `send_tx.send` -/
  | queueing
  /-- in `incoming_ack_rx.recv` -/
  | waiting
  deriving DecidableEq, Repr

/-- The attempts of a `send`. -/
structure Attempt : Type where
  /-- `timeout` -/
  timeout : ℕ
  /-- how far the last one has got -/
  stage : Stage
  /-- when it began -/
  start : Instant
  /-- when the others began, the last of them first; for the record -/
  earlier : List Instant
  deriving DecidableEq, Repr

/-- The next pass of the loop. -/
def Attempt.again (a : Attempt) (now : Instant) : Attempt :=
  { a with stage := .begun, start := now, earlier := a.start :: a.earlier }

/-- `TransportHandler` with its node, and the time. -/
structure WsNodeHandler (τ κ : Type) : Type where
  /-- the handler; `sending` is the `send` in progress -/
  handler : TransportHandler τ κ
  /-- `ws_node` -/
  node : WsNode.Node κ
  /-- `is_connected` -/
  isConnected : Bool
  /-- the time -/
  now : Instant
  /-- the attempts of the last `send` -/
  attempt : Attempt

/-- What can happen to a handler on its node. -/
inductive HandlingEvent (τ κ : Type) : Type where
  /-- time goes by -/
  | elapse (duration : ℕ)
  /-- a step of the node -/
  | node (e : WsNode.NodeEvent κ)
  /-- a frame comes in, and is handled -/
  | frame (frame : κ)
  /-- the acknowledging task takes an acknowledgement from its queue -/
  | ackTask
  /-- `send_raw` is called -/
  | sendRaw (frame : κ)
  /-- `send` is called -/
  | send (payload : τ) (timeout : ℕ)
  /-- an attempt reads the flag -/
  | poll
  /-- the frame is put into the queue -/
  | queued
  /-- the queue has been dropped -/
  | queueClosed
  /-- an acknowledgement is taken from the queue -/
  | recvAck
  /-- no acknowledgement is left, and no more can come -/
  | ackClosed
  /-- `sleep` is over -/
  | timeout
  /-- the pending `send` is dropped -/
  | abort

/-- The events that are steps of the pending `send`. -/
def HandlingEvent.ofSend : HandlingEvent τ κ → Bool
  | .poll | .queued | .queueClosed | .recvAck | .ackClosed | .timeout => true
  | _ => false

/-- The events that are neither steps of the node nor calls of `send`. -/
def HandlingEvent.plain : HandlingEvent τ κ → Bool
  | .node _ | .send _ _ => false
  | _ => true

namespace WsNodeHandler

/-- `TransportHandler::new`. -/
def init (nodeId : NodeId) : WsNodeHandler τ κ where
  handler := .new nodeId
  node := .init
  isConnected := false
  now := 0
  attempt := ⟨0, .begun, 0, []⟩

/-- `continue`, in `send_and_wait_ack_repeated`. -/
def again (codec : Codec τ κ) (s : WsNodeHandler τ κ) :
    Option (WsNodeHandler τ κ × List (Effect τ κ)) :=
  (s.handler.step codec (.transmit false)).map fun (handler, effects) =>
    ({ s with handler, attempt := s.attempt.again s.now }, effects)

/-- One step of the handler, its tasks, its node, or its pending `send`. -/
def step (codec : Codec τ κ) (s : WsNodeHandler τ κ) :
    HandlingEvent τ κ → Option (WsNodeHandler τ κ × List (Effect τ κ))
  | .elapse duration => some ({ s with now := s.now + duration }, [])
  | .node e =>
    -- the handler has a `send_tx`, so that the queue is not closed
    if e.own then
      (s.node.step e).map fun node =>
        ({ s with node, isConnected := WsNode.connectedState s.isConnected e node }, [])
    else none
  | .frame frame =>
    (s.node.step (.receive .handled)).map fun node =>
      ({ s with node, handler := (s.handler.wsNodeHandle codec frame).1 },
        (s.handler.wsNodeHandle codec frame).2)
  | .ackTask =>
    (s.handler.step codec .ackTask).bind fun (handler, effects) =>
      match effects, s.node.phase.queue with
      | .wire frame _ :: _, some _ =>
        (s.node.step (.enqueue frame)).map fun node => ({ s with node, handler }, effects)
      | _, _ => some ({ s with handler }, [])
  | .sendRaw frame =>
    -- not while `send` has the handler
    if s.handler.sending.isSome then none
    else if s.isConnected then
      (s.node.step (.enqueue frame)).map fun node => ({ s with node }, [])
    else some (s, [])
  | .send payload timeout =>
    (s.handler.step codec (.send payload true)).map fun (handler, effects) =>
      ({ s with handler, attempt := ⟨timeout, .begun, s.now, []⟩ }, effects)
  | .poll =>
    match s.handler.sending, s.attempt.stage with
    | some _, .begun =>
      if s.isConnected then some ({ s with attempt := { s.attempt with stage := .queueing } }, [])
      else s.again codec
    | _, _ => none
  | .queued =>
    match s.handler.sending, s.attempt.stage with
    | some sending, .queueing =>
      (s.node.step (.enqueue sending.wire)).bind fun node =>
        (s.handler.step codec (.transmit true)).map fun (handler, effects) =>
          ({ s with node, handler, attempt := { s.attempt with stage := .waiting } }, effects)
    | _, _ => none
  | .queueClosed =>
    match s.attempt.stage, s.node.phase.queue with
    | .queueing, none => s.again codec
    | _, _ => none
  | .recvAck =>
    match s.attempt.stage with
    | .waiting =>
      (s.handler.step codec .recvAck).map fun (handler, effects) => ({ s with handler }, effects)
    | _ => none
  | .ackClosed =>
    match s.attempt.stage, s.handler.incomingAck, s.node.phase.ownsHandler with
    | .waiting, [], false => s.again codec
    | _, _, _ => none
  | .timeout => if s.attempt.start + s.attempt.timeout ≤ s.now then s.again codec else none
  | .abort =>
    (s.handler.step codec (.abort "dropped")).map fun (handler, effects) =>
      ({ s with handler }, effects)

/-- The handler on its node as a state machine. -/
def machine (codec : Codec τ κ) (nodeId : NodeId) :
    StateMachine (WsNodeHandler τ κ) (HandlingEvent τ κ) :=
  ⟨init nodeId, fun s e => (s.step codec e).map Prod.fst⟩

/-- What others notice of a step. -/
def effects (codec : Codec τ κ) (s : WsNodeHandler τ κ) (e : HandlingEvent τ κ) :
    List (Effect τ κ) :=
  ((s.step codec e).map Prod.snd).getD []

/-- A `send` is in progress. -/
def pending (s : WsNodeHandler τ κ) : Bool := s.handler.sending.isSome

/-- `run_loop` has ended. -/
def hasEnded (s : WsNodeHandler τ κ) : Bool := s.node.phase.isEnded

/-- **What is expected of the attempts**: they are paced, and end with the node. -/
structure Attempts (codec : Codec τ κ) (nodeId : NodeId) (s : WsNodeHandler τ κ) : Prop where
  /-- each begins `timeout` after the one before at the earliest -/
  paced : (s.attempt.start :: s.attempt.earlier).IsChain fun later earlier =>
    earlier + s.attempt.timeout ≤ later
  /-- after the end of `run_loop`, the `send` in progress takes finitely many steps before it
  returns, unless it is dropped -/
  ends : s.hasEnded = true → ∀ sending, s.handler.sending = some sending →
    ∃ n, ∀ es s', (machine codec nodeId).run s es = some s' → .abort ∉ es →
      n ≤ es.countP HandlingEvent.ofSend →
        ∃ res, .returned sending.sn res ∈ (machine codec nodeId).trace (effects codec) s es

/-- An attempt is going to fail at this step. -/
def fails (s : WsNodeHandler τ κ) : HandlingEvent τ κ → Bool
  | .poll => !s.isConnected
  | .queueClosed => s.node.phase.queue.isNone
  | .ackClosed => !s.node.phase.ownsHandler
  | _ => false

/-- A step that is as `send` needs it: an attempt that fails began no less than `timeout` ago, no
`send` is in progress when `run_loop` ends, and none that needs the node begins after that. -/
def Sound (codec : Codec τ κ) (s : WsNodeHandler τ κ) : HandlingEvent τ κ → Prop
  | .node e => s.pending = true → ∀ node ∈ s.node.step e, node.phase.isEnded = false
  | .send payload _ => ∀ wire,
    codec.encode (.normal s.handler.seqNumOut s.handler.nodeIdOut payload) = .ok wire →
      s.hasEnded = false
  | e => s.fails e = true → s.attempt.start + s.attempt.timeout ≤ s.now

variable {codec : Codec τ κ} {nodeId : NodeId} {s s' : WsNodeHandler τ κ} {e : HandlingEvent τ κ}
  {effs : List (Effect τ κ)}

/-! ## What a step does -/

/-- The handler takes a step of its own, or none. -/
def HandlerMoves (codec : Codec τ κ) (h h' : TransportHandler τ κ) : Prop :=
  h' = h ∨ ∃ e effs, h.step codec e = some (h', effs)

/-- The node takes a step of its own, or none. -/
def NodeMoves (n n' : WsNode.Node κ) : Prop := n' = n ∨ ∃ e, n.step e = some n'

/-- What a step does to the attempts. -/
inductive Moves (codec : Codec τ κ) (s : WsNodeHandler τ κ) :
    HandlingEvent τ κ → WsNodeHandler τ κ → Prop where
  /-- they stay as they are, and so does the node, as far as they are concerned -/
  | same {e : HandlingEvent τ κ} {s' : WsNodeHandler τ κ} (hplain : e.plain = true)
      (hfails : s.fails e = false) (hhandler : HandlerMoves codec s.handler s'.handler)
      (hnode : NodeMoves s.node s'.node) (hconnected : s'.isConnected = s.isConnected)
      (hattempt : ∃ stage, s'.attempt = { s.attempt with stage })
      (hpending : s'.pending = true → s.pending = true) (hended : s'.hasEnded = s.hasEnded) :
      Moves codec s e s'
  /-- the node takes a step -/
  | node {e' : WsNode.NodeEvent κ} {node : WsNode.Node κ} (hstep : s.node.step e' = some node) :
      Moves codec s (.node e')
        { s with node, isConnected := WsNode.connectedState s.isConnected e' node }
  /-- the first attempt of a `send` begins, unless there is nothing to send -/
  | send {payload : τ} {timeout : ℕ} (hidle : s.pending = false) :
      Moves codec s (.send payload timeout)
        { s with
          handler := (s.handler.send codec payload).1
          attempt := ⟨timeout, .begun, s.now, []⟩ }
  /-- the next attempt begins, as one has failed, or as the timeout is over -/
  | again {e : HandlingEvent τ κ} {sending : Sending κ} (hplain : e.plain = true)
      (hsending : s.handler.sending = some sending)
      (hwhy : s.fails e = true ∨
        s.fails e = false ∧ s.attempt.start + s.attempt.timeout ≤ s.now) :
      Moves codec s e
        { s with
          handler := { s.handler with sending := some { sending with waiting := false } }
          attempt := s.attempt.again s.now }

theorem again_eq {sending : Sending κ} (h : s.handler.sending = some sending) :
    s.again codec = some ({ s with
      handler := { s.handler with sending := some { sending with waiting := false } }
      attempt := s.attempt.again s.now }, []) := by
  unfold again TransportHandler.step
  rw [h]
  rfl

/-- The loop goes on with a `send` only. -/
theorem again_eq_some (h : s.again codec = some (s', effs)) : ∃ sending,
    s.handler.sending = some sending ∧ effs = [] ∧ s' = { s with
      handler := { s.handler with sending := some { sending with waiting := false } }
      attempt := s.attempt.again s.now } := by
  cases hsending : s.handler.sending with
  | none =>
    unfold again TransportHandler.step at h
    rw [hsending] at h
    cases h
  | some sending =>
    obtain ⟨rfl, rfl⟩ := Prod.mk.inj (Option.some.inj ((again_eq hsending).symm.trans h))
    exact ⟨sending, rfl, rfl, rfl⟩

theorem moves_again (h : s.again codec = some (s', effs)) (hplain : e.plain = true)
    (hwhy : s.fails e = true ∨ s.fails e = false ∧ s.attempt.start + s.attempt.timeout ≤ s.now) :
    Moves codec s e s' := by
  obtain ⟨sending, hsending, -, rfl⟩ := again_eq_some h
  exact .again hplain hsending hwhy

/-- Incoming frames do not end a `send`; it takes the acknowledgement itself. -/
theorem wsNodeHandle_sending (codec : Codec τ κ) (h : TransportHandler τ κ) (frame : κ) :
    (h.wsNodeHandle codec frame).1.sending = h.sending := by
  unfold TransportHandler.wsNodeHandle
  split <;> rfl

theorem ackTask_sending {h h' : TransportHandler τ κ}
    (hstep : h.step codec .ackTask = some (h', effs)) : h'.sending = h.sending := by
  simp only [TransportHandler.step] at hstep
  split at hstep
  · split at hstep <;> cases hstep <;> rfl
  · cases hstep

/-- Only a `send` that is in progress takes an acknowledgement. -/
theorem recvAck_sending {h h' : TransportHandler τ κ}
    (hstep : h.step codec .recvAck = some (h', effs)) : h.sending.isSome = true := by
  simp only [TransportHandler.step] at hstep
  split at hstep
  · case h_1 sending ack incomingAck hsending hacks =>
    rw [hsending]
    rfl
  · cases hstep

/-- A step, as far as the attempts are concerned. -/
theorem step_moves (h : s.step codec e = some (s', effs)) : Moves codec s e s' := by
  cases e with
  | elapse duration =>
    obtain ⟨rfl, -⟩ := Prod.mk.inj (Option.some.inj h)
    exact .same rfl rfl (.inl rfl) (.inl rfl) rfl ⟨_, rfl⟩ id rfl
  | node e' =>
    obtain ⟨-, hsome⟩ := Option.ite_none_right_eq_some.mp h
    obtain ⟨node, hstep, heq⟩ := Option.map_eq_some_iff.mp hsome
    obtain ⟨rfl, -⟩ := Prod.mk.inj heq
    exact .node hstep
  | frame frame =>
    obtain ⟨node, hstep, heq⟩ := Option.map_eq_some_iff.mp h
    obtain ⟨rfl, -⟩ := Prod.mk.inj heq
    have hsending := congrArg Option.isSome (wsNodeHandle_sending codec s.handler frame)
    exact .same rfl rfl (.inr ⟨.receive frame true, _, rfl⟩) (.inr ⟨_, hstep⟩) rfl ⟨_, rfl⟩
      hsending.symm.trans (WsNode.Node.isEnded_handled hstep)
  | ackTask =>
    obtain ⟨⟨handler, effects⟩, hstep, hsome⟩ := Option.bind_eq_some_iff.mp h
    have hsending := ackTask_sending hstep
    have hpending : handler.sending.isSome = true → s.pending = true := by
      rw [hsending]
      exact id
    simp only at hsome
    split at hsome
    · obtain ⟨node, henqueue, heq⟩ := Option.map_eq_some_iff.mp hsome
      obtain ⟨rfl, -⟩ := Prod.mk.inj heq
      exact .same rfl rfl (.inr ⟨_, _, hstep⟩) (.inr ⟨_, henqueue⟩) rfl ⟨_, rfl⟩ hpending
        (WsNode.Node.isEnded_enqueue henqueue)
    · obtain ⟨rfl, -⟩ := Prod.mk.inj (Option.some.inj hsome)
      exact .same rfl rfl (.inr ⟨_, _, hstep⟩) (.inl rfl) rfl ⟨_, rfl⟩ hpending rfl
  | sendRaw frame =>
    obtain ⟨-, hsome⟩ := Option.ite_none_left_eq_some.mp h
    split at hsome
    · obtain ⟨node, henqueue, heq⟩ := Option.map_eq_some_iff.mp hsome
      obtain ⟨rfl, -⟩ := Prod.mk.inj heq
      exact .same rfl rfl (.inl rfl) (.inr ⟨_, henqueue⟩) rfl ⟨_, rfl⟩ id
        (WsNode.Node.isEnded_enqueue henqueue)
    · obtain ⟨rfl, -⟩ := Prod.mk.inj (Option.some.inj hsome)
      exact .same rfl rfl (.inl rfl) (.inl rfl) rfl ⟨_, rfl⟩ id rfl
  | send payload timeout =>
    obtain ⟨⟨handler, effects⟩, hsome, heq⟩ := Option.map_eq_some_iff.mp h
    obtain ⟨hidle, hsome⟩ := Option.ite_none_right_eq_some.mp hsome
    obtain ⟨rfl, -⟩ := Prod.mk.inj heq
    obtain rfl : (s.handler.send codec payload).1 = handler :=
      congrArg Prod.fst (Option.some.inj hsome)
    exact .send (Option.isSome_eq_false_iff.mpr hidle)
  | poll =>
    simp only [step] at h
    split at h
    · cases hconnected : s.isConnected with
      | true =>
        rw [hconnected, if_pos rfl] at h
        obtain ⟨rfl, -⟩ := Prod.mk.inj (Option.some.inj h)
        refine .same rfl ?_ (.inl rfl) (.inl rfl) hconnected.symm ⟨_, rfl⟩ id rfl
        rw [fails, hconnected]
        rfl
      | false =>
        rw [hconnected, if_neg Bool.false_ne_true] at h
        refine moves_again h rfl (.inl ?_)
        rw [fails, hconnected]
        rfl
    · cases h
  | queued =>
    simp only [step] at h
    split at h
    · case h_1 sending hsending hstage =>
      obtain ⟨node, henqueue, hsome⟩ := Option.bind_eq_some_iff.mp h
      obtain ⟨⟨handler, effects⟩, htransmit, heq⟩ := Option.map_eq_some_iff.mp hsome
      obtain ⟨rfl, -⟩ := Prod.mk.inj heq
      refine .same rfl rfl (.inr ⟨_, _, htransmit⟩) (.inr ⟨_, henqueue⟩) rfl ⟨_, rfl⟩
        (fun _ => ?_) (WsNode.Node.isEnded_enqueue henqueue)
      rw [pending, hsending]
      rfl
    · cases h
  | queueClosed =>
    simp only [step] at h
    split at h
    · case h_1 hstage hqueue =>
      refine moves_again h rfl (.inl ?_)
      rw [fails, hqueue]
      rfl
    · cases h
  | recvAck =>
    simp only [step] at h
    split at h
    · obtain ⟨⟨handler, effects⟩, hstep, heq⟩ := Option.map_eq_some_iff.mp h
      obtain ⟨rfl, -⟩ := Prod.mk.inj heq
      exact .same rfl rfl (.inr ⟨_, _, hstep⟩) (.inl rfl) rfl ⟨_, rfl⟩
        (fun _ => recvAck_sending hstep) rfl
    · cases h
  | ackClosed =>
    simp only [step] at h
    split at h
    · case h_1 hstage hacks howns =>
      refine moves_again h rfl (.inl ?_)
      rw [fails, howns]
      rfl
    · cases h
  | timeout =>
    obtain ⟨hover, h⟩ := Option.ite_none_right_eq_some.mp h
    exact moves_again h rfl (.inr ⟨rfl, hover⟩)
  | abort =>
    obtain ⟨⟨handler, effects⟩, hstep, heq⟩ := Option.map_eq_some_iff.mp h
    obtain ⟨hsending, -⟩ := Option.ite_none_right_eq_some.mp hstep
    obtain ⟨rfl, -⟩ := Prod.mk.inj heq
    exact .same rfl rfl (.inr ⟨_, _, hstep⟩) (.inl rfl) rfl ⟨_, rfl⟩ (fun _ => hsending) rfl

/-! ## Runs -/

/-- A step of the machine, with its effects. -/
theorem machine_step (h : (machine codec nodeId).step s e = some s') :
    s.step codec e = some (s', s.effects codec e) := by
  obtain ⟨⟨s₁, effs⟩, hstep, rfl⟩ := Option.map_eq_some_iff.mp h
  rw [effects, hstep]
  rfl

/-- **The handler and the node are what they are on their own.** -/
theorem parts_reachable (hs : (machine codec nodeId).Reachable s) :
    (Endpoint.machine codec .rust nodeId).Reachable (.rust s.handler) ∧
      WsNode.Node.machine.Reachable s.node := by
  refine StateMachine.invariant (M := machine codec nodeId)
    (I := fun s => (Endpoint.machine codec .rust nodeId).Reachable (.rust s.handler) ∧
      WsNode.Node.machine.Reachable s.node) ⟨.init, .init⟩ ?_ hs
  rintro s e s' - ⟨hhandler, hnode⟩ hstep
  have hstepped : ∀ {h' e effs}, s.handler.step codec e = some (h', effs) →
      (Endpoint.machine codec .rust nodeId).Reachable (.rust h') := by
    intro h' e effs hstep
    refine hhandler.step (e := e) ?_
    change ((s.handler.step codec e).map (Prod.map Endpoint.rust id)).map Prod.fst = _
    rw [hstep]
    rfl
  cases step_moves (machine_step hstep) with
  | same _ _ hhandler' hnode' =>
    constructor
    · rcases hhandler' with heq | ⟨e, effs, hstep⟩
      · rw [heq]
        exact hhandler
      · exact hstepped hstep
    · rcases hnode' with heq | ⟨e, hstep⟩
      · rw [heq]
        exact hnode
      · exact hnode.step hstep
  | node hnode' => exact ⟨hhandler, hnode.step hnode'⟩
  | send hidle =>
    refine ⟨hstepped (e := .send _ true) (if_pos ?_), hnode⟩
    exact Option.isSome_eq_false_iff.mp hidle
  | again _ hsending =>
    obtain ⟨⟨handler, effs⟩, htransmit, heq⟩ := Option.map_eq_some_iff.mp (again_eq hsending)
    rw [← congrArg (fun r => r.1.handler) heq]
    exact ⟨hstepped htransmit, hnode⟩

/-- After the end of `run_loop`, there is no connection. -/
theorem not_isConnected_of_hasEnded (hs : (machine codec nodeId).Reachable s)
    (hended : s.hasEnded = true) : s.isConnected = false := by
  revert hended
  refine StateMachine.invariant (M := machine codec nodeId)
    (I := fun s => s.hasEnded = true → s.isConnected = false) (fun _ => rfl) ?_ hs
  intro s e s' _ ih hstep hended
  cases step_moves (machine_step hstep) with
  | same _ _ _ _ hconnected _ _ hsame =>
    rw [hconnected]
    exact ih (hsame.symm.trans hended)
  | node hstep => exact WsNode.connectedState_of_isEnded hended
  | send => exact ih hended
  | again => exact ih hended

/-- The next attempt finds what the last one has found. -/
theorem again_spec (h : s.pending = true) : ∃ s', s.again codec = some (s', []) ∧
    s'.pending = true ∧ s'.attempt.stage = .begun ∧ s'.isConnected = s.isConnected := by
  obtain ⟨sending, hsending⟩ := Option.isSome_iff_exists.mp h
  exact ⟨_, again_eq hsending, rfl, rfl, rfl⟩

/-- Without a connection, the loop goes round and round. -/
theorem polls (hpending : s.pending = true) (hbegun : s.attempt.stage = .begun)
    (hconnected : s.isConnected = false) (n : ℕ) :
    ∃ s', (machine codec nodeId).run s (List.replicate n .poll) = some s' ∧
      (machine codec nodeId).trace (effects codec) s (List.replicate n .poll) = [] := by
  induction n generalizing s with
  | zero => exact ⟨s, rfl, rfl⟩
  | succ n ih =>
    obtain ⟨s₁, hagain, hpending₁, hbegun₁, hsame⟩ : ∃ s₁, s.again codec = some (s₁, []) ∧
      s₁.pending = true ∧ s₁.attempt.stage = .begun ∧ s₁.isConnected = s.isConnected :=
        again_spec hpending
    obtain ⟨sending, hsending⟩ := Option.isSome_iff_exists.mp hpending
    have hpoll : s.step codec .poll = some (s₁, []) := by
      simp only [step, hsending, hbegun, hconnected, Bool.false_eq_true, if_false, hagain]
    obtain ⟨s', hrun, htrace⟩ := ih hpending₁ hbegun₁ (hsame.trans hconnected)
    have hstep := congrArg (Option.map Prod.fst) hpoll
    refine ⟨s', StateMachine.run_cons_eq_some.mpr ⟨s₁, hstep, hrun⟩, ?_⟩
    rw [List.replicate_succ, StateMachine.trace_cons hstep, htrace, effects, hpoll]
    rfl

/-- **After the end of `run_loop`, a `send` in progress need never return.** -/
theorem not_ends (hs : (machine codec nodeId).Reachable s) (hended : s.hasEnded = true)
    (hpending : s.pending = true) (n : ℕ) :
    ∃ es s', (machine codec nodeId).run s es = some s' ∧ .abort ∉ es ∧
      n ≤ es.countP HandlingEvent.ofSend ∧
        (machine codec nodeId).trace (effects codec) s es = [] := by
  -- the timeout brings the loop to its next attempt
  let s₁ : WsNodeHandler τ κ := { s with now := s.now + (s.attempt.start + s.attempt.timeout) }
  have helapse : s.step codec (.elapse (s.attempt.start + s.attempt.timeout)) = some (s₁, []) := rfl
  have hstep₁ := congrArg (Option.map Prod.fst) helapse
  obtain ⟨s₂, hagain, hpending₂, hbegun, hsame⟩ : ∃ s₂, s₁.again codec = some (s₂, []) ∧
    s₂.pending = true ∧ s₂.attempt.stage = .begun ∧ s₂.isConnected = s.isConnected :=
      again_spec hpending
  have htimeout : s₁.step codec .timeout = some (s₂, []) :=
    (if_pos (Nat.le_add_left _ _)).trans hagain
  have hstep₂ := congrArg (Option.map Prod.fst) htimeout
  have hconnected : s.isConnected = false := not_isConnected_of_hasEnded hs hended
  obtain ⟨s', hrun, htrace⟩ : ∃ s',
      (machine codec nodeId).run s₂ (List.replicate n .poll) = some s' ∧
        (machine codec nodeId).trace (effects codec) s₂ (List.replicate n .poll) = [] :=
    polls hpending₂ hbegun (hsame.trans hconnected) n
  refine ⟨.elapse (s.attempt.start + s.attempt.timeout) :: .timeout :: List.replicate n .poll, s',
    ?_, ?_, ?_, ?_⟩
  · exact StateMachine.run_cons_eq_some.mpr
      ⟨s₁, hstep₁, StateMachine.run_cons_eq_some.mpr ⟨s₂, hstep₂, hrun⟩⟩
  · simp [List.mem_replicate]
  · rw [List.countP_cons, List.countP_cons, List.countP_replicate]
    exact Nat.le_add_right_of_le (Nat.le_add_right n _)
  · rw [StateMachine.trace_cons hstep₁, StateMachine.trace_cons hstep₂, htrace, effects, effects,
      helapse, htimeout]
    rfl

/-! ## The attempts -/

/-- After the end of `run_loop`, no `send` must be in progress. -/
theorem attempts_iff (hs : (machine codec nodeId).Reachable s) : Attempts codec nodeId s ↔
    ((s.attempt.start :: s.attempt.earlier).IsChain fun later earlier =>
      earlier + s.attempt.timeout ≤ later) ∧ ¬(s.hasEnded = true ∧ s.pending = true) := by
  constructor
  · rintro ⟨hpaced, hends⟩
    refine ⟨hpaced, fun ⟨hended, hpending⟩ => ?_⟩
    obtain ⟨sending, hsending⟩ := Option.isSome_iff_exists.mp hpending
    obtain ⟨n, hn⟩ := hends hended sending hsending
    obtain ⟨es, s', hrun, habort, hle, htrace⟩ := not_ends hs hended hpending n
    obtain ⟨res, hmem⟩ := hn es s' hrun habort hle
    rw [htrace] at hmem
    cases hmem
  · rintro ⟨hpaced, hnot⟩
    refine ⟨hpaced, fun hended sending hsending => absurd ⟨hended, ?_⟩ hnot⟩
    rw [pending, hsending]
    rfl

/-- A `send` is in progress as soon as its message has been encoded. -/
theorem send_sending {h : TransportHandler τ κ} (codec : Codec τ κ) (payload : τ)
    (hidle : h.sending = none) : (h.send codec payload).1.sending.isSome = true ↔
      ∃ wire, codec.encode (.normal h.seqNumOut h.nodeIdOut payload) = .ok wire := by
  simp only [TransportHandler.send]
  cases hencode : codec.encode (.normal h.seqNumOut h.nodeIdOut payload) with
  | error err => simp [hidle]
  | ok wire => simp

theorem sound_iff_of_plain (h : e.plain = true) : s.Sound codec e ↔
    (s.fails e = true → s.attempt.start + s.attempt.timeout ≤ s.now) := by
  cases e with
  | node e' => cases h
  | send payload timeout => cases h
  | _ => exact Iff.rfl

/-- **A step keeps the attempts as they should be if and only if it is sound.** -/
theorem attempts_step_iff (hs : (machine codec nodeId).Reachable s)
    (h : Attempts codec nodeId s) (hstep : (machine codec nodeId).step s e = some s') :
    Attempts codec nodeId s' ↔ s.Sound codec e := by
  rw [attempts_iff (hs.step hstep)]
  obtain ⟨hpaced, hnot⟩ := (attempts_iff hs).mp h
  cases step_moves (machine_step hstep) with
  | same hplain hfails _ _ _ hattempt hpending hended =>
    obtain ⟨stage, hattempt⟩ := hattempt
    rw [sound_iff_of_plain hplain, hattempt]
    refine iff_of_true ⟨hpaced, fun ⟨hended', hpending'⟩ => ?_⟩ fun hfails' => ?_
    · exact hnot ⟨hended.symm.trans hended', hpending hpending'⟩
    · exact absurd (hfails.symm.trans hfails') Bool.false_ne_true
  | @node e' node hnode =>
    constructor
    · rintro ⟨-, hnot'⟩ hpending node' hmem
      obtain rfl := Option.some.inj (hnode.symm.trans hmem)
      exact Bool.eq_false_iff.mpr fun hended => hnot' ⟨hended, hpending⟩
    · intro hsound
      refine ⟨hpaced, fun ⟨hended, hpending⟩ => ?_⟩
      cases (hsound hpending node hnode).symm.trans hended
  | @send payload timeout hidle =>
    have hsends := send_sending codec payload
      (Option.isNone_iff_eq_none.mp (Option.isSome_eq_false_iff.mp hidle))
    constructor
    · rintro ⟨-, hnot'⟩ wire hencode
      exact Bool.eq_false_iff.mpr fun hended => hnot' ⟨hended, hsends.mpr ⟨wire, hencode⟩⟩
    · intro hsound
      refine ⟨.singleton _, fun ⟨hended, hpending⟩ => ?_⟩
      obtain ⟨wire, hencode⟩ := hsends.mp hpending
      cases (hsound wire hencode).symm.trans hended
  | again hplain hsending hwhy =>
    have hgoes : ¬(s.hasEnded = true ∧ true = true) := by
      refine fun ⟨hended, _⟩ => hnot ⟨hended, ?_⟩
      rw [pending, hsending]
      rfl
    have hlate : (s.now :: s.attempt.start :: s.attempt.earlier).IsChain
        (fun later earlier => earlier + s.attempt.timeout ≤ later) ↔
          s.attempt.start + s.attempt.timeout ≤ s.now :=
      List.isChain_cons_cons.trans (and_iff_left hpaced)
    rw [sound_iff_of_plain hplain]
    refine (and_iff_left hgoes).trans (hlate.trans ?_)
    rcases hwhy with hfails | ⟨hfails, hover⟩
    · exact ⟨fun hle _ => hle, fun h => h hfails⟩
    · exact ⟨fun hle _ => hle, fun _ => hover⟩

/-- **Retries are paced and end with the node if and only if** no attempt fails early, and no
`send` is left to a node that has ended. -/
theorem retries_iff {es : List (HandlingEvent τ κ)}
    (hrun : (machine codec nodeId).run (init nodeId) es = some s) :
    (machine codec nodeId).Throughout (Attempts codec nodeId) (init nodeId) es ↔
      (machine codec nodeId).Along (Sound codec) (init nodeId) es := by
  refine StateMachine.throughout_iff_along (M := machine codec nodeId) ?_
    (fun s e s' hs h hstep => attempts_step_iff hs h hstep) hrun
  exact (attempts_iff .init).mpr ⟨.singleton _, nofun⟩

/-- A `send` that begins before there is a connection. -/
def unconnected : List (HandlingEvent ℕ (TransportMsg ℕ)) := [.send 7 200, .poll]

/-- A `send` whose attempt is under way when the message handler panics, which ends `run_loop`. -/
def panicked : List (HandlingEvent ℕ (TransportMsg ℕ)) :=
  [.node (.connect true), .send 7 200, .poll, .queued, .node (.receive .panics),
    .node .joinReceive]

/-- The second attempt begins at once; and the loop need never end. -/
theorem not_attempts_unconnected :
    (∃ s, (machine (.identity ℕ) "id").run (init "id") unconnected = some s ∧
      s.attempt.start = 0 ∧ s.attempt.earlier = [0] ∧ ¬Attempts (.identity ℕ) "id" s) ∧
    ∃ s, (machine (.identity ℕ) "id").run (init "id") panicked = some s ∧
      s.hasEnded = true ∧ ¬Attempts (.identity ℕ) "id" s := by
  refine ⟨⟨_, rfl, rfl, rfl, fun h => ?_⟩, ⟨_, rfl, rfl, fun h => ?_⟩⟩
  · exact absurd h.paced (by decide)
  · exact ((attempts_iff ⟨panicked, rfl⟩).mp h).2 ⟨rfl, rfl⟩

/-- A `send` that is acknowledged after its second attempt. -/
def acknowledged : List (HandlingEvent ℕ (TransportMsg ℕ)) :=
  [.node (.connect true), .send 7 200, .poll, .queued, .elapse 200, .timeout, .poll, .queued,
    .frame (.ack 0 "peer"), .recvAck]

theorem retries_iff_acknowledged :
    (machine (.identity ℕ) "id").Throughout (Attempts (.identity ℕ) "id") (init "id")
      acknowledged := by
  -- nothing fails, and the node goes on
  have hnot : ∀ {p : Prop}, false = true → p := fun h => absurd h Bool.false_ne_true
  refine (retries_iff rfl).mpr ?_
  refine .cons hnot rfl (.cons (fun _ _ => rfl) rfl (.cons hnot rfl (.cons hnot rfl
    (.cons hnot rfl (.cons hnot rfl (.cons hnot rfl (.cons hnot rfl (.cons hnot rfl
      (.cons hnot rfl .nil)))))))))

end WsNodeHandler

end Rs

end Vamp
