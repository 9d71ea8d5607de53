import Mathlib.Logic.Function.Basic
import Vamp.MsgProcessor
import Vamp.StateMachine

/-!
# The signalling server as a state machine

`run_server_with_config` and `run_connection` of `ws_server.rs`: the accept loop,
and for every connection the task that drives it together with the three tasks it
spawns (`listen_task`, `egress_task`, `start_idle_checker`). A step of the machine
is what one task does between two awaits, so every interleaving of the tasks of
every connection is a run.

What the environment decides is in the events: when a frame arrives and what is in
it, what the clock says, whether a socket write succeeds, when the idle checker
fires. The idle checker's timing is not restricted here; it may close its
connection at any moment.
-/

namespace Vamp

variable {V : Type}

/-- The part of `ServerConfig` that the tasks use. (The message size limit acts
inside the websocket library, the two delays in the idle checker's timing.) -/
structure ServerConfig : Type where
  /-- capacity of an egress queue -/
  sendBufferLimit : ℕ := 100
  /-- messages let through in one second -/
  messagesPerSecond : ℕ := 10
  /-- messages let through on one connection -/
  messagesPerConnection : ℕ := 128
  deriving DecidableEq, Repr

/-! ## One connection -/

/-- Where a connection's `listen_task` stands. -/
inductive ListenTask : Type where
  /-- in the `select!`, waiting for a frame or for the close notifier -/
  | awaiting
  /-- in `process`, waiting for the server lock -/
  | locking (message : Message) (parsed : ParsedMessage)
  /-- in `process`, holding the destination's handler, the lock released -/
  | forwarding (message : Message) (parsed : ParsedMessage) (dst : ConnectionHandler)
  /-- returned -/
  | finished
  deriving DecidableEq

/-- Where a connection's `egress_task` stands. -/
inductive EgressTask : Type where
  /-- in the `select!`, waiting for a queued message or for the close notifier -/
  | awaiting
  /-- writing a message to the socket -/
  | sending (message : Message)
  /-- out of the loop, closing the socket -/
  | closing
  /-- returned; the receiving half of the queue is gone -/
  | finished
  deriving DecidableEq

/-- Where `run_connection` stands. -/
inductive ConnectionStage : Type where
  /-- the tasks are spawned, `record_connection` is still to come -/
  | spawned
  /-- the connection is in the connection table -/
  | recorded
  /-- `remove_records_for` is done -/
  | removed
  deriving DecidableEq, Repr

/-- A connection: the state of its four tasks and what they share. -/
structure Connection : Type where
  /-- where `run_connection` stands -/
  stage : ConnectionStage
  /-- where `listen_task` stands -/
  listen : ListenTask
  /-- where `egress_task` stands -/
  egress : EgressTask
  /-- whether `start_idle_checker` has returned -/
  idleChecked : Bool
  /-- the message processor, with the close notifier that all tasks share -/
  processor : MsgProcessor
  /-- the egress queue, oldest message first -/
  queue : List Message
  deriving DecidableEq

/-- What the tasks of a connection do on their own, without the server lock and
without touching another connection. -/
inductive TaskEvent : Type where
  /-- `listen_task` receives a message at time `now` -/
  | receive (now : Instant) (message : Message)
  /-- `listen_task` meets a read error or the end of the stream -/
  | ingressEnd
  /-- `listen_task` sees the close notifier -/
  | listenCancelled
  /-- `egress_task` takes a message from the queue -/
  | egressRecv
  /-- the socket write of `egress_task` ends -/
  | egressSent (ok : Bool)
  /-- `egress_task` sees the close notifier -/
  | egressCancelled
  /-- `egress_task` has closed the socket and returns -/
  | egressClosed
  /-- `start_idle_checker` closes the connection and returns -/
  | idleClose
  /-- `start_idle_checker` sees the close notifier -/
  | idleCancelled
  deriving DecidableEq

namespace Connection

/-- `run_connection` up to its first await. -/
def start (cfg : ServerConfig) (now : Instant) : Connection where
  stage := .spawned
  listen := .awaiting
  egress := .awaiting
  idleChecked := false
  processor :=
    { closeNotifier := false
      msgRateLimiter := .new now cfg.messagesPerSecond cfg.messagesPerConnection
      nonIdleMarker := {} }
  queue := []

/-- The branded tag. -/
abbrev tag (k : Connection) : Option RoutingTag := k.processor.tag

/-- `close_notifier.cancel()`. -/
def cancel (k : Connection) : Connection :=
  { k with processor := { k.processor with closeNotifier := true } }

/-- `listen_task` leaves its loop and returns the tag. -/
def finishListen (k : Connection) : Connection := { k.cancel with listen := .finished }

/-- `listen_task` receives a message: the first segment of `process`, or the end
of the loop at a close frame. -/
def receive (fromStr : String → Option (WireMsg V)) (k : Connection) (metrics : ServerMetrics)
    (now : Instant) (message : Message) : Connection × ServerMetrics :=
  if message.isClose then
    (k.finishListen, metrics)
  else
    match k.processor.beforeLock fromStr metrics now message with
    | (processor, metrics, .returned (.ok _)) => ({ k with processor := processor }, metrics)
    | (processor, metrics, .returned (.error _)) =>
      ({ k with processor := processor }.finishListen, metrics)
    | (processor, metrics, .admitted parsed) =>
      ({ k with processor := processor, listen := .locking message parsed }, metrics)

/-- The steps of a connection's tasks that concern nobody else. -/
def step (fromStr : String → Option (WireMsg V)) (k : Connection) (metrics : ServerMetrics) :
    TaskEvent → Option (Connection × ServerMetrics)
  | .receive now message =>
    if k.listen = .awaiting then some (k.receive fromStr metrics now message) else none
  | .ingressEnd => if k.listen = .awaiting then some (k.finishListen, metrics) else none
  | .listenCancelled =>
    if k.listen = .awaiting ∧ k.processor.closeNotifier then some (k.finishListen, metrics)
    else none
  | .egressRecv =>
    match k.egress, k.queue with
    | .awaiting, message :: queue =>
      some ({ k with egress := .sending message, queue := queue }, metrics)
    | _, _ => none
  | .egressSent ok =>
    match k.egress with
    | .sending _ =>
      if ok then some ({ k with egress := .awaiting }, metrics)
      else some ({ k.cancel with egress := .closing }, metrics)
    | _ => none
  | .egressCancelled =>
    if k.egress = .awaiting ∧ k.processor.closeNotifier then
      some ({ k with egress := .closing }, metrics)
    else none
  | .egressClosed =>
    -- the receiver is dropped, and what is left in the queue with it
    if k.egress = .closing then some ({ k with egress := .finished, queue := [] }, metrics)
    else none
  | .idleClose =>
    if k.idleChecked = false then some ({ k.cancel with idleChecked := true }, metrics) else none
  | .idleCancelled =>
    if k.idleChecked = false ∧ k.processor.closeNotifier then
      some ({ k with idleChecked := true }, metrics)
    else none

/-- `try_send` on a connection's egress queue: refused when the receiver is gone
or the queue is full. -/
def trySend (limit : ℕ) (k : Connection) (message : Message) : Option Connection :=
  if k.egress = .finished then none
  else if limit ≤ k.queue.length then none
  else some { k with queue := k.queue ++ [message] }

/-- The queue takes another message. -/
def Accepts (limit : ℕ) (k : Connection) : Prop :=
  k.egress ≠ .finished ∧ k.queue.length < limit

instance (limit : ℕ) (k : Connection) : Decidable (k.Accepts limit) :=
  inferInstanceAs (Decidable (_ ∧ _))

/-- `try_send` succeeds exactly on a queue that takes another message. -/
theorem trySend_eq_some {limit : ℕ} {k k' : Connection} {message : Message} :
    k.trySend limit message = some k' ↔
      k.Accepts limit ∧ k' = { k with queue := k.queue ++ [message] } := by
  unfold trySend Accepts
  by_cases he : k.egress = .finished
  · simp [he]
  · by_cases hl : limit ≤ k.queue.length
    · simp [he, hl]
    · rw [if_neg he, if_neg hl, Option.some.injEq]
      exact ⟨fun h => ⟨⟨he, not_le.mp hl⟩, h.symm⟩, fun h => h.2.symm⟩

theorem trySend_eq_none {limit : ℕ} {k : Connection} {message : Message} :
    k.trySend limit message = none ↔ ¬ k.Accepts limit := by
  rw [Option.eq_none_iff_forall_ne_some]
  constructor
  · intro h hacc
    exact h _ (trySend_eq_some.mpr ⟨hacc, rfl⟩)
  · intro h k' hk'
    exact h (trySend_eq_some.mp hk').1

/-- `process` is at work on an admitted message: it waits for the lock, or holds a
forwarding queue. -/
def InProcess (k : Connection) (message : Message) (parsed : ParsedMessage) : Prop :=
  k.listen = .locking message parsed ∨ ∃ dst, k.listen = .forwarding message parsed dst

section InProcess

variable {k k' : Connection} {message message' : Message} {parsed parsed' : ParsedMessage}

/-- The task that waits for a message, and the task that has returned, have none. -/
theorem not_inProcess (h : k.listen = .awaiting ∨ k.listen = .finished) :
    ¬ k.InProcess message parsed := by
  rintro (hl | ⟨dst, hl⟩)
  · rcases h with h | h <;> cases h.symm.trans hl
  · rcases h with h | h <;> cases h.symm.trans hl

theorem InProcess.of_locking (h : k.InProcess message parsed)
    (hl : k.listen = .locking message' parsed') : message' = message ∧ parsed' = parsed := by
  rcases h with h | ⟨dst, h⟩
  · exact ListenTask.locking.inj (hl.symm.trans h)
  · cases hl.symm.trans h

theorem InProcess.of_forwarding {dst : ConnectionHandler} (h : k.InProcess message parsed)
    (hl : k.listen = .forwarding message' parsed' dst) :
    message' = message ∧ parsed' = parsed := by
  rcases h with h | ⟨dst', h⟩
  · cases hl.symm.trans h
  · obtain ⟨hmessage, hparsed, -⟩ := ListenTask.forwarding.inj (hl.symm.trans h)
    exact ⟨hmessage, hparsed⟩

/-- A task that stays where it is, or has no message afterwards, was at work on the message
before. -/
theorem InProcess.before (h : k'.InProcess message parsed)
    (hl : k'.listen = k.listen ∨ k'.listen = .awaiting ∨ k'.listen = .finished) :
    k.InProcess message parsed := by
  rcases hl with hl | hl
  · rw [InProcess, ← hl]
    exact h
  · exact absurd h (not_inProcess hl)

end InProcess

/-- All tasks of the connection have returned. -/
structure Ended (k : Connection) : Prop where
  /-- `listen_task` has -/
  listen : k.listen = .finished
  /-- `egress_task` has -/
  egress : k.egress = .finished
  /-- `start_idle_checker` has -/
  idle : k.idleChecked = true

/-- **What receiving a message can do**: it is admitted, and `listen_task` goes to
the lock with it; or the task waits for the next one or returns, and nothing that
other connections see has changed. -/
theorem receive_cases (fromStr : String → Option (WireMsg V)) (k : Connection)
    (metrics : ServerMetrics) (now : Instant) (message : Message) :
    (∃ parsed, (k.receive fromStr metrics now message).1.listen = .locking message parsed ∧
      k.processor.Admissible fromStr now message parsed ∧
      (k.receive fromStr metrics now message).1.tag = some parsed.rttTag ∧
      (k.receive fromStr metrics now message).1.processor.nonIdleMarker =
        k.processor.nonIdleMarker.incrementIncoming) ∨
    (((k.receive fromStr metrics now message).1.listen = k.listen ∨
        (k.receive fromStr metrics now message).1.listen = .finished) ∧
      (k.receive fromStr metrics now message).1.tag = k.tag ∧
      (k.receive fromStr metrics now message).1.processor.nonIdleMarker =
        k.processor.nonIdleMarker) := by
  unfold receive
  by_cases hclose : message.isClose = true
  · rw [if_pos hclose]
    exact Or.inr ⟨Or.inr rfl, rfl, rfl⟩
  rw [if_neg hclose]
  rcases MsgProcessor.beforeLock_cases fromStr k.processor metrics now message with
    ⟨p', metrics', res, h, htag, hmark, -⟩ | ⟨p', metrics', parsed, h, htag, hmark, -, hadm⟩
  · rw [h]
    cases res with
    | ok _ => exact Or.inr ⟨Or.inl rfl, htag, hmark⟩
    | error _ => exact Or.inr ⟨Or.inr rfl, htag, hmark⟩
  · rw [h]
    exact Or.inl ⟨parsed, rfl, hadm, htag, hmark⟩

/-- Receiving a message moves nothing but `listen_task` and the processor. -/
theorem receive_frame (fromStr : String → Option (WireMsg V)) (k : Connection)
    (metrics : ServerMetrics) (now : Instant) (message : Message) :
    (k.receive fromStr metrics now message).1.stage = k.stage ∧
    (k.receive fromStr metrics now message).1.egress = k.egress ∧
    (k.receive fromStr metrics now message).1.queue = k.queue := by
  unfold receive
  by_cases hclose : message.isClose = true
  · rw [if_pos hclose]
    exact ⟨rfl, rfl, rfl⟩
  rw [if_neg hclose]
  rcases MsgProcessor.beforeLock_cases fromStr k.processor metrics now message with
    ⟨p', metrics', res, h, -⟩ | ⟨p', metrics', parsed, h, -⟩
  · rw [h]
    cases res with
    | ok _ => exact ⟨rfl, rfl, rfl⟩
    | error _ => exact ⟨rfl, rfl, rfl⟩
  · rw [h]
    exact ⟨rfl, rfl, rfl⟩

/-- **What a task can do on its own.** It admits a message, or it leaves the tag,
the counters and (but for its return) `listen_task` as they are. -/
theorem step_cases {fromStr : String → Option (WireMsg V)} {k k' : Connection}
    {metrics metrics' : ServerMetrics} {e : TaskEvent}
    (h : k.step fromStr metrics e = some (k', metrics')) :
    k'.stage = k.stage ∧
    ((∃ now message parsed, e = .receive now message ∧ k.listen = .awaiting ∧
        k'.listen = .locking message parsed ∧
        k.processor.Admissible fromStr now message parsed ∧ k'.tag = some parsed.rttTag ∧
        k'.processor.nonIdleMarker = k.processor.nonIdleMarker.incrementIncoming) ∨
      ((k'.listen = k.listen ∨ k.listen = .awaiting ∧ k'.listen = .finished) ∧
        k'.tag = k.tag ∧ k'.processor.nonIdleMarker = k.processor.nonIdleMarker)) := by
  cases e with
  -- only what is received can set the tag or the marker
  | receive now message =>
    by_cases hl : k.listen = .awaiting
    · simp only [step, if_pos hl, Option.some.injEq] at h
      have hk : k' = (k.receive fromStr metrics now message).1 := by rw [h]
      subst hk
      refine ⟨(receive_frame fromStr k metrics now message).1, ?_⟩
      rcases receive_cases fromStr k metrics now message with
        ⟨parsed, hlock, hadm, htag, hmark⟩ | ⟨hlisten, htag, hmark⟩
      · exact Or.inl ⟨now, message, parsed, rfl, hl, hlock, hadm, htag, hmark⟩
      · exact Or.inr ⟨hlisten.imp_right fun hf => ⟨hl, hf⟩, htag, hmark⟩
    · simp [step, hl] at h
  | ingressEnd =>
    by_cases hl : k.listen = .awaiting
    · simp only [step, if_pos hl, Option.some.injEq, Prod.mk.injEq] at h
      obtain ⟨rfl, -⟩ := h
      exact ⟨rfl, Or.inr ⟨Or.inr ⟨hl, rfl⟩, rfl, rfl⟩⟩
    · simp [step, hl] at h
  | listenCancelled =>
    by_cases hl : k.listen = .awaiting ∧ k.processor.closeNotifier = true
    · simp only [step, if_pos hl, Option.some.injEq, Prod.mk.injEq] at h
      obtain ⟨rfl, -⟩ := h
      exact ⟨rfl, Or.inr ⟨Or.inr ⟨hl.1, rfl⟩, rfl, rfl⟩⟩
    · simp only [step, if_neg hl, reduceCtorEq] at h
  | egressRecv =>
    simp only [step] at h
    split at h
    · simp only [Option.some.injEq, Prod.mk.injEq] at h
      obtain ⟨rfl, -⟩ := h
      exact ⟨rfl, Or.inr ⟨Or.inl rfl, rfl, rfl⟩⟩
    · cases h
  | egressSent ok =>
    simp only [step] at h
    split at h
    · cases ok with
      | true =>
        simp only [if_true, Option.some.injEq, Prod.mk.injEq] at h
        obtain ⟨rfl, -⟩ := h
        exact ⟨rfl, Or.inr ⟨Or.inl rfl, rfl, rfl⟩⟩
      | false =>
        simp only [Bool.false_eq_true, if_false, Option.some.injEq, Prod.mk.injEq] at h
        obtain ⟨rfl, -⟩ := h
        exact ⟨rfl, Or.inr ⟨Or.inl rfl, rfl, rfl⟩⟩
    · cases h
  | egressCancelled =>
    simp only [step, Option.ite_none_right_eq_some, Option.some.injEq, Prod.mk.injEq] at h
    obtain ⟨-, rfl, -⟩ := h
    exact ⟨rfl, Or.inr ⟨Or.inl rfl, rfl, rfl⟩⟩
  | egressClosed =>
    simp only [step, Option.ite_none_right_eq_some, Option.some.injEq, Prod.mk.injEq] at h
    obtain ⟨-, rfl, -⟩ := h
    exact ⟨rfl, Or.inr ⟨Or.inl rfl, rfl, rfl⟩⟩
  | idleClose =>
    simp only [step, Option.ite_none_right_eq_some, Option.some.injEq, Prod.mk.injEq] at h
    obtain ⟨-, rfl, -⟩ := h
    exact ⟨rfl, Or.inr ⟨Or.inl rfl, rfl, rfl⟩⟩
  | idleCancelled =>
    simp only [step, Option.ite_none_right_eq_some, Option.some.injEq, Prod.mk.injEq] at h
    obtain ⟨-, rfl, -⟩ := h
    exact ⟨rfl, Or.inr ⟨Or.inl rfl, rfl, rfl⟩⟩

theorem receive_metrics (fromStr : String → Option (WireMsg V)) (k : Connection)
    (metrics metrics' : ServerMetrics) (now : Instant) (message : Message) :
    (k.receive fromStr metrics now message).1 = (k.receive fromStr metrics' now message).1 := by
  unfold receive
  by_cases hclose : message.isClose = true
  · rw [if_pos hclose, if_pos hclose]
  rw [if_neg hclose, if_neg hclose]
  obtain ⟨hp, hadm⟩ := k.processor.beforeLock_metrics fromStr metrics metrics' now message
  rcases h : k.processor.beforeLock fromStr metrics now message with ⟨p, m, adm⟩
  rcases h' : k.processor.beforeLock fromStr metrics' now message with ⟨p', m', adm'⟩
  rw [h, h'] at hp hadm
  obtain rfl : p = p' := hp
  obtain rfl : adm = adm' := hadm
  rcases adm with (_ | _) | _
  · rfl
  · rfl
  · rfl

/-- The counters over all connections decide nothing for a task. -/
theorem step_metrics {fromStr : String → Option (WireMsg V)} {k k' : Connection}
    {metrics₁ metrics₁' : ServerMetrics} {e : TaskEvent}
    (h : k.step fromStr metrics₁ e = some (k', metrics₁')) (metrics₂ : ServerMetrics) :
    ∃ metrics₂', k.step fromStr metrics₂ e = some (k', metrics₂') := by
  have hfst :
      (k.step fromStr metrics₁ e).map Prod.fst = (k.step fromStr metrics₂ e).map Prod.fst := by
    cases e with
    | receive now message =>
      simp only [step]
      by_cases hl : k.listen = .awaiting
      · rw [if_pos hl, if_pos hl, Option.map_some, Option.map_some,
          receive_metrics fromStr k metrics₁ metrics₂ now message]
      · rw [if_neg hl, if_neg hl]
    | egressRecv =>
      simp only [step]
      split
      · rfl
      · rfl
    | egressSent ok =>
      simp only [step]
      split
      · split
        · rfl
        · rfl
      · rfl
    | _ =>
      simp only [step]
      split
      · rfl
      · rfl
  rw [h, Option.map_some, eq_comm, Option.map_eq_some_iff] at hfst
  obtain ⟨⟨k₂, metrics₂'⟩, h₂, rfl⟩ := hfst
  exact ⟨metrics₂', h₂⟩

/-- A task takes messages from the front of the queue, or drops what is left. -/
theorem step_queue {fromStr : String → Option (WireMsg V)} {k k' : Connection}
    {metrics metrics' : ServerMetrics} {e : TaskEvent}
    (h : k.step fromStr metrics e = some (k', metrics')) : k'.queue <:+ k.queue := by
  cases e with
  | receive now message =>
    simp only [step, Option.ite_none_right_eq_some, Option.some.injEq] at h
    have hk : k' = (k.receive fromStr metrics now message).1 := by rw [h.2]
    rw [hk, (receive_frame fromStr k metrics now message).2.2]
  | egressRecv =>
    simp only [step] at h
    split at h
    · rename_i hqueue
      simp only [Option.some.injEq, Prod.mk.injEq] at h
      obtain ⟨rfl, -⟩ := h
      rw [hqueue]
      exact List.suffix_cons ..
    · cases h
  | egressSent ok =>
    simp only [step] at h
    split at h
    · cases ok with
      | true =>
        obtain ⟨rfl, -⟩ := Prod.mk.inj (Option.some.inj h)
        exact List.suffix_rfl
      | false =>
        obtain ⟨rfl, -⟩ := Prod.mk.inj (Option.some.inj h)
        exact List.suffix_rfl
    · cases h
  | egressClosed =>
    simp only [step, Option.ite_none_right_eq_some, Option.some.injEq, Prod.mk.injEq] at h
    obtain ⟨-, rfl, -⟩ := h
    exact List.nil_suffix
  | _ =>
    simp only [step, Option.ite_none_right_eq_some, Option.some.injEq, Prod.mk.injEq] at h
    obtain ⟨-, rfl, -⟩ := h
    exact List.suffix_rfl

/-- Once all tasks have returned, none of them moves. -/
theorem Ended.step_eq_none {fromStr : String → Option (WireMsg V)} {k : Connection}
    (h : k.Ended) (metrics : ServerMetrics) (e : TaskEvent) :
    k.step fromStr metrics e = none := by
  cases e <;> simp [step, h.listen, h.egress, h.idle]

/-- A task keeps a branded tag. -/
theorem step_tag {fromStr : String → Option (WireMsg V)} {k k' : Connection}
    {metrics metrics' : ServerMetrics} {e : TaskEvent} {t : RoutingTag}
    (h : k.step fromStr metrics e = some (k', metrics')) (ht : k.tag = some t) :
    k'.tag = some t := by
  rcases step_cases h with ⟨-, ⟨now, message, parsed, -, -, -, hadm, htag, -⟩ | ⟨-, htag, -⟩⟩
  · rw [htag]
    rcases hadm.tag with hnone | hsome
    · exact absurd (hnone.symm.trans ht) (by simp)
    · exact hsome.symm.trans ht
  · exact htag.trans ht

end Connection

/-! ## The server -/

/-- The server: what the lock protects, the counters, the accept loop's next id,
and the connections whose `run_connection` has started. -/
structure Server : Type where
  /-- the tables -/
  state : ServerState
  /-- the counters -/
  metrics : ServerMetrics
  /-- the accept loop's `next_connection_id` -/
  nextConnectionId : ConnectionId
  /-- the connections, present and past -/
  conn : ConnectionId → Option Connection

/-- The events of the server. -/
inductive ServerEvent : Type where
  /-- the accept loop takes a TCP connection and hands out the next id -/
  | accept
  /-- the websocket handshake of `c` succeeds and `run_connection` starts; a failed
  handshake is an id that never opens -/
  | open (c : ConnectionId) (now : Instant)
  /-- `run_connection` takes the lock for `record_connection` -/
  | record (c : ConnectionId)
  /-- a task of `c` does something of its own -/
  | task (c : ConnectionId) (e : TaskEvent)
  /-- `process` takes the lock and looks up the forwarding queue -/
  | lookup (c : ConnectionId)
  /-- `process` enqueues at the destination -/
  | forward (c : ConnectionId)
  /-- `run_connection` has joined its tasks and takes the lock for
  `remove_records_for` -/
  | remove (c : ConnectionId)
  deriving DecidableEq

/-- The connection an event belongs to. -/
def ServerEvent.owner : ServerEvent → Option ConnectionId
  | .accept => none
  | .open c _ | .record c | .task c _ | .lookup c | .forward c | .remove c => some c

namespace Server

/-- The server before the first connection. -/
def init : Server where
  state := .default
  metrics := {}
  nextConnectionId := 0
  conn := fun _ => none

/-- Replace a connection. -/
def setConn (s : Server) (c : ConnectionId) (k : Connection) : Server :=
  { s with conn := Function.update s.conn c (some k) }

/-- What `process` makes of the lookup: without a forwarding queue the message is
skipped and `process` returns `Ok`. -/
def afterLookup (k : Connection) (message : Message) (parsed : ParsedMessage) :
    MyRes ConnectionHandler → Connection
  | .error _ => { k with listen := .awaiting }
  | .ok dst => { k with listen := .forwarding message parsed dst }

/-- What `process` does after a successful enqueue. -/
def afterForward (k : Connection) : Connection :=
  { k with
    listen := .awaiting
    processor :=
      { k.processor with nonIdleMarker := k.processor.nonIdleMarker.incrementForwarded } }

/-- One step of the server. -/
def step (cfg : ServerConfig) (fromStr : String → Option (WireMsg V)) (s : Server) :
    ServerEvent → Option Server
  | .accept => some { s with nextConnectionId := s.nextConnectionId + 1 }
  | .open c now =>
    -- `mpsc::channel` panics on a zero bound
    if c < s.nextConnectionId ∧ (s.conn c).isNone ∧ 0 < cfg.sendBufferLimit then
      some (s.setConn c (.start cfg now))
    else none
  | .record c =>
    match s.conn c with
    | some k =>
      if k.stage = .spawned then
        some { s.setConn c { k with stage := .recorded } with
          state := s.state.recordConnection c ⟨c⟩ }
      else none
    | none => none
  | .task c e =>
    match s.conn c with
    | some k =>
      match k.step fromStr s.metrics e with
      | some (k', metrics) => some { s.setConn c k' with metrics := metrics }
      | none => none
    | none => none
  | .lookup c =>
    match s.conn c with
    | some k =>
      match k.listen with
      | .locking message parsed =>
        match s.state.recordRtrAndGetForwardingQueue parsed.rttTag c parsed.hasPayload with
        | (state, res) =>
          some { s.setConn c (afterLookup k message parsed res) with state := state }
      | _ => none
    | none => none
  | .forward c =>
    match s.conn c with
    | some k =>
      match k.listen with
      | .forwarding message _ dst =>
        match s.conn dst.sendSpscQPutter with
        | some kd =>
          match kd.trySend cfg.sendBufferLimit message with
          | some kd' =>
            some { (s.setConn dst.sendSpscQPutter kd').setConn c (afterForward k) with
              metrics := s.metrics.recordForwarded }
          | none => some (s.setConn c k.finishListen)
        | none => none
      | _ => none
    | none => none
  | .remove c =>
    match s.conn c with
    | some k =>
      if k.stage = .recorded ∧ k.listen = .finished ∧ k.egress = .finished ∧ k.idleChecked then
        some { s.setConn c { k.cancel with stage := .removed } with
          state := s.state.removeRecordsFor c k.tag }
      else none
    | none => none

/-! ### What a step can do

One inversion lemma for every kind of event; later proofs never unfold `step`. -/

section Inversion

variable {cfg : ServerConfig} {fromStr : String → Option (WireMsg V)} {s s' : Server}
  {c : ConnectionId}

theorem step_open {now : Instant} (h : step cfg fromStr s (.open c now) = some s') :
    s.conn c = none ∧ s' = s.setConn c (.start cfg now) := by
  simp only [step, Option.ite_none_right_eq_some, Option.some.injEq] at h
  obtain ⟨⟨-, hnone, -⟩, rfl⟩ := h
  exact ⟨Option.isNone_iff_eq_none.mp hnone, rfl⟩

theorem step_record (h : step cfg fromStr s (.record c) = some s') :
    ∃ k, s.conn c = some k ∧ k.stage = .spawned ∧
      s' = { s.setConn c { k with stage := .recorded } with
        state := s.state.recordConnection c ⟨c⟩ } := by
  cases hk : s.conn c with
  | none => simp [step, hk] at h
  | some k =>
    simp only [step, hk, Option.ite_none_right_eq_some, Option.some.injEq] at h
    exact ⟨k, rfl, h.1, h.2.symm⟩

theorem step_task {e : TaskEvent} (h : step cfg fromStr s (.task c e) = some s') :
    ∃ k k' metrics, s.conn c = some k ∧ k.step fromStr s.metrics e = some (k', metrics) ∧
      s' = { s.setConn c k' with metrics := metrics } := by
  cases hk : s.conn c with
  | none => simp [step, hk] at h
  | some k =>
    cases hs : k.step fromStr s.metrics e with
    | none => simp [step, hk, hs] at h
    | some km =>
      simp only [step, hk, hs, Option.some.injEq] at h
      exact ⟨k, km.1, km.2, rfl, hs, h.symm⟩

theorem step_lookup (h : step cfg fromStr s (.lookup c) = some s') :
    ∃ k message parsed, s.conn c = some k ∧ k.listen = .locking message parsed ∧
      s' = { s.setConn c (afterLookup k message parsed
          (s.state.recordRtrAndGetForwardingQueue parsed.rttTag c parsed.hasPayload).2) with
        state :=
          (s.state.recordRtrAndGetForwardingQueue parsed.rttTag c parsed.hasPayload).1 } := by
  cases hk : s.conn c with
  | none => simp [step, hk] at h
  | some k =>
    cases hl : k.listen with
    | locking message parsed =>
      simp only [step, hk, hl, Option.some.injEq] at h
      exact ⟨k, message, parsed, rfl, hl, h.symm⟩
    | awaiting => simp [step, hk, hl] at h
    | forwarding message parsed dst => simp [step, hk, hl] at h
    | finished => simp [step, hk, hl] at h

theorem step_forward (h : step cfg fromStr s (.forward c) = some s') :
    ∃ k message parsed dst kd, s.conn c = some k ∧
      k.listen = .forwarding message parsed dst ∧ s.conn dst.sendSpscQPutter = some kd ∧
      ((kd.Accepts cfg.sendBufferLimit ∧
          s' = { (s.setConn dst.sendSpscQPutter { kd with queue := kd.queue ++ [message] }).setConn
              c (afterForward k) with
            metrics := s.metrics.recordForwarded }) ∨
        (¬ kd.Accepts cfg.sendBufferLimit ∧ s' = s.setConn c k.finishListen)) := by
  cases hk : s.conn c with
  | none => simp [step, hk] at h
  | some k =>
    cases hl : k.listen with
    | forwarding message parsed dst =>
      cases hd : s.conn dst.sendSpscQPutter with
      | none => simp [step, hk, hl, hd] at h
      | some kd =>
        refine ⟨k, message, parsed, dst, kd, rfl, hl, hd, ?_⟩
        cases hts : kd.trySend cfg.sendBufferLimit message with
        | none =>
          simp only [step, hk, hl, hd, hts, Option.some.injEq] at h
          exact Or.inr ⟨Connection.trySend_eq_none.mp hts, h.symm⟩
        | some kd' =>
          simp only [step, hk, hl, hd, hts, Option.some.injEq] at h
          obtain ⟨hacc, rfl⟩ := Connection.trySend_eq_some.mp hts
          exact Or.inl ⟨hacc, h.symm⟩
    | awaiting => simp [step, hk, hl] at h
    | locking message parsed => simp [step, hk, hl] at h
    | finished => simp [step, hk, hl] at h

theorem step_remove (h : step cfg fromStr s (.remove c) = some s') :
    ∃ k, s.conn c = some k ∧ k.stage = .recorded ∧ k.Ended ∧
      s' = { s.setConn c { k.cancel with stage := .removed } with
        state := s.state.removeRecordsFor c k.tag } := by
  cases hk : s.conn c with
  | none => simp [step, hk] at h
  | some k =>
    simp only [step, hk, Option.ite_none_right_eq_some, Option.some.injEq] at h
    obtain ⟨⟨hstage, hlisten, hegress, hidle⟩, rfl⟩ := h
    exact ⟨k, rfl, hstage, ⟨hlisten, hegress, hidle⟩, rfl⟩

end Inversion

@[simp] theorem conn_setConn_self (s : Server) (c : ConnectionId) (k : Connection) :
    (s.setConn c k).conn c = some k :=
  Function.update_self ..

theorem conn_setConn_ne (s : Server) {c d : ConnectionId} (k : Connection) (h : d ≠ c) :
    (s.setConn c k).conn d = s.conn d :=
  Function.update_of_ne h ..

/-- A connection after one was replaced: this one, or as it was. -/
theorem conn_setConn_cases {s : Server} {c d : ConnectionId} {k kd : Connection}
    (h : (s.setConn c k).conn d = some kd) :
    (d = c ∧ k = kd) ∨ (d ≠ c ∧ s.conn d = some kd) := by
  by_cases hd : d = c
  · subst hd
    exact Or.inl ⟨rfl, Option.some.inj ((conn_setConn_self s d k).symm.trans h)⟩
  · exact Or.inr ⟨hd, (conn_setConn_ne s k hd).symm.trans h⟩

/-- What a connection keeps when it is replaced, all connections keep. -/
theorem exists_conn_setConn {s : Server} {c d : ConnectionId} {k k' kd : Connection}
    {P : Connection → Prop} (hk : s.conn c = some k) (hkeep : P k → P k')
    (hkd : s.conn d = some kd) (hP : P kd) :
    ∃ kd', (s.setConn c k').conn d = some kd' ∧ P kd' := by
  by_cases hd : d = c
  · subst hd
    obtain rfl := Option.some.inj (hk.symm.trans hkd)
    exact ⟨k', conn_setConn_self s d k', hkeep hP⟩
  · exact ⟨kd, (conn_setConn_ne s k' hd).trans hkd, hP⟩

@[simp] theorem state_setConn (s : Server) (c : ConnectionId) (k : Connection) :
    (s.setConn c k).state = s.state := rfl

/-! ### Placements

What `try_send` puts into an egress queue, told apart by the number that
`increment_incoming` gave the message at its source. -/

/-- A message in an egress queue, and where it came from. -/
structure Placement : Type where
  /-- the connection that sent the message -/
  src : ConnectionId
  /-- its number among the messages accepted from that connection, counted from 1 -/
  number : ℕ
  /-- the connection whose egress queue it is placed in -/
  dst : ConnectionId
  /-- the message -/
  message : Message
  deriving DecidableEq

/-- What an event places in an egress queue. -/
def placement (cfg : ServerConfig) (s : Server) : ServerEvent → Option Placement
  | .forward c =>
    match s.conn c with
    | some k =>
      match k.listen with
      | .forwarding message _ dst =>
        match s.conn dst.sendSpscQPutter with
        | some kd =>
          if kd.Accepts cfg.sendBufferLimit then
            some ⟨c, k.processor.nonIdleMarker.incoming, dst.sendSpscQPutter, message⟩
          else none
        | none => none
      | _ => none
    | none => none
  | _ => none

theorem placement_forward {cfg : ServerConfig} {s : Server} {c : ConnectionId} {k kd : Connection}
    {message : Message} {parsed : ParsedMessage} {dst : ConnectionHandler}
    (hk : s.conn c = some k) (hl : k.listen = .forwarding message parsed dst)
    (hkd : s.conn dst.sendSpscQPutter = some kd) :
    placement cfg s (.forward c) =
      if kd.Accepts cfg.sendBufferLimit then
        some ⟨c, k.processor.nonIdleMarker.incoming, dst.sendSpscQPutter, message⟩
      else none := by
  simp only [placement, hk, hl, hkd]

/-- Inversion for a placement: an enqueue at a queue that takes the message. -/
theorem placement_eq_some {cfg : ServerConfig} {s : Server} {e : ServerEvent} {p : Placement}
    (h : placement cfg s e = some p) :
    e = .forward p.src ∧ ∃ k parsed kd, s.conn p.src = some k ∧
      k.listen = .forwarding p.message parsed ⟨p.dst⟩ ∧
      p.number = k.processor.nonIdleMarker.incoming ∧ s.conn p.dst = some kd ∧
      kd.Accepts cfg.sendBufferLimit := by
  cases e with
  | forward c =>
    cases hk : s.conn c with
    | none => simp [placement, hk] at h
    | some k =>
      cases hl : k.listen with
      | forwarding message parsed dst =>
        cases hkd : s.conn dst.sendSpscQPutter with
        | none => simp [placement, hk, hl, hkd] at h
        | some kd =>
          rw [placement_forward hk hl hkd, Option.ite_none_right_eq_some, Option.some.injEq] at h
          obtain ⟨hacc, rfl⟩ := h
          exact ⟨rfl, k, parsed, kd, hk, hl, rfl, hkd, hacc⟩
      | awaiting => simp [placement, hk, hl] at h
      | locking message parsed => simp [placement, hk, hl] at h
      | finished => simp [placement, hk, hl] at h
  | _ => cases h

/-- A connection changes by its own events and by what is placed in its queue. -/
theorem step_conn_ne {cfg : ServerConfig} {fromStr : String → Option (WireMsg V)} {s s' : Server}
    {e : ServerEvent} (h : step cfg fromStr s e = some s') {d : ConnectionId}
    (howner : e.owner ≠ some d) (hplace : ∀ p, s.placement cfg e = some p → p.dst ≠ d) :
    s'.conn d = s.conn d := by
  have hne : ∀ c, e.owner = some c → d ≠ c := by
    rintro c hc rfl
    exact howner hc
  cases e with
  | accept =>
    obtain rfl := Option.some.inj h
    rfl
  | «open» c now =>
    obtain ⟨-, rfl⟩ := step_open h
    exact conn_setConn_ne s _ (hne c rfl)
  | record c =>
    obtain ⟨k, -, -, rfl⟩ := step_record h
    exact conn_setConn_ne s _ (hne c rfl)
  | task c e =>
    obtain ⟨k, k', metrics, -, -, rfl⟩ := step_task h
    exact conn_setConn_ne s _ (hne c rfl)
  | lookup c =>
    obtain ⟨k, message, parsed, -, -, rfl⟩ := step_lookup h
    exact conn_setConn_ne s _ (hne c rfl)
  | forward c =>
    rcases step_forward h with ⟨k, message, parsed, dst, kd, hk, hl, hkd, ⟨hacc, rfl⟩ | ⟨-, rfl⟩⟩
    · have hdst : d ≠ dst.sendSpscQPutter := by
        have hp : placement cfg s (.forward c) = _ := placement_forward hk hl hkd
        rw [if_pos hacc] at hp
        exact Ne.symm (hplace _ hp)
      exact (conn_setConn_ne _ _ (hne c rfl)).trans (conn_setConn_ne s _ hdst)
    · exact conn_setConn_ne s _ (hne c rfl)
  | remove c =>
    obtain ⟨k, -, -, -, rfl⟩ := step_remove h
    exact conn_setConn_ne s _ (hne c rfl)

/-- A connection appears when it is opened. -/
theorem step_fresh {cfg : ServerConfig} {fromStr : String → Option (WireMsg V)} {s s' : Server}
    {e : ServerEvent} {c : ConnectionId} {k' : Connection} (h : step cfg fromStr s e = some s')
    (hnone : s.conn c = none) (hk' : s'.conn c = some k') :
    ∃ now, e = .open c now ∧ k' = .start cfg now := by
  by_cases howner : e.owner = some c
  · cases e with
    | accept => cases howner
    | «open» d now =>
      obtain rfl : d = c := Option.some.inj howner
      obtain ⟨-, rfl⟩ := step_open h
      rw [conn_setConn_self, Option.some.injEq] at hk'
      exact ⟨now, rfl, hk'.symm⟩
    | record d =>
      obtain rfl : d = c := Option.some.inj howner
      obtain ⟨k, hk, -⟩ := step_record h
      exact absurd (hnone.symm.trans hk) (by simp)
    | task d e =>
      obtain rfl : d = c := Option.some.inj howner
      obtain ⟨k, _, _, hk, -⟩ := step_task h
      exact absurd (hnone.symm.trans hk) (by simp)
    | lookup d =>
      obtain rfl : d = c := Option.some.inj howner
      obtain ⟨k, _, _, hk, -⟩ := step_lookup h
      exact absurd (hnone.symm.trans hk) (by simp)
    | forward d =>
      obtain rfl : d = c := Option.some.inj howner
      obtain ⟨k, _, _, _, _, hk, -⟩ := step_forward h
      exact absurd (hnone.symm.trans hk) (by simp)
    | remove d =>
      obtain rfl : d = c := Option.some.inj howner
      obtain ⟨k, hk, -⟩ := step_remove h
      exact absurd (hnone.symm.trans hk) (by simp)
  · have hsame : s'.conn c = s.conn c := by
      refine step_conn_ne h howner ?_
      rintro p hp rfl
      obtain ⟨-, _, _, _, -, -, -, hkd, -⟩ := placement_eq_some hp
      exact absurd (hnone.symm.trans hkd) (by simp)
    rw [hsame, hnone] at hk'
    cases hk'

end Server

/-- The signalling server. -/
def signallingServer (cfg : ServerConfig) (fromStr : String → Option (WireMsg V)) :
    StateMachine Server ServerEvent where
  init := .init
  step := Server.step cfg fromStr

/-! ## Two connections meet

A small run to start examples from. -/

/-- A parser for examples: the text is the tag, and there is something to forward. -/
def tagOnly (text : String) : Option (WireMsg Unit) := some ⟨text, some (.ack 0 "node")⟩

/-- Connections 0 and 1 open, are recorded and take the two seats of room `"r"`. -/
def twoMeet : List ServerEvent :=
  [.accept, .accept, .open 0 0, .open 1 0, .record 0, .record 1,
    .task 0 (.receive 1 (.text "r")), .lookup 0, .task 1 (.receive 2 (.text "r")), .lookup 1,
    .forward 1]

/-- The server after `twoMeet`. -/
def afterTwoMeet : Server := ((signallingServer {} tagOnly).run .init twoMeet).get rfl

theorem run_twoMeet : (signallingServer {} tagOnly).run .init twoMeet = some afterTwoMeet :=
  (Option.some_get _).symm

theorem reachable_afterTwoMeet : (signallingServer {} tagOnly).Reachable afterTwoMeet :=
  ⟨twoMeet, run_twoMeet⟩

end Vamp
