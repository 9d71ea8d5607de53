import Vamp.FairRuns
import Vamp.RoutingInvariant

/-!
# Whoever closes is removed

A connection of the signalling server consists of three tasks that end for reasons of their own:
the peer closes or breaks a limit, the socket fails, nothing happens for too long. When one of
them has ended, the others are told so, `run_connection` joins them, and the connection is removed
from both tables.

Nothing that other connections do can prevent this (`cleaned_up`), as long as the tasks go on: a
task that can take its next step again and again takes it at some time. And when no connections
come and all that are there close, both tables become empty (`drains`).
-/

namespace Vamp

namespace Server

open StateMachine

variable {V : Type} {cfg : ServerConfig} {fromStr : String → Option (WireMsg V)} {s s' : Server}
  {c : ConnectionId} {k k' : Connection}

/-! ## What a step does to one connection -/

/-- **What can happen to a connection.** -/
inductive Change (fromStr : String → Option (WireMsg V)) (c : ConnectionId) (k : Connection) :
    ServerEvent → Connection → Prop where
  /-- others do something, which may put a message in its queue -/
  | other {e : ServerEvent} (queue : List Message) (owner : e.owner ≠ some c) :
    Change fromStr c k e { k with queue }
  /-- it is recorded -/
  | record (stage : k.stage = .spawned) :
    Change fromStr c k (.record c) { k with stage := .recorded }
  /-- `listen_task` receives a message -/
  | receive {metrics : ServerMetrics} {now : Instant} {message : Message}
    (listen : k.listen = .awaiting) :
    Change fromStr c k (.task c (.receive now message))
      (k.receive fromStr metrics now message).1
  /-- there is nothing to receive anymore -/
  | ingressEnd (listen : k.listen = .awaiting) :
    Change fromStr c k (.task c .ingressEnd) k.finishListen
  /-- `listen_task` is told to close -/
  | listenCancelled (listen : k.listen = .awaiting) :
    Change fromStr c k (.task c .listenCancelled) k.finishListen
  /-- `egress_task` takes a message -/
  | egressRecv {message : Message} (queue : List Message) (egress : k.egress = .awaiting) :
    Change fromStr c k (.task c .egressRecv) { k with egress := .sending message, queue }
  /-- it is sent -/
  | egressSent {message : Message} (egress : k.egress = .sending message) :
    Change fromStr c k (.task c (.egressSent true)) { k with egress := .awaiting }
  /-- it cannot be sent -/
  | egressFailed {message : Message} (egress : k.egress = .sending message) :
    Change fromStr c k (.task c (.egressSent false)) { k.cancel with egress := .closing }
  /-- `egress_task` is told to close -/
  | egressCancelled (egress : k.egress = .awaiting) (told : k.processor.closeNotifier = true) :
    Change fromStr c k (.task c .egressCancelled) { k with egress := .closing }
  /-- the socket is closed -/
  | egressClosed (egress : k.egress = .closing) :
    Change fromStr c k (.task c .egressClosed) { k with egress := .finished, queue := [] }
  /-- the connection has been idle -/
  | idleClose : Change fromStr c k (.task c .idleClose) { k.cancel with idleChecked := true }
  /-- `start_idle_checker` is told to close -/
  | idleCancelled (told : k.processor.closeNotifier = true) :
    Change fromStr c k (.task c .idleCancelled) { k with idleChecked := true }
  /-- a message cannot be forwarded, or there is a queue for it -/
  | lookup {message : Message} {parsed : ParsedMessage} (res : MyRes ConnectionHandler)
    (listen : k.listen = .locking message parsed) :
    Change fromStr c k (.lookup c) (afterLookup k message parsed res)
  /-- a message is enqueued -/
  | forwarded {message : Message} {parsed : ParsedMessage} {dst : ConnectionHandler}
    (listen : k.listen = .forwarding message parsed dst) :
    Change fromStr c k (.forward c) (afterForward k)
  /-- a message cannot be enqueued -/
  | refused {message : Message} {parsed : ParsedMessage} {dst : ConnectionHandler}
    (listen : k.listen = .forwarding message parsed dst) :
    Change fromStr c k (.forward c) k.finishListen
  /-- it is removed -/
  | removed (stage : k.stage = .recorded) (ended : k.Ended) :
    Change fromStr c k (.remove c) { k.cancel with stage := .removed }

/-- What one of its tasks does. -/
theorem task_change {e : TaskEvent} {metrics metrics' : ServerMetrics}
    (h : k.step fromStr metrics e = some (k', metrics')) :
    Change fromStr c k (.task c e) k' := by
  cases e with
  | receive now message =>
    obtain ⟨hlisten, h⟩ := Option.ite_none_right_eq_some.mp h
    obtain rfl : _ = k' := congrArg Prod.fst (Option.some.inj h)
    exact .receive hlisten
  | ingressEnd =>
    obtain ⟨hlisten, h⟩ := Option.ite_none_right_eq_some.mp h
    obtain ⟨rfl, -⟩ := Prod.mk.inj (Option.some.inj h)
    exact .ingressEnd hlisten
  | listenCancelled =>
    obtain ⟨⟨hlisten, -⟩, h⟩ := Option.ite_none_right_eq_some.mp h
    obtain ⟨rfl, -⟩ := Prod.mk.inj (Option.some.inj h)
    exact .listenCancelled hlisten
  | egressRecv =>
    rw [Connection.step] at h
    split at h
    · case h_1 message queue hegress hqueue =>
      obtain ⟨rfl, -⟩ := Prod.mk.inj (Option.some.inj h)
      exact .egressRecv queue hegress
    · cases h
  | egressSent ok =>
    rw [Connection.step] at h
    split at h
    · case h_1 message hegress =>
      cases ok with
      | true =>
        obtain ⟨rfl, -⟩ := Prod.mk.inj (Option.some.inj h)
        exact .egressSent hegress
      | false =>
        obtain ⟨rfl, -⟩ := Prod.mk.inj (Option.some.inj h)
        exact .egressFailed hegress
    · cases h
  | egressCancelled =>
    obtain ⟨⟨hegress, htold⟩, h⟩ := Option.ite_none_right_eq_some.mp h
    obtain ⟨rfl, -⟩ := Prod.mk.inj (Option.some.inj h)
    exact .egressCancelled hegress htold
  | egressClosed =>
    obtain ⟨hegress, h⟩ := Option.ite_none_right_eq_some.mp h
    obtain ⟨rfl, -⟩ := Prod.mk.inj (Option.some.inj h)
    exact .egressClosed hegress
  | idleClose =>
    obtain ⟨-, h⟩ := Option.ite_none_right_eq_some.mp h
    obtain ⟨rfl, -⟩ := Prod.mk.inj (Option.some.inj h)
    exact .idleClose
  | idleCancelled =>
    obtain ⟨⟨-, htold⟩, h⟩ := Option.ite_none_right_eq_some.mp h
    obtain ⟨rfl, -⟩ := Prod.mk.inj (Option.some.inj h)
    exact .idleCancelled htold

/-- A connection is replaced, another one is looked at. -/
theorem change_ne {d : ConnectionId} {k₀ : Connection} {e : ServerEvent}
    (howner : e.owner = some d) (hc : c ≠ d) (hk : s.conn c = some k) :
    ∃ k', (s.setConn d k₀).conn c = some k' ∧ Change fromStr c k e k' := by
  refine ⟨k, (conn_setConn_ne s _ hc).trans hk, .other k.queue ?_⟩
  rw [howner]
  exact fun h => hc (Option.some.inj h).symm

/-- **Every step changes a connection in one of these ways.** -/
theorem step_change {e : ServerEvent} (h : step cfg fromStr s e = some s')
    (hk : s.conn c = some k) : ∃ k', s'.conn c = some k' ∧ Change fromStr c k e k' := by
  cases e with
  | accept =>
    obtain rfl := Option.some.inj h
    exact ⟨k, hk, .other k.queue nofun⟩
  | «open» d now =>
    obtain ⟨hnone, rfl⟩ := step_open h
    have hc : c ≠ d := by
      rintro rfl
      cases hnone.symm.trans hk
    exact change_ne rfl hc hk
  | record d =>
    obtain ⟨k₀, hk₀, hstage, rfl⟩ := step_record h
    by_cases hc : c = d
    · subst hc
      obtain rfl := Option.some.inj (hk.symm.trans hk₀)
      exact ⟨_, conn_setConn_self s c _, .record hstage⟩
    · exact change_ne rfl hc hk
  | task d e =>
    obtain ⟨k₀, k₁, metrics, hk₀, hstep, rfl⟩ := step_task h
    by_cases hc : c = d
    · subst hc
      obtain rfl := Option.some.inj (hk.symm.trans hk₀)
      exact ⟨_, conn_setConn_self s c _, task_change hstep⟩
    · exact change_ne rfl hc hk
  | lookup d =>
    obtain ⟨k₀, message, parsed, hk₀, hlisten, rfl⟩ := step_lookup h
    by_cases hc : c = d
    · subst hc
      obtain rfl := Option.some.inj (hk.symm.trans hk₀)
      exact ⟨_, conn_setConn_self s c _, .lookup _ hlisten⟩
    · exact change_ne rfl hc hk
  | forward d =>
    obtain ⟨k₀, message, parsed, dst, kd, hk₀, hlisten, hkd, hsent⟩ := step_forward h
    by_cases hc : c = d
    · subst hc
      obtain rfl := Option.some.inj (hk.symm.trans hk₀)
      rcases hsent with ⟨-, rfl⟩ | ⟨-, rfl⟩
      · exact ⟨_, conn_setConn_self _ c _, .forwarded hlisten⟩
      · exact ⟨_, conn_setConn_self s c _, .refused hlisten⟩
    · rcases hsent with ⟨-, rfl⟩ | ⟨-, rfl⟩
      · by_cases hdst : c = dst.sendSpscQPutter
        · -- the message is for this connection
          subst hdst
          obtain rfl := Option.some.inj (hk.symm.trans hkd)
          have hconn := (conn_setConn_ne (s.setConn dst.sendSpscQPutter
            { k with queue := k.queue ++ [message] }) (afterForward k₀) hc).trans
            (conn_setConn_self s _ _)
          exact ⟨_, hconn, .other _ fun howner => hc (Option.some.inj howner).symm⟩
        · exact change_ne rfl hc ((conn_setConn_ne s _ hdst).trans hk)
      · exact change_ne rfl hc hk
  | remove d =>
    obtain ⟨k₀, hk₀, hstage, hended, rfl⟩ := step_remove h
    by_cases hc : c = d
    · subst hc
      obtain rfl := Option.some.inj (hk.symm.trans hk₀)
      exact ⟨_, conn_setConn_self s c _, .removed hstage hended⟩
    · exact change_ne rfl hc hk

/-! ## What is not taken back -/

/-- Nobody takes back that the connection has to close. -/
theorem beforeLock_closeNotifier {p : MsgProcessor} (metrics : ServerMetrics) (now : Instant)
    (message : Message) (h : p.closeNotifier = true) :
    (p.beforeLock fromStr metrics now message).1.closeNotifier = true := by
  unfold MsgProcessor.beforeLock
  split
  · exact h
  · split
    · exact h
    · split
      · exact h
      · split
        · rfl
        · exact h

/-- `run_connection` has done what there was to do, a task has ended, or the connection has to
close: all that stays so. -/
structure Onward (k k' : Connection) : Prop where
  /-- the close notifier -/
  closing : k.processor.closeNotifier = true → k'.processor.closeNotifier = true
  /-- `listen_task` -/
  listen : k.listen = .finished → k'.listen = .finished
  /-- `egress_task` -/
  egress : k.egress = .finished → k'.egress = .finished
  /-- `start_idle_checker` -/
  idle : k.idleChecked = true → k'.idleChecked = true
  /-- `record_connection` -/
  recorded : k.stage ≠ .spawned → k'.stage ≠ .spawned
  /-- `remove_records_for` -/
  removed : k.stage = .removed → k'.stage = .removed

/-- A task that ends tells the others. -/
structure Told (k : Connection) : Prop where
  /-- `listen_task` -/
  listen : k.listen = .finished → k.processor.closeNotifier = true
  /-- `egress_task` -/
  egress : k.egress = .closing ∨ k.egress = .finished → k.processor.closeNotifier = true
  /-- `start_idle_checker` -/
  idle : k.idleChecked = true → k.processor.closeNotifier = true

/-- Receiving a message neither ends the other tasks nor takes anything back. -/
theorem receive_onward (metrics : ServerMetrics) (now : Instant) (message : Message)
    (hlisten : k.listen = .awaiting) :
    Onward k (k.receive fromStr metrics now message).1 ∧
      (k.receive fromStr metrics now message).1.idleChecked = k.idleChecked ∧
      ((k.receive fromStr metrics now message).1.listen = .finished →
        (k.receive fromStr metrics now message).1.processor.closeNotifier = true) := by
  obtain ⟨hstage, hegress, -⟩ := Connection.receive_frame fromStr k metrics now message
  have hkeeps (h : k.processor.closeNotifier = true) :
      (k.processor.beforeLock fromStr metrics now message).1.closeNotifier = true :=
    beforeLock_closeNotifier metrics now message h
  have hidle : (k.receive fromStr metrics now message).1.idleChecked = k.idleChecked := by
    unfold Connection.receive
    split
    · rfl
    · rcases k.processor.beforeLock fromStr metrics now message with ⟨p, m, (_ | _) | _⟩ <;> rfl
  refine ⟨⟨fun h => ?_, fun h => ?_, hegress.trans, hidle.trans, fun h => ?_, hstage.trans⟩,
    hidle, fun h => ?_⟩
  · have hclosing := hkeeps h
    unfold Connection.receive
    split
    · rfl
    · revert hclosing
      rcases k.processor.beforeLock fromStr metrics now message with ⟨p, m, (_ | _) | _⟩
      · exact fun _ => rfl
      · exact id
      · exact id
  · cases hlisten.symm.trans h
  · rw [hstage]
    exact h
  · revert h
    unfold Connection.receive
    split
    · exact fun _ => rfl
    · rcases k.processor.beforeLock fromStr metrics now message with ⟨p, m, (_ | _) | _⟩
      · exact fun _ => rfl
      · exact fun h => (by cases hlisten.symm.trans h)
      · exact nofun

theorem Change.onward {e : ServerEvent} (h : Change fromStr c k e k') : Onward k k' := by
  cases h with
  | other queue owner => exact ⟨id, id, id, id, id, id⟩
  | record stage => exact ⟨id, id, id, id, fun _ => nofun, fun h => (by cases stage.symm.trans h)⟩
  | receive listen => exact (receive_onward _ _ _ listen).1
  | ingressEnd listen => exact ⟨fun _ => rfl, fun _ => rfl, id, id, id, id⟩
  | listenCancelled listen => exact ⟨fun _ => rfl, fun _ => rfl, id, id, id, id⟩
  | egressRecv queue egress => exact ⟨id, id, fun h => (by cases egress.symm.trans h), id, id, id⟩
  | egressSent egress => exact ⟨id, id, fun h => (by cases egress.symm.trans h), id, id, id⟩
  | egressFailed egress =>
    exact ⟨fun _ => rfl, id, fun h => (by cases egress.symm.trans h), id, id, id⟩
  | egressCancelled egress told =>
    exact ⟨id, id, fun h => (by cases egress.symm.trans h), id, id, id⟩
  | egressClosed egress => exact ⟨id, id, fun _ => rfl, id, id, id⟩
  | idleClose => exact ⟨fun _ => rfl, id, id, fun _ => rfl, id, id⟩
  | idleCancelled told => exact ⟨id, id, id, fun _ => rfl, id, id⟩
  | lookup res listen =>
    have hlisten : k.listen ≠ .finished := fun h => (by cases listen.symm.trans h)
    cases res with
    | error _ => exact ⟨id, fun h => absurd h hlisten, id, id, id, id⟩
    | ok _ => exact ⟨id, fun h => absurd h hlisten, id, id, id, id⟩
  | forwarded listen => exact ⟨id, fun h => (by cases listen.symm.trans h), id, id, id, id⟩
  | refused listen => exact ⟨fun _ => rfl, fun _ => rfl, id, id, id, id⟩
  | removed stage ended => exact ⟨fun _ => rfl, id, id, id, fun _ => nofun, fun _ => rfl⟩

theorem Change.told {e : ServerEvent} (h : Change fromStr c k e k') (htold : Told k) :
    Told k' := by
  cases h with
  | other queue owner => exact ⟨htold.listen, htold.egress, htold.idle⟩
  | record stage => exact ⟨htold.listen, htold.egress, htold.idle⟩
  | @receive metrics now message listen =>
    obtain ⟨honward, hidle, hfinished⟩ :
        Onward k (k.receive fromStr metrics now message).1 ∧ _ :=
      receive_onward metrics now message listen
    obtain ⟨-, hegress, -⟩ := Connection.receive_frame fromStr k metrics now message
    refine ⟨hfinished, fun h => honward.closing (htold.egress ?_), fun h => ?_⟩
    · rwa [hegress] at h
    · exact honward.closing (htold.idle (hidle.symm.trans h))
  | ingressEnd listen => exact ⟨fun _ => rfl, fun _ => rfl, fun _ => rfl⟩
  | listenCancelled listen => exact ⟨fun _ => rfl, fun _ => rfl, fun _ => rfl⟩
  | egressRecv queue egress => exact ⟨htold.listen, nofun, htold.idle⟩
  | egressSent egress => exact ⟨htold.listen, nofun, htold.idle⟩
  | egressFailed egress => exact ⟨fun _ => rfl, fun _ => rfl, fun _ => rfl⟩
  | egressCancelled egress told => exact ⟨fun _ => told, fun _ => told, fun _ => told⟩
  | egressClosed egress =>
    exact ⟨htold.listen, fun _ => htold.egress (.inl egress), htold.idle⟩
  | idleClose => exact ⟨fun _ => rfl, fun _ => rfl, fun _ => rfl⟩
  | idleCancelled told => exact ⟨fun _ => told, fun _ => told, fun _ => told⟩
  | lookup res listen =>
    cases res with
    | error _ => exact ⟨nofun, htold.egress, htold.idle⟩
    | ok _ => exact ⟨nofun, htold.egress, htold.idle⟩
  | forwarded listen => exact ⟨nofun, htold.egress, htold.idle⟩
  | refused listen => exact ⟨fun _ => rfl, fun _ => rfl, fun _ => rfl⟩
  | removed stage ended => exact ⟨fun _ => rfl, fun _ => rfl, fun _ => rfl⟩

/-- **Whoever ends tells the others**, in every reachable state. -/
theorem told_of_reachable (h : (signallingServer cfg fromStr).Reachable s)
    (hk : s.conn c = some k) : Told k := by
  refine StateMachine.invariant (M := signallingServer cfg fromStr)
    (I := fun s => ∀ c k, s.conn c = some k → Told k) (fun _ _ => nofun) ?_ h c k hk
  intro s e s' _ ih hstep c k' hk'
  cases hk : s.conn c with
  | none =>
    obtain ⟨now, -, rfl⟩ := step_fresh hstep hk hk'
    exact ⟨nofun, nofun, nofun⟩
  | some k =>
    obtain ⟨k₁, hk₁, hchange⟩ := step_change hstep hk
    obtain rfl := Option.some.inj (hk₁.symm.trans hk')
    exact hchange.told (ih c k hk)

/-! ## Where the tasks go -/

/-- `process` waits for the lock. -/
def Locking (k : Connection) : Prop := ∃ message parsed, k.listen = .locking message parsed

/-- `process` has a queue for its message. -/
def Forwarding (k : Connection) : Prop :=
  ∃ message parsed dst, k.listen = .forwarding message parsed dst

/-- Where `listen_task` goes from where it is. -/
theorem Change.listen_cases {e : ServerEvent} (h : Change fromStr c k e k') :
    k'.listen = k.listen ∨ (k.listen = .awaiting ∧ (Locking k' ∨ k'.listen = .finished)) ∨
      (Locking k ∧ (k'.listen = .awaiting ∨ Forwarding k')) ∨
      (Forwarding k ∧ (k'.listen = .awaiting ∨ k'.listen = .finished)) := by
  cases h with
  | @receive metrics now message listen =>
    rcases Connection.receive_cases fromStr k metrics now message with
      ⟨parsed, hlocking, -⟩ | ⟨hsame | hfinished, -⟩
    · exact .inr (.inl ⟨listen, .inl ⟨message, parsed, hlocking⟩⟩)
    · exact .inl hsame
    · exact .inr (.inl ⟨listen, .inr hfinished⟩)
  | ingressEnd listen => exact .inr (.inl ⟨listen, .inr rfl⟩)
  | listenCancelled listen => exact .inr (.inl ⟨listen, .inr rfl⟩)
  | @lookup message parsed res listen =>
    cases res with
    | error _ => exact .inr (.inr (.inl ⟨⟨_, _, listen⟩, .inl rfl⟩))
    | ok dst => exact .inr (.inr (.inl ⟨⟨_, _, listen⟩, .inr ⟨_, _, _, rfl⟩⟩))
  | forwarded listen => exact .inr (.inr (.inr ⟨⟨_, _, _, listen⟩, .inl rfl⟩))
  | refused listen => exact .inr (.inr (.inr ⟨⟨_, _, _, listen⟩, .inr rfl⟩))
  | _ => exact .inl rfl

/-- `egress_task` is at work on a message. -/
def Sending (k : Connection) : Prop := ∃ message, k.egress = .sending message

/-- Where `egress_task` goes from where it is. -/
theorem Change.egress_cases {e : ServerEvent} (h : Change fromStr c k e k') :
    k'.egress = k.egress ∨ (k.egress = .awaiting ∧ (Sending k' ∨ k'.egress = .closing)) ∨
      (Sending k ∧ (k'.egress = .awaiting ∨ k'.egress = .closing)) ∨
      (k.egress = .closing ∧ k'.egress = .finished) := by
  cases h with
  | @receive metrics now message listen =>
    exact .inl (Connection.receive_frame fromStr k metrics now message).2.1
  | egressRecv queue egress => exact .inr (.inl ⟨egress, .inl ⟨_, rfl⟩⟩)
  | egressSent egress => exact .inr (.inr (.inl ⟨⟨_, egress⟩, .inl rfl⟩))
  | egressFailed egress => exact .inr (.inr (.inl ⟨⟨_, egress⟩, .inr rfl⟩))
  | egressCancelled egress told => exact .inr (.inl ⟨egress, .inr rfl⟩)
  | egressClosed egress => exact .inr (.inr (.inr ⟨egress, rfl⟩))
  | lookup res listen => exact .inl (by cases res <;> rfl)
  | _ => exact .inl rfl

/-! ## What must happen -/

/-- What the tasks of a connection, and its socket, owe it. -/
inductive Duty : Type where
  | record | lookup | forward | listenCancelled | egressCancelled | egressSent | egressClosed
  | idleCancelled | remove
  deriving DecidableEq

/-- The events that fulfil it. -/
def Duty.By (c : ConnectionId) : Duty → ServerEvent → Prop
  | record, e => e = .record c
  | lookup, e => e = .lookup c
  | forward, e => e = .forward c
  | listenCancelled, e => e = .task c .listenCancelled
  | egressCancelled, e => e = .task c .egressCancelled
  | egressSent, e => ∃ ok, e = .task c (.egressSent ok)
  | egressClosed, e => e = .task c .egressClosed
  | idleCancelled, e => e = .task c .idleCancelled
  | remove, e => e = .remove c

/-- A connection is in some situation. -/
def At (c : ConnectionId) (P : Connection → Prop) (s : Server) : Prop :=
  ∃ k, s.conn c = some k ∧ P k

section Enabled

variable {E : ServerEvent → Prop}

theorem enabled_of {e : ServerEvent} (hE : E e) (h : ∃ s', step cfg fromStr s e = some s') :
    (signallingServer cfg fromStr).Enabled E s := by
  obtain ⟨s', hstep⟩ := h
  exact ⟨e, s', hE, hstep⟩

theorem enabled_task {e : TaskEvent} {km : Connection × ServerMetrics} (hE : E (.task c e))
    (hk : s.conn c = some k) (h : k.step fromStr s.metrics e = some km) :
    (signallingServer cfg fromStr).Enabled E s := by
  refine enabled_of hE ?_
  rw [step, hk]
  dsimp only
  rw [h]
  exact ⟨_, rfl⟩

theorem enabled_record (hk : s.conn c = some k) (hstage : k.stage = .spawned) :
    (signallingServer cfg fromStr).Enabled (Duty.record.By c) s := by
  refine enabled_of rfl ?_
  rw [step, hk]
  exact ⟨_, if_pos hstage⟩

theorem enabled_remove (hk : s.conn c = some k) (hstage : k.stage = .recorded) (h : k.Ended) :
    (signallingServer cfg fromStr).Enabled (Duty.remove.By c) s := by
  refine enabled_of rfl ?_
  rw [step, hk]
  exact ⟨_, if_pos ⟨hstage, h.listen, h.egress, h.idle⟩⟩

theorem enabled_lookup (hk : s.conn c = some k) (h : Locking k) :
    (signallingServer cfg fromStr).Enabled (Duty.lookup.By c) s := by
  obtain ⟨message, parsed, hlisten⟩ := h
  refine enabled_of rfl ?_
  rw [step, hk]
  dsimp only
  rw [hlisten]
  exact ⟨_, rfl⟩

/-- There is always an answer, as the destination is a connection. -/
theorem enabled_forward (hreach : (signallingServer cfg fromStr).Reachable s)
    (hk : s.conn c = some k) (h : Forwarding k) :
    (signallingServer cfg fromStr).Enabled (Duty.forward.By c) s := by
  obtain ⟨message, parsed, dst, hlisten⟩ := h
  obtain ⟨kd, hkd, -⟩ :=
    ((reachable_inv hreach).forwarding c k message parsed dst hk hlisten).destination
  refine enabled_of rfl ?_
  rw [step, hk]
  dsimp only
  rw [hlisten]
  dsimp only
  rw [hkd]
  dsimp only
  split
  · exact ⟨_, rfl⟩
  · exact ⟨_, rfl⟩

end Enabled

section LeadsTo

variable {states : ℕ → Server} {events : ℕ → ServerEvent} {P Q : Connection → Prop}

/-- The rule of fairness for one connection. -/
theorem leadsTo_of_duty (h : (signallingServer cfg fromStr).Forever states events) {duty : Duty}
    (hfair : (signallingServer cfg fromStr).Fair (duty.By c) states events)
    (stay : ∀ k e k', P k → Change fromStr c k e k' → P k' ∨ Q k')
    (goal : ∀ k e k', P k → duty.By c e → Change fromStr c k e k' → Q k')
    (enabled : LeadsTo (At c P)
      (fun s => (signallingServer cfg fromStr).Enabled (duty.By c) s ∨ At c Q s) states) :
    LeadsTo (At c P) (At c Q) states := by
  refine hfair.leadsTo h ?_ ?_ enabled
  · rintro s e s' - ⟨k, hk, hP⟩ hstep
    obtain ⟨k', hk', hchange⟩ := step_change hstep hk
    rcases stay k e k' hP hchange with hP' | hQ'
    · exact .inl ⟨k', hk', hP'⟩
    · exact .inr ⟨k', hk', hQ'⟩
  · rintro s e s' - ⟨k, hk, hP⟩ hE hstep
    obtain ⟨k', hk', hchange⟩ := step_change hstep hk
    exact ⟨k', hk', goal k e k' hP hE hchange⟩

/-- The rule where the duty can be done all the time. -/
theorem leadsTo_of_duty_enabled (h : (signallingServer cfg fromStr).Forever states events)
    {duty : Duty} (hfair : (signallingServer cfg fromStr).Fair (duty.By c) states events)
    (stay : ∀ k e k', P k → Change fromStr c k e k' → P k' ∨ Q k')
    (goal : ∀ k e k', P k → duty.By c e → Change fromStr c k e k' → Q k')
    (enabled : ∀ s k, (signallingServer cfg fromStr).Reachable s → s.conn c = some k → P k →
      (signallingServer cfg fromStr).Enabled (duty.By c) s) :
    LeadsTo (At c P) (At c Q) states := by
  refine leadsTo_of_duty h hfair stay goal ?_
  rintro n ⟨k, hk, hP⟩
  exact ⟨n, Nat.le_refl n, .inl (enabled _ k (h.reachable n) hk hP)⟩

/-- What no step takes back, stays. -/
theorem at_stays (h : (signallingServer cfg fromStr).Forever states events)
    (keep : ∀ k k', Onward k k' → P k → P k') {n m : ℕ} (hnm : n ≤ m) (hn : At c P (states n)) :
    At c P (states m) := by
  refine h.stays ?_ hnm hn
  rintro s e s' ⟨k, hk, hP⟩ hstep
  obtain ⟨k', hk', hchange⟩ := step_change hstep hk
  exact ⟨k', hk', keep k k' hchange.onward hP⟩

theorem closing_stays (h : (signallingServer cfg fromStr).Forever states events) {n m : ℕ}
    (hnm : n ≤ m) (hn : At c (fun k => k.processor.closeNotifier = true) (states n)) :
    At c (fun k => k.processor.closeNotifier = true) (states m) :=
  at_stays h (fun _ _ honward => honward.closing) hnm hn

/-- `process` comes out of the lock. -/
theorem locking_leadsTo (h : (signallingServer cfg fromStr).Forever states events)
    (hfair : (signallingServer cfg fromStr).Fair (Duty.lookup.By c) states events) :
    LeadsTo (At c Locking) (At c fun k => k.listen = .awaiting ∨ Forwarding k) states := by
  refine leadsTo_of_duty_enabled h hfair ?_ ?_ fun _ _ _ => enabled_lookup
  · rintro k e k' ⟨message, parsed, hlocking⟩ hchange
    rcases hchange.listen_cases with hsame | ⟨hawait, -⟩ | ⟨-, hnext⟩ | ⟨⟨_, _, _, hforward⟩, -⟩
    · exact .inl ⟨message, parsed, hsame.trans hlocking⟩
    · cases hlocking.symm.trans hawait
    · exact .inr hnext
    · cases hlocking.symm.trans hforward
  · rintro k e k' - rfl hchange
    cases hchange with
    | other queue owner => exact absurd rfl owner
    | lookup res listen =>
      cases res with
      | error _ => exact .inl rfl
      | ok dst => exact .inr ⟨_, _, dst, rfl⟩

/-- `process` comes out of `try_send`. -/
theorem forwarding_leadsTo (h : (signallingServer cfg fromStr).Forever states events)
    (hfair : (signallingServer cfg fromStr).Fair (Duty.forward.By c) states events) :
    LeadsTo (At c Forwarding) (At c fun k => k.listen = .awaiting ∨ k.listen = .finished)
      states := by
  refine leadsTo_of_duty_enabled h hfair ?_ ?_ fun _ _ => enabled_forward
  · rintro k e k' ⟨message, parsed, dst, hforward⟩ hchange
    rcases hchange.listen_cases with hsame | ⟨hawait, -⟩ | ⟨⟨_, _, hlocking⟩, -⟩ | ⟨-, hnext⟩
    · exact .inl ⟨message, parsed, dst, hsame.trans hforward⟩
    · cases hforward.symm.trans hawait
    · cases hforward.symm.trans hlocking
    · exact .inr hnext
  · rintro k e k' - rfl hchange
    cases hchange with
    | other queue owner => exact absurd rfl owner
    | forwarded listen => exact .inl rfl
    | refused listen => exact .inr rfl

/-- **`listen_task` ends** when it is told so, though it may go on receiving for a while. -/
theorem listen_finishes (h : (signallingServer cfg fromStr).Forever states events)
    (hfair : ∀ duty : Duty, (signallingServer cfg fromStr).Fair (duty.By c) states events) :
    LeadsTo (At c fun k => k.processor.closeNotifier = true) (At c fun k => k.listen = .finished)
      states := by
  refine leadsTo_of_duty h (hfair .listenCancelled) ?_ ?_ ?_
  · exact fun k e k' hclose hchange => .inl (hchange.onward.closing hclose)
  · rintro k e k' - rfl hchange
    cases hchange with
    | other queue owner => exact absurd rfl owner
    | listenCancelled listen => rfl
  · -- from wherever it is, it comes to wait for the next message
    have hawaits : LeadsTo (At c fun _ => True)
        (At c fun k => k.listen = .awaiting ∨ k.listen = .finished) states := by
      rintro n ⟨k, hk, -⟩
      cases hlisten : k.listen with
      | awaiting => exact ⟨n, Nat.le_refl n, k, hk, .inl hlisten⟩
      | finished => exact ⟨n, Nat.le_refl n, k, hk, .inr hlisten⟩
      | forwarding message parsed dst =>
        exact forwarding_leadsTo h (hfair .forward) n ⟨k, hk, _, _, _, hlisten⟩
      | locking message parsed =>
        obtain ⟨m, hnm, k', hk', hawait | hforward⟩ :=
          locking_leadsTo h (hfair .lookup) n ⟨k, hk, _, _, hlisten⟩
        · exact ⟨m, hnm, k', hk', .inl hawait⟩
        · obtain ⟨m', hmm', hm'⟩ := forwarding_leadsTo h (hfair .forward) m ⟨k', hk', hforward⟩
          exact ⟨m', hnm.trans hmm', hm'⟩
    rintro n ⟨k, hk, hclose⟩
    obtain ⟨m, hnm, k', hk', hawait | hfinished⟩ := hawaits n ⟨k, hk, trivial⟩
    · obtain ⟨k₁, hk₁, hclose'⟩ := closing_stays h hnm ⟨k, hk, hclose⟩
      obtain rfl := Option.some.inj (hk₁.symm.trans hk')
      exact ⟨m, hnm, .inl (enabled_task rfl hk' (if_pos ⟨hawait, hclose'⟩))⟩
    · exact ⟨m, hnm, .inr ⟨k', hk', hfinished⟩⟩

/-- A message in `egress_task` is written, or it cannot be. -/
theorem sending_leadsTo (h : (signallingServer cfg fromStr).Forever states events)
    (hfair : (signallingServer cfg fromStr).Fair (Duty.egressSent.By c) states events) :
    LeadsTo (At c Sending) (At c fun k => k.egress = .awaiting ∨ k.egress = .closing)
      states := by
  refine leadsTo_of_duty_enabled h hfair ?_ ?_ ?_
  · rintro k e k' ⟨message, hsending⟩ hchange
    rcases hchange.egress_cases with hsame | ⟨hawait, -⟩ | ⟨-, hnext⟩ | ⟨hclosing, -⟩
    · exact .inl ⟨message, hsame.trans hsending⟩
    · cases hsending.symm.trans hawait
    · exact .inr hnext
    · cases hsending.symm.trans hclosing
  · rintro k e k' - ⟨ok, rfl⟩ hchange
    cases hchange with
    | other queue owner => exact absurd rfl owner
    | egressSent egress => exact .inl rfl
    | egressFailed egress => exact .inr rfl
  · rintro s k - hk ⟨message, hsending⟩
    have hstep : k.step fromStr s.metrics (.egressSent true) =
        some ({ k with egress := .awaiting }, s.metrics) := by
      rw [Connection.step, hsending]
      rfl
    exact enabled_task ⟨true, rfl⟩ hk hstep

/-- The socket is closed. -/
theorem closing_leadsTo (h : (signallingServer cfg fromStr).Forever states events)
    (hfair : (signallingServer cfg fromStr).Fair (Duty.egressClosed.By c) states events) :
    LeadsTo (At c fun k => k.egress = .closing) (At c fun k => k.egress = .finished) states := by
  refine leadsTo_of_duty_enabled h hfair ?_ ?_ ?_
  · rintro k e k' hclosing hchange
    rcases hchange.egress_cases with hsame | ⟨hawait, -⟩ | ⟨⟨_, hsending⟩, -⟩ | ⟨-, hnext⟩
    · exact .inl (hsame.trans hclosing)
    · cases hclosing.symm.trans hawait
    · cases hclosing.symm.trans hsending
    · exact .inr hnext
  · rintro k e k' - rfl hchange
    cases hchange with
    | other queue owner => exact absurd rfl owner
    | egressClosed egress => rfl
  · exact fun s k _ hk hclosing => enabled_task rfl hk (if_pos hclosing)

/-- **`egress_task` ends** when it is told so, though it may go on sending for a while. -/
theorem egress_finishes (h : (signallingServer cfg fromStr).Forever states events)
    (hfair : ∀ duty : Duty, (signallingServer cfg fromStr).Fair (duty.By c) states events) :
    LeadsTo (At c fun k => k.processor.closeNotifier = true) (At c fun k => k.egress = .finished)
      states := by
  have hcloses : LeadsTo (At c fun k => k.processor.closeNotifier = true)
      (At c fun k => k.egress = .closing ∨ k.egress = .finished) states := by
    refine leadsTo_of_duty h (hfair .egressCancelled) ?_ ?_ ?_
    · exact fun k e k' hclose hchange => .inl (hchange.onward.closing hclose)
    · rintro k e k' - rfl hchange
      cases hchange with
      | other queue owner => exact absurd rfl owner
      | egressCancelled egress told => exact .inl rfl
    · rintro n ⟨k, hk, hclose⟩
      cases hegress : k.egress with
      | awaiting =>
        exact ⟨n, Nat.le_refl n, .inl (enabled_task rfl hk (if_pos ⟨hegress, hclose⟩))⟩
      | closing => exact ⟨n, Nat.le_refl n, .inr ⟨k, hk, .inl hegress⟩⟩
      | finished => exact ⟨n, Nat.le_refl n, .inr ⟨k, hk, .inr hegress⟩⟩
      | sending message =>
        obtain ⟨m, hnm, k', hk', hawait | hclosing⟩ :=
          sending_leadsTo h (hfair .egressSent) n ⟨k, hk, message, hegress⟩
        · obtain ⟨k₁, hk₁, hclose'⟩ := closing_stays h hnm ⟨k, hk, hclose⟩
          obtain rfl := Option.some.inj (hk₁.symm.trans hk')
          exact ⟨m, hnm, .inl (enabled_task rfl hk' (if_pos ⟨hawait, hclose'⟩))⟩
        · exact ⟨m, hnm, .inr ⟨k', hk', .inl hclosing⟩⟩
  intro n hn
  obtain ⟨m, hnm, k, hk, hclosing | hfinished⟩ := hcloses n hn
  · obtain ⟨m', hmm', hm'⟩ := closing_leadsTo h (hfair .egressClosed) m ⟨k, hk, hclosing⟩
    exact ⟨m', hnm.trans hmm', hm'⟩
  · exact ⟨m, hnm, k, hk, hfinished⟩

/-- **`start_idle_checker` ends** when it is told so. -/
theorem idle_finishes (h : (signallingServer cfg fromStr).Forever states events)
    (hfair : (signallingServer cfg fromStr).Fair (Duty.idleCancelled.By c) states events) :
    LeadsTo (At c fun k => k.processor.closeNotifier = true) (At c fun k => k.idleChecked = true)
      states := by
  have hends : LeadsTo (At c fun k => k.processor.closeNotifier = true ∧ k.idleChecked = false)
      (At c fun k => k.idleChecked = true) states := by
    refine leadsTo_of_duty_enabled h hfair ?_ ?_ ?_
    · rintro k e k' ⟨hclose, -⟩ hchange
      cases hidle : k'.idleChecked with
      | false => exact .inl ⟨hchange.onward.closing hclose, rfl⟩
      | true => exact .inr rfl
    · rintro k e k' - rfl hchange
      cases hchange with
      | other queue owner => exact absurd rfl owner
      | idleCancelled told => rfl
    · exact fun s k _ hk hP => enabled_task rfl hk (if_pos ⟨hP.2, hP.1⟩)
  rintro n ⟨k, hk, hclose⟩
  cases hidle : k.idleChecked with
  | false => exact hends n ⟨k, hk, hclose, hidle⟩
  | true => exact ⟨n, Nat.le_refl n, k, hk, hidle⟩

/-- `run_connection` records its connection. -/
theorem recorded (h : (signallingServer cfg fromStr).Forever states events)
    (hfair : (signallingServer cfg fromStr).Fair (Duty.record.By c) states events) :
    LeadsTo (At c fun _ => True) (At c fun k => k.stage ≠ .spawned) states := by
  have hrecords : LeadsTo (At c fun k => k.stage = .spawned) (At c fun k => k.stage ≠ .spawned)
      states := by
    refine leadsTo_of_duty_enabled h hfair ?_ ?_ ?_
    · exact fun k e k' _ _ => Classical.em _
    · rintro k e k' - rfl hchange
      cases hchange with
      | other queue owner => exact absurd rfl owner
      | record stage => exact nofun
    · exact fun s k _ => enabled_record
  rintro n ⟨k, hk, -⟩
  by_cases hstage : k.stage = .spawned
  · exact hrecords n ⟨k, hk, hstage⟩
  · exact ⟨n, Nat.le_refl n, k, hk, hstage⟩

/-- `run_connection` removes its connection when the tasks have ended. -/
theorem ended_leadsTo (h : (signallingServer cfg fromStr).Forever states events)
    (hfair : (signallingServer cfg fromStr).Fair (Duty.remove.By c) states events) :
    LeadsTo (At c fun k => k.stage = .recorded ∧ k.Ended) (At c fun k => k.stage = .removed)
      states := by
  refine leadsTo_of_duty_enabled h hfair ?_ ?_ ?_
  · rintro k e k' ⟨hstage, hended⟩ hchange
    have honward := hchange.onward
    have hended' : k'.Ended :=
      ⟨honward.listen hended.listen, honward.egress hended.egress, honward.idle hended.idle⟩
    cases hstage' : k'.stage with
    | spawned => exact absurd hstage' (honward.recorded (by rw [hstage]; exact nofun))
    | recorded => exact .inl ⟨rfl, hended'⟩
    | removed => exact .inr rfl
  · rintro k e k' - rfl hchange
    cases hchange with
    | other queue owner => exact absurd rfl owner
    | removed stage ended => rfl
  · exact fun s k _ hk hP => enabled_remove hk hP.1 hP.2

end LeadsTo

section CleanedUp

variable {states : ℕ → Server} {events : ℕ → ServerEvent}

/-- The connection has to close, or one of its tasks has ended. -/
def Closes (k : Connection) : Prop :=
  k.processor.closeNotifier = true ∨ k.listen = .finished ∨ k.egress = .closing ∨
    k.egress = .finished ∨ k.idleChecked = true

theorem Told.closing (h : Told k) (hcloses : Closes k) : k.processor.closeNotifier = true := by
  rcases hcloses with hclose | hlisten | hclosing | hegress | hidle
  · exact hclose
  · exact h.listen hlisten
  · exact h.egress (.inl hclosing)
  · exact h.egress (.inr hegress)
  · exact h.idle hidle

/-- It is in neither of the tables. -/
def Gone (c : ConnectionId) (s : Server) : Prop := c ∉ s.state.ct ∧ ∀ t, ¬ s.state.Seated t c

theorem gone_of_removed (hI : s.Inv) (h : At c (fun k => k.stage = .removed) s) : Gone c s := by
  obtain ⟨k, hk, hremoved⟩ := h
  refine ⟨fun hct => ?_, hI.not_seated_of_removed hk hremoved⟩
  obtain ⟨k', hk', hrecorded⟩ := hI.mem_ct.mp hct
  obtain rfl := Option.some.inj (hk.symm.trans hk')
  cases hremoved.symm.trans hrecorded

/-- A connection that closes is removed at some time. -/
theorem closes_leadsTo (h : (signallingServer cfg fromStr).Forever states events)
    (hfair : ∀ duty : Duty, (signallingServer cfg fromStr).Fair (duty.By c) states events) :
    LeadsTo (At c Closes) (At c fun k => k.stage = .removed) states := by
  rintro n ⟨k, hk, hcloses⟩
  have hclose : At c (fun k => k.processor.closeNotifier = true) (states n) :=
    ⟨k, hk, (told_of_reachable (h.reachable n) hk).closing hcloses⟩
  obtain ⟨m₁, -, hlisten⟩ := listen_finishes h hfair n hclose
  obtain ⟨m₂, -, hegress⟩ := egress_finishes h hfair n hclose
  obtain ⟨m₃, -, hidle⟩ := idle_finishes h (hfair .idleCancelled) n hclose
  obtain ⟨m₄, hnm₄, hstage⟩ := recorded h (hfair .record) n ⟨k, hk, trivial⟩
  -- all of this stays
  let m := max (max m₁ m₂) (max m₃ m₄)
  obtain ⟨k₁, hk₁, hlisten⟩ :=
    at_stays h (fun _ _ ho => ho.listen) (show m₁ ≤ m by omega) hlisten
  obtain ⟨k₂, hk₂, hegress⟩ :=
    at_stays h (fun _ _ ho => ho.egress) (show m₂ ≤ m by omega) hegress
  obtain ⟨k₃, hk₃, hidle⟩ := at_stays h (fun _ _ ho => ho.idle) (show m₃ ≤ m by omega) hidle
  obtain ⟨k₄, hk₄, hstage⟩ :=
    at_stays h (fun _ _ ho => ho.recorded) (show m₄ ≤ m by omega) hstage
  obtain rfl := Option.some.inj (hk₁.symm.trans hk₂)
  obtain rfl := Option.some.inj (hk₁.symm.trans hk₃)
  obtain rfl := Option.some.inj (hk₁.symm.trans hk₄)
  have hnm : n ≤ m := by omega
  cases hstage' : k₁.stage with
  | spawned => exact absurd hstage' hstage
  | recorded =>
    obtain ⟨m', hmm', hm'⟩ :=
      ended_leadsTo h (hfair .remove) m ⟨k₁, hk₁, hstage', hlisten, hegress, hidle⟩
    exact ⟨m', hnm.trans hmm', hm'⟩
  | removed => exact ⟨m, hnm, k₁, hk₁, hstage'⟩

/-- The next id never goes back. -/
theorem nextConnectionId_le {e : ServerEvent} (h : step cfg fromStr s e = some s') :
    s.nextConnectionId ≤ s'.nextConnectionId := by
  cases e with
  | accept =>
    obtain rfl := Option.some.inj h
    exact Nat.le_succ _
  | «open» d now =>
    obtain ⟨-, rfl⟩ := step_open h
    exact Nat.le_refl _
  | record d =>
    obtain ⟨-, -, -, rfl⟩ := step_record h
    exact Nat.le_refl _
  | task d e =>
    obtain ⟨-, -, -, -, -, rfl⟩ := step_task h
    exact Nat.le_refl _
  | lookup d =>
    obtain ⟨-, -, -, -, -, rfl⟩ := step_lookup h
    exact Nat.le_refl _
  | forward d =>
    obtain ⟨-, -, -, -, -, -, -, -, ⟨-, rfl⟩ | ⟨-, rfl⟩⟩ := step_forward h
    · exact Nat.le_refl _
    · exact Nat.le_refl _
  | remove d =>
    obtain ⟨-, -, -, -, rfl⟩ := step_remove h
    exact Nat.le_refl _

/-- Ids are handed out one after the other. -/
theorem lt_nextConnectionId (h : (signallingServer cfg fromStr).Reachable s)
    (hk : s.conn c = some k) : c < s.nextConnectionId := by
  refine StateMachine.invariant (M := signallingServer cfg fromStr)
    (I := fun s => ∀ c k, s.conn c = some k → c < s.nextConnectionId) (fun _ _ => nofun) ?_ h c k hk
  intro s e s' _ ih hstep c k' hk'
  refine Nat.lt_of_lt_of_le ?_ (nextConnectionId_le hstep)
  cases hk : s.conn c with
  | none =>
    obtain ⟨now, rfl, -⟩ := step_fresh hstep hk hk'
    exact (Option.ite_none_right_eq_some.mp hstep).1.1
  | some k => exact ih c k hk

/-- A connection that is not there does not come, unless it is opened. -/
theorem none_stays (h : (signallingServer cfg fromStr).Forever states events) {n m : ℕ}
    (hnone : ∀ m, n ≤ m → ∀ now, events m ≠ .open c now) (hnm : n ≤ m)
    (hn : (states n).conn c = none) : (states m).conn c = none := by
  induction m, hnm using Nat.le_induction with
  | base => exact hn
  | succ m hnm ih =>
    cases hk : (states (m + 1)).conn c with
    | none => rfl
    | some k =>
      obtain ⟨now, hopen, -⟩ := step_fresh (h.steps m) ih hk
      exact absurd hopen (hnone m hnm now)

/-- A connection whose tasks have ended, and that is removed, owes nothing. -/
theorem not_enabled_of_conn {e : ServerEvent} (hopen : ∀ now, e ≠ .open c now)
    (howner : e.owner = some c) (h : ∀ k, s.conn c = some k → k.stage = .removed ∧ k.Ended)
    (hstep : step cfg fromStr s e = some s') : False := by
  cases e with
  | accept => cases howner
  | «open» d now =>
    obtain rfl := Option.some.inj howner
    exact hopen now rfl
  | record d =>
    obtain rfl := Option.some.inj howner
    obtain ⟨k, hk, hstage, -⟩ := step_record hstep
    cases hstage.symm.trans (h k hk).1
  | task d e =>
    obtain rfl := Option.some.inj howner
    obtain ⟨k, k', metrics, hk, htask, -⟩ := step_task hstep
    cases htask.symm.trans ((h k hk).2.step_eq_none s.metrics e)
  | lookup d =>
    obtain rfl := Option.some.inj howner
    obtain ⟨k, _, _, hk, hlisten, -⟩ := step_lookup hstep
    cases hlisten.symm.trans (h k hk).2.listen
  | forward d =>
    obtain rfl := Option.some.inj howner
    obtain ⟨k, _, _, _, _, hk, hlisten, -⟩ := step_forward hstep
    cases hlisten.symm.trans (h k hk).2.listen
  | remove d =>
    obtain rfl := Option.some.inj howner
    obtain ⟨k, hk, hstage, -⟩ := step_remove hstep
    cases hstage.symm.trans (h k hk).1

theorem Duty.By.owner {duty : Duty} {e : ServerEvent} (h : duty.By c e) :
    e.owner = some c ∧ ∀ now, e ≠ .open c now := by
  cases duty with
  | egressSent =>
    obtain ⟨ok, rfl⟩ := h
    exact ⟨rfl, fun _ h => by cases h⟩
  | _ =>
    obtain rfl := h
    exact ⟨rfl, fun _ h => by cases h⟩

theorem not_enabled (hI : s.Inv) (h : ∀ k, s.conn c = some k → k.stage = .removed)
    (duty : Duty) : ¬ (signallingServer cfg fromStr).Enabled (duty.By c) s := by
  rintro ⟨e, s', hE, hstep⟩
  obtain ⟨howner, hopen⟩ := hE.owner
  exact not_enabled_of_conn hopen howner (fun k hk => ⟨h k hk, hI.removed c k hk (h k hk)⟩) hstep

/-- A connection is idle and closes, and then others only knock. -/
def idling : List ServerEvent :=
  [.accept, .open 0 0, .record 0, .task 0 .idleClose, .task 0 .listenCancelled,
    .task 0 .egressCancelled, .task 0 .egressClosed, .remove 0]

/-- One event after the other. -/
def idlingEvents (n : ℕ) : ServerEvent := idling.getD n .accept

/-- What becomes of the server. -/
def idlingStates : ℕ → Server
  | 0 => .init
  | n + 1 => (step {} tagOnly (idlingStates n) (idlingEvents n)).getD (idlingStates n)

/-- From the eighth event on, nobody opens a connection. -/
theorem idlingEvents_eq {n : ℕ} (hn : 8 ≤ n) : idlingEvents n = .accept := by
  rw [idlingEvents, List.getD_eq_default _ _ hn]

theorem idling_open {m : ℕ} {now : Instant} (h : idlingEvents m = .open c now) :
    m = 1 ∧ c = 0 := by
  by_cases hm : m < 8
  · interval_cases m <;> cases h
    exact ⟨rfl, rfl⟩
  · cases (idlingEvents_eq (Nat.not_lt.mp hm)).symm.trans h

theorem forever_idling : (signallingServer {} tagOnly).Forever idlingStates idlingEvents where
  start := .init
  steps n := by
    have hsome : (step {} tagOnly (idlingStates n) (idlingEvents n)).isSome := by
      by_cases hn : n < 8
      · interval_cases n <;> rfl
      · rw [idlingEvents, List.getD_eq_default _ _ (Nat.not_lt.mp hn)]
        rfl
    obtain ⟨s, hs⟩ := Option.isSome_iff_exists.mp hsome
    rw [idlingStates, hs]
    exact hs

/-- There is one connection. -/
theorem eq_zero_of_idling {n : ℕ} (hk : (idlingStates n).conn c = some k) : c = 0 := by
  by_contra hc
  have hopen : ∀ m, 0 ≤ m → ∀ now, idlingEvents m ≠ .open c now :=
    fun m _ now h => hc (idling_open h).2
  cases (none_stays forever_idling hopen (Nat.zero_le n) rfl).symm.trans hk

theorem idling_removed {n : ℕ} (hn : 8 ≤ n) (c : ConnectionId) (k : Connection)
    (hk : (idlingStates n).conn c = some k) : k.stage = .removed := by
  obtain rfl := eq_zero_of_idling hk
  have hlast : At 0 (fun k => k.stage = .removed) (idlingStates 8) := ⟨_, rfl, rfl⟩
  obtain ⟨k', hk', hremoved⟩ := at_stays forever_idling (fun _ _ ho => ho.removed) hn hlast
  obtain rfl := Option.some.inj (hk.symm.trans hk')
  exact hremoved

theorem fair_idling (c : ConnectionId) (duty : Duty) :
    (signallingServer {} tagOnly).Fair (duty.By c) idlingStates idlingEvents := by
  intro hagain
  obtain ⟨m, hm, henabled⟩ := hagain 8
  have hI := reachable_inv (forever_idling.reachable m)
  exact absurd henabled (not_enabled hI (idling_removed hm c) duty)

/-- **Whoever closes is removed**: as soon as one of the tasks has ended, or the connection has to
close, it will be in neither of the tables from some time on, whatever other connections do. -/
theorem cleaned_up (h : (signallingServer cfg fromStr).Forever states events)
    (hfair : ∀ duty : Duty, (signallingServer cfg fromStr).Fair (duty.By c) states events)
    {n : ℕ} (hcloses : At c Closes (states n)) :
    ∃ m, n ≤ m ∧ ∀ m', m ≤ m' → Gone c (states m') := by
  obtain ⟨m, hnm, hremoved⟩ := closes_leadsTo h hfair n hcloses
  refine ⟨m, hnm, fun m' hm' => gone_of_removed (reachable_inv (h.reachable m')) ?_⟩
  exact at_stays h (fun _ _ ho => ho.removed) hm' hremoved

theorem cleaned_up_idling : ∃ m, 4 ≤ m ∧ ∀ m', m ≤ m' → Gone 0 (idlingStates m') :=
  cleaned_up forever_idling (fair_idling 0) ⟨_, rfl, .inl rfl⟩

/-- **The server drains**: when no connection is opened anymore and all that are there close at
some time, both tables are empty from some time on. -/
theorem drains (h : (signallingServer cfg fromStr).Forever states events)
    (hfair : ∀ (c : ConnectionId) (duty : Duty),
      (signallingServer cfg fromStr).Fair (duty.By c) states events)
    {n : ℕ} (hnone : ∀ m, n ≤ m → ∀ c now, events m ≠ .open c now)
    (hcloses : ∀ c k, (states n).conn c = some k → ∃ m, n ≤ m ∧ At c Closes (states m)) :
    ∃ m, n ≤ m ∧ ∀ m', m ≤ m' → (states m').state.rtt = ∅ ∧ (states m').state.ct = ∅ := by
  have hremoved : ∀ c ∈ List.range (states n).nextConnectionId, ∃ m, ∀ m', m ≤ m' → n ≤ m' →
      ∀ k, (states m').conn c = some k → k.stage = .removed := by
    intro c _
    cases hk : (states n).conn c with
    | none =>
      refine ⟨n, fun m' hm' _ k hk' => ?_⟩
      cases (none_stays h (fun m hm => hnone m hm c) hm' hk).symm.trans hk'
    | some k =>
      obtain ⟨m₁, -, hclose⟩ := hcloses c k hk
      obtain ⟨m, -, hgone⟩ := closes_leadsTo h (hfair c) m₁ hclose
      refine ⟨m, fun m' hm' _ k' hk' => ?_⟩
      obtain ⟨k₁, hk₁, hstage⟩ := at_stays h (fun _ _ ho => ho.removed) hm' hgone
      obtain rfl := Option.some.inj (hk₁.symm.trans hk')
      exact hstage
  obtain ⟨m, hm⟩ := eventually_forall _ hremoved
  refine ⟨max n m, Nat.le_max_left n m, fun m' hm' => ?_⟩
  have hnm' := (Nat.le_max_left n m).trans hm'
  refine (reachable_inv (h.reachable m')).tables_empty fun c k hk => ?_
  by_cases hlt : c < (states n).nextConnectionId
  · exact hm m' ((Nat.le_max_right n m).trans hm') c (List.mem_range.mpr hlt) hnm' k hk
  · have hnone' : (states n).conn c = none := by
      rw [Option.eq_none_iff_forall_ne_some]
      exact fun k hk => hlt (lt_nextConnectionId (h.reachable n) hk)
    cases (none_stays h (fun m hm => hnone m hm c) hnm' hnone').symm.trans hk

theorem drains_idling :
    ∃ m, 2 ≤ m ∧ ∀ m', m ≤ m' → (idlingStates m').state.rtt = ∅ ∧
      (idlingStates m').state.ct = ∅ := by
  refine drains forever_idling fair_idling (fun m hm c now hopen => ?_) fun c k hk => ?_
  · obtain ⟨rfl, -⟩ := idling_open hopen
    omega
  · obtain rfl := eq_zero_of_idling hk
    exact ⟨4, by omega, _, rfl, .inl rfl⟩

end CleanedUp

end Server

end Vamp
