import Mathlib.Algebra.BigOperators.Group.Finset.Basic
import Vamp.ConnectionCleanup
import Vamp.IdleChecker

/-!
# The books of the signalling server

The server counts what it does twice: in counters over all connections (`ServerMetrics`), and for
each connection in what its idle checker looks at (`NonIdleMarker`). Here the two are compared,
in any interleaving of the tasks of all connections (`Accounted`).

A message that is received is dropped by time, or accepted, or the last one that its connection
receives. So what is received is known from the other counters, up to one message for each
connection that does not listen anymore; and nothing is forwarded that was not accepted.

The counters are numbers without a bound. In the code they are of `AtomicUsize`, so this is about
the first `2 ^ 64 - 1` messages.
-/

namespace Vamp

namespace Server

open StateMachine

variable {V : Type} {cfg : ServerConfig} {fromStr : String → Option (WireMsg V)} {s s' : Server}
  {c : ConnectionId} {k k' : Connection}

/-! ## Sums over connections -/

/-- The sum over all connections, present and past. -/
def total (s : Server) (f : Connection → ℕ) : ℕ :=
  ∑ c ∈ Finset.range s.nextConnectionId, (s.conn c).elim 0 f

/-- A connection that is replaced contributes something else. -/
theorem total_setConn (hc : c < s.nextConnectionId) (f : Connection → ℕ) :
    (s.setConn c k').total f + (s.conn c).elim 0 f = s.total f + f k' := by
  have hmem : c ∈ Finset.range s.nextConnectionId := Finset.mem_range.mpr hc
  have hsame : ∀ d ∈ (Finset.range s.nextConnectionId).erase c,
      ((s.setConn c k').conn d).elim 0 f = (s.conn d).elim 0 f := by
    intro d hd
    rw [conn_setConn_ne s k' (Finset.ne_of_mem_erase hd)]
  have hnew : (s.setConn c k').total f =
      f k' + ∑ d ∈ (Finset.range s.nextConnectionId).erase c, (s.conn d).elim 0 f := by
    rw [← Finset.sum_congr rfl hsame]
    refine (Finset.add_sum_erase _ (fun d => ((s.setConn c k').conn d).elim 0 f) hmem).symm.trans ?_
    rw [conn_setConn_self, Option.elim_some]
  have hold : s.total f = (s.conn c).elim 0 f +
      ∑ d ∈ (Finset.range s.nextConnectionId).erase c, (s.conn d).elim 0 f :=
    (Finset.add_sum_erase _ (fun d => (s.conn d).elim 0 f) hmem).symm
  omega

/-- An id that is given out contributes nothing. -/
theorem total_accept (hnone : s.conn s.nextConnectionId = none) (f : Connection → ℕ) :
    total { s with nextConnectionId := s.nextConnectionId + 1 } f = s.total f := by
  rw [total, Finset.sum_range_succ]
  refine (congrArg (s.total f + ·) ?_).trans (Nat.add_zero _)
  change (s.conn s.nextConnectionId).elim 0 f = 0
  rw [hnone]
  rfl

/-- What each connection has at most, they have together at most as often as there are ids. -/
theorem total_le {n : ℕ} {f : Connection → ℕ} (h : ∀ c k, s.conn c = some k → f k ≤ n) :
    s.total f ≤ n * s.nextConnectionId := by
  have hle : ∀ c ∈ Finset.range s.nextConnectionId, (s.conn c).elim 0 f ≤ n := by
    intro c _
    cases hk : s.conn c with
    | none => exact Nat.zero_le n
    | some k => exact h c k hk
  refine (Finset.sum_le_card_nsmul _ _ n hle).trans ?_
  rw [Finset.card_range, smul_eq_mul, Nat.mul_comm]

/-- What is at most something else for each connection, is so together. -/
theorem total_mono {f g : Connection → ℕ} (h : ∀ c k, s.conn c = some k → f k ≤ g k) :
    s.total f ≤ s.total g := by
  refine Finset.sum_le_sum fun c _ => ?_
  cases hk : s.conn c with
  | none => exact Nat.le_refl 0
  | some k => exact h c k hk

/-! ## What is counted -/

/-- The messages of a connection that were accepted. -/
def incoming (k : Connection) : ℕ := k.processor.nonIdleMarker.incoming

/-- The messages of a connection that were forwarded. -/
def forwarded (k : Connection) : ℕ := k.processor.nonIdleMarker.forwarded

/-- Whether a connection does not listen anymore, as a number. -/
def ended (k : Connection) : ℕ := if k.listen = .finished then 1 else 0

/-- A message is received. -/
def receives : ServerEvent → Bool
  | .task _ (.receive _ message) => !message.isClose
  | _ => false

/-- **What a step of a connection does to the books**, where `n` messages are received. -/
structure Books (n : ℕ) (m : ServerMetrics) (k : Connection) (m' : ServerMetrics)
    (k' : Connection) : Prop where
  /-- what is received is counted -/
  received : m'.incomingMsg = m.incomingMsg + n
  /-- what is forwarded is counted twice -/
  forwarded : m'.forwarded + forwarded k = m.forwarded + forwarded k'
  /-- what is dropped, accepted or refused was received -/
  atLeast : m'.rateLimitedByTime + m'.rateLimitedByCount + m'.badRoutingTag + incoming k' ≤
    m.rateLimitedByTime + m.rateLimitedByCount + m.badRoutingTag + incoming k + n
  /-- what is received is dropped or accepted, or ends the connection -/
  atMost : n + m.rateLimitedByTime + incoming k + ended k ≤
    m'.rateLimitedByTime + incoming k' + ended k'

/-- What is not counted. -/
theorem Books.of_same {m : ServerMetrics}
    (hmarker : k'.processor.nonIdleMarker = k.processor.nonIdleMarker)
    (hlisten : k'.listen = k.listen ∨ k.listen ≠ .finished) : Books 0 m k m k' := by
  have hended : ended k ≤ ended k' := by
    unfold ended
    rcases hlisten with hsame | hne
    · rw [hsame]
    · rw [if_neg hne]
      exact Nat.zero_le _
  have hincoming : incoming k' = incoming k := congrArg NonIdleMarker.incoming hmarker
  have hforwarded : Server.forwarded k' = Server.forwarded k :=
    congrArg NonIdleMarker.forwarded hmarker
  constructor <;> omega

@[simp] theorem incoming_finishListen (k : Connection) : incoming k.finishListen = incoming k := rfl

@[simp] theorem ended_finishListen (k : Connection) : ended k.finishListen = 1 := if_pos rfl

/-- A message is received: each of the ways in which the first segment of `process` ends is
in the books. -/
theorem books_receive (m : ServerMetrics) (now : Instant) {message : Message}
    (hlisten : k.listen = .awaiting) (hclose : message.isClose = false) :
    Books 1 m k (k.receive fromStr m now message).2 (k.receive fromStr m now message).1 := by
  have hended : ended k = 0 := if_neg (hlisten ▸ ListenTask.noConfusion)
  rw [Connection.receive, if_neg (hclose ▸ Bool.false_ne_true)]
  unfold MsgProcessor.beforeLock
  rcases k.processor.msgRateLimiter.rateLimitByTime_cases now with
    ⟨l₁, err, h₁, -⟩ | ⟨l₁, h₁, -⟩
  · -- dropped
    rw [h₁]
    refine ⟨rfl, rfl, ?_, ?_⟩
    · simp only [ServerMetrics.recordTimeRateLimit, ServerMetrics.recordIncomingMsg, incoming]
      omega
    · simp only [ServerMetrics.recordTimeRateLimit, ServerMetrics.recordIncomingMsg, incoming]
      rw [hended, ended, if_neg (hlisten ▸ ListenTask.noConfusion)]
      omega
  rw [h₁]
  rcases l₁.limitMessages_cases with ⟨err, h₂, -⟩ | ⟨l₂, h₂, -⟩
  · -- the last one: there were too many
    simp only [h₂]
    refine ⟨rfl, rfl, ?_, ?_⟩
    · simp only [ServerMetrics.recordCountRateLimit, ServerMetrics.recordIncomingMsg, incoming,
        Connection.finishListen, Connection.cancel]
      omega
    · rw [ended_finishListen, hended]
      simp only [ServerMetrics.recordCountRateLimit, ServerMetrics.recordIncomingMsg, incoming,
        Connection.finishListen, Connection.cancel]
      omega
  simp only [h₂]
  cases hparse : parseIncoming fromStr message with
  | error err =>
    -- the last one: it is malformed
    refine ⟨rfl, rfl, Nat.le_succ _, ?_⟩
    rw [ended_finishListen, hended]
    simp only [ServerMetrics.recordIncomingMsg, incoming, Connection.finishListen,
      Connection.cancel]
    omega
  | ok parsed =>
    rcases l₂.tryBrandRttTag_cases parsed.rttTag with ⟨err, h₃, -⟩ | ⟨l₃, h₃, -⟩
    · -- the last one: it is for another room
      simp only [h₃]
      refine ⟨rfl, rfl, ?_, ?_⟩
      · simp only [ServerMetrics.recordBadRoutingTag, ServerMetrics.recordIncomingMsg, incoming,
          Connection.finishListen, Connection.cancel]
        omega
      · rw [ended_finishListen, hended]
        simp only [ServerMetrics.recordBadRoutingTag, ServerMetrics.recordIncomingMsg, incoming,
          Connection.finishListen, Connection.cancel]
        omega
    · -- accepted
      simp only [h₃]
      refine ⟨rfl, rfl, Nat.le_refl _, ?_⟩
      rw [hended]
      simp only [ServerMetrics.recordIncomingMsg, incoming, NonIdleMarker.incrementIncoming]
      omega

/-- Only what is received moves the counters of the server. -/
theorem step_metrics {m m' : ServerMetrics} {e : TaskEvent}
    (he : ∀ now message, e ≠ .receive now message) (h : k.step fromStr m e = some (k', m')) :
    m' = m := by
  cases e with
  | receive now message => exact absurd rfl (he now message)
  | egressRecv =>
    simp only [Connection.step] at h
    split at h
    · exact (Prod.mk.inj (Option.some.inj h)).2.symm
    · cases h
  | egressSent ok =>
    simp only [Connection.step] at h
    split at h
    · split at h
      · exact (Prod.mk.inj (Option.some.inj h)).2.symm
      · exact (Prod.mk.inj (Option.some.inj h)).2.symm
    · cases h
  | _ =>
    simp only [Connection.step, Option.ite_none_right_eq_some, Option.some.injEq,
      Prod.mk.injEq] at h
    exact h.2.2.symm

/-- A task keeps the books. -/
theorem books_task {m m' : ServerMetrics} {e : TaskEvent}
    (h : k.step fromStr m e = some (k', m')) :
    Books (receives (.task c e)).toNat m k m' k' := by
  have hcases := (Connection.step_cases h).2
  by_cases he : ∃ now message, e = .receive now message
  · obtain ⟨now, message, rfl⟩ := he
    obtain ⟨hlisten, h⟩ := Option.ite_none_right_eq_some.mp h
    cases hclose : message.isClose with
    | true =>
      have hreceive : k.receive fromStr m now message = (k.finishListen, m) := if_pos hclose
      obtain ⟨rfl, rfl⟩ := Prod.mk.inj (hreceive.symm.trans (Option.some.inj h))
      have hnone : (receives (.task c (.receive now message))).toNat = 0 := by
        rw [receives, hclose]
        rfl
      rw [hnone]
      exact .of_same rfl (.inr (hlisten ▸ ListenTask.noConfusion))
    | false =>
      obtain rfl : _ = k' := congrArg Prod.fst (Option.some.inj h)
      obtain rfl : _ = m' := congrArg Prod.snd (Option.some.inj h)
      have hone : (receives (.task c (.receive now message))).toNat = 1 := by
        rw [receives, hclose]
        rfl
      rw [hone]
      exact books_receive m now hlisten hclose
  · have hreceive : ∀ now message, e ≠ .receive now message := fun now message heq =>
      he ⟨now, message, heq⟩
    obtain rfl := step_metrics hreceive h
    have hnone : (receives (.task c e)).toNat = 0 := by
      cases e with
      | receive now message => exact absurd rfl (hreceive now message)
      | _ => rfl
    rw [hnone]
    rcases hcases with ⟨now, message, _, heq, -⟩ | ⟨hlisten, -, hmarker⟩
    · exact absurd heq (hreceive now message)
    · refine .of_same hmarker (hlisten.imp id fun hawaiting => ?_)
      rw [hawaiting.1]
      exact ListenTask.noConfusion

/-! ## The books are right -/

/-- **The books** of all connections together. -/
structure Balanced (s : Server) : Prop where
  /-- what is forwarded is counted twice -/
  forwarded : s.metrics.forwarded = s.total forwarded
  /-- what is dropped, accepted or refused was received -/
  atLeast : s.metrics.rateLimitedByTime + s.metrics.rateLimitedByCount +
    s.metrics.badRoutingTag + s.total incoming ≤ s.metrics.incomingMsg
  /-- what is received is dropped or accepted, or ends its connection -/
  atMost : s.metrics.incomingMsg ≤
    s.metrics.rateLimitedByTime + s.total incoming + s.total ended

/-- A connection keeps its books, and so do all. -/
theorem Balanced.setConn {n : ℕ} {m' : ServerMetrics} (h : Balanced s)
    (hc : c < s.nextConnectionId) (hk : ∀ f ∈ [incoming, Server.forwarded, ended],
      (s.conn c).elim 0 f = f k) (hbooks : Books n s.metrics k m' k') (state : ServerState) :
    Balanced { s.setConn c k' with metrics := m', state } := by
  have htotal : ∀ f ∈ [incoming, Server.forwarded, ended],
      total { s.setConn c k' with metrics := m', state } f + f k = s.total f + f k' := by
    intro f hf
    rw [← hk f hf]
    exact total_setConn hc f
  have hincoming := htotal incoming (by simp)
  have hforwarded := htotal Server.forwarded (by simp)
  have hended := htotal ended (by simp)
  obtain ⟨hreceived, hcounted, hatLeast, hatMost⟩ := hbooks
  obtain ⟨hsum, hlower, hupper⟩ := h
  constructor
  · change m'.forwarded = _
    omega
  · change m'.rateLimitedByTime + m'.rateLimitedByCount + m'.badRoutingTag + _ ≤ m'.incomingMsg
    omega
  · change m'.incomingMsg ≤ m'.rateLimitedByTime + _ + _
    omega

/-- What is read of a connection that is there. -/
theorem elim_of_conn (hk : s.conn c = some k) :
    ∀ f ∈ [incoming, Server.forwarded, ended], (s.conn c).elim 0 f = f k := by
  intro f _
  rw [hk]
  rfl

/-- A message is enqueued and counted. -/
theorem books_forward {m : ServerMetrics} {message : Message} {parsed : ParsedMessage}
    {dst : ConnectionHandler} (hlisten : k.listen = .forwarding message parsed dst) :
    Books 0 m k m.recordForwarded (afterForward k) := by
  have hended : ended k = 0 := if_neg (hlisten ▸ ListenTask.noConfusion)
  refine ⟨rfl, ?_, Nat.le_refl _, ?_⟩
  · simp only [ServerMetrics.recordForwarded, Server.forwarded, afterForward,
      NonIdleMarker.incrementForwarded]
    omega
  · rw [hended]
    simp only [ServerMetrics.recordForwarded, incoming, afterForward,
      NonIdleMarker.incrementForwarded]
    omega

/-- **Every step keeps the books.** -/
theorem Balanced.step {e : ServerEvent} (hreach : (signallingServer cfg fromStr).Reachable s)
    (h : Balanced s) (hstep : Server.step cfg fromStr s e = some s') : Balanced s' := by
  have hlt : ∀ {c k}, s.conn c = some k → c < s.nextConnectionId :=
    fun hk => lt_nextConnectionId hreach hk
  cases e with
  | accept =>
    obtain rfl := Option.some.inj hstep
    have hnone : s.conn s.nextConnectionId = none := by
      cases hk : s.conn s.nextConnectionId with
      | none => rfl
      | some k => exact absurd (hlt hk) (Nat.lt_irrefl _)
    exact ⟨h.forwarded.trans (total_accept hnone _).symm, (total_accept hnone _).symm ▸ h.atLeast,
      (total_accept hnone incoming).symm ▸ (total_accept hnone ended).symm ▸ h.atMost⟩
  | «open» c now =>
    have hc : c < s.nextConnectionId := (Option.ite_none_right_eq_some.mp hstep).1.1
    obtain ⟨hnone, rfl⟩ := step_open hstep
    refine h.setConn (k := .start cfg now) hc (fun f hf => ?_) (.of_same rfl (.inl rfl)) s.state
    rw [hnone]
    simp only [List.mem_cons, List.not_mem_nil, or_false] at hf
    rcases hf with rfl | rfl | rfl <;> rfl
  | record c =>
    obtain ⟨k, hk, -, rfl⟩ := step_record hstep
    have hbooks : Books 0 s.metrics k s.metrics { k with stage := .recorded } :=
      .of_same rfl (.inl rfl)
    exact h.setConn (hlt hk) (elim_of_conn hk) hbooks _
  | task c e =>
    obtain ⟨k, k', metrics, hk, htask, rfl⟩ := step_task hstep
    exact h.setConn (hlt hk) (elim_of_conn hk) (books_task (c := c) htask) s.state
  | lookup c =>
    obtain ⟨k, message, parsed, hk, hlisten, rfl⟩ := step_lookup hstep
    refine h.setConn (hlt hk) (elim_of_conn hk) (.of_same ?_ (.inr ?_)) _
    · cases (s.state.recordRtrAndGetForwardingQueue parsed.rttTag c parsed.hasPayload).2 <;> rfl
    · rw [hlisten]
      exact ListenTask.noConfusion
  | forward c =>
    obtain ⟨k, message, parsed, dst, kd, hk, hlisten, hkd, ⟨-, rfl⟩ | ⟨-, rfl⟩⟩ :=
      step_forward hstep
    · -- the queue of the destination is not in the books
      have hbooks : Books 0 s.metrics kd s.metrics { kd with queue := kd.queue ++ [message] } :=
        .of_same rfl (.inl rfl)
      have henqueued : Balanced (s.setConn dst.sendSpscQPutter
          { kd with queue := kd.queue ++ [message] }) :=
        h.setConn (hlt hkd) (elim_of_conn hkd) hbooks s.state
      refine henqueued.setConn (hlt hk) (fun f hf => ?_) (books_forward hlisten) s.state
      by_cases hc : c = dst.sendSpscQPutter
      · rw [hc, conn_setConn_self]
        obtain rfl := Option.some.inj (hk.symm.trans (hc ▸ hkd))
        simp only [List.mem_cons, List.not_mem_nil, or_false] at hf
        rcases hf with rfl | rfl | rfl <;> rfl
      · rw [conn_setConn_ne s _ hc]
        exact elim_of_conn hk f hf
    · have hbooks : Books 0 s.metrics k s.metrics k.finishListen :=
        .of_same rfl (.inr (hlisten ▸ ListenTask.noConfusion))
      exact h.setConn (hlt hk) (elim_of_conn hk) hbooks s.state
  | remove c =>
    obtain ⟨k, hk, -, -, rfl⟩ := step_remove hstep
    have hbooks : Books 0 s.metrics k s.metrics { k.cancel with stage := .removed } :=
      .of_same rfl (.inl rfl)
    exact h.setConn (hlt hk) (elim_of_conn hk) hbooks _

/-- What is counted is what happens. -/
theorem step_counts {e : ServerEvent} (hstep : step cfg fromStr s e = some s') :
    s'.metrics.incomingMsg = s.metrics.incomingMsg + (receives e).toNat ∧
    s'.metrics.forwarded = s.metrics.forwarded + (s.placement cfg e).toList.length := by
  cases e with
  | accept =>
    obtain rfl := Option.some.inj hstep
    exact ⟨rfl, rfl⟩
  | «open» c now =>
    obtain ⟨-, rfl⟩ := step_open hstep
    exact ⟨rfl, rfl⟩
  | record c =>
    obtain ⟨k, -, -, rfl⟩ := step_record hstep
    exact ⟨rfl, rfl⟩
  | task c e =>
    obtain ⟨k, k', metrics, -, htask, rfl⟩ := step_task hstep
    have hbooks := books_task (c := c) htask
    refine ⟨hbooks.received, ?_⟩
    have hsame : forwarded k' = forwarded k := by
      rcases (Connection.step_cases htask).2 with ⟨_, _, _, -, -, -, -, -, hmarker⟩ |
        ⟨-, -, hmarker⟩
      · rw [Server.forwarded, hmarker]
        rfl
      · exact congrArg NonIdleMarker.forwarded hmarker
    have hforwarded := hbooks.forwarded
    rw [hsame] at hforwarded
    exact Nat.add_right_cancel hforwarded
  | lookup c =>
    obtain ⟨k, message, parsed, -, -, rfl⟩ := step_lookup hstep
    exact ⟨rfl, rfl⟩
  | forward c =>
    obtain ⟨k, message, parsed, dst, kd, hk, hlisten, hkd, ⟨haccepts, rfl⟩ | ⟨hrefuses, rfl⟩⟩ :=
      step_forward hstep
    · rw [placement_forward hk hlisten hkd, if_pos haccepts]
      exact ⟨rfl, rfl⟩
    · rw [placement_forward hk hlisten hkd, if_neg hrefuses]
      exact ⟨rfl, rfl⟩
  | remove c =>
    obtain ⟨k, -, -, -, rfl⟩ := step_remove hstep
    exact ⟨rfl, rfl⟩

/-- **The books**, compared with what has happened in a run. -/
structure Accounted (cfg : ServerConfig) (fromStr : String → Option (WireMsg V))
    (es : List ServerEvent) (s : Server) : Prop extends Balanced s where
  /-- what is received is counted -/
  received : s.metrics.incomingMsg = es.countP receives
  /-- what is placed in a queue is counted -/
  placed : s.metrics.forwarded = ((signallingServer cfg fromStr).trace
    (fun s e => (s.placement cfg e).toList) .init es).length
  /-- nothing is forwarded that was not accepted -/
  accepted : s.total Server.forwarded ≤ s.total incoming
  /-- each connection has its limit -/
  limited : s.total incoming ≤ cfg.messagesPerConnection * s.nextConnectionId

/-- **The books are right**, after any run of the server: the counters tell what was received
and what was placed in a queue, and agree with those of all connections together. -/
theorem accounted_of_run {es : List ServerEvent}
    (hrun : (signallingServer cfg fromStr).run .init es = some s) :
    Accounted cfg fromStr es s := by
  have hlimited : ∀ c k, s.conn c = some k → k.Limited cfg := fun c k hk =>
    limited_of_reachable ⟨es, hrun⟩ hk
  have hcounts : Balanced s ∧ s.metrics.incomingMsg = es.countP receives ∧
      s.metrics.forwarded = ((signallingServer cfg fromStr).trace
        (fun s e => (s.placement cfg e).toList) .init es).length := by
    refine run_induction (M := signallingServer cfg fromStr)
      (P := fun es s => Balanced s ∧ s.metrics.incomingMsg = es.countP receives ∧
        s.metrics.forwarded = ((signallingServer cfg fromStr).trace
          (fun s e => (s.placement cfg e).toList) .init es).length) ?_ ?_ hrun
    · exact ⟨⟨rfl, Nat.le_refl 0, Nat.le_refl 0⟩, rfl, rfl⟩
    · rintro es s e s' hes ⟨hbalanced, hreceived, hplaced⟩ hstep
      obtain ⟨hreceived', hplaced'⟩ := step_counts hstep
      refine ⟨hbalanced.step ⟨es, hes⟩ hstep, ?_, ?_⟩
      · rw [hreceived', hreceived, List.countP_append, List.countP_singleton]
        cases receives e <;> rfl
      · rw [hplaced', hplaced, trace_concat hes hstep, List.length_append]
  refine ⟨hcounts.1, hcounts.2.1, hcounts.2.2, ?_, ?_⟩
  · refine total_mono fun c k hk => ?_
    exact (Nat.le_add_right _ _).trans (hlimited c k hk).forwarded
  · exact total_le fun c k hk => (hlimited c k hk).incoming.trans (hlimited c k hk).total

theorem accounted_of_run_twoMeet :
    afterTwoMeet.metrics = { incomingMsg := 2, forwarded := 1 } ∧
      Accounted {} tagOnly twoMeet afterTwoMeet :=
  ⟨by decide, accounted_of_run run_twoMeet⟩

end Server

end Vamp
