import Mathlib.Data.Nat.Find
import Mathlib.Tactic.Push
import Vamp.MessageLimits
import Vamp.SignallingServer

/-!
# The idle checker

`start_idle_checker` sleeps, looks at the `NonIdleMarker` that `process` counts in, and closes
the connection where nothing has changed since it last looked. What happens at an instant happens
before a sleep that is over then is noticed.

* **The marker** is what it counts: the marks of its connection, in every run of the server
  (`marker_of_run`). It does not overflow (`limited_of_reachable`).
* **The checker** looks at counters, on a grid of instants. What it finds out is about intervals:
  whether anything was forwarded since the last point of the grid (`checking_of_forwards`). So it
  closes the connection at the first point that follows an interval without a forwarded message,
  and not otherwise (`closes_idle`).
-/

namespace Vamp

variable {V : Type}

/-! ## The marker over time -/

/-- What `process` does to the marker. -/
inductive Mark : Type where
  /-- `increment_incoming` -/
  | accepted
  /-- `increment_forwarded` -/
  | forwarded
  deriving DecidableEq

/-- Count a mark. -/
def NonIdleMarker.count (m : NonIdleMarker) : Mark → NonIdleMarker
  | .accepted => m.incrementIncoming
  | .forwarded => m.incrementForwarded

/-- The marker after what happens up to an instant. -/
def markerAt (marks : Instant → List Mark) : Instant → NonIdleMarker
  | 0 => (marks 0).foldl .count {}
  | t + 1 => (marks (t + 1)).foldl .count (markerAt marks t)

/-- Nothing was accepted until `t`. -/
def NoneAccepted (marks : Instant → List Mark) (t : Instant) : Prop :=
  ∀ t', t' ≤ t → .accepted ∉ marks t'

/-- Nothing was forwarded after `a` until `b`. -/
def NoneForwarded (marks : Instant → List Mark) (a b : Instant) : Prop :=
  ∀ t, a < t → t ≤ b → .forwarded ∉ marks t

theorem foldl_count (m : NonIdleMarker) (marks : List Mark) :
    marks.foldl .count m =
      ⟨m.incoming + marks.count .accepted, m.forwarded + marks.count .forwarded⟩ := by
  induction marks generalizing m with
  | nil => rfl
  | cons mark marks ih =>
    rw [List.foldl_cons, ih]
    cases mark with
    | accepted =>
      rw [List.count_cons_self, List.count_cons_of_ne (by decide), Nat.add_comm (List.count _ _) 1,
        ← Nat.add_assoc]
      rfl
    | forwarded =>
      rw [List.count_cons_self, List.count_cons_of_ne (by decide), Nat.add_comm (List.count _ _) 1,
        ← Nat.add_assoc]
      rfl

section Marks

variable {marks : Instant → List Mark}

/-- The counters change by what happens. -/
theorem markerAt_succ (t : Instant) :
    (markerAt marks (t + 1)).incoming =
        (markerAt marks t).incoming + (marks (t + 1)).count .accepted ∧
      (markerAt marks (t + 1)).forwarded =
        (markerAt marks t).forwarded + (marks (t + 1)).count .forwarded := by
  rw [markerAt, foldl_count]
  exact ⟨rfl, rfl⟩

theorem incoming_markerAt (t : Instant) :
    (markerAt marks t).incoming = 0 ↔ NoneAccepted marks t := by
  induction t with
  | zero =>
    rw [markerAt, foldl_count, Nat.zero_add, List.count_eq_zero]
    constructor
    · rintro h t' ht'
      rwa [Nat.le_zero.mp ht']
    · exact fun h => h 0 (Nat.le_refl 0)
  | succ t ih =>
    rw [(markerAt_succ t).1, Nat.add_eq_zero_iff, ih, List.count_eq_zero]
    constructor
    · rintro ⟨h, hlast⟩ t' ht'
      rcases Nat.le_succ_iff.mp ht' with hle | rfl
      · exact h t' hle
      · exact hlast
    · exact fun h => ⟨fun t' ht' => h t' (Nat.le_succ_of_le ht'), h (t + 1) (Nat.le_refl _)⟩

/-- The counter grows with what is forwarded. -/
theorem forwarded_markerAt {a b : Instant} (hab : a ≤ b) :
    (markerAt marks a).forwarded ≤ (markerAt marks b).forwarded ∧
      ((markerAt marks b).forwarded = (markerAt marks a).forwarded ↔ NoneForwarded marks a b) := by
  induction b, hab using Nat.le_induction with
  | base => exact ⟨Nat.le_refl _, iff_of_true rfl fun t ht ht' => absurd ht (Nat.not_lt.mpr ht')⟩
  | succ b hab ih =>
    obtain ⟨hle, hiff⟩ := ih
    have hsplit : NoneForwarded marks a (b + 1) ↔
        NoneForwarded marks a b ∧ (marks (b + 1)).count .forwarded = 0 := by
      rw [List.count_eq_zero]
      constructor
      · exact fun h => ⟨fun t ht ht' => h t ht (Nat.le_succ_of_le ht'),
          h (b + 1) (Nat.lt_succ_of_le hab) (Nat.le_refl _)⟩
      · rintro ⟨h, hlast⟩ t ht ht'
        rcases Nat.le_succ_iff.mp ht' with hle | rfl
        · exact h t ht hle
        · exact hlast
    rw [hsplit, ← hiff, (markerAt_succ b).2]
    omega

end Marks

/-! ## The marker of a connection

What `process` counts, in any run of the server. There are no more marks than messages, which
`limit_messages` limits, so the counters do not overflow. -/

namespace Server

variable {cfg : ServerConfig} {fromStr : String → Option (WireMsg V)} {s s' : Server}
  {c : ConnectionId} {e : ServerEvent}

/-- What an event does to the marker of `c`. -/
def marks (cfg : ServerConfig) (fromStr : String → Option (WireMsg V)) (c : ConnectionId)
    (s : Server) : ServerEvent → List Mark
  | .task d (.receive now message) =>
    if d = c then
      match (s.conn c).map fun k => (k.receive fromStr s.metrics now message).1.listen with
      | some (ListenTask.locking _ _) => [.accepted]
      | _ => []
    else []
  | .forward d => if d = c ∧ (s.placement cfg (.forward d)).isSome then [.forwarded] else []
  | _ => []

/-- What a task counts. -/
theorem task_marks {d : ConnectionId} {e : TaskEvent}
    (h : step cfg fromStr s (.task d e) = some s') {k : Connection} (hk : s.conn c = some k) :
    ∃ k', s'.conn c = some k' ∧ k'.processor.nonIdleMarker =
      (marks cfg fromStr c s (.task d e)).foldl .count k.processor.nonIdleMarker := by
  obtain ⟨k₁, k₁', metrics, hk₁, hstep, rfl⟩ := step_task h
  by_cases hd : d = c
  · subst hd
    obtain rfl : k = k₁ := Option.some.inj (hk.symm.trans hk₁)
    refine ⟨k₁', conn_setConn_self .., ?_⟩
    have hcases := (Connection.step_cases hstep).2
    cases e with
    | receive now message =>
      have hreceive : k.listen = .awaiting ∧ (k.receive fromStr s.metrics now message).1 = k₁' := by
        rw [Connection.step] at hstep
        split at hstep
        · exact ⟨‹_›, congrArg Prod.fst (Option.some.inj hstep)⟩
        · cases hstep
      obtain ⟨hawaiting, hreceive⟩ := hreceive
      simp only [marks, hk, Option.map_some, hreceive, if_true]
      rcases hcases with ⟨_, _, _, -, -, hlocking, -, -, hmarker⟩ | ⟨hlisten, -, hmarker⟩
      · rw [hlocking, hmarker]
        rfl
      · rw [hmarker]
        rcases hlisten with hsame | ⟨-, hfinished⟩
        · rw [hsame, hawaiting]
          rfl
        · rw [hfinished]
          rfl
    | _ =>
      rcases hcases with ⟨_, _, _, hreceive, -⟩ | ⟨-, -, hmarker⟩
      · cases hreceive
      · exact hmarker
  · have hnone : marks cfg fromStr c s (.task d e) = [] := by
      cases e with
      | receive now message => exact if_neg hd
      | _ => rfl
    rw [hnone]
    exact ⟨k, (conn_setConn_ne s k₁' (Ne.symm hd)).trans hk, rfl⟩

/-- What a forwarded message counts. -/
theorem forward_marks {d : ConnectionId} (h : step cfg fromStr s (.forward d) = some s')
    {k : Connection} (hk : s.conn c = some k) :
    ∃ k', s'.conn c = some k' ∧ k'.processor.nonIdleMarker =
      (marks cfg fromStr c s (.forward d)).foldl .count k.processor.nonIdleMarker := by
  obtain ⟨k₁, message, parsed, dst, kd, hk₁, hlisten, hkd, hresult⟩ := step_forward h
  have hplacement : s.placement cfg (.forward d) = _ := placement_forward hk₁ hlisten hkd
  rcases hresult with ⟨haccepts, rfl⟩ | ⟨haccepts, rfl⟩
  · rw [if_pos haccepts] at hplacement
    by_cases hd : d = c
    · subst hd
      obtain rfl : k = k₁ := Option.some.inj (hk.symm.trans hk₁)
      refine ⟨afterForward k, conn_setConn_self .., ?_⟩
      rw [marks, hplacement, if_pos ⟨rfl, rfl⟩]
      rfl
    · rw [marks, if_neg fun hand => hd hand.1]
      by_cases hdst : c = dst.sendSpscQPutter
      · subst hdst
        obtain rfl : k = kd := Option.some.inj (hk.symm.trans hkd)
        refine ⟨{ k with queue := k.queue ++ [message] }, ?_, rfl⟩
        exact (conn_setConn_ne _ _ (Ne.symm hd)).trans (conn_setConn_self ..)
      · exact ⟨k, (conn_setConn_ne _ _ (Ne.symm hd)).trans
          ((conn_setConn_ne s _ hdst).trans hk), rfl⟩
  · rw [if_neg haccepts] at hplacement
    rw [marks, hplacement, if_neg fun hand => Bool.noConfusion hand.2]
    exact exists_conn_setConn hk₁ id hk rfl

/-- **The marker counts marks**, and nothing else changes it. -/
theorem step_marks (h : step cfg fromStr s e = some s') {k : Connection} (hk : s.conn c = some k) :
    ∃ k', s'.conn c = some k' ∧ k'.processor.nonIdleMarker =
      (marks cfg fromStr c s e).foldl .count k.processor.nonIdleMarker := by
  have hset : ∀ {d : ConnectionId} {k₁ k₁' : Connection}, s.conn d = some k₁ →
      k₁'.processor.nonIdleMarker = k₁.processor.nonIdleMarker →
      ∃ k', (s.setConn d k₁').conn c = some k' ∧
        k'.processor.nonIdleMarker = k.processor.nonIdleMarker := by
    intro d k₁ k₁' hk₁ hsame
    exact exists_conn_setConn hk₁ hsame.trans hk rfl
  cases e with
  | accept =>
    obtain rfl := Option.some.inj h
    exact ⟨k, hk, rfl⟩
  | «open» d now =>
    obtain ⟨hnone, rfl⟩ := step_open h
    have hne : c ≠ d := by
      rintro rfl
      cases hnone.symm.trans hk
    exact ⟨k, (conn_setConn_ne s _ hne).trans hk, rfl⟩
  | record d =>
    obtain ⟨k₁, hk₁, -, rfl⟩ := step_record h
    exact hset hk₁ rfl
  | task d e => exact task_marks h hk
  | lookup d =>
    obtain ⟨k₁, message, parsed, hk₁, -, rfl⟩ := step_lookup h
    refine hset hk₁ ?_
    cases (s.state.recordRtrAndGetForwardingQueue parsed.rttTag d parsed.hasPayload).2 with
    | error err => rfl
    | ok dst => rfl
  | forward d => exact forward_marks h hk
  | remove d =>
    obtain ⟨k₁, hk₁, -, -, rfl⟩ := step_remove h
    exact hset hk₁ rfl

/-- Before a connection opens, nothing is counted. -/
theorem marks_of_none (h : s.conn c = none) : marks cfg fromStr c s e = [] := by
  cases e with
  | task d e =>
    cases e with
    | receive now message => simp [marks, h]
    | _ => rfl
  | forward d =>
    refine if_neg ?_
    rintro ⟨rfl, hplacement⟩
    simp [placement, h] at hplacement
  | _ => rfl

/-- **What the marker shows**: the marks of the connection, and no others. -/
theorem marker_of_run {es : List ServerEvent} {k : Connection}
    (hrun : (signallingServer cfg fromStr).run .init es = some s) (hk : s.conn c = some k) :
    k.processor.nonIdleMarker =
      ((signallingServer cfg fromStr).trace (marks cfg fromStr c) .init es).foldl .count {} := by
  revert k
  refine StateMachine.run_induction (P := fun es s =>
    (s.conn c = none → (signallingServer cfg fromStr).trace (marks cfg fromStr c) .init es = []) ∧
    ∀ {k : Connection}, s.conn c = some k → k.processor.nonIdleMarker =
      ((signallingServer cfg fromStr).trace (marks cfg fromStr c) .init es).foldl .count {})
    ⟨fun _ => rfl, fun hk => nomatch (hk : none = some _)⟩ ?_ hrun |>.2
  intro es s e s' hrun ih hstep
  rw [StateMachine.trace_concat hrun hstep]
  cases hconn : s.conn c with
  | none =>
    rw [ih.1 hconn, marks_of_none hconn]
    refine ⟨fun _ => rfl, fun hk => ?_⟩
    obtain ⟨now, -, rfl⟩ := step_fresh hstep hconn hk
    rfl
  | some k =>
    obtain ⟨k', hk', hmarker⟩ := step_marks hstep hconn
    refine ⟨fun hnone => absurd (hk'.symm.trans hnone) (Option.some_ne_none k'), fun hk => ?_⟩
    obtain rfl := Option.some.inj (hk'.symm.trans hk)
    rw [List.foldl_append, ← ih.2 hconn]
    exact hmarker

end Server

namespace Connection

variable {cfg : ServerConfig} {fromStr : String → Option (WireMsg V)} {k k' : Connection}

/-- The messages that `process` is at work on. -/
def busy : ListenTask → ℕ
  | .locking _ _ | .forwarding _ _ _ => 1
  | .awaiting | .finished => 0

/-- What is forwarded was accepted, what is accepted was let through, and not too much is. -/
structure Limited (cfg : ServerConfig) (k : Connection) : Prop where
  /-- the limit for the connection -/
  limit : k.processor.msgRateLimiter.maxMessagesPerConnection = cfg.messagesPerConnection
  /-- the messages that were let through -/
  total : k.processor.msgRateLimiter.totalMessageCount ≤ cfg.messagesPerConnection
  /-- the messages that were accepted -/
  incoming : k.processor.nonIdleMarker.incoming ≤ k.processor.msgRateLimiter.totalMessageCount
  /-- the messages that were forwarded, or may be -/
  forwarded : k.processor.nonIdleMarker.forwarded + busy k.listen ≤
    k.processor.nonIdleMarker.incoming

/-- What `process` does not count. -/
theorem Limited.of_same (h : Limited cfg k)
    (hlimiter : k'.processor.msgRateLimiter = k.processor.msgRateLimiter)
    (hmarker : k'.processor.nonIdleMarker = k.processor.nonIdleMarker)
    (hbusy : busy k'.listen ≤ busy k.listen) : Limited cfg k' := by
  obtain ⟨hlimit, htotal, hincoming, hforwarded⟩ := h
  refine ⟨by rw [hlimiter, hlimit], by rwa [hlimiter], by rwa [hlimiter, hmarker], ?_⟩
  rw [hmarker]
  exact (Nat.add_le_add_left hbusy _).trans hforwarded

/-- A message that is received is counted before it is accepted. -/
theorem limited_receive (h : Limited cfg k) (hlisten : k.listen = .awaiting)
    (metrics : ServerMetrics) (now : Instant) (message : Message) :
    Limited cfg (k.receive fromStr metrics now message).1 := by
  obtain ⟨hlimit, htotal, hincoming, hforwarded⟩ := h
  unfold receive
  split
  · exact ⟨hlimit, htotal, hincoming, (Nat.le_add_right _ _).trans hforwarded⟩
  obtain ⟨p', metrics', admission, hlock, hchecked, -, hsame⟩ :=
    k.processor.beforeLock_limits fromStr metrics now message
  have hperConnection := hsame.perConnection.trans hlimit
  rw [hlisten] at hforwarded
  rcases k.processor.beforeLock_cases fromStr metrics now message with
    ⟨p, m, res, hcase, -, hmarker, -⟩ | ⟨p, m, parsed, hcase, -, hmarker, -⟩
  · -- it is not accepted
    obtain rfl : p' = p := congrArg Prod.fst (hlock.symm.trans hcase)
    have hcount : k.processor.msgRateLimiter.totalMessageCount ≤
        p'.msgRateLimiter.totalMessageCount ∧
        p'.msgRateLimiter.totalMessageCount ≤ cfg.messagesPerConnection := by
      cases hchecked with
      | dropped _ _ hcount => exact ⟨hcount.ge, hcount.trans_le htotal⟩
      | capped _ _ _ hcount => exact ⟨hcount.ge, hcount.trans_le htotal⟩
      | counted _ _ hroom hcount =>
        rw [hlimit] at hroom
        exact ⟨Nat.le_of_lt hcount.ge, hcount.trans_le hroom⟩
    rw [hcase]
    cases res with
    | ok _ =>
      refine ⟨hperConnection, hcount.2, ?_, ?_⟩
      · exact hmarker ▸ hincoming.trans hcount.1
      · rw [hlisten, hmarker]
        exact hforwarded
    | error err =>
      refine ⟨hperConnection, hcount.2, ?_, ?_⟩
      · exact hmarker ▸ hincoming.trans hcount.1
      · exact hmarker ▸ hforwarded
  · -- it is accepted, and was counted
    obtain rfl : p' = p := congrArg Prod.fst (hlock.symm.trans hcase)
    obtain rfl : admission = .admitted parsed :=
      congrArg (fun result => result.2.2) (hlock.symm.trans hcase)
    rw [hcase]
    cases hchecked with
    | dropped _ hadmission _ => cases hadmission
    | capped _ hadmission _ _ => cases hadmission
    | counted _ _ hroom hcount =>
      rw [hlimit] at hroom
      refine ⟨hperConnection, hcount.trans_le hroom, ?_, ?_⟩
      · rw [hmarker, hcount]
        exact Nat.succ_le_succ hincoming
      · rw [hmarker]
        exact Nat.succ_le_succ hforwarded

/-- Only what is received can move the limiter. -/
theorem step_limiter {metrics metrics' : ServerMetrics} {e : TaskEvent}
    (he : ∀ now message, e ≠ .receive now message)
    (h : k.step fromStr metrics e = some (k', metrics')) :
    k'.processor.msgRateLimiter = k.processor.msgRateLimiter := by
  cases e with
  | receive now message => exact absurd rfl (he now message)
  | egressRecv =>
    simp only [Connection.step] at h
    split at h
    · obtain ⟨rfl, -⟩ := Prod.mk.inj (Option.some.inj h)
      rfl
    · cases h
  | egressSent ok =>
    simp only [Connection.step] at h
    split at h
    · split at h
      · obtain ⟨rfl, -⟩ := Prod.mk.inj (Option.some.inj h)
        rfl
      · obtain ⟨rfl, -⟩ := Prod.mk.inj (Option.some.inj h)
        rfl
    · cases h
  | _ =>
    simp only [Connection.step, Option.ite_none_right_eq_some, Option.some.injEq,
      Prod.mk.injEq] at h
    obtain ⟨-, rfl, -⟩ := h
    rfl

/-- A task counts what it receives, and nothing else. -/
theorem Limited.step {metrics metrics' : ServerMetrics} {e : TaskEvent} (h : Limited cfg k)
    (hstep : k.step fromStr metrics e = some (k', metrics')) : Limited cfg k' := by
  have hsame := (step_cases hstep).2
  cases e with
  | receive now message =>
    rw [Connection.step] at hstep
    split at hstep
    · obtain rfl := congrArg Prod.fst (Option.some.inj hstep)
      exact limited_receive h ‹_› metrics now message
    · cases hstep
  | _ =>
    rcases hsame with ⟨_, _, _, hreceive, -⟩ | ⟨hlisten, -, hmarker⟩
    · cases hreceive
    · refine h.of_same (step_limiter (fun _ _ he => by cases he) hstep) hmarker ?_
      rcases hlisten with hsame | ⟨-, hfinished⟩
      · rw [hsame]
      · rw [hfinished]
        exact Nat.zero_le _

end Connection

namespace Server

variable {cfg : ServerConfig} {fromStr : String → Option (WireMsg V)} {s : Server}
  {c : ConnectionId}

/-- A lookup takes the message along. -/
theorem busy_afterLookup {k : Connection} {message : Message} {parsed : ParsedMessage}
    (hlisten : k.listen = .locking message parsed) (res : MyRes ConnectionHandler) :
    Connection.busy (afterLookup k message parsed res).listen ≤ Connection.busy k.listen := by
  rw [hlisten]
  cases res with
  | error err => exact Nat.zero_le 1
  | ok dst => exact Nat.le_refl 1

/-- **The counters do not overflow**: they stay below the limit for the connection. -/
theorem limited_of_reachable (hreach : (signallingServer cfg fromStr).Reachable s)
    {k : Connection} (hk : s.conn c = some k) : k.Limited cfg := by
  have hall : ∀ c k, s.conn c = some k → k.Limited cfg := by
    refine StateMachine.invariant (I := fun s => ∀ c k, s.conn c = some k → k.Limited cfg)
      (fun c k hk => nomatch (hk : none = some k)) ?_ hreach
    intro s e s' _ ih (hstep : Server.step cfg fromStr s e = some s')
    -- a connection is replaced by one that is limited as well
    have hset : ∀ {s : Server} {d : ConnectionId} {k' : Connection},
        (∀ c k, s.conn c = some k → k.Limited cfg) → k'.Limited cfg →
        ∀ c k, (s.setConn d k').conn c = some k → k.Limited cfg := by
      intro s d k' ih hk' c k hk
      rcases conn_setConn_cases hk with ⟨rfl, rfl⟩ | ⟨-, hk⟩
      · exact hk'
      · exact ih c k hk
    cases e with
    | accept =>
      obtain rfl := Option.some.inj hstep
      exact ih
    | «open» d now =>
      obtain ⟨-, rfl⟩ := step_open hstep
      exact hset ih ⟨rfl, Nat.zero_le _, Nat.le_refl 0, Nat.le_refl 0⟩
    | record d =>
      obtain ⟨k, hk, -, rfl⟩ := step_record hstep
      exact hset ih ((ih d k hk).of_same rfl rfl (Nat.le_refl _))
    | task d e =>
      obtain ⟨k, k', metrics, hk, htask, rfl⟩ := step_task hstep
      exact hset ih ((ih d k hk).step htask)
    | lookup d =>
      obtain ⟨k, message, parsed, hk, hlisten, rfl⟩ := step_lookup hstep
      refine hset ih ((ih d k hk).of_same ?_ ?_ (busy_afterLookup hlisten _))
      all_goals
        cases (s.state.recordRtrAndGetForwardingQueue parsed.rttTag d parsed.hasPayload).2 <;> rfl
    | forward d =>
      obtain ⟨k, message, parsed, dst, kd, hk, hlisten, hkd, ⟨-, rfl⟩ | ⟨-, rfl⟩⟩ :=
        step_forward hstep
      · refine hset (hset ih ((ih _ kd hkd).of_same rfl rfl (Nat.le_refl _))) ?_
        obtain ⟨hlimit, htotal, hincoming, hforwarded⟩ := ih d k hk
        rw [hlisten] at hforwarded
        exact ⟨hlimit, htotal, hincoming, hforwarded⟩
      · exact hset ih ((ih d k hk).of_same rfl rfl (Nat.zero_le _))
    | remove d =>
      obtain ⟨k, hk, -, -, rfl⟩ := step_remove hstep
      exact hset ih ((ih d k hk).of_same rfl rfl (Nat.le_refl _))
  exact hall c k hk

end Server

/-! ## The checker -/

/-- Where `start_idle_checker` stands. -/
inductive IdleChecker : Type where
  /-- in the first sleep, until `wakes` -/
  | firstMessage (wakes : Instant)
  /-- in a sleep of the loop, until `wakes` -/
  | checking (checkedForwarded : ℕ) (wakes : Instant)
  /-- it has closed the connection -/
  | closed (time : Instant)
  deriving DecidableEq, Repr

/-- `start_idle_checker`, until it sleeps. Time is counted from here. -/
def startIdleChecker (firstMessageMaxDelay : ℕ) : IdleChecker := .firstMessage firstMessageMaxDelay

namespace IdleChecker

/-- A sleep is over. -/
def wake (idleCheckTimeout : ℕ) (nonIdleMarker : Instant → NonIdleMarker) :
    IdleChecker → IdleChecker
  | .firstMessage now =>
    if (nonIdleMarker now).incoming = 0 then .closed now
    else .checking (nonIdleMarker now).forwarded (now + idleCheckTimeout)
  | .checking checkedForwarded now =>
    let forwarded := (nonIdleMarker now).forwarded
    if forwarded = checkedForwarded then .closed now
    else .checking forwarded (now + idleCheckTimeout)
  | .closed time => .closed time

/-- The checker after `n` sleeps, if nothing else closes the connection. -/
def afterSleeps (marks : Instant → List Mark) (firstMessageMaxDelay idleCheckTimeout n : ℕ) :
    IdleChecker :=
  (wake idleCheckTimeout (markerAt marks))^[n] (startIdleChecker firstMessageMaxDelay)

/-- The checker closes the connection at this time. -/
def Closes (marks : Instant → List Mark) (firstMessageMaxDelay idleCheckTimeout : ℕ)
    (time : Instant) : Prop :=
  ∃ n, afterSleeps marks firstMessageMaxDelay idleCheckTimeout n = .closed time

variable {marks : Instant → List Mark} {delay timeout : ℕ} {time : Instant}

theorem afterSleeps_succ (n : ℕ) :
    afterSleeps marks delay timeout (n + 1) =
      (afterSleeps marks delay timeout n).wake timeout (markerAt marks) :=
  Function.iterate_succ_apply' ..

/-- It is closed once. -/
theorem closed_of_le {n m : ℕ} (h : afterSleeps marks delay timeout n = .closed time)
    (hle : n ≤ m) : afterSleeps marks delay timeout m = .closed time := by
  induction m, hle using Nat.le_induction with
  | base => exact h
  | succ m _ ih =>
    rw [afterSleeps_succ, ih]
    rfl

theorem Closes.unique {time' : Instant} (h : Closes marks delay timeout time)
    (h' : Closes marks delay timeout time') : time = time' := by
  obtain ⟨n, hn⟩ := h
  obtain ⟨m, hm⟩ := h'
  have hboth := closed_of_le hn (Nat.le_max_left n m)
  rw [closed_of_le hm (Nat.le_max_right n m)] at hboth
  exact (closed.inj hboth).symm

/-- The interval before the check that follows after `k` sleeps of the loop. -/
def Stale (marks : Instant → List Mark) (delay timeout k : ℕ) : Prop :=
  NoneForwarded marks (delay + (k - 1) * timeout) (delay + k * timeout)

/-- Nothing arrives in time. -/
theorem closes_first (h : NoneAccepted marks delay) : Closes marks delay timeout delay :=
  ⟨1, if_pos ((incoming_markerAt delay).mpr h)⟩

/-- **The snapshot** is of the last point of the grid, as long as something was forwarded in every
interval. -/
theorem checking_of_forwards (haccepted : ¬ NoneAccepted marks delay) {n : ℕ}
    (h : ∀ k, 1 ≤ k → k ≤ n → ¬ Stale marks delay timeout k) :
    afterSleeps marks delay timeout (n + 1) =
      .checking (markerAt marks (delay + n * timeout)).forwarded (delay + (n + 1) * timeout) := by
  induction n with
  | zero =>
    rw [Nat.zero_mul, Nat.zero_add, Nat.one_mul]
    exact if_neg fun hzero => haccepted ((incoming_markerAt delay).mp hzero)
  | succ n ih =>
    have hforwards := h (n + 1) (Nat.le_add_left 1 n) (Nat.le_refl _)
    rw [Stale, Nat.add_sub_cancel] at hforwards
    have hle : delay + n * timeout ≤ delay + (n + 1) * timeout :=
      Nat.add_le_add_left (Nat.mul_le_mul_right _ (Nat.le_succ n)) _
    rw [afterSleeps_succ, ih fun k hk hkn => h k hk (Nat.le_succ_of_le hkn), wake,
      if_neg fun heq => hforwards ((forwarded_markerAt hle).2.mp heq), Nat.add_assoc,
      ← Nat.succ_mul]

/-- The first interval in which nothing was forwarded is the last one. -/
theorem closes_stale (haccepted : ¬ NoneAccepted marks delay) {k : ℕ} (hk : 1 ≤ k)
    (hstale : Stale marks delay timeout k)
    (hfirst : ∀ j, 1 ≤ j → j < k → ¬ Stale marks delay timeout j) :
    Closes marks delay timeout (delay + k * timeout) := by
  obtain ⟨n, rfl⟩ := Nat.exists_eq_add_of_le' hk
  rw [Stale, Nat.add_sub_cancel] at hstale
  have hle : delay + n * timeout ≤ delay + (n + 1) * timeout :=
    Nat.add_le_add_left (Nat.mul_le_mul_right _ (Nat.le_succ n)) _
  have hchecking := checking_of_forwards (n := n) haccepted
    fun j hj hjn => hfirst j hj (Nat.lt_succ_of_le hjn)
  refine ⟨n + 2, ?_⟩
  rw [afterSleeps_succ, hchecking]
  exact if_pos ((forwarded_markerAt hle).2.mpr hstale)

/-- A stale interval ends the connection, if no earlier one does. -/
theorem exists_first_stale {k : ℕ} (hk : 1 ≤ k) (hstale : Stale marks delay timeout k) :
    ∃ j, 1 ≤ j ∧ j ≤ k ∧ Stale marks delay timeout j ∧
      ∀ i, 1 ≤ i → i < j → ¬ Stale marks delay timeout i := by
  classical
  have hexists : ∃ j, 1 ≤ j ∧ Stale marks delay timeout j := ⟨k, hk, hstale⟩
  obtain ⟨hj, hfirst⟩ := Nat.find_spec hexists
  exact ⟨_, hj, Nat.find_min' hexists ⟨hk, hstale⟩, hfirst,
    fun i hi hlt hstale' => Nat.find_min hexists hlt ⟨hi, hstale'⟩⟩

/-- Where no interval is stale, the connection stays open. -/
theorem not_closes (haccepted : ¬ NoneAccepted marks delay)
    (h : ∀ k, 1 ≤ k → ¬ Stale marks delay timeout k) : ¬ Closes marks delay timeout time := by
  rintro ⟨n, hn⟩
  have hclosed := closed_of_le hn (Nat.le_succ n)
  rw [checking_of_forwards haccepted fun k hk _ => h k hk] at hclosed
  cases hclosed

/-- When a connection is found idle. -/
def IdleAt (marks : Instant → List Mark) (delay timeout : ℕ) (time : Instant) : Prop :=
  (NoneAccepted marks delay ∧ time = delay) ∨
    (¬ NoneAccepted marks delay ∧ ∃ k, 1 ≤ k ∧ Stale marks delay timeout k ∧
      (∀ j, 1 ≤ j → j < k → ¬ Stale marks delay timeout j) ∧ time = delay + k * timeout)

theorem closes_iff : Closes marks delay timeout time ↔ IdleAt marks delay timeout time := by
  constructor
  · intro hcloses
    by_cases haccepted : NoneAccepted marks delay
    · exact .inl ⟨haccepted, hcloses.unique (closes_first haccepted)⟩
    · by_cases hopen : ∀ k, 1 ≤ k → ¬ Stale marks delay timeout k
      · exact absurd hcloses (not_closes haccepted hopen)
      · push Not at hopen
        obtain ⟨k, hk, hstale⟩ := hopen
        obtain ⟨j, hj, -, hstale, hfirst⟩ := exists_first_stale hk hstale
        exact .inr ⟨haccepted, j, hj, hstale, hfirst,
          hcloses.unique (closes_stale haccepted hj hstale hfirst)⟩
  · rintro (⟨haccepted, rfl⟩ | ⟨haccepted, k, hk, hstale, hfirst, rfl⟩)
    · exact closes_first haccepted
    · exact closes_stale haccepted hk hstale hfirst

/-- An interval that begins after the last forwarded message is stale. -/
theorem exists_stale (delay timeout : ℕ) {last : ℕ}
    (hlast : ∀ t, last < t → .forwarded ∉ marks t) :
    ∃ k, 1 ≤ k ∧ Stale marks delay timeout k ∧
      delay + k * timeout ≤ last + delay + 2 * timeout := by
  rcases Nat.eq_zero_or_pos timeout with rfl | htimeout
  · -- no time passes between the checks
    exact ⟨1, Nat.le_refl 1, fun t ht ht' => absurd ht (Nat.not_lt.mpr ht'), by omega⟩
  · -- the first point of the grid that is not before `last`
    have hmul : (last / timeout + 2 - 1) * timeout = last / timeout * timeout + timeout := by
      rw [Nat.add_sub_assoc (by decide), Nat.succ_mul]
    refine ⟨last / timeout + 2, Nat.le_add_left 1 _, fun t ht _ => hlast t ?_, ?_⟩
    · have hlt := Nat.lt_div_mul_add htimeout (a := last)
      rw [hmul] at ht
      exact (hlt.trans_le (Nat.le_add_left _ delay)).trans ht
    · have hle := Nat.div_mul_le_self last timeout
      rw [Nat.add_mul]
      omega

/-- **The idle checker closes exactly the idle connections**: when nothing was accepted until
`firstMessageMaxDelay`, or else at the first point of the grid that follows an interval in which
nothing was forwarded. So it leaves a connection open that forwards something in every interval of
this length, and closes one that stops. -/
theorem closes_idle (marks : Instant → List Mark) (firstMessageMaxDelay idleCheckTimeout : ℕ) :
    (∀ time, Closes marks firstMessageMaxDelay idleCheckTimeout time ↔
      IdleAt marks firstMessageMaxDelay idleCheckTimeout time) ∧
    (¬ NoneAccepted marks firstMessageMaxDelay →
      (∀ a, firstMessageMaxDelay ≤ a → ¬ NoneForwarded marks a (a + idleCheckTimeout)) →
      ∀ time, ¬ Closes marks firstMessageMaxDelay idleCheckTimeout time) ∧
    ∀ last : ℕ, .forwarded ∈ marks last → (∀ t, last < t → .forwarded ∉ marks t) →
      ∃ time : ℕ, Closes marks firstMessageMaxDelay idleCheckTimeout time ∧
        time ≤ last + firstMessageMaxDelay + 2 * idleCheckTimeout := by
  refine ⟨fun time => closes_iff, fun haccepted hforwards time => ?_, fun last _ hlast => ?_⟩
  · refine not_closes haccepted fun k hk => ?_
    have hinterval := hforwards (firstMessageMaxDelay + (k - 1) * idleCheckTimeout)
      (Nat.le_add_right _ _)
    rwa [Nat.add_assoc, ← Nat.succ_mul, Nat.succ_eq_add_one, Nat.sub_add_cancel hk] at hinterval
  · by_cases haccepted : NoneAccepted marks firstMessageMaxDelay
    · exact ⟨firstMessageMaxDelay, closes_first haccepted, by omega⟩
    · obtain ⟨k, hk, hstale, hbound⟩ :=
        exists_stale firstMessageMaxDelay idleCheckTimeout hlast
      obtain ⟨j, hj, hjk, hstale, hfirst⟩ := exists_first_stale hk hstale
      have hle := Nat.add_le_add_left (Nat.mul_le_mul_right idleCheckTimeout hjk)
        firstMessageMaxDelay
      exact ⟨_, closes_stale haccepted hj hstale hfirst, hle.trans hbound⟩

end IdleChecker

end Vamp
