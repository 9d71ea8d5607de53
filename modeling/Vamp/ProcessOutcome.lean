import Vamp.RoutingInvariant

/-!
# What `process` returns, and what has happened by then

`MsgProcessor::process` runs in segments; `processReturns` says at which events it
returns and with what. Two promises are measured against it, over whole runs:

* a message that `process` accepts registers its connection. It does so exactly when
  the connection has reached the connection table before the message takes the lock:
  `listen_task` is spawned before `record_connection`.
* a message that cannot be forwarded is skipped. It is, unless the lookup has found a
  queue that refuses the message by the time of `try_send`: that error is propagated, and
  ends the sender.
-/

namespace Vamp

variable {V : Type}

namespace Server

/-- What `process` returns at an event, if it returns there. -/
def processReturns (cfg : ServerConfig) (fromStr : String → Option (WireMsg V)) (s : Server) :
    ServerEvent → Option (MyRes Unit)
  | .task c (.receive now message) =>
    match s.conn c with
    | some k =>
      if k.listen = .awaiting ∧ message.isClose = false then
        match k.processor.beforeLock fromStr s.metrics now message with
        | (_, _, .returned res) => some res
        | (_, _, .admitted _) => none
      else none
    | none => none
  | .lookup c =>
    match s.conn c with
    | some k =>
      match k.listen with
      | .locking _ parsed =>
        match (s.state.recordRtrAndGetForwardingQueue parsed.rttTag c parsed.hasPayload).2 with
        | .error _ => some (.ok ())
        | .ok _ => none
      | _ => none
    | none => none
  | .forward c =>
    match s.conn c with
    | some k =>
      match k.listen with
      | .forwarding message parsed dst =>
        match s.conn dst.sendSpscQPutter with
        | some kd =>
          match kd.trySend cfg.sendBufferLimit message with
          | some _ => some (.ok ())
          | none =>
            some (.error (buildErr parsed.rttTag c "failed to send message to destination"))
        | none => none
      | _ => none
    | none => none
  | _ => none

/-- `process` is at work on an admitted message of `c`. -/
def Processing (s : Server) (c : ConnectionId) (message : Message) (parsed : ParsedMessage) :
    Prop :=
  ∃ k, s.conn c = some k ∧ k.InProcess message parsed

section

variable {cfg : ServerConfig} {fromStr : String → Option (WireMsg V)} {s s' : Server}
  {c : ConnectionId} {k : Connection} {message : Message} {parsed : ParsedMessage}

/-- Only a message, a lookup and an enqueue end `process`. -/
theorem processReturns_cases {e : ServerEvent} {res : MyRes Unit}
    (h : s.processReturns cfg fromStr e = some res) :
    (∃ c now message, e = .task c (.receive now message)) ∨ (∃ c, e = .lookup c) ∨
      ∃ c, e = .forward c := by
  cases e with
  | accept => cases h
  | «open» _ _ => cases h
  | record _ => cases h
  | remove _ => cases h
  | task c e =>
    cases e with
    | receive now message => exact Or.inl ⟨c, now, message, rfl⟩
    | _ => cases h
  | lookup c => exact Or.inr (Or.inl ⟨c, rfl⟩)
  | forward c => exact Or.inr (Or.inr ⟨c, rfl⟩)

theorem processReturns_lookup (hk : s.conn c = some k) (hl : k.listen = .locking message parsed) :
    s.processReturns cfg fromStr (.lookup c) =
      match (s.state.recordRtrAndGetForwardingQueue parsed.rttTag c parsed.hasPayload).2 with
      | .error _ => some (.ok ())
      | .ok _ => none := by
  simp only [processReturns, hk, hl]

theorem processReturns_forward {dst : ConnectionHandler} {kd : Connection}
    (hk : s.conn c = some k) (hl : k.listen = .forwarding message parsed dst)
    (hkd : s.conn dst.sendSpscQPutter = some kd) :
    s.processReturns cfg fromStr (.forward c) =
      if kd.Accepts cfg.sendBufferLimit then some (.ok ())
      else some (.error (buildErr parsed.rttTag c "failed to send message to destination")) := by
  simp only [processReturns, hk, hl, hkd]
  by_cases hacc : kd.Accepts cfg.sendBufferLimit
  · rw [if_pos hacc, Connection.trySend_eq_some.mpr ⟨hacc, rfl⟩]
  · rw [if_neg hacc, Connection.trySend_eq_none.mpr hacc]

/-- `listen_task` does not receive while `process` runs. -/
theorem processReturns_busy {now : Instant} {m : Message} (hk : s.conn c = some k)
    (hl : k.InProcess message parsed) :
    s.processReturns cfg fromStr (.task c (.receive now m)) = none := by
  simp only [processReturns, hk]
  rw [if_neg fun h => Connection.not_inProcess (Or.inl h.1) hl]

/-- An admissible message is not refused before the lock. -/
theorem processReturns_receive {now : Instant} (hk : s.conn c = some k)
    (hadm : k.processor.Admissible fromStr now message parsed) :
    s.processReturns cfg fromStr (.task c (.receive now message)) = none := by
  simp only [processReturns, hk]
  rcases MsgProcessor.beforeLock_cases fromStr k.processor s.metrics now message with
    ⟨p', metrics', res, -, -, -, hnot⟩ | ⟨p', metrics', parsed', h, -⟩
  · exact absurd hadm (hnot parsed)
  · by_cases hidle : k.listen = .awaiting ∧ message.isClose = false
    · rw [if_pos hidle, h]
    · rw [if_neg hidle]

end

/-! ## Registration -/

/-- A step keeps the promise to register: if `process` returns `Ok` there for an admitted
message and the room of its tag had a seat, the connection sits there afterwards. -/
def RegistrationKept (cfg : ServerConfig) (fromStr : String → Option (WireMsg V)) (s : Server)
    (e : ServerEvent) : Prop :=
  ∀ c message parsed s', e.owner = some c → s.Processing c message parsed →
    s.processReturns cfg fromStr e = some (.ok ()) →
    (s.state.room parsed.rttTag).HasSeat c → step cfg fromStr s e = some s' →
    s'.state.Seated parsed.rttTag c

/-- A message that takes the lock with a seat in sight finds its connection in the
connection table: `record_connection` has run. -/
def LocksRecorded (s : Server) (e : ServerEvent) : Prop :=
  ∀ c k message parsed, e = .lookup c → s.conn c = some k → k.listen = .locking message parsed →
    (s.state.room parsed.rttTag).HasSeat c → c ∈ s.state.ct

section

variable {cfg : ServerConfig} {fromStr : String → Option (WireMsg V)} {s s' : Server}
  {c : ConnectionId}

/-- **The lookup seats exactly the recorded.** With a seat in sight, the connection sits
in the room after the lookup if and only if it was in the connection table before. -/
theorem Inv.seated_after_lookup (hI : s.Inv) {t : RoutingTag} {hp : Bool}
    (hseat : (s.state.room t).HasSeat c) :
    (s.state.recordRtrAndGetForwardingQueue t c hp).1.Seated t c ↔ c ∈ s.state.ct := by
  have hseated : ∀ r, (s.state.room t).seat c = some r → (s.state.setRoom t r).Seated t c := by
    intro r hr
    rw [ServerState.Seated, ServerState.room_setRoom, if_pos rfl]
    exact RoutingRecord.seat_mem hr
  rcases hI.recordRtr_cases t c hp with
    ⟨hc, h⟩ | ⟨-, hfull, -⟩ | ⟨hc, r, hr, ⟨msg, h⟩ | ⟨-, d, -, -, -, h⟩⟩
  · rw [h]
    exact ⟨hI.seated_mem_ct, fun h => absurd h hc⟩
  · exact absurd hseat hfull
  · rw [h]
    exact ⟨fun _ => hc, fun _ => hseated r hr⟩
  · rw [h]
    exact ⟨fun _ => hc, fun _ => hseated r hr⟩

/-- One step: the promise to register and its condition are the same thing. -/
theorem Inv.registrationKept_iff (hI : s.Inv) {e : ServerEvent}
    (hstep : step cfg fromStr s e = some s') :
    RegistrationKept cfg fromStr s e ↔ LocksRecorded s e := by
  constructor
  · rintro hkept c k message parsed rfl hk hl hseat
    obtain ⟨k', message', parsed', hk', hl', rfl⟩ := step_lookup hstep
    obtain rfl : k = k' := Option.some.inj (hk.symm.trans hk')
    obtain ⟨rfl, rfl⟩ : message = message' ∧ parsed = parsed' := by
      rw [hl, ListenTask.locking.injEq] at hl'
      exact hl'
    by_contra hc
    -- the lookup fails, so `process` returns `Ok`
    have hret : s.processReturns cfg fromStr (.lookup c) = some (.ok ()) := by
      rw [processReturns_lookup hk hl, ServerState.recordRtrAndGetForwardingQueue, if_pos hc]
    have hseated := hkept c message parsed _ rfl ⟨k, hk, Or.inl hl⟩ hret hseat hstep
    exact hc ((hI.seated_after_lookup hseat).mp hseated)
  · rintro hrec c message parsed s₂ howner ⟨k, hk, hl⟩ hret hseat hstep₂
    obtain rfl : s' = s₂ := Option.some.inj (hstep.symm.trans hstep₂)
    rcases processReturns_cases hret with ⟨d, now, m, rfl⟩ | ⟨d, rfl⟩ | ⟨d, rfl⟩
    · obtain rfl : d = c := Option.some.inj howner
      rw [processReturns_busy hk hl] at hret
      cases hret
    · obtain rfl : d = c := Option.some.inj howner
      obtain ⟨k', message', parsed', hk', hl', rfl⟩ := step_lookup hstep
      obtain rfl : k = k' := Option.some.inj (hk.symm.trans hk')
      rcases hl with hl | ⟨dst, hl⟩
      · obtain ⟨rfl, rfl⟩ : message = message' ∧ parsed = parsed' := by
          rw [hl, ListenTask.locking.injEq] at hl'
          exact hl'
        exact (hI.seated_after_lookup hseat).mpr (hrec d k message parsed rfl hk hl hseat)
      · rw [hl] at hl'
        cases hl'
    · obtain rfl : d = c := Option.some.inj howner
      obtain ⟨k', message', parsed', dst, kd, hk', hl', -, h⟩ := step_forward hstep
      obtain rfl : k = k' := Option.some.inj (hk.symm.trans hk')
      rcases hl with hl | ⟨dst', hl⟩
      · rw [hl] at hl'
        cases hl'
      · -- the lookup has seated the connection, and nobody else unseats it
        have hsource := (hI.forwarding d k message parsed dst' hk hl).source
        rcases h with ⟨-, rfl⟩ | ⟨-, rfl⟩
        · exact hsource
        · exact hsource

/-- **When no accepted registration is lost.** Along a run every accepted registration
takes its seat if and only if every message that takes the lock with a seat in sight does
so after its connection's `record_connection`. -/
theorem registrations_kept_iff {es : List ServerEvent}
    (hrun : (signallingServer cfg fromStr).run .init es = some s) :
    (signallingServer cfg fromStr).Along (RegistrationKept cfg fromStr) .init es ↔
      (signallingServer cfg fromStr).Along LocksRecorded .init es := by
  refine StateMachine.along_congr .init hrun ?_
  intro s₁ e s₂ hs₁ hstep
  exact (reachable_inv hs₁).registrationKept_iff hstep

/-- Registrations are kept when two connections meet, if the condition holds there. -/
theorem registrations_kept_iff_twoMeet :
    (signallingServer {} tagOnly).Along (RegistrationKept {} tagOnly) .init twoMeet ↔
      (signallingServer {} tagOnly).Along LocksRecorded .init twoMeet :=
  registrations_kept_iff run_twoMeet

/-- A client that registers at once, faster than `record_connection`; its frame is
waiting for the lock. -/
def hastyRegistration : List ServerEvent :=
  [.accept, .open 0 0, .task 0 (.receive 1 (.text "r"))]

/-- The promise to register is not kept in every run: the frame of `hastyRegistration` is
accepted and swallowed, with both seats of the room free. -/
theorem registration_lost :
    ¬ ∀ (cfg : ServerConfig) (fromStr : String → Option (WireMsg Unit)) (es : List ServerEvent)
        (s : Server), (signallingServer cfg fromStr).run .init es = some s →
      (signallingServer cfg fromStr).Along (RegistrationKept cfg fromStr) .init es := by
  intro hall
  let M := signallingServer {} tagOnly
  let s₁ := (M.run .init hastyRegistration).get rfl
  let s₂ := (M.step s₁ (.lookup 0)).get rfl
  have hrun : M.run .init hastyRegistration = some s₁ := (Option.some_get _).symm
  have hstep : M.step s₁ (.lookup 0) = some s₂ := (Option.some_get _).symm
  have hkept : RegistrationKept {} tagOnly s₁ (.lookup 0) :=
    (hall {} tagOnly _ s₂ (StateMachine.run_concat_eq_some.mpr ⟨s₁, hrun, hstep⟩)).last hrun
  have hseated : s₂.state.Seated "r" 0 := by
    refine hkept 0 (.text "r") ⟨"r", true⟩ s₂ rfl ?_ rfl ?_ hstep
    · exact ⟨(s₁.conn 0).get rfl, (Option.some_get _).symm, Or.inl rfl⟩
    · exact Or.inl (by decide)
  exact absurd hseated (by decide)

/-! ## Undeliverable messages -/

/-- The event lets an admissible message return: it is received, or `process` is at work
on it. -/
def HandlesAdmissible (fromStr : String → Option (WireMsg V)) (s : Server) (e : ServerEvent)
    (c : ConnectionId) : Prop :=
  e.owner = some c ∧
    ((∃ message parsed, s.Processing c message parsed) ∨
      ∃ k now message parsed, e = .task c (.receive now message) ∧ s.conn c = some k ∧
        k.processor.Admissible fromStr now message parsed)

/-- A step keeps its sender: whatever `process` returns there for an admissible message is
`Ok`, and `listen_task` waits for the next one. -/
def SenderKept (cfg : ServerConfig) (fromStr : String → Option (WireMsg V)) (s : Server)
    (e : ServerEvent) : Prop :=
  ∀ c res s', s.HandlesAdmissible fromStr e c → s.processReturns cfg fromStr e = some res →
    step cfg fromStr s e = some s' →
    res = .ok () ∧ ∃ k, s'.conn c = some k ∧ k.listen = .awaiting

/-- An enqueue finds a queue that takes the message: its receiver is there, and it is not
full. -/
def QueueAccepts (cfg : ServerConfig) (s : Server) (e : ServerEvent) : Prop :=
  ∀ c k message parsed dst kd, e = .forward c → s.conn c = some k →
    k.listen = .forwarding message parsed dst → s.conn dst.sendSpscQPutter = some kd →
    kd.Accepts cfg.sendBufferLimit

/-- One step: keeping the sender and finding a queue that accepts are the same thing. -/
theorem senderKept_iff {e : ServerEvent} (hstep : step cfg fromStr s e = some s') :
    SenderKept cfg fromStr s e ↔ QueueAccepts cfg s e := by
  constructor
  · rintro hkept c k message parsed dst kd rfl hk hl hkd
    by_contra hacc
    have hret : s.processReturns cfg fromStr (.forward c) = _ := processReturns_forward hk hl hkd
    rw [if_neg hacc] at hret
    obtain ⟨hok, -⟩ := hkept c _ s' ⟨rfl, Or.inl ⟨message, parsed, k, hk, Or.inr ⟨dst, hl⟩⟩⟩ hret
      hstep
    cases hok
  · rintro hacc c res s₂ ⟨howner, hwork⟩ hret hstep₂
    obtain rfl : s' = s₂ := Option.some.inj (hstep.symm.trans hstep₂)
    rcases processReturns_cases hret with ⟨d, now, m, rfl⟩ | ⟨d, rfl⟩ | ⟨d, rfl⟩
    · obtain rfl : d = c := Option.some.inj howner
      rcases hwork with ⟨message, parsed, k, hk, hl⟩ | ⟨k, now, message, parsed, he, hk, hadm⟩
      · rw [processReturns_busy hk hl] at hret
        cases hret
      · cases he
        rw [processReturns_receive hk hadm] at hret
        cases hret
    · obtain rfl : d = c := Option.some.inj howner
      obtain ⟨k, message, parsed, hk, hl, rfl⟩ := step_lookup hstep
      rw [processReturns_lookup hk hl] at hret
      cases hres : (s.state.recordRtrAndGetForwardingQueue parsed.rttTag d
          parsed.hasPayload).2 with
      | ok dst =>
        rw [hres] at hret
        cases hret
      | error err =>
        rw [hres] at hret
        cases hret
        exact ⟨rfl, _, conn_setConn_self .., rfl⟩
    · obtain rfl : d = c := Option.some.inj howner
      rcases step_forward hstep with
        ⟨k, message, parsed, dst, kd, hk, hl, hkd, ⟨hok, rfl⟩ | ⟨hno, -⟩⟩
      · rw [processReturns_forward hk hl hkd, if_pos hok] at hret
        cases hret
        exact ⟨rfl, _, conn_setConn_self .., rfl⟩
      · exact absurd (hacc d k message parsed dst kd rfl hk hl hkd) hno

/-- **When an undeliverable message leaves its sender alone.** Along a run `process`
returns `Ok` for every admissible message if and only if every enqueue finds a queue that
takes the message. -/
theorem senders_kept_iff {es : List ServerEvent}
    (hrun : (signallingServer cfg fromStr).run .init es = some s) :
    (signallingServer cfg fromStr).Along (SenderKept cfg fromStr) .init es ↔
      (signallingServer cfg fromStr).Along (QueueAccepts cfg) .init es := by
  refine StateMachine.along_congr .init hrun ?_
  intro s₁ e s₂ _ hstep
  exact senderKept_iff hstep

theorem senders_kept_iff_twoMeet :
    (signallingServer {} tagOnly).Along (SenderKept {} tagOnly) .init twoMeet ↔
      (signallingServer {} tagOnly).Along (QueueAccepts {}) .init twoMeet :=
  senders_kept_iff run_twoMeet

/-- Connection 1 is being torn down: its queue is closed, its records are still there.
Connection 0 has just looked it up. -/
def peerHalfGone : List ServerEvent :=
  twoMeet ++ [.task 1 .ingressEnd, .task 1 .egressCancelled, .task 1 .egressClosed,
    .task 0 (.receive 3 (.text "r")), .lookup 0]

/-- The sender is not kept in every run: after `peerHalfGone`, `try_send` fails, and
`process` passes the error on. -/
theorem sender_ended :
    ¬ ∀ (cfg : ServerConfig) (fromStr : String → Option (WireMsg Unit)) (es : List ServerEvent)
        (s : Server), (signallingServer cfg fromStr).run .init es = some s →
      (signallingServer cfg fromStr).Along (SenderKept cfg fromStr) .init es := by
  intro hall
  let M := signallingServer {} tagOnly
  let s₁ := (M.run .init peerHalfGone).get rfl
  let s₂ := (M.step s₁ (.forward 0)).get rfl
  have hrun : M.run .init peerHalfGone = some s₁ := (Option.some_get _).symm
  have hstep : M.step s₁ (.forward 0) = some s₂ := (Option.some_get _).symm
  have hkept : SenderKept {} tagOnly s₁ (.forward 0) :=
    (hall {} tagOnly _ s₂ (StateMachine.run_concat_eq_some.mpr ⟨s₁, hrun, hstep⟩)).last hrun
  have hwork : s₁.HandlesAdmissible tagOnly (.forward 0) 0 := by
    refine ⟨rfl, Or.inl ⟨.text "r", ⟨"r", true⟩, (s₁.conn 0).get rfl, ?_, Or.inr ⟨⟨1⟩, rfl⟩⟩⟩
    exact (Option.some_get _).symm
  obtain ⟨hok, -⟩ := hkept 0 (.error (buildErr "r" 0 "failed to send message to destination")) s₂
    hwork rfl hstep
  cases hok

end

end Server

end Vamp
