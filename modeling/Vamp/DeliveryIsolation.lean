import Vamp.RoutingInvariant

/-!
# Deliveries stay in the room

Everything that is ever placed in an egress queue, over whole runs: which message it is,
who sent it, where source and destination sat when the routing table was asked.

Messages are told apart by their number among the messages accepted from their
connection, which is what `increment_incoming` counts. `History` ties the state of the
tasks and queues to the two records of a run, the accepted messages and the placements;
it holds of every run, and the isolation of deliveries is read off it.
-/

namespace Vamp

variable {V : Type}

namespace Server

/-! ## The records of a run -/

/-- The message that an event makes `process` accept, and its connection: `listen_task`
goes to the lock with it. -/
def acceptance (fromStr : String → Option (WireMsg V)) (s : Server) :
    ServerEvent → Option (ConnectionId × Message)
  | .task c (.receive now message) =>
    match s.conn c with
    | some k =>
      if k.listen = .awaiting then
        match (k.receive fromStr s.metrics now message).1.listen with
        | .locking message _ => some (c, message)
        | _ => none
      else none
    | none => none
  | _ => none

/-- The messages accepted from `c` in a run, oldest first. -/
def acceptedFrom (cfg : ServerConfig) (fromStr : String → Option (WireMsg V))
    (es : List ServerEvent) (c : ConnectionId) : List Message :=
  (signallingServer cfg fromStr).trace
    (fun s e => ((s.acceptance fromStr e).filter fun p => p.1 = c).toList.map Prod.snd) .init es

/-- The messages placed in a run, oldest first. -/
def placements (cfg : ServerConfig) (fromStr : String → Option (WireMsg V))
    (es : List ServerEvent) : List Placement :=
  (signallingServer cfg fromStr).trace (fun s e => (s.placement cfg e).toList) .init es

/-- The routing table was asked for message number `n` of `c`, which parses as `parsed`,
and answered `dst`: both sat in the room of the message's tag, branded with it. -/
def LookedUp (cfg : ServerConfig) (fromStr : String → Option (WireMsg V)) (es : List ServerEvent)
    (c : ConnectionId) (n : ℕ) (message : Message) (parsed : ParsedMessage) (dst : ConnectionId) :
    Prop :=
  ∃ pre post s₁ s₂ k₁, es = pre ++ .lookup c :: post ∧
    (signallingServer cfg fromStr).run .init pre = some s₁ ∧
    step cfg fromStr s₁ (.lookup c) = some s₂ ∧
    s₁.conn c = some k₁ ∧ k₁.listen = .locking message parsed ∧
    k₁.processor.nonIdleMarker.incoming = n ∧ parsed.hasPayload = true ∧ dst ≠ c ∧
    ∀ d, d = c ∨ d = dst → s₂.state.Seated parsed.rttTag d ∧
      ∃ k, s₂.conn d = some k ∧ k.tag = some parsed.rttTag

variable {cfg : ServerConfig} {fromStr : String → Option (WireMsg V)} {s s' : Server}
  {e : ServerEvent} {es : List ServerEvent} {c d : ConnectionId}

theorem LookedUp.concat {n : ℕ} {message : Message} {parsed : ParsedMessage}
    (h : LookedUp cfg fromStr es c n message parsed d) (e : ServerEvent) :
    LookedUp cfg fromStr (es ++ [e]) c n message parsed d := by
  obtain ⟨pre, post, s₁, s₂, k₁, rfl, h⟩ := h
  exact ⟨pre, post ++ [e], s₁, s₂, k₁, by simp, h⟩

/-! ## What a step does to a connection's messages -/

/-- What becomes of a connection's numbering and of its `listen_task` in a step. -/
inductive Progress (cfg : ServerConfig) (fromStr : String → Option (WireMsg V)) (s : Server)
    (e : ServerEvent) (c : ConnectionId) (k k' : Connection) : Prop where
  /-- a message is accepted, and counted -/
  | accepted (message : Message) (parsed : ParsedMessage)
      (acceptance : s.acceptance fromStr e = some (c, message))
      (listen : k'.listen = .locking message parsed)
      (parse : parseIncoming fromStr message = .ok parsed)
      (incoming : k'.processor.nonIdleMarker.incoming = k.processor.nonIdleMarker.incoming + 1)
  /-- the routing table has answered -/
  | lookedUp (message : Message) (parsed : ParsedMessage) (dst : ConnectionHandler)
      (event : e = .lookup c) (before : k.listen = .locking message parsed)
      (listen : k'.listen = .forwarding message parsed dst)
      (incoming : k'.processor.nonIdleMarker.incoming = k.processor.nonIdleMarker.incoming)
  /-- nothing is accepted, and `listen_task` stays where it is or has no message -/
  | other (acceptance : ∀ message, s.acceptance fromStr e ≠ some (c, message))
      (listen : k'.listen = k.listen ∨ k'.listen = .awaiting ∨ k'.listen = .finished)
      (incoming : k'.processor.nonIdleMarker.incoming = k.processor.nonIdleMarker.incoming)

theorem acceptance_owner {message : Message} (h : s.acceptance fromStr e = some (c, message)) :
    e.owner = some c := by
  cases e with
  | task d e =>
    cases e with
    | receive now m =>
      simp only [acceptance] at h
      split at h
      · split at h
        · split at h
          · obtain ⟨rfl, -⟩ := Prod.mk.inj (Option.some.inj h)
            rfl
          · cases h
        · cases h
      · cases h
    | _ => cases h
  | _ => cases h

theorem acceptance_isSome_conn {message : Message}
    (h : s.acceptance fromStr e = some (c, message)) : ∃ k, s.conn c = some k := by
  cases e with
  | task d e =>
    cases e with
    | receive now m =>
      obtain rfl : d = c := Option.some.inj (acceptance_owner h)
      cases hk : s.conn d with
      | none => simp [acceptance, hk] at h
      | some k => exact ⟨k, rfl⟩
    | _ => cases h
  | _ => cases h

/-- A task's step, seen from the numbering. -/
theorem progress_task {e : TaskEvent} {k k' : Connection} {metrics : ServerMetrics}
    (hk : s.conn c = some k) (hstep : k.step fromStr s.metrics e = some (k', metrics)) :
    Progress cfg fromStr s (.task c e) c k k' := by
  rcases Connection.step_cases hstep with
    ⟨-, ⟨now, message, parsed, rfl, hawait, hl, hadm, -, hmark⟩ | ⟨hl, -, hmark⟩⟩
  · refine .accepted message parsed ?_ hl hadm.wellFormed ?_
    · simp only [Connection.step, if_pos hawait, Option.some.injEq] at hstep
      simp only [acceptance, hk, if_pos hawait, hstep, hl]
    · rw [hmark]
      rfl
  · refine .other ?_ (hl.imp_right fun h => Or.inr h.2) (by rw [hmark])
    intro message hacc
    cases e with
    | receive now m =>
      by_cases hawait : k.listen = .awaiting
      · simp only [Connection.step, if_pos hawait, Option.some.injEq] at hstep
        simp only [acceptance, hk, if_pos hawait, hstep] at hacc
        rcases hl with hl | ⟨-, hl⟩
        · rw [hl, hawait] at hacc
          cases hacc
        · rw [hl] at hacc
          cases hacc
      · simp only [acceptance, hk, if_neg hawait] at hacc
        cases hacc
    | _ => cases hacc

/-- A step that touches another connection, or none of the fields at stake. -/
theorem progress_other {k k' : Connection} (hne : ∀ e', e ≠ .task c e')
    (hl : k'.listen = k.listen ∨ k'.listen = .awaiting ∨ k'.listen = .finished)
    (hmark : k'.processor.nonIdleMarker.incoming = k.processor.nonIdleMarker.incoming) :
    Progress cfg fromStr s e c k k' := by
  refine .other ?_ hl hmark
  intro message hacc
  cases e with
  | task d e =>
    obtain rfl : d = c := Option.some.inj (acceptance_owner hacc)
    exact hne e rfl
  | _ => cases hacc

/-- The messages that an event places in the queue of `c`: one, or none. -/
def arrivals (cfg : ServerConfig) (s : Server) (e : ServerEvent) (c : ConnectionId) :
    List Message :=
  ((s.placement cfg e).filter fun p => p.dst = c).toList.map Placement.message

theorem arrivals_eq_nil (h : ∀ p, s.placement cfg e = some p → p.dst ≠ c) :
    s.arrivals cfg e c = [] := by
  cases hp : s.placement cfg e with
  | none => rw [arrivals, hp]; rfl
  | some p =>
    have hne : decide (p.dst = c) = false := decide_eq_false (h p hp)
    simp only [arrivals, hp, Option.filter_some, hne, Bool.false_eq_true, if_false,
      Option.toList_none, List.map_nil]

theorem arrivals_eq_singleton {p : Placement} (h : s.placement cfg e = some p) :
    s.arrivals cfg e p.dst = [p.message] := by
  simp [arrivals, h, Option.filter_some]

/-- What becomes of a connection in a step from `s` to `s'`: its progress with its messages,
and its queue. -/
def Advances (cfg : ServerConfig) (fromStr : String → Option (WireMsg V)) (s : Server)
    (e : ServerEvent) (s' : Server) (c : ConnectionId) (k : Connection) : Prop :=
  ∃ k', s'.conn c = some k' ∧ Progress cfg fromStr s e c k k' ∧
    k'.queue <:+ k.queue ++ s.arrivals cfg e c

/-- A step that leaves the connection alone. -/
theorem advances_same {k : Connection} (hne : ∀ e', e ≠ .task c e')
    (harr : s.arrivals cfg e c = []) (hk : s'.conn c = some k) :
    Advances cfg fromStr s e s' c k :=
  ⟨k, hk, progress_other hne (Or.inl rfl) rfl, by rw [harr, List.append_nil]⟩

/-- A step that replaces one connection, and places nothing in any queue. -/
theorem advances_replaced {k k₀ k₁ : Connection} (hk : s.conn c = some k)
    (hk₀ : s.conn d = some k₀) (hconn : s'.conn = (s.setConn d k₁).conn)
    (htask : ∀ e', e = .task c e' → c = d) (harr : s.arrivals cfg e c = [])
    (hprogress : Progress cfg fromStr s e d k₀ k₁) (hqueue : k₁.queue <:+ k₀.queue) :
    Advances cfg fromStr s e s' c k := by
  by_cases hc : c = d
  · subst hc
    obtain rfl : k = k₀ := Option.some.inj (hk.symm.trans hk₀)
    refine ⟨k₁, ?_, hprogress, ?_⟩
    · rw [hconn, conn_setConn_self]
    · rw [harr, List.append_nil]
      exact hqueue
  · refine advances_same (fun e' he => hc (htask e' he)) harr ?_
    rw [hconn, conn_setConn_ne _ _ hc, hk]

/-- A message is placed: its sender goes on, and its destination has it in the queue. -/
theorem Inv.advances_forward (hI : s.Inv) {k kc kd : Connection} {message : Message}
    {parsed : ParsedMessage} {dst : ConnectionHandler} (hk : s.conn c = some k)
    (hkc : s.conn d = some kc) (hl : kc.listen = .forwarding message parsed dst)
    (hkd : s.conn dst.sendSpscQPutter = some kd) (hacc : kd.Accepts cfg.sendBufferLimit)
    (hconn : s'.conn = ((s.setConn dst.sendSpscQPutter
      { kd with queue := kd.queue ++ [message] }).setConn d (afterForward kc)).conn) :
    Advances cfg fromStr s (.forward d) s' c k := by
  have hne := (hI.forwarding d kc message parsed dst hkc hl).ne
  have hp : s.placement cfg (.forward d) = _ := placement_forward hkc hl hkd
  rw [if_pos hacc] at hp
  have harr : c ≠ dst.sendSpscQPutter → s.arrivals cfg (.forward d) c = [] := by
    intro hc
    refine arrivals_eq_nil fun p hp' => ?_
    obtain rfl := Option.some.inj (hp.symm.trans hp')
    exact Ne.symm hc
  by_cases hc : c = d
  · -- the sender
    subst hc
    obtain rfl : k = kc := Option.some.inj (hk.symm.trans hkc)
    refine ⟨afterForward k, ?_, progress_other (by simp) (Or.inr (Or.inl rfl)) rfl, ?_⟩
    · rw [hconn, conn_setConn_self]
    · rw [harr (Ne.symm hne), List.append_nil]
      exact List.suffix_rfl
  by_cases hc' : c = dst.sendSpscQPutter
  · -- the destination
    subst hc'
    obtain rfl : k = kd := Option.some.inj (hk.symm.trans hkd)
    refine ⟨{ k with queue := k.queue ++ [message] }, ?_,
      progress_other (by simp) (Or.inl rfl) rfl, ?_⟩
    · rw [hconn, conn_setConn_ne _ _ hc, conn_setConn_self]
    · have harr' := arrivals_eq_singleton hp
      simp only at harr'
      rw [harr']
  · refine advances_same (by simp) (harr hc') ?_
    rw [hconn, conn_setConn_ne _ _ hc, conn_setConn_ne s _ hc', hk]

/-- **What a step does to a connection**: its progress with its messages, and what
becomes of its queue. -/
theorem Inv.step_progress (hI : s.Inv) (h : step cfg fromStr s e = some s') {k : Connection}
    (hk : s.conn c = some k) : Advances cfg fromStr s e s' c k := by
  cases e with
  | accept =>
    obtain rfl := Option.some.inj h
    exact advances_same (by simp) rfl hk
  | «open» d now =>
    obtain ⟨hnone, rfl⟩ := step_open h
    have hc : c ≠ d := by
      rintro rfl
      exact absurd (hnone.symm.trans hk) (by simp)
    exact advances_same (by simp) rfl ((conn_setConn_ne s _ hc).trans hk)
  | record d =>
    obtain ⟨k₀, hk₀, -, rfl⟩ := step_record h
    exact advances_replaced hk hk₀ rfl (by simp) rfl (progress_other (by simp) (Or.inl rfl) rfl)
      List.suffix_rfl
  | task d e =>
    obtain ⟨k₀, k₁, metrics, hk₀, hstep, rfl⟩ := step_task h
    refine advances_replaced hk hk₀ rfl ?_ rfl (progress_task hk₀ hstep)
      (Connection.step_queue hstep)
    intro e' he
    obtain ⟨rfl, -⟩ := ServerEvent.task.inj he
    rfl
  | lookup d =>
    obtain ⟨k₀, message, parsed, hk₀, hl, rfl⟩ := step_lookup h
    refine advances_replaced hk hk₀ rfl (by simp) rfl ?_ ?_
    · cases (s.state.recordRtrAndGetForwardingQueue parsed.rttTag d parsed.hasPayload).2 with
      | error err => exact progress_other (by simp) (Or.inr (Or.inl rfl)) rfl
      | ok dst => exact .lookedUp message parsed dst rfl hl rfl rfl
    · cases (s.state.recordRtrAndGetForwardingQueue parsed.rttTag d parsed.hasPayload).2 with
      | error err => exact List.suffix_rfl
      | ok dst => exact List.suffix_rfl
  | forward d =>
    rcases step_forward h with
      ⟨k₀, message, parsed, dst, kd, hk₀, hl, hkd, ⟨hacc, rfl⟩ | ⟨hacc, rfl⟩⟩
    · exact hI.advances_forward hk hk₀ hl hkd hacc rfl
    · have harr : s.arrivals cfg (.forward d) c = [] := by
        refine arrivals_eq_nil fun p hp => ?_
        rw [placement_forward hk₀ hl hkd, if_neg hacc] at hp
        cases hp
      exact advances_replaced hk hk₀ rfl (by simp) harr
        (progress_other (by simp) (Or.inr (Or.inr rfl)) rfl) List.suffix_rfl
  | remove d =>
    obtain ⟨k₀, hk₀, -, -, rfl⟩ := step_remove h
    exact advances_replaced hk hk₀ rfl (by simp) rfl (progress_other (by simp) (Or.inl rfl) rfl)
      List.suffix_rfl

/-- A connection after the step is new, or has made progress. -/
theorem Inv.conn_cases (hI : s.Inv) (hstep : step cfg fromStr s e = some s') {k' : Connection}
    (hk' : s'.conn c = some k') :
    (s.conn c = none ∧ (∀ message, s.acceptance fromStr e ≠ some (c, message)) ∧
      k'.listen = .awaiting ∧ k'.processor.nonIdleMarker.incoming = 0 ∧ k'.queue = []) ∨
    ∃ k, s.conn c = some k ∧ Progress cfg fromStr s e c k k' ∧
      k'.queue <:+ k.queue ++ s.arrivals cfg e c := by
  cases hk : s.conn c with
  | none =>
    obtain ⟨now, rfl, rfl⟩ := step_fresh hstep hk hk'
    refine Or.inl ⟨rfl, ?_, rfl, rfl, rfl⟩
    intro message hacc
    cases hacc
  | some k =>
    obtain ⟨k₁, hk₁, hprogress⟩ := hI.step_progress hstep hk
    obtain rfl : k₁ = k' := Option.some.inj (hk₁.symm.trans hk')
    exact Or.inr ⟨k, rfl, hprogress⟩

/-! ## The history of a run -/

/-- What the records of a run say about the state it ends in. -/
structure History (cfg : ServerConfig) (fromStr : String → Option (WireMsg V))
    (es : List ServerEvent) (s : Server) : Prop where
  /-- nothing is accepted from a connection that has not opened -/
  unopened : ∀ c, s.conn c = none → acceptedFrom cfg fromStr es c = []
  /-- `increment_incoming` counts the accepted messages -/
  count : ∀ c k, s.conn c = some k →
    (acceptedFrom cfg fromStr es c).length = k.processor.nonIdleMarker.incoming
  /-- the message in `process` is the one accepted last -/
  current : ∀ c k message parsed, s.conn c = some k → k.InProcess message parsed →
    0 < k.processor.nonIdleMarker.incoming ∧
    (acceptedFrom cfg fromStr es c)[k.processor.nonIdleMarker.incoming - 1]? = some message ∧
    parseIncoming fromStr message = .ok parsed
  /-- a message on its way to a queue has been looked up -/
  lookedUp : ∀ c k message parsed dst, s.conn c = some k →
    k.listen = .forwarding message parsed dst →
    LookedUp cfg fromStr es c k.processor.nonIdleMarker.incoming message parsed dst.sendSpscQPutter
  /-- a placed message was accepted, and looked up -/
  placed : ∀ p ∈ placements cfg fromStr es, 0 < p.number ∧
    (acceptedFrom cfg fromStr es p.src)[p.number - 1]? = some p.message ∧
    ∃ parsed, parseIncoming fromStr p.message = .ok parsed ∧
      LookedUp cfg fromStr es p.src p.number p.message parsed p.dst
  /-- a placed message is not in `process` any more -/
  earlier : ∀ p ∈ placements cfg fromStr es, ∃ k, s.conn p.src = some k ∧
    p.number ≤ k.processor.nonIdleMarker.incoming ∧
    ∀ message parsed, k.InProcess message parsed → p.number < k.processor.nonIdleMarker.incoming
  /-- the messages of one connection are placed in order, each of them once -/
  increasing : ∀ c, ((placements cfg fromStr es).filter fun p => p.src = c).Pairwise
    fun p q => p.number < q.number
  /-- a queue holds the messages placed in it last -/
  queue : ∀ d k, s.conn d = some k →
    k.queue <:+ ((placements cfg fromStr es).filter fun p => p.dst = d).map Placement.message

theorem history_init : History cfg fromStr [] .init where
  unopened _ _ := rfl
  count c k hk := by simp [init] at hk
  current c k message parsed hk := by simp [init] at hk
  lookedUp c k message parsed dst hk := by simp [init] at hk
  placed p hp := by cases hp
  earlier p hp := by cases hp
  increasing c := .nil
  queue d k hk := by simp [init] at hk

section Step

variable (hrun : (signallingServer cfg fromStr).run .init es = some s)
  (hstep : step cfg fromStr s e = some s')

include hrun hstep

theorem acceptedFrom_concat (c : ConnectionId) :
    acceptedFrom cfg fromStr (es ++ [e]) c = acceptedFrom cfg fromStr es c ++
      ((s.acceptance fromStr e).filter fun p => p.1 = c).toList.map Prod.snd :=
  StateMachine.trace_concat hrun hstep

theorem placements_concat :
    placements cfg fromStr (es ++ [e]) =
      placements cfg fromStr es ++ (s.placement cfg e).toList :=
  StateMachine.trace_concat hrun hstep

theorem acceptedFrom_concat_some {message : Message}
    (hacc : s.acceptance fromStr e = some (c, message)) :
    acceptedFrom cfg fromStr (es ++ [e]) c = acceptedFrom cfg fromStr es c ++ [message] := by
  rw [acceptedFrom_concat hrun hstep, hacc]
  simp [Option.filter_some]

theorem acceptedFrom_concat_ne (hacc : ∀ message, s.acceptance fromStr e ≠ some (c, message)) :
    acceptedFrom cfg fromStr (es ++ [e]) c = acceptedFrom cfg fromStr es c := by
  rw [acceptedFrom_concat hrun hstep]
  cases h : s.acceptance fromStr e with
  | none => simp
  | some p =>
    have hne : p.1 ≠ c := by
      rintro rfl
      exact hacc p.2 h
    simp [Option.filter_some, hne]

/-- What has been accepted keeps its number. -/
theorem acceptedFrom_getElem? {i : ℕ} {message : Message}
    (h : (acceptedFrom cfg fromStr es c)[i]? = some message) :
    (acceptedFrom cfg fromStr (es ++ [e]) c)[i]? = some message := by
  obtain ⟨hi, -⟩ := List.getElem?_eq_some_iff.mp h
  rw [acceptedFrom_concat hrun hstep, List.getElem?_append_left hi, h]

theorem Inv.lookedUp_concat (hI : s.Inv) {k k' : Connection} {message : Message}
    {parsed : ParsedMessage} {dst : ConnectionHandler} (he : e = .lookup c)
    (hk : s.conn c = some k) (hl : k.listen = .locking message parsed)
    (hk' : s'.conn c = some k') (hl' : k'.listen = .forwarding message parsed dst) :
    LookedUp cfg fromStr (es ++ [e]) c k.processor.nonIdleMarker.incoming message parsed
      dst.sendSpscQPutter := by
  subst he
  have hI' : s'.Inv := inv_step hI hstep
  refine ⟨es, [], s, s', k, rfl, hrun, hstep, hk, hl, rfl, ?_⟩
  obtain ⟨k₁, message₁, parsed₁, hk₁, hl₁, rfl⟩ := step_lookup hstep
  obtain rfl : k = k₁ := Option.some.inj (hk.symm.trans hk₁)
  obtain ⟨rfl, rfl⟩ : message = message₁ ∧ parsed = parsed₁ := by
    rw [hl, ListenTask.locking.injEq] at hl₁
    exact hl₁
  obtain rfl := Option.some.inj ((conn_setConn_self s c _).symm.trans hk')
  have hseats : ∀ r, (s.state.room parsed.rttTag).seat c = some r →
      (s.state.setRoom parsed.rttTag r).Seated parsed.rttTag c ∧
      ∀ d, s.state.Seated parsed.rttTag d →
        (s.state.setRoom parsed.rttTag r).Seated parsed.rttTag d := by
    intro r hr
    simp only [ServerState.Seated, ServerState.room_setRoom, if_true]
    exact ⟨RoutingRecord.seat_mem hr, fun d hd => RoutingRecord.mem_seat hr hd⟩
  rcases hI.recordRtr_cases parsed.rttTag c parsed.hasPayload with
    ⟨-, h⟩ | ⟨-, -, h⟩ | ⟨-, r, hr, ⟨msg, h⟩ | ⟨hpay, d, -, hne, hd, h⟩⟩
  · rw [h] at hl'
    cases hl'
  · rw [h] at hl'
    cases hl'
  · rw [h] at hl'
    cases hl'
  · rw [h] at hl'
    cases hl'
    obtain ⟨hc, hkeep⟩ := hseats r hr
    refine ⟨hpay, hne, fun d' hd' => ?_⟩
    have hseated : (s.state.setRoom parsed.rttTag r).Seated parsed.rttTag d' := by
      rcases hd' with rfl | rfl
      · exact hc
      · exact hkeep _ hd
    obtain ⟨kd, hkd, -, htag⟩ := hI'.seated parsed.rttTag d' (by rw [h]; exact hseated)
    exact ⟨by rw [h]; exact hseated, kd, hkd, htag⟩

theorem History.step_count (hI : s.Inv) (hH : History cfg fromStr es s) {k' : Connection}
    (hk' : s'.conn c = some k') :
    (acceptedFrom cfg fromStr (es ++ [e]) c).length = k'.processor.nonIdleMarker.incoming := by
  rcases hI.conn_cases hstep hk' with ⟨hnone, hne, -, hzero, -⟩ | ⟨k, hk, hprogress, -⟩
  · rw [acceptedFrom_concat_ne hrun hstep hne, hH.unopened c hnone, hzero, List.length_nil]
  · have hcount := hH.count c k hk
    cases hprogress with
    | accepted message parsed hacc _ _ hinc =>
      rw [acceptedFrom_concat_some hrun hstep hacc, List.length_append, hcount, hinc,
        List.length_singleton]
    | lookedUp message parsed dst he _ _ hinc =>
      subst he
      rw [acceptedFrom_concat_ne hrun hstep (fun _ h => by cases h), hcount, hinc]
    | other hne _ hinc =>
      rw [acceptedFrom_concat_ne hrun hstep hne, hcount, hinc]

theorem History.step_current (hI : s.Inv) (hH : History cfg fromStr es s) {k' : Connection}
    {message : Message} {parsed : ParsedMessage} (hk' : s'.conn c = some k')
    (hbusy : k'.InProcess message parsed) :
    0 < k'.processor.nonIdleMarker.incoming ∧
    (acceptedFrom cfg fromStr (es ++ [e]) c)[k'.processor.nonIdleMarker.incoming - 1]? =
      some message ∧
    parseIncoming fromStr message = .ok parsed := by
  rcases hI.conn_cases hstep hk' with ⟨-, -, hawait, -⟩ | ⟨k, hk, hprogress, -⟩
  · -- a new connection has no message
    exact absurd hbusy (Connection.not_inProcess (Or.inl hawait))
  · -- a message that was in `process` before the step keeps its number
    have hold : k.InProcess message parsed →
        k'.processor.nonIdleMarker.incoming = k.processor.nonIdleMarker.incoming →
        0 < k'.processor.nonIdleMarker.incoming ∧
        (acceptedFrom cfg fromStr (es ++ [e]) c)[k'.processor.nonIdleMarker.incoming - 1]? =
          some message ∧
        parseIncoming fromStr message = .ok parsed := by
      intro hk₁ hinc
      obtain ⟨hpos, hget, hparse⟩ := hH.current c k message parsed hk hk₁
      rw [hinc]
      exact ⟨hpos, acceptedFrom_getElem? hrun hstep hget, hparse⟩
    cases hprogress with
    | accepted m p hacc hl hparse hinc =>
      obtain ⟨rfl, rfl⟩ := hbusy.of_locking hl
      rw [hinc, acceptedFrom_concat_some hrun hstep hacc, ← hH.count c k hk]
      exact ⟨Nat.succ_pos _, by simp, hparse⟩
    | lookedUp m p dst he hl hl' hinc =>
      obtain ⟨rfl, rfl⟩ := hbusy.of_forwarding hl'
      exact hold (Or.inl hl) hinc
    | other hne hl hinc => exact hold (hbusy.before hl) hinc

theorem History.step_lookedUp (hI : s.Inv) (hH : History cfg fromStr es s) {k' : Connection}
    {message : Message} {parsed : ParsedMessage} {dst : ConnectionHandler}
    (hk' : s'.conn c = some k') (hl' : k'.listen = .forwarding message parsed dst) :
    LookedUp cfg fromStr (es ++ [e]) c k'.processor.nonIdleMarker.incoming message parsed
      dst.sendSpscQPutter := by
  rcases hI.conn_cases hstep hk' with ⟨-, -, hawait, -⟩ | ⟨k, hk, hprogress, -⟩
  · exact absurd (hawait.symm.trans hl') (by simp)
  · cases hprogress with
    | accepted m p hacc hl _ _ => exact absurd (hl.symm.trans hl') (by simp)
    | lookedUp m p dst' he hl hl'' hinc =>
      obtain ⟨rfl, rfl, rfl⟩ : m = message ∧ p = parsed ∧ dst' = dst := by
        rw [hl'', ListenTask.forwarding.injEq] at hl'
        exact hl'
      rw [hinc]
      exact hI.lookedUp_concat hrun hstep he hk hl hk' hl'
    | other hne hl hinc =>
      rcases hl with hl | hl | hl
      · rw [hinc]
        exact (hH.lookedUp c k message parsed dst hk (hl.symm.trans hl')).concat e
      · exact absurd (hl.symm.trans hl') (by simp)
      · exact absurd (hl.symm.trans hl') (by simp)

theorem History.step_placed (hH : History cfg fromStr es s) {p : Placement}
    (hp : p ∈ placements cfg fromStr (es ++ [e])) :
    0 < p.number ∧
    (acceptedFrom cfg fromStr (es ++ [e]) p.src)[p.number - 1]? = some p.message ∧
    ∃ parsed, parseIncoming fromStr p.message = .ok parsed ∧
      LookedUp cfg fromStr (es ++ [e]) p.src p.number p.message parsed p.dst := by
  rw [placements_concat hrun hstep, List.mem_append, Option.mem_toList] at hp
  rcases hp with hp | hp
  · obtain ⟨hpos, hget, parsed, hparse, hlook⟩ := hH.placed p hp
    exact ⟨hpos, acceptedFrom_getElem? hrun hstep hget, parsed, hparse, hlook.concat e⟩
  · -- the message that `process` has been working on
    obtain ⟨-, k, parsed, kd, hk, hl, hnum, -⟩ := placement_eq_some hp
    obtain ⟨hpos, hget, hparse⟩ := hH.current p.src k p.message parsed hk (Or.inr ⟨_, hl⟩)
    have hlook := hH.lookedUp p.src k p.message parsed _ hk hl
    rw [← hnum] at hpos hget hlook
    exact ⟨hpos, acceptedFrom_getElem? hrun hstep hget, parsed, hparse, hlook.concat e⟩

theorem History.step_earlier (hI : s.Inv) (hH : History cfg fromStr es s) {p : Placement}
    (hp : p ∈ placements cfg fromStr (es ++ [e])) :
    ∃ k', s'.conn p.src = some k' ∧ p.number ≤ k'.processor.nonIdleMarker.incoming ∧
      ∀ message parsed, k'.InProcess message parsed →
        p.number < k'.processor.nonIdleMarker.incoming := by
  rw [placements_concat hrun hstep, List.mem_append, Option.mem_toList] at hp
  rcases hp with hp | hp
  · obtain ⟨k, hk, hle, hlt⟩ := hH.earlier p hp
    obtain ⟨k', hk', hprogress, -⟩ := hI.step_progress hstep hk
    refine ⟨k', hk', ?_⟩
    -- an accepted message has the next number
    cases hprogress with
    | accepted m q hacc hl _ hinc =>
      rw [hinc]
      exact ⟨Nat.le_succ_of_le hle, fun _ _ _ => Nat.lt_succ_of_le hle⟩
    | lookedUp m q dst he hl hl' hinc =>
      rw [hinc]
      exact ⟨hle, fun _ _ _ => hlt m q (Or.inl hl)⟩
    | other hne hl hinc =>
      rw [hinc]
      exact ⟨hle, fun m q hbusy => hlt m q (hbusy.before hl)⟩
  · -- after its placement the message has left `process`
    obtain ⟨rfl, k, parsed, kd, hk, hl, hnum, hkd, hacc⟩ := placement_eq_some hp
    rcases step_forward hstep with ⟨k₁, m, q, dst, kd₁, hk₁, hl₁, hkd₁, ⟨-, rfl⟩ | ⟨hno, -⟩⟩
    · obtain rfl : k = k₁ := Option.some.inj (hk.symm.trans hk₁)
      refine ⟨_, conn_setConn_self .., hnum.le, ?_⟩
      rintro m' q' (hl' | ⟨dst', hl'⟩)
      · cases hl'
      · cases hl'
    · obtain rfl : k = k₁ := Option.some.inj (hk.symm.trans hk₁)
      rw [hl, ListenTask.forwarding.injEq] at hl₁
      obtain ⟨-, -, rfl⟩ := hl₁
      obtain rfl : kd = kd₁ := Option.some.inj (hkd.symm.trans hkd₁)
      exact absurd hacc hno

theorem History.step_increasing (hH : History cfg fromStr es s) (c : ConnectionId) :
    ((placements cfg fromStr (es ++ [e])).filter fun p => p.src = c).Pairwise
      fun p q => p.number < q.number := by
  rw [placements_concat hrun hstep, List.filter_append, List.pairwise_append]
  refine ⟨hH.increasing c, ?_, ?_⟩
  · cases s.placement cfg e with
    | none => exact .nil
    | some p => exact .filter _ (List.pairwise_singleton _ p)
  · intro p hp q hq
    obtain ⟨hp, hpc⟩ := List.mem_filter.mp hp
    obtain ⟨hq, hqc⟩ := List.mem_filter.mp hq
    rw [Option.mem_toList] at hq
    -- the newcomer is in `process`, and everything placed before is not
    obtain ⟨-, k, parsed, kd, hk, hl, hnum, -⟩ := placement_eq_some hq
    obtain ⟨k₁, hk₁, -, hlt⟩ := hH.earlier p hp
    have hsrc : p.src = q.src := (of_decide_eq_true hpc).trans (of_decide_eq_true hqc).symm
    rw [hsrc, hk, Option.some.injEq] at hk₁
    subst hk₁
    rw [hnum]
    exact hlt _ _ (Or.inr ⟨_, hl⟩)

theorem History.step_queue (hI : s.Inv) (hH : History cfg fromStr es s) {k' : Connection}
    (hk' : s'.conn d = some k') :
    k'.queue <:+ ((placements cfg fromStr (es ++ [e])).filter fun p => p.dst = d).map
      Placement.message := by
  rcases hI.conn_cases hstep hk' with ⟨-, -, -, -, hempty⟩ | ⟨k, hk, -, hqueue⟩
  · rw [hempty]
    exact List.nil_suffix
  · have harr : s.arrivals cfg e d =
        ((s.placement cfg e).toList.filter fun p => p.dst = d).map Placement.message := by
      rw [arrivals, Option.toList_filter]
    rw [placements_concat hrun hstep, List.filter_append, List.map_append, ← harr]
    exact hqueue.trans (List.suffix_append_self_iff.mpr (hH.queue d k hk))

/-- **Every step extends the history.** -/
theorem History.step (hI : s.Inv) (hH : History cfg fromStr es s) :
    History cfg fromStr (es ++ [e]) s' where
  unopened c hnone' := by
    have hnone : s.conn c = none := by
      rw [Option.eq_none_iff_forall_ne_some]
      intro k hk
      obtain ⟨k', hk', -⟩ := step_later hstep hk
      exact absurd (hnone'.symm.trans hk') (by simp)
    rw [acceptedFrom_concat_ne hrun hstep, hH.unopened c hnone]
    intro message hacc
    obtain ⟨k, hk⟩ := acceptance_isSome_conn hacc
    exact absurd (hnone.symm.trans hk) (by simp)
  count _ _ hk' := hH.step_count hrun hstep hI hk'
  current _ _ _ _ hk' hbusy := hH.step_current hrun hstep hI hk' hbusy
  lookedUp _ _ _ _ _ hk' hl' := hH.step_lookedUp hrun hstep hI hk' hl'
  placed _ hp := hH.step_placed hrun hstep hp
  earlier _ hp := hH.step_earlier hrun hstep hI hp
  increasing c := hH.step_increasing hrun hstep c
  queue _ _ hk' := hH.step_queue hrun hstep hI hk'

end Step

/-- The history of every run. -/
theorem run_history (hrun : (signallingServer cfg fromStr).run .init es = some s) :
    History cfg fromStr es s := by
  refine StateMachine.run_induction (P := History cfg fromStr) history_init ?_ hrun
  intro es s e s' hrun hH hstep
  exact hH.step hrun hstep (reachable_inv ⟨es, hrun⟩)

/-- **Delivery isolation.** In every run: what is in a queue was placed there, in the order
of its placement; a placed message is one that its source had accepted from it under the
message's number, with something to forward, looked up while source and destination were
different members, equally branded, of the same room; and the messages of one source are
placed in the order of their numbers, each at most once over all queues. -/
theorem deliveries_isolated (hrun : (signallingServer cfg fromStr).run .init es = some s) :
    (∀ d k, s.conn d = some k → k.queue <:+
      ((placements cfg fromStr es).filter fun p => p.dst = d).map Placement.message) ∧
    (∀ p ∈ placements cfg fromStr es, 0 < p.number ∧
      (acceptedFrom cfg fromStr es p.src)[p.number - 1]? = some p.message ∧
      ∃ parsed, parseIncoming fromStr p.message = .ok parsed ∧
        LookedUp cfg fromStr es p.src p.number p.message parsed p.dst) ∧
    (∀ c, ((placements cfg fromStr es).filter fun p => p.src = c).Pairwise
      fun p q => p.number < q.number) := by
  have hH := run_history hrun
  exact ⟨hH.queue, hH.placed, hH.increasing⟩

/-- When two connections meet, the second one's message is placed in the first one's
queue, and was accepted before. -/
theorem deliveries_isolated_twoMeet :
    placements {} tagOnly twoMeet = [⟨1, 1, 0, .text "r"⟩] ∧
      (acceptedFrom {} tagOnly twoMeet 1)[0]? = some (.text "r") := by
  have hplaced : placements {} tagOnly twoMeet = [⟨1, 1, 0, .text "r"⟩] := rfl
  obtain ⟨-, hall, -⟩ := deliveries_isolated run_twoMeet
  obtain ⟨-, hget, -⟩ := hall ⟨1, 1, 0, .text "r"⟩
    (by rw [hplaced]; exact List.mem_singleton_self _)
  exact ⟨hplaced, hget⟩

end Server

end Vamp
