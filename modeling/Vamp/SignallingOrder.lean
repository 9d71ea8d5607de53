import Mathlib.Data.List.Nodup
import Vamp.SignallingEnd

/-!
# The queue of signalling messages, before `close`

Until the transport is stopped, one call of `sendSignallingMessage` at most goes through the
queue. The messages that it hands to `send` are some of those in the queue, in their order, as
every message is behind those that were pushed before it, and what has been removed does not
come back. A message is removed when its own acknowledgement has come in, or when the queue is
cleared, and then it never goes out again.
-/

namespace Vamp

namespace Ts

namespace SignallingSender

variable {τ κ : Type} {codec : Codec τ κ} {nodeId : NodeId} {s s' s₀ : SignallingSender τ}
  {stage stage' : Stage τ} {e : SenderEvent τ κ} {es : List (SenderEvent τ κ)}
  {P H S C : List (Request τ)} {deeds : List (SenderDeed τ κ)}

/-! ## What is told of a run -/

/-- What a step tells. -/
def told (codec : Codec τ κ) (s : SignallingSender τ) (e : SenderEvent τ κ) :
    List (SenderDeed τ κ) :=
  ((s.step codec e).map Prod.snd).getD []

/-- The messages that go out in a step. -/
def transmits (codec : Codec τ κ) (s : SignallingSender τ) (e : SenderEvent τ κ) :
    List (Request τ) :=
  ((s.step codec e).map fun r => transmissions r.1.requests r.2).getD []

/-- What a run tells. -/
def history (codec : Codec τ κ) (nodeId : NodeId) (s : SignallingSender τ)
    (es : List (SenderEvent τ κ)) : List (SenderDeed τ κ) :=
  (machine codec nodeId).trace (told codec) s es

/-- The acknowledgement of a message has come in, while it was being delivered. -/
def Acknowledged (codec : Codec τ κ) (nodeId : NodeId) (es : List (SenderEvent τ κ))
    (r : Request τ) : Prop :=
  ∃ pre frame ok post s i d nodeId', es = pre ++ .incoming frame ok :: post ∧
    (machine codec nodeId).run (.new nodeId) pre = some s ∧
    s.transport.awaitedDelivery = some i ∧ s.requests[i]? = some r ∧
    s.transport.deliveries[i]? = some d ∧ codec.decode frame = .ok (.ack d.sn nodeId')

/-- **Messages go out one at a time and in order**, in the run `es` that ends in `s`. -/
structure InOrder (codec : Codec τ κ) (nodeId : NodeId) (es : List (SenderEvent τ κ))
    (s : SignallingSender τ) : Prop where
  /-- one call of `sendSignallingMessage` goes through the queue, if any -/
  single : s.loops ≤ 1
  /-- messages are numbered as they are pushed -/
  numbered : ((history codec nodeId (.new nodeId) es).filterMap SenderDeed.pushed?).map
    Request.id = List.range s.pushed
  /-- they are handed to `send` in the order in which they were pushed -/
  ordered : ((history codec nodeId (.new nodeId) es).filterMap SenderDeed.handed?).Sublist
    ((history codec nodeId (.new nodeId) es).filterMap SenderDeed.pushed?)
  /-- a callback is called once at most -/
  once : ((history codec nodeId (.new nodeId) es).filterMap SenderDeed.callback?).Nodup
  /-- it is called, and the message is removed, after the acknowledgement of that message -/
  acknowledged : ∀ pre e post s₁ r, es = pre ++ e :: post →
    (machine codec nodeId).run (.new nodeId) pre = some s₁ →
      .shifted r ∈ told codec s₁ e ∨ .callback r ∈ told codec s₁ e →
        Acknowledged codec nodeId pre r
  /-- what was pushed before the queue is cleared does not go out afterwards -/
  silent : ∀ pre post s₁ r, es = pre ++ .onDebounceTimeout :: post →
    (machine codec nodeId).run (.new nodeId) pre = some s₁ →
      .pushed r ∈ history codec nodeId (.new nodeId) pre →
        r ∉ (machine codec nodeId).trace (transmits codec) s₁ (.onDebounceTimeout :: post)
  /-- what is pushed afterwards stays in the queue until it is removed -/
  kept : ∀ pre post s₁, es = pre ++ .onDebounceTimeout :: post →
    (machine codec nodeId).run (.new nodeId) pre = some s₁ → .onDebounceTimeout ∉ post →
      (history codec nodeId s₁ (.onDebounceTimeout :: post)).filterMap SenderDeed.pushed? =
        (history codec nodeId s₁ (.onDebounceTimeout :: post)).filterMap SenderDeed.shifted? ++
          s.pendingRequests
  /-- `send` is never called while a delivery is in progress -/
  alone : ∀ r busy, .handed r busy ∈ history codec nodeId (.new nodeId) es → busy = false

theorem step_of_machine (hstep : (machine codec nodeId).step s e = some s') :
    s.step codec e = some (s', told codec s e) := by
  obtain ⟨⟨s₁, deeds⟩, hsome, rfl⟩ := Option.map_eq_some_iff.mp hstep
  rw [told, hsome]
  rfl

/-- What a step of the machine does, with what it tells and what goes out. -/
theorem At.machine_took (h : s.At stage) (hstep : (machine codec nodeId).step s e = some s') :
    ∃ stage' P H S C, Took codec s stage e s' (told codec s e) stage' P H S C ∧
      transmits codec s e = transmissions s'.requests (told codec s e) := by
  have hsome := step_of_machine hstep
  obtain ⟨stage', P, H, S, C, htook⟩ := h.step hsome
  refine ⟨stage', P, H, S, C, htook, ?_⟩
  rw [transmits, hsome]
  rfl

theorem history_concat (hrun : (machine codec nodeId).run s₀ es = some s)
    (hstep : (machine codec nodeId).step s e = some s') :
    history codec nodeId s₀ (es ++ [e]) = history codec nodeId s₀ es ++ told codec s e :=
  StateMachine.trace_concat hrun hstep

/-! ## What a step does to the queue -/

/-- One call goes through the queue, if any. -/
theorem At.loops_le (h : s.At stage) : s.loops ≤ 1 := by
  rw [loops, Promises.continuations, h.reactions, h.jobs]
  cases stage with
  | free | left => exact Nat.zero_le 1
  | waiting | acked | cleared | retrying => exact Nat.le_refl 1

theorem Stage.current_sublist (stage : Stage τ) : stage.current.Sublist stage.pending := by
  cases stage with
  | waiting | acked => exact (List.nil_sublist _).cons_cons _
  | free | cleared | left | retrying => exact List.nil_sublist _

/-- **The front of the queue.** A step takes `F` from it, of which `D` has been handed to `send`. -/
theorem Took.advance (h : s.At stage) (htook : Took codec s stage e s' deeds stage' P H S C)
    (hopen : s.transport.aborted = false) (hclose : e.isClose = false) :
    ∃ F D, stage.pending ++ P = F ++ stage'.pending ∧ stage.current ++ H = D ++ stage'.current ∧
      D.Sublist F ∧ C.Sublist D ∧ ∀ r, r ∈ S ∨ r ∈ C → ∃ rest, stage = .acked r rest := by
  have hcalled : ∀ r : Request τ, (if r.callback then [r] else []).Sublist [r] := by
    intro r
    split
    · exact .refl _
    · exact List.nil_sublist _
  have hremoved : ∀ (r : Request τ) (rest : List (Request τ)) (r' : Request τ),
      r' ∈ [r] ∨ r' ∈ (if r.callback then [r] else []) →
        ∃ rest', Stage.acked r rest = .acked r' rest' := by
    intro r rest r' hr'
    obtain rfl : r' = r := List.mem_singleton.mp (hr'.elim id fun hmem => (hcalled r).subset hmem)
    exact ⟨rest, rfl⟩
  have hnone : ∀ r : Request τ, r ∈ ([] : List (Request τ)) ∨ r ∈ ([] : List (Request τ)) →
      ∃ rest, stage = .acked r rest := by
    rintro r (hr | hr) <;> cases hr
  have hgoes := htook.goes
  cases hgoes with
  | begins => exact ⟨[], [], rfl, rfl, .refl _, .refl _, hnone⟩
  | refused _ _ _ _ hclosed => cases hopen.symm.trans hclosed
  | queued => exact ⟨[], [], rfl, rfl, .refl _, .refl _, hnone⟩
  | acked => exact ⟨[], [], List.append_nil _, rfl, .refl _, .refl _, hnone⟩
  | cleared _ r rest =>
    exact ⟨r :: rest, [r], rfl, rfl, (List.nil_sublist _).cons_cons _, List.nil_sublist _, hnone⟩
  | stopped => cases hclose
  | finished r => exact ⟨[r], [r], rfl, rfl, .refl _, hcalled r, hremoved r []⟩
  | next r r' rest =>
    exact ⟨[r], [r], List.append_nil _, rfl, .refl _, hcalled r, hremoved r (r' :: rest)⟩
  | leaves => exact ⟨[], [], rfl, rfl, .refl _, .refl _, hnone⟩
  | ends => exact ⟨[], [], rfl, rfl, .refl _, .refl _, hnone⟩
  | retries r rest err => cases hopen.symm.trans (h.retrying r rest err rfl)
  | stays =>
    exact ⟨[], [], List.append_nil _, List.append_nil _, .refl _, .refl _, hnone⟩

/-- What is pushed is numbered. -/
theorem Goes.numbered (h : Goes codec s stage e stage' P H S C) :
    P.map Request.id = (List.range P.length).map (s.pushed + ·) := by
  cases h <;> rfl

/-- A message is acknowledged by its own acknowledgement. -/
theorem Goes.acknowledged {r : Request τ} {rest : List (Request τ)}
    (h : Goes codec s stage e (.acked r rest) P H S C) :
    ∃ i frame ok d nodeId, stage = .waiting i r rest ∧ e = .incoming frame ok ∧
      s.transport.deliveries[i]? = some d ∧ codec.decode frame = .ok (.ack d.sn nodeId) := by
  cases h with
  | acked i _ _ frame ok d nodeId hd hdec => exact ⟨i, frame, ok, d, nodeId, rfl, rfl, hd, hdec⟩
  | stays _ _ hjobs => cases hjobs

/-- Unless the queue is cleared, a message leaves it only when it is removed. -/
theorem Goes.balance (h : Goes codec s stage e stage' P H S C) (hclear : e ≠ .onDebounceTimeout) :
    stage.pending ++ P = S ++ stage'.pending := by
  cases h with
  | cleared => exact absurd rfl hclear
  | begins | refused | queued | finished | leaves | ends => rfl
  | acked | stopped | next | retries | stays => exact List.append_nil _

/-- When it is cleared, nothing is left. -/
theorem Goes.clear (h : Goes codec s stage .onDebounceTimeout stage' P H S C) :
    stage'.pending = [] ∧ P = [] ∧ S = [] := by
  cases h with
  | cleared => exact ⟨rfl, rfl, rfl⟩
  | stays _ _ hjobs _ hclear =>
    have hfree := hclear rfl
    cases stage with
    | free | left => exact ⟨rfl, rfl, rfl⟩
    | waiting | acked | cleared | retrying => cases hfree

/-- What is in the queue was there, or is new. -/
theorem Goes.pending (h : Goes codec s stage e stage' P H S C) :
    ∀ r ∈ stage'.pending, r ∈ stage.pending ∨ r ∈ P := by
  intro r hr
  rcases eq_or_ne e .onDebounceTimeout with rfl | hclear
  · rw [h.clear.1] at hr
    cases hr
  · exact List.mem_append.mp (h.balance hclear ▸ List.mem_append_right _ hr)

/-! ## What a run does to the queue -/

/-- What has been told of a run from the start, and the queue that it leads to. What has been
pushed is `front`, followed by the queue, and what has been handed to `send` is `past`, followed
by the message that is being delivered. -/
structure Record (codec : Codec τ κ) (nodeId : NodeId) (es : List (SenderEvent τ κ))
    (s : SignallingSender τ) (stage : Stage τ) (front past : List (Request τ)) : Prop where
  /-- where the sender stands -/
  reached : s.At stage
  /-- the transport has not been stopped -/
  opened : s.transport.aborted = false
  /-- what has been pushed -/
  pushed : (history codec nodeId (.new nodeId) es).filterMap SenderDeed.pushed? =
    front ++ stage.pending
  /-- what has been handed to `send` -/
  handed : (history codec nodeId (.new nodeId) es).filterMap SenderDeed.handed? =
    past ++ stage.current
  /-- that is some of what had been pushed -/
  sub : past.Sublist front
  /-- each message that is handed to `send` gets a delivery -/
  requests : s.requests = past ++ stage.current
  /-- whose callback has been called -/
  called : ((history codec nodeId (.new nodeId) es).filterMap SenderDeed.callback?).Sublist past
  /-- messages are numbered -/
  numbered : (front ++ stage.pending).map Request.id = List.range s.pushed
  /-- `send` has not been called while a delivery was in progress -/
  alone : ∀ r busy, .handed r busy ∈ history codec nodeId (.new nodeId) es → busy = false
  /-- a message that is about to be removed has been acknowledged -/
  acknowledged : ∀ r rest, stage = .acked r rest → Acknowledged codec nodeId es r

theorem record_nil (codec : Codec τ κ) (nodeId : NodeId) :
    Record codec nodeId [] (.new nodeId) .free [] [] where
  reached := at_new nodeId
  opened := rfl
  pushed := rfl
  handed := rfl
  sub := .refl _
  requests := rfl
  called := .refl _
  numbered := rfl
  alone := nofun
  acknowledged := nofun

/-- The record is kept. -/
theorem Record.concat {front past : List (Request τ)}
    (h : Record codec nodeId es s stage front past)
    (hrun : (machine codec nodeId).run (.new nodeId) es = some s)
    (hstep : (machine codec nodeId).step s e = some s') (hclose : e.isClose = false) :
    ∃ stage' front' past', Record codec nodeId (es ++ [e]) s' stage' front' past' := by
  obtain ⟨stage', P, H, S, C, htook, -⟩ := h.reached.machine_took hstep
  obtain ⟨F, D, hpending, hcurrent, hsub, hcalled, -⟩ := htook.advance h.reached h.opened hclose
  have hpushed : front ++ F ++ stage'.pending = front ++ stage.pending ++ P := by
    rw [List.append_assoc, ← hpending, List.append_assoc]
  have hhanded : past ++ D ++ stage'.current = past ++ stage.current ++ H := by
    rw [List.append_assoc, ← hcurrent, List.append_assoc]
  refine ⟨stage', front ++ F, past ++ D, ?_⟩
  exact {
    reached := htook.reached
    opened := by
      rw [htook.closed, h.opened, hclose]
      rfl
    pushed := by
      rw [history_concat hrun hstep, List.filterMap_append, h.pushed, htook.tells.pushed, hpushed]
    handed := by
      rw [history_concat hrun hstep, List.filterMap_append, h.handed, htook.tells.handed, hhanded]
    sub := h.sub.append hsub
    requests := by rw [htook.requests h.opened, h.requests, hhanded]
    called := by
      rw [history_concat hrun hstep, List.filterMap_append, htook.tells.called]
      exact h.called.append hcalled
    numbered := by
      rw [hpushed, List.map_append, h.numbered, htook.goes.numbered, htook.pushed, List.range_add]
    alone := by
      rw [history_concat hrun hstep]
      exact fun r busy hmem => (List.mem_append.mp hmem).elim (h.alone r busy)
        (htook.tells.alone r busy)
    acknowledged := by
      rintro r rest rfl
      obtain ⟨i, frame, ok, d, nodeId', rfl, rfl, hd, hdec⟩ := htook.goes.acknowledged
      obtain ⟨-, -, hrequest⟩ := h.reached.waiting i r rest rfl
      exact ⟨es, frame, ok, [], s, i, d, nodeId', rfl, hrun, h.reached.awaited, hrequest, hd,
        hdec⟩ }

/-- Every run has a record, until the transport is stopped. -/
theorem record_of_run (hrun : (machine codec nodeId).run (.new nodeId) es = some s)
    (hopen : .close ∉ es) : ∃ stage front past, Record codec nodeId es s stage front past := by
  refine StateMachine.run_induction (M := machine codec nodeId)
    (P := fun es s => .close ∉ es → ∃ stage front past, Record codec nodeId es s stage front past)
    (fun _ => ⟨.free, [], [], record_nil codec nodeId⟩) ?_ hrun hopen
  intro es s e s' hrun ih hstep hopen
  obtain ⟨stage, front, past, hrecord⟩ := ih fun hmem => hopen (List.mem_append_left _ hmem)
  refine hrecord.concat hrun hstep ?_
  cases e with
  | close => exact absurd (List.mem_append_right _ (List.mem_singleton_self _)) hopen
  | _ => rfl

/-- After a state with nothing older than `n` in the queue, nothing older goes out. -/
theorem At.transmits_later {n : ℕ} (h : s₀.At stage) (hn : n ≤ s₀.pushed)
    (hqueue : ∀ r ∈ stage.pending, n ≤ r.id)
    (hrun : (machine codec nodeId).run s₀ es = some s) :
    ∀ r ∈ (machine codec nodeId).trace (transmits codec) s₀ es, n ≤ r.id := by
  refine (StateMachine.run_induction (M := machine codec nodeId) (P := fun es s => (∃ stage,
    s.At stage ∧ n ≤ s.pushed ∧ ∀ r ∈ stage.pending, n ≤ r.id) ∧
      ∀ r ∈ (machine codec nodeId).trace (transmits codec) s₀ es, n ≤ r.id)
    ⟨⟨stage, h, hn, hqueue⟩, fun r hr => nomatch hr⟩ ?_ hrun).2
  rintro es s e s' hrun ⟨⟨stage, hat, hn, hqueue⟩, ih⟩ hstep
  obtain ⟨stage', P, H, S, C, htook, htransmits⟩ := hat.machine_took hstep
  have hnew : ∀ r ∈ P, n ≤ r.id := by
    intro r hr
    have hid := List.mem_map_of_mem (f := Request.id) hr
    rw [htook.goes.numbered] at hid
    obtain ⟨k, -, hk⟩ := List.mem_map.mp hid
    omega
  have hqueue' : ∀ r ∈ stage'.pending, n ≤ r.id := fun r hr =>
    (htook.goes.pending r hr).elim (hqueue r) (hnew r)
  refine ⟨⟨stage', htook.reached, ?_, hqueue'⟩, ?_⟩
  · rw [htook.pushed]
    omega
  · rw [StateMachine.trace_concat hrun hstep, htransmits]
    intro r hr
    rcases List.mem_append.mp hr with hr | hr
    · exact ih r hr
    · exact hqueue' r (List.mem_of_mem_head? (htook.transmits r hr))

/-- Unless the queue is cleared again, a message leaves it only when it is removed. -/
theorem At.balance (h : s₀.At stage) (hclear : .onDebounceTimeout ∉ es)
    (hrun : (machine codec nodeId).run s₀ es = some s) :
    stage.pending ++ (history codec nodeId s₀ es).filterMap SenderDeed.pushed? =
      (history codec nodeId s₀ es).filterMap SenderDeed.shifted? ++ s.pendingRequests := by
  refine (StateMachine.run_induction (M := machine codec nodeId) (P := fun es s =>
    .onDebounceTimeout ∉ es → (∃ stage', s.At stage') ∧
      stage.pending ++ (history codec nodeId s₀ es).filterMap SenderDeed.pushed? =
        (history codec nodeId s₀ es).filterMap SenderDeed.shifted? ++ s.pendingRequests)
    (fun _ => ⟨⟨stage, h⟩, ?_⟩) ?_ hrun hclear).2
  · rw [h.pending]
    exact List.append_nil _
  · intro es s e s' hrun ih hstep hclear
    obtain ⟨⟨stage₁, hat⟩, ih⟩ := ih fun hmem => hclear (List.mem_append_left _ hmem)
    obtain ⟨stage', P, H, S, C, htook, -⟩ := hat.machine_took hstep
    have hstay : e ≠ .onDebounceTimeout := by
      rintro rfl
      exact hclear (List.mem_append_right _ (List.mem_singleton_self _))
    refine ⟨⟨stage', htook.reached⟩, ?_⟩
    calc stage.pending ++ (history codec nodeId s₀ (es ++ [e])).filterMap SenderDeed.pushed?
        = (stage.pending ++ (history codec nodeId s₀ es).filterMap SenderDeed.pushed?) ++ P := by
          rw [history_concat hrun hstep, List.filterMap_append, htook.tells.pushed,
            List.append_assoc]
      _ = (history codec nodeId s₀ es).filterMap SenderDeed.shifted? ++ (stage₁.pending ++ P) := by
          rw [ih, hat.pending, List.append_assoc]
      _ = (history codec nodeId s₀ (es ++ [e])).filterMap SenderDeed.shifted? ++
            s'.pendingRequests := by
          rw [htook.goes.balance hstay, history_concat hrun hstep, List.filterMap_append,
            htook.tells.shifted, htook.reached.pending, List.append_assoc]

/-! ## Messages go out one at a time and in order -/

/-- What is removed, and whose callback is called, has been acknowledged. -/
theorem Record.acknowledged_of_told {front past : List (Request τ)} {r : Request τ}
    (h : Record codec nodeId es s stage front past)
    (hstep : (machine codec nodeId).step s e = some s') (hclose : e.isClose = false)
    (htold : .shifted r ∈ told codec s e ∨ .callback r ∈ told codec s e) :
    Acknowledged codec nodeId es r := by
  obtain ⟨stage', P, H, S, C, htook, -⟩ := h.reached.machine_took hstep
  obtain ⟨-, -, -, -, -, -, hacked⟩ := htook.advance h.reached h.opened hclose
  have hmem : r ∈ S ∨ r ∈ C := by
    refine htold.imp (fun hmem => ?_) fun hmem => ?_
    · rw [← htook.tells.shifted]
      exact List.mem_filterMap.mpr ⟨_, hmem, rfl⟩
    · rw [← htook.tells.called]
      exact List.mem_filterMap.mpr ⟨_, hmem, rfl⟩
  obtain ⟨rest, hstage⟩ := hacked r hmem
  exact h.acknowledged r rest hstage

/-- What has been pushed has a smaller number than what will be. -/
theorem Record.id_lt {front past : List (Request τ)} {r : Request τ}
    (h : Record codec nodeId es s stage front past)
    (hpushed : .pushed r ∈ history codec nodeId (.new nodeId) es) : r.id < s.pushed := by
  have hmem : r ∈ front ++ stage.pending := by
    rw [← h.pushed]
    exact List.mem_filterMap.mpr ⟨_, hpushed, rfl⟩
  have hid := List.mem_map_of_mem (f := Request.id) hmem
  rw [h.numbered] at hid
  exact List.mem_range.mp hid

/-- **Messages go out one at a time and in order**, in every run before `close`. -/
theorem signals_in_order
    (hrun : (machine codec nodeId).run (machine codec nodeId).init es = some s)
    (hopen : .close ∉ es) : InOrder codec nodeId es s := by
  obtain ⟨stage, front, past, h⟩ := record_of_run hrun hopen
  have hordered : (past ++ stage.current).Sublist (front ++ stage.pending) :=
    h.sub.append stage.current_sublist
  have hids : (front ++ stage.pending).Nodup := by
    refine List.Nodup.of_map Request.id ?_
    rw [h.numbered]
    exact List.nodup_range
  exact {
    single := h.reached.loops_le
    numbered := by rw [h.pushed, h.numbered]
    ordered := by
      rw [h.pushed, h.handed]
      exact hordered
    once := hids.sublist (h.called.trans ((List.sublist_append_left _ _).trans hordered))
    acknowledged := by
      rintro pre e post s₁ r rfl hpre htold
      obtain ⟨s₂, hrun₁, hrest⟩ := StateMachine.run_append_eq_some.mp hrun
      obtain rfl := Option.some.inj (hpre.symm.trans hrun₁)
      obtain ⟨s₃, hstep, -⟩ := StateMachine.run_cons_eq_some.mp hrest
      obtain ⟨stage₁, front₁, past₁, hrecord⟩ := record_of_run hpre fun hmem =>
        hopen (List.mem_append_left _ hmem)
      refine hrecord.acknowledged_of_told hstep ?_ htold
      cases e with
      | close => exact absurd (List.mem_append_right _ (List.mem_cons_self ..)) hopen
      | _ => rfl
    silent := by
      rintro pre post s₁ r rfl hpre hpushed hout
      obtain ⟨s₂, hrun₁, hrest⟩ := StateMachine.run_append_eq_some.mp hrun
      obtain rfl := Option.some.inj (hpre.symm.trans hrun₁)
      obtain ⟨s₃, hstep, hpost⟩ := StateMachine.run_cons_eq_some.mp hrest
      obtain ⟨stage₁, front₁, past₁, hrecord⟩ := record_of_run hpre fun hmem =>
        hopen (List.mem_append_left _ hmem)
      obtain ⟨stage₂, P, H, S, C, htook, htransmits⟩ := hrecord.reached.machine_took hstep
      obtain ⟨hempty, rfl, -⟩ := htook.goes.clear
      have hlt := hrecord.id_lt hpushed
      rw [StateMachine.trace_cons hstep, htransmits] at hout
      rcases List.mem_append.mp hout with hout | hout
      · -- nothing goes out as the queue is cleared
        have hhead := htook.transmits r hout
        rw [hempty] at hhead
        cases hhead
      · -- and what goes out later was pushed later
        have hle := htook.reached.transmits_later (Nat.le_of_eq htook.pushed.symm)
          (fun r hr => by rw [hempty] at hr; cases hr) hpost r hout
        exact absurd hlt (Nat.not_lt.mpr hle)
    kept := by
      rintro pre post s₁ rfl hpre hclear
      obtain ⟨s₂, hrun₁, hrest⟩ := StateMachine.run_append_eq_some.mp hrun
      obtain rfl := Option.some.inj (hpre.symm.trans hrun₁)
      obtain ⟨s₃, hstep, hpost⟩ := StateMachine.run_cons_eq_some.mp hrest
      obtain ⟨stage₁, front₁, past₁, hrecord⟩ := record_of_run hpre fun hmem =>
        hopen (List.mem_append_left _ hmem)
      obtain ⟨stage₂, P, H, S, C, htook, -⟩ := hrecord.reached.machine_took hstep
      obtain ⟨hempty, rfl, rfl⟩ := htook.goes.clear
      have hbalance := htook.reached.balance hclear hpost
      rw [hempty, List.nil_append] at hbalance
      rw [history, StateMachine.trace_cons hstep, List.filterMap_append, List.filterMap_append,
        htook.tells.pushed, htook.tells.shifted, List.nil_append, List.nil_append]
      exact hbalance
    alone := h.alone }

/-- The first of two messages is acknowledged, and the queue is cleared before the second is. -/
def clearedQueue : List (SenderEvent Unit (TransportMsg Unit)) :=
  [.sendSignallingMessage () true true, .sendSignallingMessage () false true,
    .incoming (.ack 1 "other") true, .job true, .onDebounceTimeout, .job true, .job true]

theorem signals_in_order_clearedQueue : ∃ s,
    (machine (.identity Unit) "self").run (.new "self") clearedQueue = some s ∧
      InOrder (.identity Unit) "self" clearedQueue s :=
  have hrun : ∃ s, (machine (.identity Unit) "self").run (machine (.identity Unit) "self").init
      clearedQueue = some s := ⟨_, rfl⟩
  hrun.elim fun s hrun => ⟨s, hrun, signals_in_order hrun (by simp [clearedQueue])⟩

end SignallingSender

end Ts

end Vamp
