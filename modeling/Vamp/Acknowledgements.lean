import Vamp.TransportHandler

/-!
# Which messages are acknowledged

A transport handler on its own, with any sequence of frames coming in: messages of any
identity and number, in any order, over any number of reconnections. It acknowledges a
message before it asks the filter, so a message that is thrown away is acknowledged as
well. That is in order when the message was superseded by one from the same sender; it is
not when the filter holds the identity of another sender, and the sender's counter starts
again.
-/

namespace Vamp

variable {τ κ : Type}

/-- Frames that are messages: the serializer that changes nothing. -/
def Codec.identity (τ : Type) : Codec τ (TransportMsg τ) where
  encode m := .ok m
  decode m := .ok m
  faithful h h' := (Except.ok.inj h').symm.trans (Except.ok.inj h).symm

namespace Endpoint

/-- An endpoint on its own. -/
def machine (codec : Codec τ κ) (language : Language) (nodeId : NodeId) :
    StateMachine (Endpoint τ κ) (HandlerEvent τ κ) where
  init := .new language nodeId
  step ep e := (ep.step codec e).map Prod.fst

/-- The effects of an event. -/
def effects (codec : Codec τ κ) (ep : Endpoint τ κ) (e : HandlerEvent τ κ) : List (Effect τ κ) :=
  ((ep.step codec e).map Prod.snd).getD []

/-- An event with effects is a step. -/
theorem step_of_mem_effects {codec : Codec τ κ} {ep : Endpoint τ κ} {e : HandlerEvent τ κ}
    {eff : Effect τ κ} (h : eff ∈ effects codec ep e) :
    ∃ ep', ep.step codec e = some (ep', effects codec ep e) := by
  cases hstep : ep.step codec e with
  | none =>
    rw [effects, hstep] at h
    cases h
  | some r => exact ⟨r.1, by rw [effects, hstep]; rfl⟩

/-- The acknowledgement of a message can be queued: the queue has room, or the sender does
not throw. -/
def TakesAck (codec : Codec τ κ) (ep : Endpoint τ κ) (sn : ℕ) (ok : Bool) : Prop :=
  match ep with
  | .rust h => h.ackQ.length < 16
  | .typeScript h => ∃ frame, Ts.TransportHandler.sender codec ok (.ack sn h.nodeIdOut) = some frame

variable {codec : Codec τ κ} {language : Language} {nodeId : NodeId} {ep ep' : Endpoint τ κ}
  {e : HandlerEvent τ κ} {es : List (HandlerEvent τ κ)} {v v' : View τ κ}
  {effs : List (Effect τ κ)}

/-- A step of the machine, as a step of the endpoint. -/
theorem machine_step (h : (machine codec language nodeId).step ep e = some ep') :
    ep.step codec e = some (ep', effects codec ep e) := by
  obtain ⟨⟨ep₁, effs⟩, hstep, rfl⟩ := Option.map_eq_some_iff.mp h
  rw [effects, hstep]
  rfl

/-- A message coming in is acknowledged exactly when its acknowledgement can be queued. -/
theorem ackQueued_iff {frame : κ} {ok : Bool} {sn : ℕ} {id : NodeId} {payload : τ}
    (hdec : codec.decode frame = .ok (.normal sn id payload)) :
    .ackQueued sn id ∈ effects codec ep (.receive frame ok) ↔ ep.TakesAck codec sn ok := by
  cases ep with
  | rust h =>
    by_cases hroom : h.ackQ.length < 16
    · simp [effects, step, Rs.TransportHandler.step, Rs.TransportHandler.wsNodeHandle, hdec,
        Rs.trySend, hroom, TakesAck]
    · simp [effects, step, Rs.TransportHandler.step, Rs.TransportHandler.wsNodeHandle, hdec,
        Rs.trySend, hroom, TakesAck]
  | typeScript h =>
    cases hs : Ts.TransportHandler.sender codec ok (.ack sn h.nodeIdOut) with
    | none =>
      simp [effects, step, Ts.TransportHandler.step, hdec, Ts.TransportHandler.handleIncoming, hs,
        TakesAck]
    | some frame' =>
      simp [effects, step, Ts.TransportHandler.step, hdec, Ts.TransportHandler.handleIncoming, hs,
        TakesAck]

/-- Only a message coming in is acknowledged. -/
theorem Move.ackQueued {sn : ℕ} {id : NodeId} (h : Move codec v e v' effs)
    (hack : .ackQueued sn id ∈ effs) :
    ∃ frame ok payload, e = .receive frame ok ∧
      codec.decode frame = .ok (.normal sn id payload) := by
  cases h with
  | sent payload ok waits effects free rest =>
    rcases List.mem_cons.mp hack with heq | hmem
    · cases heq
    · rcases rest _ hmem with ⟨frame, heq, -⟩ | ⟨err, heq⟩
      · cases heq
      · cases heq
  | refused err => cases List.mem_singleton.mp hack
  | transmitted busy frames =>
    obtain ⟨frame, heq, -⟩ := frames _ hack
    cases heq
  | @normal frame ok sn' id' payload ackQ acks decoded queue acks_of =>
    rcases List.mem_append.mp hack with hmem | hmem
    · rcases acks_of _ hmem with heq | ⟨_, _, heq, -⟩
      · obtain ⟨rfl, rfl⟩ := Effect.ackQueued.inj heq
        exact ⟨frame, ok, payload, rfl, decoded⟩
      · cases heq
    · split at hmem
      · cases List.mem_singleton.mp hmem
      · cases hmem
  | ack decoded queue => cases hack
  | acked here decoded busy => cases List.mem_singleton.mp hack
  | garbage decoded => cases hack
  | ackSent queue frames =>
    obtain ⟨_, _, heq, -⟩ := frames _ hack
    cases heq
  | ackTaken queue busy => cases List.mem_singleton.mp hack
  | ackSkipped queue => cases hack
  | aborted event errors =>
    obtain ⟨_, _, heq⟩ := errors _ hack
    cases heq

/-- **What a step passes to the message handler**: nothing, and the filter stays; or the
one message that the filter lets through. -/
theorem Move.handled_cases (h : Move codec v e v' effs) :
    (v'.filter = v.filter ∧ ∀ id sn payload, .handled id sn payload ∉ effs) ∨
    ∃ frame ok id sn payload, e = .receive frame ok ∧
      codec.decode frame = .ok (.normal sn id payload) ∧ (v.filter.next id sn).2 = true ∧
      v'.filter = (v.filter.next id sn).1 ∧ .handled id sn payload ∈ effs ∧
      ∀ id' sn' payload', .handled id' sn' payload' ∈ effs →
        id' = id ∧ sn' = sn ∧ payload' = payload := by
  have hmem : ∀ id sn payload, .handled id sn payload ∈ effs ↔
      .handled id sn payload ∈ effs.filter Effect.isHandled := by
    intro id sn payload
    rw [List.mem_filter]
    exact ⟨fun h => ⟨h, rfl⟩, fun h => h.1⟩
  rcases h.receiver_cases with
    ⟨frame, ok, sn, id, payload, rfl, hdec, hfilter, hhandled⟩ | ⟨hfilter, hnil, -⟩
  · simp only [hhandled] at hmem
    rcases v.filter.next_cases id sn with ⟨hpass, -⟩ | ⟨hstop, -⟩
    · simp only [if_pos hpass, List.mem_singleton] at hmem
      refine Or.inr ⟨frame, ok, id, sn, payload, rfl, hdec, hpass, hfilter,
        (hmem id sn payload).mpr rfl, ?_⟩
      intro id' sn' payload' h
      exact Effect.handled.inj ((hmem id' sn' payload').mp h)
    · rw [hstop] at hfilter
      refine Or.inl ⟨hfilter, fun id' sn' payload' h => ?_⟩
      rw [hmem, hstop, if_neg Bool.false_ne_true] at h
      cases h
  · refine Or.inl ⟨hfilter, fun id sn payload h => ?_⟩
    rw [hmem, hnil] at h
    cases h

/-- A message that the filter lets through is passed on. -/
theorem Move.handled_of_pass {frame : κ} {ok : Bool} {sn : ℕ} {id : NodeId} {payload : τ}
    (h : Move codec v (.receive frame ok) v' effs)
    (hdec : codec.decode frame = .ok (.normal sn id payload))
    (hpass : (v.filter.next id sn).2 = true) : .handled id sn payload ∈ effs := by
  rcases h.receiver_cases with
    ⟨frame', ok', sn', id', payload', he, hdec', -, hhandled⟩ | ⟨-, -, hnone⟩
  · obtain ⟨rfl, rfl⟩ := HandlerEvent.receive.inj he
    obtain ⟨rfl, rfl, rfl⟩ := TransportMsg.normal.inj (Except.ok.inj (hdec'.symm.trans hdec))
    rw [if_pos hpass] at hhandled
    have hmem : .handled id' sn' payload' ∈ effs.filter Effect.isHandled := by
      rw [hhandled]
      exact List.mem_singleton_self _
    exact (List.mem_filter.mp hmem).1
  · exact absurd hdec (hnone frame ok sn id payload rfl)

/-! ## Runs -/

/-- Everything the endpoint has done in a run, oldest first. -/
def done (codec : Codec τ κ) (language : Language) (nodeId : NodeId)
    (es : List (HandlerEvent τ κ)) : List (Effect τ κ) :=
  (machine codec language nodeId).trace (effects codec) (.new language nodeId) es

/-- The run arrives at `ep`, which then sees `e`. -/
def Meets (codec : Codec τ κ) (language : Language) (nodeId : NodeId)
    (es pre : List (HandlerEvent τ κ)) (ep : Endpoint τ κ) (e : HandlerEvent τ κ) : Prop :=
  (∃ post, es = pre ++ e :: post) ∧
    (machine codec language nodeId).run (.new language nodeId) pre = some ep

/-- Every acknowledged message is passed to the message handler in the same step, or was
superseded: one of the same identity and no lower number was passed to it before. -/
def AcksJustified (codec : Codec τ κ) (language : Language) (nodeId : NodeId)
    (es : List (HandlerEvent τ κ)) : Prop :=
  ∀ pre ep e sn id, Meets codec language nodeId es pre ep e →
    .ackQueued sn id ∈ effects codec ep e →
    (∃ payload, .handled id sn payload ∈ effects codec ep e) ∨
      ∃ sn' payload, .handled id sn' payload ∈ done codec language nodeId pre ∧ sn ≤ sn'

/-- Every message that comes in and can be acknowledged is of the identity that the filter
holds, that of the first message; if there was none yet, it is the first one. -/
def FromOneNode (codec : Codec τ κ) (language : Language) (nodeId : NodeId)
    (es : List (HandlerEvent τ κ)) : Prop :=
  ∀ pre ep frame ok sn id payload, Meets codec language nodeId es pre ep (.receive frame ok) →
    codec.decode frame = .ok (.normal sn id payload) → ep.TakesAck codec sn ok →
    (ep.view codec).filter.nodeId = none ∨ (ep.view codec).filter.nodeId = some id

/-- What the filter remembers of a run. -/
structure Remembers (codec : Codec τ κ) (effs : List (Effect τ κ)) (ep : Endpoint τ κ) : Prop where
  /-- what was passed on is of the identity in the filter -/
  identity : ∀ id sn payload, .handled id sn payload ∈ effs →
    (ep.view codec).filter.nodeId = some id
  /-- the filter holds a message that was passed on -/
  last : ∀ id sn, (ep.view codec).filter.nodeId = some id →
    (ep.view codec).filter.lastSn = some sn → ∃ payload, .handled id sn payload ∈ effs

theorem view_new_filter : ((Endpoint.new language nodeId).view codec).filter = .new := by
  cases language with
  | rust => rfl
  | typeScript => rfl

/-- One more step. -/
theorem Remembers.step (h : Remembers codec effs ep) (hmove : Move codec (ep.view codec) e
    (ep'.view codec) (effects codec ep e)) :
    Remembers codec (effs ++ effects codec ep e) ep' := by
  rcases hmove.handled_cases with
    ⟨hfilter, hnone⟩ | ⟨frame, ok, id, sn, payload, -, -, hpass, hfilter, hmem, honly⟩
  · -- nothing has passed: the filter stays
    constructor
    · intro id sn payload hmem
      rw [hfilter]
      rcases List.mem_append.mp hmem with hmem | hmem
      · exact h.identity id sn payload hmem
      · exact absurd hmem (hnone id sn payload)
    · intro id sn hid hsn
      rw [hfilter] at hid hsn
      obtain ⟨payload, hmem⟩ := h.last id sn hid hsn
      exact ⟨payload, List.mem_append_left _ hmem⟩
  · -- a message has passed: the filter holds it now
    rcases (ep.view codec).filter.next_cases id sn with ⟨-, hid, hsn, hsame, -⟩ | ⟨hstop, -⟩
    · constructor
      · intro id' sn' payload' hmem'
        rw [hfilter, hid]
        rcases List.mem_append.mp hmem' with hmem' | hmem'
        · have hid' := h.identity id' sn' payload' hmem'
          rcases hsame with hsame | hsame
          · exact absurd (hsame.symm.trans hid') (by simp)
          · exact hsame.symm.trans hid'
        · rw [(honly id' sn' payload' hmem').1]
      · intro id' sn' hid' hsn'
        rw [hfilter, hid, Option.some.injEq] at hid'
        rw [hfilter, hsn, Option.some.injEq] at hsn'
        subst hid' hsn'
        exact ⟨payload, List.mem_append_right _ hmem⟩
    · rw [hstop] at hpass
      cases hpass

/-- The filter remembers every run. -/
theorem run_remembers
    (hrun : (machine codec language nodeId).run (.new language nodeId) es = some ep) :
    Remembers codec (done codec language nodeId es) ep := by
  refine StateMachine.run_induction
    (P := fun es ep => Remembers codec (done codec language nodeId es) ep) ?_ ?_ hrun
  · constructor
    · intro id sn payload hmem
      cases hmem
    · intro id sn hid
      rw [view_new_filter] at hid
      cases hid
  · intro es ep e ep' hrun h hstep
    rw [done, StateMachine.trace_concat hrun hstep]
    exact h.step (step_move (machine_step hstep))

/-- **When every acknowledgement is justified.** In any run of a handler, in either
language, every acknowledged message is passed on or superseded if and only if all messages
that can be acknowledged are of the identity of the first one. -/
theorem acks_justified_iff (codec : Codec τ κ) (language : Language) (nodeId : NodeId)
    (es : List (HandlerEvent τ κ)) :
    AcksJustified codec language nodeId es ↔ FromOneNode codec language nodeId es := by
  constructor
  · intro h pre ep frame ok sn id payload hmeets hdec htakes
    -- what the filter holds decides whether a message is passed on
    have hrem := run_remembers hmeets.2
    rcases h pre ep _ sn id hmeets ((ackQueued_iff hdec).mpr htakes) with
      ⟨payload', hmem⟩ | ⟨sn', payload', hmem, -⟩
    · -- passed on in the same step: the filter has let it through
      obtain ⟨ep', hstep⟩ := step_of_mem_effects hmem
      rcases (step_move hstep).handled_cases with
        ⟨-, hnone⟩ | ⟨_, _, id', sn', _, -, -, hpass, -, -, honly⟩
      · exact absurd hmem (hnone id sn payload')
      · obtain ⟨rfl, rfl, -⟩ := honly id sn payload' hmem
        rcases (ep.view codec).filter.next_cases id sn with ⟨-, -, -, hsame, -⟩ | ⟨hstop, -⟩
        · exact hsame
        · rw [hstop] at hpass
          cases hpass
    · exact Or.inr (hrem.identity id sn' payload' hmem)
  · intro h pre ep e sn id hmeets hack
    have hrem := run_remembers hmeets.2
    obtain ⟨ep', hstep⟩ := step_of_mem_effects hack
    have hmove := step_move hstep
    obtain ⟨frame, ok, payload, rfl, hdec⟩ := hmove.ackQueued hack
    have hsame := h pre ep frame ok sn id payload hmeets hdec ((ackQueued_iff hdec).mp hack)
    rcases (ep.view codec).filter.next_cases id sn with
      ⟨hpass, -⟩ | ⟨-, id', last, hid, hlast, hwhy⟩
    · exact Or.inl ⟨payload, hmove.handled_of_pass hdec hpass⟩
    · -- filtered, for being late
      have hid' : id' = id := by
        rcases hsame with hnone | hsome
        · exact absurd (hnone.symm.trans hid) (by simp)
        · exact Option.some.inj (hid.symm.trans hsome)
      subst hid'
      obtain ⟨payload', hmem⟩ := hrem.last id' last hid hlast
      exact Or.inr ⟨last, payload', hmem, hwhy.resolve_left (not_not.mpr rfl)⟩

/-- A peer is restarted: the browser page is loaded again, say. -/
def restartedPeer : List (HandlerEvent Unit (TransportMsg Unit)) :=
  [.receive (.normal 3 "first" ()) true, .receive (.normal 0 "second" ()) true]

/-- The first message of the restarted peer is acknowledged and thrown away, in both
languages. -/
theorem restartedPeer_not_justified :
    ¬ AcksJustified (.identity Unit) .rust "self" restartedPeer ∧
      ¬ AcksJustified (.identity Unit) .typeScript "self" restartedPeer := by
  let first : HandlerEvent Unit (TransportMsg Unit) := .receive (.normal 3 "first" ()) true
  let second : HandlerEvent Unit (TransportMsg Unit) := .receive (.normal 0 "second" ()) true
  constructor
  · intro h
    let ep := ((Endpoint.new .rust "self").step (.identity Unit) first).get rfl
    have heff : effects (.identity Unit) ep.1 second = [.ackQueued 0 "second"] := rfl
    have hdone : done (.identity Unit) .rust "self" [first] =
        [.ackQueued 3 "first", .handled "first" 3 ()] := rfl
    have hmeets : Meets (.identity Unit) .rust "self" restartedPeer [first] ep.1 second :=
      ⟨⟨[], rfl⟩, rfl⟩
    rcases h [first] ep.1 second 0 "second" hmeets
      (by rw [heff]; exact List.mem_singleton_self _) with
      ⟨payload, hmem⟩ | ⟨sn, payload, hmem, -⟩
    · simp [heff] at hmem
    · simp [hdone] at hmem
  · intro h
    let ep := ((Endpoint.new .typeScript "self").step (.identity Unit) first).get rfl
    have heff : effects (.identity Unit) ep.1 second =
        [.ackQueued 0 "second", .wire (.ack 0 "self") (some "second")] := rfl
    have hdone : done (.identity Unit) .typeScript "self" [first] =
        [.ackQueued 3 "first", .wire (.ack 3 "self") (some "first"), .handled "first" 3 ()] := rfl
    have hmeets : Meets (.identity Unit) .typeScript "self" restartedPeer [first] ep.1 second :=
      ⟨⟨[], rfl⟩, rfl⟩
    rcases h [first] ep.1 second 0 "second" hmeets (by rw [heff]; exact List.mem_cons_self ..) with
      ⟨payload, hmem⟩ | ⟨sn, payload, hmem, -⟩
    · simp [heff] at hmem
    · simp [hdone] at hmem

end Endpoint

end Vamp
