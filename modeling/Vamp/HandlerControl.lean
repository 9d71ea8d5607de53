import Vamp.Acknowledgements

/-!
# A cancelled transport handler

`TransportHandlerControl` of `ws_node_handler.rs` lets others cancel a Rust `TransportHandler`.
What it cancels is the token of the acknowledging task; the `WsNode` below has a token of its
own, which only `stop` cancels. So a cancelled handler goes on receiving: it passes messages on,
but does not acknowledge them any more (`silent_iff`).
-/

namespace Vamp

namespace Rs

variable {τ κ : Type}

/-- A `TransportHandler` with its two tasks. -/
structure ControlledHandler (τ κ : Type) : Type where
  /-- the handler -/
  handler : TransportHandler τ κ
  /-- `stopper` is cancelled -/
  cancelled : Bool
  /-- the acknowledging task runs -/
  ackTask : Bool
  /-- `stop` has been called, which consumes the handler -/
  stopping : Bool
  /-- the `WsNode` has been stopped -/
  stopped : Bool

/-- What such a handler meets with. -/
inductive ControlEvent (τ κ : Type) : Type where
  /-- as before -/
  | handler (e : HandlerEvent τ κ)
  /-- the connection is lost, and made again -/
  | reconnect
  /-- `TransportHandlerControl::cancel` -/
  | cancel
  /-- the acknowledging task sees that it is cancelled -/
  | ackTaskEnds
  /-- `stop` is called -/
  | stop
  /-- `stop` has stopped the `WsNode` -/
  | wsNodeStops

namespace ControlledHandler

/-- `TransportHandler::new`. -/
def new (nodeId : NodeId) : ControlledHandler τ κ := ⟨.new nodeId, false, true, false, false⟩

/-- A frame comes in. When the acknowledging task has ended, its queue is gone, and `try_send`
fails. -/
def receive (codec : Codec τ κ) (s : ControlledHandler τ κ) (frame : κ) :
    ControlledHandler τ κ × List (Effect τ κ) :=
  let (h, effects) := s.handler.wsNodeHandle codec frame
  if s.ackTask then ({ s with handler := h }, effects)
  else ({ s with handler := { h with ackQ := [] } }, effects.filter Effect.isHandled)

/-- One step of the handler or one of its tasks. -/
def step (codec : Codec τ κ) (s : ControlledHandler τ κ) :
    ControlEvent τ κ → Option (ControlledHandler τ κ × List (Effect τ κ))
  | .handler (.receive frame _) => if s.stopped then none else some (s.receive codec frame)
  | .handler .ackTask =>
    if s.ackTask then
      (s.handler.step codec .ackTask).map (Prod.map (fun h => { s with handler := h }) id)
    else none
  | .handler e =>
    if s.stopping then none
    else (s.handler.step codec e).map (Prod.map (fun h => { s with handler := h }) id)
  -- the loop of the `WsNode` hands its closure to the next connection
  | .reconnect => if s.stopped then none else some (s, [])
  | .cancel => some ({ s with cancelled := true }, [])
  | .ackTaskEnds =>
    if s.cancelled && s.ackTask then
      some ({ s with ackTask := false, handler := { s.handler with ackQ := [] } }, [])
    else none
  | .stop =>
    if s.stopping then none else some ({ s with cancelled := true, stopping := true }, [])
  | .wsNodeStops =>
    if s.stopping && !s.ackTask then some ({ s with stopped := true }, []) else none

/-- The handler as a state machine. -/
def machine (codec : Codec τ κ) (nodeId : NodeId) :
    StateMachine (ControlledHandler τ κ) (ControlEvent τ κ) where
  init := .new nodeId
  step s e := (s.step codec e).map Prod.fst

/-- After `cancel`, nothing is passed to `message_handler`. -/
def Silent (codec : Codec τ κ) (nodeId : NodeId) (es : List (ControlEvent τ κ)) : Prop :=
  ∀ pre e post s r, es = pre ++ e :: post → (machine codec nodeId).run (.new nodeId) pre = some s →
    s.step codec e = some r → .cancel ∈ pre → r.2.filter Effect.isHandled = []

/-! ## What the filter has seen -/

/-- The messages that an event brings. -/
def normalOf (codec : Codec τ κ) : ControlEvent τ κ → List (NodeId × ℕ)
  | .handler (.receive frame _) =>
    match codec.decode frame with
    | .ok (.normal sn nodeId _) => [(nodeId, sn)]
    | _ => []
  | _ => []

/-- The messages that come in. -/
def normals (codec : Codec τ κ) (es : List (ControlEvent τ κ)) : List (NodeId × ℕ) :=
  es.flatMap (normalOf codec)

/-- A message is new: it is the first one, or of the same node as the first one, and later than all
others of that node. -/
def IsNew (seen : List (NodeId × ℕ)) (nodeId : NodeId) (sn : ℕ) : Prop :=
  ∀ first ∈ seen.head?, first.1 = nodeId ∧ ∀ m ∈ seen, m.1 = nodeId → m.2 < sn

/-- After `cancel`, no message comes in that is new. -/
def NothingNew (codec : Codec τ κ) (es : List (ControlEvent τ κ)) : Prop :=
  ∀ pre frame ok post sn nodeId payload, es = pre ++ .handler (.receive frame ok) :: post →
    .cancel ∈ pre → codec.decode frame = .ok (.normal sn nodeId payload) →
    ¬ IsNew (normals codec pre) nodeId sn

/-- What the filter knows of the messages that it has seen. -/
structure Knows (seen : List (NodeId × ℕ)) (f : SnFilter) : Prop where
  /-- it knows the first node -/
  first : f.nodeId = seen.head?.map Prod.fst
  /-- the last number is one of that node -/
  mem : ∀ id last, f.nodeId = some id → f.lastSn = some last → (id, last) ∈ seen
  /-- and the greatest -/
  greatest : ∀ last, f.lastSn = some last → ∀ m ∈ seen, f.nodeId = some m.1 → m.2 ≤ last

theorem knows_new : Knows [] .new where
  first := rfl
  mem _ _ h := nomatch h
  greatest _ h := nomatch h

/-- **What passes** is what is new. -/
theorem Knows.pass_iff {seen : List (NodeId × ℕ)} {f : SnFilter} (h : Knows seen f) (id : NodeId)
    (sn : ℕ) : (f.next id sn).2 = true ↔ IsNew seen id sn := by
  rcases f.next_cases id sn with
    ⟨hpass, -, -, hnode, hlast⟩ | ⟨hstop, id', last, hid', hlast, hwhy⟩
  · refine iff_of_true hpass ?_
    intro first hfirst
    have hid : f.nodeId = some first.1 := by rw [h.first, hfirst, Option.map_some]
    have hsame : f.nodeId = some id := by
      rcases hnode with hnone | hsome
      · cases hnone.symm.trans hid
      · exact hsome
    obtain ⟨last, hl⟩ : ∃ last, f.lastSn = some last := by
      rw [← Option.isSome_iff_exists, ← f.paired, hid]
      rfl
    refine ⟨Option.some.inj (hid.symm.trans hsame), fun m hm heq => ?_⟩
    have hle := h.greatest last hl m hm (heq ▸ hsame)
    have hlt := hlast last hl
    omega
  · rw [hstop]
    refine iff_of_false Bool.false_ne_true fun hnew => ?_
    rw [h.first, Option.map_eq_some_iff] at hid'
    obtain ⟨first, hfirst, rfl⟩ := hid'
    obtain ⟨hsame, hlater⟩ := hnew first hfirst
    have hnode : f.nodeId = some first.1 := by rw [h.first, hfirst, Option.map_some]
    have hlt := hlater _ (h.mem first.1 last hnode hlast) hsame
    rcases hwhy with hne | hle
    · exact hne hsame
    · omega

theorem Knows.next {seen : List (NodeId × ℕ)} {f : SnFilter} (h : Knows seen f) (id : NodeId)
    (sn : ℕ) : Knows (seen ++ [(id, sn)]) (f.next id sn).1 := by
  rcases f.next_cases id sn with
    ⟨-, hnode', hlast', hnode, hlast⟩ | ⟨hstop, id', last, hid', hlast, hwhy⟩
  · refine ⟨?_, ?_, ?_⟩
    · rw [hnode']
      cases hseen : seen with
      | nil => rfl
      | cons m ms =>
        have hfirst : f.nodeId = some m.1 := by rw [h.first, hseen]; rfl
        rcases hnode with hnone | hsome
        · cases hnone.symm.trans hfirst
        · exact hsome.symm.trans hfirst
    · intro id₁ last₁ hid₁ hlast₁
      obtain rfl := Option.some.inj (hnode'.symm.trans hid₁)
      obtain rfl := Option.some.inj (hlast'.symm.trans hlast₁)
      exact List.mem_append_right _ (List.mem_singleton_self _)
    · intro last₁ hlast₁ m hm hid
      obtain rfl := Option.some.inj (hlast'.symm.trans hlast₁)
      rcases List.mem_append.mp hm with hold | hnew
      · have hid' : f.nodeId = some m.1 := by
          obtain rfl := Option.some.inj (hnode'.symm.trans hid)
          rcases hnode with hnone | hsome
          · rw [h.first, Option.map_eq_none_iff, List.head?_eq_none_iff] at hnone
            rw [hnone] at hold
            cases hold
          · exact hsome
        obtain ⟨last, hl⟩ : ∃ last, f.lastSn = some last := by
          rw [← Option.isSome_iff_exists, ← f.paired, hid']
          rfl
        have hle := h.greatest last hl m hold hid'
        have hlt := hlast last hl
        omega
      · exact Nat.le_of_eq (congrArg Prod.snd (List.mem_singleton.mp hnew))
  · rw [hstop]
    have hne : seen ≠ [] := List.ne_nil_of_mem (h.mem id' last hid' hlast)
    refine ⟨?_, ?_, ?_⟩
    · obtain ⟨first, rest, rfl⟩ := List.exists_cons_of_ne_nil hne
      exact h.first
    · intro id₁ last₁ hid₁ hlast₁
      exact List.mem_append_left _ (h.mem id₁ last₁ hid₁ hlast₁)
    · intro last₁ hlast₁ m hm hid
      rcases List.mem_append.mp hm with hold | hnew
      · exact h.greatest last₁ hlast₁ m hold hid
      · obtain rfl := Option.some.inj (hlast.symm.trans hlast₁)
        rw [List.mem_singleton.mp hnew] at hid ⊢
        rcases hwhy with hother | hle
        · exact absurd (Option.some.inj (hid'.symm.trans hid)) hother
        · exact hle

/-! ## Runs -/

variable {codec : Codec τ κ} {nodeId : NodeId} {s : ControlledHandler τ κ}
  {r : ControlledHandler τ κ × List (Effect τ κ)} {e : ControlEvent τ κ}

/-- **What a step passes on**: a message that comes in and passes the filter, and nothing else. -/
inductive Passes (codec : Codec τ κ) (s : ControlledHandler τ κ) :
    ControlEvent τ κ → ControlledHandler τ κ × List (Effect τ κ) → Prop where
  /-- a message comes in -/
  | normal {frame : κ} {ok : Bool} {sn : ℕ} {id : NodeId} {payload : τ}
      {r : ControlledHandler τ κ × List (Effect τ κ)}
      (decoded : codec.decode frame = .ok (.normal sn id payload))
      (filter : r.1.handler.sequenceFilter = (s.handler.sequenceFilter.next id sn).1)
      (passed : r.2.filter Effect.isHandled =
        if (s.handler.sequenceFilter.next id sn).2 then [.handled id sn payload] else []) :
      Passes codec s (.handler (.receive frame ok)) r
  /-- anything else -/
  | quiet {e : ControlEvent τ κ} {r : ControlledHandler τ κ × List (Effect τ κ)}
      (none : normalOf codec e = [])
      (filter : r.1.handler.sequenceFilter = s.handler.sequenceFilter)
      (passed : r.2.filter Effect.isHandled = []) : Passes codec s e r

/-- A frame comes in. -/
theorem passes_receive (codec : Codec τ κ) (s : ControlledHandler τ κ) (frame : κ) (ok : Bool) :
    Passes codec s (.handler (.receive frame ok)) (s.receive codec frame) := by
  have hfilter : (s.receive codec frame).1.handler.sequenceFilter =
      (s.handler.wsNodeHandle codec frame).1.sequenceFilter := by
    unfold receive
    cases s.ackTask with
    | true => rfl
    | false => rfl
  have hpassed : (s.receive codec frame).2.filter Effect.isHandled =
      (s.handler.wsNodeHandle codec frame).2.filter Effect.isHandled := by
    unfold receive
    cases s.ackTask with
    | true => rfl
    | false => exact List.filter_filter.trans (congrArg (List.filter · _) (by simp))
  rcases (Endpoint.move_wsNodeHandle codec s.handler frame ok).receiver_cases with
    ⟨frame', ok', sn, id, payload, he, hdec, hnext, hhandled⟩ | ⟨hsame, hnone, hno⟩
  · cases he
    exact .normal hdec (hfilter.trans hnext) (hpassed.trans hhandled)
  · refine .quiet ?_ (hfilter.trans hsame) (hpassed.trans hnone)
    cases hdec : codec.decode frame with
    | error err => simp only [normalOf, hdec]
    | ok m =>
      cases m with
      | ack sn id => simp only [normalOf, hdec]
      | normal sn id payload => exact absurd hdec (hno frame ok sn id payload rfl)

/-- Any other step of the handler. -/
theorem passes_handler {e : HandlerEvent τ κ} {h : TransportHandler τ κ}
    {effects : List (Effect τ κ)} (hs : s.handler.step codec e = some (h, effects))
    (he : ∀ frame ok, e ≠ .receive frame ok) :
    Passes codec s (.handler e) ({ s with handler := h }, effects) := by
  rcases (Endpoint.move_rust hs).receiver_cases with
    ⟨frame, ok, _, _, _, heq, -⟩ | ⟨hsame, hnone, -⟩
  · exact absurd heq (he frame ok)
  · refine .quiet ?_ hsame hnone
    cases e with
    | receive frame ok => exact absurd rfl (he frame ok)
    | _ => rfl

theorem step_passes (hs : s.step codec e = some r) : Passes codec s e r := by
  have hother : ∀ {e : HandlerEvent τ κ} {stop : Bool}, (∀ frame ok, e ≠ .receive frame ok) →
      (if stop then none
        else (s.handler.step codec e).map (Prod.map (fun h => { s with handler := h }) id)) =
        some r → Passes codec s (.handler e) r := by
    intro e stop he hs
    obtain ⟨-, hs⟩ := Option.ite_none_left_eq_some.mp hs
    obtain ⟨⟨h, effects⟩, hstep, rfl⟩ := Option.map_eq_some_iff.mp hs
    exact passes_handler hstep he
  have hidle : ∀ {e : ControlEvent τ κ} {t : ControlledHandler τ κ}, normalOf codec e = [] →
      t.handler.sequenceFilter = s.handler.sequenceFilter → some (t, []) = some r →
      Passes codec s e r := by
    rintro e t hnone hfilter ⟨⟩
    exact .quiet hnone hfilter rfl
  cases e with
  | handler e =>
    cases e with
    | receive frame ok =>
      obtain ⟨-, hs⟩ := Option.ite_none_left_eq_some.mp hs
      obtain rfl := Option.some.inj hs
      exact passes_receive codec s frame ok
    | ackTask =>
      obtain ⟨-, hs⟩ := Option.ite_none_right_eq_some.mp hs
      obtain ⟨⟨h, effects⟩, hstep, rfl⟩ := Option.map_eq_some_iff.mp hs
      exact passes_handler hstep nofun
    | send payload ok => exact hother nofun hs
    | transmit ok => exact hother nofun hs
    | recvAck => exact hother nofun hs
    | abort reason => exact hother nofun hs
    | stop => exact hother nofun hs
  | reconnect =>
    obtain ⟨-, hs⟩ := Option.ite_none_left_eq_some.mp hs
    exact hidle rfl rfl hs
  | cancel => exact hidle (t := { s with cancelled := true }) rfl rfl hs
  | ackTaskEnds =>
    obtain ⟨-, hs⟩ := Option.ite_none_right_eq_some.mp hs
    refine hidle rfl ?_ hs
    rfl
  | stop =>
    obtain ⟨-, hs⟩ := Option.ite_none_left_eq_some.mp hs
    refine hidle rfl ?_ hs
    rfl
  | wsNodeStops =>
    obtain ⟨-, hs⟩ := Option.ite_none_right_eq_some.mp hs
    refine hidle rfl ?_ hs
    rfl

theorem machine_step_eq_some {s' : ControlledHandler τ κ} :
    (machine codec nodeId).step s e = some s' ↔ ∃ effects, s.step codec e = some (s', effects) := by
  have hstep : (machine codec nodeId).step s e = (s.step codec e).map Prod.fst := rfl
  rw [hstep, Option.map_eq_some_iff]
  constructor
  · rintro ⟨⟨s₁, effects⟩, h, rfl⟩
    exact ⟨effects, h⟩
  · rintro ⟨effects, h⟩
    exact ⟨_, h, rfl⟩

/-- **The filter remembers** what has come in. -/
theorem run_knows {es : List (ControlEvent τ κ)}
    (hrun : (machine codec nodeId).run (.new nodeId) es = some s) :
    Knows (normals codec es) s.handler.sequenceFilter := by
  refine StateMachine.run_induction (M := machine codec nodeId)
    (P := fun es s => Knows (normals codec es) s.handler.sequenceFilter) ?_ ?_ hrun
  · exact knows_new
  intro es s e s' _ h hs
  obtain ⟨effects, hs⟩ := machine_step_eq_some.mp hs
  have hnormals : normals codec (es ++ [e]) = normals codec es ++ normalOf codec e := by
    rw [normals, List.flatMap_append, List.flatMap_singleton, normals]
  rw [hnormals]
  cases step_passes hs with
  | normal decoded filter _ =>
    have hone : ∀ frame ok sn id payload, codec.decode frame = .ok (.normal sn id payload) →
        normalOf codec (.handler (.receive frame ok)) = [(id, sn)] := by
      intro frame ok sn id payload hdec
      simp only [normalOf, hdec]
    rw [hone _ _ _ _ _ decoded, filter]
    exact h.next _ _
  | quiet none filter _ =>
    rw [none, List.append_nil, filter]
    exact h

/-- **What a cancelled handler passes on**: it is silent if and only if nothing new comes in. -/
theorem silent_iff (codec : Codec τ κ) (nodeId : NodeId) {es : List (ControlEvent τ κ)}
    {s : ControlledHandler τ κ} (hrun : (machine codec nodeId).run (.new nodeId) es = some s) :
    Silent codec nodeId es ↔ NothingNew codec es := by
  constructor
  · intro h pre frame ok post sn id payload hsplit hcancel hdec hnew
    rw [hsplit] at hrun
    obtain ⟨s₁, hpre, hrest⟩ := StateMachine.run_append_eq_some.mp hrun
    obtain ⟨s₂, hs, -⟩ := StateMachine.run_cons_eq_some.mp hrest
    obtain ⟨effects, hs⟩ := machine_step_eq_some.mp hs
    have hsilent := h pre _ post s₁ _ hsplit hpre hs hcancel
    have hpass := ((run_knows hpre).pass_iff id sn).mpr hnew
    cases step_passes hs with
    | normal decoded filter passed =>
      obtain ⟨rfl, rfl, rfl⟩ : _ ∧ _ ∧ _ :=
        TransportMsg.normal.inj (Except.ok.inj (decoded.symm.trans hdec))
      rw [hsilent, hpass, if_pos rfl] at passed
      cases passed
    | quiet none filter passed =>
      simp only [normalOf, hdec] at none
      cases none
  · intro h pre e post s r hsplit hpre hs hcancel
    cases step_passes hs with
    | normal decoded filter passed =>
      rw [passed]
      split
      · case isTrue hpass =>
        exact absurd (((run_knows hpre).pass_iff _ _).mp hpass)
          (h pre _ _ post _ _ _ hsplit hcancel decoded)
      · rfl
    | quiet none filter passed => exact passed

/-- A handler is cancelled, and a message comes in. -/
def cancelledEarly : List (ControlEvent Unit (TransportMsg Unit)) :=
  [.cancel, .ackTaskEnds, .handler (.receive (.normal 0 "peer" ()) true)]

/-- The message is passed on, without an acknowledgement. -/
theorem cancelledEarly_not_silent : ¬ Silent (.identity Unit) "self" cancelledEarly := by
  intro h
  have hsilent := h (cancelledEarly.take 2) _ [] _ _ rfl (Option.some_get rfl).symm
    (Option.some_get rfl).symm (List.mem_cons_self ..)
  cases hsilent

/-- A message comes in twice, and the handler is cancelled between. -/
def cancelledLate : List (ControlEvent Unit (TransportMsg Unit)) :=
  [.handler (.receive (.normal 0 "peer" ()) true), .cancel, .reconnect,
    .handler (.receive (.normal 0 "peer" ()) true)]

theorem silent_iff_cancelledLate :
    Silent (.identity Unit) "self" cancelledLate ↔ NothingNew (.identity Unit) cancelledLate :=
  silent_iff (.identity Unit) "self" (Option.some_get rfl).symm

end ControlledHandler

end Rs

end Vamp
