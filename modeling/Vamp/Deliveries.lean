import Vamp.Acknowledgements

/-!
# The deliveries of a TypeScript handler

`send_and_wait_ack_repeated` of `transport_handler.ts` in full. Every delivery has a promise, a
timer, an abort controller and two listeners, and they outlive it: a timer or an abort of an old
delivery may come when there is a new one. What keeps them apart is the cleanup, which is
the same for all ways in which a delivery ends (`one_at_a_time`).

`Ts.TransportHandler` has only the delivery that is awaited. That this is enough is shown at
the end: every step here is a step there, or nothing (`step_refines`).
-/

namespace Vamp

namespace Ts

variable {τ κ : Type}

/-! ## The handler -/

/-- What belongs to one delivery. -/
structure Delivery (τ : Type) : Type where
  /-- the number of the message -/
  sn : ℕ
  /-- the message -/
  msg : TransportMsg τ
  /-- `timer` is set -/
  timer : Bool
  /-- `onAbort` listens to the signal of the handler -/
  onAbort : Bool
  /-- `onDeliveryAbort` listens to the controller of the delivery -/
  onDeliveryAbort : Bool
  /-- the controller has been aborted -/
  controllerAborted : Bool
  /-- the calls of `settle`; only the first one counts for the promise -/
  settled : List (MyRes Unit)

/-- A delivery up to its first transmission. -/
def Delivery.fresh (sn : ℕ) (msg : TransportMsg τ) : Delivery τ :=
  ⟨sn, msg, false, true, true, false, []⟩

/-- `TransportHandler`, with all its deliveries. -/
structure DeliveringHandler (τ : Type) : Type where
  /-- `awaited_delivery`: which one -/
  awaitedDelivery : Option ℕ
  /-- the deliveries, oldest first -/
  deliveries : List (Delivery τ)
  /-- the number of the last message -/
  seqNumOut : ℕ
  /-- the identity of this endpoint -/
  nodeIdOut : NodeId
  /-- whether `signal` is aborted -/
  aborted : Bool
  /-- `sn_filter` -/
  snFilter : SnFilter

/-- What a handler does, and for which delivery. -/
abbrev Deeds (τ κ : Type) : Type := List (Option ℕ × Effect τ κ)

namespace DeliveringHandler

/-- The constructor. -/
def new (nodeId : NodeId) : DeliveringHandler τ where
  awaitedDelivery := none
  deliveries := []
  seqNumOut := 0
  nodeIdOut := nodeId
  aborted := false
  snFilter := .new

/-- Something changes for one delivery. -/
def update (h : DeliveringHandler τ) (i : ℕ) (f : Delivery τ → Delivery τ) :
    DeliveringHandler τ :=
  { h with deliveries := h.deliveries.modify i f }

/-- `cleanup`. -/
def cleanup (h : DeliveringHandler τ) (i : ℕ) : DeliveringHandler τ :=
  { h.update i fun d => { d with timer := false, onAbort := false, onDeliveryAbort := false } with
    awaitedDelivery := none }

/-- `settle`. -/
def settle (h : DeliveringHandler τ) (i : ℕ) (res : MyRes Unit) :
    DeliveringHandler τ × Deeds τ κ :=
  match h.deliveries[i]? with
  | some d =>
    ((h.cleanup i).update i fun d => { d with settled := d.settled ++ [res] },
      if d.settled.isEmpty then [(some i, .returned d.sn res)] else [])
  | none => (h, [])

/-- `abort_controller.abort`. The listener is called once. -/
def abortController (h : DeliveringHandler τ) (i : ℕ) (reason : String) :
    DeliveringHandler τ × Deeds τ κ :=
  match h.deliveries[i]? with
  | some d =>
    if d.controllerAborted then (h, [])
    else if d.onDeliveryAbort then
      (h.update i fun d => { d with controllerAborted := true, onDeliveryAbort := false }).settle i
        (.error (.text reason))
    else (h.update i fun d => { d with controllerAborted := true }, [])
  | none => (h, [])

/-- `abort_current_delivery`. -/
def abortCurrentDelivery (h : DeliveringHandler τ) (reason : String) :
    DeliveringHandler τ × Deeds τ κ :=
  match h.awaitedDelivery with
  | some i => h.abortController i reason
  | none => (h, [])

/-- `onAbort` of one delivery, if it still listens. -/
def onAbort (r : DeliveringHandler τ × Deeds τ κ) (i : ℕ) : DeliveringHandler τ × Deeds τ κ :=
  if (r.1.deliveries[i]?).any Delivery.onAbort then
    let (h, deeds) := (r.1.update i fun d => { d with onAbort := false }).abortController i
      "send aborted"
    (h, r.2 ++ deeds)
  else r

/-- `signal.abort`. -/
def abortSignal (h : DeliveringHandler τ) : DeliveringHandler τ × Deeds τ κ :=
  if h.aborted then (h, [])
  else (List.range h.deliveries.length).foldl onAbort ({ h with aborted := true }, [])

/-- `stop`. -/
def stop (h : DeliveringHandler τ) : DeliveringHandler τ × Deeds τ κ :=
  let (h, deeds) := h.abortCurrentDelivery "send aborted"
  let (h, deeds') := h.abortSignal
  (h, deeds ++ deeds')

/-- `resend`: the sender may throw, and the timer is set again anyway. -/
def resend (codec : Codec τ κ) (ok : Bool) (h : DeliveringHandler τ) (i : ℕ) :
    DeliveringHandler τ × Deeds τ κ :=
  match h.deliveries[i]? with
  | some d =>
    (h.update i fun d => { d with timer := true },
      (TransportHandler.resend codec ok d.msg).map fun eff => (some i, eff))
  | none => (h, [])

/-- `send_and_wait_ack_repeated`. -/
def sendAndWaitAckRepeated (codec : Codec τ κ) (h : DeliveringHandler τ) (msg : TransportMsg τ)
    (sn : ℕ) (ok : Bool) : DeliveringHandler τ × Deeds τ κ :=
  if h.awaitedDelivery.isSome then (h, [(none, .refused (.text "send already in progress"))])
  else
    let i := h.deliveries.length
    let (h, deeds) :=
      resend codec ok { h with deliveries := h.deliveries ++ [Delivery.fresh sn msg] } i
    ({ h with awaitedDelivery := some i }, deeds)

/-- `send`. -/
def send (codec : Codec τ κ) (h : DeliveringHandler τ) (payload : τ) (ok : Bool) :
    DeliveringHandler τ × Deeds τ κ :=
  if h.awaitedDelivery.isSome then (h, [(none, .refused (.text "send already in progress"))])
  else if h.aborted then (h, [(none, .refused (.text "send aborted"))])
  else
    let h := { h with seqNumOut := h.seqNumOut + 1 }
    let sn := h.seqNumOut
    let (h', deeds) := h.sendAndWaitAckRepeated codec (.normal sn h.nodeIdOut payload) sn ok
    (h', (some h.deliveries.length, .sent sn payload) :: deeds)

/-- `handle_incoming`, after decoding. -/
def handleIncoming (codec : Codec τ κ) (h : DeliveringHandler τ) (ok : Bool) :
    TransportMsg τ → DeliveringHandler τ × Deeds τ κ
  | .ack sn _ =>
    match h.awaitedDelivery with
    | some i =>
      if (h.deliveries[i]?).any (·.sn = sn) then
        let (h, deeds) := h.settle i (.ok ())
        ({ h with awaitedDelivery := none }, deeds)
      else (h, [])
    | none => (h, [])
  | .normal sn nodeId payload =>
    let (filter, accepted) := h.snFilter.accept nodeId sn
    ({ h with snFilter := filter },
      ((match TransportHandler.sender codec ok (.ack sn h.nodeIdOut) with
        | some frame => [.ackQueued sn nodeId, .wire frame (some nodeId)]
        | none => []) ++
        if accepted then [.handled nodeId sn payload] else []).map fun eff => (none, eff))

end DeliveringHandler

/-- What can happen to a handler and its deliveries. -/
inductive DeliveryEvent (τ κ : Type) : Type where
  /-- `send` is called -/
  | send (payload : τ) (ok : Bool) : DeliveryEvent τ κ
  /-- the timer of a delivery fires -/
  | timer (i : ℕ) (ok : Bool) : DeliveryEvent τ κ
  /-- a frame comes in -/
  | receive (frame : κ) (ok : Bool) : DeliveryEvent τ κ
  /-- the controller of a delivery is aborted by the caller of `send` -/
  | abort (i : ℕ) (reason : String) : DeliveryEvent τ κ
  /-- `abort_current_delivery` is called -/
  | abortCurrent (reason : String) : DeliveryEvent τ κ
  /-- `stop` is called -/
  | stop : DeliveryEvent τ κ

/-- Whether an event is a call of `stop`. -/
def DeliveryEvent.isStop : DeliveryEvent τ κ → Bool
  | .stop => true
  | _ => false

namespace DeliveringHandler

/-- One step of the handler. -/
def step (codec : Codec τ κ) (h : DeliveringHandler τ) :
    DeliveryEvent τ κ → Option (DeliveringHandler τ × Deeds τ κ)
  | .send payload ok => some (h.send codec payload ok)
  | .timer i ok =>
    if (h.deliveries[i]?).any Delivery.timer then some (resend codec ok h i) else none
  | .receive frame ok =>
    match codec.decode frame with
    | .ok msg => some (h.handleIncoming codec ok msg)
    | .error _ => some (h, [])
  | .abort i reason => if i < h.deliveries.length then some (h.abortController i reason) else none
  | .abortCurrent reason => some (h.abortCurrentDelivery reason)
  | .stop => some h.stop

/-- The handler as a state machine. -/
def machine (codec : Codec τ κ) (nodeId : NodeId) :
    StateMachine (DeliveringHandler τ) (DeliveryEvent τ κ) where
  init := .new nodeId
  step h e := (h.step codec e).map Prod.fst

end DeliveringHandler

/-! ## What a step can do -/

/-- A list in which one element is changed. -/
theorem modify_eq_set {α : Type} {xs : List α} {i : ℕ} {x : α} (h : xs[i]? = some x) (f : α → α) :
    xs.modify i f = xs.set i (f x) := by
  refine List.ext_getElem? fun j => ?_
  rw [List.getElem?_modify, List.getElem?_set]
  split
  · case isTrue hij =>
    subst hij
    rw [h, if_pos (List.getElem?_eq_some_iff.mp h).1]
    rfl
  · cases xs[j]? with
    | none => rfl
    | some y => rfl

/-- Putting an element where it already is. -/
theorem set_of_getElem? {α : Type} {xs : List α} {i : ℕ} {x : α} (h : xs[i]? = some x) :
    xs.set i x = xs := by
  obtain ⟨hlt, rfl⟩ := List.getElem?_eq_some_iff.mp h
  exact List.set_getElem_self hlt

/-- What is in a list in which one element is changed. -/
theorem getElem?_set_cases {α : Type} {xs : List α} {i j : ℕ} {x y : α}
    (h : (xs.set i x)[j]? = some y) : (i = j ∧ x = y) ∨ (i ≠ j ∧ xs[j]? = some y) := by
  rw [List.getElem?_set] at h
  split at h
  · case isTrue hij => exact .inl ⟨hij, Option.some.inj (Option.ite_none_right_eq_some.mp h).2⟩
  · case isFalse hij => exact .inr ⟨hij, h⟩

namespace Delivery

/-- The delivery after `settle`. -/
def finish (d : Delivery τ) (res : MyRes Unit) : Delivery τ :=
  { d with
    timer := false
    onAbort := false
    onDeliveryAbort := false
    settled := d.settled ++ [res] }

/-- The delivery is in progress. -/
structure Alive (d : Delivery τ) : Prop where
  /-- the message will be sent again -/
  timer : d.timer = true
  /-- `stop` can end it -/
  onAbort : d.onAbort = true
  /-- its controller can end it -/
  onDeliveryAbort : d.onDeliveryAbort = true
  /-- but has not -/
  controller : d.controllerAborted = false
  /-- nor anything else -/
  settled : d.settled = []

/-- The delivery has ended, and nothing can happen to it. -/
structure Dead (d : Delivery τ) : Prop where
  /-- the message will not be sent again -/
  timer : d.timer = false
  /-- nobody listens to `stop` -/
  onAbort : d.onAbort = false
  /-- nor to the controller -/
  onDeliveryAbort : d.onDeliveryAbort = false
  /-- it has ended once -/
  settled : d.settled.length = 1

/-- It makes no difference to a delivery that has ended whether its controller is aborted. -/
theorem Dead.setController {d : Delivery τ} (h : d.Dead) (aborted : Bool) :
    { d with controllerAborted := aborted }.Dead :=
  ⟨h.timer, h.onAbort, h.onDeliveryAbort, h.settled⟩

theorem Alive.finish {d : Delivery τ} (h : d.Alive) (res : MyRes Unit) : (d.finish res).Dead where
  timer := rfl
  onAbort := rfl
  onDeliveryAbort := rfl
  settled := by rw [Delivery.finish, h.settled]; rfl

end Delivery

namespace DeliveringHandler

/-- What is known of a handler. -/
structure Inv (h : DeliveringHandler τ) : Prop where
  /-- the awaited delivery is in progress, and the last one -/
  alive : ∀ i, h.awaitedDelivery = some i →
    i + 1 = h.deliveries.length ∧ ∃ d, h.deliveries[i]? = some d ∧ d.Alive
  /-- all others have ended -/
  dead : ∀ i d, h.deliveries[i]? = some d → h.awaitedDelivery ≠ some i → d.Dead
  /-- deliveries are numbered -/
  numbered : ∀ i d, h.deliveries[i]? = some d → d.sn = i + 1
  /-- the next number is a new one -/
  next : h.seqNumOut = h.deliveries.length

theorem inv_new (nodeId : NodeId) : (new nodeId : DeliveringHandler τ).Inv where
  alive _ h := nomatch h
  dead _ _ h := nomatch h
  numbered _ _ h := nomatch h
  next := rfl

variable {codec : Codec τ κ} {h : DeliveringHandler τ} {i : ℕ} {d : Delivery τ}

/-- `settle`, the first time. -/
theorem settle_eq (hd : h.deliveries[i]? = some d) (hfirst : d.settled = []) (res : MyRes Unit) :
    h.settle i res = ({ h with
      awaitedDelivery := none
      deliveries := h.deliveries.set i (d.finish res) },
      ([(some i, .returned d.sn res)] : Deeds τ κ)) := by
  simp only [settle, hd, hfirst, List.isEmpty_nil, if_true, cleanup, update,
    List.modify_modify_eq]
  rw [modify_eq_set hd]
  simp only [Function.comp_apply, hfirst, Delivery.finish]

/-- The controller of a delivery in progress is aborted. -/
theorem abortController_of_alive (hd : h.deliveries[i]? = some d) (halive : d.Alive)
    (reason : String) :
    h.abortController i reason = ({ h with
      awaitedDelivery := none
      deliveries := h.deliveries.set i
        { d.finish (.error (.text reason)) with controllerAborted := true } },
      ([(some i, .returned d.sn (.error (.text reason)))] : Deeds τ κ)) := by
  have hlt : i < h.deliveries.length := (List.getElem?_eq_some_iff.mp hd).1
  have hset : (h.update i fun d => { d with
      controllerAborted := true
      onDeliveryAbort := false }).deliveries[i]? =
        some { d with controllerAborted := true, onDeliveryAbort := false } := by
    rw [update, modify_eq_set hd, List.getElem?_set_self hlt]
  simp only [abortController, hd, halive.controller, halive.onDeliveryAbort, Bool.false_eq_true,
    if_false, if_true]
  rw [settle_eq hset halive.settled]
  simp only [update, modify_eq_set hd, List.set_set, Delivery.finish]

/-- The controller of an old delivery is aborted. -/
theorem abortController_of_dead (hd : h.deliveries[i]? = some d) (hdead : d.Dead)
    (reason : String) :
    h.abortController i reason = ({ h with
      deliveries := h.deliveries.set i { d with controllerAborted := true } },
      ([] : Deeds τ κ)) := by
  unfold abortController
  rw [hd]
  dsimp only
  split
  · case isTrue haborted =>
    have hsame : { d with controllerAborted := true } = d := by rw [← haborted]
    rw [hsame, set_of_getElem? hd]
  · rw [if_neg (by rw [hdead.onDeliveryAbort]; exact Bool.false_ne_true), update, modify_eq_set hd]

/-- When nobody listens, nothing happens. -/
theorem abortSignal_of_quiet (hquiet : ∀ d ∈ h.deliveries, d.onAbort = false) :
    h.abortSignal = ({ h with aborted := true }, ([] : Deeds τ κ)) := by
  unfold abortSignal
  split
  · case isTrue haborted => rw [← haborted]
  · have hone : ∀ i, onAbort (κ := κ) ({ h with aborted := true }, []) i =
        ({ h with aborted := true }, []) := by
      intro i
      refine if_neg ?_
      dsimp only
      cases hd : h.deliveries[i]? with
      | none => simp
      | some d => simp [hquiet d (List.mem_of_getElem? hd)]
    generalize List.range h.deliveries.length = is
    induction is with
    | nil => rfl
    | cons i is ih => rw [List.foldl_cons, hone, ih]

/-- What ends a delivery, and how. -/
inductive Ends (codec : Codec τ κ) (i : ℕ) (d : Delivery τ) :
    DeliveryEvent τ κ → MyRes Unit → Prop
  /-- its acknowledgement -/
  | ack (frame : κ) (ok : Bool) (nodeId : NodeId)
      (hdec : codec.decode frame = .ok (.ack d.sn nodeId)) :
    Ends codec i d (.receive frame ok) (.ok ())
  /-- the caller of `send` -/
  | abort (reason : String) : Ends codec i d (.abort i reason) (.error (.text reason))
  /-- `abort_current_delivery` -/
  | abortCurrent (reason : String) :
    Ends codec i d (.abortCurrent reason) (.error (.text reason))
  /-- `stop` -/
  | stop : Ends codec i d .stop (.error (.text "send aborted"))

/-- What a step can do. -/
inductive Turn (codec : Codec τ κ) (h : DeliveringHandler τ) :
    DeliveryEvent τ κ → DeliveringHandler τ → Deeds τ κ → Prop
  /-- a delivery begins -/
  | accepted (payload : τ) (ok : Bool) (msg : TransportMsg τ)
    (hmsg : msg = .normal (h.seqNumOut + 1) h.nodeIdOut payload)
    (hfree : h.awaitedDelivery = none) (hopen : h.aborted = false) :
    Turn codec h (.send payload ok)
      { h with
        awaitedDelivery := some h.deliveries.length
        deliveries := h.deliveries ++ [{ Delivery.fresh (h.seqNumOut + 1) msg with timer := true }]
        seqNumOut := h.seqNumOut + 1 }
      ((some h.deliveries.length, .sent (h.seqNumOut + 1) payload) ::
        (TransportHandler.resend codec ok msg).map fun eff => (some h.deliveries.length, eff))
  /-- a payload is refused -/
  | refused (payload : τ) (ok : Bool) (err : String)
    (herr : h.awaitedDelivery.isSome = true ∧ err = "send already in progress" ∨
      h.awaitedDelivery = none ∧ h.aborted = true ∧ err = "send aborted") :
    Turn codec h (.send payload ok) h [(none, .refused (.text err))]
  /-- the message goes out again -/
  | resent (i : ℕ) (ok : Bool) (d : Delivery τ) (hi : h.deliveries[i]? = some d)
    (hawaited : h.awaitedDelivery = some i) :
    Turn codec h (.timer i ok) h
      ((TransportHandler.resend codec ok d.msg).map fun eff => (some i, eff))
  /-- a delivery ends -/
  | settled (e : DeliveryEvent τ κ) (i : ℕ) (d : Delivery τ) (res : MyRes Unit)
    (controller aborted : Bool) (hi : h.deliveries[i]? = some d)
    (hawaited : h.awaitedDelivery = some i) (hends : Ends codec i d e res)
    (haborted : aborted = (h.aborted || e.isStop)) :
    Turn codec h e
      { h with
        awaitedDelivery := none
        deliveries := h.deliveries.set i { d.finish res with controllerAborted := controller }
        aborted := aborted }
      [(some i, .returned d.sn res)]
  /-- the controller of an old delivery is aborted -/
  | late (i : ℕ) (reason : String) (d : Delivery τ) (hi : h.deliveries[i]? = some d)
    (hold : h.awaitedDelivery ≠ some i) :
    Turn codec h (.abort i reason)
      { h with deliveries := h.deliveries.set i { d with controllerAborted := true } } []
  /-- a message comes in -/
  | answered (frame : κ) (ok : Bool) (sn : ℕ) (nodeId : NodeId) (payload : τ)
    (hdec : codec.decode frame = .ok (.normal sn nodeId payload)) :
    Turn codec h (.receive frame ok)
      { h with snFilter := (h.snFilter.accept nodeId sn).1 }
      (((match TransportHandler.sender codec ok (.ack sn h.nodeIdOut) with
        | some frame => [.ackQueued sn nodeId, .wire frame (some nodeId)]
        | none => []) ++
        if (h.snFilter.accept nodeId sn).2 then [.handled nodeId sn payload] else []).map
          fun eff => (none, eff))
  /-- a frame that is no message, or an acknowledgement that is not awaited -/
  | ignored (frame : κ) (ok : Bool)
    (hdec : ∀ msg, codec.decode frame = .ok msg → ∃ sn nodeId, msg = .ack sn nodeId ∧
      ∀ i d, h.awaitedDelivery = some i → h.deliveries[i]? = some d → d.sn ≠ sn) :
    Turn codec h (.receive frame ok) h []
  /-- there is no delivery to abort -/
  | idle (reason : String) (hfree : h.awaitedDelivery = none) :
    Turn codec h (.abortCurrent reason) h []
  /-- the handler stops between two deliveries -/
  | stopped (hfree : h.awaitedDelivery = none) :
    Turn codec h .stop { h with aborted := true } []

theorem resend_eq (hd : h.deliveries[i]? = some d) (ok : Bool) :
    h.resend codec ok i = ({ h with deliveries := h.deliveries.set i { d with timer := true } },
      (TransportHandler.resend codec ok d.msg).map fun eff => (some i, eff)) := by
  simp only [resend, hd, update, modify_eq_set hd]

theorem send_turn (payload : τ) (ok : Bool) :
    Turn codec h (.send payload ok) (h.send codec payload ok).1 (h.send codec payload ok).2 := by
  unfold send
  split
  · case isTrue hsome => exact .refused payload ok _ (.inl ⟨hsome, rfl⟩)
  · case isFalse hnone =>
    have hfree : h.awaitedDelivery = none := by simpa using hnone
    split
    · case isTrue haborted => exact .refused payload ok _ (.inr ⟨hfree, haborted, rfl⟩)
    · case isFalse hopen =>
      have hlast : (h.deliveries ++ [Delivery.fresh (h.seqNumOut + 1)
          (.normal (h.seqNumOut + 1) h.nodeIdOut payload)])[h.deliveries.length]? =
            some (.fresh _ _) := List.getElem?_concat_length
      simp only [sendAndWaitAckRepeated, hfree, Option.isSome_none, Bool.false_eq_true, if_false]
      rw [resend_eq hlast]
      simp only [List.set_append_right _ _ (Nat.le_refl _), Nat.sub_self, List.set_cons_zero]
      exact .accepted payload ok _ rfl hfree (by simpa using hopen)

theorem abortController_turn (hinv : h.Inv) {e : DeliveryEvent τ κ} {reason : String}
    (hi : h.awaitedDelivery = some i)
    (hends : ∀ d, h.deliveries[i]? = some d → Ends codec i d e (.error (.text reason)))
    (hrun : e.isStop = false) :
    Turn codec h e (h.abortController (κ := κ) i reason).1 (h.abortController i reason).2 := by
  obtain ⟨-, d, hd, halive⟩ := hinv.alive i hi
  rw [abortController_of_alive hd halive]
  exact .settled e i d _ true h.aborted hd hi (hends d hd) (by rw [hrun, Bool.or_false])

theorem abort_turn (hinv : h.Inv) (reason : String) (hlt : i < h.deliveries.length) :
    Turn codec h (.abort i reason) (h.abortController (κ := κ) i reason).1
      (h.abortController i reason).2 := by
  by_cases hi : h.awaitedDelivery = some i
  · exact abortController_turn hinv hi (fun d _ => .abort reason) rfl
  · have hd : h.deliveries[i]? = some h.deliveries[i] := List.getElem?_eq_getElem hlt
    rw [abortController_of_dead hd (hinv.dead i _ hd hi)]
    exact .late i reason _ hd hi

theorem abortCurrentDelivery_turn (hinv : h.Inv) (reason : String) :
    Turn codec h (.abortCurrent reason) (h.abortCurrentDelivery (κ := κ) reason).1
      (h.abortCurrentDelivery reason).2 := by
  unfold abortCurrentDelivery
  cases hi : h.awaitedDelivery with
  | none => exact .idle reason hi
  | some i => exact abortController_turn hinv hi (fun d _ => .abortCurrent reason) rfl

/-- Everybody else has gone: the signal of a handler is heard by nobody. -/
theorem stop_turn (hinv : h.Inv) :
    Turn codec h .stop (h.stop (κ := κ)).1 h.stop.2 := by
  unfold stop abortCurrentDelivery
  cases hi : h.awaitedDelivery with
  | none =>
    have hquiet : ∀ d ∈ h.deliveries, d.onAbort = false := by
      intro d hmem
      obtain ⟨i, hd⟩ := List.getElem?_of_mem hmem
      exact (hinv.dead i d hd (by rw [hi]; exact nofun)).onAbort
    dsimp only
    rw [abortSignal_of_quiet hquiet]
    exact .stopped hi
  | some i =>
    obtain ⟨-, d, hd, halive⟩ := hinv.alive i hi
    dsimp only
    rw [abortController_of_alive hd halive]
    dsimp only
    rw [abortSignal_of_quiet]
    · exact .settled .stop i d _ true true hd hi .stop (Bool.or_true _).symm
    · intro d' hmem
      obtain ⟨j, hd'⟩ := List.getElem?_of_mem hmem
      rcases getElem?_set_cases hd' with ⟨-, rfl⟩ | ⟨hne, hd'⟩
      · rfl
      · exact (hinv.dead j d' hd' (by rw [hi]; exact fun h => hne (Option.some.inj h))).onAbort

theorem receive_turn (hinv : h.Inv) {frame : κ} {msg : TransportMsg τ} (ok : Bool)
    (hdec : codec.decode frame = .ok msg) :
    Turn codec h (.receive frame ok) (h.handleIncoming codec ok msg).1
      (h.handleIncoming codec ok msg).2 := by
  cases msg with
  | normal sn nodeId payload => exact .answered frame ok sn nodeId payload hdec
  | ack sn nodeId =>
    -- an acknowledgement that is not awaited
    have hother : (∀ i d, h.awaitedDelivery = some i → h.deliveries[i]? = some d → d.sn ≠ sn) →
        Turn codec h (.receive frame ok) h [] := by
      intro hsn
      refine .ignored frame ok fun msg hmsg => ?_
      obtain rfl := Except.ok.inj (hdec.symm.trans hmsg)
      exact ⟨sn, nodeId, rfl, hsn⟩
    unfold handleIncoming
    cases hi : h.awaitedDelivery with
    | none => exact hother fun i d hsome => by rw [hi] at hsome; cases hsome
    | some i =>
      obtain ⟨-, d, hd, halive⟩ := hinv.alive i hi
      simp only [hd, Option.any_some, decide_eq_true_eq]
      split
      · case isTrue hsn =>
        subst hsn
        rw [settle_eq hd halive.settled]
        exact .settled _ i d _ d.controllerAborted h.aborted hd hi (.ack frame ok nodeId hdec)
          (Bool.or_false _).symm
      · case isFalse hsn =>
        refine hother fun j d' hj hd' => ?_
        obtain rfl := Option.some.inj (hi.symm.trans hj)
        obtain rfl := Option.some.inj (hd.symm.trans hd')
        exact hsn

/-- **What a step can do**. -/
theorem step_turn {e : DeliveryEvent τ κ} {h' : DeliveringHandler τ} {deeds : Deeds τ κ}
    (hinv : h.Inv) (hstep : h.step codec e = some (h', deeds)) : Turn codec h e h' deeds := by
  cases e with
  | send payload ok =>
    obtain ⟨rfl, rfl⟩ := Prod.mk.inj (Option.some.inj hstep)
    exact send_turn payload ok
  | timer i ok =>
    obtain ⟨htimer, heq⟩ := Option.ite_none_right_eq_some.mp hstep
    obtain ⟨d, hd, htimer⟩ := (Option.any_eq_true _ _).mp htimer
    have hi : h.awaitedDelivery = some i := by
      by_contra hne
      rw [(hinv.dead i d hd hne).timer] at htimer
      cases htimer
    obtain ⟨-, d', hd', halive⟩ := hinv.alive i hi
    obtain rfl := Option.some.inj (hd.symm.trans hd')
    have hsame : { d with timer := true } = d := by rw [← halive.timer]
    rw [resend_eq hd, hsame, set_of_getElem? hd] at heq
    obtain ⟨rfl, rfl⟩ := Prod.mk.inj (Option.some.inj heq)
    exact .resent i ok d hd hi
  | receive frame ok =>
    simp only [step] at hstep
    cases hdec : codec.decode frame with
    | error err =>
      rw [hdec] at hstep
      obtain ⟨rfl, rfl⟩ := Prod.mk.inj (Option.some.inj hstep)
      exact .ignored frame ok fun msg hmsg => nomatch hdec.symm.trans hmsg
    | ok msg =>
      rw [hdec] at hstep
      obtain ⟨rfl, rfl⟩ := Prod.mk.inj (Option.some.inj hstep)
      exact receive_turn hinv ok hdec
  | abort i reason =>
    obtain ⟨hlt, heq⟩ := Option.ite_none_right_eq_some.mp hstep
    obtain ⟨rfl, rfl⟩ := Prod.mk.inj (Option.some.inj heq)
    exact abort_turn hinv reason hlt
  | abortCurrent reason =>
    obtain ⟨rfl, rfl⟩ := Prod.mk.inj (Option.some.inj hstep)
    exact abortCurrentDelivery_turn hinv reason
  | stop =>
    obtain ⟨rfl, rfl⟩ := Prod.mk.inj (Option.some.inj hstep)
    exact stop_turn hinv

/-- A step keeps the invariant. -/
theorem Turn.inv {e : DeliveryEvent τ κ} {h' : DeliveringHandler τ} {deeds : Deeds τ κ}
    (hturn : Turn codec h e h' deeds) (hinv : h.Inv) : h'.Inv := by
  cases hturn with
  | accepted payload ok msg hmsg hfree hopen =>
    -- a delivery is an old one, or the new one
    have hcases : ∀ i d, (h.deliveries ++
        [{ Delivery.fresh (h.seqNumOut + 1) msg with timer := true }])[i]? = some d →
        h.deliveries[i]? = some d ∨ i = h.deliveries.length ∧
          { Delivery.fresh (h.seqNumOut + 1) msg with timer := true } = d := by
      intro i d hd
      rcases Nat.lt_or_ge i h.deliveries.length with hlt | hge
      · exact .inl ((List.getElem?_append_left hlt).symm.trans hd)
      · rw [List.getElem?_append_right hge, List.getElem?_singleton] at hd
        obtain ⟨hzero, hd⟩ := Option.ite_none_right_eq_some.mp hd
        exact .inr ⟨by omega, Option.some.inj hd⟩
    refine ⟨fun i hi => ?_, fun i d hd hne => ?_, fun i d hd => ?_, ?_⟩
    · obtain rfl := Option.some.inj hi
      refine ⟨?_, _, List.getElem?_concat_length, rfl, rfl, rfl, rfl, rfl⟩
      rw [List.length_append]
      rfl
    · rcases hcases i d hd with hold | ⟨rfl, -⟩
      · exact hinv.dead i d hold (by rw [hfree]; exact nofun)
      · exact absurd rfl hne
    · rcases hcases i d hd with hold | ⟨rfl, rfl⟩
      · exact hinv.numbered i d hold
      · exact congrArg (· + 1) hinv.next
    · rw [List.length_append, hinv.next]
      rfl
  | refused | resent | ignored | idle => exact hinv
  | answered => exact ⟨hinv.alive, hinv.dead, hinv.numbered, hinv.next⟩
  | stopped => exact ⟨hinv.alive, hinv.dead, hinv.numbered, hinv.next⟩
  | settled _ i d res controller aborted hi hawaited hends haborted =>
    obtain ⟨-, d₀, hd₀, halive⟩ := hinv.alive i hawaited
    obtain rfl := Option.some.inj (hi.symm.trans hd₀)
    refine ⟨fun j hj => ?_, fun j d' hd' _ => ?_, fun j d' hd' => ?_, ?_⟩
    · cases hj
    · rcases getElem?_set_cases hd' with ⟨rfl, rfl⟩ | ⟨hne, hd'⟩
      · exact (halive.finish res).setController controller
      · exact hinv.dead j d' hd' (by rw [hawaited]; exact fun h => hne (Option.some.inj h))
    · rcases getElem?_set_cases hd' with ⟨rfl, rfl⟩ | ⟨-, hd'⟩
      · exact hinv.numbered i d hi
      · exact hinv.numbered j d' hd'
    · rw [List.length_set]
      exact hinv.next
  | late i reason d hi hold =>
    refine ⟨fun j hj => ?_, fun j d' hd' hj => ?_, fun j d' hd' => ?_, ?_⟩
    · obtain ⟨hlast, d', hd', halive⟩ := hinv.alive j hj
      refine ⟨by rw [List.length_set]; exact hlast, d', ?_, halive⟩
      rw [List.getElem?_set_ne fun hij => hold (hj.trans (congrArg some hij.symm))]
      exact hd'
    · rcases getElem?_set_cases hd' with ⟨rfl, rfl⟩ | ⟨-, hd'⟩
      · exact (hinv.dead i d hi hold).setController true
      · exact hinv.dead j d' hd' hj
    · rcases getElem?_set_cases hd' with ⟨rfl, rfl⟩ | ⟨-, hd'⟩
      · exact hinv.numbered i d hi
      · exact hinv.numbered j d' hd'
    · rw [List.length_set]
      exact hinv.next

/-- Every reachable handler satisfies the invariant. -/
theorem inv_of_reachable {nodeId : NodeId} (hreach : (machine codec nodeId).Reachable h) :
    h.Inv := by
  refine StateMachine.invariant (inv_new nodeId) (fun s e s' _ hinv hstep => ?_) hreach
  obtain ⟨⟨h', deeds⟩, heq, rfl⟩ := Option.map_eq_some_iff.mp hstep
  exact (step_turn hinv heq).inv hinv

/-! ## One delivery at a time -/

/-- Whether an event belongs to a delivery: its timer, its acknowledgement, its controller, or
something that aborts whatever is awaited. -/
def Concerns (codec : Codec τ κ) (h : DeliveringHandler τ) (i : ℕ) (d : Delivery τ) :
    DeliveryEvent τ κ → Prop
  | .send _ _ => False
  | .timer j _ => j = i
  | .receive frame _ => ∃ nodeId, codec.decode frame = .ok (.ack d.sn nodeId)
  | .abort j _ => j = i
  | .abortCurrent _ => h.awaitedDelivery = some i
  | .stop => h.awaitedDelivery = some i

/-- What a step means to one delivery. -/
structure Undisturbed (codec : Codec τ κ) (h : DeliveringHandler τ) (e : DeliveryEvent τ κ)
    (h' : DeliveringHandler τ) (deeds : Deeds τ κ) (i : ℕ) (d : Delivery τ) : Prop where
  /-- it resolves only on its own acknowledgement -/
  resolved : ∀ d', h'.deliveries[i]? = some d' → .ok () ∈ d'.settled → .ok () ∈ d.settled ∨
    ∃ frame ok nodeId, e = .receive frame ok ∧ codec.decode frame = .ok (.ack d.sn nodeId)
  /-- after it has settled, its message does not go out, and it does not settle again -/
  silent : d.settled ≠ [] → (∀ deed ∈ deeds, deed.1 ≠ some i) ∧
    ∃ d', h'.deliveries[i]? = some d' ∧ d'.settled = d.settled
  /-- what does not belong to it does nothing to it -/
  isolated : ¬ Concerns codec h i d e → (∀ deed ∈ deeds, deed.1 ≠ some i) ∧
    h'.deliveries[i]? = some d ∧ (h.awaitedDelivery = some i → h'.awaitedDelivery = some i)

/-- One delivery at a time, and no cross-talk. -/
structure OneAtATime (codec : Codec τ κ) (h : DeliveringHandler τ) : Prop where
  /-- at most one delivery is in progress -/
  single : ∀ (i j : ℕ) (d d' : Delivery τ), h.deliveries[i]? = some d → h.deliveries[j]? = some d' →
    d.settled = [] → d'.settled = [] → i = j
  /-- `awaited_delivery` is the delivery that has not settled -/
  awaited : ∀ i, h.awaitedDelivery = some i ↔ ∃ d, h.deliveries[i]? = some d ∧ d.settled = []
  /-- a delivery settles at most once -/
  once : ∀ d ∈ h.deliveries, d.settled.length ≤ 1
  /-- deliveries have different numbers -/
  distinct : ∀ (i j : ℕ) (d d' : Delivery τ), h.deliveries[i]? = some d →
    h.deliveries[j]? = some d' → d.sn = d'.sn → i = j
  /-- a payload is accepted when no delivery is in progress, and then one is -/
  accepted : ∀ e h' deeds, h.step codec e = some (h', deeds) → ∀ k sn payload,
    (k, Effect.sent sn payload) ∈ deeds → h.awaitedDelivery = none ∧
      k = some h.deliveries.length ∧ h'.awaitedDelivery = k
  /-- whatever happens next -/
  undisturbed : ∀ e h' deeds, h.step codec e = some (h', deeds) →
    ∀ i d, h.deliveries[i]? = some d → Undisturbed codec h e h' deeds i d

theorem Inv.awaited (hinv : h.Inv) (i : ℕ) :
    h.awaitedDelivery = some i ↔ ∃ d, h.deliveries[i]? = some d ∧ d.settled = [] := by
  constructor
  · intro hi
    obtain ⟨-, d, hd, halive⟩ := hinv.alive i hi
    exact ⟨d, hd, halive.settled⟩
  · rintro ⟨d, hd, hsettled⟩
    by_contra hne
    have hlength := (hinv.dead i d hd hne).settled
    rw [hsettled] at hlength
    cases hlength

/-- A delivery that no deed is for, and that stays as it is. -/
theorem Undisturbed.of_same {e : DeliveryEvent τ κ} {h' : DeliveringHandler τ} {deeds : Deeds τ κ}
    (hdeeds : ∀ deed ∈ deeds, deed.1 ≠ some i) (hsame : h'.deliveries[i]? = some d)
    (hawaited : h.awaitedDelivery = some i → h'.awaitedDelivery = some i) :
    Undisturbed codec h e h' deeds i d where
  resolved d' hd' hok := by
    obtain rfl := Option.some.inj (hsame.symm.trans hd')
    exact .inl hok
  silent _ := ⟨hdeeds, d, hsame, rfl⟩
  isolated _ := ⟨hdeeds, hsame, hawaited⟩

/-- The event that ends a delivery belongs to it. -/
theorem Ends.concerns {e : DeliveryEvent τ κ} {res : MyRes Unit} (hends : Ends codec i d e res)
    (hi : h.awaitedDelivery = some i) : Concerns codec h i d e := by
  cases hends with
  | ack frame ok nodeId hdec => exact ⟨nodeId, hdec⟩
  | abort reason => rfl
  | abortCurrent reason => exact hi
  | stop => exact hi

/-- Only the acknowledgement ends it well. -/
theorem Ends.ok {e : DeliveryEvent τ κ} (hends : Ends codec i d e (.ok ())) :
    ∃ frame ok nodeId, e = .receive frame ok ∧ codec.decode frame = .ok (.ack d.sn nodeId) := by
  cases hends with
  | ack frame ok nodeId hdec => exact ⟨frame, ok, nodeId, rfl, hdec⟩

theorem Turn.undisturbed {e : DeliveryEvent τ κ} {h' : DeliveringHandler τ} {deeds : Deeds τ κ}
    (hturn : Turn codec h e h' deeds) (hinv : h.Inv) (hd : h.deliveries[i]? = some d) :
    Undisturbed codec h e h' deeds i d := by
  have hlt : i < h.deliveries.length := (List.getElem?_eq_some_iff.mp hd).1
  cases hturn with
  | accepted payload ok msg hmsg hfree hopen =>
    refine .of_same ?_ ((List.getElem?_append_left hlt).trans hd) (by rw [hfree]; exact nofun)
    intro deed hmem
    have hkey : deed.1 = some h.deliveries.length := by
      rcases List.mem_cons.mp hmem with rfl | hmem
      · rfl
      · obtain ⟨eff, -, rfl⟩ := List.mem_map.mp hmem
        rfl
    rw [hkey]
    exact fun heq => Nat.ne_of_gt hlt (Option.some.inj heq)
  | refused payload ok err herr =>
    refine .of_same (fun deed hmem => ?_) hd id
    rw [List.mem_singleton.mp hmem]
    exact nofun
  | resent j ok d' hj hawaited =>
    by_cases hij : j = i
    · subst hij
      obtain rfl := Option.some.inj (hj.symm.trans hd)
      refine ⟨fun d₁ hd₁ hok => ?_, fun hsettled => ?_, fun hnot => absurd rfl hnot⟩
      · obtain rfl := Option.some.inj (hd.symm.trans hd₁)
        exact .inl hok
      · obtain ⟨-, d₁, hd₁, halive⟩ := hinv.alive j hawaited
        obtain rfl := Option.some.inj (hd.symm.trans hd₁)
        exact absurd halive.settled hsettled
    · refine .of_same (fun deed hmem => ?_) hd id
      obtain ⟨eff, -, rfl⟩ := List.mem_map.mp hmem
      exact fun heq => hij (Option.some.inj heq)
  | settled _ j d' res controller aborted hj hawaited hends haborted =>
    by_cases hij : j = i
    · subst hij
      obtain rfl := Option.some.inj (hj.symm.trans hd)
      obtain ⟨-, d₁, hd₁, halive⟩ := hinv.alive j hawaited
      obtain rfl := Option.some.inj (hd.symm.trans hd₁)
      refine ⟨fun d₁ hd₁ hok => .inr ?_, fun hsettled => absurd halive.settled hsettled,
        fun hnot => absurd (hends.concerns hawaited) hnot⟩
      obtain rfl := Option.some.inj ((List.getElem?_set_self hlt).symm.trans hd₁)
      rw [Delivery.finish, halive.settled] at hok
      obtain rfl := List.mem_singleton.mp hok
      exact hends.ok
    · refine .of_same (fun deed hmem => ?_) ((List.getElem?_set_ne hij).trans hd)
        (fun hi => absurd (Option.some.inj (hawaited.symm.trans hi)) hij)
      rw [List.mem_singleton.mp hmem]
      exact fun heq => hij (Option.some.inj heq)
  | late j reason d' hj hold =>
    by_cases hij : j = i
    · subst hij
      obtain rfl := Option.some.inj (hj.symm.trans hd)
      refine ⟨fun d₁ hd₁ hok => .inl ?_, fun _ => ⟨nofun, _, List.getElem?_set_self hlt, rfl⟩,
        fun hnot => absurd rfl hnot⟩
      obtain rfl := Option.some.inj ((List.getElem?_set_self hlt).symm.trans hd₁)
      exact hok
    · exact .of_same nofun ((List.getElem?_set_ne hij).trans hd) id
  | answered frame ok sn nodeId payload hdec =>
    refine .of_same (fun deed hmem => ?_) hd id
    obtain ⟨eff, -, rfl⟩ := List.mem_map.mp hmem
    exact nofun
  | ignored => exact .of_same nofun hd id
  | idle => exact .of_same nofun hd id
  | stopped => exact .of_same nofun hd id

theorem Turn.sent {e : DeliveryEvent τ κ} {h' : DeliveringHandler τ} {deeds : Deeds τ κ}
    (hturn : Turn codec h e h' deeds) {k : Option ℕ} {sn : ℕ} {payload : τ}
    (hmem : (k, Effect.sent sn payload) ∈ deeds) :
    h.awaitedDelivery = none ∧ k = some h.deliveries.length ∧ h'.awaitedDelivery = k := by
  cases hturn with
  | accepted payload' ok msg hmsg hfree hopen =>
    rcases List.mem_cons.mp hmem with heq | hmem
    · obtain ⟨rfl, -⟩ := Prod.mk.inj heq
      exact ⟨hfree, rfl, rfl⟩
    · obtain ⟨eff, -, heq⟩ := List.mem_map.mp hmem
      obtain ⟨rfl, -⟩ := Prod.mk.inj heq
      exact ⟨hfree, rfl, rfl⟩
  | refused => cases List.mem_singleton.mp hmem
  | resent i ok d hi hawaited =>
    obtain ⟨eff, heff, heq⟩ := List.mem_map.mp hmem
    obtain ⟨frame, -, rfl⟩ := List.mem_map.mp heff
    cases heq
  | settled => cases List.mem_singleton.mp hmem
  | answered frame ok sn nodeId payload' hdec =>
    obtain ⟨eff, heff, heq⟩ := List.mem_map.mp hmem
    obtain rfl := (Prod.mk.inj heq).2
    rcases List.mem_append.mp heff with heff | heff
    · split at heff
      · simp at heff
      · cases heff
    · split at heff
      · simp at heff
      · cases heff
  | late => cases hmem
  | ignored => cases hmem
  | idle => cases hmem
  | stopped => cases hmem

/-- **One delivery at a time**: whatever comes late, from whichever delivery. -/
theorem one_at_a_time {nodeId : NodeId} (hreach : (machine codec nodeId).Reachable h) :
    OneAtATime codec h := by
  have hinv := inv_of_reachable hreach
  refine ⟨fun i j d d' hd hd' hs hs' => ?_, hinv.awaited, fun d hmem => ?_,
    fun i j d d' hd hd' hsn => ?_,
    fun e h' deeds hstep k sn payload hmem => (step_turn hinv hstep).sent hmem,
    fun e h' deeds hstep i d hd => (step_turn hinv hstep).undisturbed hinv hd⟩
  · have hi := (hinv.awaited i).mpr ⟨d, hd, hs⟩
    have hj := (hinv.awaited j).mpr ⟨d', hd', hs'⟩
    exact Option.some.inj (hi.symm.trans hj)
  · obtain ⟨i, hd⟩ := List.getElem?_of_mem hmem
    by_cases hi : h.awaitedDelivery = some i
    · obtain ⟨-, d₁, hd₁, halive⟩ := hinv.alive i hi
      obtain rfl := Option.some.inj (hd.symm.trans hd₁)
      rw [halive.settled]
      exact Nat.zero_le 1
    · exact Nat.le_of_eq (hinv.dead i d hd hi).settled
  · rw [hinv.numbered i d hd, hinv.numbered j d' hd'] at hsn
    exact Nat.succ.inj hsn

/-- The first delivery is acknowledged, the second one is in progress, and the acknowledgement
comes again. -/
def acknowledgedTwice : List (DeliveryEvent Unit (TransportMsg Unit)) :=
  [.send () true, .receive (.ack 1 "peer") true, .send () false, .receive (.ack 1 "peer") true,
    .timer 1 true]

theorem one_at_a_time_acknowledgedTwice : ∃ h, (machine (.identity Unit) "self").Reachable h ∧
    OneAtATime (.identity Unit) h :=
  ⟨_, ⟨acknowledgedTwice, (Option.some_get rfl).symm⟩,
    one_at_a_time ⟨acknowledgedTwice, (Option.some_get rfl).symm⟩⟩

/-! ## The awaited delivery is enough -/

/-- The handler with the delivery that is awaited. -/
def coarse (h : DeliveringHandler τ) : TransportHandler τ where
  awaitedDelivery := h.awaitedDelivery.bind fun i =>
    (h.deliveries[i]?).map fun d => ⟨d.sn, d.msg⟩
  seqNumOut := h.seqNumOut
  nodeIdOut := h.nodeIdOut
  aborted := h.aborted
  snFilter := h.snFilter

/-- What an event is to the awaited delivery. -/
def coarseEvent (h : DeliveringHandler τ) : DeliveryEvent τ κ → Option (HandlerEvent τ κ)
  | .send payload ok => some (.send payload ok)
  | .timer _ ok => some (.transmit ok)
  | .receive frame ok => some (.receive frame ok)
  | .abort i reason => if h.awaitedDelivery = some i then some (.abort reason) else none
  | .abortCurrent reason => some (.abort reason)
  | .stop => some .stop

theorem coarse_awaitedDelivery (hd : h.deliveries[i]? = some d) (hi : h.awaitedDelivery = some i) :
    h.coarse.awaitedDelivery = some ⟨d.sn, d.msg⟩ := by
  simp only [coarse, hi, Option.bind_some, hd, Option.map_some]

theorem coarse_awaitedDelivery_none (hfree : h.awaitedDelivery = none) :
    h.coarse.awaitedDelivery = none := by
  simp only [coarse, hfree, Option.bind_none]

/-- The end of a delivery, as `Ts.TransportHandler` has it. -/
theorem Ends.coarse_step {e : DeliveryEvent τ κ} {res : MyRes Unit} (hends : Ends codec i d e res)
    (hd : h.deliveries[i]? = some d) (hi : h.awaitedDelivery = some i) :
    ∃ he, h.coarseEvent e = some he ∧ h.coarse.step codec he =
      some ({ h.coarse with awaitedDelivery := none, aborted := h.aborted || e.isStop },
        [.returned d.sn res]) := by
  have hawaited := coarse_awaitedDelivery hd hi
  cases hends with
  | ack frame ok nodeId hdec =>
    refine ⟨_, rfl, ?_⟩
    simp only [TransportHandler.step, hdec, TransportHandler.handleIncoming, hawaited, if_true,
      DeliveryEvent.isStop, Bool.or_false]
    rfl
  | abort reason =>
    refine ⟨.abort reason, if_pos hi, ?_⟩
    simp only [TransportHandler.step, TransportHandler.abortCurrentDelivery, hawaited,
      DeliveryEvent.isStop, Bool.or_false]
    rfl
  | abortCurrent reason =>
    refine ⟨_, rfl, ?_⟩
    simp only [TransportHandler.step, TransportHandler.abortCurrentDelivery, hawaited,
      DeliveryEvent.isStop, Bool.or_false]
    rfl
  | stop =>
    refine ⟨_, rfl, ?_⟩
    simp only [TransportHandler.step, TransportHandler.abortCurrentDelivery, hawaited,
      DeliveryEvent.isStop, Bool.or_true]

/-- A step is a step of `Ts.TransportHandler`, or nothing. -/
theorem Turn.coarse_step {e : DeliveryEvent τ κ} {h' : DeliveringHandler τ} {deeds : Deeds τ κ}
    (hturn : Turn codec h e h' deeds) (hinv : h.Inv) :
    (∃ he, h.coarseEvent e = some he ∧
      h.coarse.step codec he = some (h'.coarse, deeds.map Prod.snd)) ∨
    h.coarseEvent e = none ∧ h'.coarse = h.coarse ∧ deeds = [] := by
  cases hturn with
  | accepted payload ok msg hmsg hfree hopen =>
    refine .inl ⟨_, rfl, ?_⟩
    have hsend := coarse_awaitedDelivery_none hfree
    simp only [TransportHandler.step, TransportHandler.send, hsend]
    simp [coarse, hopen, hmsg, Delivery.fresh, Function.comp_def]
  | refused payload ok err herr =>
    refine .inl ⟨_, rfl, ?_⟩
    rcases herr with ⟨hsome, rfl⟩ | ⟨hfree, haborted, rfl⟩
    · obtain ⟨i, hi⟩ := Option.isSome_iff_exists.mp hsome
      obtain ⟨-, d, hd, -⟩ := hinv.alive i hi
      simp [TransportHandler.step, TransportHandler.send, coarse_awaitedDelivery hd hi]
    · have hcoarse : h.coarse.aborted = true := haborted
      simp [TransportHandler.step, TransportHandler.send, coarse_awaitedDelivery_none hfree,
        hcoarse]
  | resent i ok d hi hawaited =>
    refine .inl ⟨_, rfl, ?_⟩
    simp [TransportHandler.step, coarse_awaitedDelivery hi hawaited, Function.comp_def]
  | settled _ i d res controller aborted hi hawaited hends haborted =>
    subst haborted
    exact .inl (hends.coarse_step hi hawaited)
  | late i reason d hi hold =>
    refine .inr ⟨if_neg hold, ?_, rfl⟩
    cases hj : h.awaitedDelivery with
    | none => simp only [coarse, hj, Option.bind_none]
    | some j =>
      have hij : i ≠ j := fun hij => hold (hj.trans (congrArg some hij.symm))
      simp only [coarse, hj, Option.bind_some, List.getElem?_set_ne hij]
  | answered frame ok sn nodeId payload hdec =>
    refine .inl ⟨_, rfl, ?_⟩
    simp only [TransportHandler.step, hdec, TransportHandler.handleIncoming, List.map_map,
      Function.comp_def, List.map_id']
    rfl
  | ignored frame ok hdec =>
    refine .inl ⟨_, rfl, ?_⟩
    cases hmsg : codec.decode frame with
    | error err => simp only [TransportHandler.step, hmsg, List.map_nil]
    | ok msg =>
      obtain ⟨sn, nodeId, rfl, hsn⟩ := hdec msg hmsg
      simp only [TransportHandler.step, hmsg, TransportHandler.handleIncoming]
      cases hi : h.awaitedDelivery with
      | none => rw [coarse_awaitedDelivery_none hi, List.map_nil]
      | some i =>
        obtain ⟨-, d, hd, -⟩ := hinv.alive i hi
        rw [coarse_awaitedDelivery hd hi]
        simp only [if_neg (hsn i d hi hd), List.map_nil]
  | idle reason hfree =>
    refine .inl ⟨_, rfl, ?_⟩
    simp [TransportHandler.step, TransportHandler.abortCurrentDelivery,
      coarse_awaitedDelivery_none hfree]
  | stopped hfree =>
    refine .inl ⟨_, rfl, ?_⟩
    simp [TransportHandler.step, TransportHandler.abortCurrentDelivery,
      coarse_awaitedDelivery_none hfree]
    simp [coarse, hfree]

/-- Every run is a run of an endpoint that has the awaited delivery and no other. -/
def simulation (codec : Codec τ κ) (nodeId : NodeId) :
    StateMachine.Simulation (machine codec nodeId) (Endpoint.machine codec .typeScript nodeId)
      fun _ _ => True where
  R h ep := h.Inv ∧ .typeScript h.coarse = ep
  step := by
    rintro h e h' ep ⟨hinv, rfl⟩ - hstep
    obtain ⟨⟨h', deeds⟩, heq, rfl⟩ := Option.map_eq_some_iff.mp hstep
    have hturn := step_turn hinv heq
    rcases hturn.coarse_step hinv with ⟨he, -, hcoarse⟩ | ⟨-, hsame, -⟩
    · refine ⟨[he], .typeScript h'.coarse, ?_, hturn.inv hinv, rfl⟩
      refine StateMachine.run_cons_eq_some.mpr ⟨.typeScript h'.coarse, ?_, rfl⟩
      simp only [Endpoint.machine, Endpoint.step, hcoarse, Option.map_some, Prod.map_fst]
    · exact ⟨[], .typeScript h.coarse, rfl, hturn.inv hinv, congrArg _ hsame⟩

/-- A handler, as seen without its old deliveries, is a reachable endpoint. -/
theorem coarse_reachable {nodeId : NodeId} (hreach : (machine codec nodeId).Reachable h) :
    (Endpoint.machine codec .typeScript nodeId).Reachable (.typeScript h.coarse) := by
  obtain ⟨es, hrun⟩ := hreach
  obtain ⟨ds, ep, hds, -, rfl⟩ := (simulation codec nodeId).run
    (t := .new .typeScript nodeId) ⟨inv_new nodeId, rfl⟩ (fun _ _ _ _ _ _ => trivial) hrun
  exact ⟨ds, hds⟩

end DeliveringHandler

end Ts

end Vamp
