import Vamp.Deliveries
import Vamp.Promises

/-!
# The browser's queue of signalling messages

`sendSignallingMessage` of `rtc_connector.ts`, and the part of `onDebounceTimeout` that clears its
queue. A call of the former puts its message into the queue and goes through it, unless another
call does already; it awaits every delivery. The latter empties the queue, aborts the delivery
in progress and awaits it as well, so one promise is awaited twice, and both reset
`deliveryState` when they are resumed.

A step is an event, after which nothing else happens until all jobs are done, or one of these
jobs. Until `close`, messages go out one at a time and in order (`signals_in_order`). After it, a
call that goes through the queue never ends (`loops_end_iff`).
-/

namespace Vamp

namespace Ts

variable {τ κ : Type}

/-! ## The queue -/

/-- A member of `pendingRequests`. -/
structure Request (τ : Type) : Type where
  /-- how many have been pushed before it, for the record -/
  id : ℕ
  /-- the message -/
  msg : τ
  /-- a callback is given -/
  callback : Bool
  deriving DecidableEq

/-- `SendRetryHandle`. -/
inductive SendRetryHandle : Type where
  /-- the promise of a delivery, and its controller -/
  | delivery (i : ℕ)
  /-- a rejected promise, and no controller -/
  | rejected (err : MyErr)
  deriving DecidableEq

/-- Who awaits a promise. -/
inductive Resumption (τ : Type) : Type where
  /-- `sendSignallingMessage`, with the head of the queue as it was -/
  | loop (r : Request τ)
  /-- `onDebounceTimeout` -/
  | debounce
  deriving DecidableEq

/-- Whether a call of `sendSignallingMessage` awaits. -/
def Resumption.isLoop : Resumption τ → Bool
  | .loop _ => true
  | .debounce => false

/-- The part of `RtcConnector` that sends signalling messages. -/
structure SignallingSender (τ : Type) : Type where
  /-- `wsTransportHandler` -/
  transport : DeliveringHandler τ
  /-- `pendingRequests` -/
  pendingRequests : List (Request τ)
  /-- `deliveryState` -/
  deliveryState : Option SendRetryHandle
  /-- the promises of the deliveries, and the jobs -/
  promises : Promises (Resumption τ) (MyRes Unit)
  /-- how many messages have been pushed, for the record -/
  pushed : ℕ
  /-- which messages the deliveries are for, for the record -/
  requests : List (Request τ)

/-- What is done, as far as it is told. -/
inductive SenderDeed (τ κ : Type) : Type where
  /-- a message is put into the queue -/
  | pushed (r : Request τ)
  /-- `send` is called; a delivery may be in progress -/
  | handed (r : Request τ) (busy : Bool)
  /-- the transport does something, for one of its deliveries -/
  | transport (i : Option ℕ) (eff : Effect τ κ)
  /-- a message has been delivered, and is removed from the queue -/
  | shifted (r : Request τ)
  /-- a callback is called -/
  | callback (r : Request τ)

/-- What can happen. -/
inductive SenderEvent (τ κ : Type) : Type where
  /-- `sendSignallingMessage` is called; the carrier may take its frame -/
  | sendSignallingMessage (msg : τ) (callback ok : Bool)
  /-- a frame comes in -/
  | incoming (frame : κ) (ok : Bool)
  /-- the timer of a delivery fires -/
  | resend (i : ℕ) (ok : Bool)
  /-- `onDebounceTimeout` finds the connection broken -/
  | onDebounceTimeout
  /-- `close` is called -/
  | close
  /-- the next job is done -/
  | job (ok : Bool)

/-- Whether it is `close` that is called. -/
def SenderEvent.isClose : SenderEvent τ κ → Bool
  | .close => true
  | _ => false

namespace SignallingSender

/-- The constructor. -/
def new (nodeId : NodeId) : SignallingSender τ where
  transport := .new nodeId
  pendingRequests := []
  deliveryState := none
  promises := .new
  pushed := 0
  requests := []

/-- A delivery that ends settles its promise. -/
def settleBy (p : Promises (Resumption τ) (MyRes Unit)) :
    Option ℕ × Effect τ κ → Promises (Resumption τ) (MyRes Unit)
  | (some i, .returned _ res) => p.settle i res
  | _ => p

/-- The transport has done something. -/
def transported (s : SignallingSender τ) (r : DeliveringHandler τ × Deeds τ κ) :
    SignallingSender τ × List (SenderDeed τ κ) :=
  ({ s with transport := r.1, promises := r.2.foldl settleBy s.promises },
    r.2.map fun deed => .transport deed.1 deed.2)

/-- `await` of a `resend_task`. -/
def await (p : Promises (Resumption τ) (MyRes Unit)) (handle : SendRetryHandle)
    (k : Resumption τ) : Promises (Resumption τ) (MyRes Unit) :=
  match handle with
  | .delivery i => p.await i k
  | .rejected err => p.enqueue k (.error err)

/-- `sender.send`: what is returned has a promise of its own, unless nothing is delivered. -/
def send (codec : Codec τ κ) (s : SignallingSender τ) (r : Request τ) (ok : Bool) :
    SignallingSender τ × SendRetryHandle × List (SenderDeed τ κ) :=
  let (transport, deeds) := s.transport.send codec r.msg ok
  let told := .handed r s.transport.awaitedDelivery.isSome ::
    deeds.map fun deed => .transport deed.1 deed.2
  match deeds with
  | (none, .refused err) :: _ => ({ s with transport := transport }, .rejected err, told)
  | _ =>
    ({ s with
      transport := transport
      promises := s.promises.create
      requests := s.requests ++ [r] }, .delivery s.transport.deliveries.length, told)

/-- The `while` of `sendSignallingMessage`, to its end or the next `await`. -/
def sendNext (codec : Codec τ κ) (s : SignallingSender τ) (ok : Bool) :
    SignallingSender τ × List (SenderDeed τ κ) :=
  match s.pendingRequests with
  | [] => ({ s with deliveryState := none }, [])
  | r :: _ =>
    let (s, handle, deeds) := s.send codec r ok
    ({ s with
      deliveryState := some handle
      promises := await s.promises handle (.loop r) }, deeds)

/-- `sendSignallingMessage`. -/
def sendSignallingMessage (codec : Codec τ κ) (s : SignallingSender τ) (msg : τ)
    (callback ok : Bool) : SignallingSender τ × List (SenderDeed τ κ) :=
  let r : Request τ := ⟨s.pushed, msg, callback⟩
  let s := { s with pendingRequests := s.pendingRequests ++ [r], pushed := s.pushed + 1 }
  if s.deliveryState.isSome then (s, [.pushed r])
  else
    let (s, deeds) := s.sendNext codec ok
    (s, .pushed r :: deeds)

/-- `sendSignallingMessage` is resumed. What it shifts is the head of the queue as it is now. -/
def resumeLoop (codec : Codec τ κ) (s : SignallingSender τ) (r : Request τ) (ok : Bool) :
    MyRes Unit → SignallingSender τ × List (SenderDeed τ κ)
  | .ok () =>
    let shifted := s.pendingRequests.head?.toList.map .shifted
    let called := if r.callback then [.callback r] else []
    let (s, deeds) := { s with pendingRequests := s.pendingRequests.tail }.sendNext codec ok
    (s, shifted ++ called ++ deeds)
  | .error _ => s.sendNext codec ok

/-- `onDebounceTimeout`, where a delivery is in progress, up to its `await`. -/
def onDebounceTimeout (s : SignallingSender τ) : SignallingSender τ × List (SenderDeed τ κ) :=
  match s.deliveryState with
  | none => (s, [])
  | some handle =>
    let s := { s with pendingRequests := [] }
    let (s, deeds) := match handle with
      | .delivery i =>
        s.transported (s.transport.abortController i "Making new negotiation attempt")
      | .rejected _ => (s, [])
    ({ s with promises := await s.promises handle .debounce }, deeds)

/-- Someone is resumed. -/
def resume (codec : Codec τ κ) (s : SignallingSender τ) (ok : Bool) (res : MyRes Unit) :
    Resumption τ → SignallingSender τ × List (SenderDeed τ κ)
  | .loop r => s.resumeLoop codec r ok res
  | .debounce => ({ s with deliveryState := none }, [])

/-- One step. Jobs come first. -/
def step (codec : Codec τ κ) (s : SignallingSender τ) :
    SenderEvent τ κ → Option (SignallingSender τ × List (SenderDeed τ κ))
  | .job ok =>
    s.promises.next.map fun ((k, res), promises) => { s with promises }.resume codec ok res k
  | e =>
    if s.promises.jobs.isEmpty then
      match e with
      | .sendSignallingMessage msg callback ok =>
        some (s.sendSignallingMessage codec msg callback ok)
      | .incoming frame ok => (s.transport.step codec (.receive frame ok)).map s.transported
      | .resend i ok => (s.transport.step codec (.timer i ok)).map s.transported
      | .onDebounceTimeout => some s.onDebounceTimeout
      | .close => (s.transport.step codec .stop).map s.transported
      | .job _ => none
    else none

/-- The sender as a state machine. -/
def machine (codec : Codec τ κ) (nodeId : NodeId) :
    StateMachine (SignallingSender τ) (SenderEvent τ κ) where
  init := .new nodeId
  step s e := (s.step codec e).map Prod.fst

/-! ## What is told -/

end SignallingSender

namespace SenderDeed

/-- The message that is put into the queue. -/
def pushed? : SenderDeed τ κ → Option (Request τ)
  | .pushed r => some r
  | _ => none

/-- The message that is handed to `send`. -/
def handed? : SenderDeed τ κ → Option (Request τ)
  | .handed r _ => some r
  | _ => none

/-- The message that is removed from the queue. -/
def shifted? : SenderDeed τ κ → Option (Request τ)
  | .shifted r => some r
  | _ => none

/-- The message whose callback is called. -/
def callback? : SenderDeed τ κ → Option (Request τ)
  | .callback r => some r
  | _ => none

/-- The message that goes out, when it is known what the deliveries are for. -/
def transmitted? (requests : List (Request τ)) : SenderDeed τ κ → Option (Request τ)
  | .transport (some i) (.wire _ _) => requests[i]?
  | _ => none

end SenderDeed

/-- Deeds, summed up. -/
structure Tells (deeds : List (SenderDeed τ κ)) (pushed handed shifted called : List (Request τ)) :
    Prop where
  /-- what is put into the queue -/
  pushed : deeds.filterMap SenderDeed.pushed? = pushed
  /-- what is handed to `send` -/
  handed : deeds.filterMap SenderDeed.handed? = handed
  /-- what is removed from the queue -/
  shifted : deeds.filterMap SenderDeed.shifted? = shifted
  /-- whose callback is called -/
  called : deeds.filterMap SenderDeed.callback? = called
  /-- no delivery is in progress when `send` is called -/
  alone : ∀ r busy, SenderDeed.handed r busy ∈ deeds → busy = false

theorem tells_nil : Tells ([] : List (SenderDeed τ κ)) [] [] [] [] := ⟨rfl, rfl, rfl, rfl, nofun⟩

theorem Tells.append {deeds deeds' : List (SenderDeed τ κ)}
    {P P' H H' S S' C C' : List (Request τ)} (h : Tells deeds P H S C)
    (h' : Tells deeds' P' H' S' C') :
    Tells (deeds ++ deeds') (P ++ P') (H ++ H') (S ++ S') (C ++ C') where
  pushed := by rw [List.filterMap_append, h.pushed, h'.pushed]
  handed := by rw [List.filterMap_append, h.handed, h'.handed]
  shifted := by rw [List.filterMap_append, h.shifted, h'.shifted]
  called := by rw [List.filterMap_append, h.called, h'.called]
  alone r busy hmem := (List.mem_append.mp hmem).elim (h.alone r busy) (h'.alone r busy)

/-- What the transport does is none of it. -/
theorem tells_transport (deeds : Deeds τ κ) :
    Tells (deeds.map fun deed => SenderDeed.transport deed.1 deed.2) [] [] [] [] := by
  have hnone : ∀ f : SenderDeed τ κ → Option (Request τ),
      (∀ i deed, f (.transport i deed) = none) →
      (deeds.map fun deed => SenderDeed.transport deed.1 deed.2).filterMap f = [] := by
    intro f hf
    rw [List.filterMap_map, List.filterMap_eq_nil_iff]
    exact fun deed _ => hf deed.1 deed.2
  refine ⟨hnone _ fun _ _ => rfl, hnone _ fun _ _ => rfl, hnone _ fun _ _ => rfl,
    hnone _ fun _ _ => rfl, fun r busy hmem => ?_⟩
  obtain ⟨deed, -, heq⟩ := List.mem_map.mp hmem
  cases heq

namespace SignallingSender

/-! ## Stages -/

/-- What the queue, the delivery in progress and the jobs may look like together. -/
inductive Stage (τ : Type) : Type where
  /-- the queue is empty, and nothing goes on -/
  | free
  /-- the head of the queue is being delivered -/
  | waiting (i : ℕ) (r : Request τ) (rest : List (Request τ))
  /-- it has been acknowledged -/
  | acked (r : Request τ) (rest : List (Request τ))
  /-- the queue has been cleared -/
  | cleared (r : Request τ) (err : MyErr)
  /-- and `sendSignallingMessage` has returned -/
  | left (err : MyErr)
  /-- the transport has been stopped, and refuses the head of the queue -/
  | retrying (r : Request τ) (rest : List (Request τ)) (err : MyErr)

namespace Stage

/-- The queue. -/
def pending : Stage τ → List (Request τ)
  | waiting _ r rest | acked r rest | retrying r rest _ => r :: rest
  | free | cleared _ _ | left _ => []

/-- The message that is being delivered, and has not been removed. -/
def current : Stage τ → List (Request τ)
  | waiting _ r _ | acked r _ => [r]
  | free | cleared _ _ | left _ | retrying _ _ _ => []

/-- The delivery in progress. -/
def awaited : Stage τ → Option ℕ
  | waiting i _ _ => some i
  | free | acked _ _ | cleared _ _ | left _ | retrying _ _ _ => none

/-- `deliveryState` is set. -/
def delivering : Stage τ → Bool
  | waiting _ _ _ | acked _ _ | cleared _ _ | retrying _ _ _ => true
  | free | left _ => false

/-- Who awaits a promise. -/
def reactions : Stage τ → List (Resumption τ)
  | waiting _ r _ => [.loop r]
  | free | acked _ _ | cleared _ _ | left _ | retrying _ _ _ => []

/-- The jobs. -/
def jobs : Stage τ → List (Resumption τ × MyRes Unit)
  | free | waiting _ _ _ => []
  | acked r _ => [(.loop r, .ok ())]
  | cleared r err => [(.loop r, .error err), (.debounce, .error err)]
  | left err => [(.debounce, .error err)]
  | retrying r _ err => [(.loop r, .error err)]

end Stage

/-- What the parts of a sender know of each other. -/
structure Sound (s : SignallingSender τ) : Prop where
  /-- the deliveries -/
  inv : s.transport.Inv
  /-- each has a promise -/
  promises : s.promises.table.length = s.transport.deliveries.length
  /-- and is for a message -/
  requests : s.requests.length = s.transport.deliveries.length

/-- Where a sender stands. -/
structure At (s : SignallingSender τ) (stage : Stage τ) : Prop extends s.Sound where
  /-- the delivery in progress -/
  awaited : s.transport.awaitedDelivery = stage.awaited
  /-- the queue -/
  pending : s.pendingRequests = stage.pending
  /-- `deliveryState` -/
  delivering : s.deliveryState.isSome = stage.delivering
  /-- the jobs -/
  jobs : s.promises.jobs = stage.jobs
  /-- who awaits a promise -/
  reactions : s.promises.reactions = stage.reactions
  /-- the promise that is awaited is the one of the delivery in progress -/
  waiting : ∀ i r rest, stage = .waiting i r rest → s.deliveryState = some (.delivery i) ∧
    s.promises.table[i]? = some (.pending [.loop r]) ∧ s.requests[i]? = some r
  /-- messages are refused when the transport has been stopped -/
  retrying : ∀ r rest err, stage = .retrying r rest err → s.transport.aborted = true
  /-- and only then -/
  stopped : s.transport.aborted = true → stage = .free ∨ ∃ r rest err, stage = .retrying r rest err

theorem at_new (nodeId : NodeId) : At (new nodeId : SignallingSender τ) .free where
  inv := DeliveringHandler.inv_new nodeId
  promises := rfl
  requests := rfl
  awaited := rfl
  pending := rfl
  delivering := rfl
  jobs := rfl
  reactions := rfl
  waiting := nofun
  retrying := nofun
  stopped := nofun

/-! ## What a step does -/

variable {codec : Codec τ κ} {s s' : SignallingSender τ} {e : SenderEvent τ κ} {stage : Stage τ}
  {i : ℕ} {r : Request τ} {rest : List (Request τ)} {err : MyErr}

/-- Messages that go out, when it is known what the deliveries are for. -/
def transmissions (requests : List (Request τ)) (deeds : List (SenderDeed τ κ)) :
    List (Request τ) :=
  deeds.filterMap (SenderDeed.transmitted? requests)

/-- The transport does something for the messages of `r` only. -/
theorem transmissions_transport {requests : List (Request τ)} {deeds : Deeds τ κ}
    (h : ∀ deed ∈ deeds, deed.1 = some i ∨ ∀ frame answers, deed.2 ≠ .wire frame answers)
    (hi : requests[i]? = some r) :
    ∀ r' ∈ transmissions requests (deeds.map fun deed => SenderDeed.transport deed.1 deed.2),
      r' = r := by
  intro r' hr'
  obtain ⟨_, hmem, hsome⟩ := List.mem_filterMap.mp hr'
  obtain ⟨⟨j, eff⟩, hdeed, rfl⟩ := List.mem_map.mp hmem
  cases j with
  | none => cases hsome
  | some j =>
    cases eff with
    | wire frame answers =>
      rcases h _ hdeed with hj | hwire
      · obtain rfl := Option.some.inj hj
        exact Option.some.inj (hsome.symm.trans hi)
      · exact absurd rfl (hwire frame answers)
    | _ => cases hsome

/-- Nothing goes out for any delivery. -/
theorem transmissions_eq_nil {requests : List (Request τ)} {deeds : Deeds τ κ}
    (h : ∀ deed ∈ deeds, deed.1 = none ∨ ∀ frame answers, deed.2 ≠ .wire frame answers) :
    transmissions requests (deeds.map fun deed => SenderDeed.transport deed.1 deed.2) = [] := by
  rw [transmissions, List.filterMap_map, List.filterMap_eq_nil_iff]
  rintro ⟨j, eff⟩ hdeed
  rcases h _ hdeed with hj | hwire
  · dsimp only at hj
    subst hj
    rfl
  · cases j with
    | none => rfl
    | some j =>
      cases eff with
      | wire frame answers => exact absurd rfl (hwire frame answers)
      | _ => rfl

/-- `send`, when the transport takes the message. -/
theorem Sound.send_open (codec : Codec τ κ) (h : s.Sound)
    (hfree : s.transport.awaitedDelivery = none) (hopen : s.transport.aborted = false)
    (r : Request τ) (ok : Bool) :
    ∃ (t : DeliveringHandler τ) (deeds : Deeds τ κ),
      s.send codec r ok =
        ({ s with
          transport := t
          promises := s.promises.create
          requests := s.requests ++ [r] }, .delivery s.transport.deliveries.length,
          .handed r false :: deeds.map fun deed => .transport deed.1 deed.2) ∧
      t.Inv ∧ t.awaitedDelivery = some s.transport.deliveries.length ∧
      t.deliveries.length = s.transport.deliveries.length + 1 ∧ t.aborted = false ∧
      ∀ deed ∈ deeds, deed.1 = some s.transport.deliveries.length := by
  have hturn : DeliveringHandler.Turn codec s.transport (.send r.msg ok) _ _ :=
    DeliveringHandler.send_turn r.msg ok
  rcases hsend : s.transport.send codec r.msg ok with ⟨t, deeds⟩
  rw [hsend] at hturn
  have hinv := hturn.inv h.inv
  cases hturn with
  | refused _ _ err herr =>
    rcases herr with ⟨hsome, -⟩ | ⟨-, haborted, -⟩
    · rw [hfree] at hsome
      cases hsome
    · cases hopen.symm.trans haborted
  | settled _ _ _ _ _ _ _ _ hends => cases hends
  | accepted _ _ msg hmsg _ _ =>
    refine ⟨_, (some s.transport.deliveries.length, .sent (s.transport.seqNumOut + 1) r.msg) ::
      (TransportHandler.resend codec ok msg).map fun eff =>
        (some s.transport.deliveries.length, eff), ?_, hinv, rfl, List.length_append, hopen, ?_⟩
    · simp only [send, hsend, hfree, Option.isSome_none]
    · intro deed hdeed
      rcases List.mem_cons.mp hdeed with rfl | hdeed
      · rfl
      · obtain ⟨eff, -, rfl⟩ := List.mem_map.mp hdeed
        rfl

/-- The head of the queue is handed to a transport that takes it. -/
theorem Sound.sendNext_open (codec : Codec τ κ) (h : s.Sound)
    (hfree : s.transport.awaitedDelivery = none) (hopen : s.transport.aborted = false)
    (hjobs : s.promises.jobs = []) (hreactions : s.promises.reactions = [])
    (hpending : s.pendingRequests = r :: rest) (ok : Bool) :
    ∃ s' deeds, s.sendNext codec ok = (s', deeds) ∧
      s'.At (.waiting s.transport.deliveries.length r rest) ∧ Tells deeds [] [r] [] [] ∧
      (∀ r' ∈ transmissions s'.requests deeds, r' = r) ∧ s'.requests = s.requests ++ [r] ∧
      s'.pushed = s.pushed ∧ s'.transport.aborted = false := by
  obtain ⟨t, deeds, hsend, hinv, hawaited, hlength, haborted, hdeeds⟩ :=
    h.send_open codec hfree hopen r ok
  have hlast : (s.requests ++ [r])[s.transport.deliveries.length]? = some r := by
    rw [← h.requests]
    exact List.getElem?_concat_length
  have hnext : s.sendNext codec ok =
      ({ s with
        transport := t
        deliveryState := some (.delivery s.transport.deliveries.length)
        promises := { s.promises with table := s.promises.table ++ [.pending [.loop r]] }
        requests := s.requests ++ [r] },
        .handed r false :: deeds.map fun deed => .transport deed.1 deed.2) := by
    simp only [sendNext, hpending, hsend, await, ← h.promises, Promises.await_create]
  refine ⟨_, _, hnext, ?_, ?_, ?_, rfl, rfl, haborted⟩
  · exact {
      inv := hinv
      promises := by
        rw [hlength, ← h.promises]
        exact List.length_append
      requests := by
        rw [hlength, ← h.requests]
        exact List.length_append
      awaited := hawaited
      pending := hpending
      delivering := rfl
      jobs := hjobs
      reactions := by
        rw [Promises.reactions_concat]
        exact congrArg (· ++ _) hreactions
      waiting := by
        rintro i r' rest' ⟨⟩
        refine ⟨rfl, ?_, hlast⟩
        rw [← h.promises]
        exact List.getElem?_concat_length
      retrying := nofun
      stopped := fun habort => nomatch haborted.symm.trans habort }
  · refine ⟨(tells_transport deeds).pushed, congrArg _ (tells_transport deeds).handed,
      (tells_transport deeds).shifted, (tells_transport deeds).called, fun r' busy hmem => ?_⟩
    rcases List.mem_cons.mp hmem with heq | hmem
    · cases heq
      rfl
    · exact (tells_transport deeds).alone r' busy hmem
  · exact transmissions_transport (fun deed hdeed => .inl (hdeeds deed hdeed)) hlast

/-- The head of the queue is handed to a transport that has been stopped. -/
theorem Sound.sendNext_closed (codec : Codec τ κ) (h : s.Sound)
    (hfree : s.transport.awaitedDelivery = none) (hclosed : s.transport.aborted = true)
    (hjobs : s.promises.jobs = []) (hreactions : s.promises.reactions = [])
    (hpending : s.pendingRequests = r :: rest) (ok : Bool) :
    ∃ s' deeds, s.sendNext codec ok = (s', deeds) ∧
      s'.At (.retrying r rest (.text "send aborted")) ∧ Tells deeds [] [r] [] [] ∧
      transmissions s'.requests deeds = [] ∧ s'.pushed = s.pushed := by
  have hsend : s.transport.send codec r.msg ok =
      (s.transport, [(none, .refused (.text "send aborted"))]) := by
    simp only [DeliveringHandler.send, hfree, hclosed, Option.isSome_none, if_true,
      Bool.false_eq_true, if_false]
  have hnext : s.sendNext codec ok =
      ({ s with
        deliveryState := some (.rejected (.text "send aborted"))
        promises := s.promises.enqueue (.loop r) (.error (.text "send aborted")) },
        [.handed r false, .transport none (.refused (.text "send aborted"))]) := by
    simp only [sendNext, hpending, send, hsend, hfree, await, Option.isSome_none, List.map_cons,
      List.map_nil]
  refine ⟨_, _, hnext, ?_, ?_, rfl, rfl⟩
  · exact {
      toSound := ⟨h.inv, h.promises, h.requests⟩
      awaited := hfree
      pending := hpending
      delivering := rfl
      jobs := by
        rw [Promises.enqueue, hjobs]
        rfl
      reactions := hreactions
      waiting := nofun
      retrying := fun _ _ _ _ => hclosed
      stopped := fun _ => .inr ⟨r, rest, _, rfl⟩ }
  · refine ⟨rfl, rfl, rfl, rfl, fun r' busy hmem => ?_⟩
    rcases List.mem_pair.mp hmem with heq | heq
    · cases heq
      rfl
    · cases heq

/-- The delivery in progress ends, and `sendSignallingMessage` is to be resumed. -/
theorem At.settled (h : s.At (.waiting i r rest)) {t : DeliveringHandler τ} (hinv : t.Inv)
    (hlength : t.deliveries.length = s.transport.deliveries.length) (sn : ℕ) (res : MyRes Unit) :
    ∃ s', s.transported (κ := κ) (t, [(some i, .returned sn res)]) =
        (s', [.transport (some i) (.returned sn res)]) ∧
      s'.Sound ∧ s'.transport = t ∧ s'.pendingRequests = r :: rest ∧
      s'.deliveryState = some (.delivery i) ∧ s'.promises.jobs = [(.loop r, res)] ∧
      s'.promises.reactions = [] ∧ s'.promises.table[i]? = some (.settled res) ∧
      s'.requests = s.requests ∧ s'.pushed = s.pushed := by
  obtain ⟨hstate, hpromise, -⟩ := h.waiting i r rest rfl
  have hlt : i < s.promises.table.length := (List.getElem?_eq_some_iff.mp hpromise).1
  refine ⟨_, rfl, ⟨hinv, ?_, h.requests.trans hlength.symm⟩, rfl, h.pending, hstate, ?_, ?_, ?_,
    rfl, rfl⟩
  · simp only [List.foldl_cons, List.foldl_nil, settleBy, Promises.settle_eq hpromise,
      List.length_set]
    exact h.promises.trans hlength.symm
  · simp only [List.foldl_cons, List.foldl_nil, settleBy, Promises.settle_eq hpromise, h.jobs]
    rfl
  · exact Promises.reactions_settle_of_eq hpromise h.reactions
  · simp only [List.foldl_cons, List.foldl_nil, settleBy, Promises.settle_eq hpromise]
    exact List.getElem?_set_self hlt

/-- The transport does something that ends no delivery. -/
theorem At.transported (h : s.At stage) {t : DeliveringHandler τ} (deeds : Deeds τ κ) (hinv : t.Inv)
    (hlength : t.deliveries.length = s.transport.deliveries.length)
    (hawaited : t.awaitedDelivery = s.transport.awaitedDelivery)
    (haborted : t.aborted = s.transport.aborted)
    (hdeeds : ∀ i sn res, (some i, Effect.returned sn res) ∉ deeds) :
    ∃ s', s.transported (t, deeds) =
        (s', deeds.map fun deed => SenderDeed.transport deed.1 deed.2) ∧
      s'.At stage ∧ s'.requests = s.requests ∧ s'.pushed = s.pushed ∧ s'.transport = t := by
  have hpromises : deeds.foldl settleBy s.promises = s.promises := by
    induction deeds with
    | nil => rfl
    | cons deed deeds ih =>
      have hfirst : settleBy s.promises deed = s.promises := by
        obtain ⟨j, eff⟩ := deed
        cases j with
        | none => rfl
        | some j =>
          cases eff with
          | returned sn res => exact absurd (List.mem_cons_self ..) (hdeeds j sn res)
          | _ => rfl
      rw [List.foldl_cons, hfirst]
      exact ih fun i sn res hmem => hdeeds i sn res (List.mem_cons_of_mem _ hmem)
  refine ⟨{ s with transport := t }, ?_, ?_, rfl, rfl, rfl⟩
  · rw [SignallingSender.transported, hpromises]
  · exact {
      inv := hinv
      promises := h.promises.trans hlength.symm
      requests := h.requests.trans hlength.symm
      awaited := hawaited.trans h.awaited
      pending := h.pending
      delivering := h.delivering
      jobs := h.jobs
      reactions := h.reactions
      waiting := h.waiting
      retrying := fun r rest err heq => haborted.trans (h.retrying r rest err heq)
      stopped := fun habort => h.stopped (haborted.symm.trans habort) }

/-- **What a step does** to the queue, and to the delivery in progress; which messages it puts into
the queue, hands to `send` and removes from the queue, and whose callbacks it calls. -/
inductive Goes (codec : Codec τ κ) (s : SignallingSender τ) : Stage τ → SenderEvent τ κ → Stage τ →
    (pushed handed shifted called : List (Request τ)) → Prop
  /-- a message is the only one in the queue -/
  | begins (msg : τ) (callback ok : Bool) (i : ℕ) :
    Goes codec s .free (.sendSignallingMessage msg callback ok)
      (.waiting i ⟨s.pushed, msg, callback⟩ []) [⟨s.pushed, msg, callback⟩]
      [⟨s.pushed, msg, callback⟩] [] []
  /-- and is refused -/
  | refused (msg : τ) (callback ok : Bool) (err : MyErr) (hclosed : s.transport.aborted = true) :
    Goes codec s .free (.sendSignallingMessage msg callback ok)
      (.retrying ⟨s.pushed, msg, callback⟩ [] err) [⟨s.pushed, msg, callback⟩]
      [⟨s.pushed, msg, callback⟩] [] []
  /-- a message is put behind others -/
  | queued (msg : τ) (callback ok : Bool) (i : ℕ) (r : Request τ) (rest : List (Request τ)) :
    Goes codec s (.waiting i r rest) (.sendSignallingMessage msg callback ok)
      (.waiting i r (rest ++ [⟨s.pushed, msg, callback⟩])) [⟨s.pushed, msg, callback⟩] [] [] []
  /-- the message is acknowledged -/
  | acked (i : ℕ) (r : Request τ) (rest : List (Request τ)) (frame : κ) (ok : Bool) (d : Delivery τ)
    (nodeId : NodeId) (hd : s.transport.deliveries[i]? = some d)
    (hdec : codec.decode frame = .ok (.ack d.sn nodeId)) :
    Goes codec s (.waiting i r rest) (.incoming frame ok) (.acked r rest) [] [] [] []
  /-- the queue is cleared -/
  | cleared (i : ℕ) (r : Request τ) (rest : List (Request τ)) (err : MyErr) :
    Goes codec s (.waiting i r rest) .onDebounceTimeout (.cleared r err) [] [] [] []
  /-- the transport is stopped -/
  | stopped (i : ℕ) (r : Request τ) (rest : List (Request τ)) (err : MyErr) :
    Goes codec s (.waiting i r rest) .close (.retrying r rest err) [] [] [] []
  /-- it was the last message -/
  | finished (r : Request τ) (ok : Bool) :
    Goes codec s (.acked r []) (.job ok) .free [] [] [r] (if r.callback then [r] else [])
  /-- it was not -/
  | next (r r' : Request τ) (rest : List (Request τ)) (ok : Bool) (i : ℕ) :
    Goes codec s (.acked r (r' :: rest)) (.job ok) (.waiting i r' rest) [] [r'] [r]
      (if r.callback then [r] else [])
  /-- `sendSignallingMessage` finds the queue cleared -/
  | leaves (r : Request τ) (err : MyErr) (ok : Bool) :
    Goes codec s (.cleared r err) (.job ok) (.left err) [] [] [] []
  /-- `onDebounceTimeout` goes on -/
  | ends (err : MyErr) (ok : Bool) : Goes codec s (.left err) (.job ok) .free [] [] [] []
  /-- the message is refused again -/
  | retries (r : Request τ) (rest : List (Request τ)) (err err' : MyErr) (ok : Bool) :
    Goes codec s (.retrying r rest err) (.job ok) (.retrying r rest err') [] [r] [] []
  /-- anything else -/
  | stays (stage : Stage τ) (e : SenderEvent τ κ) (hjobs : stage.jobs = [])
    (hpush : ∀ msg callback ok, e ≠ .sendSignallingMessage msg callback ok)
    (hclear : e = .onDebounceTimeout → stage.delivering = false)
    (hstop : e = .close → stage.delivering = false) : Goes codec s stage e stage [] [] [] []

/-- What is known of a step. -/
structure Took (codec : Codec τ κ) (s : SignallingSender τ) (stage : Stage τ) (e : SenderEvent τ κ)
    (s' : SignallingSender τ) (deeds : List (SenderDeed τ κ)) (stage' : Stage τ)
    (P H S C : List (Request τ)) : Prop where
  /-- where it leads -/
  goes : Goes codec s stage e stage' P H S C
  /-- that is where the sender stands then -/
  reached : s'.At stage'
  /-- what it tells -/
  tells : Tells deeds P H S C
  /-- what goes out is the head of the queue -/
  transmits : ∀ r ∈ transmissions s'.requests deeds, stage'.pending.head? = some r
  /-- what is handed to `send` gets a delivery, unless the transport has been stopped -/
  requests : s.transport.aborted = false → s'.requests = s.requests ++ H
  /-- messages are counted -/
  pushed : s'.pushed = s.pushed + P.length
  /-- only `close` stops the transport -/
  closed : s'.transport.aborted = (s.transport.aborted || e.isClose)

/-- A message is put into the queue. -/
theorem At.push (h : s.At stage) (hjobs : stage.jobs = []) (msg : τ) (callback ok : Bool) :
    ∃ s' deeds, s.sendSignallingMessage codec msg callback ok = (s', deeds) ∧
      ∃ stage' P H S C,
        Took codec s stage (.sendSignallingMessage msg callback ok) s' deeds stage' P H S C := by
  cases stage with
  | acked | cleared | left | retrying => cases hjobs
  | waiting i r rest =>
    obtain ⟨hstate, hpromise, hrequest⟩ := h.waiting i r rest rfl
    have hpush : s.sendSignallingMessage codec msg callback ok =
        ({ s with
          pendingRequests := s.pendingRequests ++ [⟨s.pushed, msg, callback⟩]
          pushed := s.pushed + 1 }, [.pushed ⟨s.pushed, msg, callback⟩]) := by
      rw [sendSignallingMessage]
      exact if_pos h.delivering
    refine ⟨_, _, hpush, _, _, _, _, _, .queued msg callback ok i r rest, ?_,
      ⟨rfl, rfl, rfl, rfl, nofun⟩, nofun, fun _ => (List.append_nil _).symm, rfl,
      (Bool.or_false _).symm⟩
    exact {
      toSound := ⟨h.inv, h.promises, h.requests⟩
      awaited := h.awaited
      pending := congrArg (· ++ _) h.pending
      delivering := h.delivering
      jobs := h.jobs
      reactions := h.reactions
      waiting := by
        rintro _ _ _ ⟨⟩
        exact ⟨hstate, hpromise, hrequest⟩
      retrying := nofun
      stopped := fun habort => by rcases h.stopped habort with heq | ⟨_, _, _, heq⟩ <;> cases heq }
  | free =>
    have hnone : s.deliveryState.isSome = false := h.delivering
    let s₁ : SignallingSender τ := { s with
      pendingRequests := s.pendingRequests ++ [⟨s.pushed, msg, callback⟩]
      pushed := s.pushed + 1 }
    have hsound : s₁.Sound := ⟨h.inv, h.promises, h.requests⟩
    have hpending : s₁.pendingRequests = [⟨s.pushed, msg, callback⟩] :=
      congrArg (· ++ [_]) h.pending
    have hpush : ∀ s' deeds, s₁.sendNext codec ok = (s', deeds) →
        s.sendSignallingMessage codec msg callback ok =
          (s', [.pushed ⟨s.pushed, msg, callback⟩] ++ deeds) := by
      intro s' deeds hnext
      simp only [sendSignallingMessage, hnone, Bool.false_eq_true, if_false]
      rw [hnext]
      rfl
    have hfirst : Tells ([.pushed ⟨s.pushed, msg, callback⟩] : List (SenderDeed τ κ))
        [⟨s.pushed, msg, callback⟩] [] [] [] := ⟨rfl, rfl, rfl, rfl, nofun⟩
    cases hclosed : s.transport.aborted with
    | false =>
      obtain ⟨s', deeds, hnext, hat, htells, hgo, hrequests, hpushed, haborted⟩ :=
        hsound.sendNext_open codec h.awaited hclosed h.jobs h.reactions hpending ok
      refine ⟨s', _, hpush s' deeds hnext, _, _, _, _, _, .begins msg callback ok _, hat,
        hfirst.append htells, ?_, fun _ => hrequests, hpushed, ?_⟩
      · intro r hr
        rw [hgo r hr]
        rfl
      · rw [haborted, hclosed]
        rfl
    | true =>
      obtain ⟨s', deeds, hnext, hat, htells, hgo, hpushed⟩ :=
        hsound.sendNext_closed codec h.awaited hclosed h.jobs h.reactions hpending ok
      refine ⟨s', _, hpush s' deeds hnext, _, _, _, _, _, .refused msg callback ok _ hclosed, hat,
        hfirst.append htells, ?_, fun hopen => ?_, hpushed, ?_⟩
      · intro r hr
        have hr' : r ∈ transmissions s'.requests deeds := hr
        rw [hgo] at hr'
        cases hr'
      · cases hopen.symm.trans hclosed
      · rw [hat.retrying _ _ _ rfl, hclosed]
        rfl

/-- What goes out for the delivery in progress is the head of the queue. -/
theorem At.head_of_awaited (h : s.At stage) (hi : s.transport.awaitedDelivery = some i) :
    ∃ r rest, stage = .waiting i r rest ∧ s.requests[i]? = some r := by
  have hstage := h.awaited.symm.trans hi
  cases stage with
  | waiting j r rest =>
    obtain rfl := Option.some.inj hstage
    exact ⟨r, rest, rfl, (h.waiting j r rest rfl).2.2⟩
  | free | acked | cleared | left | retrying => cases hstage

/-- A frame comes in. -/
theorem At.incoming (h : s.At stage) (hjobs : stage.jobs = []) {frame : κ} {ok : Bool}
    {r : DeliveringHandler τ × Deeds τ κ}
    (hstep : s.transport.step codec (.receive frame ok) = some r) :
    ∃ s' deeds, s.transported r = (s', deeds) ∧ ∃ stage' P H S C,
      Took codec s stage (.incoming frame ok) s' deeds stage' P H S C := by
  obtain ⟨t, deeds⟩ := r
  have hturn := DeliveringHandler.step_turn h.inv hstep
  have hinv := hturn.inv h.inv
  -- nothing ends, and nothing goes out for a delivery
  have hquiet : t.deliveries.length = s.transport.deliveries.length →
      t.awaitedDelivery = s.transport.awaitedDelivery → t.aborted = s.transport.aborted →
      (∀ deed ∈ deeds, deed.1 = none) → ∃ s' deeds', s.transported (t, deeds) = (s', deeds') ∧
        ∃ stage' P H S C, Took codec s stage (.incoming frame ok) s' deeds' stage' P H S C := by
    intro hlength hawaited haborted hnone
    obtain ⟨s', heq, hat, hrequests, hpushed, rfl⟩ := h.transported deeds hinv hlength
      hawaited haborted fun i sn res hmem => nomatch hnone _ hmem
    refine ⟨s', _, heq, _, _, _, _, _, .stays stage _ hjobs nofun nofun nofun, hat,
      tells_transport deeds, ?_, fun _ => hrequests.trans (List.append_nil _).symm, hpushed,
      haborted.trans (Bool.or_false _).symm⟩
    rw [transmissions_eq_nil fun deed hdeed => .inl (hnone deed hdeed)]
    exact nofun
  cases hturn with
  | settled _ i d res controller aborted hd hawaited hends haborted =>
    cases hends with
    | ack _ _ nodeId hdec =>
      obtain ⟨r, rest, rfl, -⟩ := h.head_of_awaited hawaited
      obtain ⟨s', heq, hsound, htransport, hpending, hstate, hjobs', hreactions, -, hrequests,
        hpushed⟩ := h.settled (κ := κ) hinv List.length_set d.sn (.ok ())
      have hopen : s'.transport.aborted = s.transport.aborted := by
        rw [htransport]
        exact haborted.trans (Bool.or_false _)
      refine ⟨s', _, heq, _, _, _, _, _, .acked i r rest frame ok d nodeId hd hdec, ?_,
        tells_transport [(some i, .returned d.sn (.ok ()))], nofun,
        fun _ => hrequests.trans (List.append_nil _).symm, hpushed,
        hopen.trans (Bool.or_false _).symm⟩
      exact {
        toSound := hsound
        awaited := by rw [htransport]; rfl
        pending := hpending
        delivering := by rw [hstate]; rfl
        jobs := hjobs'
        reactions := hreactions
        waiting := nofun
        retrying := nofun
        stopped := fun habort => by
          rcases h.stopped (hopen.symm.trans habort) with hfree | ⟨_, _, _, hretry⟩
          · cases hfree
          · cases hretry }
  | answered _ _ sn nodeId payload hdec =>
    refine hquiet rfl rfl rfl fun deed hdeed => ?_
    obtain ⟨eff, -, rfl⟩ := List.mem_map.mp hdeed
    rfl
  | ignored => exact hquiet rfl rfl rfl nofun

/-- The timer of a delivery fires. -/
theorem At.resend (h : s.At stage) (hjobs : stage.jobs = []) {j : ℕ} {ok : Bool}
    {r : DeliveringHandler τ × Deeds τ κ}
    (hstep : s.transport.step codec (.timer j ok) = some r) :
    ∃ s' deeds, s.transported r = (s', deeds) ∧ ∃ stage' P H S C,
      Took codec s stage (.resend j ok) s' deeds stage' P H S C := by
  obtain ⟨t, deeds⟩ := r
  have hturn := DeliveringHandler.step_turn h.inv hstep
  cases hturn with
  | settled _ i d res controller aborted hd hawaited hends haborted => cases hends
  | resent _ _ d hd hawaited =>
    obtain ⟨r, rest, rfl, hrequest⟩ := h.head_of_awaited hawaited
    obtain ⟨s', heq, hat, hrequests, hpushed, htransport⟩ := h.transported
      ((TransportHandler.resend codec ok d.msg).map fun eff => (some j, eff)) h.inv rfl rfl
      rfl fun i sn res hmem => by
        obtain ⟨eff, heff, heq⟩ := List.mem_map.mp hmem
        obtain ⟨frame, -, rfl⟩ := List.mem_map.mp heff
        cases heq
    refine ⟨s', _, heq, _, _, _, _, _, .stays _ _ hjobs nofun nofun nofun, hat,
      tells_transport _, ?_, fun _ => hrequests.trans (List.append_nil _).symm, hpushed, ?_⟩
    · intro r' hr'
      rw [hrequests] at hr'
      rw [transmissions_transport (fun deed hdeed => .inl ?_) hrequest r' hr']
      · rfl
      · obtain ⟨eff, -, rfl⟩ := List.mem_map.mp hdeed
        rfl
    · rw [htransport]
      exact (Bool.or_false _).symm

/-- `close` stops the transport. -/
theorem At.close (h : s.At stage) (hjobs : stage.jobs = []) {r : DeliveringHandler τ × Deeds τ κ}
    (hstep : s.transport.step codec .stop = some r) :
    ∃ s' deeds, s.transported r = (s', deeds) ∧ ∃ stage' P H S C,
      Took codec s stage .close s' deeds stage' P H S C := by
  obtain ⟨t, deeds⟩ := r
  have hturn := DeliveringHandler.step_turn h.inv hstep
  have hinv := hturn.inv h.inv
  cases hturn with
  | settled _ i d res controller aborted hd hawaited hends haborted =>
    cases hends with
    | stop =>
      obtain ⟨r, rest, rfl, -⟩ := h.head_of_awaited hawaited
      obtain ⟨s', heq, hsound, htransport, hpending, hstate, hjobs', hreactions, -, hrequests,
        hpushed⟩ := h.settled (κ := κ) hinv List.length_set d.sn (.error (.text "send aborted"))
      refine ⟨s', _, heq, _, _, _, _, _, .stopped i r rest (.text "send aborted"), ?_,
        tells_transport [(some i, .returned d.sn (.error (.text "send aborted")))], nofun,
        fun _ => hrequests.trans (List.append_nil _).symm, hpushed, ?aborted⟩
      case aborted =>
        rw [htransport]
        exact haborted
      exact {
        toSound := hsound
        awaited := by rw [htransport]; rfl
        pending := hpending
        delivering := by rw [hstate]; rfl
        jobs := hjobs'
        reactions := hreactions
        waiting := nofun
        retrying := fun _ _ _ _ => by
          rw [htransport]
          exact haborted.trans (Bool.or_true _)
        stopped := fun _ => .inr ⟨r, rest, _, rfl⟩ }
  | stopped hfree =>
    have hstage : stage = .free := by
      cases stage with
      | free => rfl
      | waiting i r rest => cases h.awaited.symm.trans hfree
      | acked | cleared | left | retrying => cases hjobs
    subst hstage
    refine ⟨_, _, rfl, _, _, _, _, _, .stays .free .close rfl nofun nofun fun _ => rfl, ?_,
      tells_nil, nofun, fun _ => (List.append_nil _).symm, rfl, (Bool.or_true _).symm⟩
    exact {
      toSound := ⟨hinv, h.promises, h.requests⟩
      awaited := h.awaited
      pending := h.pending
      delivering := h.delivering
      jobs := h.jobs
      reactions := h.reactions
      waiting := nofun
      retrying := nofun
      stopped := fun _ => .inl rfl }

/-- The queue is cleared. -/
theorem At.onDebounceTimeout (h : s.At stage) (hjobs : stage.jobs = []) :
    ∃ s' deeds, s.onDebounceTimeout = (s', deeds) ∧ ∃ stage' P H S C,
      Took codec s stage .onDebounceTimeout s' deeds stage' P H S C := by
  cases stage with
  | acked | cleared | left | retrying => cases hjobs
  | free =>
    have hnone : s.deliveryState = none :=
      Option.isNone_iff_eq_none.mp (Option.isSome_eq_false_iff.mp h.delivering)
    have heq : s.onDebounceTimeout = (s, ([] : List (SenderDeed τ κ))) := by
      simp only [SignallingSender.onDebounceTimeout, hnone]
    exact ⟨s, [], heq, _, _, _, _, _, .stays .free _ rfl nofun (fun _ => rfl) nofun, h, tells_nil,
      nofun, fun _ => (List.append_nil _).symm, rfl, (Bool.or_false _).symm⟩
  | waiting i r rest =>
    obtain ⟨hstate, hpromise, -⟩ := h.waiting i r rest rfl
    have hlt : i < s.transport.deliveries.length := by
      rw [← h.promises]
      exact (List.getElem?_eq_some_iff.mp hpromise).1
    have hturn : DeliveringHandler.Turn codec s.transport
        (.abort i "Making new negotiation attempt") _ _ := DeliveringHandler.abort_turn h.inv _ hlt
    rcases habort : s.transport.abortController (κ := κ) i "Making new negotiation attempt" with
      ⟨t, deeds⟩
    rw [habort] at hturn
    have hinv := hturn.inv h.inv
    cases hturn with
    | late _ _ d hd hold => exact absurd h.awaited hold
    | settled _ j d res controller aborted hd hawaited hends haborted =>
      obtain rfl : i = j := Option.some.inj (h.awaited.symm.trans hawaited)
      obtain ⟨s', heq, hsound, htransport, -, hstate', hjobs', hreactions, hsettled, hrequests,
        hpushed⟩ := h.settled (κ := κ) hinv List.length_set d.sn res
      have hopen : s'.transport.aborted = s.transport.aborted := by
        rw [htransport]
        refine haborted.trans ?_
        cases hends with
        | abort => exact Bool.or_false _
      obtain ⟨err, rfl⟩ : ∃ err, res = .error err := by
        cases hends with
        | abort => exact ⟨_, rfl⟩
      have hclear : s.onDebounceTimeout =
          ({ s' with
            pendingRequests := []
            promises := s'.promises.enqueue .debounce (.error err) },
            [.transport (κ := κ) (some i) (.returned d.sn (.error err))]) := by
        obtain ⟨rfl, -⟩ := Prod.mk.inj heq
        rw [← Promises.await_settled hsettled]
        simp only [SignallingSender.onDebounceTimeout, hstate, habort, await]
        rfl
      refine ⟨_, _, hclear, _, _, _, _, _, .cleared i r rest err, ?_,
        tells_transport [(some i, .returned d.sn (.error err))], nofun,
        fun _ => hrequests.trans (List.append_nil _).symm, hpushed,
        hopen.trans (Bool.or_false _).symm⟩
      exact {
        toSound := ⟨hsound.inv, hsound.promises, hsound.requests⟩
        awaited := by
          dsimp only
          rw [htransport]
          rfl
        pending := rfl
        delivering := by
          dsimp only
          rw [hstate']
          rfl
        jobs := by
          rw [Promises.enqueue, hjobs']
          rfl
        reactions := hreactions
        waiting := nofun
        retrying := nofun
        stopped := fun habort => by
          rcases h.stopped (hopen.symm.trans habort) with hfree | ⟨_, _, _, hretry⟩
          · cases hfree
          · cases hretry }

/-- `sendSignallingMessage` is resumed by an acknowledgement. -/
theorem At.acknowledged (h : s.At (.acked r rest)) (ok : Bool) :
    ∃ s' deeds, { s with promises := { s.promises with jobs := [] } }.resume codec ok (.ok ())
        (.loop r) = (s', deeds) ∧ ∃ stage' P H S C,
      Took codec s (.acked r rest) (.job ok) s' deeds stage' P H S C := by
  have hopen : s.transport.aborted = false := by
    cases hclosed : s.transport.aborted with
    | false => rfl
    | true => rcases h.stopped hclosed with heq | ⟨_, _, _, heq⟩ <;> cases heq
  have hhead : s.pendingRequests.head? = some r := by
    rw [h.pending]
    rfl
  let s₁ : SignallingSender τ := { s with
    promises := { s.promises with jobs := [] }
    pendingRequests := s.pendingRequests.tail }
  have hsound : s₁.Sound := ⟨h.inv, h.promises, h.requests⟩
  have htail : s₁.pendingRequests = rest := congrArg List.tail h.pending
  let told : List (SenderDeed τ κ) := [.shifted r] ++ if r.callback then [.callback r] else []
  have hresume : ∀ s' deeds, s₁.sendNext codec ok = (s', deeds) →
      ({ s with promises := { s.promises with jobs := [] } } : SignallingSender τ).resume codec
        ok (.ok ()) (.loop r) = (s', told ++ deeds) := by
    intro s' deeds hnext
    simp only [resume, resumeLoop, hhead]
    rw [hnext]
    rfl
  have hfirst : Tells told [] [] [r] (if r.callback then [r] else []) := by
    cases hcallback : r.callback with
    | true | false =>
      simp only [told, hcallback]
      exact ⟨rfl, rfl, rfl, rfl, fun _ _ hmem => by simp at hmem⟩
  have hsilent : ∀ requests : List (Request τ), transmissions requests told = [] := by
    intro requests
    cases hcallback : r.callback with
    | true => simp only [told, hcallback]; rfl
    | false => simp only [told, hcallback]; rfl
  cases rest with
  | nil =>
    have hlast : s₁.sendNext codec ok = ({ s₁ with deliveryState := none }, []) := by
      rw [sendNext, htail]
    refine ⟨{ s₁ with deliveryState := none }, told, (hresume _ _ hlast).trans ?_, _, _, _, _, _,
      .finished r ok, ?_, hfirst, ?_, fun _ => (List.append_nil _).symm, rfl,
      (Bool.or_false _).symm⟩
    · rw [List.append_nil]
    · exact {
        toSound := ⟨h.inv, h.promises, h.requests⟩
        awaited := h.awaited
        pending := htail
        delivering := rfl
        jobs := rfl
        reactions := h.reactions
        waiting := nofun
        retrying := nofun
        stopped := fun _ => .inl rfl }
    · rw [hsilent]
      exact nofun
  | cons r' rest =>
    obtain ⟨s', deeds, hnext, hat, htells, hgo, hrequests, hpushed, haborted⟩ :=
      hsound.sendNext_open codec h.awaited hopen rfl h.reactions htail ok
    refine ⟨s', _, hresume s' deeds hnext, _, _, _, _, _, .next r r' rest ok _, hat,
      ?_, ?_, fun _ => hrequests, hpushed, ?_⟩
    · have htold := hfirst.append htells
      simp only [List.append_nil, List.nil_append] at htold
      exact htold
    · intro r'' hr
      rw [transmissions, List.filterMap_append] at hr
      rcases List.mem_append.mp hr with hr | hr
      · have hnone := hsilent s'.requests
        rw [transmissions] at hnone
        rw [hnone] at hr
        cases hr
      · rw [hgo r'' hr]
        rfl
    · rw [haborted, hopen]
      rfl

/-- A job is done. -/
theorem At.job (h : s.At stage) {k : Resumption τ} {res : MyRes Unit}
    {promises : Promises (Resumption τ) (MyRes Unit)}
    (hnext : s.promises.next = some ((k, res), promises)) (ok : Bool) :
    ∃ s' deeds, { s with promises }.resume codec ok res k = (s', deeds) ∧ ∃ stage' P H S C,
      Took codec s stage (.job ok) s' deeds stage' P H S C := by
  have hjobs := h.jobs
  rw [Promises.next] at hnext
  split at hnext
  · cases hnext
  · case h_2 job jobs hqueue =>
    obtain ⟨rfl, rfl⟩ := Prod.mk.inj (Option.some.inj hnext)
    rw [hqueue] at hjobs
    cases stage with
    | free | waiting => cases hjobs
    | acked r rest =>
      obtain ⟨hjob, rfl⟩ := List.cons.inj hjobs
      obtain ⟨rfl, rfl⟩ := Prod.mk.inj hjob
      exact h.acknowledged ok
    | cleared r err =>
      obtain ⟨hjob, rfl⟩ := List.cons.inj hjobs
      obtain ⟨rfl, rfl⟩ := Prod.mk.inj hjob
      have hempty : s.pendingRequests = [] := h.pending
      refine ⟨{ s with
          deliveryState := none
          promises := { s.promises with jobs := [(.debounce, .error err)] } }, [], ?_, _, _, _, _,
        _, .leaves r err ok, ?_, tells_nil, nofun, fun _ => (List.append_nil _).symm, rfl,
        (Bool.or_false _).symm⟩
      · simp only [resume, resumeLoop, sendNext, hempty]
      · exact {
          toSound := ⟨h.inv, h.promises, h.requests⟩
          awaited := h.awaited
          pending := hempty
          delivering := rfl
          jobs := rfl
          reactions := h.reactions
          waiting := nofun
          retrying := nofun
          stopped := fun habort => by
            rcases h.stopped habort with heq | ⟨_, _, _, heq⟩ <;> cases heq }
    | left err =>
      obtain ⟨hjob, rfl⟩ := List.cons.inj hjobs
      obtain ⟨rfl, rfl⟩ := Prod.mk.inj hjob
      refine ⟨_, [], rfl, _, _, _, _, _, .ends err ok, ?_, tells_nil, nofun,
        fun _ => (List.append_nil _).symm, rfl, (Bool.or_false _).symm⟩
      exact {
        toSound := ⟨h.inv, h.promises, h.requests⟩
        awaited := h.awaited
        pending := h.pending
        delivering := rfl
        jobs := rfl
        reactions := h.reactions
        waiting := nofun
        retrying := nofun
        stopped := fun _ => .inl rfl }
    | retrying r rest err =>
      obtain ⟨hjob, rfl⟩ := List.cons.inj hjobs
      obtain ⟨rfl, rfl⟩ := Prod.mk.inj hjob
      have hclosed := h.retrying r rest err rfl
      have hsound : Sound { s with promises := { s.promises with jobs := [] } } :=
        ⟨h.inv, h.promises, h.requests⟩
      obtain ⟨s', deeds, hnext, hat, htells, hgo, hpushed⟩ :=
        hsound.sendNext_closed codec h.awaited hclosed rfl h.reactions h.pending ok
      refine ⟨s', deeds, hnext, _, _, _, _, _, .retries r rest err _ ok, hat, htells, ?_,
        fun hopen => ?_, hpushed, ?_⟩
      · rw [hgo]
        exact nofun
      · cases hopen.symm.trans hclosed
      · rw [hat.retrying _ _ _ rfl, hclosed]
        rfl

/-- Every step is one of them. -/
theorem At.step {deeds : List (SenderDeed τ κ)} (h : s.At stage)
    (hstep : s.step codec e = some (s', deeds)) :
    ∃ stage' P H S C, Took codec s stage e s' deeds stage' P H S C := by
  have hquiet : s.promises.jobs.isEmpty = true → stage.jobs = [] := fun hempty =>
    h.jobs.symm.trans (List.isEmpty_iff.mp hempty)
  have hclose : ∀ {r : SignallingSender τ × List (SenderDeed τ κ)}, r = (s', deeds) →
      (∃ s' deeds, r = (s', deeds) ∧ ∃ stage' P H S C,
        Took codec s stage e s' deeds stage' P H S C) →
      ∃ stage' P H S C, Took codec s stage e s' deeds stage' P H S C := by
    rintro r rfl ⟨s'', deeds', heq, htook⟩
    obtain ⟨rfl, rfl⟩ := Prod.mk.inj heq
    exact htook
  cases e with
  | job ok =>
    obtain ⟨⟨⟨k, res⟩, promises⟩, hnext, heq⟩ := Option.map_eq_some_iff.mp hstep
    exact hclose heq (h.job hnext ok)
  | sendSignallingMessage msg callback ok =>
    obtain ⟨hempty, heq⟩ := Option.ite_none_right_eq_some.mp hstep
    exact hclose (Option.some.inj heq) (h.push (hquiet hempty) msg callback ok)
  | incoming frame ok =>
    obtain ⟨hempty, heq⟩ := Option.ite_none_right_eq_some.mp hstep
    obtain ⟨r, hr, heq⟩ := Option.map_eq_some_iff.mp heq
    exact hclose heq (h.incoming (hquiet hempty) hr)
  | resend i ok =>
    obtain ⟨hempty, heq⟩ := Option.ite_none_right_eq_some.mp hstep
    obtain ⟨r, hr, heq⟩ := Option.map_eq_some_iff.mp heq
    exact hclose heq (h.resend (hquiet hempty) hr)
  | onDebounceTimeout =>
    obtain ⟨hempty, heq⟩ := Option.ite_none_right_eq_some.mp hstep
    exact hclose (Option.some.inj heq) (h.onDebounceTimeout (hquiet hempty))
  | close =>
    obtain ⟨hempty, heq⟩ := Option.ite_none_right_eq_some.mp hstep
    obtain ⟨r, hr, heq⟩ := Option.map_eq_some_iff.mp heq
    exact hclose heq (h.close (hquiet hempty) hr)

end SignallingSender

end Ts

end Vamp
