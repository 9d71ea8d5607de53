import Vamp.FiniteMap
import Vamp.StateMachine
import Vamp.TransportTypes

/-!
# Who owns a data channel

The data channels of `rtc_connector.rs`: `on_data_channel` puts a channel into the map under
its label and releases the one that was there, `close_data_channels` releases all, and
`wait_for_a_data_channel_connector` makes a transport handler for the channel that it finds.
All of them are tasks, and what runs between two awaits, or under one lock, is a step.

A channel is looked up under the lock of the map and claimed under the lock of its own slot. In
between it may be released. So a handler may be made for a channel that nobody will release any
more (`claimedLate_not_oneOwner`), and two handlers may be there at once. Without such a claim
there is one owner at most (`oneOwner_of_along`).
-/

namespace Vamp

/-- Who has locked `transport_handler_control`. -/
inductive Holder : Type where
  /-- a call of `wait_for_a_data_channel_connector` -/
  | waiter (w : ℕ) : Holder
  /-- `close_data_channels` -/
  | closer : Holder
  deriving DecidableEq, Repr

/-- How far a channel has got, and the variable `previous_control` (or `control`) of the task
that releases it. -/
inductive Stage : Type where
  /-- it is not in the map yet -/
  | arriving : Stage
  /-- it is in the map -/
  | entry : Stage
  /-- it is no longer in the map -/
  | removed : Stage
  /-- its control has been taken -/
  | taken (control : Option ℕ) : Stage
  /-- the handler has been cancelled -/
  | cancelled : Stage
  /-- the channel has been closed -/
  | closed : Stage
  deriving DecidableEq, Repr

/-- A data channel with its `TransportHandlerState`. -/
structure Channel : Type where
  /-- the label -/
  label : String
  /-- `transport_handler_control`: which handler -/
  control : Option ℕ
  /-- who has locked it -/
  lock : Option Holder
  /-- how far the channel has got -/
  stage : Stage

/-- How far `on_data_channel` has got. -/
inductive Arrival : Type where
  /-- to insert the new channel -/
  | insert : Arrival
  /-- to release the channel that was there -/
  | releasing (c : ℕ) : Arrival
  /-- to notify -/
  | notify : Arrival
  /-- done -/
  | done : Arrival
  deriving DecidableEq, Repr

/-- How far `wait_for_a_data_channel_connector` has got. -/
inductive Waiter : Type where
  /-- to look into the map -/
  | looking : Waiter
  /-- it has found nothing -/
  | missed : Waiter
  /-- it waits in `notified` -/
  | asleep : Waiter
  /-- it has found a channel -/
  | found (c : ℕ) : Waiter
  /-- it has locked the slot of the channel -/
  | holding (c : ℕ) : Waiter
  /-- it has made a handler -/
  | storing (c : ℕ) : Waiter
  /-- it has returned -/
  | returned (res : MyRes Unit) : Waiter

/-- A transport handler over a data channel. -/
structure Owner : Type where
  /-- the channel -/
  channel : ℕ
  /-- whether its control has been cancelled -/
  cancelled : Bool
  deriving DecidableEq, Repr

/-- The data channels of an `RtcConnector`, and the tasks on them. -/
structure DataChannels : Type where
  /-- `shared_state` -/
  map : Finmap fun _ : String => ℕ
  /-- all channels that have arrived -/
  channels : ℕ → Option Channel
  /-- `on_data_channel`, by the channel that has arrived -/
  arrivals : ℕ → Option Arrival
  /-- what `close_data_channels` has still to release -/
  closing : List ℕ
  /-- the calls of `wait_for_a_data_channel_connector` -/
  waiters : ℕ → Option Waiter
  /-- the handlers, by the call that has made them -/
  owners : ℕ → Option Owner

/-- Who releases a channel. -/
inductive Releaser : Type where
  /-- `on_data_channel` -/
  | arrival (k : ℕ) : Releaser
  /-- `close_data_channels` -/
  | closer : Releaser
  deriving DecidableEq, Repr

/-- What can happen to the data channels. -/
inductive ChannelEvent : Type where
  /-- a channel arrives -/
  | arrive (k : ℕ) (label : String) : ChannelEvent
  /-- it is inserted into the map -/
  | insert (k : ℕ) : ChannelEvent
  /-- the waiters are notified -/
  | notify (k : ℕ) : ChannelEvent
  /-- `close_data_channels` drains the map, in the order of its hashes -/
  | drain (order : List ℕ) : ChannelEvent
  /-- the control of a channel is taken out of its slot -/
  | take (r : Releaser) : ChannelEvent
  /-- and cancelled -/
  | cancel (r : Releaser) : ChannelEvent
  /-- and the channel is closed -/
  | close (r : Releaser) : ChannelEvent
  /-- `wait_for_a_data_channel_connector` is called -/
  | wait (w : ℕ) : ChannelEvent
  /-- it looks into the map -/
  | lookup (w : ℕ) : ChannelEvent
  /-- it waits -/
  | sleep (w : ℕ) : ChannelEvent
  /-- it locks the slot of the channel -/
  | lock (w : ℕ) : ChannelEvent
  /-- it makes a handler, unless there is one -/
  | claim (w : ℕ) : ChannelEvent
  /-- it stores the control and returns -/
  | store (w : ℕ) : ChannelEvent

namespace DataChannels

/-- No channel has arrived. -/
def new : DataChannels where
  map := ∅
  channels := fun _ => none
  arrivals := fun _ => none
  closing := []
  waiters := fun _ => none
  owners := fun _ => none

/-- A channel changes. -/
def setChannel (s : DataChannels) (c : ℕ) (ch : Channel) : DataChannels :=
  { s with channels := Function.update s.channels c (some ch) }

/-- `on_data_channel` goes on. -/
def setArrival (s : DataChannels) (k : ℕ) (a : Arrival) : DataChannels :=
  { s with arrivals := Function.update s.arrivals k (some a) }

/-- A waiter goes on. -/
def setWaiter (s : DataChannels) (w : ℕ) (a : Waiter) : DataChannels :=
  { s with waiters := Function.update s.waiters w (some a) }

/-- A handler is made, or cancelled. -/
def setOwner (s : DataChannels) (w : ℕ) (o : Owner) : DataChannels :=
  { s with owners := Function.update s.owners w (some o) }

/-- Channels leave the map. -/
def remove (s : DataChannels) (cs : List ℕ) : DataChannels :=
  { s with
    channels := fun c => if c ∈ cs then
      (s.channels c).map fun ch => { ch with stage := .removed } else s.channels c }

/-- `on_data_channel`, before its future. -/
def arrive (s : DataChannels) (k : ℕ) (label : String) : DataChannels :=
  (s.setChannel k ⟨label, none, none, .arriving⟩).setArrival k .insert

/-- `insert`. The channel that was there is for this task to release. -/
def insert (s : DataChannels) (k : ℕ) (ch : Channel) : DataChannels :=
  let previous := s.map.lookup ch.label
  let s := { s.remove previous.toList with map := s.map.insert ch.label k }
  let s := s.setChannel k { ch with stage := .entry }
  s.setArrival k (previous.elim .notify .releasing)

/-- `notify_waiters`: whoever waits looks again. -/
def notifyWaiters (s : DataChannels) : DataChannels :=
  { s with waiters := fun w => match s.waiters w with
      | some .asleep => some .looking
      | a => a }

/-- The channel that a task is about to release. -/
def target (s : DataChannels) : Releaser → Option ℕ
  | .arrival k =>
    match s.arrivals k with
    | some (.releasing c) => some c
    | _ => none
  | .closer => s.closing.head?

/-- `transport_handler_control.lock().await.take()`. `close_data_channels` keeps the lock until it
has cancelled. -/
def take (s : DataChannels) (r : Releaser) (c : ℕ) (ch : Channel) : DataChannels :=
  s.setChannel c { ch with
    control := none
    lock := if r = .closer then some .closer else none
    stage := .taken ch.control }

/-- `control.cancel()`, if there is one. -/
def cancelControl (s : DataChannels) (control : Option ℕ) : DataChannels :=
  { s with owners := fun w =>
      if control = some w then (s.owners w).map fun o => { o with cancelled := true }
      else s.owners w }

/-- The control that was taken is cancelled, and `close_data_channels` unlocks. -/
def cancel (s : DataChannels) (c : ℕ) (ch : Channel) (control : Option ℕ) : DataChannels :=
  (s.cancelControl control).setChannel c { ch with
    lock := if ch.lock = some .closer then none else ch.lock
    stage := .cancelled }

/-- `dc.close()`, and what comes next. -/
def close (s : DataChannels) (r : Releaser) (c : ℕ) (ch : Channel) : DataChannels :=
  let s := s.setChannel c { ch with stage := .closed }
  match r with
  | .arrival k => s.setArrival k .notify
  | .closer => { s with closing := s.closing.tail }

/-- One step. -/
def step (s : DataChannels) : ChannelEvent → Option DataChannels
  | .arrive k label => if s.channels k = none then some (s.arrive k label) else none
  | .insert k => do
    let ch ← s.channels k
    if s.arrivals k = some .insert then some (s.insert k ch) else none
  | .notify k =>
    if s.arrivals k = some .notify then some (s.notifyWaiters.setArrival k .done) else none
  | .drain order =>
    if s.closing = [] ∧ s.map.entries.map Sigma.snd = ↑order then
      some { s.remove order with map := ∅, closing := order }
    else none
  | .take r => do
    let c ← s.target r
    let ch ← s.channels c
    if ch.stage = .removed ∧ ch.lock = none then some (s.take r c ch) else none
  | .cancel r => do
    let c ← s.target r
    let ch ← s.channels c
    match ch.stage with
    | .taken control => some (s.cancel c ch control)
    | _ => none
  | .close r => do
    let c ← s.target r
    let ch ← s.channels c
    if ch.stage = .cancelled then some (s.close r c ch) else none
  | .wait w => if (s.waiters w).isNone then some (s.setWaiter w .looking) else none
  | .lookup w =>
    match s.waiters w with
    | some .looking => some (s.setWaiter w ((s.map.lookup "default").elim .missed .found))
    | _ => none
  | .sleep w =>
    match s.waiters w with
    | some .missed => some (s.setWaiter w .asleep)
    | _ => none
  | .lock w =>
    match s.waiters w with
    | some (.found c) => do
      let ch ← s.channels c
      if ch.lock = none then
        some ((s.setChannel c { ch with lock := some (.waiter w) }).setWaiter w (.holding c))
      else none
    | _ => none
  | .claim w =>
    match s.waiters w with
    | some (.holding c) => do
      let ch ← s.channels c
      if ch.control.isSome then
        some ((s.setChannel c { ch with lock := none }).setWaiter w
          (.returned (.error (.text "transport handler already has an owner"))))
      else some ((s.setOwner w ⟨c, false⟩).setWaiter w (.storing c))
    | _ => none
  | .store w =>
    match s.waiters w with
    | some (.storing c) => do
      let ch ← s.channels c
      some ((s.setChannel c { ch with control := some w, lock := none }).setWaiter w
        (.returned (.ok ())))
    | _ => none

/-- The data channels as a state machine. -/
def machine : StateMachine DataChannels ChannelEvent where
  init := .new
  step := step

/-! ## What a step can do -/

/-- The steps, with what they require. -/
inductive Moves (s : DataChannels) : ChannelEvent → DataChannels → Prop
  | arrive (k : ℕ) (label : String) (hfresh : s.channels k = none) :
    Moves s (.arrive k label) (s.arrive k label)
  | insert (k : ℕ) (ch : Channel) (hch : s.channels k = some ch)
    (harrival : s.arrivals k = some .insert) : Moves s (.insert k) (s.insert k ch)
  | notify (k : ℕ) (harrival : s.arrivals k = some .notify) :
    Moves s (.notify k) (s.notifyWaiters.setArrival k .done)
  | drain (order : List ℕ) (hidle : s.closing = [])
    (horder : s.map.entries.map Sigma.snd = ↑order) :
    Moves s (.drain order) { s.remove order with map := ∅, closing := order }
  | take (r : Releaser) (c : ℕ) (ch : Channel) (htarget : s.target r = some c)
    (hch : s.channels c = some ch) (hstage : ch.stage = .removed) (hlock : ch.lock = none) :
    Moves s (.take r) (s.take r c ch)
  | cancel (r : Releaser) (c : ℕ) (ch : Channel) (control : Option ℕ)
    (htarget : s.target r = some c) (hch : s.channels c = some ch)
    (hstage : ch.stage = .taken control) : Moves s (.cancel r) (s.cancel c ch control)
  | close (r : Releaser) (c : ℕ) (ch : Channel) (htarget : s.target r = some c)
    (hch : s.channels c = some ch) (hstage : ch.stage = .cancelled) :
    Moves s (.close r) (s.close r c ch)
  | wait (w : ℕ) (hfresh : s.waiters w = none) : Moves s (.wait w) (s.setWaiter w .looking)
  | lookup (w : ℕ) (hw : s.waiters w = some .looking) :
    Moves s (.lookup w) (s.setWaiter w ((s.map.lookup "default").elim .missed .found))
  | sleep (w : ℕ) (hw : s.waiters w = some .missed) : Moves s (.sleep w) (s.setWaiter w .asleep)
  | lock (w c : ℕ) (ch : Channel) (hw : s.waiters w = some (.found c))
    (hch : s.channels c = some ch) (hlock : ch.lock = none) :
    Moves s (.lock w)
      ((s.setChannel c { ch with lock := some (.waiter w) }).setWaiter w (.holding c))
  | refuse (w c : ℕ) (ch : Channel) (hw : s.waiters w = some (.holding c))
    (hch : s.channels c = some ch) (howner : ch.control.isSome = true) :
    Moves s (.claim w) ((s.setChannel c { ch with lock := none }).setWaiter w
      (.returned (.error (.text "transport handler already has an owner"))))
  | claim (w c : ℕ) (ch : Channel) (hw : s.waiters w = some (.holding c))
    (hch : s.channels c = some ch) (hfree : ch.control = none) :
    Moves s (.claim w) ((s.setOwner w ⟨c, false⟩).setWaiter w (.storing c))
  | store (w c : ℕ) (ch : Channel) (hw : s.waiters w = some (.storing c))
    (hch : s.channels c = some ch) :
    Moves s (.store w) ((s.setChannel c { ch with control := some w, lock := none }).setWaiter w
      (.returned (.ok ())))

variable {s s' : DataChannels}

/-- **What a step can do**. -/
theorem step_moves {e : ChannelEvent} (h : s.step e = some s') : Moves s e s' := by
  cases e with
  | arrive k label =>
    obtain ⟨hfresh, heq⟩ := Option.ite_none_right_eq_some.mp h
    obtain rfl := Option.some.inj heq
    exact .arrive k label hfresh
  | insert k =>
    obtain ⟨ch, hch, h⟩ := Option.bind_eq_some_iff.mp h
    obtain ⟨harrival, heq⟩ := Option.ite_none_right_eq_some.mp h
    obtain rfl := Option.some.inj heq
    exact .insert k ch hch harrival
  | notify k =>
    obtain ⟨harrival, heq⟩ := Option.ite_none_right_eq_some.mp h
    obtain rfl := Option.some.inj heq
    exact .notify k harrival
  | drain order =>
    obtain ⟨⟨hidle, horder⟩, heq⟩ := Option.ite_none_right_eq_some.mp h
    obtain rfl := Option.some.inj heq
    exact .drain order hidle horder
  | take r =>
    obtain ⟨c, htarget, h⟩ := Option.bind_eq_some_iff.mp h
    obtain ⟨ch, hch, h⟩ := Option.bind_eq_some_iff.mp h
    obtain ⟨⟨hstage, hlock⟩, heq⟩ := Option.ite_none_right_eq_some.mp h
    obtain rfl := Option.some.inj heq
    exact .take r c ch htarget hch hstage hlock
  | cancel r =>
    obtain ⟨c, htarget, h⟩ := Option.bind_eq_some_iff.mp h
    obtain ⟨ch, hch, h⟩ := Option.bind_eq_some_iff.mp h
    split at h
    · rename_i control hstage
      obtain rfl := Option.some.inj h
      exact .cancel r c ch control htarget hch hstage
    · cases h
  | close r =>
    obtain ⟨c, htarget, h⟩ := Option.bind_eq_some_iff.mp h
    obtain ⟨ch, hch, h⟩ := Option.bind_eq_some_iff.mp h
    obtain ⟨hstage, heq⟩ := Option.ite_none_right_eq_some.mp h
    obtain rfl := Option.some.inj heq
    exact .close r c ch htarget hch hstage
  | wait w =>
    obtain ⟨hfresh, heq⟩ := Option.ite_none_right_eq_some.mp h
    obtain rfl := Option.some.inj heq
    exact .wait w (Option.isNone_iff_eq_none.mp hfresh)
  | lookup w =>
    simp only [step] at h
    split at h
    · rename_i hw
      obtain rfl := Option.some.inj h
      exact .lookup w hw
    · cases h
  | sleep w =>
    simp only [step] at h
    split at h
    · rename_i hw
      obtain rfl := Option.some.inj h
      exact .sleep w hw
    · cases h
  | lock w =>
    simp only [step] at h
    split at h
    · rename_i c hw
      obtain ⟨ch, hch, h⟩ := Option.bind_eq_some_iff.mp h
      obtain ⟨hlock, heq⟩ := Option.ite_none_right_eq_some.mp h
      obtain rfl := Option.some.inj heq
      exact .lock w c ch hw hch hlock
    · cases h
  | claim w =>
    simp only [step] at h
    split at h
    · rename_i c hw
      obtain ⟨ch, hch, h⟩ := Option.bind_eq_some_iff.mp h
      split at h
      · case isTrue howner =>
        obtain rfl := Option.some.inj h
        exact .refuse w c ch hw hch howner
      · case isFalse hfree =>
        obtain rfl := Option.some.inj h
        exact .claim w c ch hw hch (by simpa using hfree)
    · cases h
  | store w =>
    simp only [step] at h
    split at h
    · rename_i c hw
      obtain ⟨ch, hch, h⟩ := Option.bind_eq_some_iff.mp h
      obtain rfl := Option.some.inj h
      exact .store w c ch hw hch
    · cases h

/-! ## Where a channel is -/

/-- The label and the stage of a channel. -/
def place (s : DataChannels) (c : ℕ) : Option (String × Stage) :=
  (s.channels c).map fun ch => (ch.label, ch.stage)

/-- A task has the channel to release. -/
def Busy (s : DataChannels) (c : ℕ) : Prop :=
  (∃ k, s.arrivals k = some (.releasing c)) ∨ c ∈ s.closing

/-- What a stage says about the map and the tasks. -/
def Placed (s : DataChannels) (c : ℕ) (label : String) : Stage → Prop
  | .arriving => s.arrivals c = some .insert
  | .entry => s.map.lookup label = some c
  | .removed | .taken _ | .cancelled => s.Busy c
  | .closed => True

/-- Stages, map and tasks fit together. -/
structure Placement (s : DataChannels) : Prop where
  /-- what is in the map is an entry -/
  mapped : ∀ l c, s.map.lookup l = some c → s.place c = some (l, .entry)
  /-- a task belongs to a channel -/
  arrived : ∀ k a, s.arrivals k = some a → s.place k ≠ none
  /-- what is to be inserted is not in the map -/
  inserting : ∀ k, s.arrivals k = some .insert → ∃ l, s.place k = some (l, .arriving)
  /-- every channel is where its stage says -/
  placed : ∀ c l st, s.place c = some (l, st) → s.Placed c l st

theorem placement_new : Placement new where
  mapped _ _ h := nomatch h
  arrived _ _ h := nomatch h
  inserting _ h := nomatch h
  placed _ _ _ h := nomatch h

theorem place_eq {c : ℕ} {ch : Channel} (h : s.channels c = some ch) :
    s.place c = some (ch.label, ch.stage) := by rw [place, h, Option.map_some]

/-- What is drained was in the map. -/
theorem mem_order_iff {order : List ℕ} (h : s.map.entries.map Sigma.snd = ↑order) (c : ℕ) :
    c ∈ order ↔ ∃ l, s.map.lookup l = some c := by
  rw [← Multiset.mem_coe, ← h, Multiset.mem_map]
  constructor
  · rintro ⟨⟨l, c⟩, hmem, rfl⟩
    exact ⟨l, Finmap.mem_lookup_iff.mpr hmem⟩
  · rintro ⟨l, hl⟩
    exact ⟨⟨l, c⟩, Finmap.mem_lookup_iff.mp hl, rfl⟩

/-- A channel stays where it is. -/
theorem Placed.mono {c : ℕ} {l : String} {st : Stage} (h : s.Placed c l st)
    (harrivals : s.arrivals c = some .insert → s'.arrivals c = some .insert)
    (hmap : s.map.lookup l = some c → s'.map.lookup l = some c) (hbusy : s.Busy c → s'.Busy c) :
    s'.Placed c l st := by
  cases st with
  | arriving => exact harrivals h
  | entry => exact hmap h
  | removed | taken | cancelled => exact hbusy h
  | closed => trivial

/-- Tasks that release stay as they are, and so does what is to be closed. -/
theorem Busy.mono {c : ℕ} (h : s.Busy c)
    (harrivals : ∀ k, s.arrivals k = some (.releasing c) → s'.arrivals k = some (.releasing c))
    (hclosing : c ∈ s.closing → c ∈ s'.closing) : s'.Busy c :=
  h.imp (fun ⟨k, hk⟩ => ⟨k, harrivals k hk⟩) hclosing

/-- Nothing happens that matters to the places. -/
theorem Placement.of_same (h : s.Placement) (hmap : s'.map = s.map)
    (hclosing : s'.closing = s.closing)
    (hplace : ∀ c, s'.place c = s.place c) (harrivals : s'.arrivals = s.arrivals) :
    s'.Placement where
  mapped l c hl := by
    rw [hplace]
    exact h.mapped l c (hmap ▸ hl)
  arrived k a ha := by
    rw [hplace]
    exact h.arrived k a (harrivals ▸ ha)
  inserting k hk := by
    rw [hplace]
    exact h.inserting k (harrivals ▸ hk)
  placed c l st hc := by
    rw [hplace] at hc
    refine (h.placed c l st hc).mono (fun ha => ?_) (fun hl => ?_) fun hbusy => ?_
    · rw [harrivals, ha]
    · rw [hmap, hl]
    · exact hbusy.mono (fun k hk => by rw [harrivals, hk]) fun hmem => by rw [hclosing]; exact hmem

theorem place_setChannel (c c' : ℕ) (ch : Channel) : (s.setChannel c ch).place c' =
    if c' = c then some (ch.label, ch.stage) else s.place c' := by
  simp only [place, setChannel, Function.update_apply]
  split
  · rfl
  · rfl

/-- A channel changes, but not its place. -/
theorem place_setChannel_same {c : ℕ} {ch ch' : Channel} (hch : s.channels c = some ch)
    (hlabel : ch'.label = ch.label) (hstage : ch'.stage = ch.stage) (c' : ℕ) :
    (s.setChannel c ch').place c' = s.place c' := by
  rw [place_setChannel]
  split
  · case isTrue heq => rw [heq, place_eq hch, hlabel, hstage]
  · rfl

theorem place_remove (cs : List ℕ) (c : ℕ) : (s.remove cs).place c =
    if c ∈ cs then (s.place c).map fun p => (p.1, .removed) else s.place c := by
  simp only [place, remove]
  split
  · rw [Option.map_map, Option.map_map]
    rfl
  · rfl

/-- A channel arrives. -/
theorem Placement.arrive (h : s.Placement) {k : ℕ} (label : String) (hfresh : s.channels k = none) :
    (s.arrive k label).Placement := by
  have hnone : s.place k = none := by rw [place, hfresh, Option.map_none]
  have hplace : ∀ c, (s.arrive k label).place c =
      if c = k then some (label, .arriving) else s.place c := fun c => place_setChannel k c _
  have harrivals : ∀ c, (s.arrive k label).arrivals c =
      if c = k then some .insert else s.arrivals c := fun c => Function.update_apply ..
  have hold : ∀ k' a, s.arrivals k' = some a → k' ≠ k := by
    rintro k' a ha rfl
    exact h.arrived k' a ha hnone
  refine ⟨fun l c hl => ?_, fun k' a ha => ?_, fun k' hk' => ?_, fun c l st hc => ?_⟩
  · have hc := h.mapped l c hl
    rw [hplace, if_neg (by rintro rfl; rw [hnone] at hc; cases hc), hc]
  · rw [hplace]
    split
    · exact nofun
    · case isFalse hne =>
      rw [harrivals, if_neg hne] at ha
      exact h.arrived k' a ha
  · rw [hplace]
    split
    · exact ⟨label, rfl⟩
    · case isFalse hne =>
      rw [harrivals, if_neg hne] at hk'
      exact h.inserting k' hk'
  · rw [hplace] at hc
    split at hc
    · case isTrue heq =>
      obtain ⟨rfl, rfl⟩ := Prod.mk.inj (Option.some.inj hc)
      exact (harrivals c).trans (if_pos heq)
    · case isFalse hne =>
      refine (h.placed c l st hc).mono (fun ha => ?_) id fun hbusy =>
        hbusy.mono (fun k' hk' => ?_) id
      · rw [harrivals, if_neg hne, ha]
      · rw [harrivals, if_neg (hold k' _ hk'), hk']

/-- A channel is inserted. -/
theorem Placement.insert (h : s.Placement) {k : ℕ} {ch : Channel} (hch : s.channels k = some ch)
    (harrival : s.arrivals k = some .insert) : (s.insert k ch).Placement := by
  obtain ⟨l₀, hk⟩ := h.inserting k harrival
  have hlookup : ∀ l, (s.insert k ch).map.lookup l =
      if l = ch.label then some k else s.map.lookup l := fun l =>
    Finmap.lookup_insert_eq_ite s.map ch.label l k
  have hplace : ∀ c, (s.insert k ch).place c = if c = k then some (ch.label, .entry)
      else if c ∈ (s.map.lookup ch.label).toList then (s.place c).map fun p => (p.1, .removed)
      else s.place c := by
    intro c
    rw [← place_remove]
    exact place_setChannel k c _
  have harrivals : ∀ c, (s.insert k ch).arrivals c =
      if c = k then some ((s.map.lookup ch.label).elim .notify .releasing) else s.arrivals c :=
    fun c => Function.update_apply ..
  have hold : ∀ k' c, s.arrivals k' = some (.releasing c) → k' ≠ k := by
    rintro k' c ha rfl
    rw [harrival] at ha
    cases ha
  -- what is not replaced stays where it is
  have hother : ∀ c l st, s.place c = some (l, st) → c ≠ k → s.map.lookup ch.label ≠ some c →
      (s.insert k ch).place c = some (l, st) := by
    intro c l st hc hne hprevious
    rw [hplace, if_neg hne, if_neg (fun hmem => hprevious (Option.mem_toList.mp hmem)), hc]
  refine ⟨fun l c hl => ?_, fun k' a ha => ?_, fun k' hk' => ?_, fun c l st hc => ?_⟩
  · rw [hlookup] at hl
    split at hl
    · case isTrue heq =>
      obtain rfl := Option.some.inj hl
      rw [hplace, if_pos rfl, heq]
    · case isFalse hne =>
      have hc := h.mapped l c hl
      refine hother c l _ hc (fun heq => ?_) fun hprevious => ?_
      · rw [heq, hk] at hc
        cases hc
      · have hc' := h.mapped ch.label c hprevious
        rw [hc] at hc'
        exact hne (Prod.mk.inj (Option.some.inj hc')).1
  · rw [hplace]
    split
    · exact nofun
    · case isFalse hne =>
      rw [harrivals, if_neg hne] at ha
      have hne' := h.arrived k' a ha
      split
      · simpa using hne'
      · exact hne'
  · have hne : k' ≠ k := by
      rintro rfl
      rw [harrivals, if_pos rfl] at hk'
      cases hlast : s.map.lookup ch.label with
      | none => rw [hlast] at hk'; cases hk'
      | some c => rw [hlast] at hk'; cases hk'
    rw [harrivals, if_neg hne] at hk'
    obtain ⟨l, hl⟩ := h.inserting k' hk'
    refine ⟨l, hother k' l _ hl hne fun hprevious => ?_⟩
    rw [h.mapped _ _ hprevious] at hl
    cases hl
  · rw [hplace] at hc
    split at hc
    · case isTrue heq =>
      obtain ⟨rfl, rfl⟩ := Prod.mk.inj (Option.some.inj hc)
      exact (hlookup _).trans ((if_pos rfl).trans (congrArg some heq.symm))
    · case isFalse hne =>
      split at hc
      · case isTrue hmem =>
        have hprevious := Option.mem_toList.mp hmem
        obtain ⟨p, -, hp⟩ := Option.map_eq_some_iff.mp hc
        obtain ⟨-, rfl⟩ := Prod.mk.inj hp
        refine .inl ⟨k, (harrivals k).trans ?_⟩
        rw [if_pos rfl, Option.mem_def.mp hprevious]
        rfl
      · case isFalse hmem =>
        refine (h.placed c l st hc).mono (fun ha => ?_) (fun hl => ?_)
          fun hbusy => hbusy.mono (fun k' hk' => ?_) id
        · rw [harrivals, if_neg hne, ha]
        · rw [hlookup, if_neg, hl]
          rintro rfl
          exact hmem (Option.mem_toList.mpr hl)
        · rw [harrivals, if_neg (hold k' c hk'), hk']

/-- The map is drained. -/
theorem Placement.drain (h : s.Placement) {order : List ℕ} (hidle : s.closing = [])
    (horder : s.map.entries.map Sigma.snd = ↑order) :
    Placement { s.remove order with map := ∅, closing := order } := by
  have hkept : ∀ k l, s.place k = some (l, .arriving) → k ∉ order := by
    intro k l hl hmem
    obtain ⟨l', hl'⟩ := (mem_order_iff horder k).mp hmem
    rw [h.mapped l' k hl'] at hl
    cases hl
  refine ⟨fun l c hl => ?_, fun k a ha => ?_, fun k hk => ?_, fun c l st hc => ?_⟩
  · exact absurd hl (by rw [Finmap.lookup_empty]; exact nofun)
  · refine (congrArg (· ≠ none) (place_remove order k)).mpr ?_
    have hne := h.arrived k a ha
    split
    · simpa using hne
    · exact hne
  · obtain ⟨l, hl⟩ := h.inserting k hk
    exact ⟨l, (place_remove order k).trans ((if_neg (hkept k l hl)).trans hl)⟩
  · replace hc := (place_remove order c).symm.trans hc
    split at hc
    · case isTrue hmem =>
      obtain ⟨p, -, hp⟩ := Option.map_eq_some_iff.mp hc
      obtain ⟨-, rfl⟩ := Prod.mk.inj hp
      exact .inr hmem
    · case isFalse hmem =>
      refine (h.placed c l st hc).mono id (fun hl => ?_) fun hbusy => hbusy.mono (fun _ hk => hk) ?_
      · exact absurd ((mem_order_iff horder c).mpr ⟨l, hl⟩) hmem
      · rw [hidle]
        exact nofun

/-- The release of a channel goes on. Other channels keep their places, and tasks. -/
theorem Placement.release (h : s.Placement) {c : ℕ} {l : String} {st st' : Stage}
    (hc : s.place c = some (l, st)) (hbusy : st ≠ .arriving ∧ st ≠ .entry) (hmap : s'.map = s.map)
    (hplace : ∀ c', s'.place c' = if c' = c then some (l, st') else s.place c')
    (hinserting : ∀ k, s'.arrivals k = some .insert ↔ s.arrivals k = some .insert)
    (harrived : ∀ k a, s'.arrivals k = some a → s.arrivals k ≠ none)
    (hother : ∀ c', c' ≠ c → s.Busy c' → s'.Busy c') (hthis : s'.Placed c l st') :
    s'.Placement := by
  refine ⟨fun l' c' hl => ?_, fun k a ha => ?_, fun k hk => ?_, fun c' l' st₁ hc' => ?_⟩
  · have hc' := h.mapped l' c' (hmap ▸ hl)
    rw [hplace, if_neg, hc']
    rintro rfl
    rw [hc] at hc'
    exact hbusy.2 (Prod.mk.inj (Option.some.inj hc')).2
  · rw [hplace]
    split
    · exact nofun
    · obtain ⟨a', ha'⟩ := Option.ne_none_iff_exists'.mp (harrived k a ha)
      exact h.arrived k a' ha'
  · obtain ⟨l', hl'⟩ := h.inserting k ((hinserting k).mp hk)
    refine ⟨l', ?_⟩
    rw [hplace, if_neg, hl']
    rintro rfl
    rw [hc] at hl'
    exact hbusy.1 (Prod.mk.inj (Option.some.inj hl')).2
  · rw [hplace] at hc'
    split at hc'
    · case isTrue heq =>
      obtain ⟨rfl, rfl⟩ := Prod.mk.inj (Option.some.inj hc')
      rw [heq]
      exact hthis
    · case isFalse hne =>
      refine (h.placed c' l' st₁ hc').mono (hinserting c').mpr (fun hl => ?_) (hother c' hne)
      rw [hmap, hl]

theorem target_arrival {k c : ℕ} (h : s.target (.arrival k) = some c) :
    s.arrivals k = some (.releasing c) := by
  simp only [target] at h
  split at h
  · rename_i heq
    rw [heq, Option.some.inj h]
  · cases h

theorem busy_of_target {r : Releaser} {c : ℕ} (h : s.target r = some c) : s.Busy c := by
  cases r with
  | arrival k => exact .inl ⟨k, target_arrival h⟩
  | closer => exact .inr (List.mem_of_mem_head? h)

/-- The last step of a release: its task goes on to what comes next. -/
theorem Placement.close (h : s.Placement) {r : Releaser} {c : ℕ} {ch : Channel}
    (htarget : s.target r = some c) (hch : s.channels c = some ch)
    (hstage : ch.stage = .cancelled) :
    (s.close r c ch).Placement := by
  have hc := place_eq hch
  have hbusy : ch.stage ≠ .arriving ∧ ch.stage ≠ .entry := by
    rw [hstage]
    exact ⟨nofun, nofun⟩
  cases r with
  | closer =>
    refine h.release hc hbusy rfl (fun c' => place_setChannel c c' _)
      (fun k => .rfl) (fun k a ha => ?_) (fun c' hne hb => ?_) trivial
    · rw [show s.arrivals k = some a from ha]
      exact nofun
    · rcases hb with hreleasing | hclosing
      · exact .inl hreleasing
      · obtain ⟨cs, hcs⟩ := List.head?_eq_some_iff.mp htarget
        rw [hcs] at hclosing
        refine .inr ?_
        simp only [DataChannels.close, setChannel, hcs, List.tail_cons]
        exact (List.mem_cons.mp hclosing).resolve_left hne
  | arrival k =>
    have hk := target_arrival htarget
    have harrivals : ∀ k', (s.close (.arrival k) c ch).arrivals k' =
        if k' = k then some .notify else s.arrivals k' := fun k' => Function.update_apply ..
    refine h.release hc hbusy rfl
      (fun c' => place_setChannel c c' _) (fun k' => ?_) (fun k' a ha => ?_) (fun c' hne hb => ?_)
      trivial
    · rw [harrivals]
      split
      · case isTrue heq =>
        rw [heq, hk]
        exact ⟨nofun, nofun⟩
      · exact .rfl
    · rw [harrivals] at ha
      split at ha
      · case isTrue heq =>
        rw [heq, hk]
        exact nofun
      · rw [ha]
        exact nofun
    · rcases hb with ⟨k', hk'⟩ | hclosing
      · refine .inl ⟨k', (harrivals k').trans ((if_neg ?_).trans hk')⟩
        rintro rfl
        rw [hk] at hk'
        cases hk'
        exact hne rfl
      · exact .inr hclosing

/-- The arrived channel is notified of. -/
theorem Placement.notify (h : s.Placement) {k : ℕ} (harrival : s.arrivals k = some .notify) :
    (s.notifyWaiters.setArrival k .done).Placement := by
  have harrivals : ∀ k', (s.notifyWaiters.setArrival k .done).arrivals k' =
      if k' = k then some .done else s.arrivals k' := fun k' => Function.update_apply ..
  refine ⟨h.mapped, fun k' a ha => ?_, fun k' hk' => ?_, fun c l st hc => ?_⟩
  · rw [harrivals] at ha
    split at ha
    · case isTrue heq =>
      rw [heq]
      exact h.arrived k .notify harrival
    · exact h.arrived k' a ha
  · rw [harrivals] at hk'
    split at hk'
    · cases hk'
    · exact h.inserting k' hk'
  · have hkept : ∀ k' a, s.arrivals k' = some a → a ≠ .notify →
        (s.notifyWaiters.setArrival k .done).arrivals k' = some a := by
      intro k' a ha hne
      rw [harrivals, if_neg, ha]
      rintro rfl
      exact hne (Option.some.inj (ha.symm.trans harrival))
    exact (h.placed c l st hc).mono (fun ha => hkept c _ ha nofun) id
      fun hbusy => hbusy.mono (fun k' hk' => hkept k' _ hk' nofun) id

/-- Every step keeps channels where they belong. -/
theorem Moves.placement {e : ChannelEvent} (hmove : Moves s e s') (h : s.Placement) :
    s'.Placement := by
  cases hmove with
  | arrive k label hfresh => exact h.arrive label hfresh
  | insert k ch hch harrival => exact h.insert hch harrival
  | notify k harrival => exact h.notify harrival
  | drain order hidle horder => exact h.drain hidle horder
  | take r c ch htarget hch hstage hlock =>
    refine h.release (place_eq hch) ?_ rfl (fun c' => place_setChannel c c' _)
      (fun k => .rfl) (fun k a ha => ?_) (fun c' _ hb => hb) (busy_of_target htarget)
    · rw [hstage]
      exact ⟨nofun, nofun⟩
    · rw [show s.arrivals k = some a from ha]
      exact nofun
  | cancel r c ch control htarget hch hstage =>
    refine h.release (place_eq hch) ?_ rfl
      (fun c' => place_setChannel c c' _) (fun k => .rfl) (fun k a ha => ?_) (fun c' _ hb => hb)
      (busy_of_target htarget)
    · rw [hstage]
      exact ⟨nofun, nofun⟩
    · rw [show s.arrivals k = some a from ha]
      exact nofun
  | close r c ch htarget hch hstage => exact h.close htarget hch hstage
  | wait w hfresh => exact h.of_same rfl rfl (fun c => rfl) rfl
  | lookup w hw => exact h.of_same rfl rfl (fun c => rfl) rfl
  | sleep w hw => exact h.of_same rfl rfl (fun c => rfl) rfl
  | lock w c ch hw hch hlock =>
    exact h.of_same rfl rfl (place_setChannel_same hch rfl rfl) rfl
  | refuse w c ch hw hch howner =>
    exact h.of_same rfl rfl (place_setChannel_same hch rfl rfl) rfl
  | claim w c ch hw hch hfree => exact h.of_same rfl rfl (fun c => rfl) rfl
  | store w c ch hw hch => exact h.of_same rfl rfl (place_setChannel_same hch rfl rfl) rfl

/-! ## Who holds a lock -/

/-- The call of `wait_for_a_data_channel_connector` that an event belongs to. -/
def actor : ChannelEvent → Option ℕ
  | .wait w | .lookup w | .sleep w | .lock w | .claim w | .store w => some w
  | _ => none

theorem waiters_notifyWaiters (s : DataChannels) (w : ℕ) :
    s.waiters w = some .asleep ∧ s.notifyWaiters.waiters w = some .looking ∨
      s.waiters w ≠ some .asleep ∧ s.notifyWaiters.waiters w = s.waiters w := by
  simp only [notifyWaiters]
  split
  · case h_1 hasleep => exact .inl ⟨hasleep, rfl⟩
  · case h_2 hawake => exact .inr ⟨hawake, rfl⟩

/-- The others are where they were, or have been woken. -/
theorem Moves.waiters {e : ChannelEvent} {w : ℕ} (hmove : Moves s e s') (hne : actor e ≠ some w) :
    s'.waiters w = s.waiters w ∨ s.waiters w = some .asleep ∧ s'.waiters w = some .looking := by
  have hset : ∀ (s₁ : DataChannels) (w' : ℕ) (a : Waiter), w' ≠ w →
      (s₁.setWaiter w' a).waiters w = s₁.waiters w := fun s₁ w' a hne =>
    Function.update_of_ne hne.symm ..
  have hactor : ∀ w', actor e = some w' → w' ≠ w := fun w' he heq => hne (he.trans (congrArg _ heq))
  cases hmove with
  | arrive => exact .inl rfl
  | insert => exact .inl rfl
  | notify k harrival =>
    rcases s.waiters_notifyWaiters w with hwoken | ⟨-, hsame⟩
    · exact .inr hwoken
    · exact .inl hsame
  | drain => exact .inl rfl
  | take => exact .inl rfl
  | cancel => exact .inl rfl
  | close r c ch htarget hch hstage =>
    cases r with
    | arrival k => exact .inl rfl
    | closer => exact .inl rfl
  | wait w' hfresh => exact .inl (hset _ w' _ (hactor w' rfl))
  | lookup w' hw => exact .inl (hset _ w' _ (hactor w' rfl))
  | sleep w' hw => exact .inl (hset _ w' _ (hactor w' rfl))
  | lock w' c ch hw hch hlock => exact .inl (hset _ w' _ (hactor w' rfl))
  | refuse w' c ch hw hch howner => exact .inl (hset _ w' _ (hactor w' rfl))
  | claim w' c ch hw hch hfree => exact .inl (hset _ w' _ (hactor w' rfl))
  | store w' c ch hw hch => exact .inl (hset _ w' _ (hactor w' rfl))

/-- What a step can do to a channel. -/
inductive Changes (s : DataChannels) (c : ℕ) (ch : Channel) : ChannelEvent → Channel → Prop
  | same (e : ChannelEvent) : Changes s c ch e ch
  | inserted (harrival : s.arrivals c = some .insert) :
    Changes s c ch (.insert c) { ch with stage := .entry }
  | removed (e : ChannelEvent) (l : String) (hmapped : s.map.lookup l = some c) :
    Changes s c ch e { ch with stage := .removed }
  | taken (r : Releaser) (lock : Option Holder) (hstage : ch.stage = .removed)
    (hlock : ch.lock = none) :
    Changes s c ch (.take r) { ch with control := none, lock := lock, stage := .taken ch.control }
  | cancelled (r : Releaser) (control : Option ℕ) (htarget : s.target r = some c)
    (hstage : ch.stage = .taken control) :
    Changes s c ch (.cancel r)
      { ch with lock := if ch.lock = some .closer then none else ch.lock, stage := .cancelled }
  | closed (r : Releaser) (hstage : ch.stage = .cancelled) :
    Changes s c ch (.close r) { ch with stage := .closed }
  | locked (w : ℕ) (hlock : ch.lock = none) :
    Changes s c ch (.lock w) { ch with lock := some (.waiter w) }
  | refused (w : ℕ) (hw : s.waiters w = some (.holding c)) :
    Changes s c ch (.claim w) { ch with lock := none }
  | stored (w : ℕ) (hw : s.waiters w = some (.storing c)) :
    Changes s c ch (.store w) { ch with control := some w, lock := none }

/-- A step that sets one channel. -/
theorem changes_of_set {e : ChannelEvent} {c c₀ : ℕ} {ch ch₀ ch' : Channel}
    (hch : s.channels c = some ch) (hch₀ : s.channels c₀ = some ch₀)
    (hset : s'.channels = Function.update s.channels c₀ (some ch')) (h : Changes s c₀ ch₀ e ch') :
    ∃ ch', s'.channels c = some ch' ∧ Changes s c ch e ch' := by
  by_cases heq : c = c₀
  · subst heq
    obtain rfl := Option.some.inj (hch.symm.trans hch₀)
    exact ⟨ch', by rw [hset, Function.update_self], h⟩
  · exact ⟨ch, by rw [hset, Function.update_of_ne heq, hch], .same e⟩

/-- **What a step can do to a channel**. -/
theorem Moves.channel {e : ChannelEvent} {c : ℕ} {ch : Channel} (hmove : Moves s e s')
    (hch : s.channels c = some ch) : ∃ ch', s'.channels c = some ch' ∧ Changes s c ch e ch' := by
  have hsame : ∀ e, s'.channels = s.channels → ∃ ch', s'.channels c = some ch' ∧
      Changes s c ch e ch' := fun e heq => ⟨ch, by rw [heq, hch], .same e⟩
  cases hmove with
  | arrive k label hfresh =>
    refine ⟨ch, (Function.update_of_ne ?_ ..).trans hch, .same _⟩
    rintro rfl
    rw [hfresh] at hch
    cases hch
  | insert k ch₀ hch₀ harrival =>
    have hchannels : (s.insert k ch₀).channels c = if c = k then some { ch₀ with stage := .entry }
        else if c ∈ (s.map.lookup ch₀.label).toList then
          (s.channels c).map fun ch => { ch with stage := .removed } else s.channels c :=
      Function.update_apply ..
    rw [hchannels]
    split
    · case isTrue heq =>
      subst heq
      obtain rfl := Option.some.inj (hch.symm.trans hch₀)
      exact ⟨_, rfl, .inserted harrival⟩
    · split
      · case isTrue hmem =>
        rw [hch]
        exact ⟨_, rfl, .removed _ ch₀.label (Option.mem_toList.mp hmem)⟩
      · exact ⟨ch, hch, .same _⟩
  | notify => exact hsame _ rfl
  | drain order hidle horder =>
    dsimp only [remove]
    split
    · case isTrue hmem =>
      obtain ⟨l, hl⟩ := (mem_order_iff horder c).mp hmem
      rw [hch]
      exact ⟨_, rfl, .removed _ l hl⟩
    · exact ⟨ch, hch, .same _⟩
  | take r c₀ ch₀ htarget hch₀ hstage hlock =>
    exact changes_of_set hch hch₀ rfl (.taken r _ hstage hlock)
  | cancel r c₀ ch₀ control htarget hch₀ hstage =>
    exact changes_of_set hch hch₀ rfl (.cancelled r control htarget hstage)
  | close r c₀ ch₀ htarget hch₀ hstage =>
    have hset : (s.close r c₀ ch₀).channels =
        Function.update s.channels c₀ (some { ch₀ with stage := .closed }) := by
      cases r with
      | arrival k => rfl
      | closer => rfl
    exact changes_of_set hch hch₀ hset (.closed r hstage)
  | wait => exact hsame _ rfl
  | lookup => exact hsame _ rfl
  | sleep => exact hsame _ rfl
  | lock w c₀ ch₀ hw hch₀ hlock => exact changes_of_set hch hch₀ rfl (.locked w hlock)
  | refuse w c₀ ch₀ hw hch₀ howner => exact changes_of_set hch hch₀ rfl (.refused w hw)
  | claim => exact hsame _ rfl
  | store w c₀ ch₀ hw hch₀ => exact changes_of_set hch hch₀ rfl (.stored w hw)

theorem Changes.label {e : ChannelEvent} {c : ℕ} {ch ch' : Channel}
    (h : Changes s c ch e ch') : ch'.label = ch.label := by
  cases h <;> rfl

/-- A slot that is locked by a call that has to do with it. -/
structure Locked (s : DataChannels) : Prop where
  /-- before the handler is made -/
  holding : ∀ w c, s.waiters w = some (.holding c) →
    ∃ ch, s.channels c = some ch ∧ ch.lock = some (.waiter w)
  /-- and after -/
  storing : ∀ w c, s.waiters w = some (.storing c) →
    ∃ ch, s.channels c = some ch ∧ ch.lock = some (.waiter w) ∧ ch.control = none

theorem locked_new : Locked new where
  holding _ _ h := nomatch h
  storing _ _ h := nomatch h

theorem Locked.of_either (h : s.Locked) {w c : ℕ} {ch : Channel} (hch : s.channels c = some ch)
    (hw : s.waiters w = some (.holding c) ∨ s.waiters w = some (.storing c)) :
    ch.lock = some (.waiter w) := by
  rcases hw with hw | hw
  · obtain ⟨ch', hch', hlock⟩ := h.holding w c hw
    obtain rfl := Option.some.inj (hch.symm.trans hch')
    exact hlock
  · obtain ⟨ch', hch', hlock, -⟩ := h.storing w c hw
    obtain rfl := Option.some.inj (hch.symm.trans hch')
    exact hlock

/-- Nobody else changes a slot that a call has locked. -/
theorem Changes.slot {e : ChannelEvent} {w c : ℕ} {ch ch' : Channel} (h : Changes s c ch e ch')
    (hlocked : s.Locked) (hch : s.channels c = some ch) (hlock : ch.lock = some (.waiter w))
    (hne : actor e ≠ some w) : ch'.lock = some (.waiter w) ∧ ch'.control = ch.control := by
  have hother : ∀ w', s.waiters w' = some (.holding c) ∨ s.waiters w' = some (.storing c) →
      w' = w := by
    intro w' hw'
    have hlock' := hlocked.of_either hch hw'
    rw [hlock] at hlock'
    cases hlock'
    rfl
  cases h with
  | same => exact ⟨hlock, rfl⟩
  | inserted => exact ⟨hlock, rfl⟩
  | removed => exact ⟨hlock, rfl⟩
  | taken r lock hstage hnone => exact nomatch hlock.symm.trans hnone
  | cancelled r control htarget hstage =>
    have hwaiter : ch.lock ≠ some .closer := by
      rw [hlock]
      exact nofun
    exact ⟨(if_neg hwaiter).trans hlock, rfl⟩
  | closed => exact ⟨hlock, rfl⟩
  | locked w' hnone => exact nomatch hlock.symm.trans hnone
  | refused w' hw' => exact absurd (congrArg some (hother w' (.inl hw'))) hne
  | stored w' hw' => exact absurd (congrArg some (hother w' (.inr hw'))) hne

/-- A call has locked the slot of the channel when it holds it, and has found it empty when it
stores. -/
theorem Moves.own {e : ChannelEvent} {w : ℕ} (hmove : Moves s e s') (hactor : actor e = some w) :
    ∃ a, s'.waiters w = some a ∧
      (∀ c, a = .holding c → ∃ ch, s'.channels c = some ch ∧ ch.lock = some (.waiter w)) ∧
      ∀ c, a = .storing c → s.waiters w = some (.holding c) ∧
        ∃ ch, s.channels c = some ch ∧ s'.channels c = some ch ∧ ch.control = none := by
  have hself : ∀ (s₁ : DataChannels) (a : Waiter), (s₁.setWaiter w a).waiters w = some a :=
    fun s₁ a => Function.update_self ..
  cases hmove with
  | arrive | insert | notify | drain | take | cancel | close => cases hactor
  | wait => cases hactor; exact ⟨_, hself _ _, nofun, nofun⟩
  | lookup =>
    cases hactor
    cases hfound : s.map.lookup "default" with
    | none => exact ⟨_, hself _ _, nofun, nofun⟩
    | some c => exact ⟨_, hself _ _, nofun, nofun⟩
  | sleep => cases hactor; exact ⟨_, hself _ _, nofun, nofun⟩
  | lock _ c ch hw hch hlock =>
    cases hactor
    refine ⟨_, hself _ _, fun c' heq => ?_, nofun⟩
    cases heq
    exact ⟨_, Function.update_self .., rfl⟩
  | refuse => cases hactor; exact ⟨_, hself _ _, nofun, nofun⟩
  | claim _ c ch hw hch hfree =>
    cases hactor
    refine ⟨_, hself _ _, nofun, fun c' heq => ?_⟩
    cases heq
    exact ⟨hw, ch, hch, hch, hfree⟩
  | store => cases hactor; exact ⟨_, hself _ _, nofun, nofun⟩

/-- Every step keeps locks. -/
theorem Moves.locked {e : ChannelEvent} (hmove : Moves s e s') (h : s.Locked) : s'.Locked := by
  constructor
  · intro w c hw
    by_cases hactor : actor e = some w
    · obtain ⟨a, ha, hholding, -⟩ := hmove.own hactor
      exact hholding c (Option.some.inj (ha.symm.trans hw))
    · rcases hmove.waiters hactor with heq | ⟨-, hwoken⟩
      · obtain ⟨ch, hch, hlock⟩ := h.holding w c (heq ▸ hw)
        obtain ⟨ch', hch', hchange⟩ := hmove.channel hch
        exact ⟨ch', hch', (hchange.slot h hch hlock hactor).1⟩
      · exact nomatch hwoken.symm.trans hw
  · intro w c hw
    by_cases hactor : actor e = some w
    · obtain ⟨a, ha, -, hstoring⟩ := hmove.own hactor
      obtain ⟨hheld, ch, hch, hch', hnone⟩ := hstoring c (Option.some.inj (ha.symm.trans hw))
      exact ⟨ch, hch', h.of_either hch (.inl hheld), hnone⟩
    · rcases hmove.waiters hactor with heq | ⟨-, hwoken⟩
      · obtain ⟨ch, hch, hlock, hnone⟩ := h.storing w c (heq ▸ hw)
        obtain ⟨ch', hch', hchange⟩ := hmove.channel hch
        obtain ⟨hlock', hcontrol⟩ := hchange.slot h hch hlock hactor
        exact ⟨ch', hch', hlock', hcontrol.trans hnone⟩
      · exact nomatch hwoken.symm.trans hw

/-! ## Owners -/

/-- A handler that was made and not cancelled. -/
def Live (s : DataChannels) (w c : ℕ) : Prop := s.owners w = some ⟨c, false⟩

/-- The channel is no longer in the map, and the task that has removed it has finished with it. -/
structure Gone (s : DataChannels) (c : ℕ) : Prop where
  /-- it has been in the map -/
  inserted : s.arrivals c ≠ some .insert
  /-- but is no longer -/
  removed : ∀ l, s.map.lookup l ≠ some c
  /-- no task has it to release -/
  released : ¬ s.Busy c

/-- A data channel has one owner at most. -/
structure OneOwner (s : DataChannels) : Prop where
  /-- for every label -/
  unique : ∀ w w' c c' ch ch', s.Live w c → s.Live w' c' → s.channels c = some ch →
    s.channels c' = some ch' → ch.label = ch'.label → w = w'
  /-- and none when it is gone -/
  released : ∀ w o, s.owners w = some o → s.Gone o.channel → o.cancelled = true

/-- A handler is made in time: the control of the channel has not been taken out of its slot, and
every other channel of the label that ever had a handler has been released as far as its
cancellation. -/
def ClaimsInTime (s : DataChannels) (e : ChannelEvent) : Prop :=
  ∀ w c ch, e = .claim w → s.waiters w = some (.holding c) → s.channels c = some ch →
    ch.control = none → (ch.stage = .entry ∨ ch.stage = .removed) ∧
      ∀ w' o ch', s.owners w' = some o → o.channel ≠ c → s.channels o.channel = some ch' →
        ch'.label = ch.label → ch'.stage = .cancelled ∨ ch'.stage = .closed

/-- Where the control of a live handler is: in its slot, or about to be put there, or in the hands
of the task that will cancel it. -/
def Held (s : DataChannels) (w c : ℕ) : Prop :=
  ∃ ch, s.channels c = some ch ∧
    ((ch.control = some w ∨ s.waiters w = some (.storing c)) ∧
      (ch.stage = .entry ∨ ch.stage = .removed) ∨ ch.stage = .taken (some w))

/-- What is known of live handlers. -/
structure Owned (s : DataChannels) : Prop where
  /-- they can be cancelled -/
  held : ∀ w c, s.Live w c → s.Held w c
  /-- there is one for a label -/
  unique : ∀ w w' c c' ch ch', s.Live w c → s.Live w' c' → s.channels c = some ch →
    s.channels c' = some ch' → ch.label = ch'.label → w = w'

theorem owned_new : Owned new where
  held _ _ h := nomatch h
  unique _ _ _ _ _ _ h := nomatch h

/-- A live handler was live before, and is not the one that is cancelled; or it was just made. -/
theorem Moves.live {e : ChannelEvent} {w c : ℕ} (hmove : Moves s e s') (h : s'.Live w c) :
    (s.Live w c ∧ ∀ r c' ch, e = .cancel r → s.target r = some c' → s.channels c' = some ch →
      ch.stage ≠ .taken (some w)) ∨
    (e = .claim w ∧ s.waiters w = some (.holding c) ∧ s'.waiters w = some (.storing c) ∧
      s'.channels = s.channels ∧ ∃ ch, s.channels c = some ch ∧ ch.control = none) := by
  cases hmove with
  | claim w' c' ch hw hch hfree =>
    have hset : ((s.setOwner w' ⟨c', false⟩).setWaiter w' (.storing c')).owners =
        Function.update s.owners w' (some ⟨c', false⟩) := rfl
    rw [Live, hset] at h
    by_cases heq : w = w'
    · subst heq
      rw [Function.update_self] at h
      cases h
      exact .inr ⟨rfl, hw, Function.update_self .., rfl, ch, hch, hfree⟩
    · rw [Function.update_of_ne heq] at h
      exact .inl ⟨h, nofun⟩
  | cancel r c' ch control htarget hch hstage =>
    have howners : (s.cancel c' ch control).owners w = if control = some w then
        (s.owners w).map fun o => { o with cancelled := true } else s.owners w := rfl
    rw [Live, howners] at h
    split at h
    · obtain ⟨o, -, ho⟩ := Option.map_eq_some_iff.mp h
      cases ho
    · case isFalse hne =>
      refine .inl ⟨h, fun r' c₁ ch₁ he htarget' hch₁ htaken => hne ?_⟩
      cases he
      obtain rfl := Option.some.inj (htarget.symm.trans htarget')
      obtain rfl := Option.some.inj (hch.symm.trans hch₁)
      exact Stage.taken.inj (hstage.symm.trans htaken)
  | close r c' ch htarget hch hstage =>
    cases r with
    | arrival k => exact .inl ⟨h, nofun⟩
    | closer => exact .inl ⟨h, nofun⟩
  | arrive | insert | notify | drain | take | wait | lookup | sleep | lock | refuse | store =>
    exact .inl ⟨h, nofun⟩

/-- What happens to a channel before its control has been taken. -/
theorem Changes.before_taken {e : ChannelEvent} {c : ℕ} {ch ch' : Channel}
    (h : Changes s c ch e ch') (hstage : ch.stage = .entry ∨ ch.stage = .removed) :
    (ch'.stage = .entry ∨ ch'.stage = .removed) ∧
      (ch'.control = ch.control ∨ ∃ w, s.waiters w = some (.storing c)) ∨
    ch.lock = none ∧ ch'.stage = .taken ch.control := by
  cases h with
  | same | locked | refused => exact .inl ⟨hstage, .inl rfl⟩
  | stored w hw => exact .inl ⟨hstage, .inr ⟨w, hw⟩⟩
  | inserted => exact .inl ⟨.inl rfl, .inl rfl⟩
  | removed => exact .inl ⟨.inr rfl, .inl rfl⟩
  | taken r lock hremoved hnone => exact .inr ⟨hnone, rfl⟩
  | cancelled r control htarget htaken =>
    rw [htaken] at hstage
    exact hstage.elim nofun nofun
  | closed r hcancelled =>
    rw [hcancelled] at hstage
    exact hstage.elim nofun nofun

/-- A control that has been taken will be cancelled. -/
theorem Changes.taken_stage {e : ChannelEvent} {w c : ℕ} {ch ch' : Channel}
    (h : Changes s c ch e ch') (hplacement : s.Placement) (hch : s.channels c = some ch)
    (hstage : ch.stage = .taken (some w)) :
    ch'.stage = .taken (some w) ∨ ∃ r, e = .cancel r ∧ s.target r = some c := by
  have hplace := place_eq hch
  rw [hstage] at hplace
  cases h with
  | same | locked | refused | stored => exact .inl hstage
  | inserted harrival =>
    obtain ⟨l, hl⟩ := hplacement.inserting c harrival
    rw [hplace] at hl
    cases hl
  | removed _ l hmapped =>
    rw [hplacement.mapped l c hmapped] at hplace
    cases hplace
  | taken r lock hremoved => exact nomatch hstage.symm.trans hremoved
  | cancelled r control htarget => exact .inr ⟨r, rfl, htarget⟩
  | closed r hcancelled => exact nomatch hstage.symm.trans hcancelled

/-- A call that stores the control does so. -/
theorem Moves.stores {e : ChannelEvent} {w c : ℕ} {ch : Channel} (hmove : Moves s e s')
    (hactor : actor e = some w) (hw : s.waiters w = some (.storing c))
    (hch : s.channels c = some ch) :
    s'.channels c = some { ch with control := some w, lock := none } := by
  cases hmove with
  | arrive | insert | notify | drain | take | cancel | close => cases hactor
  | wait _ hw' => cases hactor; exact nomatch hw.symm.trans hw'
  | lookup _ hw' => cases hactor; exact nomatch hw.symm.trans hw'
  | sleep _ hw' => cases hactor; exact nomatch hw.symm.trans hw'
  | lock _ _ _ hw' => cases hactor; exact nomatch hw.symm.trans hw'
  | refuse _ _ _ hw' => cases hactor; exact nomatch hw.symm.trans hw'
  | claim _ _ _ hw' => cases hactor; exact nomatch hw.symm.trans hw'
  | store _ c' ch' hw' hch' =>
    cases hactor
    obtain rfl := Waiter.storing.inj (Option.some.inj (hw.symm.trans hw'))
    obtain rfl := Option.some.inj (hch.symm.trans hch')
    exact Function.update_self ..

/-- **A live handler stays where it can be cancelled**, until it is. -/
theorem Moves.held {e : ChannelEvent} {w c : ℕ} (hmove : Moves s e s') (hplacement : s.Placement)
    (hlocked : s.Locked) (hheld : s.Held w c)
    (hlive : ∀ r c' ch, e = .cancel r → s.target r = some c' → s.channels c' = some ch →
      ch.stage ≠ .taken (some w)) : s'.Held w c := by
  obtain ⟨ch, hch, ⟨hwhere, hstage⟩ | htaken⟩ := hheld
  · obtain ⟨ch', hch', hchange⟩ := hmove.channel hch
    rcases hwhere with hcontrol | hstoring
    · -- the control is in the slot
      refine ⟨ch', hch', ?_⟩
      rcases hchange.before_taken hstage with ⟨hstage', hsame | ⟨w', hw'⟩⟩ | ⟨-, htaken⟩
      · exact .inl ⟨.inl (hsame.trans hcontrol), hstage'⟩
      · obtain ⟨ch₁, hch₁, -, hnone⟩ := hlocked.storing w' c hw'
        obtain rfl := Option.some.inj (hch.symm.trans hch₁)
        exact nomatch hcontrol.symm.trans hnone
      · exact .inr (htaken.trans (congrArg _ hcontrol))
    · -- the call has the lock
      obtain ⟨ch₁, hch₁, hlock, hnone⟩ := hlocked.storing w c hstoring
      obtain rfl := Option.some.inj (hch.symm.trans hch₁)
      by_cases hactor : actor e = some w
      · have hstored := hmove.stores hactor hstoring hch
        exact ⟨_, hstored, .inl ⟨.inl rfl, hstage⟩⟩
      · have hstill : s'.waiters w = some (.storing c) := by
          rcases hmove.waiters hactor with heq | ⟨hasleep, -⟩
          · exact heq.trans hstoring
          · exact nomatch hasleep.symm.trans hstoring
        rcases hchange.before_taken hstage with ⟨hstage', -⟩ | ⟨hfree, -⟩
        · exact ⟨ch', hch', .inl ⟨.inr hstill, hstage'⟩⟩
        · exact nomatch hlock.symm.trans hfree
  · obtain ⟨ch', hch', hchange⟩ := hmove.channel hch
    rcases hchange.taken_stage hplacement hch htaken with htaken' | ⟨r, rfl, htarget⟩
    · exact ⟨ch', hch', .inr htaken'⟩
    · exact absurd htaken (hlive r c ch rfl htarget hch)

/-- A step keeps the owners in order, if it claims in time. -/
theorem Moves.owned {e : ChannelEvent} (hmove : Moves s e s') (hplacement : s.Placement)
    (hlocked : s.Locked) (howned : s.Owned) (htime : s.ClaimsInTime e) : s'.Owned := by
  have hlabel : ∀ c ch ch', s.channels c = some ch → s'.channels c = some ch' →
      ch'.label = ch.label := by
    intro c ch ch' hch hch'
    obtain ⟨ch₁, hch₁, hchange⟩ := hmove.channel hch
    obtain rfl := Option.some.inj (hch'.symm.trans hch₁)
    exact hchange.label
  constructor
  · intro w c hlive
    rcases hmove.live hlive with ⟨hold, hnot⟩ | ⟨rfl, hw, hw', hsame, ch, hch, hfree⟩
    · exact hmove.held hplacement hlocked (howned.held w c hold) hnot
    · exact ⟨ch, hsame ▸ hch, .inl ⟨.inr hw', (htime w c ch rfl hw hch hfree).1⟩⟩
  · -- a new handler has no rival
    have hrival : ∀ w w' c c' ch ch', e = .claim w → s.waiters w = some (.holding c) →
        s.channels c = some ch → ch.control = none → s.Live w' c' → s.channels c' = some ch' →
        ch'.label = ch.label → w = w' := by
      intro w w' c c' ch ch' he hw hch hfree hlive hch' heq
      obtain ⟨hstage, hothers⟩ := htime w c ch he hw hch hfree
      obtain ⟨ch₁, hch₁, hheld⟩ := howned.held w' c' hlive
      obtain rfl := Option.some.inj (hch'.symm.trans hch₁)
      by_cases hne : c' = c
      · subst hne
        obtain rfl := Option.some.inj (hch.symm.trans hch')
        rcases hheld with ⟨hcontrol | hstoring, -⟩ | htaken
        · exact nomatch hfree.symm.trans hcontrol
        · have hlock := hlocked.of_either hch (.inl hw)
          rw [hlocked.of_either hch (.inr hstoring)] at hlock
          cases hlock
          rfl
        · rw [htaken] at hstage
          exact hstage.elim nofun nofun
      · rcases hothers w' _ ch' hlive hne hch' heq with hcancelled | hclosed
        · rw [hcancelled] at hheld
          exact hheld.elim (fun h => h.2.elim nofun nofun) nofun
        · rw [hclosed] at hheld
          exact hheld.elim (fun h => h.2.elim nofun nofun) nofun
    intro w w' c c' ch ch' hlive hlive' hch hch' heq
    rcases hmove.live hlive with ⟨hold, -⟩ | ⟨he, hw, -, hsame, ch₀, hch₀, hfree⟩
    · obtain ⟨ch₀, hch₀, -⟩ := howned.held w c hold
      have hch₀l := hlabel c ch₀ ch hch₀ hch
      rcases hmove.live hlive' with ⟨hold', -⟩ | ⟨he, hw, -, hsame, ch₁, hch₁, hfree⟩
      · obtain ⟨ch₁, hch₁, -⟩ := howned.held w' c' hold'
        refine howned.unique w w' c c' ch₀ ch₁ hold hold' hch₀ hch₁ ?_
        rw [← hch₀l, heq, hlabel c' ch₁ ch' hch₁ hch']
      · refine (hrival w' w c' c ch₁ ch₀ he hw hch₁ hfree hold hch₀ ?_).symm
        rw [← hch₀l, heq, hlabel c' ch₁ ch' hch₁ hch']
    · rcases hmove.live hlive' with ⟨hold', -⟩ | ⟨he', -⟩
      · obtain ⟨ch₁, hch₁, -⟩ := howned.held w' c' hold'
        refine hrival w w' c c' ch₀ ch₁ he hw hch₀ hfree hold' hch₁ ?_
        rw [← hlabel c' ch₁ ch' hch₁ hch', ← heq, hlabel c ch₀ ch hch₀ hch]
      · exact ChannelEvent.claim.inj (he.symm.trans he')

/-- What is gone has no live handler. -/
theorem Owned.oneOwner (h : s.Owned) (hplacement : s.Placement) : s.OneOwner := by
  refine ⟨h.unique, fun w o ho hgone => ?_⟩
  obtain ⟨c, cancelled⟩ := o
  cases cancelled with
  | true => rfl
  | false =>
    obtain ⟨ch, hch, hheld⟩ := h.held w c ho
    have hplaced := hplacement.placed c ch.label ch.stage (place_eq hch)
    rcases hheld with ⟨-, hentry | hremoved⟩ | htaken
    · rw [hentry] at hplaced
      exact absurd hplaced (hgone.removed ch.label)
    · rw [hremoved] at hplaced
      exact absurd hplaced hgone.released
    · rw [htaken] at hplaced
      exact absurd hplaced hgone.released

/-- **One owner at most**, as long as handlers are made in time. -/
theorem oneOwner_of_along {es : List ChannelEvent} (htime : machine.Along ClaimsInTime .new es) :
    machine.Throughout OneOwner .new es := by
  have hinv : machine.Throughout (fun s => s.Placement ∧ s.Locked ∧ s.Owned) .new es := by
    refine StateMachine.throughout_of_along ⟨placement_new, locked_new, owned_new⟩ ?_ htime
    rintro s e s' ⟨hplacement, hlocked, howned⟩ htime hstep
    have hmove := step_moves hstep
    exact ⟨hmove.placement hplacement, hmove.locked hlocked,
      hmove.owned hplacement hlocked howned htime⟩
  intro pre post s hsplit hpre
  obtain ⟨hplacement, -, howned⟩ := hinv pre post s hsplit hpre
  exact howned.oneOwner hplacement

/-- A channel is claimed, and then replaced. -/
def claimedInTime : List ChannelEvent :=
  [.arrive 0 "default", .insert 0, .notify 0, .wait 7, .lookup 7, .lock 7, .claim 7, .store 7,
    .arrive 1 "default", .insert 1, .take (.arrival 1), .cancel (.arrival 1), .close (.arrival 1),
    .notify 1]

theorem oneOwner_claimedInTime : machine.Throughout OneOwner .new claimedInTime := by
  refine oneOwner_of_along ?_
  refine .cons nofun rfl <| .cons nofun rfl <| .cons nofun rfl <| .cons nofun rfl <|
    .cons nofun rfl <| .cons nofun rfl <| .cons ?_ rfl <| .cons nofun rfl <| .cons nofun rfl <|
    .cons nofun rfl <| .cons nofun rfl <| .cons nofun rfl <| .cons nofun rfl <| .cons nofun rfl .nil
  intro w c ch he hw hch _
  cases he
  cases hw
  cases hch
  exact ⟨.inl rfl, nofun⟩

/-- A channel is looked up, replaced, and then claimed; and so is the new one. -/
def claimedLate : List ChannelEvent :=
  [.arrive 0 "default", .insert 0, .notify 0, .wait 7, .lookup 7,
    .arrive 1 "default", .insert 1, .take (.arrival 1), .cancel (.arrival 1), .close (.arrival 1),
    .notify 1, .lock 7, .claim 7, .store 7, .wait 8, .lookup 8, .lock 8, .claim 8, .store 8]

theorem claimedLate_not_oneOwner : ¬ ∀ s, machine.Reachable s → s.OneOwner := by
  intro h
  have hone := h _ ⟨claimedLate, (Option.some_get rfl).symm⟩
  exact absurd (hone.unique 7 8 0 1 _ _ rfl rfl rfl rfl rfl) (by decide)

end DataChannels

end Vamp
