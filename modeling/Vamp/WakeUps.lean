import Vamp.DataChannels

/-!
# Who is woken up

The two loops of `rtc_connector.rs` that look and then wait: `wait_for_connected` reads the flag of
its peer connection and the state of its data channel, `wait_for_a_data_channel_connector` reads
the map. A waiter waits in `notified`, and `notify_waiters` wakes those who wait at that
moment and nobody else.

Whatever happens between the last look and `notified` is not seen. And when a channel is opened,
nobody is notified at all (`openedLate_not_awake`). The condition is exact (`awake_iff`).
-/

namespace Vamp

/-! ## Waiting for a connection -/

/-- `RTCDataChannelState`. -/
inductive ReadyState : Type where
  /-- not known -/
  | unspecified : ReadyState
  /-- being set up -/
  | connecting : ReadyState
  /-- `Open` -/
  | opened : ReadyState
  /-- being closed -/
  | closing : ReadyState
  /-- closed -/
  | closed : ReadyState
  deriving DecidableEq, Repr

/-- What the handlers of a peer connection share. -/
structure PeerConnection : Type where
  /-- `connection_flag` -/
  flag : Bool
  /-- how many calls of `on_peer_connection_state_change` with `Connected` have still to store -/
  storing : ℕ
  /-- and how many have stored, and have still to notify -/
  notifying : ℕ

/-- `RtcConnectorSharedState`. -/
structure SharedState : Type where
  /-- whose `connection_state` and `connected_notifier` it has -/
  peer : ℕ
  /-- `dc.ready_state()` -/
  ready : ReadyState

/-- How far `wait_for_connected` has got. -/
inductive ConnectStage : Type where
  /-- to read the flag -/
  | readingFlag : ConnectStage
  /-- the flag was set -/
  | readingReady : ConnectStage
  /-- to wait -/
  | missed : ConnectStage
  /-- it waits in `notified` -/
  | asleep : ConnectStage
  /-- it has returned -/
  | returned : ConnectStage
  deriving DecidableEq, Repr

/-- A call of `wait_for_connected`. -/
structure ConnectCall : Type where
  /-- its channel -/
  channel : ℕ
  /-- how far it has got -/
  stage : ConnectStage
  deriving DecidableEq, Repr

/-- Peer connections, their data channels, and who waits for them. -/
structure Connections : Type where
  /-- the peer connections -/
  peers : ℕ → Option PeerConnection
  /-- the data channels -/
  channels : ℕ → Option SharedState
  /-- the calls of `wait_for_connected` -/
  calls : ℕ → Option ConnectCall

/-- What can happen to connections. -/
inductive ConnectionEvent : Type where
  /-- `init_rtc_connection` -/
  | peer (p : ℕ) : ConnectionEvent
  /-- the state of a peer connection becomes `Connected` -/
  | connected (p : ℕ) : ConnectionEvent
  /-- the flag is set -/
  | store (p : ℕ) : ConnectionEvent
  /-- the waiters are notified -/
  | notify (p : ℕ) : ConnectionEvent
  /-- the state becomes `Disconnected`, `Failed` or `Closed` -/
  | disconnected (p : ℕ) : ConnectionEvent
  /-- a data channel arrives -/
  | channel (c p : ℕ) : ConnectionEvent
  /-- its state changes -/
  | ready (c : ℕ) (state : ReadyState) : ConnectionEvent
  /-- `wait_for_connected` is called -/
  | connect (i c : ℕ) : ConnectionEvent
  /-- it reads the flag -/
  | readFlag (i : ℕ) : ConnectionEvent
  /-- it reads the state of the channel -/
  | readReady (i : ℕ) : ConnectionEvent
  /-- it waits -/
  | sleep (i : ℕ) : ConnectionEvent

namespace Connections

/-- No peer connection. -/
def new : Connections where
  peers := fun _ => none
  channels := fun _ => none
  calls := fun _ => none

/-- A peer connection changes. -/
def setPeer (t : Connections) (p : ℕ) (peer : PeerConnection) : Connections :=
  { t with peers := Function.update t.peers p (some peer) }

/-- A data channel changes. -/
def setChannel (t : Connections) (c : ℕ) (ch : SharedState) : Connections :=
  { t with channels := Function.update t.channels c (some ch) }

/-- A call goes on. -/
def setCall (t : Connections) (i : ℕ) (call : ConnectCall) : Connections :=
  { t with calls := Function.update t.calls i (some call) }

/-- `connected_notifier` of the peer connection is the one a call waits for. -/
def waitsFor (t : Connections) (p : ℕ) (call : ConnectCall) : Bool :=
  call.stage = .asleep && (t.channels call.channel).any (·.peer = p)

/-- `notify_waiters`: whoever waits looks again. -/
def notifyWaiters (t : Connections) (p : ℕ) : Connections :=
  { t with calls := fun i => (t.calls i).map fun call =>
      if t.waitsFor p call then { call with stage := .readingFlag } else call }

/-- One step. -/
def step (t : Connections) : ConnectionEvent → Option Connections
  | .peer p => if (t.peers p).isNone then some (t.setPeer p ⟨false, 0, 0⟩) else none
  | .connected p => do
    let peer ← t.peers p
    some (t.setPeer p { peer with storing := peer.storing + 1 })
  | .store p => do
    let peer ← t.peers p
    if 0 < peer.storing then
      some (t.setPeer p ⟨true, peer.storing - 1, peer.notifying + 1⟩)
    else none
  | .notify p => do
    let peer ← t.peers p
    if 0 < peer.notifying then
      some ((t.notifyWaiters p).setPeer p { peer with notifying := peer.notifying - 1 })
    else none
  | .disconnected p => do
    let peer ← t.peers p
    some (t.setPeer p { peer with flag := false })
  | .channel c p =>
    if (t.channels c).isNone ∧ (t.peers p).isSome then some (t.setChannel c ⟨p, .connecting⟩)
    else none
  | .ready c state => do
    let ch ← t.channels c
    some (t.setChannel c { ch with ready := state })
  | .connect i c =>
    if (t.calls i).isNone ∧ (t.channels c).isSome then some (t.setCall i ⟨c, .readingFlag⟩)
    else none
  | .readFlag i => do
    let call ← t.calls i
    let ch ← t.channels call.channel
    let peer ← t.peers ch.peer
    if call.stage = .readingFlag then
      some (t.setCall i { call with stage := if peer.flag then .readingReady else .missed })
    else none
  | .readReady i => do
    let call ← t.calls i
    let ch ← t.channels call.channel
    if call.stage = .readingReady then
      some (t.setCall i { call with stage := if ch.ready = .opened then .returned else .missed })
    else none
  | .sleep i => do
    let call ← t.calls i
    if call.stage = .missed then some (t.setCall i { call with stage := .asleep }) else none

/-- Connections as a state machine. -/
def machine : StateMachine Connections ConnectionEvent where
  init := .new
  step := step

/-! ## When they are awake -/

/-- What `wait_for_connected` waits for. -/
def Connected (t : Connections) (c : ℕ) : Prop :=
  ∃ ch peer, t.channels c = some ch ∧ t.peers ch.peer = some peer ∧ peer.flag = true ∧
    ch.ready = .opened

/-- A handler of the peer connection is under way that will notify. -/
def Owed (t : Connections) (c : ℕ) : Prop :=
  ∃ ch peer, t.channels c = some ch ∧ t.peers ch.peer = some peer ∧
    0 < peer.storing + peer.notifying

/-- Nobody waits for what is there, unless a notification is under way. -/
def Awake (t : Connections) : Prop :=
  ∀ i c, t.calls i = some ⟨c, .asleep⟩ → t.Connected c → t.Owed c

/-- A call begins to wait when there is something to wait for; and a channel is opened when nobody
waits for it, or the peer is not connected. Or else a notification is under way. -/
def InTime (t : Connections) : ConnectionEvent → Prop
  | .sleep i => ∀ c, t.calls i = some ⟨c, .missed⟩ → t.Connected c → t.Owed c
  | .ready c .opened => ∀ i ch peer, t.calls i = some ⟨c, .asleep⟩ → t.channels c = some ch →
    t.peers ch.peer = some peer → peer.flag = true → t.Owed c
  | _ => True

variable {t t' : Connections}

/-- Nobody has begun to wait, and what has become true will be notified of. -/
theorem Awake.of_step (h : t.Awake)
    (hcalls : ∀ i c, t'.calls i = some ⟨c, .asleep⟩ → t.calls i = some ⟨c, .asleep⟩)
    (hconnected : ∀ c, t'.Connected c → t.Connected c ∨ t'.Owed c)
    (howed : ∀ c, t.Owed c → t'.Owed c) : t'.Awake := by
  intro i c hi hc
  rcases hconnected c hc with hold | hnew
  · exact howed c (h i c (hcalls i c hi) hold)
  · exact hnew

/-- A call that does not wait now. -/
theorem Awake.setCall (h : t.Awake) (i : ℕ) {call : ConnectCall} (hstage : call.stage ≠ .asleep) :
    (t.setCall i call).Awake := by
  refine h.of_step (fun j c hj => ?_) (fun c hc => .inl hc) (fun c hc => hc)
  have hcalls : (t.setCall i call).calls j = if j = i then some call else t.calls j :=
    Function.update_apply ..
  rw [hcalls] at hj
  split at hj
  · rw [Option.some.inj hj] at hstage
    exact absurd rfl hstage
  · exact hj

theorem peers_setPeer (p q : ℕ) (peer : PeerConnection) :
    (t.setPeer p peer).peers q = if q = p then some peer else t.peers q := Function.update_apply ..

/-- A peer connection whose flag is not set without a notification to come. -/
theorem Awake.setPeer (h : t.Awake) (p : ℕ) {peer : PeerConnection}
    (hflag : peer.flag = true → 0 < peer.storing + peer.notifying ∨
      ∃ old, t.peers p = some old ∧ old.flag = true)
    (howed : ∀ old, t.peers p = some old → 0 < old.storing + old.notifying →
      0 < peer.storing + peer.notifying) : (t.setPeer p peer).Awake := by
  refine h.of_step (fun j c hj => hj) (fun c hc => ?_) (fun c hc => ?_)
  · obtain ⟨ch, q, hch, hq, hset, hopened⟩ := hc
    rw [peers_setPeer] at hq
    split at hq
    · case isTrue heq =>
      obtain rfl := Option.some.inj hq
      rcases hflag hset with hpos | ⟨old, hold, holdset⟩
      · exact .inr ⟨ch, peer, hch, (peers_setPeer ..).trans (if_pos heq), hpos⟩
      · exact .inl ⟨ch, old, hch, heq ▸ hold, holdset, hopened⟩
    · exact .inl ⟨ch, q, hch, hq, hset, hopened⟩
  · obtain ⟨ch, q, hch, hq, hpos⟩ := hc
    by_cases heq : ch.peer = p
    · exact ⟨ch, peer, hch, (peers_setPeer ..).trans (if_pos heq), howed q (heq ▸ hq) hpos⟩
    · exact ⟨ch, q, hch, (peers_setPeer ..).trans ((if_neg heq).trans hq), hpos⟩

theorem channels_setChannel (c c' : ℕ) (ch : SharedState) :
    (t.setChannel c ch).channels c' = if c' = c then some ch else t.channels c' :=
  Function.update_apply ..

/-- A new data channel is not open. -/
theorem Awake.channel (h : t.Awake) {c : ℕ} (p : ℕ) (hfresh : t.channels c = none) :
    (t.setChannel c ⟨p, .connecting⟩).Awake := by
  refine h.of_step (fun j c hj => hj) (fun c' hc => .inl ?_) (fun c' hc => ?_)
  · obtain ⟨ch, peer, hch, hpeer, hset, hopened⟩ := hc
    rw [channels_setChannel] at hch
    split at hch
    · rw [← Option.some.inj hch] at hopened
      cases hopened
    · exact ⟨ch, peer, hch, hpeer, hset, hopened⟩
  · obtain ⟨ch, peer, hch, hpeer, hpos⟩ := hc
    refine ⟨ch, peer, (channels_setChannel ..).trans ((if_neg ?_).trans hch), hpeer, hpos⟩
    rintro rfl
    rw [hfresh] at hch
    cases hch

/-- Those who are notified are awake. -/
theorem Awake.notify (h : t.Awake) (p : ℕ) (peer : PeerConnection) :
    ((t.notifyWaiters p).setPeer p peer).Awake := by
  intro i c hi hc
  obtain ⟨call, hcall, hwoken⟩ := Option.map_eq_some_iff.mp hi
  have hstay : t.waitsFor p call = false ∧ call = ⟨c, .asleep⟩ := by
    split at hwoken
    · cases hwoken
    · case isFalse hnot => exact ⟨by simpa using hnot, hwoken⟩
  obtain ⟨hnot, rfl⟩ := hstay
  obtain ⟨ch, q, hch, hq, hset, hopened⟩ := hc
  have hch' : t.channels c = some ch := hch
  have hne : ch.peer ≠ p := by
    intro heq
    simp [waitsFor, hch', heq] at hnot
  have hq' : t.peers ch.peer = some q := ((peers_setPeer ..).trans (if_neg hne)).symm.trans hq
  obtain ⟨ch₁, q₁, hch₁, hq₁, hpos⟩ := h i c hcall ⟨ch, q, hch', hq', hset, hopened⟩
  obtain rfl := Option.some.inj (hch'.symm.trans hch₁)
  exact ⟨ch, q₁, hch, (peers_setPeer ..).trans ((if_neg hne).trans hq₁), hpos⟩

/-- A call that begins to wait. -/
theorem Awake.sleep_iff (h : t.Awake) {i : ℕ} {call : ConnectCall} (hcall : t.calls i = some call)
    (hstage : call.stage = .missed) :
    (t.setCall i { call with stage := .asleep }).Awake ↔ t.InTime (.sleep i) := by
  obtain ⟨c₀, stage⟩ := call
  obtain rfl : stage = .missed := hstage
  have hcalls : ∀ j, (t.setCall i ⟨c₀, .asleep⟩).calls j =
      if j = i then some ⟨c₀, .asleep⟩ else t.calls j :=
    fun j => Function.update_apply ..
  constructor
  · intro h' c hc hconnected
    rw [hcall] at hc
    cases hc
    exact h' i c₀ ((hcalls i).trans (if_pos rfl)) hconnected
  · intro htime j c hj hconnected
    rw [hcalls] at hj
    split at hj
    · cases hj
      exact htime c₀ hcall hconnected
    · exact h j c hj hconnected

/-- The state of a channel changes. -/
theorem Awake.ready_iff (h : t.Awake) {c : ℕ} {ch : SharedState} (hch : t.channels c = some ch)
    (state : ReadyState) :
    (t.setChannel c { ch with ready := state }).Awake ↔ t.InTime (.ready c state) := by
  have howed : ∀ c', (t.setChannel c { ch with ready := state }).Owed c' ↔ t.Owed c' := by
    intro c'
    simp only [Owed, channels_setChannel]
    by_cases heq : c' = c
    · subst heq
      simp only [if_true, Option.some.injEq, exists_and_left, exists_eq_left', hch]
      rfl
    · simp only [if_neg heq]
      rfl
  constructor
  · intro h'
    cases state with
    | opened =>
      intro i ch' peer hi hch' hpeer hset
      obtain rfl := Option.some.inj (hch.symm.trans hch')
      refine (howed c).mp (h' i c hi ⟨{ ch with ready := .opened }, peer, ?_, hpeer, hset, rfl⟩)
      exact (channels_setChannel ..).trans (if_pos rfl)
    | unspecified | connecting | closing | closed => trivial
  · intro htime i c' hi hconnected
    refine (howed c').mpr ?_
    obtain ⟨ch', peer, hch', hpeer, hset, hopened⟩ := hconnected
    rw [channels_setChannel] at hch'
    split at hch'
    · case isTrue heq =>
      obtain rfl := Option.some.inj hch'
      obtain rfl : state = .opened := hopened
      subst heq
      exact htime i ch peer hi hch hpeer hset
    · exact h i c' hi ⟨ch', peer, hch', hpeer, hset, hopened⟩

/-- **One step**: it leaves nobody behind, if and only if it is in time. -/
theorem awake_step_iff {e : ConnectionEvent} (h : t.Awake) (hstep : t.step e = some t') :
    t'.Awake ↔ t.InTime e := by
  cases e with
  | peer p =>
    obtain ⟨hfresh, heq⟩ := Option.ite_none_right_eq_some.mp hstep
    obtain rfl := Option.some.inj heq
    refine iff_of_true (h.setPeer p nofun fun old hold _ => ?_) trivial
    rw [Option.isNone_iff_eq_none.mp hfresh] at hold
    cases hold
  | connected p =>
    obtain ⟨peer, hpeer, heq⟩ := Option.bind_eq_some_iff.mp hstep
    obtain rfl := Option.some.inj heq
    refine iff_of_true
      (h.setPeer p (fun hset => .inr ⟨peer, hpeer, hset⟩) fun old _ _ => ?_) trivial
    exact Nat.lt_of_lt_of_le (Nat.succ_pos _) (Nat.le_add_right ..)
  | store p =>
    obtain ⟨peer, hpeer, hstep⟩ := Option.bind_eq_some_iff.mp hstep
    obtain ⟨-, heq⟩ := Option.ite_none_right_eq_some.mp hstep
    obtain rfl := Option.some.inj heq
    have hpos : 0 < peer.storing - 1 + (peer.notifying + 1) := Nat.succ_pos _
    exact iff_of_true (h.setPeer p (fun _ => .inl hpos) fun _ _ _ => hpos) trivial
  | notify p =>
    obtain ⟨peer, hpeer, hstep⟩ := Option.bind_eq_some_iff.mp hstep
    obtain ⟨-, heq⟩ := Option.ite_none_right_eq_some.mp hstep
    obtain rfl := Option.some.inj heq
    exact iff_of_true (h.notify p _) trivial
  | disconnected p =>
    obtain ⟨peer, hpeer, heq⟩ := Option.bind_eq_some_iff.mp hstep
    obtain rfl := Option.some.inj heq
    refine iff_of_true (h.setPeer p nofun fun old hold hpos => ?_) trivial
    obtain rfl := Option.some.inj (hpeer.symm.trans hold)
    exact hpos
  | channel c p =>
    obtain ⟨⟨hfresh, -⟩, heq⟩ := Option.ite_none_right_eq_some.mp hstep
    obtain rfl := Option.some.inj heq
    exact iff_of_true (h.channel p (Option.isNone_iff_eq_none.mp hfresh)) trivial
  | ready c state =>
    obtain ⟨ch, hch, heq⟩ := Option.bind_eq_some_iff.mp hstep
    obtain rfl := Option.some.inj heq
    exact h.ready_iff hch state
  | connect i c =>
    obtain ⟨-, heq⟩ := Option.ite_none_right_eq_some.mp hstep
    obtain rfl := Option.some.inj heq
    exact iff_of_true (h.setCall i nofun) trivial
  | readFlag i =>
    obtain ⟨call, hcall, hstep⟩ := Option.bind_eq_some_iff.mp hstep
    obtain ⟨ch, hch, hstep⟩ := Option.bind_eq_some_iff.mp hstep
    obtain ⟨peer, hpeer, hstep⟩ := Option.bind_eq_some_iff.mp hstep
    obtain ⟨-, heq⟩ := Option.ite_none_right_eq_some.mp hstep
    obtain rfl := Option.some.inj heq
    refine iff_of_true (h.setCall i ?_) trivial
    dsimp only
    split
    · exact nofun
    · exact nofun
  | readReady i =>
    obtain ⟨call, hcall, hstep⟩ := Option.bind_eq_some_iff.mp hstep
    obtain ⟨ch, hch, hstep⟩ := Option.bind_eq_some_iff.mp hstep
    obtain ⟨-, heq⟩ := Option.ite_none_right_eq_some.mp hstep
    obtain rfl := Option.some.inj heq
    refine iff_of_true (h.setCall i ?_) trivial
    dsimp only
    split
    · exact nofun
    · exact nofun
  | sleep i =>
    obtain ⟨call, hcall, hstep⟩ := Option.bind_eq_some_iff.mp hstep
    obtain ⟨hstage, heq⟩ := Option.ite_none_right_eq_some.mp hstep
    obtain rfl := Option.some.inj heq
    exact h.sleep_iff hcall hstage

end Connections

/-! ## Waiting for a data channel -/

namespace DataChannels

/-- `on_data_channel` is under way and will notify. -/
def Owed (s : DataChannels) : Prop := ∃ k a, s.arrivals k = some a ∧ a ≠ .done

/-- Nobody waits for a channel that is in the map, unless a notification is under way. -/
def Awake (s : DataChannels) : Prop :=
  ∀ w, s.waiters w = some .asleep → s.map.lookup "default" ≠ none → s.Owed

/-- A call begins to wait when there is no channel in the map; or else a notification is under
way. -/
def InTime (s : DataChannels) : ChannelEvent → Prop
  | .sleep w => s.waiters w = some .missed → s.map.lookup "default" ≠ none → s.Owed
  | _ => True

variable {s s' : DataChannels} {e : ChannelEvent}

/-- A step after which a notification is under way. -/
theorem awake_of_arrival {k : ℕ} {a : Arrival} (hk : s.arrivals k = some a) (hne : a ≠ .done) :
    s.Awake := fun _ _ _ => ⟨k, a, hk, hne⟩

/-- Nobody begins to wait, and nothing happens to the map. -/
theorem Awake.of_same (h : s.Awake)
    (hwaiters : ∀ w, s'.waiters w = some .asleep → s.waiters w = some .asleep)
    (hmap : s'.map = s.map) (harrivals : s'.arrivals = s.arrivals) : s'.Awake := by
  intro w hw hfound
  obtain ⟨k, a, hk, hne⟩ := h w (hwaiters w hw) (hmap ▸ hfound)
  exact ⟨k, a, harrivals ▸ hk, hne⟩

/-- A call that does not wait now. -/
theorem asleep_of_setWaiter {w w' : ℕ} {a : Waiter} (hne : a ≠ .asleep)
    (h : (s.setWaiter w a).waiters w' = some .asleep) : s.waiters w' = some .asleep := by
  have hset : (s.setWaiter w a).waiters w' = if w' = w then some a else s.waiters w' :=
    Function.update_apply ..
  rw [hset] at h
  split at h
  · exact absurd (Option.some.inj h) hne
  · exact h

/-- **One step**: it leaves nobody behind, if and only if it is in time. -/
theorem awake_step_iff (h : s.Awake) (hstep : s.step e = some s') : s'.Awake ↔ s.InTime e := by
  cases step_moves hstep with
  | arrive k label hfresh =>
    have hk : (s.arrive k label).arrivals k = some .insert := Function.update_self ..
    exact iff_of_true (awake_of_arrival hk (by decide)) trivial
  | insert k ch hch harrival =>
    have hk : (s.insert k ch).arrivals k =
        some ((s.map.lookup ch.label).elim .notify .releasing) := Function.update_self ..
    refine iff_of_true (awake_of_arrival hk ?_) trivial
    cases s.map.lookup ch.label with
    | none => decide
    | some c => exact Arrival.noConfusion
  | notify k harrival =>
    refine iff_of_true (fun w hw _ => ?_) trivial
    rcases s.waiters_notifyWaiters w with ⟨-, hlooking⟩ | ⟨hne, hsame⟩
    · cases hlooking.symm.trans hw
    · exact absurd (hsame.symm.trans hw) hne
  | drain order hidle horder =>
    refine iff_of_true (fun w hw hfound => ?_) trivial
    exact absurd (Finmap.lookup_empty "default") hfound
  | take => exact iff_of_true (h.of_same (fun w hw => hw) rfl rfl) trivial
  | cancel => exact iff_of_true (h.of_same (fun w hw => hw) rfl rfl) trivial
  | close r c ch htarget hch hstage =>
    cases r with
    | arrival k =>
      have hk : (s.close (.arrival k) c ch).arrivals k = some .notify := Function.update_self ..
      exact iff_of_true (awake_of_arrival hk (by decide)) trivial
    | closer => exact iff_of_true (h.of_same (fun w hw => hw) rfl rfl) trivial
  | wait => exact iff_of_true (h.of_same (fun _ => asleep_of_setWaiter (by simp)) rfl rfl) trivial
  | lookup w hw =>
    refine iff_of_true (h.of_same (fun _ => asleep_of_setWaiter ?_) rfl rfl) trivial
    cases s.map.lookup "default" with
    | none => simp
    | some c => simp
  | sleep w hw =>
    constructor
    · intro h' _ hfound
      exact h' w (Function.update_self ..) hfound
    · intro htime w' hw' hfound
      exact htime hw hfound
  | lock => exact iff_of_true (h.of_same (fun _ => asleep_of_setWaiter (by simp)) rfl rfl) trivial
  | refuse => exact iff_of_true (h.of_same (fun _ => asleep_of_setWaiter (by simp)) rfl rfl) trivial
  | claim => exact iff_of_true (h.of_same (fun _ => asleep_of_setWaiter (by simp)) rfl rfl) trivial
  | store => exact iff_of_true (h.of_same (fun _ => asleep_of_setWaiter (by simp)) rfl rfl) trivial

end DataChannels

/-! ## Both -/

/-- The two kinds of waiters, whatever the order of their steps. -/
def waits : StateMachine (DataChannels × Connections) (ChannelEvent ⊕ ConnectionEvent) :=
  DataChannels.machine.interleave Connections.machine

namespace Waits

/-- Nobody is left behind. -/
def Awake (s : DataChannels × Connections) : Prop := s.1.Awake ∧ s.2.Awake

/-- Every step is in time. -/
def InTime (s : DataChannels × Connections) (e : ChannelEvent ⊕ ConnectionEvent) : Prop :=
  e.elim s.1.InTime s.2.InTime

/-- **No wake-up is lost**, if and only if every step is in time. -/
theorem awake_iff {es : List (ChannelEvent ⊕ ConnectionEvent)} {s : DataChannels × Connections}
    (hrun : waits.run waits.init es = some s) :
    waits.Throughout Awake waits.init es ↔ waits.Along InTime waits.init es :=
  StateMachine.throughout_interleave_iff (M := DataChannels.machine) (N := Connections.machine)
    nofun nofun (fun _ _ _ => DataChannels.awake_step_iff)
    (fun _ _ _ => Connections.awake_step_iff) hrun

/-- A peer is connected and its channel is open before it is waited for. -/
def openedFirst : List (ChannelEvent ⊕ ConnectionEvent) :=
  [.inl (.wait 0), .inl (.lookup 0), .inl (.sleep 0), .inr (.peer 0), .inr (.connected 0),
    .inr (.store 0), .inr (.notify 0), .inr (.channel 0 0), .inl (.arrive 0 "default"),
    .inl (.insert 0), .inl (.notify 0), .inr (.ready 0 .opened), .inr (.connect 0 0),
    .inr (.readFlag 0), .inr (.readReady 0)]

theorem awake_iff_openedFirst :
    waits.Throughout Awake waits.init openedFirst ↔ waits.Along InTime waits.init openedFirst :=
  awake_iff (Option.some_get rfl).symm

/-- A peer is connected, a handler is made for its channel, and waits for it; then the channel is
opened. -/
def openedLate : List (ChannelEvent ⊕ ConnectionEvent) :=
  [.inr (.peer 0), .inr (.connected 0), .inr (.store 0), .inr (.notify 0), .inr (.channel 0 0),
    .inl (.arrive 0 "default"), .inl (.insert 0), .inl (.notify 0), .inl (.wait 0),
    .inl (.lookup 0), .inl (.lock 0), .inl (.claim 0), .inl (.store 0), .inr (.connect 0 0),
    .inr (.readFlag 0), .inr (.readReady 0), .inr (.sleep 0), .inr (.ready 0 .opened)]

theorem openedLate_not_awake : ¬ ∀ s, waits.Reachable s → Awake s := by
  intro h
  obtain ⟨-, hawake⟩ := h _ ⟨openedLate, (Option.some_get rfl).symm⟩
  obtain ⟨ch, peer, hch, hpeer, hpos⟩ := hawake 0 0 rfl ⟨_, _, rfl, rfl, rfl, rfl⟩
  cases hch
  cases hpeer
  exact absurd hpos (by decide)

end Waits

end Vamp
