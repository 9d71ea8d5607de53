import Vamp.BrowserRecovery

/-!
# The browser's connection to the signalling server

`WsSignallingConnector` keeps a WebSocket to the server. When it is lost, a timer is set, and the
next one is created when it fires. `closeInternal` takes the handlers away from the socket,
and counts the connections, so that an event of an old one is not taken for one of the new.

But it does not clear the timer. When `close` is called between two sockets, the connector comes
back to life (`close_final_iff`).

Whatever a browser does with sockets, any event of any of them can come at any time, and timers
can fire in any order.
-/

namespace Vamp

namespace Ts

variable {φ : Type}

/-- A WebSocket of the connector, and what its handlers have captured. -/
structure SignallingSocket : Type where
  /-- `connectionId` -/
  connectionId : ℕ
  /-- `newState` -/
  newState : NodeState
  /-- it has its handlers -/
  attached : Bool
  /-- it has been closed, from here or from there -/
  closed : Bool
  deriving DecidableEq

/-- `WsSignallingConnector`. -/
structure WsSignallingConnector : Type where
  /-- all sockets that were ever created, oldest first -/
  sockets : List SignallingSocket
  /-- `#ws` -/
  ws : Option ℕ
  /-- `#state`: the one of a socket, or one that is `Closed` -/
  state : Option ℕ
  /-- `#restartTimer` -/
  restartTimer : Option ℕ
  /-- timers that will fire -/
  timers : List ℕ
  /-- how many timers have been set -/
  timersSet : ℕ
  /-- `#currentConnectionId` -/
  currentConnectionId : ℕ
  deriving DecidableEq

/-- What the connector does. -/
inductive ConnectorDeed (φ : Type) : Type where
  /-- a WebSocket is constructed -/
  | constructed (i : ℕ)
  /-- the registration frame is sent -/
  | registered (i : ℕ)
  /-- `messageHandler` is called -/
  | handled (frame : φ)
  deriving DecidableEq

/-- What can happen. -/
inductive ConnectorEvent (φ : Type) : Type where
  /-- a socket is open -/
  | onopen (i : ℕ)
  /-- a message comes in -/
  | onmessage (i : ℕ) (frame : φ)
  /-- an error of a socket -/
  | onerror (i : ℕ)
  /-- a socket is closed -/
  | onclose (i : ℕ)
  /-- a timer fires -/
  | timer (t : ℕ)
  /-- `close` is called -/
  | close
  deriving DecidableEq

namespace WsSignallingConnector

/-- A socket changes. -/
def update (s : WsSignallingConnector) (i : ℕ) (f : SignallingSocket → SignallingSocket) :
    WsSignallingConnector :=
  { s with sockets := s.sockets.modify i f }

/-- `closeInternal`. -/
def closeInternal (s : WsSignallingConnector) : WsSignallingConnector :=
  let s := { s with state := none, currentConnectionId := s.currentConnectionId + 1 }
  match s.ws with
  | none => s
  | some i => { s.update i fun w => { w with attached := false, closed := true } with ws := none }

/-- `clearTimeout`. -/
def clearTimeout (s : WsSignallingConnector) : WsSignallingConnector :=
  match s.restartTimer with
  | none => s
  | some t => { s with timers := s.timers.erase t, restartTimer := none }

/-- `restartWs`. -/
def restartWs (s : WsSignallingConnector) : WsSignallingConnector × List (ConnectorDeed φ) :=
  let s := s.closeInternal.clearTimeout
  let i := s.sockets.length
  let connectionId := s.currentConnectionId + 1
  ({ s with
    sockets := s.sockets ++ [⟨connectionId, .connecting, true, false⟩]
    ws := some i
    state := some i
    currentConnectionId := connectionId }, [.constructed i])

/-- The constructor, before it calls `restartWs`. -/
def blank : WsSignallingConnector := ⟨[], none, none, none, [], 0, 0⟩

/-- The constructor. -/
def new : WsSignallingConnector := (blank.restartWs (φ := Unit)).1

/-- `onclose`, where it is attached. -/
def onclose (s : WsSignallingConnector) (i : ℕ) (w : SignallingSocket) : WsSignallingConnector :=
  if w.connectionId ≠ s.currentConnectionId then s
  else
    { s.update i fun w => { w with newState := .closed } with
      restartTimer := some s.timersSet
      timers := s.timers ++ [s.timersSet]
      timersSet := s.timersSet + 1 }

/-- One step. -/
def step (s : WsSignallingConnector) :
    ConnectorEvent φ → Option (WsSignallingConnector × List (ConnectorDeed φ))
  | .onopen i => s.sockets[i]?.map fun w =>
    if w.attached then (s.update i fun w => { w with newState := .connected }, [.registered i])
    else (s, [])
  | .onmessage i frame => s.sockets[i]?.map fun w =>
    (s, if w.attached then [.handled frame] else [])
  | .onerror i => s.sockets[i]?.map fun _ => (s, [])
  | .onclose i => s.sockets[i]?.map fun w =>
    let s := s.update i fun w => { w with closed := true }
    (if w.attached then s.onclose i w else s, [])
  | .timer t =>
    if t ∈ s.timers then
      some { s with timers := s.timers.erase t, restartTimer := none }.restartWs
    else none
  | .close => some (s.closeInternal, [])

/-- The connector as a state machine. -/
def machine : StateMachine WsSignallingConnector (ConnectorEvent φ) where
  init := new
  step s e := (s.step e).map Prod.fst

/-- What is done in a run. -/
def history (s : WsSignallingConnector) (es : List (ConnectorEvent φ)) : List (ConnectorDeed φ) :=
  machine.trace (fun s e => ((s.step e).map Prod.snd).getD []) s es

/-- One socket is attached and not closed, if any. -/
def AtMostOne (s : WsSignallingConnector) : Prop :=
  ∀ (i j : ℕ) (w w' : SignallingSocket), s.sockets[i]? = some w → s.sockets[j]? = some w' →
    w.attached = true ∧ w.closed = false → w'.attached = true ∧ w'.closed = false → i = j

/-- **`close` is final**, in a run that goes on with `post`. -/
structure Final (pre post : List (ConnectorEvent φ)) (s : WsSignallingConnector) : Prop where
  /-- one socket is attached and not closed, if any, at every moment -/
  single : machine.Throughout AtMostOne new (pre ++ .close :: post)
  /-- nothing is done after `close` -/
  silent : history s post = []

/-! ## Who is attached -/

variable {s s' : WsSignallingConnector} {i j : ℕ} {w : SignallingSocket}

/-- Only the socket of the connector is attached. -/
def Inv (s : WsSignallingConnector) : Prop :=
  ∀ (i : ℕ) (w : SignallingSocket), s.sockets[i]? = some w → w.attached = true → s.ws = some i

/-- The connector does nothing, whatever happens. -/
structure Dead (s : WsSignallingConnector) : Prop where
  /-- no socket is attached -/
  detached : ∀ (i : ℕ) (w : SignallingSocket), s.sockets[i]? = some w → w.attached = false
  /-- no timer will fire -/
  timers : s.timers = []

theorem Inv.atMostOne (h : s.Inv) : s.AtMostOne := by
  rintro i j w w' hw hw' ⟨hattached, -⟩ ⟨hattached', -⟩
  exact Option.some.inj ((h i w hw hattached).symm.trans (h j w' hw' hattached'))

/-- What a socket was before it was changed. -/
theorem of_getElem?_update {f : SignallingSocket → SignallingSocket}
    (hw : (s.update i f).sockets[j]? = some w) :
    ∃ w₀, s.sockets[j]? = some w₀ ∧ w = if i = j then f w₀ else w₀ := by
  rw [update, List.getElem?_modify] at hw
  cases hj : s.sockets[j]? with
  | none =>
    rw [hj] at hw
    cases hw
  | some w₀ =>
    rw [hj] at hw
    exact ⟨w₀, rfl, (Option.some.inj hw).symm⟩

/-- Changes that attach nothing. -/
theorem Inv.update {f : SignallingSocket → SignallingSocket} (h : s.Inv)
    (hf : ∀ w, (f w).attached = true → w.attached = true) : (s.update i f).Inv := by
  intro j w hw hattached
  obtain ⟨w₀, hw₀, rfl⟩ := of_getElem?_update hw
  split at hattached
  · exact h j w₀ hw₀ (hf w₀ hattached)
  · exact h j w₀ hw₀ hattached

/-- `closeInternal` detaches the socket. -/
theorem Inv.closeInternal (h : s.Inv) :
    ∀ (i : ℕ) (w : SignallingSocket),
      s.closeInternal.sockets[i]? = some w → w.attached = false := by
  intro j w hw
  unfold WsSignallingConnector.closeInternal at hw
  cases hws : s.ws with
  | none =>
    simp only [hws] at hw
    cases hattached : w.attached with
    | false => rfl
    | true => cases hws.symm.trans (h j w hw hattached)
  | some i =>
    simp only [hws] at hw
    obtain ⟨w₀, hw₀, rfl⟩ := of_getElem?_update hw
    split
    · rfl
    · case isFalse hne =>
      cases hattached : w₀.attached with
      | false => rfl
      | true => exact absurd (Option.some.inj (hws.symm.trans (h j w₀ hw₀ hattached))) hne

theorem closeInternal_timers (s : WsSignallingConnector) : s.closeInternal.timers = s.timers := by
  rw [WsSignallingConnector.closeInternal]
  cases s.ws <;> rfl

theorem clearTimeout_sockets (s : WsSignallingConnector) :
    s.clearTimeout.sockets = s.sockets := by
  rw [clearTimeout]
  cases s.restartTimer <;> rfl

/-- `restartWs` attaches a new one, and no other. -/
theorem Inv.restartWs (h : s.Inv) : (s.restartWs (φ := φ)).1.Inv := by
  intro j w hw hattached
  have hold := h.closeInternal
  rw [← clearTimeout_sockets] at hold
  change (s.closeInternal.clearTimeout.sockets ++ [_])[j]? = some w at hw
  change some s.closeInternal.clearTimeout.sockets.length = some j
  rcases Nat.lt_or_ge j s.closeInternal.clearTimeout.sockets.length with hlt | hge
  · rw [List.getElem?_append_left hlt] at hw
    cases (hold j w hw).symm.trans hattached
  · have hbound := (List.getElem?_eq_some_iff.mp hw).1
    rw [List.length_append, List.length_singleton] at hbound
    exact congrArg some (by omega)

/-- Every step keeps it. -/
theorem Inv.step {e : ConnectorEvent φ} {deeds : List (ConnectorDeed φ)} (h : s.Inv)
    (hstep : s.step e = some (s', deeds)) : s'.Inv := by
  cases e with
  | onopen i =>
    obtain ⟨w, -, heq⟩ := Option.map_eq_some_iff.mp hstep
    split at heq
    · obtain ⟨rfl, -⟩ := Prod.mk.inj heq
      exact h.update fun w => id
    · obtain ⟨rfl, -⟩ := Prod.mk.inj heq
      exact h
  | onmessage i frame =>
    obtain ⟨w, -, heq⟩ := Option.map_eq_some_iff.mp hstep
    obtain ⟨rfl, -⟩ := Prod.mk.inj heq
    exact h
  | onerror i =>
    obtain ⟨w, -, heq⟩ := Option.map_eq_some_iff.mp hstep
    obtain ⟨rfl, -⟩ := Prod.mk.inj heq
    exact h
  | onclose i =>
    obtain ⟨w, -, heq⟩ := Option.map_eq_some_iff.mp hstep
    obtain ⟨rfl, -⟩ := Prod.mk.inj heq
    have hclosed : (s.update i fun w => { w with closed := true }).Inv := h.update fun w => id
    split
    · rw [WsSignallingConnector.onclose]
      split
      · exact hclosed
      · exact hclosed.update fun w => id
    · exact hclosed
  | timer t =>
    obtain ⟨-, heq⟩ := Option.ite_none_right_eq_some.mp hstep
    obtain ⟨rfl, -⟩ := Prod.mk.inj (Option.some.inj heq)
    exact Inv.restartWs (φ := φ) h
  | close =>
    obtain ⟨rfl, -⟩ := Prod.mk.inj (Option.some.inj hstep)
    intro i w hw hattached
    cases (h.closeInternal i w hw).symm.trans hattached

/-! ## After `close` -/

/-- What is dead stays dead, and does nothing. -/
theorem Dead.step {e : ConnectorEvent φ} {deeds : List (ConnectorDeed φ)} (h : s.Dead)
    (hstep : s.step e = some (s', deeds)) : s'.Dead ∧ deeds = [] := by
  cases e with
  | onopen i =>
    obtain ⟨w, hw, heq⟩ := Option.map_eq_some_iff.mp hstep
    rw [h.detached i w hw, if_neg Bool.false_ne_true] at heq
    obtain ⟨rfl, rfl⟩ := Prod.mk.inj heq
    exact ⟨h, rfl⟩
  | onmessage i frame =>
    obtain ⟨w, hw, heq⟩ := Option.map_eq_some_iff.mp hstep
    rw [h.detached i w hw, if_neg Bool.false_ne_true] at heq
    obtain ⟨rfl, rfl⟩ := Prod.mk.inj heq
    exact ⟨h, rfl⟩
  | onerror i =>
    obtain ⟨w, -, heq⟩ := Option.map_eq_some_iff.mp hstep
    obtain ⟨rfl, rfl⟩ := Prod.mk.inj heq
    exact ⟨h, rfl⟩
  | onclose i =>
    obtain ⟨w, hw, heq⟩ := Option.map_eq_some_iff.mp hstep
    dsimp only at heq
    rw [h.detached i w hw, if_neg Bool.false_ne_true] at heq
    obtain ⟨rfl, rfl⟩ := Prod.mk.inj heq
    refine ⟨⟨fun j w hw => ?_, h.timers⟩, rfl⟩
    obtain ⟨w₀, hw₀, rfl⟩ := of_getElem?_update hw
    split
    · exact h.detached j w₀ hw₀
    · exact h.detached j w₀ hw₀
  | timer t =>
    obtain ⟨hmem, -⟩ := Option.ite_none_right_eq_some.mp hstep
    rw [h.timers] at hmem
    cases hmem
  | close =>
    obtain ⟨rfl, rfl⟩ := Prod.mk.inj (Option.some.inj hstep)
    have hinv : s.Inv := fun i w hw hattached => by cases (h.detached i w hw).symm.trans hattached
    exact ⟨⟨hinv.closeInternal, (closeInternal_timers s).trans h.timers⟩, rfl⟩

/-- Nor does it in a run. -/
theorem Dead.silent {es : List (ConnectorEvent φ)} (h : s.Dead)
    (hrun : machine.run s es = some s') : history s es = [] := by
  refine (StateMachine.run_induction (M := machine)
    (P := fun es s' => s'.Dead ∧ history s es = []) ⟨h, rfl⟩ ?_ hrun).2
  rintro es s₁ e s₂ hrun ⟨hdead, hsilent⟩ hstep
  obtain ⟨⟨s₃, deeds⟩, hsome, rfl⟩ := Option.map_eq_some_iff.mp hstep
  obtain ⟨hdead', rfl⟩ := hdead.step hsome
  refine ⟨hdead', ?_⟩
  rw [history] at hsilent ⊢
  rw [StateMachine.trace_concat hrun hstep, hsilent, hsome]
  rfl

theorem inv_new : new.Inv := by
  have hblank : blank.Inv := fun i w hw => nomatch hw
  exact hblank.restartWs

/-- Every reachable connector has one socket at most. -/
theorem inv_of_run {es : List (ConnectorEvent φ)} (hrun : machine.run new es = some s) : s.Inv :=
  StateMachine.run_induction (M := machine) (P := fun _ s => s.Inv) inv_new
    (fun _ _ _ _ _ hinv hstep => by
      obtain ⟨⟨s₁, deeds⟩, hsome, rfl⟩ := Option.map_eq_some_iff.mp hstep
      exact hinv.step hsome) hrun

/-- **`close` is final if and only if** no timer is pending when it is called. -/
theorem close_final_iff {pre : List (ConnectorEvent φ)} (hpre : machine.run new pre = some s)
    (hclose : machine.step s (.close : ConnectorEvent φ) = some s') :
    (∀ post s'', machine.run s' post = some s'' → Final pre post s') ↔ s.timers = [] := by
  obtain rfl := Option.some.inj hclose
  have hinv := inv_of_run hpre
  constructor
  · intro hfinal
    cases htimers : s.timers with
    | nil => rfl
    | cons t timers =>
      -- a timer that is pending brings it back
      have hmem : t ∈ s.closeInternal.timers := by
        rw [closeInternal_timers, htimers]
        exact List.mem_cons_self ..
      obtain ⟨s₁, i, hsome⟩ : ∃ s₁ i, s.closeInternal.step (.timer t : ConnectorEvent φ) =
          some (s₁, [.constructed i]) := ⟨_, _, if_pos hmem⟩
      have hstep : machine.step s.closeInternal (.timer t : ConnectorEvent φ) = some s₁ :=
        congrArg (Option.map Prod.fst) hsome
      have hsilent := (hfinal [.timer t] s₁ (StateMachine.run_cons_eq_some.mpr
        ⟨s₁, hstep, rfl⟩)).silent
      rw [history, StateMachine.trace_cons hstep, hsome] at hsilent
      cases hsilent
  · intro hnone post s'' hpost
    have hdead : s.closeInternal.Dead := ⟨hinv.closeInternal, (closeInternal_timers s).trans hnone⟩
    refine ⟨fun es es' s₁ _ hes => ?_, hdead.silent hpost⟩
    exact (inv_of_run hes).atMostOne

/-- The server goes away, and a second later the connector would come back. -/
def lost : List (ConnectorEvent Unit) := [.onopen 0, .onclose 0]

/-- It does so after `close`, too. -/
theorem not_final_lost : ∃ s s' s'', machine.run new lost = some s ∧
    machine.step s (.close : ConnectorEvent Unit) = some s' ∧
      machine.run s' [.timer 0, .onopen 1, .onmessage 1 ()] = some s'' ∧
        history s' [.timer 0, .onopen 1, .onmessage 1 ()] =
          [.constructed 1, .registered 1, .handled ()] ∧
        ¬Final lost [.timer 0, .onopen 1, .onmessage 1 ()] s' :=
  ⟨_, _, _, rfl, rfl, rfl, rfl, fun h => nomatch h.silent⟩

/-- The server is there when `close` is called. -/
def connected : List (ConnectorEvent Unit) := [.onopen 0]

theorem close_final_iff_connected : ∃ s s', machine.run new connected = some s ∧
    machine.step s (.close : ConnectorEvent Unit) = some s' ∧
      ∀ post s'', machine.run s' post = some s'' → Final connected post s' :=
  have hpre : ∃ s, machine.run new connected = some s ∧ s.timers = [] := ⟨_, rfl, rfl⟩
  hpre.elim fun s h => ⟨s, _, h.1, rfl, (close_final_iff h.1 rfl).mpr h.2⟩

end WsSignallingConnector

end Ts

end Vamp
