import Vamp.DeliveryIsolation
import Vamp.SignallingWire

/-!
# Signals through the server

What the codec of the peers and the routing of the server come to together, over whole runs of
the server: what is placed in the queue of a connection can be read there, and the signals that
are placed there from a connection are some of those that were written on it, in the order in
which they were written, and none of them twice (`signals_forwarded`).
-/

/-- Elements that stand at increasing places are a part of a list. -/
theorem List.map_sublist_of_getElem? {α β : Type} {l : List α} {xs : List β} {i : β → ℕ}
    {f : β → α} (hincreasing : xs.Pairwise fun x y => i x < i y)
    (h : ∀ x ∈ xs, l[i x]? = some (f x)) : (xs.map f).Sublist l := by
  suffices ∀ n, (∀ x ∈ xs, n ≤ i x) → (xs.map f).Sublist (l.drop n) from
    this 0 fun x _ => Nat.zero_le _
  induction xs with
  | nil => exact fun n _ => List.nil_sublist _
  | cons x xs ih =>
    intro n hn
    obtain ⟨hx, hxs⟩ := List.pairwise_cons.mp hincreasing
    obtain ⟨hlt, hget⟩ := List.getElem?_eq_some_iff.mp (h x List.mem_cons_self)
    -- the element itself, and what stands behind it
    have hrest := ih hxs (fun y hy => h y (List.mem_cons_of_mem x hy)) (i x + 1) hx
    have hdrop : l.drop (i x) = f x :: l.drop (i x + 1) := by
      rw [List.drop_eq_getElem_cons hlt, hget]
    have hsub : ((x :: xs).map f).Sublist (l.drop (i x)) := hdrop ▸ hrest.cons_cons (f x)
    exact hsub.trans (List.drop_sublist_drop_left l (hn x List.mem_cons_self))

namespace Vamp

namespace Server

variable {V : Type}

/-- What is placed from one connection in the queue of another one. -/
def placedFrom (cfg : ServerConfig) (fromStr : String → Option (WireMsg V))
    (es : List ServerEvent) (c d : ConnectionId) : List Message :=
  ((placements cfg fromStr es).filter fun p => p.src = c ∧ p.dst = d).map Placement.message

section Runs

variable {cfg : ServerConfig} {fromStr : String → Option (WireMsg V)} {s : Server}
  {es : List ServerEvent} {c d : ConnectionId}

/-- A message that is placed had been accepted, and there was something to forward. -/
theorem History.parse_of_mem_placedFrom (h : History cfg fromStr es s) {message : Message}
    (hmem : message ∈ placedFrom cfg fromStr es c d) :
    ∃ tag, parseIncoming fromStr message = .ok ⟨tag, true⟩ := by
  obtain ⟨p, hp, rfl⟩ := List.mem_map.mp hmem
  obtain ⟨-, -, parsed, hparse, hlookedUp⟩ := h.placed p (List.mem_of_mem_filter hp)
  obtain ⟨-, -, -, -, -, -, -, -, -, -, -, hpayload, -⟩ := hlookedUp
  exact ⟨parsed.rttTag, hpayload ▸ hparse⟩

/-- The messages placed from a connection are a part of those accepted from it. -/
theorem History.placedFrom_sublist (h : History cfg fromStr es s) (c d : ConnectionId) :
    (placedFrom cfg fromStr es c d).Sublist (acceptedFrom cfg fromStr es c) := by
  have hfrom : (placedFrom cfg fromStr es c d).Sublist
      (((placements cfg fromStr es).filter fun p => p.src = c).map Placement.message) := by
    refine (List.monotone_filter_right _ fun p hp => ?_).map _
    simp only [decide_eq_true_eq] at hp ⊢
    exact hp.1
  refine hfrom.trans (List.map_sublist_of_getElem? (i := fun p => p.number - 1) ?_ ?_)
  · refine ((h.increasing c).imp_of_mem ?_)
    intro p q hp hq hlt
    have hpos := (h.placed p (List.mem_of_mem_filter hp)).1
    omega
  · intro p hp
    obtain ⟨hmem, hsrc⟩ := List.mem_filter.mp hp
    obtain ⟨-, hget, -⟩ := h.placed p hmem
    rwa [of_decide_eq_true hsrc] at hget

end Runs

/-! ## Of signals -/

section Signals

variable {cfg : ServerConfig} {text : JsonText} {s : Server} {es : List ServerEvent}
  {c : ConnectionId}

/-- What has been written, and was taken with something to forward, is read as what it was. -/
theorem map_decoder_toWireMsg {ws : List (WireMsg SignalMsg)}
    (h : ∀ w ∈ ws, ∃ tag,
      parseIncoming (serverReads text) (toWireMsg w.tag w.message) = .ok ⟨tag, true⟩) :
    (ws.map fun w => toWireMsg w.tag w.message).map (Rs.RtcConnector.decoder text) =
      (ws.filterMap WireMsg.message).map .ok := by
  induction ws with
  | nil => rfl
  | cons w ws ih =>
    obtain ⟨tag, hparse⟩ := h w List.mem_cons_self
    obtain ⟨-, hparsed, hsn⟩ := parseIncoming_toWireMsg_iff.mp hparse
    obtain ⟨m, hm⟩ := Option.isSome_iff_exists.mp (congrArg ParsedMessage.hasPayload hparsed)
    have hread : Rs.RtcConnector.decoder text (toWireMsg w.tag w.message) = .ok m := by
      rw [hm]
      exact decoder_toWireMsg_eq_ok.mpr ⟨hsn m hm, rfl⟩
    rw [List.map_cons, List.map_cons, hread, List.filterMap_cons_some hm, List.map_cons,
      ih fun w hw => h w (List.mem_cons_of_mem _ hw)]

/-- **Signals are forwarded in order.** If whatever is accepted from a connection has been written
by the codec of a peer, then in every run whatever is placed from it in the queue of another
connection is read there as a signal, and these signals are some of those that were written, in
their order. -/
theorem signals_forwarded (hrun : (signallingServer cfg (serverReads text)).run .init es = some s)
    {ws : List (WireMsg SignalMsg)}
    (hws : acceptedFrom cfg (serverReads text) es c = ws.map fun w => toWireMsg w.tag w.message)
    (d : ConnectionId) :
    ∃ signals : List (TransportMsg SignalMsg), signals.Sublist (ws.filterMap WireMsg.message) ∧
      (placedFrom cfg (serverReads text) es c d).map (Rs.RtcConnector.decoder text) =
        signals.map .ok := by
  have hH := run_history hrun
  obtain ⟨ws', hsub, hplaced⟩ := List.sublist_map_iff.mp (hws ▸ hH.placedFrom_sublist c d)
  refine ⟨ws'.filterMap WireMsg.message, hsub.filterMap _, ?_⟩
  have hmem : ∀ w ∈ ws', toWireMsg w.tag w.message ∈ placedFrom cfg (serverReads text) es c d := by
    intro w hw
    rw [hplaced]
    exact List.mem_map_of_mem hw
  rw [hplaced]
  exact map_decoder_toWireMsg fun w hw => hH.parse_of_mem_placedFrom (hmem w hw)

end Signals

/-! ## An offer -/

/-- An offer, in its room. -/
def offer : WireMsg SignalMsg := ⟨"r", some (.normal 1 "browser" ⟨.offer, "v=0", "1"⟩)⟩

/-- The offer as a message. -/
def offerMessage : Message := toWireMsg offer.tag offer.message

/-- Connections 0 and 1 open, the one registers, and the other one sends a message. -/
def meeting (registration message : Message) : List ServerEvent :=
  [.accept, .accept, .open 0 0, .open 1 0, .record 0, .record 1,
    .task 0 (.receive 1 registration), .lookup 0, .task 1 (.receive 2 message), .lookup 1,
    .forward 1]

/-- A reader that takes every text for the same. -/
def always (w : WireMsg V) : String → Option (WireMsg V) := fun _ => some w

section Meeting

variable {fromStr : String → Option (WireMsg V)} {raw raw' : String} {w : WireMsg V}

theorem receive_eq_always
    (h : parseIncoming fromStr (.text raw) = parseIncoming (always w) (.text raw))
    (k : Connection) (metrics : ServerMetrics) (now : Instant) :
    k.receive fromStr metrics now (.text raw) = k.receive (always w) metrics now (.text raw) := by
  unfold Connection.receive MsgProcessor.beforeLock
  rw [h]

theorem step_eq_always
    (h : parseIncoming fromStr (.text raw) = parseIncoming (always w) (.text raw))
    (k : Connection) (metrics : ServerMetrics) (now : Instant) :
    k.step fromStr metrics (.receive now (.text raw)) =
      k.step (always w) metrics (.receive now (.text raw)) := by
  rw [Connection.step, Connection.step, receive_eq_always h]

theorem acceptance_eq_always
    (h : parseIncoming fromStr (.text raw) = parseIncoming (always w) (.text raw)) (s : Server)
    (c : ConnectionId) (now : Instant) :
    s.acceptance fromStr (.task c (.receive now (.text raw))) =
      s.acceptance (always w) (.task c (.receive now (.text raw))) := by
  simp only [acceptance, receive_eq_always h]

/-- The two meet, and the message is placed in the queue of the first one. -/
theorem run_meeting (h : parseIncoming fromStr (.text raw) = .ok ⟨"r", false⟩)
    (h' : parseIncoming fromStr (.text raw') = .ok ⟨"r", true⟩) :
    ∃ s, (signallingServer {} fromStr).run .init (meeting (.text raw) (.text raw')) = some s ∧
      placements {} fromStr (meeting (.text raw) (.text raw')) = [⟨1, 1, 0, .text raw'⟩] ∧
      acceptedFrom {} fromStr (meeting (.text raw) (.text raw')) 1 = [.text raw'] := by
  have hfirst : parseIncoming fromStr (.text raw) =
      parseIncoming (always (⟨"r", none⟩ : WireMsg V)) (.text raw) := h
  have hsecond : parseIncoming fromStr (.text raw') =
      parseIncoming (always (⟨"r", some (.ack 0 "")⟩ : WireMsg V)) (.text raw') := h'
  have hrun : ∃ s, (signallingServer {} fromStr).run .init (meeting (.text raw) (.text raw')) =
      some s := by
    refine Option.isSome_iff_exists.mp ?_
    simp only [StateMachine.run, meeting, signallingServer, List.foldlM_cons, step,
      step_eq_always hfirst, step_eq_always hsecond]
    rfl
  obtain ⟨s, hrun⟩ := hrun
  refine ⟨s, hrun, ?_, ?_⟩
  · simp only [placements, StateMachine.trace, meeting, signallingServer, step,
      step_eq_always hfirst, step_eq_always hsecond]
    rfl
  · simp only [acceptedFrom, StateMachine.trace, meeting, signallingServer, step,
      step_eq_always hfirst, step_eq_always hsecond, acceptance_eq_always hfirst,
      acceptance_eq_always hsecond]
    rfl

end Meeting

/-- The registration of a peer, and its offer. -/
theorem parse_offer :
    parseIncoming (serverReads .inverse) (toWireMsg "r" none) = .ok ⟨"r", false⟩ ∧
      parseIncoming (serverReads .inverse) offerMessage = .ok ⟨"r", true⟩ := by
  constructor
  · exact parseIncoming_toWireMsg_iff.mpr ⟨by decide, rfl, nofun⟩
  · refine parseIncoming_toWireMsg_iff.mpr ⟨by decide, rfl, ?_⟩
    rintro m ⟨⟩
    decide

theorem signals_forwarded_offer :
    placedFrom {} (serverReads .inverse) (meeting (toWireMsg "r" none) offerMessage) 1 0 =
        [offerMessage] ∧
      ∃ signals : List (TransportMsg SignalMsg),
        signals.Sublist ([offer].filterMap WireMsg.message) ∧
          (placedFrom {} (serverReads .inverse) (meeting (toWireMsg "r" none) offerMessage) 1 0).map
            (Rs.RtcConnector.decoder .inverse) = signals.map .ok := by
  obtain ⟨s, hrun, hplaced, haccepted⟩ := run_meeting parse_offer.1 parse_offer.2
  have hwritten : acceptedFrom {} (serverReads .inverse)
      (meeting (toWireMsg "r" none) offerMessage) 1 =
        [offer].map fun w => toWireMsg w.tag w.message := haccepted
  refine ⟨?_, signals_forwarded hrun hwritten 0⟩
  rw [placedFrom]
  exact congrArg (fun ps => (ps.filter fun p => p.src = 1 ∧ p.dst = 0).map Placement.message)
    hplaced

end Server

end Vamp
