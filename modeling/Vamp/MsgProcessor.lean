import Mathlib
import Vamp.RoutingTable

/-!
# Processing one message

The parts of `ws_server.rs` that a connection's `listen_task` runs for every
message: parsing, the rate limiter that also remembers the connection's routing
tag, the activity counters, and `MsgProcessor::process`.

`process` has one await, on the server lock, and it lets go of the lock before it
enqueues. Other tasks run in between, so the function appears in three segments:
`beforeLock` (before the lock), the lookup in the routing table (under the lock, see
`RoutingTable`), and the enqueue (after it, see `SignallingServer`).

`serde_json` is not part of the repository. Its only use here,
`from_str::<WireMsg<serde_json::Value>>`, is the parameter `fromStr`.
-/

namespace Vamp

variable {V : Type}

/-! ## Messages -/

/-- A websocket message (`tungstenite::Message`). -/
inductive Message : Type where
  /-- a text message -/
  | text : String → Message
  /-- a binary message -/
  | binary : ByteArray → Message
  /-- a ping -/
  | ping : ByteArray → Message
  /-- a pong -/
  | pong : ByteArray → Message
  /-- a close frame -/
  | close : Message
  /-- a raw frame -/
  | frame : ByteArray → Message
  deriving DecidableEq

/-- `Message::is_close`. -/
def Message.isClose : Message → Bool
  | .close => true
  | _ => false

/-- `ParsedMessage`. -/
structure ParsedMessage : Type where
  /-- the routing tag of the message -/
  rttTag : RoutingTag
  /-- whether there is anything to forward -/
  hasPayload : Bool
  deriving DecidableEq, Repr

/-- `parse_incoming`. -/
def parseIncoming (fromStr : String → Option (WireMsg V)) (message : Message) :
    MyRes ParsedMessage := do
  let text ← match message with
    | .text text => .ok text
    | .binary bytes =>
      match String.fromUTF8? bytes with
      | some text => .ok text
      | none => .error (.text "binary message is not utf-8")
    | _ => .error (.text "unsupported websocket message")
  let wireMessage ← match fromStr text with
    | some wireMessage => .ok wireMessage
    | none => .error (.text ("invalid signalling message: " ++ text))
  if wireMessage.tag.isEmpty then
    .error (.text "empty routing tag")
  else
    .ok ⟨wireMessage.tag, wireMessage.message.isSome⟩

/-! ## The rate limiter -/

/-- `MsgRateLimiter`. -/
structure MsgRateLimiter : Type where
  /-- the routing tag the connection is branded with -/
  tag : Option RoutingTag
  /-- start of the current one-second window -/
  windowStartedAt : Instant
  /-- messages let through in the window -/
  windowMessageCount : ℕ
  /-- messages counted over the whole connection -/
  totalMessageCount : ℕ
  /-- the limit for one window -/
  maxMessagesPerSecond : ℕ
  /-- the limit for the connection -/
  maxMessagesPerConnection : ℕ
  deriving DecidableEq, Repr

namespace MsgRateLimiter

/-- `MsgRateLimiter::new`. -/
def new (now : Instant) (maxMessagesPerSecond maxMessagesPerConnection : ℕ) : MsgRateLimiter where
  tag := none
  windowStartedAt := now
  windowMessageCount := 0
  totalMessageCount := 0
  maxMessagesPerSecond := maxMessagesPerSecond
  maxMessagesPerConnection := maxMessagesPerConnection

/-- The first statement of `rate_limit_by_time`: open a new window when the
current one is a second old. -/
def roll (l : MsgRateLimiter) (now : Instant) : MsgRateLimiter :=
  if fromSecs 1 ≤ now - l.windowStartedAt then
    { l with windowStartedAt := now, windowMessageCount := 0 }
  else l

/-- `rate_limit_by_time`. -/
def rateLimitByTime (l : MsgRateLimiter) (now : Instant) : MsgRateLimiter × MyRes Unit :=
  let l := l.roll now
  if l.maxMessagesPerSecond ≤ l.windowMessageCount then
    (l, .error (.text "message rate limit exceeded"))
  else
    ({ l with windowMessageCount := l.windowMessageCount + 1 }, .ok ())

/-- `limit_messages`. -/
def limitMessages (l : MsgRateLimiter) : MsgRateLimiter × MyRes Unit :=
  if l.maxMessagesPerConnection ≤ l.totalMessageCount then
    (l, .error (.text "connection message limit reached"))
  else
    ({ l with totalMessageCount := l.totalMessageCount + 1 }, .ok ())

/-- `try_brand_rtt_tag`. -/
def tryBrandRttTag (l : MsgRateLimiter) (tag : RoutingTag) : MsgRateLimiter × MyRes Unit :=
  match l.tag with
  | some existing =>
    if existing ≠ tag then (l, .error (.text "connection changed routing tag")) else (l, .ok ())
  | none => ({ l with tag := some tag }, .ok ())

/-! ### What each check can do -/

/-- The window has room for a message that arrives at `now`. -/
def WithinWindow (l : MsgRateLimiter) (now : Instant) : Prop :=
  (l.roll now).windowMessageCount < (l.roll now).maxMessagesPerSecond

/-- The connection has messages left. -/
def WithinTotal (l : MsgRateLimiter) : Prop :=
  l.totalMessageCount < l.maxMessagesPerConnection

/-- A new window changes neither the tag nor the connection's total. -/
theorem roll_frame (l : MsgRateLimiter) (now : Instant) :
    (l.roll now).tag = l.tag ∧ ((l.roll now).WithinTotal ↔ l.WithinTotal) := by
  unfold roll
  split
  · exact ⟨rfl, Iff.rfl⟩
  · exact ⟨rfl, Iff.rfl⟩

theorem rateLimitByTime_cases (l : MsgRateLimiter) (now : Instant) :
    (∃ l' err, l.rateLimitByTime now = (l', .error err) ∧ l'.tag = l.tag ∧
      ¬ l.WithinWindow now) ∨
    (∃ l', l.rateLimitByTime now = (l', .ok ()) ∧ l'.tag = l.tag ∧ l.WithinWindow now ∧
      (l'.WithinTotal ↔ l.WithinTotal)) := by
  obtain ⟨htag, htotal⟩ := roll_frame l now
  by_cases h : (l.roll now).maxMessagesPerSecond ≤ (l.roll now).windowMessageCount
  · refine Or.inl ⟨l.roll now, .text "message rate limit exceeded", ?_, htag, not_lt.mpr h⟩
    rw [rateLimitByTime, if_pos h]
  · refine Or.inr ⟨{ l.roll now with windowMessageCount := (l.roll now).windowMessageCount + 1 },
      ?_, htag, not_le.mp h, htotal⟩
    rw [rateLimitByTime, if_neg h]

theorem limitMessages_cases (l : MsgRateLimiter) :
    (∃ err, l.limitMessages = (l, .error err) ∧ ¬ l.WithinTotal) ∨
    (∃ l', l.limitMessages = (l', .ok ()) ∧ l'.tag = l.tag ∧ l.WithinTotal) := by
  by_cases h : l.maxMessagesPerConnection ≤ l.totalMessageCount
  · refine Or.inl ⟨.text "connection message limit reached", ?_, not_lt.mpr h⟩
    rw [limitMessages, if_pos h]
  · refine Or.inr ⟨{ l with totalMessageCount := l.totalMessageCount + 1 }, ?_, rfl, not_le.mp h⟩
    rw [limitMessages, if_neg h]

theorem tryBrandRttTag_cases (l : MsgRateLimiter) (tag : RoutingTag) :
    (∃ err, l.tryBrandRttTag tag = (l, .error err) ∧ l.tag ≠ none ∧ l.tag ≠ some tag) ∨
    (∃ l', l.tryBrandRttTag tag = (l', .ok ()) ∧ l'.tag = some tag ∧
      (l.tag = none ∨ l.tag = some tag)) := by
  unfold tryBrandRttTag
  cases htag : l.tag with
  | none => exact Or.inr ⟨_, rfl, rfl, Or.inl rfl⟩
  | some existing =>
    by_cases hne : existing = tag
    · refine Or.inr ⟨l, ?_, by rw [htag, hne], Or.inr (by rw [hne])⟩
      simp [hne]
    · refine Or.inl ⟨.text "connection changed routing tag", ?_, by simp, by simpa using hne⟩
      simp [hne]

end MsgRateLimiter

/-! ## Activity counters -/

/-- `NonIdleMarker`: what the idle checker looks at. Its counters are numbers without a bound, where
the code has an `AtomicUsize`, which wraps at `2 ^ 64`. -/
structure NonIdleMarker : Type where
  /-- messages of this connection that were accepted -/
  incoming : ℕ := 0
  /-- messages of this connection that were forwarded -/
  forwarded : ℕ := 0
  deriving DecidableEq, Repr

/-- `increment_incoming`. -/
def NonIdleMarker.incrementIncoming (m : NonIdleMarker) : NonIdleMarker :=
  { m with incoming := m.incoming + 1 }

/-- `increment_forwarded`. -/
def NonIdleMarker.incrementForwarded (m : NonIdleMarker) : NonIdleMarker :=
  { m with forwarded := m.forwarded + 1 }

/-- `ServerMetrics`: counters over all connections, again without a bound. -/
structure ServerMetrics : Type where
  /-- messages dropped by the window limit -/
  rateLimitedByTime : ℕ := 0
  /-- connections ended by the total limit -/
  rateLimitedByCount : ℕ := 0
  /-- messages forwarded -/
  forwarded : ℕ := 0
  /-- connections ended for changing their tag -/
  badRoutingTag : ℕ := 0
  /-- messages received -/
  incomingMsg : ℕ := 0
  deriving DecidableEq, Repr

namespace ServerMetrics

/-- `record_time_rate_limit`. -/
def recordTimeRateLimit (m : ServerMetrics) : ServerMetrics :=
  { m with rateLimitedByTime := m.rateLimitedByTime + 1 }

/-- `record_count_rate_limit`. -/
def recordCountRateLimit (m : ServerMetrics) : ServerMetrics :=
  { m with rateLimitedByCount := m.rateLimitedByCount + 1 }

/-- `record_forwarded`. -/
def recordForwarded (m : ServerMetrics) : ServerMetrics := { m with forwarded := m.forwarded + 1 }

/-- `record_bad_routing_tag`. -/
def recordBadRoutingTag (m : ServerMetrics) : ServerMetrics :=
  { m with badRoutingTag := m.badRoutingTag + 1 }

/-- `record_incoming_msg`. -/
def recordIncomingMsg (m : ServerMetrics) : ServerMetrics :=
  { m with incomingMsg := m.incomingMsg + 1 }

end ServerMetrics

/-! ## Before the lock -/

/-- `MsgProcessor`. The close notifier is shared with the connection's other
tasks; here it is the flag it stands for. -/
structure MsgProcessor : Type where
  /-- whether the connection has been told to close -/
  closeNotifier : Bool
  /-- limits, and the branded tag -/
  msgRateLimiter : MsgRateLimiter
  /-- the activity counters of the connection -/
  nonIdleMarker : NonIdleMarker
  deriving DecidableEq, Repr

/-- How the first segment of `process` ends. -/
inductive Admission : Type where
  /-- `process` returns -/
  | returned : MyRes Unit → Admission
  /-- `process` goes on to take the server lock -/
  | admitted : ParsedMessage → Admission

namespace MsgProcessor

/-- The branded tag. -/
abbrev tag (p : MsgProcessor) : Option RoutingTag := p.msgRateLimiter.tag

/-- `MsgProcessor::process` up to its await. -/
def beforeLock (fromStr : String → Option (WireMsg V)) (p : MsgProcessor) (metrics : ServerMetrics)
    (now : Instant) (message : Message) : MsgProcessor × ServerMetrics × Admission :=
  let metrics := metrics.recordIncomingMsg
  match p.msgRateLimiter.rateLimitByTime now with
  | (limiter, .error _) =>
    -- this message is dropped, the connection goes on
    ({ p with msgRateLimiter := limiter }, metrics.recordTimeRateLimit, .returned (.ok ()))
  | (limiter, .ok _) =>
    match limiter.limitMessages with
    | (limiter, .error err) =>
      ({ p with msgRateLimiter := limiter }, metrics.recordCountRateLimit, .returned (.error err))
    | (limiter, .ok _) =>
      match parseIncoming fromStr message with
      | .error err => ({ p with msgRateLimiter := limiter }, metrics, .returned (.error err))
      | .ok parsed =>
        match limiter.tryBrandRttTag parsed.rttTag with
        | (limiter, .error err) =>
          ({ p with msgRateLimiter := limiter, closeNotifier := true },
            metrics.recordBadRoutingTag, .returned (.error err))
        | (limiter, .ok _) =>
          ({ p with
              msgRateLimiter := limiter
              nonIdleMarker := p.nonIdleMarker.incrementIncoming },
            metrics, .admitted parsed)

/-- A message that `beforeLock` lets through: within both limits, well formed, and of
the connection's tag (any tag, if the connection has none yet). -/
structure Admissible (fromStr : String → Option (WireMsg V)) (p : MsgProcessor) (now : Instant)
    (message : Message) (parsed : ParsedMessage) : Prop where
  /-- the window has room -/
  byTime : p.msgRateLimiter.WithinWindow now
  /-- the connection has messages left -/
  byCount : p.msgRateLimiter.WithinTotal
  /-- the message parses -/
  wellFormed : parseIncoming fromStr message = .ok parsed
  /-- the tag is the connection's -/
  tag : p.tag = none ∨ p.tag = some parsed.rttTag

/-- **What the first segment can do.** It returns, and then the tag and the
counters of accepted messages are as they were; or it admits the message, which is
then branded and counted. -/
theorem beforeLock_cases (fromStr : String → Option (WireMsg V)) (p : MsgProcessor)
    (metrics : ServerMetrics) (now : Instant) (message : Message) :
    (∃ p' metrics' res, p.beforeLock fromStr metrics now message = (p', metrics', .returned res) ∧
      p'.tag = p.tag ∧ p'.nonIdleMarker = p.nonIdleMarker ∧
      ∀ parsed, ¬ p.Admissible fromStr now message parsed) ∨
    (∃ p' metrics' parsed,
      p.beforeLock fromStr metrics now message = (p', metrics', .admitted parsed) ∧
      p'.tag = some parsed.rttTag ∧ p'.nonIdleMarker = p.nonIdleMarker.incrementIncoming ∧
      p'.closeNotifier = p.closeNotifier ∧ p.Admissible fromStr now message parsed) := by
  unfold beforeLock
  rcases p.msgRateLimiter.rateLimitByTime_cases now with
    ⟨l₁, err, h₁, htag₁, hwin⟩ | ⟨l₁, h₁, htag₁, hwin, htotal₁⟩
  · -- dropped by time
    rw [h₁]
    exact Or.inl ⟨_, _, _, rfl, htag₁, rfl, fun _ h => hwin h.byTime⟩
  rw [h₁]
  rcases l₁.limitMessages_cases with ⟨err, h₂, htotal⟩ | ⟨l₂, h₂, htag₂, htotal⟩
  · -- the total cap
    simp only [h₂]
    exact Or.inl ⟨_, _, _, rfl, htag₁, rfl, fun _ h => htotal (htotal₁.mpr h.byCount)⟩
  simp only [h₂]
  have htag : l₂.tag = p.tag := htag₂.trans htag₁
  cases hparse : parseIncoming fromStr message with
  | error err =>
    refine Or.inl ⟨_, _, _, rfl, htag, rfl, fun parsed h => ?_⟩
    exact absurd (hparse.symm.trans h.wellFormed) (by simp)
  | ok parsed =>
    rcases l₂.tryBrandRttTag_cases parsed.rttTag with
      ⟨err, h₃, hnone, hsome⟩ | ⟨l₃, h₃, htag₃, hbrand⟩
    · -- an impostor's tag
      simp only [h₃]
      refine Or.inl ⟨_, _, _, rfl, htag, rfl, fun parsed' h => ?_⟩
      obtain rfl : parsed = parsed' := Except.ok.inj (hparse.symm.trans h.wellFormed)
      rw [htag] at hnone hsome
      exact h.tag.elim hnone hsome
    · simp only [h₃]
      refine Or.inr ⟨_, _, parsed, rfl, htag₃, rfl, rfl, hwin, htotal₁.mp htotal, hparse, ?_⟩
      rw [htag] at hbrand
      exact hbrand

/-- The counters over all connections decide nothing. -/
theorem beforeLock_metrics (fromStr : String → Option (WireMsg V)) (p : MsgProcessor)
    (metrics metrics' : ServerMetrics) (now : Instant) (message : Message) :
    (p.beforeLock fromStr metrics now message).1 = (p.beforeLock fromStr metrics' now message).1 ∧
    (p.beforeLock fromStr metrics now message).2.2 =
      (p.beforeLock fromStr metrics' now message).2.2 := by
  unfold beforeLock
  rcases p.msgRateLimiter.rateLimitByTime now with ⟨l₁, _ | _⟩
  · exact ⟨rfl, rfl⟩
  dsimp only
  rcases l₁.limitMessages with ⟨l₂, _ | _⟩
  · exact ⟨rfl, rfl⟩
  rcases parseIncoming fromStr message with _ | parsed
  · exact ⟨rfl, rfl⟩
  dsimp only
  rcases l₂.tryBrandRttTag parsed.rttTag with ⟨l₃, _ | _⟩
  · exact ⟨rfl, rfl⟩
  · exact ⟨rfl, rfl⟩

end MsgProcessor

end Vamp
