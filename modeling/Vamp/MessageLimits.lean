import Vamp.LazyWindow
import Vamp.MsgProcessor
import Vamp.StateMachine

/-!
# The limits on the messages of a connection

`MsgRateLimiter` drops what comes too fast and ends a connection that has sent too much.
`rate_limit_by_time` is a lazy window (`rateLimitByTime_spec`), and only what it lets pass
is counted by `limit_messages`.

The messages of one connection are processed one after another, with nondecreasing times, until one
of them fails. What `process` does after the lock touches neither limit.
-/

namespace Vamp

namespace MsgRateLimiter

/-- The window of a limiter. -/
def window (l : MsgRateLimiter) : LazyWindow := ⟨l.windowStartedAt, l.windowMessageCount⟩

/-- Whether `rate_limit_by_time` lets a message pass. -/
def passes (l : MsgRateLimiter) (now : Instant) : Bool := (l.rateLimitByTime now).2.isOk

/-- Two limiters have the same limits. -/
structure SameLimits (l l' : MsgRateLimiter) : Prop where
  /-- for a second -/
  perSecond : l'.maxMessagesPerSecond = l.maxMessagesPerSecond
  /-- for the connection -/
  perConnection : l'.maxMessagesPerConnection = l.maxMessagesPerConnection

theorem SameLimits.trans {l l' l'' : MsgRateLimiter} (h : SameLimits l l')
    (h' : SameLimits l' l'') : SameLimits l l'' :=
  ⟨h'.perSecond.trans h.perSecond, h'.perConnection.trans h.perConnection⟩

theorem roll_spec (l : MsgRateLimiter) (now : Instant) :
    (l.roll now).window = l.window.roll (fromSecs 1) now ∧ SameLimits l (l.roll now) ∧
      (l.roll now).totalMessageCount = l.totalMessageCount := by
  rw [roll, LazyWindow.roll]
  by_cases h : fromSecs 1 ≤ now - l.windowStartedAt
  · rw [if_pos h]
    exact ⟨(if_pos h).symm, ⟨rfl, rfl⟩, rfl⟩
  · rw [if_neg h]
    exact ⟨(if_neg h).symm, ⟨rfl, rfl⟩, rfl⟩

/-- **`rate_limit_by_time` is a lazy window** of one second, and touches nothing else. -/
theorem rateLimitByTime_spec (l : MsgRateLimiter) (now : Instant) :
    l.passes now = l.window.passes (fromSecs 1) l.maxMessagesPerSecond now ∧
      (l.rateLimitByTime now).1.window =
        l.window.arrive (fromSecs 1) l.maxMessagesPerSecond now ∧
      SameLimits l (l.rateLimitByTime now).1 ∧
      (l.rateLimitByTime now).1.totalMessageCount = l.totalMessageCount := by
  obtain ⟨hroll, hsame, htotal⟩ := l.roll_spec now
  have hcount : (l.window.roll (fromSecs 1) now).count = (l.roll now).windowMessageCount := by
    rw [← hroll]
    rfl
  by_cases h : (l.roll now).maxMessagesPerSecond ≤ (l.roll now).windowMessageCount
  · have hpasses : l.window.passes (fromSecs 1) l.maxMessagesPerSecond now = false := by
      rw [LazyWindow.passes, hcount, ← hsame.perSecond]
      exact decide_eq_false (Nat.not_lt.mpr h)
    rw [passes, LazyWindow.arrive, hpasses, rateLimitByTime, if_pos h]
    exact ⟨rfl, hroll, hsame, htotal⟩
  · have hpasses : l.window.passes (fromSecs 1) l.maxMessagesPerSecond now = true := by
      rw [LazyWindow.passes, hcount, ← hsame.perSecond]
      exact decide_eq_true (Nat.not_le.mp h)
    rw [passes, LazyWindow.arrive, hpasses, rateLimitByTime, if_neg h, if_pos rfl, hcount, ← hroll]
    exact ⟨rfl, rfl, ⟨hsame.perSecond, hsame.perConnection⟩, htotal⟩

end MsgRateLimiter

variable {V : Type}

/-- The error of `limit_messages`. -/
def connectionLimit : MyErr := .text "connection message limit reached"

/-- `try_brand_rtt_tag` does not fail with it, and leaves the limits alone. -/
theorem MsgRateLimiter.tryBrandRttTag_spec (l : MsgRateLimiter) (tag : RoutingTag) :
    ∃ l' res, l.tryBrandRttTag tag = (l', res) ∧ res ≠ .error connectionLimit ∧
      l'.window = l.window ∧ SameLimits l l' ∧ l'.totalMessageCount = l.totalMessageCount := by
  rw [tryBrandRttTag]
  split
  · split
    · exact ⟨_, _, rfl, by decide, rfl, ⟨rfl, rfl⟩, rfl⟩
    · exact ⟨_, _, rfl, by decide, rfl, ⟨rfl, rfl⟩, rfl⟩
  · exact ⟨_, _, rfl, by decide, rfl, ⟨rfl, rfl⟩, rfl⟩

/-- `parse_incoming` does not fail with it either, first of all for a text. -/
theorem parseIncoming_text_ne_connectionLimit {fromStr : String → Option (WireMsg V)}
    {text : String} {err : MyErr} (h : parseIncoming fromStr (.text text) = .error err) :
    err ≠ connectionLimit := by
  cases hstr : fromStr text with
  | none =>
    simp only [parseIncoming, bind, Except.bind, hstr] at h
    obtain rfl := Except.error.inj h
    intro heq
    have hfirst := congrArg (fun s => s.toList.head?) (MyErr.text.inj heq)
    rw [String.toList_append] at hfirst
    cases hfirst
  | some wireMessage =>
    simp only [parseIncoming, bind, Except.bind, hstr] at h
    by_cases htag : wireMessage.tag.isEmpty = true
    · obtain rfl := Except.error.inj ((if_pos htag).symm.trans h)
      decide
    · cases (if_neg htag).symm.trans h

theorem parseIncoming_ne_connectionLimit {fromStr : String → Option (WireMsg V)}
    {message : Message} {err : MyErr} (h : parseIncoming fromStr message = .error err) :
    err ≠ connectionLimit := by
  cases message with
  | text text => exact parseIncoming_text_ne_connectionLimit h
  | binary bytes =>
    cases hutf8 : String.fromUTF8? bytes with
    | none =>
      simp only [parseIncoming, bind, Except.bind, hutf8] at h
      obtain rfl := Except.error.inj h
      decide
    | some text =>
      have htext : parseIncoming fromStr (.binary bytes) = parseIncoming fromStr (.text text) := by
        simp only [parseIncoming, bind, Except.bind, hutf8]
      exact parseIncoming_text_ne_connectionLimit (htext.symm.trans h)
  | ping | pong | close | frame =>
    obtain rfl := Except.error.inj h
    decide

namespace MsgProcessor

/-- How the checks of the limits can end. -/
inductive Checked (l l' : MsgRateLimiter) (now : Instant) (admission : Admission) : Prop
  /-- the message is dropped -/
  | dropped (hpasses : l.passes now = false) (hadmission : admission = .returned (.ok ()))
    (htotal : l'.totalMessageCount = l.totalMessageCount)
  /-- the connection has no messages left -/
  | capped (hpasses : l.passes now = true)
    (hadmission : admission = .returned (.error connectionLimit))
    (hfull : l.maxMessagesPerConnection ≤ l.totalMessageCount)
    (htotal : l'.totalMessageCount = l.totalMessageCount)
  /-- the message is counted, and the other checks follow -/
  | counted (hpasses : l.passes now = true)
    (hadmission : admission ≠ .returned (.error connectionLimit))
    (hroom : l.totalMessageCount < l.maxMessagesPerConnection)
    (htotal : l'.totalMessageCount = l.totalMessageCount + 1)

/-- **What `process` does with the limits**, whatever it does with the message. -/
theorem beforeLock_limits (fromStr : String → Option (WireMsg V)) (p : MsgProcessor)
    (metrics : ServerMetrics) (now : Instant) (message : Message) :
    ∃ p' metrics' admission,
      p.beforeLock fromStr metrics now message = (p', metrics', admission) ∧
      Checked p.msgRateLimiter p'.msgRateLimiter now admission ∧
      p'.msgRateLimiter.window =
        p.msgRateLimiter.window.arrive (fromSecs 1) p.msgRateLimiter.maxMessagesPerSecond now ∧
      p.msgRateLimiter.SameLimits p'.msgRateLimiter := by
  obtain ⟨-, hwindow, hsame, htotal⟩ := p.msgRateLimiter.rateLimitByTime_spec now
  have hpasses : p.msgRateLimiter.passes now = (p.msgRateLimiter.rateLimitByTime now).2.isOk := rfl
  unfold beforeLock
  rcases hlimit : p.msgRateLimiter.rateLimitByTime now with ⟨l, err | _⟩
  · rw [hlimit] at hwindow hsame htotal hpasses
    exact ⟨_, _, _, rfl, .dropped hpasses rfl htotal, hwindow, hsame⟩
  rw [hlimit] at hwindow hsame htotal hpasses
  dsimp only at hwindow hsame htotal ⊢
  rw [MsgRateLimiter.limitMessages]
  by_cases hfull : l.maxMessagesPerConnection ≤ l.totalMessageCount
  · rw [if_pos hfull]
    refine ⟨_, _, _, rfl, .capped hpasses rfl ?_ htotal, hwindow, hsame⟩
    rwa [hsame.perConnection, htotal] at hfull
  rw [if_neg hfull]
  have hroom : p.msgRateLimiter.totalMessageCount < p.msgRateLimiter.maxMessagesPerConnection := by
    rw [hsame.perConnection, htotal] at hfull
    exact Nat.not_le.mp hfull
  -- the message is counted, whatever comes of it
  let counted : MsgRateLimiter := { l with totalMessageCount := l.totalMessageCount + 1 }
  have hsame₁ : p.msgRateLimiter.SameLimits counted := ⟨hsame.perSecond, hsame.perConnection⟩
  have htotal₁ : counted.totalMessageCount = p.msgRateLimiter.totalMessageCount + 1 :=
    congrArg (· + 1) htotal
  cases hparse : parseIncoming fromStr message with
  | error err =>
    refine ⟨_, _, _, rfl, .counted hpasses ?_ hroom htotal₁, hwindow, hsame₁⟩
    rintro ⟨⟩
    exact parseIncoming_ne_connectionLimit hparse rfl
  | ok parsed =>
    obtain ⟨l', res, hbrand, hres, hwindow', hsame', htotal'⟩ :=
      counted.tryBrandRttTag_spec parsed.rttTag
    simp only [counted, hbrand]
    cases res with
    | error err =>
      refine ⟨_, _, _, rfl, .counted hpasses ?_ hroom (htotal'.trans htotal₁),
        hwindow'.trans hwindow, hsame₁.trans hsame'⟩
      rintro ⟨⟩
      exact hres rfl
    | ok _ =>
      refine ⟨_, _, _, rfl, .counted hpasses ?_ hroom (htotal'.trans htotal₁),
        hwindow'.trans hwindow, hsame₁.trans hsame'⟩
      exact Admission.noConfusion

end MsgProcessor

/-! ## The messages of a connection -/

/-- A connection that listens. -/
structure Listening : Type where
  /-- its processor -/
  processor : MsgProcessor
  /-- the counters of the server -/
  metrics : ServerMetrics
  /-- a message has failed, and ended the connection -/
  failed : Bool

namespace Listening

/-- The limiter of the connection. -/
abbrev limiter (s : Listening) : MsgRateLimiter := s.processor.msgRateLimiter

/-- `process` fails. -/
def fails : Admission → Bool
  | .returned (.error _) => true
  | _ => false

/-- What becomes of a message. -/
def outcome (fromStr : String → Option (WireMsg V)) (s : Listening) (e : Instant × Message) :
    Admission :=
  (s.processor.beforeLock fromStr s.metrics e.1 e.2).2.2

/-- A message is processed, unless one has failed. -/
def step (fromStr : String → Option (WireMsg V)) (s : Listening) (e : Instant × Message) :
    Option Listening :=
  if s.failed then none
  else
    let (processor, metrics, admission) := s.processor.beforeLock fromStr s.metrics e.1 e.2
    some ⟨processor, metrics, fails admission⟩

/-- A connection that begins at `start`. -/
def machine (fromStr : String → Option (WireMsg V)) (start : Instant)
    (maxMessagesPerSecond maxMessagesPerConnection : ℕ) :
    StateMachine Listening (Instant × Message) where
  init := ⟨⟨false, .new start maxMessagesPerSecond maxMessagesPerConnection, {}⟩, {}, false⟩
  step := step fromStr

/-- The time of a message that `rate_limit_by_time` lets pass. -/
def passing (s : Listening) (e : Instant × Message) : List Instant :=
  if s.limiter.passes e.1 then [e.1] else []

/-- The times of all of them. -/
def passed (fromStr : String → Option (WireMsg V)) (start : Instant)
    (maxMessagesPerSecond maxMessagesPerConnection : ℕ) (es : List (Instant × Message)) :
    List Instant :=
  (machine fromStr start maxMessagesPerSecond maxMessagesPerConnection).trace passing
    (machine fromStr start maxMessagesPerSecond maxMessagesPerConnection).init es

/-- The times at which messages arrive. -/
def arrivals (es : List (Instant × Message)) : List Instant := es.map Prod.fst

variable {fromStr : String → Option (WireMsg V)} {start : Instant} {n m : ℕ} {s s' : Listening}
  {es : List (Instant × Message)} {e : Instant × Message} {times : List Instant}

/-- **The limits are two-sided**: what they do to the messages `es`, with which a connection gets
to `s`, when `n` is the limit for a second and `m` the one for the connection. -/
structure Limited (fromStr : String → Option (WireMsg V)) (start : Instant) (n m : ℕ)
    (es : List (Instant × Message)) (s : Listening) : Prop where
  /-- in an interval of a second, twice the limit passes at most -/
  burst : ∀ a, (passed fromStr start n m es).countP (fun t => a ≤ t ∧ t < a + fromSecs 1) ≤ 2 * n ∧
    (passed fromStr start n m es).countP (fun t => a < t ∧ t ≤ a + fromSecs 1) ≤ 2 * n
  /-- nothing is dropped when there are no more arrivals than the limit in any of them -/
  sparse : (∀ a, (arrivals es).countP (fun t => a ≤ t ∧ t < a + fromSecs 1) ≤ n) →
    passed fromStr start n m es = arrivals es
  /-- what is dropped does not count for the connection -/
  uncounted : s.limiter.totalMessageCount = min (passed fromStr start n m es).length m
  /-- `process` fails because of this limit at the first message that passes after as many -/
  capped : ∀ pre e post s₁, es = pre ++ e :: post →
    (machine fromStr start n m).run (machine fromStr start n m).init pre = some s₁ →
      (s₁.outcome fromStr e = .returned (.error connectionLimit) ↔
        s₁.limiter.passes e.1 = true ∧ (passed fromStr start n m pre).length = m)

/-- What a connection knows of its messages. -/
structure Counts (start : Instant) (n m : ℕ) (es : List (Instant × Message)) (s : Listening)
    (times : List Instant) : Prop where
  /-- the window -/
  window : s.limiter.window.Keeps (fromSecs 1) n (arrivals es) times
  /-- it does not begin in the future -/
  began : ∀ now, start ≤ now → (∀ t ∈ arrivals es, t ≤ now) → s.limiter.window.start ≤ now
  /-- the limit for a second -/
  perSecond : s.limiter.maxMessagesPerSecond = n
  /-- the limit for the connection -/
  perConnection : s.limiter.maxMessagesPerConnection = m
  /-- messages that pass are counted, up to the limit -/
  total : s.limiter.totalMessageCount = min times.length m
  /-- the next one ends the connection -/
  running : s.failed = false → times.length ≤ m

theorem counts_init (fromStr : String → Option (WireMsg V)) (start : Instant) (n m : ℕ) :
    Counts start n m [] (machine fromStr start n m).init [] where
  window := LazyWindow.keeps_nil _ _ _
  began _ hstart _ := hstart
  perSecond := rfl
  perConnection := rfl
  total := (Nat.zero_min m).symm
  running _ := Nat.zero_le m

/-- What a step does. -/
theorem step_limits (hstep : s.step fromStr e = some s') :
    s.failed = false ∧ s'.failed = fails (s.outcome fromStr e) ∧
      MsgProcessor.Checked s.limiter s'.limiter e.1 (s.outcome fromStr e) ∧
      s'.limiter.window =
        s.limiter.window.arrive (fromSecs 1) s.limiter.maxMessagesPerSecond e.1 ∧
      s.limiter.SameLimits s'.limiter := by
  obtain ⟨p', metrics', admission, hlock, hchecked, hwindow, hsame⟩ :=
    s.processor.beforeLock_limits fromStr s.metrics e.1 e.2
  rw [step] at hstep
  cases hfailed : s.failed with
  | true =>
    rw [hfailed, if_pos rfl] at hstep
    cases hstep
  | false =>
    rw [hfailed, if_neg Bool.false_ne_true, hlock] at hstep
    obtain rfl := Option.some.inj hstep
    have houtcome : s.outcome fromStr e = admission := by rw [outcome, hlock]
    rw [houtcome]
    exact ⟨rfl, rfl, hchecked, hwindow, hsame⟩

/-- What a connection knows is kept. -/
theorem Counts.step (h : Counts start n m es s times) (hstep : s.step fromStr e = some s')
    (hstart : start ≤ e.1) (hnow : ∀ t ∈ arrivals es, t ≤ e.1) :
    Counts start n m (es ++ [e]) s' (times ++ s.passing e) := by
  obtain ⟨hrunning, hfails, hchecked, hwindow, hsame⟩ := step_limits hstep
  have hbegan := h.began e.1 hstart hnow
  have hpasses := (s.limiter.rateLimitByTime_spec e.1).1
  have harrivals : arrivals (es ++ [e]) = arrivals es ++ [e.1] := List.map_append
  have hlength := h.running hrunning
  have htotal := h.total
  rw [h.perSecond] at hwindow hpasses
  refine ⟨?_, fun now hstart hall => ?_, hsame.perSecond.trans h.perSecond,
    hsame.perConnection.trans h.perConnection, ?_, fun hopen => ?_⟩
  · rw [hwindow, harrivals, passing, hpasses]
    exact h.window.arrive hnow hbegan
  · rw [harrivals] at hall
    have hlast : e.1 ≤ now := hall e.1 (List.mem_append_right _ (List.mem_singleton_self _))
    rw [hwindow]
    exact (LazyWindow.start_arrive_le hbegan).trans hlast
  · rw [passing, List.length_append]
    cases hchecked with
    | dropped hdropped _ hsame =>
      rw [if_neg (by rw [hdropped]; exact Bool.false_ne_true), hsame, htotal]
      rfl
    | capped hpassed _ hfull hsame =>
      rw [if_pos hpassed, hsame, List.length_singleton]
      rw [h.perConnection] at hfull
      omega
    | counted hpassed _ hroom hnext =>
      rw [if_pos hpassed, hnext, List.length_singleton]
      rw [h.perConnection] at hroom
      omega
  · rw [passing, List.length_append]
    cases hchecked with
    | dropped hdropped =>
      rw [if_neg (by rw [hdropped]; exact Bool.false_ne_true)]
      exact hlength
    | capped _ hadmission =>
      rw [hfails, hadmission] at hopen
      cases hopen
    | counted hpassed _ hroom =>
      rw [if_pos hpassed, List.length_singleton]
      rw [h.perConnection] at hroom
      omega

/-- Every connection whose messages arrive one after another knows it. -/
theorem counts_of_run
    (hrun : (machine fromStr start n m).run (machine fromStr start n m).init es = some s)
    (hsorted : (start :: arrivals es).Pairwise (· ≤ ·)) :
    Counts start n m es s (passed fromStr start n m es) := by
  refine StateMachine.run_induction (M := machine fromStr start n m) (P := fun es s =>
    (start :: arrivals es).Pairwise (· ≤ ·) → Counts start n m es s (passed fromStr start n m es))
    (fun _ => counts_init fromStr start n m) ?_ hrun hsorted
  intro es s e s' hrun ih hstep hsorted
  have harrivals : start :: arrivals (es ++ [e]) = (start :: arrivals es) ++ [e.1] := by
    rw [arrivals, List.map_append]
    rfl
  rw [harrivals, List.pairwise_append] at hsorted
  have hle : ∀ t ∈ start :: arrivals es, t ≤ e.1 := fun t ht =>
    hsorted.2.2 t ht e.1 (List.mem_singleton_self _)
  rw [passed, StateMachine.trace_concat hrun hstep]
  exact (ih hsorted.1).step hstep (hle start (List.mem_cons_self ..)) fun t ht =>
    hle t (List.mem_cons_of_mem _ ht)

/-- Where arrivals keep to the limit, all of them pass. -/
theorem passed_of_sparse
    (hrun : (machine fromStr start n m).run (machine fromStr start n m).init es = some s)
    (hsorted : (start :: arrivals es).Pairwise (· ≤ ·))
    (hsparse : ∀ a, LazyWindow.within (fromSecs 1) a (arrivals es) ≤ n) :
    passed fromStr start n m es = arrivals es := by
  refine StateMachine.run_induction (M := machine fromStr start n m) (P := fun es _ =>
    (start :: arrivals es).Pairwise (· ≤ ·) →
      (∀ a, LazyWindow.within (fromSecs 1) a (arrivals es) ≤ n) →
        passed fromStr start n m es = arrivals es) (fun _ _ => rfl) ?_ hrun hsorted hsparse
  intro es s e s' hrun ih hstep hsorted hsparse
  have harrivals : arrivals (es ++ [e]) = arrivals es ++ [e.1] := List.map_append
  rw [harrivals] at hsorted hsparse ⊢
  rw [← List.cons_append, List.pairwise_append] at hsorted
  have hle : ∀ t ∈ start :: arrivals es, t ≤ e.1 := fun t ht =>
    hsorted.2.2 t ht e.1 (List.mem_singleton_self _)
  have hcounts := counts_of_run hrun hsorted.1
  have hbegan := hcounts.began e.1 (hle start (List.mem_cons_self ..)) fun t ht =>
    hle t (List.mem_cons_of_mem _ ht)
  have hpasses : s.limiter.passes e.1 = true := by
    rw [(s.limiter.rateLimitByTime_spec e.1).1, hcounts.perSecond]
    exact hcounts.window.passes (fun t ht => hle t (List.mem_cons_of_mem _ ht)) hbegan
      (by decide) hsparse
  have hbefore : ∀ a, LazyWindow.within (fromSecs 1) a (arrivals es) ≤ n := by
    intro a
    have hall := hsparse a
    rw [LazyWindow.within, List.countP_append] at hall
    exact Nat.le_of_add_right_le hall
  rw [passed, StateMachine.trace_concat hrun hstep, ← passed, ih hsorted.1 hbefore, passing,
    if_pos hpasses]

/-- **The limits are two-sided**, for every configuration and every sequence of messages whose times
do not decrease. -/
theorem limits_two_sided
    (hrun : (machine fromStr start n m).run (machine fromStr start n m).init es = some s)
    (hsorted : (start :: arrivals es).Pairwise (· ≤ ·)) : Limited fromStr start n m es s := by
  have hcounts := counts_of_run hrun hsorted
  refine ⟨fun a => ⟨hcounts.window.burst a, ?_⟩, passed_of_sparse hrun hsorted, hcounts.total, ?_⟩
  · -- the other kind of interval is one of these, as time is discrete
    have hburst := hcounts.window.burst (a + 1)
    refine (List.countP_mono_left fun t _ ht => ?_).trans hburst
    simp only [decide_eq_true_eq] at ht ⊢
    omega
  · rintro pre e post s₁ rfl hpre
    obtain ⟨s₂, hrun₁, hrest⟩ := StateMachine.run_append_eq_some.mp hrun
    obtain rfl := Option.some.inj (hpre.symm.trans hrun₁)
    obtain ⟨s₃, hstep, -⟩ := StateMachine.run_cons_eq_some.mp hrest
    rw [arrivals, List.map_append, ← List.cons_append, List.pairwise_append] at hsorted
    have hcounts₁ := counts_of_run hpre hsorted.1
    obtain ⟨hrunning, -, hchecked, -⟩ := step_limits hstep
    have hlength := hcounts₁.running hrunning
    have htotal := hcounts₁.total
    cases hchecked with
    | dropped hdropped hadmission =>
      refine iff_of_false (fun heq => ?_) fun h => ?_
      · cases hadmission.symm.trans heq
      · exact Bool.false_ne_true (hdropped.symm.trans h.1)
    | capped hpassed hadmission hfull =>
      rw [hcounts₁.perConnection] at hfull
      exact iff_of_true hadmission ⟨hpassed, by omega⟩
    | counted _ hadmission hroom =>
      rw [hcounts₁.perConnection] at hroom
      exact iff_of_false hadmission fun h => by omega

/-- With one message for a second, and two for the connection: the second message is dropped, and
the last one ends the connection. -/
def flood : List (Instant × Message) :=
  [(0, .text ""), (5, .text ""), (fromSecs 1, .text ""), (fromSecs 2, .text "")]

theorem limits_two_sided_flood : ∃ s,
    (machine (fun _ => some (⟨"room", none⟩ : WireMsg Unit)) 0 1 2).run
      ⟨⟨false, .new 0 1 2, {}⟩, {}, false⟩ flood = some s ∧
    Limited (fun _ => some (⟨"room", none⟩ : WireMsg Unit)) 0 1 2 flood s :=
  have hrun : ∃ s, (machine (fun _ => some (⟨"room", none⟩ : WireMsg Unit)) 0 1 2).run
      (machine (fun _ => some (⟨"room", none⟩ : WireMsg Unit)) 0 1 2).init flood = some s :=
    ⟨_, rfl⟩
  hrun.elim fun s hrun => ⟨s, hrun, limits_two_sided hrun (by decide)⟩

end Listening

end Vamp
