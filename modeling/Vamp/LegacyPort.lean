import Vamp.LegacyAddresses

/-!
# The port of the legacy server

`wsserver.rs` is meant to be `sserver.ts` in Rust. Once a message has been read, the two do the
same (`step_sserver`). They do not read alike: `JSON.parse` takes the last of several members
with one name, and any string; the reader that `serde` derives for `SSMsg` takes one member
of each name, and strings whose surrogates are paired. So the programs agree as long as nobody
sends what only one of them reads, and no longer (`port_agrees_iff`).

What the texts of objects are is the same for both, and a parameter.
-/

namespace Vamp

namespace Legacy

/-! ## How messages are read -/

/-- A value, as far as it is looked at. -/
inductive Value : Type where
  /-- a string -/
  | string (s : Address)
  /-- anything else -/
  | other
  deriving DecidableEq

/-- The members of an object, as they stand in the text. -/
abbrev Members : Type := List (Address × Value)

/-- `"src"`. -/
def srcName : Address := [115, 114, 99]

/-- `"dst"`. -/
def dstName : Address := [100, 115, 116]

/-- The values that stand under a name. -/
def valuesOf (name : Address) (ms : Members) : List Value :=
  (ms.filter fun m => m.1 = name).map Prod.snd

/-- The first half of a surrogate pair. -/
def isHigh (u : UInt16) : Bool := 0xD800 ≤ u.toNat && u.toNat < 0xDC00

/-- The second half of a surrogate pair. -/
def isLow (u : UInt16) : Bool := 0xDC00 ≤ u.toNat && u.toNat < 0xE000

/-- All surrogates are paired: the string is one in Rust. -/
def paired : Address → Bool
  | [] => true
  | [u] => !isHigh u && !isLow u
  | u :: v :: us => if isHigh u then isLow v && paired us else !isLow u && paired (v :: us)

namespace Rs

/-- The `String` in a value. -/
def string : Value → Option Address
  | .string a => if paired a then some a else none
  | .other => none

/-- What `serde` derives for `SSMsg`: the members of an object are visited, with what has been
found of `src` and of `dst`. -/
def visitMap : Option Address → Option Address → Members → Option SSMsg
  | src, dst, [] => src.bind fun src => dst.map fun dst => ⟨src, dst⟩
  | src, dst, (name, value) :: ms =>
    if !paired name then none
    else if name = srcName then
      -- duplicate field
      if src.isSome then none else (string value).bind fun a => visitMap (some a) dst ms
    else if name = dstName then
      if dst.isSome then none else (string value).bind fun a => visitMap src (some a) ms
    else visitMap src dst ms

/-- `serde_json::from_str::<SSMsg>`, for objects. -/
def fromStr (members : String → Option Members) (text : String) : Option SSMsg :=
  (members text).bind (visitMap none none)

end Rs

namespace Ts

/-- The `src` and the `dst` of what `JSON.parse` returns, where these are strings. -/
def parse (ms : Members) : Option SSMsg :=
  match (valuesOf srcName ms).getLast?, (valuesOf dstName ms).getLast? with
  | some (.string src), some (.string dst) => some ⟨src, dst⟩
  | _, _ => none

/-- How a text message is read. -/
def read (members : String → Option Members) : Message → Option SSMsg
  | .text text => (members text).bind parse
  | _ => none

end Ts

/-- `wsserver.rs`. -/
abbrev port (members : String → Option Members) : Program :=
  wsserver (Rs.read (Rs.fromStr members))

/-- `sserver.ts`. -/
abbrev original (members : String → Option Members) : Program := sserver (Ts.read members)

/-! ## What only one of them reads -/

/-- What is read in Rust: `src` and `dst` stand there once, and surrogates are paired in these
two and in all names. -/
structure Readable (ms : Members) : Prop where
  /-- names are strings -/
  names : ∀ m ∈ ms, paired m.1 = true
  /-- there is one `src`, and one `dst` -/
  once : ∀ name ∈ [srcName, dstName], ∃ a, valuesOf name ms = [.string a] ∧ paired a = true

namespace Rs

/-- A field comes out as `a`: it has been found, or is still to come. -/
def Gives (found : Option Address) (values : List Value) (a : Address) : Prop :=
  match found with
  | some b => b = a ∧ values = []
  | none => values = [.string a] ∧ paired a = true

theorem valuesOf_cons (name : Address) (m : Address × Value) (ms : Members) :
    valuesOf name (m :: ms) = if m.1 = name then m.2 :: valuesOf name ms else valuesOf name ms := by
  rw [valuesOf, List.filter_cons]
  simp only [decide_eq_true_eq]
  split
  · rfl
  · rfl

/-- A value for a field that is not to be found a second time. -/
theorem gives_cons (found : Option Address) (value : Value) (values : List Value) (a : Address) :
    Gives found (value :: values) a ↔
      found = none ∧ ∃ b, string value = some b ∧ Gives (some b) values a := by
  cases found with
  | some b => simp [Gives]
  | none =>
    cases value with
    | other => simp [Gives, string]
    | string b =>
      simp only [Gives, string, List.cons.injEq, Value.string.injEq, true_and,
        Option.ite_none_right_eq_some, Option.some.injEq]
      constructor
      · rintro ⟨⟨rfl, rfl⟩, hpaired⟩
        exact ⟨b, ⟨hpaired, rfl⟩, rfl, rfl⟩
      · rintro ⟨_, ⟨hpaired, rfl⟩, rfl, rfl⟩
        exact ⟨⟨rfl, rfl⟩, hpaired⟩

/-- **What the visitor reads**, at any point of its way. -/
theorem visitMap_eq_some {data : SSMsg} {ms : Members} {src dst : Option Address} :
    visitMap src dst ms = some data ↔ (∀ m ∈ ms, paired m.1 = true) ∧
      Gives src (valuesOf srcName ms) data.src ∧ Gives dst (valuesOf dstName ms) data.dst := by
  induction ms generalizing src dst with
  | nil =>
    cases src with
    | none => simp [visitMap, Gives, valuesOf]
    | some a =>
      cases dst with
      | none => simp [visitMap, Gives, valuesOf]
      | some b =>
        simp only [visitMap, Gives, valuesOf, Option.bind_some, Option.map_some,
          Option.some.injEq, List.not_mem_nil, List.filter_nil, List.map_nil]
        constructor
        · rintro rfl
          simp
        · rintro ⟨-, ⟨rfl, -⟩, rfl, -⟩
          rfl
  | cons m ms ih =>
    obtain ⟨name, value⟩ := m
    rw [visitMap, valuesOf_cons, valuesOf_cons, List.forall_mem_cons]
    cases hname : paired name with
    | false => simp
    | true =>
      simp only [Bool.not_true, Bool.false_eq_true, if_false, true_and]
      have hother : srcName ≠ dstName := by decide
      by_cases hsrc : name = srcName
      · subst hsrc
        rw [if_pos rfl, if_pos rfl, if_neg hother, gives_cons]
        cases src with
        | some a => simp
        | none =>
          simp only [Option.isSome_none, Bool.false_eq_true, if_false, true_and,
            Option.bind_eq_some_iff, ih]
          grind
      · rw [if_neg hsrc, if_neg hsrc]
        by_cases hdst : name = dstName
        · subst hdst
          rw [if_pos rfl, if_pos rfl, gives_cons]
          cases dst with
          | some a => simp
          | none =>
            simp only [Option.isSome_none, Bool.false_eq_true, if_false, true_and,
              Option.bind_eq_some_iff, ih]
            grind
        · rw [if_neg hdst, if_neg hdst, ih]

end Rs

/-- **What Rust reads**, TypeScript reads alike. -/
theorem parse_of_visitMap {ms : Members} {data : SSMsg} (h : Rs.visitMap none none ms = some data) :
    Ts.parse ms = some data := by
  obtain ⟨-, ⟨hsrc, -⟩, hdst, -⟩ := Rs.visitMap_eq_some.mp h
  simp only [Ts.parse, hsrc, hdst, List.getLast?_singleton]

theorem visitMap_isSome_iff {ms : Members} :
    (Rs.visitMap none none ms).isSome = true ↔ Readable ms := by
  rw [Option.isSome_iff_exists]
  constructor
  · rintro ⟨data, h⟩
    obtain ⟨hnames, hsrc, hdst⟩ := Rs.visitMap_eq_some.mp h
    refine ⟨hnames, ?_⟩
    simp only [List.forall_mem_cons, List.not_mem_nil, false_imp_iff, implies_true, and_true]
    exact ⟨⟨data.src, hsrc⟩, data.dst, hdst⟩
  · intro h
    obtain ⟨src, hsrc⟩ := h.once srcName (by simp)
    obtain ⟨dst, hdst⟩ := h.once dstName (by simp)
    exact ⟨⟨src, dst⟩, Rs.visitMap_eq_some.mpr ⟨h.names, hsrc, hdst⟩⟩

/-! ## Runs -/

namespace Server

variable {read read' : Message → Option SSMsg} {s s' : Server} {e : SocketEvent}
  {outcome : Outcome} {members : String → Option Members}

/-- Every live connection still takes frames. -/
def AllListen (s : Server) : Prop :=
  ∀ i c, s.shared.connections.lookup i = some c → c.listening = true

/-- No write fails by itself. -/
theorem AllListen.step (h : s.AllListen) (hdeaf : ∀ i, e ≠ .deafen i)
    (hs : s.step (wsserver read) e = some (s', outcome)) : s'.AllListen := by
  intro j c hj
  rcases step_cases hs with ⟨i, rfl, -, heq⟩ | ⟨i, raw, rfl, -, heq⟩ | ⟨i, rfl, -, heq⟩ |
    ⟨i, rfl, -, heq⟩
  · obtain ⟨rfl, -⟩ := Prod.mk.inj heq
    simp only [SharedState.connect, Finmap.lookup_insert_eq_ite] at hj
    split at hj
    · obtain rfl := Option.some.inj hj
      rfl
    · exact h j c hj
  · obtain ⟨rfl, -⟩ := Prod.mk.inj heq
    rcases message_cases read i raw s.shared with ⟨hsame, -⟩ | ⟨data, -, -, -, hnew, -⟩
    · rw [hsame] at hj
      exact h j c hj
    · simp only [hnew, Rs.register] at hj
      split at hj
      · case h_1 c₀ hi =>
        rw [Finmap.lookup_insert_eq_ite] at hj
        split at hj
        · obtain rfl := Option.some.inj hj
          exact h i c₀ hi
        · exact h j c hj
      · exact h j c hj
  · exact absurd rfl (hdeaf i)
  · obtain ⟨rfl, -⟩ := Prod.mk.inj heq
    have hclose : (wsserver read).close i s.shared = Rs.cleanup i s.shared := rfl
    simp only [hclose, Rs.cleanup] at hj
    split at hj
    · rw [Finmap.lookup_erase_eq_ite] at hj
      split at hj
      · cases hj
      · exact h j c hj
    · exact h j c hj

theorem allListen_of_run {es : List SocketEvent} (hdeaf : ∀ i, .deafen i ∉ es)
    (hrun : (machine (wsserver read)).run init es = some s) : s.AllListen := by
  refine StateMachine.run_induction (M := machine (wsserver read))
    (P := fun es s => (∀ i, .deafen i ∉ es) → s.AllListen) ?_ ?_ hrun hdeaf
  · intro _ i c hi
    cases (Finmap.lookup_empty i).symm.trans hi
  · intro es s e s' _ ih hs hdeaf
    obtain ⟨outcome, hs⟩ := machine_step_eq_some.mp hs
    have hearlier : ∀ i, .deafen i ∉ es := fun i hi => hdeaf i (List.mem_append_left _ hi)
    refine (ih hearlier).step ?_ hs
    rintro i rfl
    exact hdeaf i (List.mem_append_right _ (List.mem_singleton_self _))

/-- A message that is read by one program, and not by the other, can be told: by an answer, or
by the addresses of its socket. -/
theorem read_visible {i : SocketId} {raw : Message} {data : SSMsg} (hI : s.Inv)
    (hlisten : s.AllListen) (htask : s.task i = .serving) (hread : read raw = some data) :
    ((wsserver read).message i raw s.shared).1.addrs i ≠ s.shared.addrs i ∨
      ∃ msg, ((wsserver read).message i raw s.shared).2.sent = [(i, errorMsg msg)] := by
  obtain ⟨as, has⟩ := (hI.serving i).mp htask
  obtain ⟨c, hc, -⟩ := Option.map_eq_some_iff.mp has
  have hreply : ∀ msg, Rs.reply s.shared i msg = [(i, errorMsg msg)] := by
    intro msg
    simp only [Rs.reply, hc, hlisten i c hc, if_true]
  rw [wsserver_read hread]
  rcases Rs.handleMessage_cases i raw data s.shared with ⟨branch, msg, heq, -⟩ | ⟨-, -, heq⟩
  · refine .inr ⟨msg, ?_⟩
    rw [heq]
    exact hreply msg
  · left
    rw [heq]
    dsimp only
    rw [SharedState.addrs_register, if_pos rfl, has, Option.map_some]
    intro hsame
    have hlength := congrArg List.length (Option.some.inj hsame)
    simp at hlength

/-- An event of the sockets as it is expected: texts are objects whose `src` and `dst` are strings,
and no write fails. -/
def Expected (members : String → Option Members) : SocketEvent → Prop
  | .connect _ | .close _ => True
  | .message _ raw => ∃ text ms data,
      raw = .text text ∧ members text = some ms ∧ Ts.parse ms = some data
  | .deafen _ => False

/-- Two programs agree on a run: at any point they have the same tables, and have put the same
frames on every socket. -/
def Agree (p q : Program) (es : List SocketEvent) : Prop :=
  ∀ pre post, es = pre ++ post → ∃ s t, (machine p).run init pre = some s ∧
    (machine q).run init pre = some t ∧ s.shared.rTable = t.shared.rTable ∧
    (∀ i, s.shared.addrs i = t.shared.addrs i) ∧ ∀ i, framesOn p pre i = framesOn q pre i

/-- Every object that comes in is read in Rust. -/
def AllReadable (members : String → Option Members) (es : List SocketEvent) : Prop :=
  ∀ i text ms, .message i (.text text) ∈ es → members text = some ms → Readable ms

theorem framesOn_concat {p : Program} {es : List SocketEvent}
    (hrun : (machine p).run init es = some s) (hs : (machine p).step s e = some s')
    (i : SocketId) : framesOn p (es ++ [e]) i =
      framesOn p es i ++ ((sent p s e).filter fun f => f.1 = i).map Prod.snd := by
  have htrace : (machine p).trace (sent p) init (es ++ [e]) =
      (machine p).trace (sent p) init es ++ sent p s e := StateMachine.trace_concat hrun hs
  rw [framesOn, framesOn, htrace, List.filter_append, List.map_append]

/-- Readers that agree on a message handle it alike. -/
theorem step_congr_read (h : ∀ i raw, e = .message i raw → read' raw = read raw) (s : Server) :
    s.step (wsserver read') e = s.step (wsserver read) e := by
  cases e with
  | connect i => rfl
  | message i raw =>
    have hmessage : (wsserver read').message i raw s.shared =
        (wsserver read).message i raw s.shared := by
      simp only [wsserver, h i raw rfl]
    rw [step, step, hmessage]
  | deafen i => rfl
  | close i => rfl

/-- A readable text is read alike. -/
theorem read_eq_of_readable {i : SocketId} {raw : Message}
    (hexp : Expected members (.message i raw))
    (hreadable : ∀ text ms, raw = .text text → members text = some ms → Readable ms) :
    Rs.read (Rs.fromStr members) raw = Ts.read members raw := by
  obtain ⟨text, ms, data, rfl, hms, hparse⟩ := hexp
  have hsome := visitMap_isSome_iff.mpr (hreadable text ms rfl hms)
  obtain ⟨data', hdata'⟩ := Option.isSome_iff_exists.mp hsome
  rw [Rs.read, Rs.textOf, Option.bind_some, Rs.fromStr, hms, Option.bind_some, Ts.read, hms,
    Option.bind_some, hdata', parse_of_visitMap hdata']

/-- Any other text is read in TypeScript only. -/
theorem read_of_not_readable {text : String} {ms : Members} (hms : members text = some ms)
    (hnot : ¬ Readable ms) : Rs.read (Rs.fromStr members) (.text text) = none := by
  have hnone : Rs.visitMap none none ms = none := by
    rw [← Option.not_isSome_iff_eq_none, visitMap_isSome_iff]
    exact hnot
  rw [Rs.read, Rs.textOf, Option.bind_some, Rs.fromStr, hms, Option.bind_some, hnone]

theorem framesOn_sserver {es : List SocketEvent}
    (hrun : (machine (wsserver read)).run init es = some s) (i : SocketId) :
    framesOn (sserver read) es i = framesOn (wsserver read) es i := by
  have htrace : (machine (sserver read)).trace (sent (sserver read)) init es =
      (machine (wsserver read)).trace (sent (wsserver read)) init es := by
    refine StateMachine.trace_congr (M := machine (wsserver read)) (N := machine (sserver read))
      rfl (fun _ e hs => machine_step_sserver hs e) (fun s e hs => ?_) hrun
    rw [sent, sent, step_sserver (reachable_inv hs)]
  rw [framesOn, framesOn, htrace]

/-- **As long as everything is readable**, the port does what the original does. -/
theorem port_of_allReadable {es : List SocketEvent} (hexp : ∀ e ∈ es, Expected members e)
    (hreadable : AllReadable members es)
    (hrun : (machine (wsserver (Ts.read members))).run init es = some s) :
    (machine (port members)).run init es = some s ∧
      ∀ i, framesOn (port members) es i =
        framesOn (wsserver (Ts.read members)) es i := by
  have hstep : ∀ s : Server, ∀ e ∈ es, s.step (port members) e =
      s.step (wsserver (Ts.read members)) e := by
    intro s e he
    refine step_congr_read ?_ s
    rintro i raw rfl
    refine read_eq_of_readable (hexp _ he) ?_
    rintro text ms rfl hms
    exact hreadable i text ms he hms
  have hmem : ∀ {pre e post}, es = pre ++ e :: post → e ∈ es := by
    rintro pre e post rfl
    exact List.mem_append_right _ (List.mem_cons_self ..)
  have halong : (machine (wsserver (Ts.read members))).Along
      (fun s e => (machine (port members)).step s e =
        (machine (wsserver (Ts.read members))).step s e) init es := by
    intro pre e post s hsplit _
    exact congrArg (Option.map Prod.fst) (hstep s e (hmem hsplit))
  have hsent : (machine (wsserver (Ts.read members))).Along
      (fun s e => sent (port members) s e =
        sent (wsserver (Ts.read members)) s e) init es := by
    intro pre e post s hsplit _
    rw [sent, sent, hstep s e (hmem hsplit)]
  have hsame : (machine (port members)).run init es =
      (machine (wsserver (Ts.read members))).run init es :=
    StateMachine.run_congr_of_along (M := machine (wsserver (Ts.read members)))
      (N := machine (port members)) rfl halong
  have htrace : (machine (port members)).trace
        (sent (port members)) init es =
      (machine (wsserver (Ts.read members))).trace (sent (wsserver (Ts.read members))) init es :=
    StateMachine.trace_congr_of_along (M := machine (wsserver (Ts.read members)))
      (N := machine (port members)) rfl hrun halong hsent
  refine ⟨hsame.trans hrun, fun i => ?_⟩
  rw [framesOn, framesOn, htrace]

/-- **What is not readable** shows, at once. -/
theorem readable_of_same {es : List SocketEvent} {t : Server} (hI : s.Inv)
    (hlisten : s.AllListen) (hexp : Expected members e)
    (hrun : (machine (port members)).run init es = some s)
    (hrun' : (machine (wsserver (Ts.read members))).run init es = some s)
    (hframes : ∀ i, framesOn (port members) es i =
      framesOn (wsserver (Ts.read members)) es i)
    (hs : (machine (port members)).step s e = some s')
    (ht : (machine (wsserver (Ts.read members))).step s e = some t)
    (haddrs : ∀ i, s'.shared.addrs i = t.shared.addrs i)
    (hframes' : ∀ i, framesOn (port members) (es ++ [e]) i =
      framesOn (wsserver (Ts.read members)) (es ++ [e]) i) :
    AllReadable members [e] := by
  intro i text ms hmem hms
  obtain rfl := List.mem_singleton.mp hmem
  by_contra hnot
  obtain ⟨text', ms', data, htext, hms', hparse⟩ := hexp
  obtain rfl := Message.text.inj htext
  obtain rfl := Option.some.inj (hms.symm.trans hms')
  have hread : Ts.read members (.text text) = some data := by
    rw [Ts.read, hms, Option.bind_some, hparse]
  have hskip := read_of_not_readable hms hnot
  obtain ⟨outcome, hs₁⟩ := machine_step_eq_some.mp hs
  have htask : s.task i = .serving := by
    by_contra hno
    cases (if_neg hno).symm.trans hs₁
  have hsteps : ∀ p : Program, s.step p (.message i (.text text)) =
      some ({ s with shared := (p.message i (.text text) s.shared).1 },
        (p.message i (.text text) s.shared).2) := fun p => if_pos htask
  -- the port has skipped the message
  have hs' : s' = s := by
    rw [machine_step, hsteps, Option.map_some, wsserver_skip hskip] at hs
    exact (Option.some.inj hs).symm
  have ht' : t.shared = ((wsserver (Ts.read members)).message i (.text text) s.shared).1 := by
    rw [machine_step, hsteps, Option.map_some] at ht
    exact (congrArg Server.shared (Option.some.inj ht)).symm
  rcases read_visible hI hlisten htask hread with hno | ⟨msg, hsent⟩
  · rw [← ht', ← haddrs i, hs'] at hno
    exact hno rfl
  · have hlength := congrArg List.length (hframes' i)
    rw [framesOn_concat hrun hs, framesOn_concat hrun' ht, hframes i, sent, sent, hsteps, hsteps,
      Option.map_some, Option.map_some, Option.getD_some, Option.getD_some, hsent,
      wsserver_skip hskip] at hlength
    simp at hlength

/-- **When the port agrees with the original**: if and only if every object that comes in is
readable in Rust. -/
theorem port_agrees_iff (members : String → Option Members) {es : List SocketEvent} {s : Server}
    (hexp : ∀ e ∈ es, Expected members e)
    (hrun : (machine (original members)).run init es = some s) :
    Agree (port members) (original members) es ↔
      AllReadable members es := by
  rw [run_sserver] at hrun
  have hinit : ∀ pre post, es = pre ++ post →
      ∃ s, (machine (wsserver (Ts.read members))).run init pre = some s := by
    rintro pre post rfl
    obtain ⟨s₁, h₁, -⟩ := StateMachine.run_append_eq_some.mp hrun
    exact ⟨s₁, h₁⟩
  constructor
  · intro h
    refine StateMachine.run_induction (M := machine (wsserver (Ts.read members)))
      (P := fun es _ => (∀ e ∈ es, Expected members e) →
        Agree (port members) (original members) es →
        AllReadable members es) ?_ ?_ hrun hexp h
    · intro _ _ i text ms hmem
      cases hmem
    · intro es s e t hes ih ht hexp h
      have hearlier : ∀ e ∈ es, Expected members e := fun e he =>
        hexp e (List.mem_append_left _ he)
      have hreadable : AllReadable members es := by
        refine ih hearlier fun pre post hsplit => h pre (post ++ [e]) ?_
        rw [hsplit, List.append_assoc]
      obtain ⟨hes', hframes⟩ := port_of_allReadable hearlier hreadable hes
      have hlisten : s.AllListen := allListen_of_run (fun i hi => hearlier _ hi) hes
      obtain ⟨s', t', hs', ht', -, haddrs, hframes'⟩ := h (es ++ [e]) [] (List.append_nil _).symm
      have hlast := StateMachine.run_concat_eq_some.mpr ⟨s, hes, ht⟩
      rw [run_sserver, hlast] at ht'
      obtain rfl := Option.some.inj ht'
      obtain ⟨s₁, hs₁, hs⟩ := StateMachine.run_concat_eq_some.mp hs'
      obtain rfl := Option.some.inj (hes'.symm.trans hs₁)
      have hframes'' : ∀ i, framesOn (port members) (es ++ [e]) i =
          framesOn (wsserver (Ts.read members)) (es ++ [e]) i := fun i =>
        (hframes' i).trans (framesOn_sserver hlast i)
      have hnew := readable_of_same (reachable_inv ⟨es, hes⟩) hlisten
        (hexp e (List.mem_append_right _ (List.mem_singleton_self _))) hes' hes hframes hs ht
        haddrs hframes''
      intro i text ms hmem hms
      rcases List.mem_append.mp hmem with hold | hnew'
      · exact hreadable i text ms hold hms
      · exact hnew i text ms hnew' hms
  · intro hreadable pre post hsplit
    obtain ⟨s₁, h₁⟩ := hinit pre post hsplit
    have hmem : ∀ e ∈ pre, e ∈ es := fun e he => hsplit ▸ List.mem_append_left _ he
    obtain ⟨hport, hframes⟩ := port_of_allReadable (fun e he => hexp e (hmem e he))
      (fun i text ms he => hreadable i text ms (hmem _ he)) h₁
    refine ⟨s₁, s₁, hport, (run_sserver _ _).trans h₁, rfl, fun _ => rfl, fun i => ?_⟩
    rw [hframes i, framesOn_sserver h₁]

/-- An object with two members `src`. -/
def twice : String := "\x7b\"src\":\"a\",\"src\":\"a\",\"dst\":\"a\"\x7d"

/-- An object with one. -/
def once : String := "\x7b\"src\":\"a\",\"dst\":\"a\"\x7d"

/-- The members of these texts. -/
def membersOf (text : String) : Option Members :=
  if text = twice then
    some [(srcName, .string [97]), (srcName, .string [97]), (dstName, .string [97])]
  else if text = once then some [(srcName, .string [97]), (dstName, .string [97])]
  else none

theorem membersOf_once :
    membersOf once = some [(srcName, .string [97]), (dstName, .string [97])] := by
  have hne : once ≠ twice := by decide
  rw [membersOf, if_neg hne, if_pos rfl]

theorem readable_once : Readable [(srcName, .string [97]), (dstName, .string [97])] :=
  visitMap_isSome_iff.mp rfl

theorem port_agrees_once :
    Agree (port membersOf) (original membersOf)
      [.connect 0, .message 0 (.text once)] := by
  have hexp : ∀ e ∈ [SocketEvent.connect 0, .message 0 (.text once)], Expected membersOf e := by
    simp only [List.forall_mem_cons, List.not_mem_nil, false_imp_iff, implies_true, and_true]
    exact ⟨trivial, once, _, ⟨[97], [97]⟩, rfl, membersOf_once, rfl⟩
  refine (port_agrees_iff membersOf hexp (Option.some_get rfl).symm).mpr ?_
  intro i text ms hmem hms
  obtain ⟨-, rfl⟩ : i = 0 ∧ text = once := by simpa using hmem
  obtain rfl := Option.some.inj (membersOf_once.symm.trans hms)
  exact readable_once

/-- The first object is skipped in Rust, and announced in TypeScript. -/
theorem twice_disagrees :
    ¬ Agree (port membersOf) (original membersOf)
      [.connect 0, .message 0 (.text twice)] := by
  intro h
  obtain ⟨s, t, hs, ht, -, haddrs, -⟩ := h _ [] (List.append_nil _).symm
  have hs' : s.shared.addrs 0 = some [] := by
    obtain rfl := Option.some.inj (hs.symm.trans rfl)
    rfl
  have ht' : t.shared.addrs 0 = some [[97]] := by
    obtain rfl := Option.some.inj (ht.symm.trans rfl)
    rfl
  rw [haddrs 0, ht'] at hs'
  cases hs'

end Server

end Legacy

end Vamp
