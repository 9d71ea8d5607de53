import Mathlib.Data.List.Forall2
import Mathlib.Logic.Function.Basic
import Vamp.AppWsHandler
import Vamp.CommandWire
import Vamp.DispatchClient

/-!
# The client and the backend

A browser that is connected to the backend by a WebSocket: `DispatchClient` on one side,
`handle_connection` of `ws_server.rs` with `WsMsgHandler` on the other, and the texts that are
underway in both directions. The browser sends whenever it wants to, the backend takes one text
after the other, and the connection may break at any time.

What the backend would do with the commands alone, in the order in which they are sent, is
`backend`. In every run, the commands that the backend has taken have done that to it, and
every promise is settled with the result of its own command, or not at all
(`every_run_faithful`): results are never mixed up, no command is executed twice, and none
overtakes another one.

The backend belongs to this connection alone. Whatever JSON is a command for the client may
be sent; one that is none for the backend is answered under no id. The parser is a parameter,
and reads what `serde_json` and `JSON.stringify` write (`Reads`).
-/

namespace Vamp

namespace RemoteSystem

open AppWsHandler Dispatch Ts DispatchClient

variable {ρ : Type}

/-- What is written is read again, on both sides. This is about JSON that both of them read as it
is: `JSON.parse` rounds integers beyond `2 ^ 53`, and keeps the last of the members with one name. -/
def Reads (parser : Parser) : Prop :=
  ∀ j : Json, parser.parse j.write = some j

/-! ## The machine -/

/-- The client, the backend, and what is between them. -/
structure State (ρ : Type) : Type where
  /-- the client -/
  client : DispatchClient
  /-- sent by the client, and not read yet -/
  up : List String
  /-- sent by the backend, and not received yet -/
  down : List Message
  /-- the application -/
  core : Core ρ
  /-- `handle_connection` has not returned -/
  serving : Bool

/-- What can happen. -/
inductive Event : Type where
  /-- the client sends a command -/
  | send (cmd : Json)
  /-- the next message is read and handled; its answer may get lost, and the connection with it -/
  | serve (c : Circumstances) (written : Bool)
  /-- the client receives the next message -/
  | deliver
  /-- nothing can be read any more -/
  | drop

/-- A request, as it is sent: `JSON.stringify`. -/
def requestText (id : String) (cmd : Json) : String := (requestOf id cmd).write

/-- A message for the client: `JSON.parse`. -/
def readResponse (parser : Parser) (text : String) : Option (DataTransportMessage Json Json) := do
  let j ← parser.parse text
  DataTransportMessage.read (fun _ => none) some j

section Machine

variable (env : Environment ρ) (numbers : Numbers ρ) (parser : Parser)

/-- One turn of `handle_connection`. A panic ends it, too. -/
def serve (c : Circumstances) (written : Bool) (s : State ρ) : Option (State ρ) :=
  match s.serving, s.up with
  | true, text :: up =>
    match handle env numbers parser c s.core (.text text) with
    | (some reply, core) =>
      if written then some { s with up, core, down := s.down ++ [reply] }
      else some { s with up, core, serving := false }
    | (none, core) => some { s with up, core, serving := false }
  | _, _ => none

/-- The message that the client gets. -/
def received (s : State ρ) : Option (DataTransportMessage Json Json) :=
  match s.down with
  | .text text :: _ => readResponse parser text
  | _ => none

/-- A message comes in. What is no message is ignored. -/
def deliver (s : State ρ) : Option (State ρ) :=
  match s.down with
  | _ :: down =>
    match received parser s with
    | some msg => some { s with down, client := (s.client.receive msg).1 }
    | none => some { s with down }
  | [] => none

/-- One step. -/
def step (s : State ρ) : Event → Option (State ρ)
  | .send cmd => some { s with
      client := (s.client.send (κ := Json) (τ := Json) cmd none).1
      up := s.up ++ [requestText s.client.nextId.repr cmd] }
  | .serve c written => serve env numbers parser c written s
  | .deliver => deliver parser s
  | .drop => some { s with serving := false }

/-- A connection that has just been made. -/
def State.new (core : Core ρ) : State ρ := ⟨DispatchClient.new, [], [], core, true⟩

/-- The client and the backend. -/
def system (core : Core ρ) : StateMachine (State ρ) Event where
  init := .new core
  step := step env numbers parser

/-- What the client does. -/
def deeds (s : State ρ) : Event → List (ClientDeed Json Json)
  | .send cmd => (s.client.send cmd none).2
  | .deliver =>
    match received parser s with
    | some msg => (s.client.receive msg).2
    | none => []
  | _ => []

/-- What the client does in a run. -/
def history (core : Core ρ) (es : List Event) : List (ClientDeed Json Json) :=
  (system env numbers parser core).trace (deeds parser) (.new core) es

/-! ## The backend alone -/

/-- What becomes of a command. -/
inductive Answer : Type where
  /-- it is executed -/
  | result (r : RemoteResult Json)
  /-- it is no command -/
  | orphan
  /-- it makes the backend panic -/
  | panic

/-- One command. -/
def answerTo (core : Core ρ) (cmd : Json) (c : Circumstances) : Answer × Core ρ :=
  match Command.fromJson numbers cmd with
  | none => (.orphan, core)
  | some cmd =>
    match dispatchWithCore env core ⟨cmd, c⟩ with
    | (.ok value, core) => (.result (.ok value), core)
    | (.err message, core) => (.result (.error message), core)
    | (.panic, core) => (.panic, core)

/-- Commands, one after the other, and what they meet with. -/
def backend (core : Core ρ) (pairs : List (Json × Circumstances)) : List Answer × Core ρ :=
  pairs.foldl
    (fun (answers, core) (cmd, c) =>
      (answers ++ [(answerTo env numbers core cmd c).1], (answerTo env numbers core cmd c).2))
    ([], core)

end Machine

/-- The commands that can be read, and what they meet with. -/
def requests (numbers : Numbers ρ) (pairs : List (Json × Circumstances)) : List (Request ρ) :=
  pairs.filterMap fun (cmd, c) => (Command.fromJson numbers cmd).map fun cmd => ⟨cmd, c⟩

/-- The result of a command, if there is one. -/
def resultOf (answers : List Answer) (n : ℕ) : List (RemoteResult Json) :=
  match answers[n]? with
  | some (.result r) => [r]
  | _ => []

/-! ## What is told of a run -/

/-- The command that is sent. -/
def Event.sends? : Event → Option Json
  | .send cmd => some cmd
  | _ => none

/-- What a command meets with when it is taken. -/
def Event.takes? : Event → Option Circumstances
  | .serve c _ => some c
  | _ => none

/-- A message comes in. -/
def Event.delivers : Event → Bool
  | .deliver => true
  | _ => false

/-- The commands that are sent. -/
def sent (es : List Event) : List Json := es.filterMap Event.sends?

/-- The commands that are taken: the first of those that are sent. -/
def taken (es : List Event) : List (Json × Circumstances) :=
  (sent es).zip (es.filterMap Event.takes?)

/-- How many messages have come in. -/
def delivered (es : List Event) : ℕ := es.countP Event.delivers

section Faithful

variable (env : Environment ρ) (numbers : Numbers ρ) (parser : Parser) (core₀ : Core ρ)

/-- What the backend alone would answer. -/
def answers (es : List Event) : List Answer := (backend env numbers core₀ (taken es)).1

/-- **The system is faithful**, in the run `es` that ends in `s`. -/
structure Faithful (es : List Event) (s : State ρ) : Prop where
  /-- nothing is taken that is not sent -/
  taken_le : (es.filterMap Event.takes?).length ≤ (sent es).length
  /-- the application is what the commands that are taken have made of it -/
  core : (dispatcher env core₀).run core₀ (requests numbers (taken es)) = some s.core
  /-- a promise is settled with the result of its own command, as soon as that comes in -/
  settled : ∀ n, settlements n (history env numbers parser core₀ es) =
    resultOf ((answers env numbers core₀ es).take (delivered es)) n
  /-- while the connection is served and nothing is underway, the promise of every command that the
  backend reads has been settled once, and any other not at all -/
  complete : s.serving = true → s.up = [] → s.down = [] →
    ∀ n cmd, (sent es)[n]? = some cmd →
      (settlements n (history env numbers parser core₀ es)).length =
        if (Command.fromJson numbers cmd).isSome then 1 else 0

/-- A message answers a command. -/
def Replies : Answer × ℕ → Message → Prop
  | (.result r, n), msg => msg = .text (responseText ⟨n.repr, r⟩)
  | (.orphan, _), msg => ∃ message, msg = .text (responseText ⟨"", .error message⟩)
  | (.panic, _), _ => False

/-- What holds between two steps. -/
structure Inv (es : List Event) (s : State ρ) : Prop where
  /-- how many commands there are -/
  count : s.client.nextId = (sent es).length
  /-- nothing is taken that is not sent -/
  taken_le : (es.filterMap Event.takes?).length ≤ (sent es).length
  /-- the commands that are not taken are on their way -/
  up : s.up = (((sent es).drop (es.filterMap Event.takes?).length).zipIdx
    (es.filterMap Event.takes?).length).map fun (cmd, n) => requestText n.repr cmd
  /-- the backend is what the commands have made of it -/
  core : s.core = (backend env numbers core₀ (taken es)).2
  /-- the answers that have not come in are on their way, unless they got lost -/
  down : ∃ w ≤ (answers env numbers core₀ es).length,
    (s.serving = true → w = (answers env numbers core₀ es).length) ∧ delivered es ≤ w ∧
      .panic ∉ (answers env numbers core₀ es).take w ∧
      List.Forall₂ Replies ((((answers env numbers core₀ es).take w).drop
        (delivered es)).zipIdx (delivered es)) s.down
  /-- what is settled, and how -/
  settled : ∀ n, settlements n (history env numbers parser core₀ es) =
    resultOf ((answers env numbers core₀ es).take (delivered es)) n
  /-- what is pending -/
  pending : ∀ id n, s.client.pending.lookup id = some n ↔ n < s.client.nextId ∧ id = n.repr ∧
    settlements n (history env numbers parser core₀ es) = []

end Faithful

/-! ## Lists -/

/-- What is left over does not matter. -/
theorem zip_append_left {α β : Type} {xs zs : List α} {ys : List β}
    (h : ys.length ≤ xs.length) : (xs ++ zs).zip ys = xs.zip ys := by
  induction xs generalizing ys with
  | nil =>
    obtain rfl := List.eq_nil_of_length_eq_zero (Nat.le_zero.mp h)
    rw [List.zip_nil_right, List.zip_nil_right]
  | cons x xs ih =>
    cases ys with
    | nil => rfl
    | cons y ys =>
      rw [List.cons_append, List.zip_cons_cons, List.zip_cons_cons,
        ih (Nat.le_of_succ_le_succ h)]

/-- The next of some is added to the next of others. -/
theorem zip_concat {α β : Type} {xs rest : List α} {ys : List β} {x : α} {y : β}
    (h : xs.drop ys.length = x :: rest) : xs.zip (ys ++ [y]) = xs.zip ys ++ [(x, y)] := by
  induction ys generalizing xs with
  | nil =>
    rw [List.length_nil, List.drop_zero] at h
    rw [h, List.nil_append, List.zip_cons_cons, List.zip_nil_right]
    rfl
  | cons y' ys ih =>
    cases xs with
    | nil => cases h
    | cons x' xs =>
      rw [List.length_cons, List.drop_succ_cons] at h
      rw [List.cons_append, List.zip_cons_cons, List.zip_cons_cons, ih h, List.cons_append]

/-- One result more. -/
theorem resultOf_take_succ {as : List Answer} {d : ℕ} {a : Answer} (ha : as[d]? = some a)
    (n : ℕ) : resultOf (as.take (d + 1)) n =
      resultOf (as.take d) n ++ if d = n then resultOf [a] 0 else [] := by
  unfold resultOf
  rcases Nat.lt_trichotomy n d with hlt | rfl | hlt
  · rw [List.getElem?_take_of_lt hlt, List.getElem?_take_of_lt (Nat.lt_succ_of_lt hlt),
      if_neg (Nat.ne_of_gt hlt), List.append_nil]
  · rw [List.getElem?_take_of_lt (Nat.lt_succ_self n), ha, if_pos rfl,
      List.getElem?_eq_none (List.length_take_le _ _)]
    rfl
  · rw [List.getElem?_eq_none (Nat.le_trans (List.length_take_le _ _) hlt),
      List.getElem?_eq_none (Nat.le_trans (List.length_take_le _ _) (Nat.le_of_lt hlt)),
      if_neg (Nat.ne_of_lt hlt)]
    rfl

section Steps

variable {env : Environment ρ} {numbers : Numbers ρ} {parser : Parser} {core₀ : Core ρ}
  {es : List Event} {s s' : State ρ}

/-! ## One message -/

/-- A request is answered by what the backend alone would answer. -/
theorem handle_requestText (env : Environment ρ) (numbers : Numbers ρ) (hparser : Reads parser)
    (c : Circumstances) (core : Core ρ) (cmd : Json) (n : ℕ) :
    (handle env numbers parser c core (.text (requestText n.repr cmd))).2 =
        (answerTo env numbers core cmd c).2 ∧
      ((∃ reply, (handle env numbers parser c core (.text (requestText n.repr cmd))).1 =
          some reply ∧ Replies ((answerTo env numbers core cmd c).1, n) reply) ∨
        ((handle env numbers parser c core (.text (requestText n.repr cmd))).1 = none ∧
          (answerTo env numbers core cmd c).1 = .panic)) := by
  have hread := readText_eq numbers (hparser (requestOf n.repr cmd))
    (isRequest_requestOf n.repr cmd)
  rw [handle, requestText, hread, answerTo]
  cases Command.fromJson numbers cmd with
  | none => exact ⟨rfl, .inl ⟨_, rfl, _, rfl⟩⟩
  | some cmd =>
    simp only [Option.map_some]
    rcases dispatchWithCore env core ⟨cmd, c⟩ with ⟨value | message | _, core'⟩
    · exact ⟨rfl, .inl ⟨_, rfl, rfl⟩⟩
    · exact ⟨rfl, .inl ⟨_, rfl, rfl⟩⟩
    · exact ⟨rfl, .inr ⟨rfl, rfl⟩⟩

/-- The next message is read, handled and answered. -/
theorem serve_eq {c : Circumstances} {cmd : Json} {n : ℕ} {up : List String}
    {r : RemoteResult Json} {core : Core ρ} (hparser : Reads parser) (hserving : s.serving = true)
    (hup : s.up = requestText n.repr cmd :: up)
    (hanswer : answerTo env numbers s.core cmd c = (.result r, core)) :
    serve env numbers parser c true s =
      some { s with up, core, down := s.down ++ [.text (responseText ⟨n.repr, r⟩)] } := by
  obtain ⟨hcore, ⟨reply, hsome, hreplies⟩ | ⟨-, hpanic⟩⟩ :=
    handle_requestText env numbers hparser c s.core cmd n
  · rw [hanswer] at hcore hreplies
    have hhandle : handle env numbers parser c s.core (.text (requestText n.repr cmd)) =
        (some (.text (responseText ⟨n.repr, r⟩)), core) := by
      refine Prod.ext (hsome.trans (congrArg some hreplies)) hcore
    simp only [serve, hserving, hup, hhandle, if_true]
  · rw [hanswer] at hpanic
    cases hpanic

/-- The client reads the responses of the backend. -/
theorem readResponse_responseText (hparser : Reads parser) (response : RemoteResponse Json) :
    readResponse parser (responseText response) = some (.response response) := by
  rw [readResponse, responseText, hparser, Option.bind_eq_bind, Option.bind_some]
  obtain ⟨id, result⟩ := response
  cases result with
  | ok value => rfl
  | error message => rfl

/-- A response comes in. -/
theorem deliver_eq {response : RemoteResponse Json} {down : List Message} (hparser : Reads parser)
    (hdown : s.down = .text (responseText response) :: down) : deliver parser s =
      some { s with down, client := (s.client.receive (κ := Json) (.response response)).1 } := by
  have hreceived : received parser s = some (.response response) := by
    rw [received, hdown]
    exact readResponse_responseText hparser response
  rw [deliver, hdown]
  simp only [hreceived]

theorem backend_concat (core : Core ρ) (pairs : List (Json × Circumstances)) (cmd : Json)
    (c : Circumstances) : backend env numbers core (pairs ++ [(cmd, c)]) =
      ((backend env numbers core pairs).1 ++
          [(answerTo env numbers (backend env numbers core pairs).2 cmd c).1],
        (answerTo env numbers (backend env numbers core pairs).2 cmd c).2) := by
  rw [backend, List.foldl_append]
  rfl

theorem length_backend (core : Core ρ) (pairs : List (Json × Circumstances)) :
    (backend env numbers core pairs).1.length = pairs.length := by
  induction pairs using List.reverseRecOn with
  | nil => rfl
  | append_singleton pairs pair ih =>
    rw [backend_concat, List.length_append, List.length_append, ih]
    rfl

/-- The backend executes the commands that can be read. -/
theorem backend_dispatches (core : Core ρ) (pairs : List (Json × Circumstances)) :
    (dispatcher env core).run core (requests numbers pairs) =
      some (backend env numbers core pairs).2 := by
  induction pairs using List.reverseRecOn with
  | nil => rfl
  | append_singleton pairs pair ih =>
    obtain ⟨cmd, c⟩ := pair
    rw [requests] at ih ⊢
    rw [List.filterMap_append, StateMachine.run_append, ih, backend_concat, answerTo]
    cases hcmd : Command.fromJson numbers cmd with
    | none =>
      simp only [List.filterMap_cons, List.filterMap_nil, hcmd]
      rfl
    | some cmd =>
      simp only [List.filterMap_cons, List.filterMap_nil, hcmd]
      rcases hdispatch : dispatchWithCore env (backend env numbers core pairs).2 ⟨cmd, c⟩ with
        ⟨value | message | _, core'⟩ <;>
          exact congrArg (fun r : Reply × Core ρ => some r.2) hdispatch

/-- Each command is answered by the backend that the commands before it have left. -/
theorem backend_getElem? (env : Environment ρ) (numbers : Numbers ρ) (core : Core ρ)
    {pairs : List (Json × Circumstances)} {n : ℕ} {cmd : Json} {c : Circumstances}
    (hpair : pairs[n]? = some (cmd, c)) :
    (backend env numbers core pairs).1[n]? =
      some (answerTo env numbers (backend env numbers core (pairs.take n)).2 cmd c).1 := by
  induction pairs using List.reverseRecOn with
  | nil => cases hpair
  | append_singleton pairs pair ih =>
    obtain ⟨cmd', c'⟩ := pair
    rw [backend_concat]
    rcases Nat.lt_trichotomy n pairs.length with hlt | rfl | hlt
    · rw [List.getElem?_append_left hlt] at hpair
      rw [List.getElem?_append_left (length_backend core pairs ▸ hlt), ih hpair,
        List.take_append_of_le_length (Nat.le_of_lt hlt)]
    · rw [List.getElem?_concat_length] at hpair
      obtain ⟨rfl, rfl⟩ := Prod.mk.inj (Option.some.inj hpair)
      have hlast := List.getElem?_concat_length (l := (backend env numbers core pairs).1)
        (a := (answerTo env numbers (backend env numbers core pairs).2 cmd' c').1)
      rw [List.take_left]
      rwa [length_backend] at hlast
    · have hnone : (pairs ++ [(cmd', c')])[n]? = none := by
        refine List.getElem?_eq_none ?_
        rw [List.length_append]
        exact hlt
      rw [hnone] at hpair
      cases hpair

/-- What is no command is answered under no id, and nothing else is. -/
theorem answerTo_eq_orphan_iff (env : Environment ρ) (numbers : Numbers ρ) (core : Core ρ)
    (cmd : Json) (c : Circumstances) :
    (answerTo env numbers core cmd c).1 = .orphan ↔ Command.fromJson numbers cmd = none := by
  rw [answerTo]
  cases Command.fromJson numbers cmd with
  | none => exact iff_of_true rfl rfl
  | some cmd =>
    rcases hdispatch : dispatchWithCore env core ⟨cmd, c⟩ with ⟨value | message | _, core'⟩ <;>
      simp only [hdispatch] <;> exact iff_of_false nofun nofun

theorem settlements_append (n : ℕ) (deeds deeds' : List (ClientDeed Json Json)) :
    settlements n (deeds ++ deeds') = settlements n deeds ++ settlements n deeds' :=
  List.filterMap_append

theorem history_concat (hrun : (system env numbers parser core₀).run (.new core₀) es = some s)
    {e : Event} (hstep : step env numbers parser s e = some s') :
    history env numbers parser core₀ (es ++ [e]) =
      history env numbers parser core₀ es ++ deeds parser s e :=
  StateMachine.trace_concat (M := system env numbers parser core₀) hrun hstep

/-! ## The steps -/

theorem inv_new : Inv env numbers parser core₀ [] (.new core₀) where
  count := rfl
  taken_le := Nat.le_refl 0
  up := rfl
  core := rfl
  down := ⟨0, Nat.le_refl 0, fun _ => rfl, Nat.le_refl 0, nofun, .nil⟩
  settled _ := rfl
  pending _ n := iff_of_false (fun h => nomatch h) fun h => Nat.not_lt_zero n h.1

/-- A command is sent. -/
theorem Inv.send (h : Inv env numbers parser core₀ es s)
    (hrun : (system env numbers parser core₀).run (.new core₀) es = some s) (cmd : Json) :
    Inv env numbers parser core₀ (es ++ [.send cmd])
      { s with
        client := (s.client.send (κ := Json) (τ := Json) cmd none).1
        up := s.up ++ [requestText s.client.nextId.repr cmd] } := by
  have hsent : sent (es ++ [.send cmd]) = sent es ++ [cmd] := by
    rw [sent, List.filterMap_append]
    rfl
  have htakes : (es ++ [Event.send cmd]).filterMap Event.takes? = es.filterMap Event.takes? := by
    rw [List.filterMap_append]
    exact List.append_nil _
  have htaken : taken (es ++ [.send cmd]) = taken es := by
    rw [taken, hsent, htakes, zip_append_left h.taken_le]
    rfl
  have hdelivered : delivered (es ++ [.send cmd]) = delivered es := by
    rw [delivered, List.countP_append]
    rfl
  have hsettlements : ∀ n, settlements n (history env numbers parser core₀ (es ++ [.send cmd])) =
      settlements n (history env numbers parser core₀ es) := by
    intro n
    rw [history_concat hrun (e := .send cmd) rfl, settlements_append]
    exact List.append_nil _
  refine ⟨?_, ?_, ?_, ?_, ?_, fun n => ?_, fun id n => ?_⟩
  · rw [hsent, List.length_append, ← h.count]
    rfl
  · rw [hsent, htakes, List.length_append]
    exact Nat.le_add_right_of_le h.taken_le
  · rw [hsent, htakes, List.drop_append_of_le_length h.taken_le, List.zipIdx_append,
      List.map_append, h.up, h.count, List.length_drop, Nat.add_sub_cancel' h.taken_le]
    rfl
  · rw [htaken]
    exact h.core
  · rw [answers, htaken, hdelivered]
    exact h.down
  · rw [hsettlements, answers, htaken, hdelivered]
    exact h.settled n
  · rw [hsettlements]
    change (s.client.pending.insert s.client.nextId.repr s.client.nextId).lookup id = some n ↔
      n < s.client.nextId + 1 ∧ _
    have hlate : settlements s.client.nextId (history env numbers parser core₀ es) = [] := by
      have hle : (answers env numbers core₀ es).length ≤ s.client.nextId := by
        rw [answers, length_backend, taken, List.length_zip, h.count]
        exact Nat.min_le_left _ _
      rw [h.settled, resultOf, List.getElem?_eq_none
        (Nat.le_trans (List.length_take_le' _ _) hle)]
    rw [Finmap.lookup_insert_eq_ite]
    by_cases hid : id = s.client.nextId.repr
    · rw [if_pos hid, Option.some.injEq]
      refine ⟨?_, fun ⟨_, hn, _⟩ => Nat.repr_injective (hid.symm.trans hn)⟩
      rintro rfl
      exact ⟨Nat.lt_succ_self _, hid, hlate⟩
    · rw [if_neg hid, h.pending]
      refine ⟨fun ⟨hlt, hn⟩ => ⟨Nat.lt_succ_of_lt hlt, hn⟩, fun ⟨hlt, hn, hnone⟩ =>
        ⟨lt_of_le_of_ne (Nat.le_of_lt_succ hlt) fun heq => hid ?_, hn, hnone⟩⟩
      rw [hn, heq]

/-- A command is taken. -/
theorem taken_serve {cmd : Json} {rest : List Json} {c : Circumstances} {written : Bool}
    (h : (sent es).drop (es.filterMap Event.takes?).length = cmd :: rest) :
    taken (es ++ [.serve c written]) = taken es ++ [(cmd, c)] := by
  have hsent : sent (es ++ [.serve c written]) = sent es := by
    rw [sent, List.filterMap_append]
    exact List.append_nil _
  rw [taken, hsent, List.filterMap_append]
  exact zip_concat h

/-- The answers that are underway are not touched by another one. -/
theorem forall₂_concat {as : List Answer} {d : ℕ} {down : List Message} {a : Answer}
    {reply : Message} (hle : d ≤ as.length)
    (h : List.Forall₂ Replies ((as.drop d).zipIdx d) down) (hreply : Replies (a, as.length) reply) :
    List.Forall₂ Replies (((as ++ [a]).drop d).zipIdx d) (down ++ [reply]) := by
  rw [List.drop_append_of_le_length hle, List.zipIdx_append, List.length_drop,
    Nat.add_sub_cancel' hle]
  exact List.rel_append h (.cons hreply .nil)

/-- What the backend answers to the next command. -/
theorem answers_serve (h : Inv env numbers parser core₀ es s) {cmd : Json} {rest : List Json}
    (c : Circumstances) (written : Bool)
    (hrest : (sent es).drop (es.filterMap Event.takes?).length = cmd :: rest) :
    answers env numbers core₀ (es ++ [.serve c written]) =
        answers env numbers core₀ es ++ [(answerTo env numbers s.core cmd c).1] ∧
      (answers env numbers core₀ es).length = (es.filterMap Event.takes?).length := by
  constructor
  · rw [answers, taken_serve hrest, backend_concat, ← h.core]
    rfl
  · rw [answers, length_backend, taken, List.length_zip, Nat.min_eq_right h.taken_le]

/-- The next command is taken, whatever becomes of its answer. -/
theorem Inv.taken_next (h : Inv env numbers parser core₀ es s)
    (hrun : (system env numbers parser core₀).run (.new core₀) es = some s) {c : Circumstances}
    {written : Bool} {cmd : Json} {rest : List Json}
    (hrest : (sent es).drop (es.filterMap Event.takes?).length = cmd :: rest)
    (hstep : step env numbers parser s (.serve c written) = some s')
    (hclient : s'.client = s.client)
    (hup : s'.up = (rest.zipIdx ((es.filterMap Event.takes?).length + 1)).map
      fun (cmd, n) => requestText n.repr cmd)
    (hcore : s'.core = (answerTo env numbers s.core cmd c).2)
    (hdown : ∃ w ≤ (answers env numbers core₀ (es ++ [.serve c written])).length,
      (s'.serving = true → w = (answers env numbers core₀ (es ++ [.serve c written])).length) ∧
      delivered es ≤ w ∧
      .panic ∉ (answers env numbers core₀ (es ++ [.serve c written])).take w ∧
      List.Forall₂ Replies
        ((((answers env numbers core₀ (es ++ [.serve c written])).take w).drop
          (delivered es)).zipIdx (delivered es)) s'.down) :
    Inv env numbers parser core₀ (es ++ [.serve c written]) s' := by
  obtain ⟨hanswers, hlength⟩ := answers_serve h c written hrest
  have hsent : sent (es ++ [.serve c written]) = sent es := by
    rw [sent, List.filterMap_append]
    exact List.append_nil _
  have htakes : ((es ++ [Event.serve c written]).filterMap Event.takes?).length =
      (es.filterMap Event.takes?).length + 1 := by
    rw [List.filterMap_append, List.length_append]
    rfl
  have hdelivered : delivered (es ++ [.serve c written]) = delivered es := by
    rw [delivered, List.countP_append]
    rfl
  have hsettlements : ∀ n,
      settlements n (history env numbers parser core₀ (es ++ [.serve c written])) =
        settlements n (history env numbers parser core₀ es) := by
    intro n
    rw [history_concat hrun hstep, settlements_append]
    exact List.append_nil _
  have hle : delivered es ≤ (answers env numbers core₀ es).length := by
    obtain ⟨w, hw, -, hd, -⟩ := h.down
    exact Nat.le_trans hd hw
  refine ⟨?_, ?_, ?_, ?_, ?_, fun n => ?_, fun id n => ?_⟩
  · rw [hsent, hclient, h.count]
  · rw [hsent, htakes]
    have hdrop := congrArg List.length hrest
    rw [List.length_drop, List.length_cons] at hdrop
    omega
  · rw [hsent, htakes, hup, ← List.drop_drop, hrest]
    rfl
  · rw [taken_serve hrest, backend_concat, ← h.core, hcore]
  · rw [hdelivered]
    exact hdown
  · rw [hsettlements, hdelivered, hanswers, List.take_append_of_le_length hle]
    exact h.settled n
  · rw [hsettlements, hclient]
    exact h.pending id n

/-- The next command is taken. -/
theorem Inv.serve (h : Inv env numbers parser core₀ es s) (hparser : Reads parser)
    (hrun : (system env numbers parser core₀).run (.new core₀) es = some s) {c : Circumstances}
    {written : Bool} (hstep : serve env numbers parser c written s = some s') :
    Inv env numbers parser core₀ (es ++ [.serve c written]) s' := by
  have hstep' : step env numbers parser s (.serve c written) = some s' := hstep
  unfold RemoteSystem.serve at hstep
  split at hstep
  · case h_1 text up hserving hup =>
    -- the command that is read is the next of those that are sent
    have hdrop := h.up
    rw [hup] at hdrop
    obtain ⟨cmd, rest, hrest⟩ : ∃ cmd rest,
        (sent es).drop (es.filterMap Event.takes?).length = cmd :: rest := by
      cases hcase : (sent es).drop (es.filterMap Event.takes?).length with
      | nil =>
        rw [hcase] at hdrop
        cases hdrop
      | cons cmd rest => exact ⟨cmd, rest, rfl⟩
    rw [hrest, List.zipIdx_cons, List.map_cons] at hdrop
    obtain ⟨rfl, rfl⟩ := List.cons.inj hdrop
    obtain ⟨hanswers, hlength⟩ := answers_serve h c written hrest
    obtain ⟨hcore, hreply⟩ := handle_requestText env numbers hparser c s.core cmd
      (es.filterMap Event.takes?).length
    obtain ⟨w, hw, hall, hd, hcalm, hdown⟩ := h.down
    obtain rfl := hall hserving
    rw [List.take_length] at hdown hcalm
    -- an answer that gets lost leaves those that are underway
    have hlost : ∃ w ≤ (answers env numbers core₀ (es ++ [.serve c written])).length,
        (false = true → w = (answers env numbers core₀ (es ++ [.serve c written])).length) ∧
        delivered es ≤ w ∧
        .panic ∉ (answers env numbers core₀ (es ++ [.serve c written])).take w ∧
        List.Forall₂ Replies
          ((((answers env numbers core₀ (es ++ [.serve c written])).take w).drop
            (delivered es)).zipIdx (delivered es)) s.down := by
      refine ⟨(answers env numbers core₀ es).length, ?_, nofun, hd, ?_⟩
      · rw [hanswers, List.length_append]
        exact Nat.le_add_right _ _
      · rw [hanswers, List.take_left]
        exact ⟨hcalm, hdown⟩
    split at hstep
    · case h_1 reply core hrun' =>
      rw [hrun'] at hcore hreply
      obtain ⟨_, hsome, hreplies⟩ := hreply.resolve_right fun hnone => nomatch hnone.1
      obtain rfl := Option.some.inj hsome
      split at hstep
      · obtain rfl := Option.some.inj hstep
        refine h.taken_next hrun hrest hstep' rfl rfl hcore
          ⟨_, Nat.le_refl _, fun _ => rfl, ?_, ?_, ?_⟩
        · rw [hanswers, List.length_append]
          exact Nat.le_add_right_of_le hd
        · rw [List.take_length, hanswers, List.mem_append, List.mem_singleton]
          rintro (hpanic | hpanic)
          · exact hcalm hpanic
          · rw [← hpanic] at hreplies
            exact hreplies
        · rw [List.take_length, hanswers]
          rw [← hlength] at hreplies
          exact forall₂_concat hd hdown hreplies
      · obtain rfl := Option.some.inj hstep
        exact h.taken_next hrun hrest hstep' rfl rfl hcore hlost
    · case h_2 core hrun' =>
      rw [hrun'] at hcore
      obtain rfl := Option.some.inj hstep
      exact h.taken_next hrun hrest hstep' rfl rfl hcore hlost
  · cases hstep

/-- The result of a command settles its promise, and an answer under no id settles nothing. -/
theorem receive_reply (h : Inv env numbers parser core₀ es s) (hparser : Reads parser)
    {a : Answer} {rest : List Answer} {w : ℕ} {msg : Message} {down : List Message}
    (hw : w ≤ (answers env numbers core₀ es).length)
    (hdrop : ((answers env numbers core₀ es).take w).drop (delivered es) = a :: rest)
    (hreplies : Replies (a, delivered es) msg) (hdown : s.down = msg :: down) :
    ∃ response, received parser s = some (.response response) ∧
      (∀ n, settlements n (s.client.receive (κ := Json) (.response response)).2 =
        if delivered es = n then resultOf [a] 0 else []) ∧
      (s.client.receive (κ := Json) (.response response)).1.nextId = s.client.nextId ∧
      ∀ id n, (s.client.receive (κ := Json) (.response response)).1.pending.lookup id = some n ↔
        s.client.pending.lookup id = some n ∧ (delivered es = n → resultOf [a] 0 = []) := by
  have hlt : delivered es < s.client.nextId := by
    have hlength := congrArg List.length hdrop
    rw [List.length_drop, List.length_take, List.length_cons] at hlength
    have hle : (answers env numbers core₀ es).length ≤ s.client.nextId := by
      rw [answers, length_backend, taken, List.length_zip, h.count]
      exact Nat.min_le_left _ _
    omega
  cases a with
  | result r =>
    have hmsg : msg = .text (responseText ⟨(delivered es).repr, r⟩) := hreplies
    have hlookup : s.client.pending.lookup (delivered es).repr = some (delivered es) := by
      refine (h.pending _ _).mpr ⟨hlt, rfl, ?_⟩
      rw [h.settled, resultOf, List.getElem?_eq_none (List.length_take_le _ _)]
    refine ⟨⟨(delivered es).repr, r⟩, ?_, fun n => ?_, (s.client.sent_receive _).2, fun id n => ?_⟩
    · rw [received, hdown, hmsg]
      exact readResponse_responseText hparser _
    · rw [(receive_response ⟨(delivered es).repr, r⟩ hlookup n).2]
      rfl
    · rw [lookup_receive, ClientEvent.answers?]
      refine and_congr_right fun hid => ?_
      obtain ⟨-, rfl, -⟩ := (h.pending id n).mp hid
      by_cases hn : delivered es = n
      · rw [if_pos (congrArg Nat.repr hn)]
        exact iff_of_false (Option.some_ne_none _) fun hnone => List.cons_ne_nil _ _ (hnone hn)
      · rw [if_neg fun heq => hn (Nat.repr_injective heq)]
        exact iff_of_true rfl fun heq => absurd heq hn
  | orphan =>
    obtain ⟨message, hmsg⟩ : ∃ message, msg = .text (responseText ⟨"", .error message⟩) := hreplies
    -- no request has the empty id
    have hlookup : s.client.pending.lookup "" = none := by
      cases hsome : s.client.pending.lookup "" with
      | none => rfl
      | some n =>
        obtain ⟨-, hid, -⟩ := (h.pending "" n).mp hsome
        exact absurd hid.symm Nat.repr_ne_empty
    have hreceive : s.client.receive (κ := Json) (τ := Json) (.response ⟨"", .error message⟩) =
        (s.client, []) := by
      simp only [DispatchClient.receive, hlookup]
    refine ⟨⟨"", .error message⟩, ?_, fun n => ?_, (s.client.sent_receive _).2, fun id n => ?_⟩
    · rw [received, hdown, hmsg]
      exact readResponse_responseText hparser _
    · rw [hreceive]
      exact (ite_self []).symm
    · rw [hreceive]
      exact (and_iff_left fun _ => rfl).symm
  | panic => cases hreplies

/-- A message comes in. -/
theorem Inv.deliver (h : Inv env numbers parser core₀ es s) (hparser : Reads parser)
    (hrun : (system env numbers parser core₀).run (.new core₀) es = some s)
    (hstep : deliver parser s = some s') :
    Inv env numbers parser core₀ (es ++ [.deliver]) s' := by
  have hstep' : step env numbers parser s .deliver = some s' := hstep
  obtain ⟨w, hw, hall, hd, hcalm, hforall⟩ := h.down
  cases hdown : s.down with
  | nil =>
    rw [RemoteSystem.deliver, hdown] at hstep
    cases hstep
  | cons msg down =>
    rw [hdown] at hforall
    obtain ⟨a, rest, hdrop⟩ : ∃ a rest,
        ((answers env numbers core₀ es).take w).drop (delivered es) = a :: rest := by
      cases hcase : ((answers env numbers core₀ es).take w).drop (delivered es) with
      | nil =>
        rw [hcase] at hforall
        cases hforall
      | cons a rest => exact ⟨a, rest, rfl⟩
    rw [hdrop, List.zipIdx_cons] at hforall
    obtain ⟨hreplies, hrest⟩ := List.forall₂_cons.mp hforall
    obtain ⟨response, hreceived, hsettles, hnext, hlookup⟩ :=
      receive_reply h hparser hw hdrop hreplies hdown
    have hs' : s' = { s with down, client := (s.client.receive (κ := Json)
        (.response response)).1 } := by
      rw [RemoteSystem.deliver, hdown] at hstep
      simp only [hreceived] at hstep
      exact (Option.some.inj hstep).symm
    have hsent : sent (es ++ [.deliver]) = sent es := by
      rw [sent, List.filterMap_append]
      exact List.append_nil _
    have htakes : (es ++ [Event.deliver]).filterMap Event.takes? = es.filterMap Event.takes? := by
      rw [List.filterMap_append]
      exact List.append_nil _
    have htaken : taken (es ++ [.deliver]) = taken es := by
      rw [taken, hsent, htakes]
      rfl
    have hdelivered : delivered (es ++ [.deliver]) = delivered es + 1 := by
      rw [delivered, List.countP_append]
      rfl
    have hanswers : answers env numbers core₀ (es ++ [.deliver]) =
        answers env numbers core₀ es := by
      rw [answers, htaken]
      rfl
    have hnth : ((answers env numbers core₀ es).take w)[delivered es]? = some a := by
      rw [← List.head?_drop, hdrop]
      rfl
    have hlt : delivered es < w := by
      have hlength := congrArg List.length hdrop
      rw [List.length_drop, List.length_take, List.length_cons] at hlength
      omega
    rw [List.getElem?_take_of_lt hlt] at hnth
    have hhistory : ∀ n, settlements n (history env numbers parser core₀ (es ++ [.deliver])) =
        settlements n (history env numbers parser core₀ es) ++
          if delivered es = n then resultOf [a] 0 else [] := by
      intro n
      rw [history_concat hrun hstep', settlements_append, ← hsettles n, deeds, hreceived]
    rw [hs']
    refine ⟨?_, ?_, ?_, ?_, ?_, fun n => ?_, fun id n => ?_⟩
    · rw [hsent, ← h.count]
      exact hnext
    · rw [hsent, htakes]
      exact h.taken_le
    · rw [hsent, htakes]
      exact h.up
    · rw [htaken]
      exact h.core
    · rw [hanswers, hdelivered]
      refine ⟨w, hw, hall, hlt, hcalm, ?_⟩
      rw [← List.drop_drop, hdrop]
      exact hrest
    · rw [hhistory, h.settled, hanswers, hdelivered]
      exact (resultOf_take_succ hnth n).symm
    · rw [hhistory, hlookup, h.pending, hnext, List.append_eq_nil_iff]
      by_cases hn : delivered es = n
      · simp [hn, and_assoc]
      · simp [hn]

/-- The connection breaks. -/
theorem Inv.drop (h : Inv env numbers parser core₀ es s)
    (hrun : (system env numbers parser core₀).run (.new core₀) es = some s) :
    Inv env numbers parser core₀ (es ++ [.drop]) { s with serving := false } := by
  have hsent : sent (es ++ [.drop]) = sent es := by
    rw [sent, List.filterMap_append]
    exact List.append_nil _
  have htakes : (es ++ [Event.drop]).filterMap Event.takes? = es.filterMap Event.takes? := by
    rw [List.filterMap_append]
    exact List.append_nil _
  have htaken : taken (es ++ [.drop]) = taken es := by
    rw [taken, hsent, htakes]
    rfl
  have hanswers : answers env numbers core₀ (es ++ [.drop]) = answers env numbers core₀ es := by
    rw [answers, htaken]
    rfl
  have hdelivered : delivered (es ++ [.drop]) = delivered es := by
    rw [delivered, List.countP_append]
    rfl
  have hhistory : history env numbers parser core₀ (es ++ [.drop]) =
      history env numbers parser core₀ es :=
    (history_concat hrun (e := .drop) rfl).trans (List.append_nil _)
  refine ⟨?_, ?_, ?_, ?_, ?_, fun n => ?_, fun id n => ?_⟩
  · rw [hsent]
    exact h.count
  · rw [hsent, htakes]
    exact h.taken_le
  · rw [hsent, htakes]
    exact h.up
  · rw [htaken]
    exact h.core
  · rw [hanswers, hdelivered]
    obtain ⟨w, hw, -, hdown⟩ := h.down
    exact ⟨w, hw, nofun, hdown⟩
  · rw [hhistory, hanswers, hdelivered]
    exact h.settled n
  · rw [hhistory]
    exact h.pending id n

/-- What holds between two steps holds after every run. -/
theorem inv_of_run (hparser : Reads parser)
    (hrun : (system env numbers parser core₀).run (.new core₀) es = some s) :
    Inv env numbers parser core₀ es s := by
  refine StateMachine.run_induction (M := system env numbers parser core₀)
    (P := Inv env numbers parser core₀) inv_new ?_ hrun
  intro es s e s' hrun ih hstep
  cases e with
  | send cmd =>
    obtain rfl := Option.some.inj hstep
    exact ih.send hrun cmd
  | serve c written => exact ih.serve hparser hrun hstep
  | deliver => exact ih.deliver hparser hrun hstep
  | drop =>
    obtain rfl := Option.some.inj hstep
    exact ih.drop hrun

/-- **Every run is faithful**: commands are executed in the order in which they are sent, each
of them once, and each promise is settled with the result of its own command. -/
theorem every_run_faithful (hparser : Reads parser)
    (hrun : (system env numbers parser core₀).run (.new core₀) es = some s) :
    Faithful env numbers parser core₀ es s := by
  have h := inv_of_run hparser hrun
  refine ⟨h.taken_le, ?_, h.settled, fun hserving hup hdown n cmd hcmd => ?_⟩
  · rw [backend_dispatches, h.core]
  · obtain ⟨w, -, hall, hd, hcalm, hforall⟩ := h.down
    obtain rfl := hall hserving
    rw [List.take_length] at hcalm hforall
    -- every answer has come in
    have hdelivered : (answers env numbers core₀ es).length ≤ delivered es := by
      have hlength := hforall.length_eq
      rw [hdown, List.length_zipIdx, List.length_drop, List.length_nil] at hlength
      omega
    -- every command has been taken
    have hpair : ∃ c, (taken es)[n]? = some (cmd, c) := by
      have hlength := congrArg List.length h.up
      rw [hup, List.length_map, List.length_zipIdx, List.length_drop, List.length_nil] at hlength
      have hn := (List.getElem?_eq_some_iff.mp hcmd).1
      have hc : n < (es.filterMap Event.takes?).length := by omega
      refine ⟨(es.filterMap Event.takes?)[n], ?_⟩
      rw [taken, List.getElem?_zip_eq_some]
      exact ⟨hcmd, List.getElem?_eq_getElem hc⟩
    obtain ⟨c, hpair⟩ := hpair
    have ha := backend_getElem? env numbers core₀ hpair
    have horphan := answerTo_eq_orphan_iff env numbers
      (backend env numbers core₀ ((taken es).take n)).2 cmd c
    rw [h.settled, List.take_of_length_le hdelivered, resultOf, answers, ha]
    cases hanswer : (answerTo env numbers (backend env numbers core₀ ((taken es).take n)).2 cmd
        c).1 with
    | result r =>
      rw [hanswer] at horphan
      have hsome : Command.fromJson numbers cmd ≠ none := fun hnone => nomatch horphan.mpr hnone
      rw [if_pos (Option.isSome_iff_ne_none.mpr hsome)]
      rfl
    | orphan =>
      rw [horphan.mp hanswer]
      rfl
    | panic =>
      rw [hanswer] at ha
      exact absurd (List.mem_of_getElem? ha) hcalm

end Steps

/-- The parser that reads what is written, and nothing else. -/
noncomputable def inverse : Parser where
  parse := Function.partialInv Json.write
  complaint _ := "expected value at line 1 column 1"

theorem reads_inverse : Reads inverse := fun j =>
  (Function.Injective.isPartialInv (fun _ _ => Json.write_injective) j j.write).mpr rfl

/-- Numbers without fractions, as they are written. -/
def plainTexts : NumberTexts ℤ := ⟨.int, .int⟩

/-- A new application. -/
def fresh : Core ℤ := .new Database.empty false

/-- A tag is added. -/
def addRock : Json := rock.toJson plainTexts

/-- There and back. -/
def roundTrip : List Event := [.send addRock, .serve (circumstancesAt 0) true, .deliver]

/-- The application with the tag. -/
def withRock : Core ℤ := (dispatchWithCore plainEnvironment fresh ⟨rock, circumstancesAt 0⟩).2

/-- What is left of it. -/
def afterRoundTrip : State ℤ where
  client := (((DispatchClient.new.send (κ := Json) (τ := Json) addRock none).1).receive (κ := Json)
    (.response ⟨"0", .ok (Json.int 1)⟩)).1
  up := []
  down := []
  core := withRock
  serving := true

theorem run_roundTrip : (system plainEnvironment plainNumbers inverse fresh).run (.new fresh)
    roundTrip = some afterRoundTrip := by
  have hanswer : answerTo plainEnvironment plainNumbers fresh addRock (circumstancesAt 0) =
      (.result (.ok (.int 1)), withRock) := rfl
  have hserve := serve_eq (n := 0)
    (s := ⟨(DispatchClient.new.send (κ := Json) (τ := Json) addRock none).1,
      [requestText "0" addRock], [], fresh, true⟩) reads_inverse rfl rfl hanswer
  have hdeliver := deliver_eq (ρ := ℤ)
    (s := ⟨(DispatchClient.new.send (κ := Json) (τ := Json) addRock none).1, [],
      [.text (responseText ⟨"0", .ok (.int 1)⟩)], withRock, true⟩) reads_inverse rfl
  exact StateMachine.run_cons_eq_some.mpr ⟨_, rfl, StateMachine.run_cons_eq_some.mpr
    ⟨_, hserve, StateMachine.run_cons_eq_some.mpr ⟨_, hdeliver, rfl⟩⟩⟩

theorem every_run_faithful_roundTrip :
    Faithful plainEnvironment plainNumbers inverse fresh roundTrip afterRoundTrip ∧
      settlements 0 (history plainEnvironment plainNumbers inverse fresh roundTrip) =
        [.ok (.int 1)] := by
  have h := every_run_faithful reads_inverse run_roundTrip
  exact ⟨h, h.settled 0⟩

/-! ## Commands of the application -/

/-- The result that a reply is sent as. -/
def resultOfReply? : Reply → Option (RemoteResult Json)
  | .ok value => some (.ok value)
  | .err message => some (.error message)
  | .panic => none

/-- The promise of the `n`-th command is settled with what the dispatcher returns for it, after
the commands before it. -/
def SettledByDispatch (env : Environment ρ) (core₀ : Core ρ) (cmds : List (Command ρ))
    (met : List Circumstances) (n : ℕ) (r : RemoteResult Json) : Prop :=
  ∃ cmd c core, cmds[n]? = some cmd ∧ met[n]? = some c ∧
    (dispatcher env core₀).run core₀ (((cmds.zip met).take n).map fun (cmd, c) => ⟨cmd, c⟩) =
      some core ∧
    resultOfReply? (dispatchWithCore env core ⟨cmd, c⟩).1 = some r

section EndToEnd

variable {env : Environment ρ} {numbers : Numbers ρ} {texts : NumberTexts ρ} {parser : Parser}
  {core₀ : Core ρ} {es : List Event} {s : State ρ} {cmds : List (Command ρ)}

/-- Commands that come back are the requests of the dispatcher. -/
theorem requests_toJson (hsurvive : ∀ cmd ∈ cmds, cmd.Survives numbers texts)
    (met : List Circumstances) :
    requests numbers ((cmds.map (Command.toJson texts)).zip met) =
      (cmds.zip met).map fun (cmd, c) => ⟨cmd, c⟩ := by
  induction cmds generalizing met with
  | nil => rfl
  | cons cmd cmds ih =>
    obtain ⟨hcmd, hcmds⟩ := List.forall_mem_cons.mp hsurvive
    cases met with
    | nil => rfl
    | cons c met =>
      have hread := (Command.fromJson_toJson_iff numbers texts cmd).mpr hcmd
      have hrest := ih hcmds met
      rw [requests] at hrest ⊢
      rw [List.map_cons, List.zip_cons_cons, List.zip_cons_cons, List.map_cons,
        List.filterMap_cons]
      simp only [hread, Option.map_some]
      rw [hrest]

/-- **From end to end**: when the commands of the client are commands, and their numbers come
back, the application has executed the first of them, in order, and a promise is settled with what
its own command has returned. -/
theorem end_to_end (hparser : Reads parser)
    (hrun : (system env numbers parser core₀).run (.new core₀) es = some s)
    (hsent : sent es = cmds.map (Command.toJson texts))
    (hsurvive : ∀ cmd ∈ cmds, cmd.Survives numbers texts) :
    (dispatcher env core₀).run core₀
        ((cmds.zip (es.filterMap Event.takes?)).map fun (cmd, c) => ⟨cmd, c⟩) = some s.core ∧
      ∀ n r, r ∈ settlements n (history env numbers parser core₀ es) →
        SettledByDispatch env core₀ cmds (es.filterMap Event.takes?) n r := by
  have h := inv_of_run hparser hrun
  have htaken : taken es = (cmds.map (Command.toJson texts)).zip (es.filterMap Event.takes?) := by
    rw [taken, hsent]
  constructor
  · rw [← requests_toJson hsurvive, ← htaken, backend_dispatches, h.core]
  · intro n r hr
    rw [h.settled, resultOf] at hr
    split at hr
    · case h_1 r' hanswer =>
      obtain rfl := List.mem_singleton.mp hr
      -- the answer is that of the `n`-th pair
      have hanswer' : (answers env numbers core₀ es)[n]? = some (.result r) := by
        rw [List.getElem?_take] at hanswer
        split at hanswer
        · exact hanswer
        · cases hanswer
      obtain ⟨⟨j, c⟩, hpair⟩ : ∃ pair, (taken es)[n]? = some pair := by
        have hlt := (List.getElem?_eq_some_iff.mp hanswer').1
        rw [answers, length_backend] at hlt
        exact ⟨_, List.getElem?_eq_getElem hlt⟩
      rw [answers, backend_getElem? env numbers core₀ hpair, Option.some.injEq] at hanswer'
      rw [htaken, List.getElem?_zip_eq_some, List.getElem?_map] at hpair
      obtain ⟨⟨cmd, hcmd, rfl⟩, hc⟩ := And.imp_left Option.map_eq_some_iff.mp hpair
      have hread := (Command.fromJson_toJson_iff numbers texts cmd).mpr
        (hsurvive cmd (List.mem_of_getElem? hcmd))
      refine ⟨cmd, c, (backend env numbers core₀ ((taken es).take n)).2, hcmd, hc, ?_, ?_⟩
      · have hfirst : (taken es).take n =
            ((cmds.take n).map (Command.toJson texts)).zip
              ((es.filterMap Event.takes?).take n) := by
          rw [htaken, List.zip, List.take_zipWith, List.map_take]
        rw [← backend_dispatches, hfirst,
          requests_toJson fun cmd hcmd => hsurvive cmd (List.mem_of_mem_take hcmd)]
        rw [List.zip, List.take_zipWith]
      · rw [answerTo, hread] at hanswer'
        simp only at hanswer'
        rcases hdispatch : dispatchWithCore env (backend env numbers core₀ ((taken es).take n)).2
          ⟨cmd, c⟩ with ⟨value | message | _, core'⟩ <;> rw [hdispatch] at hanswer'
        · exact congrArg some (Answer.result.inj hanswer')
        · exact congrArg some (Answer.result.inj hanswer')
        · cases hanswer'
    · case h_2 => cases hr

end EndToEnd

theorem end_to_end_roundTrip :
    (dispatcher plainEnvironment fresh).run fresh [⟨rock, circumstancesAt 0⟩] = some withRock ∧
      ∀ n r, r ∈ settlements n (history plainEnvironment plainNumbers inverse fresh roundTrip) →
        SettledByDispatch plainEnvironment fresh [rock] [circumstancesAt 0] n r := by
  have hsent : sent roundTrip = [rock].map (Command.toJson plainTexts) := rfl
  have h := end_to_end reads_inverse run_roundTrip hsent fun cmd hcmd => by
      obtain rfl := List.mem_singleton.mp hcmd
      trivial
  exact h

end RemoteSystem

end Vamp
