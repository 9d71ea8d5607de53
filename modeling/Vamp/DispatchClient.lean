import Std.Data.String.ToNat
import Vamp.FiniteMap
import Vamp.RemoteMessage
import Vamp.StateMachine

/-!
# Requests of the browser, and their responses

`DispatchClient` of `dispatchClient.ts`. A request is numbered, and its number as text is its id.
Whoever made it holds a promise, and the means to settle the promise are kept in `pending`
under the id until a response with that id comes in. So a promise is settled by the first response
to its request, and by nothing else (`correlated`).

What a connection has buffered before it has a handler is received first. Nobody calls
`rejectAllPending`.
-/

namespace Vamp

namespace Ts

variable {κ τ : Type}

/-- `DispatchClient`. -/
structure DispatchClient : Type where
  /-- `nextId`, which JavaScript counts exactly up to `2 ^ 53` -/
  nextId : ℕ
  /-- `pending`: which promise is to be settled, by the id of its request -/
  pending : Finmap fun _ : String => ℕ

/-- What the client does. Promises are numbered in the order in which they are made. -/
inductive ClientDeed (κ τ : Type) : Type where
  /-- a request is handed to the connection -/
  | sent (r : RemoteRequest κ)
  /-- a promise is resolved -/
  | resolved (n : ℕ) (value : τ)
  /-- a promise is rejected, with an error of this message -/
  | rejected (n : ℕ) (message : String)

/-- What can happen. -/
inductive ClientEvent (κ τ : Type) : Type where
  /-- `send` is called; the connection may throw an error -/
  | send (cmd : κ) (thrown : Option String)
  /-- a message comes in -/
  | receive (msg : DataTransportMessage κ τ)

namespace DispatchClient

/-- The constructor. -/
def new : DispatchClient := ⟨0, ∅⟩

/-- `send`. What is thrown where a promise is made rejects the promise. -/
def send (c : DispatchClient) (cmd : κ) (thrown : Option String) :
    DispatchClient × List (ClientDeed κ τ) :=
  let id := c.nextId.repr
  (⟨c.nextId + 1, c.pending.insert id c.nextId⟩,
    .sent ⟨id, cmd⟩ :: thrown.toList.map (.rejected c.nextId))

/-- The handler of messages. -/
def receive (c : DispatchClient) :
    DataTransportMessage κ τ → DispatchClient × List (ClientDeed κ τ)
  | .request _ => (c, [])
  | .response r =>
    match c.pending.lookup r.id with
    | none => (c, [])
    | some n =>
      ({ c with pending := c.pending.erase r.id },
        match r.result with
        | .error message => [.rejected n message]
        | .ok value => [.resolved n value])

/-- One step, and what is done. -/
def perform (c : DispatchClient) : ClientEvent κ τ → DispatchClient × List (ClientDeed κ τ)
  | .send cmd thrown => c.send cmd thrown
  | .receive msg => c.receive msg

/-- The client as a state machine. -/
def machine : StateMachine DispatchClient (ClientEvent κ τ) where
  init := new
  step c e := some (c.perform e).1

/-- What is done in a run from the start. -/
def history (es : List (ClientEvent κ τ)) : List (ClientDeed κ τ) :=
  machine.trace (fun c e => (c.perform e).2) new es

end DispatchClient

/-! ## What is told of a run -/

/-- The request that is handed to the connection. -/
def ClientDeed.sent? : ClientDeed κ τ → Option (RemoteRequest κ)
  | .sent r => some r
  | _ => none

/-- How a promise is settled. -/
def ClientDeed.settles? (n : ℕ) : ClientDeed κ τ → Option (RemoteResult τ)
  | .resolved m value => if m = n then some (.ok value) else none
  | .rejected m message => if m = n then some (.error message) else none
  | .sent _ => none

/-- The result that comes in for an id. -/
def ClientEvent.answers? (id : String) : ClientEvent κ τ → Option (RemoteResult τ)
  | .receive (.response r) => if r.id = id then some r.result else none
  | _ => none

/-- The command that is to be sent. -/
def ClientEvent.sends? : ClientEvent κ τ → Option κ
  | .send cmd _ => some cmd
  | .receive _ => none

/-- The connection does not throw an error. -/
def ClientEvent.accepted : ClientEvent κ τ → Bool
  | .send _ thrown => thrown.isNone
  | .receive _ => true

namespace DispatchClient

variable {c c' : DispatchClient} {es : List (ClientEvent κ τ)} {e : ClientEvent κ τ} {n m : ℕ}
  {id : String}

/-- How often, and how, a promise is settled. -/
def settlements (n : ℕ) (deeds : List (ClientDeed κ τ)) : List (RemoteResult τ) :=
  deeds.filterMap (ClientDeed.settles? n)

/-- The responses with an id. -/
def answers (id : String) (es : List (ClientEvent κ τ)) : List (RemoteResult τ) :=
  es.filterMap (ClientEvent.answers? id)

/-- **Requests and responses belong together**, in the run `es` that ends in `c`. -/
structure Correlated (es : List (ClientEvent κ τ)) (c : DispatchClient) : Prop where
  /-- each command is sent in a request with an id of its own -/
  sent : ((history es).filterMap ClientDeed.sent?).map RemoteRequest.cmd =
    es.filterMap ClientEvent.sends?
  /-- ids are numbers -/
  ids : ((history es).filterMap ClientDeed.sent?).map RemoteRequest.id =
    (List.range c.nextId).map Nat.repr
  /-- and differ -/
  distinct : (((history es).filterMap ClientDeed.sent?).map RemoteRequest.id).Nodup
  /-- a promise is settled by the first response to its request, and never again -/
  settled : ∀ pre cmd thrown post, es = pre ++ .send cmd thrown :: post →
    settlements (pre.filterMap ClientEvent.sends?).length (history es) =
      (answers (pre.filterMap ClientEvent.sends?).length.repr post).take 1
  /-- `pending` has the ids of requests that have not been answered, with their promises -/
  pending : ∀ id n, c.pending.lookup id = some n ↔
    n < c.nextId ∧ id = n.repr ∧ settlements n (history es) = []

theorem history_concat (hrun : machine.run new es = some c) :
    history (es ++ [e]) = history es ++ (c.perform e).2 :=
  StateMachine.trace_concat (M := machine) hrun rfl

/-! ## What a step does -/

/-- A response settles the promise that is found under its id. -/
theorem receive_response (r : RemoteResponse τ) (hn : c.pending.lookup r.id = some n) (m : ℕ) :
    (c.receive (κ := κ) (.response r)).1 = { c with pending := c.pending.erase r.id } ∧
      settlements m (c.receive (κ := κ) (.response r)).2 = if n = m then [r.result] else [] := by
  simp only [receive, hn]
  refine ⟨trivial, ?_⟩
  cases r.result with
  | error message => by_cases h : n = m <;> simp [settlements, ClientDeed.settles?, h]
  | ok value => by_cases h : n = m <;> simp [settlements, ClientDeed.settles?, h]

/-- No message makes the client send anything. -/
theorem sent_receive (c : DispatchClient) (msg : DataTransportMessage κ τ) :
    (c.receive msg).2.filterMap ClientDeed.sent? = [] ∧ (c.receive msg).1.nextId = c.nextId := by
  cases msg with
  | request r => exact ⟨rfl, rfl⟩
  | response r =>
    cases hn : c.pending.lookup r.id with
    | none =>
      simp only [receive, hn]
      exact ⟨rfl, trivial⟩
    | some n =>
      simp only [receive, hn]
      cases r.result with
      | error message => exact ⟨rfl, trivial⟩
      | ok value => exact ⟨rfl, trivial⟩

/-! ## What a run does -/

/-- The first of some and more. -/
theorem take_one_append {α : Type} (xs ys : List α) :
    (xs.take 1 ++ ys).take 1 = (xs ++ ys).take 1 := by
  cases xs <;> rfl

theorem answers_concat (id : String) (es : List (ClientEvent κ τ)) (e : ClientEvent κ τ) :
    answers id (es ++ [e]) = answers id es ++ (e.answers? id).toList := by
  rw [answers, List.filterMap_append, List.filterMap_cons]
  cases e.answers? id <;> rfl

/-- What a client knows of its requests. -/
structure Knows (es : List (ClientEvent κ τ)) (c : DispatchClient) : Prop where
  /-- how many there are -/
  count : (es.filterMap ClientEvent.sends?).length = c.nextId
  /-- the commands -/
  sent : ((history es).filterMap ClientDeed.sent?).map RemoteRequest.cmd =
    es.filterMap ClientEvent.sends?
  /-- the ids -/
  ids : ((history es).filterMap ClientDeed.sent?).map RemoteRequest.id =
    (List.range c.nextId).map Nat.repr
  /-- what is settled, and how -/
  settled : ∀ pre cmd thrown post, es = pre ++ .send cmd thrown :: post →
    settlements (pre.filterMap ClientEvent.sends?).length (history es) =
      (answers (pre.filterMap ClientEvent.sends?).length.repr post).take 1
  /-- never again -/
  once : ∀ n, (settlements n (history es)).length ≤ 1
  /-- promises that have not been made are not settled -/
  later : ∀ n, c.nextId ≤ n → settlements n (history es) = []
  /-- what is pending -/
  pending : ∀ id n, c.pending.lookup id = some n ↔
    n < c.nextId ∧ id = n.repr ∧ settlements n (history es) = []

theorem knows_nil : Knows ([] : List (ClientEvent κ τ)) new where
  count := rfl
  sent := rfl
  ids := rfl
  settled pre cmd thrown post hsplit := absurd hsplit (by simp)
  once _ := Nat.zero_le 1
  later _ _ := rfl
  pending id n := by
    refine iff_of_false (fun hsome => ?_) fun h => Nat.not_lt_zero n h.1
    cases hsome

/-- A request is sent. -/
theorem Knows.send {cmd : κ} (h : Knows es c)
    (hhistory : history (es ++ [.send cmd none]) = history es ++ (c.send cmd none).2) :
    Knows (es ++ [.send cmd none]) (c.send (τ := τ) cmd none).1 := by
  have hsettlements : ∀ n, settlements n (history (es ++ [.send cmd none])) =
      settlements n (history es) := by
    intro n
    rw [hhistory, settlements, List.filterMap_append]
    exact List.append_nil _
  refine ⟨?_, ?_, ?_, ?_, fun n => ?_, fun n hn => ?_, fun id n => ?_⟩
  · rw [List.filterMap_append, List.length_append, h.count]
    rfl
  · rw [hhistory, List.filterMap_append, List.map_append, h.sent, List.filterMap_append]
    rfl
  · rw [hhistory, List.filterMap_append, List.map_append, h.ids]
    exact (List.map_append.symm.trans (congrArg _ List.range_succ.symm))
  · intro pre cmd' thrown post hsplit
    rw [hsettlements]
    rcases List.split_concat hsplit with ⟨rfl, -, rfl⟩ | ⟨post, rfl, hes⟩
    · rw [h.count]
      exact h.later _ (Nat.le_refl _)
    · rw [h.settled pre cmd' thrown post hes, answers, answers, List.filterMap_append]
      exact congrArg (List.take 1) (List.append_nil _).symm
  · rw [hsettlements]
    exact h.once n
  · rw [hsettlements]
    exact h.later n (Nat.le_of_succ_le hn)
  · rw [hsettlements]
    change (c.pending.insert c.nextId.repr c.nextId).lookup id = some n ↔ n < c.nextId + 1 ∧ _
    rw [Finmap.lookup_insert_eq_ite]
    by_cases hid : id = c.nextId.repr
    · -- the new request
      rw [if_pos hid, Option.some.injEq]
      refine ⟨?_, fun ⟨_, hn, _⟩ => Nat.repr_injective (hid.symm.trans hn)⟩
      rintro rfl
      exact ⟨Nat.lt_succ_self _, hid, h.later _ (Nat.le_refl _)⟩
    · rw [if_neg hid, h.pending]
      refine ⟨fun ⟨hlt, hn⟩ => ⟨Nat.lt_succ_of_lt hlt, hn⟩, fun ⟨hlt, hn, hnone⟩ =>
        ⟨lt_of_le_of_ne (Nat.le_of_lt_succ hlt) fun heq => hid ?_, hn, hnone⟩⟩
      rw [hn, heq]

/-- A response removes its id from `pending`, and nothing else does. -/
theorem lookup_receive (c : DispatchClient) (msg : DataTransportMessage κ τ) (id : String) :
    (c.receive msg).1.pending.lookup id = some n ↔
      c.pending.lookup id = some n ∧ ClientEvent.answers? id (.receive msg) = none := by
  cases msg with
  | request r => exact (and_iff_left rfl).symm
  | response r =>
    rw [ClientEvent.answers?]
    cases hlookup : c.pending.lookup r.id with
    | none =>
      simp only [receive, hlookup]
      refine ⟨fun hsome => ⟨hsome, if_neg fun hid => ?_⟩, And.left⟩
      rw [← hid, hlookup] at hsome
      cases hsome
    | some m =>
      rw [(receive_response r hlookup m).1, Finmap.lookup_erase_eq_ite]
      by_cases hid : id = r.id
      · rw [if_pos hid, if_pos hid.symm]
        exact iff_of_false nofun fun h => nomatch h.2
      · rw [if_neg hid, if_neg fun heq => hid heq.symm]
        exact (and_iff_left rfl).symm

/-- The first response to a request settles its promise. -/
theorem Knows.settlements_receive (h : Knows es c) (msg : DataTransportMessage κ τ)
    (hn : n < c.nextId) :
    settlements n (history es ++ (c.receive msg).2) =
      (settlements n (history es) ++
        (ClientEvent.answers? n.repr (.receive msg)).toList).take 1 := by
  have hsame : (settlements n (history es) ++ []).take 1 = settlements n (history es) := by
    rw [List.append_nil]
    exact List.take_of_length_le (h.once n)
  rw [settlements, List.filterMap_append]
  cases msg with
  | request r => exact (List.append_nil _).trans hsame.symm
  | response r =>
    rw [ClientEvent.answers?]
    by_cases hid : r.id = n.repr
    · rw [if_pos hid]
      cases hlookup : c.pending.lookup r.id with
      | none =>
        -- it has been answered
        have hsome : settlements n (history es) ≠ [] := fun hnone => by
          rw [(h.pending r.id n).mpr ⟨hn, hid, hnone⟩] at hlookup
          cases hlookup
        obtain ⟨result, results, heq⟩ := List.exists_cons_of_ne_nil hsome
        have hlength := h.once n
        rw [heq] at hlength
        obtain rfl :=
          List.eq_nil_of_length_eq_zero (Nat.le_zero.mp (Nat.le_of_succ_le_succ hlength))
        rw [settlements] at heq
        simp only [receive, hlookup, heq, settlements]
        rfl
      | some m =>
        obtain ⟨-, hm, hnone⟩ := (h.pending r.id m).mp hlookup
        obtain rfl := Nat.repr_injective (hid.symm.trans hm)
        have hdeeds : settlements n (c.receive (.response r : DataTransportMessage κ τ)).2 =
            [r.result] := (receive_response r hlookup n).2.trans (if_pos rfl)
        rw [hnone]
        rw [settlements] at hnone hdeeds
        rw [hnone, hdeeds]
        rfl
    · rw [if_neg hid, Option.toList_none, hsame]
      refine (congrArg (_ ++ ·) ?_).trans (List.append_nil _)
      cases hlookup : c.pending.lookup r.id with
      | none =>
        simp only [receive, hlookup]
        rfl
      | some m =>
        obtain ⟨-, hm, -⟩ := (h.pending r.id m).mp hlookup
        refine (receive_response r hlookup n).2.trans (if_neg ?_)
        rintro rfl
        exact hid hm

/-- A promise that has not been made is not settled. -/
theorem Knows.settlements_later (h : Knows es c) (msg : DataTransportMessage κ τ)
    (hn : c.nextId ≤ n) : settlements n (history es ++ (c.receive msg).2) = [] := by
  have hlater := h.later n hn
  rw [settlements] at hlater
  rw [settlements, List.filterMap_append, hlater, List.nil_append]
  cases msg with
  | request r => rfl
  | response r =>
    cases hlookup : c.pending.lookup r.id with
    | none =>
      simp only [receive, hlookup]
      rfl
    | some m =>
      have hlt := ((h.pending r.id m).mp hlookup).1
      exact (receive_response r hlookup n).2.trans
        (if_neg (Nat.ne_of_lt (Nat.lt_of_lt_of_le hlt hn)))

/-- A message comes in. -/
theorem Knows.receive {msg : DataTransportMessage κ τ} (h : Knows es c)
    (hhistory : history (es ++ [.receive msg]) = history es ++ (c.receive msg).2) :
    Knows (es ++ [.receive msg]) (c.receive msg).1 := by
  obtain ⟨hsent, hnext⟩ := c.sent_receive msg
  have hcount : (es ++ [ClientEvent.receive msg]).filterMap ClientEvent.sends? =
      es.filterMap ClientEvent.sends? := by
    rw [List.filterMap_append]
    exact List.append_nil _
  refine ⟨?_, ?_, ?_, ?_, fun n => ?_, fun n hn => ?_, fun id n => ?_⟩
  · rw [hcount, hnext]
    exact h.count
  · rw [hhistory, List.filterMap_append, hsent, List.append_nil, hcount]
    exact h.sent
  · rw [hhistory, List.filterMap_append, hsent, List.append_nil, hnext]
    exact h.ids
  · intro pre cmd thrown post hsplit
    rcases List.split_concat hsplit with ⟨-, heq, -⟩ | ⟨post, rfl, hes⟩
    · cases heq
    · have hlt : (pre.filterMap ClientEvent.sends?).length < c.nextId := by
        rw [← h.count, hes, List.filterMap_append, List.length_append]
        exact Nat.lt_add_of_pos_right (Nat.succ_pos _)
      rw [hhistory, h.settlements_receive msg hlt, h.settled pre cmd thrown post hes,
        answers_concat]
      exact take_one_append _ _
  · rw [hhistory]
    rcases Nat.lt_or_ge n c.nextId with hn | hn
    · rw [h.settlements_receive msg hn]
      exact List.length_take_le 1 _
    · rw [h.settlements_later msg hn]
      exact Nat.zero_le 1
  · rw [hhistory]
    rw [hnext] at hn
    exact h.settlements_later msg hn
  · rw [hhistory, hnext, lookup_receive, h.pending]
    constructor
    · rintro ⟨⟨hn, rfl, hnone⟩, hanswers⟩
      refine ⟨hn, rfl, ?_⟩
      rw [h.settlements_receive msg hn, hnone, hanswers]
      rfl
    · rintro ⟨hn, rfl, hnone⟩
      rw [h.settlements_receive msg hn, List.take_eq_nil_iff, List.append_eq_nil_iff,
        Option.toList_eq_nil_iff] at hnone
      obtain ⟨hnone, hanswers⟩ := hnone.resolve_left Nat.one_ne_zero
      exact ⟨⟨hn, rfl, hnone⟩, hanswers⟩

/-- Every client knows it, as long as the connection accepts what it is given. -/
theorem knows_of_run (hrun : machine.run new es = some c)
    (haccepted : ∀ e ∈ es, e.accepted = true) : Knows es c := by
  refine StateMachine.run_induction (M := machine)
    (P := fun es c => (∀ e ∈ es, e.accepted = true) → Knows es c) (fun _ => knows_nil) ?_ hrun
    haccepted
  intro es c e c' hrun ih hstep haccepted
  have h := ih fun e he => haccepted e (List.mem_append_left _ he)
  obtain rfl := Option.some.inj hstep
  have hlast := haccepted e (List.mem_append_right _ (List.mem_singleton_self _))
  cases e with
  | send cmd thrown =>
    obtain rfl := Option.isNone_iff_eq_none.mp hlast
    exact h.send (history_concat hrun)
  | receive msg => exact h.receive (history_concat hrun)

/-- **Requests and responses belong together**, in every run over a connection that accepts the
requests. -/
theorem correlated (hrun : machine.run new es = some c)
    (haccepted : ∀ e ∈ es, e.accepted = true) : Correlated es c := by
  have h := knows_of_run hrun haccepted
  refine ⟨h.sent, h.ids, ?_, h.settled, h.pending⟩
  rw [h.ids]
  exact List.nodup_range.map fun _ _ => Nat.repr_injective

/-- Two requests are answered in the wrong order, and the second one twice. -/
def reordered : List (ClientEvent Unit Bool) :=
  [.send () none, .send () none, .receive (.response ⟨"1", .ok true⟩),
    .receive (.response ⟨"1", .error "late"⟩), .receive (.response ⟨"0", .ok false⟩)]

theorem correlated_reordered : ∃ c, machine.run new reordered = some c ∧ Correlated reordered c :=
  ⟨_, rfl, correlated rfl (by decide)⟩

end DispatchClient

end Ts

end Vamp
