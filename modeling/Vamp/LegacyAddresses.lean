import Vamp.LegacyServer

/-!
# Who owns an address

The routing table and the lists of addresses of the connections say the same thing twice. They
are updated in different places, and agree after every step: an address is in the table under
a socket if and only if it is in the list of that socket's live connection (`Owned`). So
nobody can take an address over (`addresses_owned`), and a destination that is in the table
has a live connection.

The lists grow with every message that is accepted, though, and not with every address. The
limit is checked against their length; it counts messages (`limit_counts_addresses_iff`).
-/

namespace Vamp

namespace Legacy

/-! ## What the operations do to the tables -/

namespace SharedState

variable {s : SharedState} {i j : SocketId} {a b : Address}

/-- The addresses of a live connection. -/
def addrs (s : SharedState) (i : SocketId) : Option (List Address) :=
  (s.connections.lookup i).map ConnectionInfo.localAddrs

theorem refs_eq_addrs (s : SharedState) (i : SocketId) :
    s.refs i = (s.addrs i).elim 0 List.length := by
  rw [refs, addrs]
  cases s.connections.lookup i with
  | none => rfl
  | some c => rfl

theorem addrs_connect (s : SharedState) (i j : SocketId) :
    (s.connect i).addrs j = if j = i then some [] else s.addrs j := by
  rw [addrs, connect, Finmap.lookup_insert_eq_ite]
  split
  · rfl
  · rfl

theorem addrs_deafen (s : SharedState) (i j : SocketId) : (s.deafen i).addrs j = s.addrs j := by
  unfold deafen addrs
  cases hi : s.connections.lookup i with
  | none => rfl
  | some c =>
    dsimp only
    rw [Finmap.lookup_insert_eq_ite]
    split
    · case isTrue hj => rw [hj, hi, Option.map_some, Option.map_some]
    · rfl

theorem rTable_deafen (s : SharedState) (i : SocketId) : (s.deafen i).rTable = s.rTable := by
  unfold deafen
  split
  · rfl
  · rfl

theorem addrs_register (s : SharedState) (i j : SocketId) (a : Address) :
    (Rs.register s i a).addrs j =
      if j = i then (s.addrs i).map (· ++ [a]) else s.addrs j := by
  unfold Rs.register addrs
  cases hi : s.connections.lookup i with
  | none =>
    dsimp only
    split
    · case isTrue hj => rw [hj, hi, Option.map_none, Option.map_none]
    · rfl
  | some c =>
    dsimp only
    rw [Finmap.lookup_insert_eq_ite]
    split
    · rfl
    · rfl

theorem rTable_register (s : SharedState) (i : SocketId) (a b : Address) :
    (Rs.register s i a).rTable.lookup b = if b = a then some i else s.rTable.lookup b :=
  Finmap.lookup_insert_eq_ite ..

theorem addrs_cleanup (s : SharedState) (i j : SocketId) :
    (Rs.cleanup i s).addrs j = if j = i then none else s.addrs j := by
  unfold Rs.cleanup addrs
  cases hi : s.connections.lookup i with
  | none =>
    dsimp only
    split
    · case isTrue hj => rw [hj, hi, Option.map_none]
    · rfl
  | some c =>
    dsimp only
    rw [Finmap.lookup_erase_eq_ite]
    split
    · rfl
    · rfl

/-- The addresses of the connection are removed. -/
theorem rTable_cleanup_of_mem {as : List Address} (hi : s.addrs i = some as) (ha : a ∈ as) :
    (Rs.cleanup i s).rTable.lookup a = none := by
  obtain ⟨c, hc, rfl⟩ := Option.map_eq_some_iff.mp hi
  simp only [Rs.cleanup, hc]
  exact Finmap.lookup_eraseAll_of_mem ha

/-- All others stay. -/
theorem rTable_cleanup_of_not_mem (ha : ∀ as, s.addrs i = some as → a ∉ as) :
    (Rs.cleanup i s).rTable.lookup a = s.rTable.lookup a := by
  unfold Rs.cleanup
  cases hi : s.connections.lookup i with
  | none => rfl
  | some c =>
    have haddrs : s.addrs i = some c.localAddrs := by rw [addrs, hi, Option.map_some]
    exact Finmap.lookup_eraseAll_of_not_mem (ha _ haddrs)

/-! ## The two tables agree -/

/-- **The tables agree**: the routing table says who has an address, and so does the list of the
owner's connection. -/
structure Owned (s : SharedState) : Prop where
  /-- an address is under a socket in the table iff it is in the list of the socket -/
  owner : ∀ a i, s.rTable.lookup a = some i ↔ ∃ as, s.addrs i = some as ∧ a ∈ as

theorem owned_new : Owned .new where
  owner a i := by
    refine iff_of_false (fun h => ?_) ?_
    · cases (Finmap.lookup_empty a).symm.trans h
    · rintro ⟨as, has, -⟩
      have hnone : SharedState.new.addrs i = none := by
        rw [addrs, SharedState.new, Finmap.lookup_empty, Option.map_none]
      cases hnone.symm.trans has

namespace Owned

variable (h : s.Owned)

include h

/-- An address has one owner. -/
theorem unique {as bs : List Address} (hi : s.addrs i = some as) (ha : a ∈ as)
    (hj : s.addrs j = some bs) (hb : a ∈ bs) : i = j :=
  Option.some.inj (((h.owner a i).mpr ⟨as, hi, ha⟩).symm.trans ((h.owner a j).mpr ⟨bs, hj, hb⟩))

/-- A new connection has no addresses yet. -/
theorem connect (hnew : s.addrs i = none) : (s.connect i).Owned where
  owner a j := by
    have htable : (s.connect i).rTable = s.rTable := rfl
    rw [htable, h.owner, addrs_connect]
    by_cases hj : j = i
    · subst hj
      simp [hnew]
    · rw [if_neg hj]

theorem deafen (i : SocketId) : (s.deafen i).Owned where
  owner a j := by
    rw [rTable_deafen, addrs_deafen, h.owner]

/-- Registering an address that nobody else has. -/
theorem register {as : List Address} (hi : s.addrs i = some as)
    (hfree : s.claimedByOther i a = false) : (Rs.register s i a).Owned where
  owner b j := by
    rw [rTable_register, addrs_register]
    by_cases hj : j = i
    · subst hj
      rw [if_pos rfl, hi]
      simp only [Option.map_some, Option.some.injEq, exists_eq_left', List.mem_append,
        List.mem_singleton]
      by_cases hb : b = a
      · rw [if_pos hb]
        exact iff_of_true rfl (Or.inr hb)
      · rw [if_neg hb, h.owner, hi]
        simp only [Option.some.injEq, exists_eq_left', hb, or_false]
    · rw [if_neg hj]
      by_cases hb : b = a
      · subst hb
        rw [if_pos rfl, Option.some.injEq]
        refine iff_of_false (fun heq => hj heq.symm) fun hown => ?_
        exact hj (claimedByOther_eq_false.mp hfree j ((h.owner b j).mpr hown))
      · rw [if_neg hb, h.owner]

/-- What is removed from the table belongs to the socket that is closed. -/
theorem lookup_cleanup (i : SocketId) (a : Address) :
    (Rs.cleanup i s).rTable.lookup a =
      if s.rTable.lookup a = some i then none else s.rTable.lookup a := by
  by_cases hown : s.rTable.lookup a = some i
  · obtain ⟨as, has, ha⟩ := (h.owner a i).mp hown
    rw [if_pos hown, rTable_cleanup_of_mem has ha]
  · rw [if_neg hown, rTable_cleanup_of_not_mem]
    intro as has ha
    exact hown ((h.owner a i).mpr ⟨as, has, ha⟩)

theorem cleanup (i : SocketId) : (Rs.cleanup i s).Owned where
  owner a j := by
    rw [h.lookup_cleanup, addrs_cleanup]
    by_cases hj : j = i
    · subst hj
      rw [if_pos rfl]
      refine iff_of_false ?_ (by simp)
      split
      · exact nofun
      · case isFalse hne => exact hne
    · rw [if_neg hj, ← h.owner]
      split
      · case isTrue hi =>
        refine iff_of_false nofun fun hown => hj ?_
        exact Option.some.inj (hown.symm.trans hi)
      · rfl

/-- What is in the table has a live connection. -/
theorem live (howner : s.rTable.lookup a = some i) : ∃ c, s.connections.lookup i = some c := by
  obtain ⟨as, has, -⟩ := (h.owner a i).mp howner
  obtain ⟨c, hc, -⟩ := Option.map_eq_some_iff.mp has
  exact ⟨c, hc⟩

end Owned

end SharedState

/-! ## Runs -/

section Messages

variable {read : Message → Option SSMsg} {s : SharedState} {i : SocketId} {raw : Message}

theorem accepts_of_registered {data : SSMsg}
    (h : Rs.handleMessage i raw data s = (Rs.register s i data.src,
      if data.dst = data.src then ⟨.announced, []⟩
      else Rs.forward (Rs.register s i data.src) i raw data.dst)) :
    (Rs.handleMessage i raw data s).2.branch.accepts = true := by
  rw [h]
  dsimp only
  split
  · rfl
  · exact Rs.forward_accepts ..

/-- What the handling of a message can do to the tables: nothing, or an address is registered
that is free. -/
theorem message_cases (read : Message → Option SSMsg) (i : SocketId) (raw : Message)
    (s : SharedState) :
    (((wsserver read).message i raw s).1 = s ∧
      ((wsserver read).message i raw s).2.branch.accepts = false) ∨
    ∃ data, read raw = some data ∧ s.Passes i data ∧ s.refs i ≤ routeLimit ∧
      ((wsserver read).message i raw s).1 = Rs.register s i data.src ∧
      ((wsserver read).message i raw s).2.branch.accepts = true := by
  cases hread : read raw with
  | none =>
    rw [wsserver_skip hread]
    exact .inl ⟨rfl, rfl⟩
  | some data =>
    rw [wsserver_read hread]
    rcases Rs.handleMessage_cases i raw data s with
      ⟨branch, msg, heq, ⟨rfl, -⟩ | ⟨rfl, -⟩ | ⟨rfl, -⟩⟩ | ⟨hpasses, hrefs, heq⟩
    · exact .inl ⟨congrArg Prod.fst heq, by rw [heq]; rfl⟩
    · exact .inl ⟨congrArg Prod.fst heq, by rw [heq]; rfl⟩
    · exact .inl ⟨congrArg Prod.fst heq, by rw [heq]; rfl⟩
    · exact .inr ⟨data, rfl, hpasses, hrefs, congrArg Prod.fst heq, accepts_of_registered heq⟩

/-- When the limit strikes. -/
theorem tooManyRefs_iff : ((wsserver read).message i raw s).2.branch = .tooManyRefs ↔
    ∃ data, read raw = some data ∧ s.Passes i data ∧ routeLimit < s.refs i := by
  cases hread : read raw with
  | none =>
    rw [wsserver_skip hread]
    exact iff_of_false nofun nofun
  | some data =>
    rw [wsserver_read hread]
    simp only [Option.some.injEq, exists_eq_left']
    rcases Rs.handleMessage_cases i raw data s with
      ⟨branch, msg, heq, ⟨rfl, hno⟩ | ⟨rfl, hno⟩ | ⟨rfl, hpasses, hrefs⟩⟩ | ⟨-, hrefs, heq⟩
    · rw [heq]
      exact iff_of_false nofun fun h => hno h.1
    · rw [heq]
      exact iff_of_false nofun fun h => hno h.1
    · rw [heq]
      exact iff_of_true rfl ⟨hpasses, hrefs⟩
    · refine iff_of_false (fun hbranch => ?_) fun h => absurd hrefs (Nat.not_le_of_lt h.2)
      have haccepts := accepts_of_registered heq
      rw [hbranch] at haccepts
      cases haccepts

/-- What passes its checks is accepted, but for the limit. -/
theorem accepts_of_passes {data : SSMsg} (hread : read raw = some data)
    (hpasses : s.Passes i data)
    (hlimit : ((wsserver read).message i raw s).2.branch ≠ .tooManyRefs) :
    ((wsserver read).message i raw s).2.branch.accepts = true := by
  rw [wsserver_read hread] at hlimit ⊢
  rcases Rs.handleMessage_cases i raw data s with
    ⟨branch, msg, heq, ⟨-, hno⟩ | ⟨-, hno⟩ | ⟨rfl, -⟩⟩ | ⟨-, -, heq⟩
  · exact absurd hpasses hno
  · exact absurd hpasses hno
  · rw [heq] at hlimit
    exact absurd rfl hlimit
  · exact accepts_of_registered heq

/-- A message that has passed its checks finds a live connection at its destination. -/
theorem forward_cases {data : SSMsg} {as : List Address} (h : s.Owned) (hi : s.addrs i = some as)
    (hpasses : s.Passes i data) (hne : data.dst ≠ data.src) :
    ∃ d c, (Rs.register s i data.src).rTable.lookup data.dst = some d ∧
      (Rs.register s i data.src).connections.lookup d = some c ∧
      Rs.forward (Rs.register s i data.src) i raw data.dst =
        if c.listening then ⟨.forwarded d, [(d, raw)]⟩
        else ⟨.forwardFailed d,
          Rs.reply (Rs.register s i data.src) i "Failed to forward message"⟩ := by
  obtain ⟨d, hd⟩ := (SharedState.dstUnknown_eq_false.mp hpasses.dst).resolve_left hne
  have hd' : (Rs.register s i data.src).rTable.lookup data.dst = some d := by
    rw [SharedState.rTable_register, if_neg hne, hd]
  obtain ⟨c, hc⟩ := (h.register hi hpasses.src).live hd'
  refine ⟨d, c, hd', hc, ?_⟩
  simp only [Rs.forward, hd', hc]

/-- Replies go to the sender. -/
theorem mem_reply {msg : String} {f : SocketId × Message} (h : f ∈ Rs.reply s i msg) :
    f = (i, errorMsg msg) := by
  unfold Rs.reply at h
  split at h
  · split at h
    · exact List.mem_singleton.mp h
    · cases h
  · cases h

end Messages

namespace Server

variable {read : Message → Option SSMsg} {s s' : Server} {e : SocketEvent} {outcome : Outcome}

/-- The owner of an address. -/
def owner (s : Server) (a : Address) : Option SocketId := s.shared.rTable.lookup a

/-- The invariant of the server. -/
structure Inv (s : Server) : Prop where
  /-- the sockets that are served are those with a live connection -/
  serving : ∀ i, s.task i = .serving ↔ ∃ as, s.shared.addrs i = some as
  /-- the tables agree -/
  owned : s.shared.Owned

theorem inv_init : Inv init where
  serving i := by
    have hnone : SharedState.new.addrs i = none := by
      rw [SharedState.addrs, SharedState.new, Finmap.lookup_empty, Option.map_none]
    refine iff_of_false nofun ?_
    rintro ⟨as, has⟩
    cases hnone.symm.trans has
  owned := SharedState.owned_new

/-- Every step keeps the invariant. -/
theorem Inv.step (h : s.Inv) (hs : s.step (wsserver read) e = some (s', outcome)) : s'.Inv := by
  rcases step_cases hs with ⟨i, rfl, htask, heq⟩ | ⟨i, raw, rfl, htask, heq⟩ |
    ⟨i, rfl, htask, heq⟩ | ⟨i, rfl, htask, heq⟩
  · obtain ⟨rfl, -⟩ := Prod.mk.inj heq
    have hnew : s.shared.addrs i = none := by
      rw [Option.eq_none_iff_forall_ne_some]
      intro as has
      cases htask.symm.trans ((h.serving i).mpr ⟨as, has⟩)
    refine ⟨fun j => ?_, h.owned.connect hnew⟩
    rw [SharedState.addrs_connect]
    by_cases hj : j = i
    · subst hj
      simp
    · simp [hj, h.serving]
  · obtain ⟨rfl, -⟩ := Prod.mk.inj heq
    obtain ⟨as, has⟩ := (h.serving i).mp htask
    rcases message_cases read i raw s.shared with
      ⟨hsame, -⟩ | ⟨data, -, hpasses, -, hnew, -⟩
    · rw [hsame]
      exact h
    · refine ⟨fun j => ?_, ?_⟩
      · simp only [hnew]
        rw [SharedState.addrs_register, h.serving]
        by_cases hj : j = i
        · subst hj
          simp [has]
        · rw [if_neg hj]
      · simp only [hnew]
        exact h.owned.register has hpasses.src
  · obtain ⟨rfl, -⟩ := Prod.mk.inj heq
    refine ⟨fun j => ?_, h.owned.deafen i⟩
    rw [SharedState.addrs_deafen, h.serving]
  · obtain ⟨rfl, -⟩ := Prod.mk.inj heq
    refine ⟨fun j => ?_, h.owned.cleanup i⟩
    have hclose : (wsserver read).close i s.shared = Rs.cleanup i s.shared := rfl
    rw [hclose, SharedState.addrs_cleanup]
    by_cases hj : j = i
    · subst hj
      simp
    · simp [hj, h.serving]

/-- The invariant holds in every reachable state. -/
theorem reachable_inv (h : (machine (wsserver read)).Reachable s) : s.Inv := by
  refine StateMachine.invariant (M := machine (wsserver read)) inv_init ?_ h
  intro s e s' _ hI hs
  obtain ⟨outcome, hs⟩ := machine_step_eq_some.mp hs
  exact hI.step hs

/-- What is expected of a step, as far as addresses are concerned. -/
structure Orderly (read : Message → Option SSMsg) (s : Server) (e : SocketEvent) (s' : Server)
    (outcome : Outcome) : Prop where
  /-- an owner stays the owner until it is closed -/
  stable : ∀ a i, s.owner a = some i → s'.owner a = some i ∨ e = .close i
  /-- a socket that is closed loses all its addresses, and nobody else loses any -/
  released : ∀ i, e = .close i → ∀ a, s'.owner a = if s.owner a = some i then none else s.owner a
  /-- a frame that is forwarded is the message, and goes to the owner of its `dst` -/
  forwarded : ∀ d, outcome.branch = .forwarded d → ∃ i raw data, e = .message i raw ∧
    read raw = some data ∧ s'.owner data.dst = some d ∧ outcome.sent = [(d, raw)]
  /-- everything else that is sent is an error, for the sender of the message -/
  replies : (∀ d, outcome.branch ≠ .forwarded d) → ∀ f ∈ outcome.sent, ∃ i raw msg,
    e = .message i raw ∧ f = (i, errorMsg msg)
  /-- a `dst` has a live connection -/
  live : outcome.branch ≠ .noConnection

/-- A step that only leaves owners in place, and sends nothing. -/
theorem orderly_of_quiet (hclose : ∀ i, e ≠ .close i) (howner : ∀ a, s'.owner a = s.owner a) :
    Orderly read s e s' ⟨.skipped, []⟩ where
  stable a _ h := .inl ((howner a).trans h)
  released _ h := absurd h (hclose _)
  forwarded := nofun
  replies := nofun
  live := nofun

/-- A step that handles a message takes no address away. -/
theorem orderly_of_message {i : SocketId} {raw : Message}
    (hstable : ∀ a j, s.owner a = some j → s'.owner a = some j)
    (hforwarded : ∀ d, outcome.branch = .forwarded d → ∃ data, read raw = some data ∧
      s'.owner data.dst = some d ∧ outcome.sent = [(d, raw)])
    (hreplies : (∀ d, outcome.branch ≠ .forwarded d) → ∀ f ∈ outcome.sent, ∃ msg,
      f = (i, errorMsg msg))
    (hlive : outcome.branch ≠ .noConnection) :
    Orderly read s (.message i raw) s' outcome where
  stable a j hj := .inl (hstable a j hj)
  released _ h := nomatch h
  forwarded d hd := by
    obtain ⟨data, hread, howner, hsent⟩ := hforwarded d hd
    exact ⟨i, raw, data, rfl, hread, howner, hsent⟩
  replies hno f hf := by
    obtain ⟨msg, heq⟩ := hreplies hno f hf
    exact ⟨i, raw, msg, rfl, heq⟩
  live := hlive

/-- **A step of the server** is orderly. -/
theorem Inv.orderly (h : s.Inv) (hs : s.step (wsserver read) e = some (s', outcome)) :
    Orderly read s e s' outcome := by
  rcases step_cases hs with ⟨i, rfl, htask, heq⟩ | ⟨i, raw, rfl, htask, heq⟩ |
    ⟨i, rfl, htask, heq⟩ | ⟨i, rfl, htask, heq⟩
  · obtain ⟨rfl, rfl⟩ := Prod.mk.inj heq
    exact orderly_of_quiet (fun _ h => nomatch h) fun a => rfl
  · obtain ⟨rfl, rfl⟩ := Prod.mk.inj heq
    obtain ⟨as, has⟩ := (h.serving i).mp htask
    cases hread : read raw with
    | none =>
      rw [wsserver_skip hread]
      exact orderly_of_quiet (fun _ h => nomatch h) fun a => rfl
    | some data =>
      rw [wsserver_read hread]
      rcases Rs.handleMessage_cases i raw data s.shared with
        ⟨branch, msg, heq, hwhy⟩ | ⟨hpasses, -, heq⟩
      · -- refused
        have hbranch : branch = .claimed ∨ branch = .dstNotFound ∨ branch = .tooManyRefs :=
          hwhy.imp And.left (Or.imp And.left And.left)
        simp only [heq]
        refine orderly_of_message (fun a j hj => hj) ?_ ?_ ?_
        · rintro d rfl
          rcases hbranch with hb | hb | hb <;> cases hb
        · intro _ f hf
          exact ⟨msg, mem_reply hf⟩
        · rintro rfl
          rcases hbranch with hb | hb | hb <;> cases hb
      · -- registered
        simp only [heq]
        have hstable : ∀ a j, s.owner a = some j →
            (Rs.register s.shared i data.src).rTable.lookup a = some j := by
          intro a j hj
          rw [SharedState.rTable_register]
          split
          · case isTrue ha =>
            rw [ha] at hj
            rw [SharedState.claimedByOther_eq_false.mp hpasses.src j hj]
          · exact hj
        by_cases hself : data.dst = data.src
        · rw [if_pos hself]
          exact orderly_of_message hstable nofun nofun nofun
        · rw [if_neg hself]
          obtain ⟨d, c, hd, -, hforward⟩ := forward_cases h.owned has hpasses hself
          rw [hforward]
          cases c.listening with
          | true =>
            refine orderly_of_message hstable ?_ ?_ nofun
            · rintro d' hd'
              obtain rfl := Branch.forwarded.inj hd'
              exact ⟨data, hread, hd, rfl⟩
            · intro hno
              exact absurd rfl (hno d)
          | false =>
            refine orderly_of_message hstable nofun ?_ nofun
            intro _ f hf
            exact ⟨_, mem_reply hf⟩
  · obtain ⟨rfl, rfl⟩ := Prod.mk.inj heq
    refine orderly_of_quiet (fun _ h => nomatch h) fun a => ?_
    exact congrArg (Finmap.lookup a) (SharedState.rTable_deafen s.shared i)
  · obtain ⟨rfl, rfl⟩ := Prod.mk.inj heq
    have hreleased : ∀ a, (Rs.cleanup i s.shared).rTable.lookup a =
        if s.owner a = some i then none else s.owner a := h.owned.lookup_cleanup i
    refine ⟨fun a j hj => ?_, ?_, nofun, nofun, nofun⟩
    · by_cases hi : j = i
      · subst hi
        exact .inr rfl
      · refine .inl ((hreleased a).trans ?_)
        rw [if_neg fun heq => hi (Option.some.inj (hj.symm.trans heq)), hj]
    · rintro j hj a
      obtain rfl := SocketEvent.close.inj hj
      exact hreleased a

/-- Addresses are owned as they should be: the two tables agree, nobody shares an address, and
every step is orderly. -/
structure AddressesOwned (read : Message → Option SSMsg) (s : Server) : Prop where
  /-- the routing table and the lists of the connections agree -/
  agree : ∀ a i, s.owner a = some i ↔
    ∃ c, s.shared.connections.lookup i = some c ∧ a ∈ c.localAddrs
  /-- an address is in one list only -/
  unique : ∀ a i j c d, s.shared.connections.lookup i = some c → a ∈ c.localAddrs →
    s.shared.connections.lookup j = some d → a ∈ d.localAddrs → i = j
  /-- every step -/
  orderly : ∀ e s' outcome, s.step (wsserver read) e = some (s', outcome) →
    Orderly read s e s' outcome

/-- **Address ownership**, in every state of every run, whatever `serde_json` makes of a text. -/
theorem addresses_owned (fromStr : String → Option SSMsg)
    (h : (machine (wsserver (Rs.read fromStr))).Reachable s) :
    AddressesOwned (Rs.read fromStr) s := by
  have hI := reachable_inv h
  have hagree : ∀ a i, s.owner a = some i ↔
      ∃ c, s.shared.connections.lookup i = some c ∧ a ∈ c.localAddrs := by
    intro a i
    refine (hI.owned.owner a i).trans ?_
    simp only [SharedState.addrs, Option.map_eq_some_iff, exists_exists_and_eq_and]
  refine ⟨hagree, ?_, fun e s' outcome hs => hI.orderly hs⟩
  intro a i j c d hc ha hd hb
  have hi := (hagree a i).mpr ⟨c, hc, ha⟩
  have hj := (hagree a j).mpr ⟨d, hd, hb⟩
  exact Option.some.inj (hi.symm.trans hj)

/-- Every text announces the address `a`. -/
def announceA (_ : String) : Option SSMsg := some ⟨[97], [97]⟩

/-- A socket is opened, and announces `a`. -/
def announced : List SocketEvent := [.connect 0, .message 0 (.text "a")]

theorem addresses_owned_announced :
    AddressesOwned (Rs.read announceA)
      (((machine (wsserver (Rs.read announceA))).run init announced).get rfl) :=
  addresses_owned announceA ⟨announced, (Option.some_get _).symm⟩

/-! ## The limit -/

/-- The messages of a socket that are accepted. -/
def acceptedOf (p : Program) (i : SocketId) (s : Server) : SocketEvent → List Message
  | .message j raw =>
    if j = i ∧ (s.step p (.message j raw)).any fun r => r.2.branch.accepts then [raw] else []
  | _ => []

/-- The messages of a socket that were accepted in a run. -/
def accepted (p : Program) (es : List SocketEvent) (i : SocketId) : List Message :=
  (machine p).trace (acceptedOf p i) init es

/-- The sources that a socket has used in a run, whether accepted or not. -/
def used (read : Message → Option SSMsg) (es : List SocketEvent) (i : SocketId) :
    List Address :=
  es.flatMap fun
    | .message j raw => if j = i then ((read raw).map SSMsg.src).toList else []
    | _ => []

/-- So far the socket has used at most three addresses, none of them another's. -/
structure Modest (read : Message → Option SSMsg) (es : List SocketEvent) (s : Server)
    (i : SocketId) : Prop where
  /-- three at most -/
  few : (used read es i).toFinset.card ≤ routeLimit + 1
  /-- nobody else owns them -/
  own : ∀ a ∈ used read es i, ∀ j, s.owner a = some j → j = i

/-- The limit counts addresses: in a run no modest socket is told that it has too many refs, its
messages keep being accepted, and a fourth address is refused, without a trace. -/
def LimitCountsAddresses (p : Program) (read : Message → Option SSMsg)
    (es : List SocketEvent) : Prop :=
  ∀ pre i raw post s s' outcome, es = pre ++ .message i raw :: post →
    (machine p).run init pre = some s → s.step p (.message i raw) = some (s', outcome) →
    (Modest read (pre ++ [.message i raw]) s i → outcome.branch ≠ .tooManyRefs ∧
      ∀ data, read raw = some data → s.shared.Passes i data → outcome.branch.accepts = true) ∧
    ∀ data as, read raw = some data → s.shared.addrs i = some as →
      routeLimit < as.toFinset.card → data.src ∉ as → outcome.branch.accepts = false ∧ s' = s

/-- A modest socket, when it sends a message whose addresses are in order, has had at most two
messages accepted. -/
def ThreeAreEnough (p : Program) (read : Message → Option SSMsg) (es : List SocketEvent) : Prop :=
  ∀ pre i raw post s data, es = pre ++ .message i raw :: post →
    (machine p).run init pre = some s → s.task i = .serving → read raw = some data →
    Modest read (pre ++ [.message i raw]) s i → s.shared.Passes i data →
    (accepted p pre i).length ≤ routeLimit

/-- What a step does to the list of one socket, and what it accepts from it. -/
theorem Inv.step_addrs (h : s.Inv) (hs : s.step (wsserver read) e = some (s', outcome))
    (i : SocketId) :
    (s'.shared.addrs i = s.shared.addrs i ∧ (s'.task i = .absent → s.task i = .absent) ∧
      acceptedOf (wsserver read) i s e = []) ∨
    (s.task i = .absent ∧ s'.shared.addrs i = some [] ∧ s'.task i ≠ .absent ∧
      acceptedOf (wsserver read) i s e = []) ∨
    (∃ as a raw, s.shared.addrs i = some as ∧ s'.shared.addrs i = some (as ++ [a]) ∧
      s'.task i ≠ .absent ∧ acceptedOf (wsserver read) i s e = [raw]) ∨
    (s'.shared.addrs i = none ∧ s'.task i ≠ .absent ∧ acceptedOf (wsserver read) i s e = []) := by
  rcases step_cases hs with ⟨j, rfl, htask, heq⟩ | ⟨j, raw, rfl, htask, heq⟩ |
    ⟨j, rfl, htask, heq⟩ | ⟨j, rfl, htask, heq⟩
  · obtain ⟨rfl, -⟩ := Prod.mk.inj heq
    by_cases hij : i = j
    · subst hij
      exact .inr (.inl ⟨htask, by rw [SharedState.addrs_connect, if_pos rfl], by simp, rfl⟩)
    · refine .inl ⟨by rw [SharedState.addrs_connect, if_neg hij], fun hi => ?_, rfl⟩
      exact (Function.update_of_ne hij ..).symm.trans hi
  · obtain ⟨rfl, rfl⟩ := Prod.mk.inj heq
    have hthis : acceptedOf (wsserver read) j s (.message j raw) =
        if ((wsserver read).message j raw s.shared).2.branch.accepts then [raw] else [] := by
      rw [acceptedOf, hs, Option.any_some]
      simp only [true_and]
    by_cases hij : i = j
    · subst hij
      rcases message_cases read i raw s.shared with ⟨hsame, hno⟩ | ⟨data, -, -, -, hnew, hyes⟩
      · refine .inl ⟨congrArg (SharedState.addrs · i) hsame, id, ?_⟩
        rw [hthis, hno, if_neg Bool.false_ne_true]
      · obtain ⟨as, has⟩ := (h.serving i).mp htask
        refine .inr (.inr (.inl ⟨as, data.src, raw, has, ?_, ?_, ?_⟩))
        · dsimp only
          rw [hnew, SharedState.addrs_register, if_pos rfl, has, Option.map_some]
        · rw [htask]
          exact nofun
        · rw [hthis, hyes, if_pos rfl]
    · -- the list of another socket
      refine .inl ⟨?_, id, if_neg fun h => hij h.1.symm⟩
      rcases message_cases read j raw s.shared with ⟨hsame, -⟩ | ⟨data, -, -, -, hnew, -⟩
      · exact congrArg (SharedState.addrs · i) hsame
      · dsimp only
        rw [hnew, SharedState.addrs_register, if_neg hij]
  · obtain ⟨rfl, -⟩ := Prod.mk.inj heq
    exact .inl ⟨SharedState.addrs_deafen .., id, rfl⟩
  · obtain ⟨rfl, -⟩ := Prod.mk.inj heq
    have hclose : (wsserver read).close j s.shared = Rs.cleanup j s.shared := rfl
    simp only [hclose, SharedState.addrs_cleanup]
    by_cases hij : i = j
    · subst hij
      exact .inr (.inr (.inr ⟨if_pos rfl, by simp, rfl⟩))
    · exact .inl ⟨if_neg hij, fun hi => (Function.update_of_ne hij ..).symm.trans hi, rfl⟩

/-- **What the list counts**: the messages that were accepted. -/
theorem length_addrs {es : List SocketEvent}
    (hrun : (machine (wsserver read)).run init es = some s) :
    (∀ i as, s.shared.addrs i = some as →
      as.length = (accepted (wsserver read) es i).length) ∧
    ∀ i, s.task i = .absent → accepted (wsserver read) es i = [] := by
  refine StateMachine.run_induction (M := machine (wsserver read))
    (P := fun es s => (∀ i as, s.shared.addrs i = some as →
      as.length = (accepted (wsserver read) es i).length) ∧
      ∀ i, s.task i = .absent → accepted (wsserver read) es i = []) ?_ ?_ hrun
  · refine ⟨fun i as has => ?_, fun i _ => rfl⟩
    exact absurd ((inv_init.serving i).mpr ⟨as, has⟩) nofun
  · rintro es s e s' hes ⟨hlength, habsent⟩ hs
    have htrace : ∀ i, accepted (wsserver read) (es ++ [e]) i =
        accepted (wsserver read) es i ++ acceptedOf (wsserver read) i s e := fun i =>
      StateMachine.trace_concat hes hs
    have hI : s.Inv := reachable_inv ⟨es, hes⟩
    obtain ⟨outcome, hs⟩ := machine_step_eq_some.mp hs
    refine ⟨fun i as' has' => ?_, fun i hi => ?_⟩
    · rcases hI.step_addrs hs i with ⟨hsame, -, hnone⟩ | ⟨htask, hnew, -, hnone⟩ |
        ⟨as, a, raw, has, hgrown, -, hone⟩ | ⟨hgone, -⟩
      · rw [htrace, hnone, List.append_nil]
        exact hlength i as' (hsame.symm.trans has')
      · obtain rfl := Option.some.inj (hnew.symm.trans has')
        rw [htrace, hnone, habsent i htask]
        rfl
      · obtain rfl := Option.some.inj (hgrown.symm.trans has')
        rw [htrace, hone, List.length_append, List.length_append, hlength i as has]
        rfl
      · cases hgone.symm.trans has'
    · rcases hI.step_addrs hs i with ⟨-, hold, hnone⟩ | ⟨-, -, hthere, -⟩ |
        ⟨_, _, _, -, -, hthere, -⟩ | ⟨-, hthere, -⟩
      · rw [htrace, hnone, habsent i (hold hi)]
        rfl
      · exact absurd hi hthere
      · exact absurd hi hthere
      · exact absurd hi hthere

/-- The limit is about the number of messages accepted so far. -/
theorem tooManyRefs_iff_accepted {es : List SocketEvent} {i : SocketId} {raw : Message}
    (hrun : (machine (wsserver read)).run init es = some s) (htask : s.task i = .serving) :
    ((wsserver read).message i raw s.shared).2.branch = .tooManyRefs ↔
      ∃ data, read raw = some data ∧ s.shared.Passes i data ∧
        routeLimit < (accepted (wsserver read) es i).length := by
  obtain ⟨as, has⟩ := ((reachable_inv ⟨es, hrun⟩).serving i).mp htask
  rw [tooManyRefs_iff, SharedState.refs_eq_addrs, has, Option.elim_some,
    (length_addrs hrun).1 i as has]

/-- A fourth address is refused: there are as many messages as addresses, if not more. -/
theorem fourth_refused {i : SocketId} {raw : Message} {as : List Address}
    (has : s.shared.addrs i = some as) (hfour : routeLimit < as.toFinset.card)
    (hs : s.step (wsserver read) (.message i raw) = some (s', outcome)) :
    outcome.branch.accepts = false ∧ s' = s := by
  rcases step_cases hs with ⟨j, hj, -⟩ | ⟨j, raw', hj, -, heq⟩ | ⟨j, hj, -⟩ | ⟨j, hj, -⟩
  · cases hj
  · cases hj
    obtain ⟨rfl, rfl⟩ := Prod.mk.inj heq
    rcases message_cases read i raw s.shared with ⟨hsame, hno⟩ | ⟨data, -, -, hrefs, -⟩
    · rw [hsame]
      exact ⟨hno, rfl⟩
    · rw [SharedState.refs_eq_addrs, has, Option.elim_some] at hrefs
      have hcard : as.toFinset.card ≤ as.length := as.toFinset_card_le
      omega
  · cases hj
  · cases hj

/-- When the limit counts addresses, in Rust. -/
theorem wsserver_limit_iff (read : Message → Option SSMsg) (es : List SocketEvent) :
    LimitCountsAddresses (wsserver read) read es ↔ ThreeAreEnough (wsserver read) read es := by
  constructor
  · intro h pre i raw post s data hsplit hrun htask hread hmodest hpasses
    by_contra hmany
    have hbranch : ((wsserver read).message i raw s.shared).2.branch = .tooManyRefs :=
      (tooManyRefs_iff_accepted hrun htask).mpr
        ⟨data, hread, hpasses, Nat.lt_of_not_le hmany⟩
    exact ((h pre i raw post s _ _ hsplit hrun (if_pos htask)).1 hmodest).1 hbranch
  · intro h pre i raw post s s' outcome hsplit hrun hs
    refine ⟨fun hmodest => ?_, fun data as _ has hfour _ => fourth_refused has hfour hs⟩
    rcases step_cases hs with ⟨j, hj, -⟩ | ⟨j, raw', hj, htask, heq⟩ | ⟨j, hj, -⟩ | ⟨j, hj, -⟩
    · cases hj
    · cases hj
      obtain ⟨-, rfl⟩ := Prod.mk.inj heq
      have hlimit : ((wsserver read).message i raw s.shared).2.branch ≠ .tooManyRefs := by
        intro hbranch
        obtain ⟨data, hread, hpasses, hmany⟩ := (tooManyRefs_iff_accepted hrun htask).mp hbranch
        have hfew := h pre i raw post s data hsplit hrun htask hread hmodest hpasses
        omega
      exact ⟨hlimit, fun data hread hpasses => accepts_of_passes hread hpasses hlimit⟩
    · cases hj
    · cases hj

/-! ### The original -/

/-- **The port**: in the states that are reached, both programs take the same steps, if they
read messages alike. -/
theorem step_sserver (h : s.Inv) (e : SocketEvent) :
    s.step (sserver read) e = s.step (wsserver read) e := by
  cases e with
  | connect i => rfl
  | message i raw =>
    by_cases htask : s.task i = .serving
    · obtain ⟨as, has⟩ := (h.serving i).mp htask
      obtain ⟨c, hc, -⟩ := Option.map_eq_some_iff.mp has
      have hmessage : (sserver read).message i raw s.shared =
          (wsserver read).message i raw s.shared := by
        cases hread : read raw with
        | none => simp only [sserver, wsserver, hread]
        | some data => simp only [sserver, wsserver, hread, onmessage_eq hc]
      rw [step, step, hmessage]
    · exact (if_neg htask).trans (if_neg htask).symm
  | deafen i => rfl
  | close i => rfl

theorem machine_step_sserver (hs : (machine (wsserver read)).Reachable s) (e : SocketEvent) :
    (machine (sserver read)).step s e = (machine (wsserver read)).step s e :=
  congrArg (Option.map Prod.fst) (step_sserver (reachable_inv hs) e)

theorem run_sserver (read : Message → Option SSMsg) (es : List SocketEvent) :
    (machine (sserver read)).run init es = (machine (wsserver read)).run init es :=
  StateMachine.run_congr (M := machine (wsserver read)) (N := machine (sserver read)) rfl
    (fun _ e hs => machine_step_sserver hs e) es

theorem accepted_sserver {es : List SocketEvent}
    (hrun : (machine (wsserver read)).run init es = some s) (i : SocketId) :
    accepted (sserver read) es i = accepted (wsserver read) es i := by
  refine StateMachine.trace_congr (M := machine (wsserver read)) (N := machine (sserver read))
    rfl (fun _ e hs => machine_step_sserver hs e) ?_ hrun
  intro s e hs
  cases e with
  | message j raw => rw [acceptedOf, acceptedOf, step_sserver (reachable_inv hs)]
  | connect j => rfl
  | deafen j => rfl
  | close j => rfl

/-- When the limit counts addresses, in TypeScript. -/
theorem sserver_limit_iff (read : Message → Option SSMsg) (es : List SocketEvent) :
    LimitCountsAddresses (sserver read) read es ↔ ThreeAreEnough (sserver read) read es := by
  have hlimit : LimitCountsAddresses (sserver read) read es ↔
      LimitCountsAddresses (wsserver read) read es := by
    simp only [LimitCountsAddresses, run_sserver]
    refine forall_congr' fun pre => forall₅_congr fun i raw post s s' => ?_
    refine forall₃_congr fun outcome _ hrun => ?_
    rw [step_sserver (reachable_inv ⟨pre, hrun⟩)]
  have hthree : ThreeAreEnough (sserver read) read es ↔
      ThreeAreEnough (wsserver read) read es := by
    simp only [ThreeAreEnough, run_sserver]
    refine forall_congr' fun pre => forall₅_congr fun i raw post s data => ?_
    refine forall₂_congr fun _ hrun => ?_
    rw [accepted_sserver hrun]
  rw [hlimit, hthree, wsserver_limit_iff]

/-- **What the limit counts**, in either program: it counts addresses in a run if and only if
a socket that uses three at most never has more than three messages accepted. -/
theorem limit_counts_addresses_iff (read : Message → Option SSMsg) (es : List SocketEvent) :
    (LimitCountsAddresses (wsserver read) read es ↔ ThreeAreEnough (wsserver read) read es) ∧
      (LimitCountsAddresses (sserver read) read es ↔ ThreeAreEnough (sserver read) read es) :=
  ⟨wsserver_limit_iff read es, sserver_limit_iff read es⟩

/-- A socket announces `a`, and sends three heartbeats. -/
def heartbeats : List SocketEvent :=
  [.connect 0, .message 0 (.text "a"), .message 0 (.text "a"), .message 0 (.text "a"),
    .message 0 (.text "a")]

theorem modest_heartbeats {s : Server} (howner : s.owner [97] = some 0) :
    Modest (Rs.read announceA) heartbeats s 0 where
  few := by decide
  own := by
    intro a ha j hj
    have ha' : a = [97] := by
      have hused : used (Rs.read announceA) heartbeats 0 = List.replicate 4 [97] := by decide
      rw [hused] at ha
      exact List.eq_of_mem_replicate ha
    rw [ha', howner] at hj
    exact (Option.some.inj hj).symm

/-- Three heartbeats are too many refs. -/
theorem heartbeats_refused :
    ¬ LimitCountsAddresses (wsserver (Rs.read announceA)) (Rs.read announceA) heartbeats ∧
      ¬ LimitCountsAddresses (sserver (Rs.read announceA)) (Rs.read announceA) heartbeats := by
  constructor
  · intro h
    have hlast := h (heartbeats.take 4) 0 (.text "a") [] _ _ _ rfl (Option.some_get rfl).symm rfl
    exact (hlast.1 (modest_heartbeats rfl)).1 rfl
  · intro h
    have hlast := h (heartbeats.take 4) 0 (.text "a") [] _ _ _ rfl (Option.some_get rfl).symm rfl
    exact (hlast.1 (modest_heartbeats rfl)).1 rfl

end Server

end Legacy

end Vamp
