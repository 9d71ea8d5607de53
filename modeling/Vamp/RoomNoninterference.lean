import Vamp.RoutingInvariant

/-!
# Full rooms are undisturbed

The two members of a full room, as long as neither is removed, live as if nobody else
were connected: the run of the server with the events of all other connections purged
shows them the same lookup results and places the same messages in their queues.

The unwinding relation says that two states agree on the room and on its members. An
outsider's seat attempt fails, its removal names itself only, and what it enqueues goes to
members of its own room. A member's step, on the other hand, reads nothing but the room
and its members: a destination outside of the room has been removed, in both runs, and
its queue is closed.
-/

namespace Vamp

variable {V : Type}

/-- The event belongs to one of the connections. -/
def ServerEvent.ofMembers (members : List ConnectionId) (e : ServerEvent) : Bool :=
  e.owner.any fun c => members.contains c

theorem ServerEvent.ofMembers_eq_true {members : List ConnectionId} {e : ServerEvent} :
    e.ofMembers members = true ↔ ∃ c ∈ members, e.owner = some c := by
  rw [ofMembers, Option.any_eq_true]
  constructor
  · rintro ⟨c, howner, hc⟩
    exact ⟨c, List.contains_iff_mem.mp hc, howner⟩
  · rintro ⟨c, hc, howner⟩
    exact ⟨c, howner, List.contains_iff_mem.mpr hc⟩

theorem ServerEvent.ofMembers_eq_false {members : List ConnectionId} {e : ServerEvent} :
    e.ofMembers members = false ↔ ∀ c, e.owner = some c → c ∉ members := by
  rw [← Bool.not_eq_true, ofMembers_eq_true]
  constructor
  · intro h c howner hc
    exact h ⟨c, hc, howner⟩
  · rintro h ⟨c, hc, howner⟩
    exact h c howner hc

namespace Server

/-! ## What the members see -/

/-- What a lookup of `c` returns. -/
def lookupResult (s : Server) (c : ConnectionId) : Option (MyRes ConnectionHandler) :=
  match s.conn c with
  | some k =>
    match k.listen with
    | .locking _ parsed =>
      some (s.state.recordRtrAndGetForwardingQueue parsed.rttTag c parsed.hasPayload).2
    | _ => none
  | none => none

/-- What the members of a room notice of a step. -/
inductive Observation : Type where
  /-- the result of a member's lookup -/
  | looked (c : ConnectionId) (res : Option (MyRes ConnectionHandler)) : Observation
  /-- a message placed in a member's egress queue -/
  | placed (p : Placement) : Observation

/-- What an event shows to the members. -/
def observe (cfg : ServerConfig) (members : List ConnectionId) (s : Server) :
    ServerEvent → List Observation
  | .lookup c => if c ∈ members then [.looked c (s.lookupResult c)] else []
  | .forward c =>
    match s.placement cfg (.forward c) with
    | some p => if p.dst ∈ members then [.placed p] else []
    | none => []
  | _ => []

variable {cfg : ServerConfig} {fromStr : String → Option (WireMsg V)} {s s' : Server}

/-! ## What others cannot do -/

variable {t : RoutingTag} {r : RoutingRecord}

theorem seated_iff (hroom : s.state.rtt.lookup t = some r) {c : ConnectionId} :
    s.state.Seated t c ↔ c ∈ r.pair := by
  rw [ServerState.Seated, ServerState.room_of_lookup hroom]

/-- A message placed in the queue of a member comes from a member. -/
theorem Inv.placement_src (hI : s.Inv) (hroom : s.state.rtt.lookup t = some r)
    {e : ServerEvent} {p : Placement} (hp : s.placement cfg e = some p) (hdst : p.dst ∈ r.pair) :
    p.src ∈ r.pair := by
  obtain ⟨-, k, parsed, kd, hk, hl, -, hkd, -⟩ := placement_eq_some hp
  obtain ⟨-, hsource, -, kd', hkd', htag, -⟩ := hI.forwarding _ k _ parsed _ hk hl
  obtain rfl : kd = kd' := Option.some.inj (hkd.symm.trans hkd')
  obtain ⟨kd', hkd', -, htag'⟩ := hI.seated t p.dst ((seated_iff hroom).mpr hdst)
  obtain rfl : kd = kd' := Option.some.inj (hkd.symm.trans hkd')
  obtain rfl : parsed.rttTag = t := Option.some.inj (htag.symm.trans htag')
  exact (seated_iff hroom).mp hsource

/-- **Outsiders leave a full room alone.** -/
theorem Inv.lookup_step_outsider (hI : s.Inv) (hroom : s.state.rtt.lookup t = some r)
    (hfull : r.isFull = true) {e : ServerEvent} (hout : ∀ c, e.owner = some c → c ∉ r.pair)
    (h : step cfg fromStr s e = some s') : s'.state.rtt.lookup t = some r := by
  cases e with
  | accept =>
    obtain rfl := Option.some.inj h
    exact hroom
  | «open» c now =>
    obtain ⟨-, rfl⟩ := step_open h
    exact hroom
  | record c =>
    obtain ⟨k, -, -, rfl⟩ := step_record h
    exact hroom
  | task c e =>
    obtain ⟨k, k', metrics, -, -, rfl⟩ := step_task h
    exact hroom
  | lookup c =>
    obtain ⟨k, message, parsed, -, -, rfl⟩ := step_lookup h
    by_cases ht : parsed.rttTag = t
    · -- no seat for an outsider
      subst ht
      have hnoseat : ¬ (s.state.room parsed.rttTag).HasSeat c := by
        rw [ServerState.room_of_lookup hroom]
        rintro (hlt | hc)
        · exact absurd (RoutingRecord.isFull_eq_true.mp hfull) (not_le.mpr hlt)
        · exact hout c rfl hc
      rcases hI.recordRtr_cases parsed.rttTag c parsed.hasPayload with
        ⟨-, h'⟩ | ⟨-, -, h'⟩ | ⟨-, r', hr', -⟩
      · rw [h']
        exact hroom
      · rw [h', ServerState.setRoom_self hnoseat]
        exact hroom
      · rw [RoutingRecord.seat_eq_none.mpr hnoseat] at hr'
        cases hr'
    · exact (s.state.recordRtr_lookup_ne _ _ (Ne.symm ht)).trans hroom
  | forward c =>
    rcases step_forward h with ⟨k, message, parsed, dst, kd, -, -, -, ⟨-, rfl⟩ | ⟨-, rfl⟩⟩
    · exact hroom
    · exact hroom
  | remove c =>
    obtain ⟨k, -, -, -, rfl⟩ := step_remove h
    -- its records are not in this room
    have hc : r.remove c = r := RoutingRecord.remove_eq_self (hout c rfl)
    rw [ServerState.lookup_removeRecordsFor, hroom, Option.bind_some, hc,
      if_neg (hI.rooms t r hroom).nonempty, ite_self]

/-! ## What a member's step depends on -/

/-- What a member's lookup returns depends on the room alone. -/
theorem recordRtr_member {c : ConnectionId} (hc : c ∈ r.pair) (t : RoutingTag) (hp : Bool) :
    ∃ res, ∀ s : Server, s.Inv → s.state.rtt.lookup t = some r →
      s.state.recordRtrAndGetForwardingQueue t c hp = (s.state.setRoom t r, res) := by
  have hcases : ∀ s : Server, s.Inv → s.state.rtt.lookup t = some r →
      c ∈ s.state.ct ∧ (s.state.room t).seat c = some r ∧
        ∀ d, r.otherConnection c = some d → s.state.ct.lookup d = some ⟨d⟩ := by
    intro s hI hroom
    have hseat : (s.state.room t).seat c = some r := by
      rw [ServerState.room_of_lookup hroom]
      exact RoutingRecord.seat_self hc
    exact ⟨hI.seated_mem_ct ((seated_iff hroom).mpr hc), hseat,
      fun d hother => (hI.other_mem_ct hseat hother).1⟩
  cases hp with
  | false =>
    refine ⟨.error (buildErr t c "RecordOnly"), fun s hI hroom => ?_⟩
    obtain ⟨hct, hseat, -⟩ := hcases s hI hroom
    simp [ServerState.recordRtrAndGetForwardingQueue, hct, hseat]
  | true =>
    cases hother : r.otherConnection c with
    | none =>
      refine ⟨.error (buildErr t c "No other connection"), fun s hI hroom => ?_⟩
      obtain ⟨hct, hseat, -⟩ := hcases s hI hroom
      simp [ServerState.recordRtrAndGetForwardingQueue, hct, hseat, hother]
    | some d =>
      refine ⟨.ok ⟨d⟩, fun s hI hroom => ?_⟩
      obtain ⟨hct, hseat, hd⟩ := hcases s hI hroom
      simp [ServerState.recordRtrAndGetForwardingQueue, hct, hseat, hother, hd d hother]

/-- The two states agree on a room and on its members. -/
structure Agree (t : RoutingTag) (r : RoutingRecord) (s u : Server) : Prop where
  /-- both states are states of the server -/
  inv : s.Inv ∧ u.Inv
  /-- the room, in both -/
  room : s.state.rtt.lookup t = some r ∧ u.state.rtt.lookup t = some r
  /-- the members -/
  members : ∀ c ∈ r.pair, s.conn c = u.conn c

/-- Replacing a member by the same connection in both states. -/
theorem setConn_conn_congr {u : Server} (hmem : ∀ d ∈ r.pair, s.conn d = u.conn d)
    (c : ConnectionId) (k : Connection) :
    ∀ d ∈ r.pair, (s.setConn c k).conn d = (u.setConn c k).conn d := by
  intro d hd
  by_cases hdc : d = c
  · rw [hdc, conn_setConn_self, conn_setConn_self]
  · rw [conn_setConn_ne _ _ hdc, conn_setConn_ne _ _ hdc, hmem d hd]

/-- A destination outside of the room is gone: its queue takes nothing. -/
theorem Inv.not_accepts_of_outside (hI : s.Inv) (hroom : s.state.rtt.lookup t = some r)
    {c : ConnectionId} {k kd : Connection} {message : Message} {parsed : ParsedMessage}
    {dst : ConnectionHandler} (hc : c ∈ r.pair) (hk : s.conn c = some k)
    (hl : k.listen = .forwarding message parsed dst)
    (hkd : s.conn dst.sendSpscQPutter = some kd) (hout : dst.sendSpscQPutter ∉ r.pair) :
    ¬ kd.Accepts cfg.sendBufferLimit := by
  obtain ⟨-, hsource, -, kd', hkd', -, hgone⟩ := hI.forwarding c k message parsed dst hk hl
  obtain rfl : kd = kd' := Option.some.inj (hkd.symm.trans hkd')
  obtain rfl : parsed.rttTag = t := hI.seated_unique hsource ((seated_iff hroom).mpr hc)
  have hrem : kd.stage = .removed :=
    hgone.resolve_right fun h => hout ((seated_iff hroom).mp h)
  intro hacc
  exact hacc.1 (hI.removed _ kd hkd hrem).egress

section Member

variable {u u' : Server} {e : ServerEvent} {c : ConnectionId}

/-- A member is the same in both states. -/
theorem Agree.member (h : Agree t r s u) (hc : c ∈ r.pair) :
    ∃ k, s.conn c = some k ∧ u.conn c = some k ∧ k.stage = .recorded ∧ k.tag = some t := by
  obtain ⟨k, hk, hrec, htag⟩ := h.inv.1.seated t c ((seated_iff h.room.1).mpr hc)
  exact ⟨k, hk, (h.members c hc).symm.trans hk, hrec, htag⟩

/-- A step keeps both invariants; what is left is the room and the members. -/
theorem Agree.after (h : Agree t r s u) (hs : step cfg fromStr s e = some s')
    (hu : step cfg fromStr u e = some u') (hroom : s'.state.rtt.lookup t = some r)
    (hroom' : u'.state.rtt.lookup t = some r) (hmem : ∀ d ∈ r.pair, s'.conn d = u'.conn d) :
    Agree t r s' u' :=
  ⟨⟨inv_step h.inv.1 hs, inv_step h.inv.2 hu⟩, ⟨hroom, hroom'⟩, hmem⟩

theorem Agree.step_task (h : Agree t r s u) (hc : c ∈ r.pair) {e : TaskEvent}
    (hstep : step cfg fromStr s (.task c e) = some s') :
    ∃ u', step cfg fromStr u (.task c e) = some u' ∧ Agree t r s' u' ∧
      s.observe cfg r.pair (.task c e) = u.observe cfg r.pair (.task c e) := by
  obtain ⟨k, hk, hku, -⟩ := h.member hc
  obtain ⟨k', k₁, metrics, hk', htask, rfl⟩ := Server.step_task hstep
  obtain rfl : k = k' := Option.some.inj (hk.symm.trans hk')
  obtain ⟨metrics', htask'⟩ := Connection.step_metrics htask u.metrics
  have hu : step cfg fromStr u (.task c e) = some { u.setConn c k₁ with metrics := metrics' } := by
    simp only [step, hku, htask']
  exact ⟨_, hu, h.after hstep hu h.room.1 h.room.2 (setConn_conn_congr h.members c k₁), rfl⟩

/-- The lookup sees the room and nothing else. -/
theorem Agree.step_lookup (h : Agree t r s u) (hc : c ∈ r.pair)
    (hstep : step cfg fromStr s (.lookup c) = some s') :
    ∃ u', step cfg fromStr u (.lookup c) = some u' ∧ Agree t r s' u' ∧
      s.observe cfg r.pair (.lookup c) = u.observe cfg r.pair (.lookup c) := by
  obtain ⟨k, hk, hku, -, htag⟩ := h.member hc
  obtain ⟨k', message, parsed, hk', hl, rfl⟩ := Server.step_lookup hstep
  obtain rfl : k = k' := Option.some.inj (hk.symm.trans hk')
  obtain rfl : parsed.rttTag = t :=
    Option.some.inj ((h.inv.1.locking c k message parsed hk hl).symm.trans htag)
  obtain ⟨res, hres⟩ := recordRtr_member hc parsed.rttTag parsed.hasPayload
  have hs := hres s h.inv.1 h.room.1
  have hu := hres u h.inv.2 h.room.2
  have hstep' : step cfg fromStr u (.lookup c) =
      some { u.setConn c (afterLookup k message parsed res) with
        state := u.state.setRoom parsed.rttTag r } := by
    simp only [step, hku, hl, hu]
  refine ⟨_, hstep', h.after hstep hstep' ?_ ?_ ?_, ?_⟩
  · rw [hs, ServerState.lookup_setRoom, if_pos rfl]
  · rw [ServerState.lookup_setRoom, if_pos rfl]
  · rw [hs]
    exact setConn_conn_congr h.members c (afterLookup k message parsed res)
  · simp only [observe, lookupResult, hk, hku, hl, hs, hu]

/-- The destination of a message is the other member, the same in both states; or it has
left before, and nothing is placed in either state. -/
theorem Agree.step_forward (h : Agree t r s u) (hc : c ∈ r.pair)
    (hstep : step cfg fromStr s (.forward c) = some s') :
    ∃ u', step cfg fromStr u (.forward c) = some u' ∧ Agree t r s' u' ∧
      s.observe cfg r.pair (.forward c) = u.observe cfg r.pair (.forward c) := by
  obtain ⟨k, hk, hku, -⟩ := h.member hc
  obtain ⟨k', message, parsed, dst, kd, hk', hl, hkd, hcases⟩ := Server.step_forward hstep
  obtain rfl : k = k' := Option.some.inj (hk.symm.trans hk')
  by_cases hdst : dst.sendSpscQPutter ∈ r.pair
  · have hkdu : u.conn dst.sendSpscQPutter = some kd := (h.members _ hdst).symm.trans hkd
    have hobs : s.observe cfg r.pair (.forward c) = u.observe cfg r.pair (.forward c) := by
      simp only [observe, placement_forward hk hl hkd, placement_forward hku hl hkdu]
    rcases hcases with ⟨hacc, rfl⟩ | ⟨hacc, rfl⟩
    · have hu : step cfg fromStr u (.forward c) =
          some { (u.setConn dst.sendSpscQPutter { kd with queue := kd.queue ++ [message] }).setConn
              c (afterForward k) with
            metrics := u.metrics.recordForwarded } := by
        simp only [step, hku, hl, hkdu, Connection.trySend_eq_some.mpr ⟨hacc, rfl⟩]
      exact ⟨_, hu, h.after hstep hu h.room.1 h.room.2
        (setConn_conn_congr (setConn_conn_congr h.members _ _) c _), hobs⟩
    · have hu : step cfg fromStr u (.forward c) = some (u.setConn c k.finishListen) := by
        simp only [step, hku, hl, hkdu, Connection.trySend_eq_none.mpr hacc]
      exact ⟨_, hu, h.after hstep hu h.room.1 h.room.2 (setConn_conn_congr h.members c _), hobs⟩
  · -- the destination has left: its queue is closed in both states
    obtain ⟨kdu, hkdu, -⟩ := (h.inv.2.forwarding c k message parsed dst hku hl).destination
    have hno : ¬ kd.Accepts cfg.sendBufferLimit :=
      h.inv.1.not_accepts_of_outside h.room.1 hc hk hl hkd hdst
    have hno' : ¬ kdu.Accepts cfg.sendBufferLimit :=
      h.inv.2.not_accepts_of_outside h.room.2 hc hku hl hkdu hdst
    have hobs : s.observe cfg r.pair (.forward c) = u.observe cfg r.pair (.forward c) := by
      simp only [observe, placement_forward hk hl hkd, placement_forward hku hl hkdu,
        if_neg hno, if_neg hno']
    have hu : step cfg fromStr u (.forward c) = some (u.setConn c k.finishListen) := by
      simp only [step, hku, hl, hkdu, Connection.trySend_eq_none.mpr hno']
    rcases hcases with ⟨hacc, -⟩ | ⟨-, rfl⟩
    · exact absurd hacc hno
    · exact ⟨_, hu, h.after hstep hu h.room.1 h.room.2 (setConn_conn_congr h.members c _), hobs⟩

/-- **A member's step** is taken in both states, and looks the same. -/
theorem Agree.step_member (h : Agree t r s u) (hc : c ∈ r.pair) (howner : e.owner = some c)
    (hstay : e ≠ .remove c) (hstep : step cfg fromStr s e = some s') :
    ∃ u', step cfg fromStr u e = some u' ∧ Agree t r s' u' ∧
      s.observe cfg r.pair e = u.observe cfg r.pair e := by
  obtain ⟨k, hk, -, hrec, -⟩ := h.member hc
  cases e with
  | accept => cases howner
  | «open» d now =>
    obtain rfl : d = c := Option.some.inj howner
    obtain ⟨hnone, -⟩ := step_open hstep
    exact absurd (hnone.symm.trans hk) (by simp)
  | record d =>
    obtain rfl : d = c := Option.some.inj howner
    obtain ⟨k', hk', hspawned, -⟩ := step_record hstep
    obtain rfl : k = k' := Option.some.inj (hk.symm.trans hk')
    exact absurd (hspawned.symm.trans hrec) (by simp)
  | remove d =>
    obtain rfl : d = c := Option.some.inj howner
    exact absurd rfl hstay
  | task d e =>
    obtain rfl : d = c := Option.some.inj howner
    exact h.step_task hc hstep
  | lookup d =>
    obtain rfl : d = c := Option.some.inj howner
    exact h.step_lookup hc hstep
  | forward d =>
    obtain rfl : d = c := Option.some.inj howner
    exact h.step_forward hc hstep

end Member

/-- **An outsider's step** goes unnoticed. -/
theorem Agree.step_outsider {u : Server} (h : Agree t r s u) (hfull : r.isFull = true)
    {e : ServerEvent} (hout : ∀ c, e.owner = some c → c ∉ r.pair)
    (hstep : step cfg fromStr s e = some s') :
    Agree t r s' u ∧ s.observe cfg r.pair e = [] := by
  obtain ⟨⟨hIs, hIu⟩, ⟨hroom, hroom'⟩, hmem⟩ := h
  have hplace : ∀ p, s.placement cfg e = some p → p.dst ∉ r.pair := by
    intro p hp hdst
    obtain ⟨rfl, -⟩ := placement_eq_some hp
    exact hout p.src rfl (hIs.placement_src hroom hp hdst)
  constructor
  · refine ⟨⟨inv_step hIs hstep, hIu⟩,
      ⟨hIs.lookup_step_outsider hroom hfull hout hstep, hroom'⟩, ?_⟩
    intro d hd
    have hkeep : s'.conn d = s.conn d := by
      refine step_conn_ne hstep (fun howner => hout d howner hd) ?_
      rintro p hp rfl
      exact hplace p hp hd
    rw [hkeep, hmem d hd]
  · cases e with
    | lookup c => exact if_neg (hout c rfl)
    | forward c =>
      simp only [observe]
      cases hp : s.placement cfg (.forward c) with
      | none => rfl
      | some p => exact if_neg (hplace p hp)
    | _ => rfl

/-- The unwinding of the server for the members of a full room. -/
def agreeUnwinding (cfg : ServerConfig) (fromStr : String → Option (WireMsg V)) (t : RoutingTag)
    (r : RoutingRecord) (hfull : r.isFull = true) :
    StateMachine.Unwinding (signallingServer cfg fromStr) (ServerEvent.ofMembers r.pair)
      (fun e => ∀ c ∈ r.pair, e ≠ .remove c) (observe cfg r.pair) where
  R := Agree t r
  kept := by
    intro s u e s' hR hkeep hallowed hstep
    obtain ⟨c, hc, howner⟩ := ServerEvent.ofMembers_eq_true.mp hkeep
    exact hR.step_member hc howner (hallowed c hc) hstep
  purged := by
    intro s u e s' hR hkeep _ hstep
    exact hR.step_outsider hfull (ServerEvent.ofMembers_eq_false.mp hkeep) hstep

/-- **Room noninterference.** From a reachable state in which the room of `t` is full with
`a` and `b`, any run in which neither is removed shows them what the run without the
other connections' events shows them: the same room, the same lookup results, the same
messages in their queues; and it leaves both connections as that run does. -/
theorem full_room_undisturbed {a b : ConnectionId} {es : List ServerEvent}
    (h : (signallingServer cfg fromStr).Reachable s)
    (hroom : s.state.rtt.lookup t = some ⟨[a, b]⟩)
    (hstay : ∀ e ∈ es, e ≠ .remove a ∧ e ≠ .remove b)
    (hrun : (signallingServer cfg fromStr).run s es = some s') :
    ∃ s'', (signallingServer cfg fromStr).run s (es.filter (ServerEvent.ofMembers [a, b])) =
        some s'' ∧
      s'.state.rtt.lookup t = s''.state.rtt.lookup t ∧
      s'.conn a = s''.conn a ∧ s'.conn b = s''.conn b ∧
      (signallingServer cfg fromStr).trace (observe cfg [a, b]) s es =
        (signallingServer cfg fromStr).trace (observe cfg [a, b]) s
          (es.filter (ServerEvent.ofMembers [a, b])) := by
  have hI := reachable_inv h
  have hagree : Agree t ⟨[a, b]⟩ s s := ⟨⟨hI, hI⟩, ⟨hroom, hroom⟩, fun _ _ => rfl⟩
  have hallowed : ∀ e ∈ es, ∀ c ∈ [a, b], e ≠ .remove c := by
    intro e he c hc
    rcases List.mem_cons.mp hc with rfl | hc
    · exact (hstay e he).1
    · rw [List.mem_singleton.mp hc]
      exact (hstay e he).2
  obtain ⟨s'', hrun', ⟨-, ⟨hroom', hroom''⟩, hmem⟩, htrace⟩ :=
    (agreeUnwinding cfg fromStr t ⟨[a, b]⟩ rfl).purge hagree hallowed hrun
  exact ⟨s'', hrun', hroom'.trans hroom''.symm, hmem a (by simp), hmem b (by simp), htrace⟩

/-- A third connection tries to enter the room of `twoMeet` while connection 0 sends a
message to connection 1. -/
def intrusion : List ServerEvent :=
  [.accept, .open 2 3, .record 2, .task 2 (.receive 4 (.text "r")),
    .task 0 (.receive 4 (.text "r")), .lookup 2, .lookup 0, .task 2 .ingressEnd, .forward 0]

/-- The intrusion changes nothing for the two that have met. -/
theorem full_room_undisturbed_intrusion :
    ∃ s, (signallingServer {} tagOnly).run afterTwoMeet
          [.task 0 (.receive 4 (.text "r")), .lookup 0, .forward 0] = some s ∧
      (signallingServer {} tagOnly).trace (observe {} [0, 1]) afterTwoMeet intrusion =
        (signallingServer {} tagOnly).trace (observe {} [0, 1]) afterTwoMeet
          [.task 0 (.receive 4 (.text "r")), .lookup 0, .forward 0] := by
  let s' := ((signallingServer {} tagOnly).run afterTwoMeet intrusion).get rfl
  have hrun : (signallingServer {} tagOnly).run afterTwoMeet intrusion = some s' :=
    (Option.some_get _).symm
  have hroom : afterTwoMeet.state.rtt.lookup "r" = some ⟨[0, 1]⟩ := rfl
  have hstay : ∀ e ∈ intrusion, e ≠ .remove 0 ∧ e ≠ .remove 1 := by decide
  obtain ⟨s, hrun', -, -, -, htrace⟩ :=
    full_room_undisturbed reachable_afterTwoMeet hroom hstay hrun
  exact ⟨s, hrun', htrace⟩

end Server

end Vamp
