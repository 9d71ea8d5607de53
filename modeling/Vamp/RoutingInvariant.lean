import Vamp.SignallingServer

/-!
# The routing-table invariant

What ties the two tables, the branded tags and the tasks together, over every
interleaving of every connection:

* the connection table holds exactly the connections between `record_connection`
  and `remove_records_for`, each under its own queue;
* a room holds one or two connections, all of them in the connection table and all
  branded with the room's tag, so nobody sits in two rooms;
* a task on its way to the lock carries the branded tag, and a task about to
  enqueue is still seated, with a destination that shares its tag.

Seats are lost only through the connection's own `remove`: the repair branch of the
lookup is never taken.
-/

namespace Vamp

variable {V : Type}

namespace Server

/-- `c` is about to enqueue a message parsed as `parsed` at `dst`: it is seated,
there is a payload, and the destination is another connection of the same tag,
which has left the room at most by being removed. -/
structure Forwards (s : Server) (c : ConnectionId) (parsed : ParsedMessage)
    (dst : ConnectionHandler) : Prop where
  /-- there is something to forward -/
  payload : parsed.hasPayload = true
  /-- the source is seated -/
  source : s.state.Seated parsed.rttTag c
  /-- the destination is another connection -/
  ne : dst.sendSpscQPutter ≠ c
  /-- the destination is branded with the tag, and seated or gone -/
  destination : ∃ kd, s.conn dst.sendSpscQPutter = some kd ∧ kd.tag = some parsed.rttTag ∧
    (kd.stage = .removed ∨ s.state.Seated parsed.rttTag dst.sendSpscQPutter)

/-- The invariant of the signalling server. -/
structure Inv (s : Server) : Prop where
  /-- the connection table: every recorded connection, under its own queue -/
  ct : ∀ c h, s.state.ct.lookup c = some h ↔
    h = ⟨c⟩ ∧ ∃ k, s.conn c = some k ∧ k.stage = .recorded
  /-- rooms have one or two seats taken, by different connections -/
  rooms : ∀ t r, s.state.rtt.lookup t = some r → r.WellFormed
  /-- who is seated is recorded, and branded with the tag of the room -/
  seated : ∀ t c, s.state.Seated t c →
    ∃ k, s.conn c = some k ∧ k.stage = .recorded ∧ k.tag = some t
  /-- a message on its way to the lock has branded its connection -/
  locking : ∀ c k message parsed, s.conn c = some k → k.listen = .locking message parsed →
    k.tag = some parsed.rttTag
  /-- a message on its way to a queue -/
  forwarding : ∀ c k message parsed dst, s.conn c = some k →
    k.listen = .forwarding message parsed dst → s.Forwards c parsed dst
  /-- `remove_records_for` comes after all tasks -/
  removed : ∀ c k, s.conn c = some k → k.stage = .removed → k.Ended

theorem inv_init : Inv .init where
  ct c h := by
    constructor
    · intro hl
      simp [init, ServerState.default] at hl
    · rintro ⟨-, k, hk, -⟩
      simp [init] at hk
  rooms t r h := by simp [init, ServerState.default] at h
  seated t c h := by simp [init, ServerState.default, ServerState.Seated, ServerState.room] at h
  locking c k message parsed h := by simp [init] at h
  forwarding c k message parsed dst h := by simp [init] at h
  removed c k h := by simp [init] at h

/-! ## Consequences of the invariant at one state -/

variable {s s' : Server}

/-- Membership in the connection table. -/
theorem Inv.mem_ct (hI : s.Inv) {c : ConnectionId} :
    c ∈ s.state.ct ↔ ∃ k, s.conn c = some k ∧ k.stage = .recorded := by
  rw [Finmap.mem_iff]
  constructor
  · rintro ⟨h, hl⟩
    exact ((hI.ct c h).mp hl).2
  · intro hk
    exact ⟨⟨c⟩, (hI.ct c ⟨c⟩).mpr ⟨rfl, hk⟩⟩

theorem Inv.seated_mem_ct (hI : s.Inv) {t : RoutingTag} {c : ConnectionId}
    (h : s.state.Seated t c) : c ∈ s.state.ct := by
  obtain ⟨k, hk, hstage, -⟩ := hI.seated t c h
  exact hI.mem_ct.mpr ⟨k, hk, hstage⟩

/-- **Nobody sits in two rooms.** -/
theorem Inv.seated_unique (hI : s.Inv) {t t' : RoutingTag} {c : ConnectionId}
    (h : s.state.Seated t c) (h' : s.state.Seated t' c) : t = t' := by
  obtain ⟨k, hk, -, ht⟩ := hI.seated t c h
  obtain ⟨k', hk', -, ht'⟩ := hI.seated t' c h'
  obtain rfl : k = k' := Option.some.inj (hk.symm.trans hk')
  exact Option.some.inj (ht.symm.trans ht')

/-- The room of a tag is empty or as it should be. -/
theorem Inv.room (hI : s.Inv) (t : RoutingTag) :
    (s.state.room t).pair = [] ∨ (s.state.room t).WellFormed := by
  cases hl : s.state.rtt.lookup t with
  | none => exact Or.inl (by rw [ServerState.room, hl]; rfl)
  | some r =>
    rw [ServerState.room_of_lookup hl]
    exact Or.inr (hI.rooms t r hl)

/-- **The repair branch is never taken**: whoever else sits in the room is in the
connection table. -/
theorem Inv.other_mem_ct (hI : s.Inv) {t : RoutingTag} {c d : ConnectionId} {r : RoutingRecord}
    (hseat : (s.state.room t).seat c = some r) (hother : r.otherConnection c = some d) :
    s.state.ct.lookup d = some ⟨d⟩ ∧ s.state.Seated t d := by
  obtain ⟨hmem, hne⟩ := RoutingRecord.otherConnection_eq_some hother
  have hd : s.state.Seated t d :=
    (RoutingRecord.mem_of_seat hseat hmem).resolve_right hne
  obtain ⟨k, hk, hstage, -⟩ := hI.seated t d hd
  exact ⟨(hI.ct d ⟨d⟩).mpr ⟨rfl, k, hk, hstage⟩, hd⟩

/-- What a lookup can do in a state that satisfies the invariant: the repair branch
is gone, and a forwarding queue belongs to another member of the room. -/
theorem Inv.recordRtr_cases (hI : s.Inv) (t : RoutingTag) (c : ConnectionId) (hp : Bool) :
    (c ∉ s.state.ct ∧ s.state.recordRtrAndGetForwardingQueue t c hp =
      (s.state, .error (buildErr t c "Connection id not found"))) ∨
    (c ∈ s.state.ct ∧ ¬ (s.state.room t).HasSeat c ∧
      s.state.recordRtrAndGetForwardingQueue t c hp =
        (s.state.setRoom t (s.state.room t), .error (buildErr t c "Routing record full"))) ∨
    (c ∈ s.state.ct ∧ ∃ r, (s.state.room t).seat c = some r ∧
      ((∃ msg, s.state.recordRtrAndGetForwardingQueue t c hp =
          (s.state.setRoom t r, .error (buildErr t c msg))) ∨
        (hp = true ∧ ∃ d, r.otherConnection c = some d ∧ d ≠ c ∧ s.state.Seated t d ∧
          s.state.recordRtrAndGetForwardingQueue t c hp =
            (s.state.setRoom t r, .ok ⟨d⟩)))) := by
  rcases s.state.recordRtr_cases t c hp with
    ⟨hc, h⟩ | ⟨hc, hseat, h⟩ |
      ⟨hc, r, hseat, ⟨msg, -, h⟩ | ⟨-, d, hother, hd, -⟩ | ⟨hpay, d, h', hother, hd, h⟩⟩
  · exact Or.inl ⟨hc, h⟩
  · exact Or.inr (Or.inl ⟨hc, RoutingRecord.seat_eq_none.mp hseat, h⟩)
  · exact Or.inr (Or.inr ⟨hc, r, hseat, Or.inl ⟨msg, h⟩⟩)
  · -- the repair branch
    obtain ⟨hct, -⟩ := hI.other_mem_ct hseat hother
    exact absurd (hct.symm.trans hd) (by simp)
  · obtain ⟨hct, hseated⟩ := hI.other_mem_ct hseat hother
    obtain rfl : h' = ⟨d⟩ := Option.some.inj (hd.symm.trans hct)
    exact Or.inr (Or.inr ⟨hc, r, hseat, Or.inr ⟨hpay, d, hother,
      (RoutingRecord.otherConnection_eq_some hother).2, hseated, h⟩⟩)

/-! ## Preservation

Most steps replace one connection by one at the same stage whose tag, if branded,
is the same; they keep the invariant as soon as the new connection's tasks are
accounted for. -/

/-- The destination of a pending enqueue survives the replacement of a connection
by one with the same stage and a brand that only grows. -/
theorem Forwards.setConn {c d : ConnectionId} {k k' : Connection} {parsed : ParsedMessage}
    {dst : ConnectionHandler} (h : s.Forwards d parsed dst) (hk : s.conn c = some k)
    (hstage : k'.stage = k.stage) (htag : ∀ t, k.tag = some t → k'.tag = some t) :
    (s.setConn c k').Forwards d parsed dst := by
  obtain ⟨kd, hkd, ht, hgone⟩ := h.destination
  refine ⟨h.payload, h.source, h.ne, exists_conn_setConn hk ?_ hkd ⟨ht, hgone⟩⟩
  rintro ⟨ht, hgone⟩
  rw [hstage]
  exact ⟨htag _ ht, hgone⟩

theorem Inv.setConn {c : ConnectionId} {k k' : Connection} (hI : s.Inv) (hk : s.conn c = some k)
    (hstage : k'.stage = k.stage) (htag : ∀ t, k.tag = some t → k'.tag = some t)
    (hlock : ∀ message parsed, k'.listen = .locking message parsed →
      k'.tag = some parsed.rttTag)
    (hforward : ∀ message parsed dst, k'.listen = .forwarding message parsed dst →
      s.Forwards c parsed dst)
    (hremoved : k'.stage = .removed → k'.Ended) : (s.setConn c k').Inv where
  ct d h := by
    rw [state_setConn, hI.ct]
    by_cases hd : d = c
    · subst hd
      rw [conn_setConn_self, hk]
      simp [hstage]
    · rw [conn_setConn_ne _ _ hd]
  rooms := hI.rooms
  seated t d h := by
    obtain ⟨kd, hkd, hseated⟩ := hI.seated t d h
    exact exists_conn_setConn hk (fun h => ⟨hstage.trans h.1, htag t h.2⟩) hkd hseated
  locking d kd message parsed hkd hl := by
    rcases conn_setConn_cases hkd with ⟨rfl, rfl⟩ | ⟨-, hkd⟩
    · exact hlock message parsed hl
    · exact hI.locking d kd message parsed hkd hl
  forwarding d kd message parsed dst hkd hl := by
    rcases conn_setConn_cases hkd with ⟨rfl, rfl⟩ | ⟨-, hkd⟩
    · exact (hforward message parsed dst hl).setConn hk hstage htag
    · exact (hI.forwarding d kd message parsed dst hkd hl).setConn hk hstage htag
  removed d kd hkd hrem := by
    rcases conn_setConn_cases hkd with ⟨rfl, rfl⟩ | ⟨-, hkd⟩
    · exact hremoved hrem
    · exact hI.removed d kd hkd hrem

/-- The counters and the next id do not matter. -/
theorem Inv.congr (hI : s.Inv) (hstate : s'.state = s.state) (hconn : s'.conn = s.conn) :
    s'.Inv := by
  obtain ⟨state, metrics, next, conn⟩ := s
  obtain ⟨state', metrics', next', conn'⟩ := s'
  obtain rfl : state' = state := hstate
  obtain rfl : conn' = conn := hconn
  exact
    { ct := hI.ct
      rooms := hI.rooms
      seated := hI.seated
      locking := hI.locking
      forwarding := fun c k message parsed dst hk hl =>
        let ⟨hpay, hsrc, hne, hdst⟩ := hI.forwarding c k message parsed dst hk hl
        ⟨hpay, hsrc, hne, hdst⟩
      removed := hI.removed }

/-- Rooms may fill up: a new routing table in which nobody has lost a seat and every
new seat is taken by a recorded connection of that tag. -/
theorem Inv.setState (hI : s.Inv) {state : ServerState} (hct : state.ct = s.state.ct)
    (hrooms : ∀ t r, state.rtt.lookup t = some r → r.WellFormed)
    (hkeep : ∀ t c, s.state.Seated t c → state.Seated t c)
    (hnew : ∀ t c, state.Seated t c → s.state.Seated t c ∨
      ∃ k, s.conn c = some k ∧ k.stage = .recorded ∧ k.tag = some t) :
    Inv { s with state := state } where
  ct c h := by
    rw [hct]
    exact hI.ct c h
  rooms := hrooms
  seated t c h := (hnew t c h).elim (hI.seated t c) id
  locking := hI.locking
  forwarding c k message parsed dst hk hl := by
    obtain ⟨hp, hsrc, hne, kd, hkd, ht, hgone⟩ := hI.forwarding c k message parsed dst hk hl
    exact ⟨hp, hkeep _ _ hsrc, hne, kd, hkd, ht, hgone.imp_right (hkeep _ _)⟩
  removed := hI.removed

/-- Putting a seated room into the table: nobody loses a seat, and only the newcomer
gains one. -/
theorem Inv.setRoom (hI : s.Inv) {t : RoutingTag} {c : ConnectionId} {k : Connection}
    {r : RoutingRecord} (hk : s.conn c = some k) (hstage : k.stage = .recorded)
    (htag : k.tag = some t) (hseat : (s.state.room t).seat c = some r) :
    Inv { s with state := s.state.setRoom t r } := by
  refine hI.setState (s.state.ct_setRoom t r) ?_ ?_ ?_
  · intro t' r' hl
    rw [ServerState.lookup_setRoom] at hl
    by_cases ht : t' = t
    · rw [if_pos ht, Option.some.injEq] at hl
      subst hl
      exact RoutingRecord.seat_wellFormed (hI.room t) hseat
    · rw [if_neg ht] at hl
      exact hI.rooms t' r' hl
  · intro t' d hd
    rw [ServerState.Seated, ServerState.room_setRoom]
    by_cases ht : t' = t
    · subst ht
      rw [if_pos rfl]
      exact RoutingRecord.mem_seat hseat hd
    · rw [if_neg ht]
      exact hd
  · intro t' d hd
    rw [ServerState.Seated, ServerState.room_setRoom] at hd
    by_cases ht : t' = t
    · subst ht
      rw [if_pos rfl] at hd
      refine (RoutingRecord.mem_of_seat hseat hd).imp_right ?_
      rintro rfl
      exact ⟨k, hk, hstage, htag⟩
    · rw [if_neg ht] at hd
      exact Or.inl hd

/-- A new connection has no seat, no tag and no message. -/
theorem Inv.open (hI : s.Inv) {c : ConnectionId} (hk : s.conn c = none) (cfg : ServerConfig)
    (now : Instant) : (s.setConn c (.start cfg now)).Inv where
  ct d h := by
    rw [state_setConn, hI.ct]
    by_cases hd : d = c
    · subst hd
      rw [conn_setConn_self, hk]
      simp [Connection.start]
    · rw [conn_setConn_ne _ _ hd]
  rooms := hI.rooms
  seated t d h := by
    obtain ⟨kd, hkd, hrec, ht⟩ := hI.seated t d h
    have hd : d ≠ c := by
      rintro rfl
      exact absurd (hk.symm.trans hkd) (by simp)
    exact ⟨kd, by rw [conn_setConn_ne _ _ hd, hkd], hrec, ht⟩
  locking d kd message parsed hkd hl := by
    rcases conn_setConn_cases hkd with ⟨rfl, rfl⟩ | ⟨-, hkd⟩
    · cases hl
    · exact hI.locking d kd message parsed hkd hl
  forwarding d kd message parsed dst hkd hl := by
    rcases conn_setConn_cases hkd with ⟨rfl, rfl⟩ | ⟨-, hkd⟩
    · cases hl
    · obtain ⟨hpay, hsrc, hne, k', hk', ht, hgone⟩ := hI.forwarding d kd message parsed dst hkd hl
      refine ⟨hpay, hsrc, hne, k', ?_, ht, hgone⟩
      have hdst : dst.sendSpscQPutter ≠ c := by
        intro hdst
        rw [hdst, hk] at hk'
        cases hk'
      rw [conn_setConn_ne _ _ hdst, hk']
  removed d kd hkd hrem := by
    rcases conn_setConn_cases hkd with ⟨rfl, rfl⟩ | ⟨-, hkd⟩
    · cases hrem
    · exact hI.removed d kd hkd hrem

/-- Recording a connection adds it to the connection table and to no room. -/
theorem Inv.record (hI : s.Inv) {c : ConnectionId} {k : Connection} (hk : s.conn c = some k)
    (hstage : k.stage = .spawned) :
    Inv { s.setConn c { k with stage := .recorded } with
      state := s.state.recordConnection c ⟨c⟩ } where
  ct d h := by
    simp only [ServerState.recordConnection, Finmap.lookup_insert_eq_ite]
    by_cases hd : d = c
    · subst hd
      rw [if_pos rfl]
      simp [eq_comm]
    · rw [if_neg hd, hI.ct, conn_setConn_ne _ _ hd]
  rooms := hI.rooms
  seated t d h := by
    obtain ⟨kd, hkd, hrec, ht⟩ := hI.seated t d h
    have hd : d ≠ c := by
      rintro rfl
      obtain rfl : k = kd := Option.some.inj (hk.symm.trans hkd)
      exact absurd (hstage.symm.trans hrec) (by simp)
    exact ⟨kd, (conn_setConn_ne s _ hd).trans hkd, hrec, ht⟩
  locking d kd message parsed hkd hl := by
    rcases conn_setConn_cases hkd with ⟨rfl, rfl⟩ | ⟨-, hkd⟩
    · exact hI.locking d k message parsed hk hl
    · exact hI.locking d kd message parsed hkd hl
  forwarding d kd message parsed dst hkd hl := by
    obtain ⟨k₀, hk₀, hl₀⟩ :
        ∃ k₀, s.conn d = some k₀ ∧ k₀.listen = .forwarding message parsed dst := by
      rcases conn_setConn_cases hkd with ⟨rfl, rfl⟩ | ⟨-, hkd⟩
      · exact ⟨k, hk, hl⟩
      · exact ⟨kd, hkd, hl⟩
    obtain ⟨hpay, hsrc, hne, k', hk', ht, hgone⟩ := hI.forwarding d k₀ message parsed dst hk₀ hl₀
    refine ⟨hpay, hsrc, hne, exists_conn_setConn hk ?_ hk' ⟨ht, hgone⟩⟩
    rintro ⟨ht, hgone⟩
    rw [hstage] at hgone
    exact ⟨ht, Or.inr (hgone.resolve_left (by simp))⟩
  removed d kd hkd hrem := by
    rcases conn_setConn_cases hkd with ⟨rfl, rfl⟩ | ⟨-, hkd⟩
    · cases hrem
    · exact hI.removed d kd hkd hrem

/-- A removal takes away the seats of the removed connection and no other. -/
theorem Inv.seated_removeRecordsFor (hI : s.Inv) {c : ConnectionId} {k : Connection}
    (hk : s.conn c = some k) {t : RoutingTag} {d : ConnectionId} :
    (s.state.removeRecordsFor c k.tag).Seated t d ↔ s.state.Seated t d ∧ d ≠ c := by
  rw [ServerState.Seated, ServerState.room, ServerState.lookup_removeRecordsFor]
  by_cases ht : k.tag = some t
  · rw [if_pos ht]
    cases hl : s.state.rtt.lookup t with
    | none => simp [ServerState.Seated, ServerState.room, hl]
    | some r =>
      rw [ServerState.Seated, ServerState.room_of_lookup hl, ← RoutingRecord.mem_remove,
        Option.bind_some]
      by_cases hempty : (r.remove c).pair = []
      · rw [if_pos hempty, hempty]
        simp
      · rw [if_neg hempty, Option.getD_some]
  · -- the removed connection had no seat in this room
    rw [if_neg ht]
    refine ⟨fun h => ⟨h, ?_⟩, fun h => h.1⟩
    rintro rfl
    obtain ⟨kd, hkd, -, htd⟩ := hI.seated t d h
    obtain rfl : k = kd := Option.some.inj (hk.symm.trans hkd)
    exact ht htd

/-- Removing a connection whose tasks have returned. -/
theorem Inv.remove (hI : s.Inv) {c : ConnectionId} {k : Connection} (hk : s.conn c = some k)
    (hended : k.Ended) :
    Inv { s.setConn c { k.cancel with stage := .removed } with
      state := s.state.removeRecordsFor c k.tag } where
  ct d h := by
    rw [ServerState.ct_removeRecordsFor, Finmap.lookup_erase_eq_ite]
    by_cases hd : d = c
    · subst hd
      rw [if_pos rfl]
      simp
    · rw [if_neg hd, hI.ct, conn_setConn_ne _ _ hd]
  rooms t r hl := by
    rw [ServerState.lookup_removeRecordsFor] at hl
    by_cases ht : k.tag = some t
    · -- the room it was in: one member less, and no room is left empty
      rw [if_pos ht, Option.bind_eq_some_iff] at hl
      obtain ⟨r₀, hl₀, hl⟩ := hl
      by_cases hempty : (r₀.remove c).pair = []
      · rw [if_pos hempty] at hl
        cases hl
      · rw [if_neg hempty, Option.some.injEq] at hl
        subst hl
        have hr₀ := hI.rooms t r₀ hl₀
        exact ⟨hempty, (r₀.remove_length_le c).trans hr₀.length_le,
          RoutingRecord.remove_nodup hr₀.nodup⟩
    · rw [if_neg ht] at hl
      exact hI.rooms t r hl
  seated t d h := by
    obtain ⟨hd, hne⟩ := (hI.seated_removeRecordsFor hk).mp h
    obtain ⟨kd, hkd, hrec, ht⟩ := hI.seated t d hd
    exact ⟨kd, (conn_setConn_ne s _ hne).trans hkd, hrec, ht⟩
  locking d kd message parsed hkd hl := by
    by_cases hd : d = c
    · subst hd
      obtain rfl : _ = kd := Option.some.inj ((conn_setConn_self s d _).symm.trans hkd)
      exact absurd (hended.listen.symm.trans hl) (by simp)
    · exact hI.locking d kd message parsed ((conn_setConn_ne s _ hd).symm.trans hkd) hl
  forwarding d kd message parsed dst hkd hl := by
    by_cases hd : d = c
    · subst hd
      obtain rfl : _ = kd := Option.some.inj ((conn_setConn_self s d _).symm.trans hkd)
      exact absurd (hended.listen.symm.trans hl) (by simp)
    · obtain ⟨hpay, hsrc, hne, k', hk', ht, hgone⟩ :=
        hI.forwarding d kd message parsed dst ((conn_setConn_ne s _ hd).symm.trans hkd) hl
      refine ⟨hpay, (hI.seated_removeRecordsFor hk).mpr ⟨hsrc, hd⟩, hne, ?_⟩
      by_cases hdst : dst.sendSpscQPutter = c
      · -- the destination is the one that goes: its queue is closed now
        obtain rfl : k = k' := by
          rw [hdst, hk] at hk'
          exact Option.some.inj hk'
        exact ⟨{ k.cancel with stage := .removed }, by rw [hdst]; exact conn_setConn_self ..,
          ht, Or.inl rfl⟩
      · exact ⟨k', (conn_setConn_ne s _ hdst).trans hk', ht,
          hgone.imp_right fun h => (hI.seated_removeRecordsFor hk).mpr ⟨h, hdst⟩⟩
  removed d kd hkd hrem := by
    by_cases hd : d = c
    · subst hd
      obtain rfl : _ = kd := Option.some.inj ((conn_setConn_self s d _).symm.trans hkd)
      exact ⟨hended.listen, hended.egress, hended.idle⟩
    · exact hI.removed d kd ((conn_setConn_ne s _ hd).symm.trans hkd) hrem

/-- A lookup seats the connection, or leaves the rooms as they are. -/
theorem Inv.lookup (hI : s.Inv) {c : ConnectionId} {k : Connection} {message : Message}
    {parsed : ParsedMessage} (hk : s.conn c = some k) (hl : k.listen = .locking message parsed) :
    Inv { s.setConn c (afterLookup k message parsed
        (s.state.recordRtrAndGetForwardingQueue parsed.rttTag c parsed.hasPayload).2) with
      state := (s.state.recordRtrAndGetForwardingQueue parsed.rttTag c parsed.hasPayload).1 } := by
  have htag := hI.locking c k message parsed hk hl
  have hnot : k.stage ≠ .removed := by
    intro hrem
    exact absurd ((hI.removed c k hk hrem).listen.symm.trans hl) (by simp)
  -- skipped messages: the task goes back to waiting
  have hskip : ∀ {s₁ : Server}, s₁.Inv → s₁.conn c = some k →
      (s₁.setConn c { k with listen := .awaiting }).Inv := by
    intro s₁ hI₁ hk₁
    exact hI₁.setConn hk₁ rfl (fun _ h => h) (fun _ _ h => by cases h)
      (fun _ _ _ h => by cases h) fun h => absurd h hnot
  rcases hI.recordRtr_cases parsed.rttTag c parsed.hasPayload with
    ⟨-, h⟩ | ⟨-, hfull, h⟩ | ⟨hc, r, hseat, ⟨msg, h⟩ | ⟨hpay, d, hother, hne, hd, h⟩⟩
  · rw [h]
    exact (hskip hI hk).congr rfl rfl
  · rw [h]
    exact (hskip hI hk).congr (ServerState.setRoom_self hfull) rfl
  all_goals
    obtain ⟨k', hk', hstage⟩ := hI.mem_ct.mp hc
    obtain rfl : k = k' := Option.some.inj (hk.symm.trans hk')
    have hI₁ := hI.setRoom hk hstage htag hseat
  · rw [h]
    exact (hskip hI₁ hk).congr rfl rfl
  · rw [h]
    have hforward : Forwards { s with state := s.state.setRoom parsed.rttTag r } c parsed ⟨d⟩ := by
      obtain ⟨kd, hkd, -, htd⟩ := hI.seated _ d hd
      have hroom : (s.state.setRoom parsed.rttTag r).room parsed.rttTag = r := by
        rw [ServerState.room_setRoom, if_pos rfl]
      refine ⟨hpay, ?_, hne, kd, hkd, htd, Or.inr ?_⟩
      · rw [ServerState.Seated, hroom]
        exact RoutingRecord.seat_mem hseat
      · rw [ServerState.Seated, hroom]
        exact RoutingRecord.mem_seat hseat hd
    have hI₂ : (Server.setConn { s with state := s.state.setRoom parsed.rttTag r } c
        { k with listen := .forwarding message parsed ⟨d⟩ }).Inv := by
      refine hI₁.setConn hk rfl (fun _ h => h) (fun _ _ h => by cases h) ?_ fun h => absurd h hnot
      intro message' parsed' dst' h'
      cases h'
      exact hforward
    exact hI₂.congr rfl rfl

/-- An enqueue touches the destination's queue and the source's task. -/
theorem Inv.forward (hI : s.Inv) {c d : ConnectionId} {k kd : Connection} {queue : List Message}
    (hne : d ≠ c) (hk : s.conn c = some k) (hnot : k.stage ≠ .removed)
    (hkd : s.conn d = some kd) :
    ((s.setConn d { kd with queue := queue }).setConn c (afterForward k)).Inv := by
  have hI₁ : (s.setConn d { kd with queue := queue }).Inv := by
    refine hI.setConn hkd rfl (fun _ h => h)
      (fun message parsed => hI.locking d kd message parsed hkd)
      (fun message parsed dst => hI.forwarding d kd message parsed dst hkd) fun hrem => ?_
    obtain ⟨hlisten, hegress, hidle⟩ := hI.removed d kd hkd hrem
    exact ⟨hlisten, hegress, hidle⟩
  have hk₁ : (s.setConn d { kd with queue := queue }).conn c = some k := by
    rw [conn_setConn_ne _ _ (Ne.symm hne), hk]
  exact hI₁.setConn hk₁ rfl (fun _ h => h) (fun _ _ h => by cases h) (fun _ _ _ h => by cases h)
    fun h => absurd h hnot

variable {cfg : ServerConfig} {fromStr : String → Option (WireMsg V)}

/-- **Every step keeps the invariant.** -/
theorem inv_step (hI : s.Inv) {e : ServerEvent} (h : step cfg fromStr s e = some s') :
    s'.Inv := by
  cases e with
  | accept =>
    obtain rfl := Option.some.inj h
    exact hI.congr rfl rfl
  | «open» c now =>
    obtain ⟨hk, rfl⟩ := step_open h
    exact hI.open hk cfg now
  | record c =>
    obtain ⟨k, hk, hstage, rfl⟩ := step_record h
    exact hI.record hk hstage
  | task c e =>
    obtain ⟨k, k', metrics, hk, hstep, rfl⟩ := step_task h
    obtain ⟨hstage, hcases⟩ := Connection.step_cases hstep
    have hnot : k.stage ≠ .removed := by
      intro hrem
      rw [(hI.removed c k hk hrem).step_eq_none] at hstep
      cases hstep
    -- the metrics are not part of the invariant
    suffices hI' : (s.setConn c k').Inv from hI'.congr rfl rfl
    refine hI.setConn hk hstage (fun t => Connection.step_tag hstep) ?_ ?_
      fun h => absurd (hstage.symm.trans h) hnot
    · intro message parsed hl
      rcases hcases with ⟨now, message', parsed', -, -, hl', -, htag, -⟩ | ⟨hl' | ⟨-, hl'⟩, htag, -⟩
      · rw [hl'] at hl
        cases hl
        exact htag
      · rw [htag]
        exact hI.locking c k message parsed hk (hl'.symm.trans hl)
      · exact absurd (hl'.symm.trans hl) (by simp)
    · intro message parsed dst hl
      rcases hcases with ⟨now, message', parsed', -, -, hl', -, htag, -⟩ | ⟨hl' | ⟨-, hl'⟩, htag, -⟩
      · exact absurd (hl'.symm.trans hl) (by simp)
      · exact hI.forwarding c k message parsed dst hk (hl'.symm.trans hl)
      · exact absurd (hl'.symm.trans hl) (by simp)
  | lookup c =>
    obtain ⟨k, message, parsed, hk, hl, rfl⟩ := step_lookup h
    exact hI.lookup hk hl
  | forward c =>
    obtain ⟨k, message, parsed, dst, kd, hk, hl, hkd, h⟩ := step_forward h
    have hnot : k.stage ≠ .removed := by
      intro hrem
      exact absurd ((hI.removed c k hk hrem).listen.symm.trans hl) (by simp)
    rcases h with ⟨-, rfl⟩ | ⟨-, rfl⟩
    · -- the destination takes the message, or `listen` ends with an error
      have hne := (hI.forwarding c k message parsed dst hk hl).ne
      exact (hI.forward hne hk hnot hkd).congr rfl rfl
    · exact hI.setConn hk rfl (fun _ h => h) (fun _ _ h => by cases h)
        (fun _ _ _ h => by cases h) fun h => absurd h hnot
  | remove c =>
    obtain ⟨k, hk, -, hended, rfl⟩ := step_remove h
    exact hI.remove hk hended

/-- Every run keeps the invariant. -/
theorem inv_run (hI : s.Inv) {es : List ServerEvent}
    (h : (signallingServer cfg fromStr).run s es = some s') : s'.Inv := by
  refine StateMachine.run_induction (P := fun _ s => Inv s) hI ?_ h
  intro _ s₁ e s₂ _ hI₁ hstep
  exact inv_step hI₁ hstep

/-- The invariant holds in every reachable state. -/
theorem reachable_inv (h : (signallingServer cfg fromStr).Reachable s) : s.Inv := by
  obtain ⟨es, hrun⟩ := h
  exact inv_run inv_init hrun

/-! ## What a connection never takes back -/

/-- `k'` is `k` at a later time: a brand stays, and so does being removed. -/
structure Later (k k' : Connection) : Prop where
  /-- the routing tag is branded for good -/
  tag : ∀ t, k.tag = some t → k'.tag = some t
  /-- `run_connection` does not come back -/
  removed : k.stage = .removed → k'.stage = .removed

theorem Later.refl (k : Connection) : Later k k := ⟨fun _ h => h, id⟩

/-- Replacing a connection by a later one makes every connection later. -/
theorem Later.setConn {c : ConnectionId} {k k' : Connection} (h : Later k k')
    (hk : s.conn c = some k) {d : ConnectionId} {kd : Connection} (hkd : s.conn d = some kd) :
    ∃ kd', (s.setConn c k').conn d = some kd' ∧ Later kd kd' := by
  by_cases hd : d = c
  · subst hd
    obtain rfl : k = kd := Option.some.inj (hk.symm.trans hkd)
    exact ⟨k', conn_setConn_self .., h⟩
  · exact ⟨kd, (conn_setConn_ne s _ hd).trans hkd, .refl kd⟩

/-- A step makes every connection later. -/
theorem step_later {e : ServerEvent} (h : step cfg fromStr s e = some s') {d : ConnectionId}
    {kd : Connection} (hkd : s.conn d = some kd) : ∃ kd', s'.conn d = some kd' ∧ Later kd kd' := by
  cases e with
  | accept =>
    obtain rfl := Option.some.inj h
    exact ⟨kd, hkd, .refl kd⟩
  | «open» c now =>
    obtain ⟨hk, rfl⟩ := step_open h
    have hd : d ≠ c := by
      rintro rfl
      exact absurd (hk.symm.trans hkd) (by simp)
    exact ⟨kd, (conn_setConn_ne s _ hd).trans hkd, .refl kd⟩
  | record c =>
    obtain ⟨k, hk, hstage, rfl⟩ := step_record h
    have hlater : Later k { k with stage := .recorded } :=
      ⟨fun _ h => h, fun h => absurd (hstage.symm.trans h) (by simp)⟩
    exact hlater.setConn hk hkd
  | task c e =>
    obtain ⟨k, k', metrics, hk, hstep, rfl⟩ := step_task h
    have hlater : Later k k' :=
      ⟨fun _ => Connection.step_tag hstep, (Connection.step_cases hstep).1.trans⟩
    exact hlater.setConn hk hkd
  | lookup c =>
    obtain ⟨k, message, parsed, hk, -, rfl⟩ := step_lookup h
    have hlater : ∀ res, Later k (afterLookup k message parsed res) := by
      rintro (_ | _)
      · exact ⟨fun _ h => h, id⟩
      · exact ⟨fun _ h => h, id⟩
    exact (hlater _).setConn hk hkd
  | forward c =>
    rcases step_forward h with ⟨k, message, parsed, dst, kdst, hk, -, hdst, ⟨-, rfl⟩ | ⟨-, rfl⟩⟩
    · have hqueue : Later kdst { kdst with queue := kdst.queue ++ [message] } :=
        ⟨fun _ h => h, id⟩
      obtain ⟨k₁, hk₁, hlater₁⟩ := hqueue.setConn hdst hk
      obtain ⟨kd₁, hkd₁, hlater⟩ := hqueue.setConn hdst hkd
      by_cases hd : d = c
      · subst hd
        obtain rfl : k = kd := Option.some.inj (hk.symm.trans hkd)
        exact ⟨afterForward k, conn_setConn_self .., fun _ h => h, id⟩
      · exact ⟨kd₁, (conn_setConn_ne _ _ hd).trans hkd₁, hlater⟩
    · have hlater : Later k k.finishListen := ⟨fun _ h => h, id⟩
      exact hlater.setConn hk hkd
  | remove c =>
    obtain ⟨k, hk, -, -, rfl⟩ := step_remove h
    have hlater : Later k { k.cancel with stage := .removed } := ⟨fun _ h => h, fun _ => rfl⟩
    exact hlater.setConn hk hkd

/-- A run keeps a removed connection removed. -/
theorem run_removed {es : List ServerEvent} (h : (signallingServer cfg fromStr).run s es = some s')
    {c : ConnectionId} {k : Connection} (hk : s.conn c = some k) (hrem : k.stage = .removed) :
    ∃ k', s'.conn c = some k' ∧ k'.stage = .removed := by
  refine StateMachine.run_induction (P := fun _ s => ∃ k', s.conn c = some k' ∧
    k'.stage = .removed) ⟨k, hk, hrem⟩ ?_ h
  rintro es s₁ e s₂ - ⟨k₁, hk₁, hrem₁⟩ hstep
  obtain ⟨k₂, hk₂, hlater⟩ := step_later hstep hk₁
  exact ⟨k₂, hk₂, hlater.removed hrem₁⟩

/-! ## The contract of the routing table -/

/-- Who is removed is seated nowhere. -/
theorem Inv.not_seated_of_removed (hI : s.Inv) {c : ConnectionId} {k : Connection}
    (hk : s.conn c = some k) (hrem : k.stage = .removed) (t : RoutingTag) :
    ¬ s.state.Seated t c := by
  intro hseated
  obtain ⟨k', hk', hrec, -⟩ := hI.seated t c hseated
  obtain rfl : k = k' := Option.some.inj (hk.symm.trans hk')
  exact absurd (hrem.symm.trans hrec) (by simp)

/-- A removal, whatever follows it, leaves no seat behind. -/
theorem Inv.not_seated_after_remove (hI : s.Inv) {c : ConnectionId} {es : List ServerEvent}
    (h : (signallingServer cfg fromStr).run s (.remove c :: es) = some s') (t : RoutingTag) :
    ¬ s'.state.Seated t c := by
  have hI' : s'.Inv := inv_run hI h
  obtain ⟨s₁, hstep, hrun⟩ := StateMachine.run_cons_eq_some.mp h
  have hremove : step cfg fromStr s (.remove c) = some s₁ := hstep
  obtain ⟨k, -, -, -, rfl⟩ := step_remove hremove
  obtain ⟨k', hk', hrem⟩ := run_removed hrun (conn_setConn_self s c _) rfl
  exact hI'.not_seated_of_removed hk' hrem t

/-- Once everybody is gone, both tables are empty. -/
theorem Inv.tables_empty (hI : s.Inv) (h : ∀ c k, s.conn c = some k → k.stage = .removed) :
    s.state.rtt = ∅ ∧ s.state.ct = ∅ := by
  have hrec : ∀ c k, s.conn c = some k → k.stage ≠ .recorded := by
    intro c k hk hrec
    exact absurd ((h c k hk).symm.trans hrec) (by simp)
  constructor
  · refine Finmap.ext_lookup fun t => ?_
    rw [Finmap.lookup_empty, Option.eq_none_iff_forall_ne_some]
    intro r hl
    -- a record has a member, and the member would be recorded
    obtain ⟨c, hc⟩ := List.exists_mem_of_ne_nil _ (hI.rooms t r hl).nonempty
    rw [← ServerState.room_of_lookup hl] at hc
    obtain ⟨k, hk, hstage, -⟩ := hI.seated t c hc
    exact hrec c k hk hstage
  · refine Finmap.ext_lookup fun c => ?_
    rw [Finmap.lookup_empty, Option.eq_none_iff_forall_ne_some]
    intro h' hl
    obtain ⟨-, k, hk, hstage⟩ := (hI.ct c h').mp hl
    exact hrec c k hk hstage

/-- **The routing table over whole runs.** In every reachable state a record holds one
or two different connections; each of them is in the connection table, branded with the
record's tag and in no other record; the repair branch finds nothing to repair; a
removed connection is never mentioned again; and when all connections are removed, both
tables are empty. -/
theorem routing_table_consistent (h : (signallingServer cfg fromStr).Reachable s) :
    (∀ t r, s.state.rtt.lookup t = some r → r.WellFormed ∧
      ∀ c ∈ r.pair, c ∈ s.state.ct ∧ (∃ k, s.conn c = some k ∧ k.tag = some t) ∧
        ∀ t' r', s.state.rtt.lookup t' = some r' → c ∈ r'.pair → t' = t) ∧
    (∀ t c d r, (s.state.room t).seat c = some r → r.otherConnection c = some d →
      d ∈ s.state.ct) ∧
    (∀ c es s', (signallingServer cfg fromStr).run s (.remove c :: es) = some s' →
      ∀ t r, s'.state.rtt.lookup t = some r → c ∉ r.pair) ∧
    ((∀ c k, s.conn c = some k → k.stage = .removed) →
      s.state.rtt = ∅ ∧ s.state.ct = ∅) := by
  have hI : s.Inv := reachable_inv h
  refine ⟨?_, ?_, ?_, hI.tables_empty⟩
  · intro t r hl
    refine ⟨hI.rooms t r hl, fun c hc => ?_⟩
    have hseated : s.state.Seated t c := by
      rw [ServerState.Seated, ServerState.room_of_lookup hl]
      exact hc
    obtain ⟨k, hk, -, htag⟩ := hI.seated t c hseated
    refine ⟨hI.seated_mem_ct hseated, ⟨k, hk, htag⟩, fun t' r' hl' hc' => ?_⟩
    have hseated' : s.state.Seated t' c := by
      rw [ServerState.Seated, ServerState.room_of_lookup hl']
      exact hc'
    exact hI.seated_unique hseated' hseated
  · intro t c d r hseat hother
    exact hI.seated_mem_ct (hI.other_mem_ct hseat hother).2
  · intro c es s' hrun t r hl hc
    apply hI.not_seated_after_remove hrun t
    rw [ServerState.Seated, ServerState.room_of_lookup hl]
    exact hc

/-- The contract at work: two connections have met, and both are in the table. -/
theorem routing_table_consistent_twoMeet :
    afterTwoMeet.state.rtt.lookup "r" = some ⟨[0, 1]⟩ ∧ 0 ∈ afterTwoMeet.state.ct ∧
      1 ∈ afterTwoMeet.state.ct := by
  have hroom : afterTwoMeet.state.rtt.lookup "r" = some ⟨[0, 1]⟩ := rfl
  obtain ⟨hrecords, -⟩ := routing_table_consistent reachable_afterTwoMeet
  obtain ⟨-, hmembers⟩ := hrecords "r" ⟨[0, 1]⟩ hroom
  exact ⟨hroom, (hmembers 0 (by decide)).1, (hmembers 1 (by decide)).1⟩

end Server

end Vamp
