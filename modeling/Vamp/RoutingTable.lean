import Vamp.FiniteMap
import Vamp.TransportTypes

/-!
# The routing table of the signalling server

`ServerState` of `ws_server.rs`: the connection table `ct` and the routing table
`rtt`, with the three operations that are performed under the state's lock. A
routing tag names a room with two seats; `RoutingRecord` is the room.

The hash maps are finite maps here. The definitions follow the source statement
by statement; the lemmas after them say, once, what each operation can do.
-/

namespace Vamp

/-- `ConnectionId`. The accept loop hands out `0, 1, 2, …`. -/
abbrev ConnectionId : Type := ℕ

/-- `RoutingTag`. -/
abbrev RoutingTag : Type := String

/-! ## Rooms -/

/-- `RoutingRecord`: the connections seated in a room, in the order they came. -/
structure RoutingRecord : Type where
  /-- the seated connections -/
  pair : List ConnectionId := []
  deriving DecidableEq, Repr

namespace RoutingRecord

/-- `RoutingRecord::contains`. -/
def contains (r : RoutingRecord) (connectionId : ConnectionId) : Bool :=
  r.pair.contains connectionId

/-- `RoutingRecord::is_full`. -/
def isFull (r : RoutingRecord) : Bool := decide (2 ≤ r.pair.length)

/-- `RoutingRecord::add`. -/
def add (r : RoutingRecord) (connectionId : ConnectionId) : RoutingRecord :=
  if !r.contains connectionId && !r.isFull then ⟨r.pair ++ [connectionId]⟩ else r

/-- `RoutingRecord::other_connection`. -/
def otherConnection (r : RoutingRecord) (connectionId : ConnectionId) : Option ConnectionId :=
  r.pair.find? fun id => id != connectionId

/-- `RoutingRecord::remove`. -/
def remove (r : RoutingRecord) (connectionId : ConnectionId) : RoutingRecord :=
  ⟨r.pair.filter fun id => id != connectionId⟩

/-- `RoutingRecord::is_empty`. -/
def isEmpty (r : RoutingRecord) : Bool := r.pair.isEmpty

/-- A room as it should be: one or two connections, and no connection twice. -/
structure WellFormed (r : RoutingRecord) : Prop where
  /-- somebody sits here -/
  nonempty : r.pair ≠ []
  /-- there are two seats -/
  length_le : r.pair.length ≤ 2
  /-- nobody sits twice -/
  nodup : r.pair.Nodup

@[simp] theorem contains_eq_true {r : RoutingRecord} {c : ConnectionId} :
    r.contains c = true ↔ c ∈ r.pair := by
  rw [contains, List.contains_iff_mem]

theorem contains_eq_false {r : RoutingRecord} {c : ConnectionId} :
    r.contains c = false ↔ c ∉ r.pair := by
  rw [← Bool.not_eq_true, contains_eq_true]

@[simp] theorem isFull_eq_true {r : RoutingRecord} : r.isFull = true ↔ 2 ≤ r.pair.length := by
  rw [isFull, decide_eq_true_iff]

theorem isFull_eq_false {r : RoutingRecord} : r.isFull = false ↔ r.pair.length < 2 := by
  rw [← Bool.not_eq_true, isFull_eq_true, Nat.not_le]

@[simp] theorem mem_remove {r : RoutingRecord} {c c' : ConnectionId} :
    c' ∈ (r.remove c).pair ↔ c' ∈ r.pair ∧ c' ≠ c := by
  simp [remove]

/-- Removing somebody who is not seated changes nothing. -/
theorem remove_eq_self {r : RoutingRecord} {c : ConnectionId} (h : c ∉ r.pair) :
    r.remove c = r := by
  have hall : ∀ id ∈ r.pair, (id != c) = true := by
    intro id hid
    exact bne_iff_ne.mpr fun he => h (he ▸ hid)
  rw [remove, List.filter_eq_self.mpr hall]

theorem remove_nodup {r : RoutingRecord} {c : ConnectionId} (h : r.pair.Nodup) :
    (r.remove c).pair.Nodup :=
  h.filter _

theorem remove_length_le (r : RoutingRecord) (c : ConnectionId) :
    (r.remove c).pair.length ≤ r.pair.length :=
  List.length_filter_le _ _

/-- The other connection is seated, and is another one. -/
theorem otherConnection_eq_some {r : RoutingRecord} {c d : ConnectionId}
    (h : r.otherConnection c = some d) : d ∈ r.pair ∧ d ≠ c := by
  have hne := List.find?_some (p := fun id => id != c) h
  exact ⟨List.mem_of_find?_eq_some h, bne_iff_ne.mp hne⟩

/-! ### Taking a seat -/

/-- The room after `cid` has asked for a seat in it: the two statements of
`record_rtr_and_get_forwarding_queue` between the lookup of the record and the
payload check. `none` when the room is full of others. -/
def seat (r : RoutingRecord) (cid : ConnectionId) : Option RoutingRecord :=
  if r.isFull && !r.contains cid then none
  else some (if !r.contains cid then r.add cid else r)

/-- The room has a seat for `cid`: a free one, or the one it sits on. -/
def HasSeat (r : RoutingRecord) (cid : ConnectionId) : Prop :=
  r.pair.length < 2 ∨ cid ∈ r.pair

instance (r : RoutingRecord) (cid : ConnectionId) : Decidable (r.HasSeat cid) :=
  inferInstanceAs (Decidable (_ ∨ _))

/-- Who is seated keeps the seat. -/
theorem seat_self {r : RoutingRecord} {c : ConnectionId} (hc : c ∈ r.pair) : r.seat c = some r := by
  rw [seat, contains_eq_true.mpr hc, Bool.not_true, Bool.and_false, if_neg Bool.false_ne_true,
    if_neg Bool.false_ne_true]

/-- A newcomer gets a free seat. -/
theorem seat_of_free {r : RoutingRecord} {c : ConnectionId} (hc : c ∉ r.pair)
    (hfree : r.pair.length < 2) : r.seat c = some ⟨r.pair ++ [c]⟩ := by
  rw [seat, add, contains_eq_false.mpr hc, isFull_eq_false.mpr hfree]
  rfl

/-- Or none, if there is none. -/
theorem seat_of_full {r : RoutingRecord} {c : ConnectionId} (hc : c ∉ r.pair)
    (hfull : 2 ≤ r.pair.length) : r.seat c = none := by
  rw [seat, contains_eq_false.mpr hc, isFull_eq_true.mpr hfull]
  rfl

/-- Who keeps or gets a seat is seated; everybody else stays. -/
theorem seat_eq_some {r r' : RoutingRecord} {c : ConnectionId} (h : r.seat c = some r') :
    (c ∈ r.pair ∧ r' = r) ∨ (c ∉ r.pair ∧ r.pair.length < 2 ∧ r' = ⟨r.pair ++ [c]⟩) := by
  by_cases hc : c ∈ r.pair
  · exact Or.inl ⟨hc, Option.some.inj (h.symm.trans (seat_self hc))⟩
  rcases Nat.lt_or_ge r.pair.length 2 with hfree | hfull
  · exact Or.inr ⟨hc, hfree, Option.some.inj (h.symm.trans (seat_of_free hc hfree))⟩
  · cases h.symm.trans (seat_of_full hc hfull)

/-- A seat is refused exactly when the room is full of others. -/
theorem seat_eq_none {r : RoutingRecord} {c : ConnectionId} :
    r.seat c = none ↔ ¬ r.HasSeat c := by
  by_cases hc : c ∈ r.pair
  · rw [seat_self hc]
    exact iff_of_false (Option.some_ne_none r) fun h => h (Or.inr hc)
  rcases Nat.lt_or_ge r.pair.length 2 with hfree | hfull
  · rw [seat_of_free hc hfree]
    exact iff_of_false (Option.some_ne_none _) fun h => h (Or.inl hfree)
  · refine iff_of_true (seat_of_full hc hfull) ?_
    exact not_or_intro (Nat.not_lt.mpr hfull) hc

theorem seat_mem {r r' : RoutingRecord} {c : ConnectionId} (h : r.seat c = some r') :
    c ∈ r'.pair := by
  rcases seat_eq_some h with ⟨hc, rfl⟩ | ⟨-, -, rfl⟩
  · exact hc
  · exact List.mem_append_right _ (List.mem_singleton_self c)

/-- Everybody seated afterwards was seated before, or is the newcomer. -/
theorem mem_of_seat {r r' : RoutingRecord} {c d : ConnectionId} (h : r.seat c = some r')
    (hd : d ∈ r'.pair) : d ∈ r.pair ∨ d = c := by
  rcases seat_eq_some h with ⟨-, rfl⟩ | ⟨-, -, rfl⟩
  · exact Or.inl hd
  · exact (List.mem_append.mp hd).imp_right List.mem_singleton.mp

/-- Nobody loses a seat to a newcomer. -/
theorem mem_seat {r r' : RoutingRecord} {c d : ConnectionId} (h : r.seat c = some r')
    (hd : d ∈ r.pair) : d ∈ r'.pair := by
  rcases seat_eq_some h with ⟨-, rfl⟩ | ⟨-, -, rfl⟩
  · exact hd
  · exact List.mem_append_left _ hd

/-- Taking a seat makes an empty or well-formed room well formed. -/
theorem seat_wellFormed {r r' : RoutingRecord} {c : ConnectionId}
    (hr : r.pair = [] ∨ r.WellFormed) (h : r.seat c = some r') : r'.WellFormed := by
  have hnodup : r.pair.Nodup := by
    rcases hr with hr | hr
    · rw [hr]
      exact List.nodup_nil
    · exact hr.nodup
  rcases seat_eq_some h with ⟨hc, rfl⟩ | ⟨hc, hlt, rfl⟩
  · rcases hr with hr | hr
    · rw [hr] at hc
      exact absurd hc List.not_mem_nil
    · exact hr
  · refine ⟨by simp, by simp; omega, ?_⟩
    rw [List.nodup_append]
    refine ⟨hnodup, List.nodup_singleton c, ?_⟩
    intro x hx y hy hxy
    rw [List.mem_singleton] at hy
    exact hc (hy ▸ hxy ▸ hx)

end RoutingRecord

/-! ## The tables -/

/-- `ConnectionHandler`: the sending half of a connection's egress queue, named
by the connection that owns the receiving half. (Its close notifier is never used
through the table.) -/
structure ConnectionHandler : Type where
  /-- whose egress queue this feeds -/
  sendSpscQPutter : ConnectionId
  deriving DecidableEq, Repr

/-- `ServerState`: what the lock protects. -/
structure ServerState : Type where
  /-- the routing table: the rooms -/
  rtt : Finmap fun _ : RoutingTag => RoutingRecord
  /-- the connection table -/
  ct : Finmap fun _ : ConnectionId => ConnectionHandler

/-- `build_err`. -/
def buildErr (rttTag : RoutingTag) (cid : ConnectionId) (msg : String) : MyErr :=
  MyErr.routed cid rttTag msg

namespace ServerState

/-- `ServerState::default`. -/
def default : ServerState := ⟨∅, ∅⟩

/-- `record_connection`. -/
def recordConnection (s : ServerState) (cid : ConnectionId) (bundle : ConnectionHandler) :
    ServerState :=
  { s with ct := s.ct.insert cid bundle }

/-- The room of a tag, empty if there is none: `rtt.entry(tag).or_default()`. -/
def room (s : ServerState) (rttTag : RoutingTag) : RoutingRecord :=
  (s.rtt.lookup rttTag).getD {}

/-- Put a room into the routing table. -/
def setRoom (s : ServerState) (rttTag : RoutingTag) (r : RoutingRecord) : ServerState :=
  { s with rtt := s.rtt.insert rttTag r }

/-- `record_rtr_and_get_forwarding_queue`. -/
def recordRtrAndGetForwardingQueue (s : ServerState) (rttTag : RoutingTag) (cid : ConnectionId)
    (hasPayload : Bool) : ServerState × MyRes ConnectionHandler :=
  if cid ∉ s.ct then
    (s, .error (buildErr rttTag cid "Connection id not found"))
  else
    match (s.room rttTag).seat cid with
    | none =>
      -- `or_default` has left the record in the table, but a full room is not empty
      (s.setRoom rttTag (s.room rttTag), .error (buildErr rttTag cid "Routing record full"))
    | some rttRecord =>
      if !hasPayload then
        (s.setRoom rttTag rttRecord, .error (buildErr rttTag cid "RecordOnly"))
      else
        match rttRecord.otherConnection cid with
        | none =>
          (s.setRoom rttTag rttRecord, .error (buildErr rttTag cid "No other connection"))
        | some otherConnectionId =>
          match s.ct.lookup otherConnectionId with
          | none =>
            -- the repair branch
            (s.setRoom rttTag (rttRecord.remove otherConnectionId),
              .error (buildErr rttTag cid "No other connection"))
          | some otherConnection => (s.setRoom rttTag rttRecord, .ok otherConnection)

/-- `remove_records_for`. -/
def removeRecordsFor (s : ServerState) (connectionId : ConnectionId)
    (rttTag : Option RoutingTag) : ServerState :=
  let s := { s with ct := s.ct.erase connectionId }
  match rttTag with
  | none => s
  | some rttTag =>
    match s.rtt.lookup rttTag with
    | none => s
    | some record =>
      let record := record.remove connectionId
      if record.isEmpty then { s with rtt := s.rtt.erase rttTag } else s.setRoom rttTag record

/-! ### What the operations do -/

/-- `c` is seated in the room of `t`. -/
def Seated (s : ServerState) (t : RoutingTag) (c : ConnectionId) : Prop :=
  c ∈ (s.room t).pair

instance (s : ServerState) (t : RoutingTag) (c : ConnectionId) : Decidable (s.Seated t c) :=
  inferInstanceAs (Decidable (_ ∈ _))

theorem room_of_lookup {s : ServerState} {t : RoutingTag} {r : RoutingRecord}
    (h : s.rtt.lookup t = some r) : s.room t = r := by
  rw [room, h, Option.getD_some]

/-- A seat is only ever in a room of the table. -/
theorem Seated.lookup {s : ServerState} {t : RoutingTag} {c : ConnectionId}
    (h : s.Seated t c) : s.rtt.lookup t = some (s.room t) := by
  rcases hl : s.rtt.lookup t with _ | r
  · rw [Seated, room, hl] at h
    exact absurd h List.not_mem_nil
  · rw [room_of_lookup hl]

@[simp] theorem ct_setRoom (s : ServerState) (t : RoutingTag) (r : RoutingRecord) :
    (s.setRoom t r).ct = s.ct := rfl

theorem lookup_setRoom (s : ServerState) (t t' : RoutingTag) (r : RoutingRecord) :
    (s.setRoom t r).rtt.lookup t' = if t' = t then some r else s.rtt.lookup t' :=
  Finmap.lookup_insert_eq_ite ..

theorem room_setRoom (s : ServerState) (t t' : RoutingTag) (r : RoutingRecord) :
    (s.setRoom t r).room t' = if t' = t then r else s.room t' := by
  rw [room, lookup_setRoom]
  by_cases h : t' = t
  · rw [if_pos h, if_pos h, Option.getD_some]
  · rw [if_neg h, if_neg h, room]

/-- Putting a room full of others back changes nothing: a full room is in the
table. -/
theorem setRoom_self {s : ServerState} {t : RoutingTag} {c : ConnectionId}
    (hfull : ¬ (s.room t).HasSeat c) : s.setRoom t (s.room t) = s := by
  have hl : s.rtt.lookup t = some (s.room t) := by
    cases hl : s.rtt.lookup t with
    | none =>
      have hempty : (s.room t).pair = [] := by rw [room, hl]; rfl
      exact absurd (Or.inl (by rw [hempty]; decide)) hfull
    | some r => rw [room_of_lookup hl]
  have hrtt : s.rtt.insert t (s.room t) = s.rtt := by
    refine Finmap.ext_lookup fun t' => ?_
    rw [Finmap.lookup_insert_eq_ite]
    by_cases ht : t' = t
    · rw [if_pos ht, ht, hl]
    · rw [if_neg ht]
  rw [setRoom, hrtt]

/-- **What a lookup can do.** Either the connection is unknown and nothing
happens, or the room is full of others and nothing happens to its members, or the
connection is seated and then the result depends on the payload and the peer. -/
theorem recordRtr_cases (s : ServerState) (t : RoutingTag) (c : ConnectionId) (hp : Bool) :
    (c ∉ s.ct ∧ s.recordRtrAndGetForwardingQueue t c hp =
      (s, .error (buildErr t c "Connection id not found"))) ∨
    (c ∈ s.ct ∧ (s.room t).seat c = none ∧ s.recordRtrAndGetForwardingQueue t c hp =
      (s.setRoom t (s.room t), .error (buildErr t c "Routing record full"))) ∨
    (c ∈ s.ct ∧ ∃ r, (s.room t).seat c = some r ∧
      ((∃ msg, (hp = false ∨ r.otherConnection c = none) ∧
          s.recordRtrAndGetForwardingQueue t c hp =
            (s.setRoom t r, .error (buildErr t c msg))) ∨
        (hp = true ∧ ∃ d, r.otherConnection c = some d ∧ s.ct.lookup d = none ∧
          s.recordRtrAndGetForwardingQueue t c hp =
            (s.setRoom t (r.remove d), .error (buildErr t c "No other connection"))) ∨
        (hp = true ∧ ∃ d h, r.otherConnection c = some d ∧ s.ct.lookup d = some h ∧
          s.recordRtrAndGetForwardingQueue t c hp = (s.setRoom t r, .ok h)))) := by
  -- the order of the cases is the order of the checks
  by_cases hc : c ∈ s.ct
  · refine Or.inr ?_
    rcases hseat : (s.room t).seat c with _ | r
    · refine Or.inl ⟨hc, rfl, ?_⟩
      simp [recordRtrAndGetForwardingQueue, hc, hseat]
    · refine Or.inr ⟨hc, r, rfl, ?_⟩
      rcases hp with _ | _
      · refine Or.inl ⟨"RecordOnly", Or.inl rfl, ?_⟩
        simp [recordRtrAndGetForwardingQueue, hc, hseat]
      · rcases hother : r.otherConnection c with _ | d
        · refine Or.inl ⟨"No other connection", Or.inr rfl, ?_⟩
          simp [recordRtrAndGetForwardingQueue, hc, hseat, hother]
        · rcases hd : s.ct.lookup d with _ | h
          · refine Or.inr (Or.inl ⟨rfl, d, rfl, hd, ?_⟩)
            simp [recordRtrAndGetForwardingQueue, hc, hseat, hother, hd]
          · refine Or.inr (Or.inr ⟨rfl, d, h, rfl, hd, ?_⟩)
            simp [recordRtrAndGetForwardingQueue, hc, hseat, hother, hd]
  · refine Or.inl ⟨hc, ?_⟩
    simp [recordRtrAndGetForwardingQueue, hc]

/-- A lookup touches no room but its own. -/
theorem recordRtr_lookup_ne {s : ServerState} {t t' : RoutingTag} (c : ConnectionId) (hp : Bool)
    (hne : t' ≠ t) :
    (s.recordRtrAndGetForwardingQueue t c hp).1.rtt.lookup t' = s.rtt.lookup t' := by
  rcases recordRtr_cases s t c hp with ⟨-, h⟩ | ⟨-, -, h⟩ |
    ⟨-, r, -, ⟨msg, -, h⟩ | ⟨-, d, -, -, h⟩ | ⟨-, d, h', -, -, h⟩⟩ <;>
      simp only [h, lookup_setRoom, if_neg hne]

@[simp] theorem ct_removeRecordsFor (s : ServerState) (c : ConnectionId)
    (t : Option RoutingTag) : (s.removeRecordsFor c t).ct = s.ct.erase c := by
  rcases t with _ | t
  · rfl
  · rcases hl : s.rtt.lookup t with _ | r
    · simp [removeRecordsFor, hl]
    · rcases he : (r.remove c).isEmpty with _ | _ <;> simp [removeRecordsFor, hl, he]

/-- What a removal leaves of a room: the room without the connection if the tag
is the one named, and nothing at all once the room is empty. -/
theorem lookup_removeRecordsFor (s : ServerState) (c : ConnectionId) (t : Option RoutingTag)
    (t' : RoutingTag) :
    (s.removeRecordsFor c t).rtt.lookup t' =
      if t = some t' then
        (s.rtt.lookup t').bind fun r => if (r.remove c).pair = [] then none else some (r.remove c)
      else s.rtt.lookup t' := by
  rcases t with _ | t
  · simp [removeRecordsFor]
  · simp only [Option.some.injEq]
    rcases hl : s.rtt.lookup t with _ | r
    · by_cases ht : t = t'
      · subst ht
        simp [removeRecordsFor, hl]
      · simp [removeRecordsFor, hl, ht]
    · rcases he : (r.remove c).pair with _ | ⟨x, xs⟩
      · have hempty : (r.remove c).isEmpty = true := by rw [RoutingRecord.isEmpty, he]; rfl
        by_cases ht : t = t'
        · subst ht
          simp [removeRecordsFor, hl, hempty, he]
        · simp [removeRecordsFor, hl, hempty, ht, Finmap.lookup_erase_ne (Ne.symm ht)]
      · have hempty : (r.remove c).isEmpty = false := by rw [RoutingRecord.isEmpty, he]; rfl
        by_cases ht : t = t'
        · subst ht
          simp [removeRecordsFor, hl, hempty, he, lookup_setRoom]
        · simp only [removeRecordsFor, hl, hempty, lookup_setRoom, if_neg ht,
            if_neg (Ne.symm ht), Bool.false_eq_true, if_false]

end ServerState

end Vamp
