import Mathlib.Algebra.BigOperators.Group.List.Basic
import Mathlib.Algebra.Order.BigOperators.Group.List
import Mathlib.Algebra.Order.Ring.Int
import Vamp.CommandCalls
import Vamp.CommandWire
import Vamp.Integrity
import Vamp.ListeningCredit

/-!
# How much can be listened to

Clients say how many seconds a track was listened to, and nobody checks what they say: the only
thing between them and the ledgers is the guard, which has one window for all of them. So whatever
messages come in, and whatever fails, the seconds in the ledgers fit into the time that has passed
(`accounted`), apart from the first record, which finds no window.

Each record keeps others out for nine tenths of its seconds, up to the rounding of floating-point
numbers (`le_window`). The sum over the days is at most what the guard has let pass (`DaysWithin`);
and as this is little, the sums fit into 64 bits, which is all that the two ledgers need to agree.
-/

namespace Vamp

/-! ## Windows -/

theorem two_mul_le_roundEven (n : ℕ) {d : ℕ} (hd : 0 < d) :
    2 * n ≤ 2 * (roundEven n d * d) + d := by
  have hn : n / d * d + n % d = n := Nat.div_add_mod' n d
  have hlt : n % d < d := Nat.mod_lt n hd
  unfold roundEven
  simp only
  split
  · generalize n / d * d = m at *
    omega
  · split
    · rw [Nat.add_mul, Nat.one_mul]
      generalize n / d * d = m at *
      omega
    · have hle : n / d * d ≤ (n / d + n / d % 2) * d :=
        Nat.mul_le_mul_right d (Nat.le_add_right ..)
      generalize n / d * d = m at *
      generalize (n / d + n / d % 2) * d = m' at *
      omega

/-- An `f64` has 53 binary digits. -/
theorem mul_le_roundF64 (n : ℕ) : n * (2 ^ 53 - 1) ≤ roundF64 n * 2 ^ 53 := by
  unfold roundF64
  simp only
  rcases Nat.le_total (n.log2 + 1) 53 with hle | hle
  · -- the number has no more digits than that
    rw [Nat.sub_eq_zero_of_le hle]
    have h := two_mul_le_roundEven n (d := 2 ^ 0) (by decide)
    omega
  · have hn : n ≠ 0 := by
      rintro rfl
      simp at hle
    obtain ⟨k, hk⟩ := Nat.exists_eq_add_of_le hle
    have hunit : n.log2 + 1 - 53 = k := by omega
    have hlog : 2 ^ 52 * 2 ^ k ≤ n := by
      rw [← Nat.pow_add, show 52 + k = n.log2 by omega]
      exact Nat.log2_self_le hn
    have h := two_mul_le_roundEven n (d := 2 ^ k) (Nat.two_pow_pos k)
    rw [hunit]
    omega

/-- **A window has nine tenths** of its seconds, or very nearly so. -/
theorem le_window {d : ℤ} {width : ℕ} (h : window d = some width) :
    0 ≤ d ∧ 899999999 * d.toNat ≤ width := by
  unfold window at h
  split at h
  · cases h
  · case isFalse hd =>
    obtain rfl := Option.some.inj h
    refine ⟨Int.not_lt.mp hd, ?_⟩
    have hf := mul_le_roundF64 (d.toNat * ninetyPercent)
    have hr := two_mul_le_roundEven (roundF64 (d.toNat * ninetyPercent) * 10 ^ 9)
      (d := 2 ^ 53) (by decide)
    rw [ninetyPercent] at *
    omega

/-! ## What a message can say -/

theorem isI32_of_i32 {j : Json} {n : ℤ} (h : Serde.i32 j = some n) : IsI32 n := by
  unfold Serde.i32 at h
  split at h
  · split at h
    · case isTrue hn => exact Option.some.inj h ▸ hn
    · cases h
  · cases h

theorem isI32_seconds {payload : Json} {args : AddListenedSecondsArgs}
    (h : AddListenedSecondsArgs.fromJson payload = some args) : IsI32 args.seconds := by
  refine Serde.Fields.Yields.read (P := fun args => IsI32 args.seconds) ?_ h
  refine .seq (P := IsI32) (.map (P := fun _ => True) (fun _ _ _ => id) (.any _)) ?_
  exact .required fun _ _ => isI32_of_i32

/-- The payload of a command that counts. -/
theorem payload_of_counts {ρ : Type} {numbers : Numbers ρ} {kind : String} {payload : Json}
    {args : AddListenedSecondsArgs}
    (h : Command.readPayload numbers kind payload = some (.addListenedSeconds args)) :
    AddListenedSecondsArgs.fromJson payload = some args := by
  unfold Command.readPayload at h
  split at h
  case h_11 =>
    obtain ⟨_, hargs, ⟨⟩⟩ := Option.map_eq_some_iff.mp h
    exact hargs
  case h_33 => cases h
  all_goals
    obtain ⟨_, -, ⟨⟩⟩ := Option.map_eq_some_iff.mp h

/-- The command in a request has been read from JSON. -/
theorem exists_fromJson_of_read {ρ : Type} {numbers : Numbers ρ} {j : Json} {id : String}
    {cmd : Command ρ}
    (h : DataTransportMessage.read (Command.fromJson numbers) Serde.string j =
      some (.request ⟨id, cmd⟩)) : ∃ payload, Command.fromJson numbers payload = some cmd := by
  obtain ⟨⟨tag, content⟩, -, h⟩ := Option.bind_eq_some_iff.mp h
  obtain ⟨name, -, h⟩ := Option.bind_eq_some_iff.mp h
  unfold DataTransportMessage.readVariant at h
  split at h
  · obtain ⟨_, hrequest, ⟨⟩⟩ := Option.map_eq_some_iff.mp h
    refine Serde.Fields.Yields.readStrict (P := fun request : RemoteRequest (Command ρ) =>
      ∃ payload, Command.fromJson numbers payload = some request.cmd) ?_ hrequest
    refine .seq (P := fun cmd => ∃ payload, Command.fromJson numbers payload = some cmd)
      (.map (P := fun _ => True) (fun _ _ _ h => h) (.any _)) ?_
    exact .required fun payload _ hcmd => ⟨payload, hcmd⟩
  · obtain ⟨_, -, ⟨⟩⟩ := Option.map_eq_some_iff.mp h
  · cases h

namespace ListeningTime

open Program Repository ListeningLedger

variable {ρ α : Type}

/-! ## Sums -/

theorem sum_le_toNat (xs : List ℤ) : xs.sum ≤ (xs.map Int.toNat).sum := by
  induction xs with
  | nil => exact le_refl 0
  | cons x xs ih =>
    rw [List.sum_cons, List.map_cons, List.sum_cons, Nat.cast_add]
    omega

theorem neg_toNat_le_sum (xs : List ℤ) :
    -(((xs.map fun x => (-x).toNat).sum : ℕ) : ℤ) ≤ xs.sum := by
  induction xs with
  | nil => exact le_refl 0
  | cons x xs ih =>
    rw [List.sum_cons, List.map_cons, List.sum_cons, Nat.cast_add]
    omega

/-- Rows that are grouped by what they refer to are among the rows. -/
theorem subperm_groups {ids : List ℤ} (hids : ids.Nodup) (ref : α → ℤ) (rows : List α) :
    (ids.flatMap fun id => rows.filter fun row => ref row = id).Subperm rows := by
  induction ids generalizing rows with
  | nil => exact List.nil_subperm
  | cons id ids ih =>
    obtain ⟨hid, hids⟩ := List.nodup_cons.mp hids
    have hgroups : ids.flatMap (fun id' => (rows.filter fun row => ref row ≠ id).filter
        fun row => ref row = id') =
          ids.flatMap fun id' => rows.filter fun row => ref row = id' := by
      refine List.flatMap_congr fun id' hid' => ?_
      rw [List.filter_filter]
      refine List.filter_congr fun row _ => ?_
      have hne : id' ≠ id := fun heq => hid (heq ▸ hid')
      by_cases href : ref row = id'
      · simp [href, hne]
      · simp [href]
    have hrest := ih hids (rows.filter fun row => ref row ≠ id)
    rw [hgroups] at hrest
    rw [List.flatMap_cons]
    refine ((List.subperm_append_left _).mpr hrest).trans (List.Perm.subperm ?_)
    have hsplit := List.filter_append_perm (fun row => decide (ref row = id)) rows
    simpa using hsplit

theorem sum_map_le {rows rows' : List α} (h : rows'.Subperm rows) (f : α → ℕ) :
    (rows'.map f).sum ≤ (rows.map f).sum := by
  obtain ⟨rows'', hperm, hsub⟩ := h
  rw [← (hperm.map f).sum_eq]
  exact (hsub.map f).sum_le_sum fun _ _ => Nat.zero_le _

/-! ## Days -/

/-- The number in a cell, if it is an integer. -/
def seconds : Cell ρ → ℤ
  | .integer n => n
  | .real _ => 0

@[simp] theorem seconds_integer (n : ℤ) : seconds (.integer n : Cell ρ) = n := rfl

/-- The days count at most `up` seconds, and take back at most `down`. -/
structure DaysWithin (up down : ℕ) (rows : List (ListenedDaily ρ)) : Prop where
  /-- every day counts an integer -/
  integers : ∀ row ∈ rows, row.listened = .integer (seconds row.listened)
  /-- what is counted -/
  up_le : (rows.map fun row => (seconds row.listened).toNat).sum ≤ up
  /-- what is taken back -/
  down_le : (rows.map fun row => (-seconds row.listened).toNat).sum ≤ down

section Days

variable {up down up' down' : ℕ} {rows : List (ListenedDaily ρ)} {date : String} {trackId n : ℤ}

theorem DaysWithin.mono (h : DaysWithin up down rows) (hup : up ≤ up') (hdown : down ≤ down') :
    DaysWithin up' down' rows :=
  ⟨h.integers, h.up_le.trans hup, h.down_le.trans hdown⟩

theorem DaysWithin.subperm (h : DaysWithin up down rows) {rows' : List (ListenedDaily ρ)}
    (hsub : rows'.Subperm rows) : DaysWithin up down rows' :=
  ⟨fun row hrow => h.integers row (hsub.subset hrow), (sum_map_le hsub _).trans h.up_le,
    (sum_map_le hsub _).trans h.down_le⟩

theorem DaysWithin.filter (h : DaysWithin up down rows) (p : ListenedDaily ρ → Bool) :
    DaysWithin up down (rows.filter p) := h.subperm List.filter_sublist.subperm

/-- A day counts no more than all of them. -/
theorem DaysWithin.mem (h : DaysWithin up down rows) {row : ListenedDaily ρ} (hrow : row ∈ rows) :
    -(down : ℤ) ≤ seconds row.listened ∧ seconds row.listened ≤ up := by
  have hup := (List.single_le_sum (fun _ _ => Nat.zero_le _) _ (List.mem_map_of_mem hrow)).trans
    h.up_le
  have hdown := (List.single_le_sum (fun _ _ => Nat.zero_le _) _
    (List.mem_map_of_mem hrow)).trans h.down_le
  omega

/-- The days of a track count no more than all of them. -/
theorem DaysWithin.sum (h : DaysWithin up down rows) :
    -(down : ℤ) ≤ (rows.map fun row => seconds row.listened).sum ∧
      (rows.map fun row => seconds row.listened).sum ≤ up := by
  have hup := sum_le_toNat (rows.map fun row => seconds row.listened)
  have hdown := neg_toNat_le_sum (rows.map fun row => seconds row.listened)
  rw [List.map_map] at hup hdown
  have hup' := h.up_le
  have hdown' := h.down_le
  constructor
  · refine le_trans ?_ hdown
    exact neg_le_neg (Int.ofNat_le.mpr hdown')
  · exact hup.trans (Int.ofNat_le.mpr hup')

/-- A day is added. -/
theorem DaysWithin.append (h : DaysWithin up down rows) (id : ℤ) :
    DaysWithin (up + n.toNat) (down + (-n).toNat) (rows ++ [⟨id, date, trackId, .integer n⟩]) := by
  refine ⟨fun row hrow => ?_, ?_, ?_⟩
  · rcases List.mem_append.mp hrow with hold | hnew
    · exact h.integers row hold
    · obtain rfl := List.mem_singleton.mp hnew
      rfl
  · rw [List.map_append, List.sum_append, List.map_singleton, List.sum_singleton]
    exact Nat.add_le_add_right h.up_le _
  · rw [List.map_append, List.sum_append, List.map_singleton, List.sum_singleton]
    exact Nat.add_le_add_right h.down_le _

/-- By the key, no other day is counted on. -/
theorem not_counted_of_nodup {before after : List (ListenedDaily ρ)} {row : ListenedDaily ρ}
    (hunique : ((before ++ row :: after).map fun row => (row.date, row.trackId)).Nodup)
    (hdate : row.date = date) (htrack : row.trackId = trackId) :
    ∀ row' ∈ before ++ after, ¬(row'.date = date ∧ row'.trackId = trackId) := by
  rintro row' hrow' ⟨hdate', htrack'⟩
  rw [List.map_append, List.map_cons] at hunique
  refine (List.nodup_middle.mp hunique).notMem ?_
  rw [← List.map_append, List.mem_map]
  exact ⟨row', hrow', by rw [hdate, htrack, hdate', htrack']⟩

/-- A day is counted on. -/
theorem DaysWithin.countOn {beyond : Cell ρ → Cell ρ → Cell ρ} (h : DaysWithin up down rows)
    (hunique : (rows.map fun row => (row.date, row.trackId)).Nodup)
    (hfit : ∀ row ∈ rows, IsI64 (seconds row.listened + n))
    (hexists : ∃ row ∈ rows, row.date = date ∧ row.trackId = trackId) :
    DaysWithin (up + n.toNat) (down + (-n).toNat)
      (rows.map (Database.countOn beyond date trackId n)) := by
  obtain ⟨row, hrow, hdate, htrack⟩ := hexists
  obtain ⟨before, after, rfl⟩ := List.append_of_mem hrow
  have hother := not_counted_of_nodup hunique hdate htrack
  have hbefore := map_countOn_of_not beyond n fun row' hrow' =>
    hother row' (List.mem_append_left _ hrow')
  have hafter := map_countOn_of_not beyond n fun row' hrow' =>
    hother row' (List.mem_append_right _ hrow')
  have hlistened : (Database.countOn beyond date trackId n row).listened =
      .integer (seconds row.listened + n) := by
    rw [Database.countOn, if_pos ⟨hdate, htrack⟩]
    have hcell := h.integers row hrow
    simp only
    rw [hcell]
    exact add_integer (hfit row hrow)
  have hup := h.up_le
  have hdown := h.down_le
  simp only [List.map_append, List.map_cons, List.sum_append, List.sum_cons] at hup hdown
  rw [List.map_append, List.map_cons, hbefore, hafter]
  refine ⟨fun row' hrow' => ?_, ?_, ?_⟩
  · rcases List.mem_append.mp hrow' with hold | hrest
    · exact h.integers row' (List.mem_append_left _ hold)
    · rcases List.mem_cons.mp hrest with rfl | hold
      · rw [hlistened]
        rfl
      · exact h.integers row' (List.mem_append_right _ (List.mem_cons_of_mem _ hold))
  · simp only [List.map_append, List.map_cons, List.sum_append, List.sum_cons, hlistened,
      seconds_integer]
    omega
  · simp only [List.map_append, List.map_cons, List.sum_append, List.sum_cons, hlistened,
      seconds_integer]
    omega

end Days

/-! ## Statements -/

variable {up down : ℕ} {db db' : Database ρ}

/-- The days of a database are bounded. -/
def Days (up down : ℕ) (db : Database ρ) : Prop := DaysWithin up down db.listenedDaily.rows

/-- The statements that leave the days alone. -/
theorem keeps_of_days {statement : Database ρ → Except SqlxError (α × Database ρ)}
    (h : ∀ db a db', statement db = .ok (a, db') → db'.listenedDaily = db.listenedDaily) :
    Keeps (Days up down) statement := by
  intro db a db' hdb hrun
  rw [Days, h db a db' hrun]
  exact hdb

/-- The days count no more after any statement that does not count. -/
theorem keptByStatements_days (up down : ℕ) :
    KeptByStatements (Days up down : Database ρ → Prop) where
  insertTracks _ := keeps_of_days fun _ _ _ h => by
    obtain ⟨_, rfl, -⟩ := Database.insertTracks_extends h
    rfl
  insertSources _ := keeps_of_days fun _ _ _ h => by
    obtain ⟨_, rfl⟩ := Database.insertSources_changes h
    rfl
  insertListen _ _ _ := keeps_of_days fun _ _ _ h => by
    obtain ⟨_, rfl⟩ := Database.insertListen_changes h
    rfl
  insertTag _ := keeps_of_days fun _ _ _ h => by
    obtain ⟨_, rfl, -⟩ := Database.insertTag_changes h
    rfl
  insertAssignments _ := keeps_of_days fun _ _ _ h => by
    obtain ⟨_, rfl⟩ := Database.insertAssignments_changes h
    rfl
  insertMeta _ _ _ := keeps_of_days fun _ _ _ h => by
    obtain ⟨_, rfl⟩ := Database.insertMeta_changes h
    rfl
  insertError _ := keeps_of_days fun _ _ _ h => by
    obtain ⟨_, rfl, -⟩ := Database.insertError_changes h
    rfl
  insertConflict _ _ := keeps_of_days fun _ _ _ h => by
    obtain ⟨_, rfl⟩ := Database.insertConflict_changes h
    rfl
  insertRemoved _ := keeps_of_days fun _ _ _ h => by
    obtain ⟨_, rfl⟩ := Database.insertRemoved_changes h
    rfl
  updateTrack _ _ := keeps_of_days fun _ _ _ h => by
    unfold Database.updateTrack at h
    split at h
    · cases h
    · obtain ⟨-, rfl⟩ := Prod.mk.inj (Except.ok.inj h)
      rfl
  updateTag _ _ := keeps_of_days fun _ _ _ h => by
    obtain ⟨_, rfl, -⟩ := Database.updateTag_changes h
    rfl
  updateMeta _ _ := keeps_of_days fun _ _ _ h => by
    obtain ⟨-, rfl⟩ := Prod.mk.inj (Except.ok.inj h)
    rfl
  deleteTrack id db _ db' hdb h := by
    unfold Database.deleteTrack at h
    split at h
    · obtain ⟨-, rfl⟩ := Prod.mk.inj (Except.ok.inj h)
      exact DaysWithin.filter hdb _
    · obtain ⟨-, rfl⟩ := Prod.mk.inj (Except.ok.inj h)
      exact hdb
  deleteTag _ := keeps_of_days fun _ _ _ h => by
    unfold Database.deleteTag at h
    split at h <;>
    · obtain ⟨-, rfl⟩ := Prod.mk.inj (Except.ok.inj h)
      rfl
  deleteAssignment _ _ := keeps_of_days fun _ _ _ h => by
    obtain ⟨-, rfl⟩ := Prod.mk.inj (Except.ok.inj h)
    rfl
  deleteMeta _ := keeps_of_days fun _ _ _ h => by
    obtain ⟨-, rfl⟩ := Prod.mk.inj (Except.ok.inj h)
    rfl
  deleteSource _ _ := keeps_of_days fun _ _ _ h => by
    obtain ⟨-, rfl⟩ := Prod.mk.inj (Except.ok.inj h)
    rfl

/-- The days can be counted on. -/
structure Countable (up down : ℕ) (n : ℤ) (db : Database ρ) : Prop where
  /-- they are bounded -/
  days : Days up down db
  /-- `UNIQUE(date, track_id)` -/
  unique : (db.listenedDaily.rows.map fun row => (row.date, row.trackId)).Nodup
  /-- they stay in 64 bits -/
  fit : ∀ row ∈ db.listenedDaily.rows, IsI64 (seconds row.listened + n)

/-- **The operation that counts**: the days count its seconds, too, or they do not. -/
theorem addListenedSeconds_days (env : Environment ρ) (date : String) (trackId n : ℤ) :
    Triple (Committed (Countable up down n)) (addListenedSeconds env date trackId n)
      (fun _ => Committed (Days (up + n.toNat) (down + (-n).toNat)))
      (Committed (Days (up + n.toNat) (down + (-n).toNat))) := by
  have hlog := keptByStatements_days (ρ := ρ) (up + n.toNat) (down + (-n).toNat)
  have hmono : ∀ db : Database ρ, Countable up down n db →
      Days (up + n.toNat) (down + (-n).toNat) db := fun db hdb =>
    hdb.days.mono (Nat.le_add_right ..) (Nat.le_add_right ..)
  have hbegin : Triple (Committed (Countable (ρ := ρ) up down n)) (beginTx : Operation ρ Unit)
      (fun _ => Within (Days (up + n.toNat) (down + (-n).toNat)) (Countable up down n))
      (Committed (Days (up + n.toNat) (down + (-n).toNat))) :=
    Triple.mono (fun _ => id) Triple.beginTx (fun _ _ h => ⟨hmono _ h.1, h.2⟩)
      fun _ h => hmono _ h
  -- the totals are in another table
  have hadd : Triple (Within (Days (up + n.toNat) (down + (-n).toNat)) (Countable up down n))
      (execute (Database.addListened env.beyond trackId n) : Operation ρ Unit)
      (fun _ => Within (Days (up + n.toNat) (down + (-n).toNat)) (Countable up down n))
      (Committed (Days (up + n.toNat) (down + (-n).toNat))) := by
    refine Triple.execute ?_
    rintro db _ db₁ ⟨hdays, hunique, hfit⟩ hadd
    obtain ⟨-, rfl⟩ := Prod.mk.inj (Except.ok.inj hadd)
    exact ⟨hdays, hunique, hfit⟩
  have hupsert : Triple (Within (Days (up + n.toNat) (down + (-n).toNat)) (Countable up down n))
      (execute (Database.upsertDaily env.beyond date trackId n) : Operation ρ Unit)
      (fun _ => Within (Days (up + n.toNat) (down + (-n).toNat))
        (Days (up + n.toNat) (down + (-n).toNat)))
      (Committed (Days (up + n.toNat) (down + (-n).toNat))) := by
    refine Triple.execute ?_
    rintro db _ db₁ ⟨hdays, hunique, hfit⟩ hupsert
    obtain ⟨-, ⟨hexists, hrows⟩ | ⟨-, -, id, hrows⟩⟩ := Database.upsertDaily_cases hupsert
    · rw [Days, hrows]
      exact DaysWithin.countOn hdays hunique hfit hexists
    · rw [Days, hrows]
      exact DaysWithin.append hdays id
  refine Triple.scope ((hlog.tryLog hbegin).bind fun _ => (hlog.tryLog hadd).bind fun _ => ?_)
  exact (hlog.tryLog hupsert).bind fun _ => hlog.tryLog (Triple.commit fun _ => id)

/-! ## Totals -/

/-- The seconds of all tracks. -/
def listened (db : Database ρ) : ℤ :=
  (db.trackInfo.rows.map fun track => seconds track.listenedSeconds).sum

/-- The days of a track. -/
def daysOf (db : Database ρ) (id : ℤ) : List (ListenedDaily ρ) :=
  db.listenedDaily.rows.filter fun row => row.trackId = id

/-- A total is the sum over the days of the track. -/
theorem total_eq (h : LedgersAgree db) {track : TrackInfo ρ} (htrack : track ∈ db.trackInfo.rows) :
    track.listenedSeconds =
      .integer ((daysOf db track.id).map fun row => seconds row.listened).sum := by
  obtain ⟨ns, hcells, htotal⟩ := h track htrack
  have hns := congrArg (List.map seconds) hcells
  rw [dailyOf, List.map_map, List.map_map] at hns
  rw [htotal, show ns = (daysOf db track.id).map fun row => seconds row.listened from
    (List.map_id ns).symm.trans hns.symm]

/-- The totals count no more than the days. -/
theorem listened_within (h : LedgersAgree db) (hdays : Days up down db) :
    -(down : ℤ) ≤ listened db ∧ listened db ≤ up := by
  have hids : (db.trackInfo.rows.map TrackInfo.id).Nodup := db.trackInfo.nodup
  have hsum := (DaysWithin.subperm hdays (subperm_groups hids ListenedDaily.trackId _)).sum
  rw [List.flatMap_map, List.map_flatMap, List.flatMap_def, List.sum_flatten,
    List.map_map] at hsum
  have htotals : listened db = (db.trackInfo.rows.map fun track =>
      ((daysOf db track.id).map fun row => seconds row.listened).sum).sum := by
    refine congrArg List.sum (List.map_congr_left fun track htrack => ?_)
    rw [total_eq h htrack]
    rfl
  rw [htotals]
  exact hsum

/-- **Little fits**: what can be said in a message can be added. -/
theorem fits (h : Ledgers db) (hdays : Days up down db) (hup : up ≤ 2 ^ 62) (hdown : down ≤ 2 ^ 62)
    {n : ℤ} (hn : IsI32 n) (date : String) (trackId : ℤ) :
    SumsFit date trackId n db ∧ Countable up down n db := by
  have hfit : ∀ m : ℤ, -(down : ℤ) ≤ m → m ≤ up → IsI64 (m + n) := by
    intro m hlow hhigh
    unfold IsI32 at hn
    unfold IsI64
    omega
  have hday : ∀ row ∈ db.listenedDaily.rows, IsI64 (seconds row.listened + n) := fun row hrow =>
    hfit _ (DaysWithin.mem hdays hrow).1 (DaysWithin.mem hdays hrow).2
  refine ⟨⟨fun track htrack _ m hm => ?_, fun row hrow _ _ m hm => ?_⟩, hdays, h.unique, hday⟩
  · have hsum := (DaysWithin.filter hdays fun row => row.trackId = track.id).sum
    rw [total_eq h.agree htrack] at hm
    obtain rfl := Cell.integer.inj hm
    exact hfit _ hsum.1 hsum.2
  · have hrest := hday row hrow
    rwa [hm] at hrest

/-! ## The guard -/

/-- What the guard has let pass, until some time: the first call, and then no more than fits into
the time after it. -/
structure Passed (calls : List ListenGuard.Call) (guard : ListenGuard) (upTo up down : ℕ) :
    Prop where
  /-- nothing before the first call -/
  start : guard.last = none → guard.poisoned = false ∧ calls = [] ∧ up = 0 ∧ down = 0
  /-- and then -/
  later : ∀ t, guard.last = some t → t ≤ upTo ∧ ∃ first rest, calls = first :: rest ∧
    first.now ≤ t ∧ down ≤ (-first.seconds).toNat ∧
    899999999 * up + first.now ≤ 899999999 * first.seconds.toNat + t

theorem last_of_panic {guard : ListenGuard} {now : ℕ} {n : ℤ}
    (h : (guard.shouldRecord window now n).1 = none) :
    (guard.shouldRecord window now n).2.last = guard.last := by
  revert h
  unfold ListenGuard.shouldRecord
  split
  · exact fun _ => rfl
  · split
    · split
      · split <;> exact nofun
      · exact fun _ => rfl
    · exact nofun

section Guard

variable {calls : List ListenGuard.Call} {guard : ListenGuard} {upTo : ℕ}

theorem Passed.mono {upTo' : ℕ} (h : Passed calls guard upTo up down) (hle : upTo ≤ upTo') :
    Passed calls guard upTo' up down :=
  ⟨h.start, fun t ht => ⟨(h.later t ht).1.trans hle, (h.later t ht).2⟩⟩

/-- What has been let pass is little. -/
theorem Passed.le (h : Passed calls guard upTo up down) (hupTo : upTo < 2 ^ 63)
    (hcalls : ∀ call ∈ calls, IsI32 call.seconds) : up ≤ 2 ^ 62 ∧ down ≤ 2 ^ 62 := by
  cases hlast : guard.last with
  | none =>
    obtain ⟨-, -, rfl, rfl⟩ := h.start hlast
    exact ⟨Nat.zero_le _, Nat.zero_le _⟩
  | some t =>
    obtain ⟨hle, first, rest, rfl, -, hdown, hup⟩ := h.later t hlast
    have hfirst := hcalls first (List.mem_cons_self ..)
    unfold IsI32 at hfirst
    omega

/-- A call that is not let pass. -/
theorem Passed.reject {guard' : ListenGuard} (h : Passed calls guard upTo up down)
    (c : ListenGuard.Call) (hlast : guard.last ≠ none) (hsame : guard'.last = guard.last) :
    Passed (calls ++ [c]) guard' upTo up down := by
  refine ⟨fun hnone => absurd (hsame.symm.trans hnone) hlast, fun t ht => ?_⟩
  obtain ⟨hle, first, rest, rfl, hrest⟩ := h.later t (hsame.symm.trans ht)
  exact ⟨hle, first, rest ++ [c], rfl, hrest⟩

/-- **One call**: if it is let pass, its window has gone by. -/
theorem Passed.step (h : Passed calls guard upTo up down) (c : ListenGuard.Call)
    (hnow : upTo ≤ c.now) :
    ((guard.shouldRecord window c.now c.seconds).1 ≠ some true ∧
      Passed (calls ++ [c]) (guard.shouldRecord window c.now c.seconds).2 c.now up down) ∨
    ((guard.shouldRecord window c.now c.seconds).1 = some true ∧
      Passed (calls ++ [c]) (guard.shouldRecord window c.now c.seconds).2 c.now
        (up + c.seconds.toNat) (down + (-c.seconds).toNat)) := by
  rcases guard.shouldRecord_cases window c.now c.seconds with
    ⟨hreply, hwhy, -⟩ | ⟨t, width, -, hlast, -, -, hrun⟩ | ⟨-, hadmits, hrun⟩
  · -- a panic
    have hlast : guard.last ≠ none := fun hnone => by
      rcases hwhy with hpoisoned | ⟨hne, -⟩
      · exact Bool.false_ne_true ((h.start hnone).1.symm.trans hpoisoned)
      · exact hne hnone
    exact .inl ⟨hreply ▸ nofun, (h.mono hnow).reject c hlast (last_of_panic hreply)⟩
  · -- too early
    rw [hrun]
    exact .inl ⟨nofun, (h.mono hnow).reject c (hlast ▸ nofun) rfl⟩
  · rw [hrun]
    refine .inr ⟨rfl, nofun, ?_⟩
    rintro _ ⟨⟩
    refine ⟨Nat.le_refl _, ?_⟩
    cases hlast : guard.last with
    | none =>
      -- the first call
      obtain ⟨-, rfl, rfl, rfl⟩ := h.start hlast
      exact ⟨c, [], rfl, Nat.le_refl _, by omega, by omega⟩
    | some t =>
      obtain ⟨hle, first, rest, rfl, hfirst, hdown, hup⟩ := h.later t hlast
      obtain ⟨width, hwidth, hlate⟩ := hadmits t hlast
      obtain ⟨hpos, hwindow⟩ := le_window hwidth
      exact ⟨first, rest ++ [c], rfl, by omega, by omega, by omega⟩

end Guard

/-! ## Messages -/

open Dispatch AppWsHandler

/-- The call of the guard that a message leads to. -/
def callOf (numbers : Numbers ρ) (parser : Parser) (e : Circumstances × Message) :
    Option ListenGuard.Call :=
  match commandOf numbers parser e.2 with
  | some (.addListenedSeconds ⟨trackId, n⟩) => some ⟨e.1.now, trackId, n⟩
  | _ => none

/-- The calls of the guard that messages lead to. -/
def calls (numbers : Numbers ρ) (parser : Parser) (es : List (Circumstances × Message)) :
    List ListenGuard.Call :=
  es.filterMap (callOf numbers parser)

/-- The seconds fit into the time since the first call, apart from its own: nine tenths of a second
have gone by for each of them. -/
def Bounded (calls : List ListenGuard.Call) (upTo : ℕ) (n : ℤ) : Prop :=
  match calls with
  | [] => n = 0
  | first :: _ => min first.seconds 0 ≤ n ∧
      899999999 * (n - max first.seconds 0) ≤ (upTo : ℤ) - first.now

/-- **What is true of the tables**, whatever has been sent. -/
structure Accounted (calls : List ListenGuard.Call) (upTo : ℕ) (db : Database ρ) : Prop where
  /-- they satisfy the schema -/
  schema : db.SatisfiesSchema
  /-- the ledgers agree -/
  agree : LedgersAgree db
  /-- what they contain is bounded by the time -/
  bounded : Bounded calls upTo (listened db)

/-- What is kept, message by message. -/
structure Kept (calls : List ListenGuard.Call) (upTo : ℕ) (guard : ListenGuard)
    (db : Database ρ) : Prop where
  /-- the schema -/
  schema : db.SatisfiesSchema
  /-- the ledgers -/
  ledgers : Ledgers db
  /-- the days, as far as the guard has let them -/
  days : ∃ up down, Days up down db ∧ Passed calls guard upTo up down

section Runs

variable {env : Environment ρ} {numbers : Numbers ρ} {parser : Parser} {guard : ListenGuard}
  {prior : List ListenGuard.Call} {upTo : ℕ} {c : Circumstances} {cmd : Command ρ} {core : Core ρ}

theorem isI32_of_commandOf {message : Message} {args : AddListenedSecondsArgs}
    (h : commandOf numbers parser message = some (.addListenedSeconds args)) :
    IsI32 args.seconds := by
  unfold commandOf at h
  split at h
  · cases h
  · split at h
    · case h_1 hread =>
      obtain rfl := Option.some.inj h
      obtain ⟨j, -, hread⟩ := Option.bind_eq_some_iff.mp hread
      obtain ⟨payload, hpayload⟩ := exists_fromJson_of_read hread
      obtain ⟨⟨tag, content⟩, -, hpayload⟩ := Option.bind_eq_some_iff.mp hpayload
      obtain ⟨kind, -, hpayload⟩ := Option.bind_eq_some_iff.mp hpayload
      obtain ⟨content', -, hpayload⟩ := Option.bind_eq_some_iff.mp hpayload
      exact isI32_seconds (payload_of_counts hpayload)
    · cases h

/-- What a message says fits into 32 bits. -/
theorem isI32_of_calls {es : List (Circumstances × Message)} {call : ListenGuard.Call}
    (h : call ∈ calls numbers parser es) : IsI32 call.seconds := by
  obtain ⟨⟨c, message⟩, -, hcall⟩ := List.mem_filterMap.mp h
  unfold callOf at hcall
  split at hcall
  · case h_1 trackId n hcmd =>
    obtain rfl := Option.some.inj hcall
    exact isI32_of_commandOf hcmd
  · cases hcall

/-- A command that does not count. -/
theorem Kept.other (h : Kept prior upTo guard db) (hcmd : ∀ args, cmd ≠ .addListenedSeconds args) :
    Kept prior upTo (execute env c guard db cmd).guard (execute env c guard db cmd).repo := by
  rw [execute_guard_of_ne env c guard db hcmd, execute_repo env c guard db hcmd]
  cases hcall : cmd.call c with
  | none => exact h
  | some call =>
    have hne := call_ne_addListenedSeconds hcmd hcall
    obtain ⟨up, down, hdays, hpassed⟩ := h.days
    refine ⟨Integrity.keptByAll_schema.turn env _ h.schema, ?_, up, down, ?_, hpassed⟩
    · exact (ListeningLedger.keptByStatements.preserves env call hne).final
        (s := ⟨db, none, c.faults⟩) h.ledgers
    · exact ((keptByStatements_days up down).preserves env call hne).final
        (s := ⟨db, none, c.faults⟩) hdays

/-- A command that counts. -/
theorem Kept.count (h : Kept prior upTo guard db) {args : AddListenedSecondsArgs}
    (hnow : upTo ≤ c.now) (hupTo : upTo < 2 ^ 63) (hprior : ∀ call ∈ prior, IsI32 call.seconds)
    (hargs : IsI32 args.seconds) :
    Kept (prior ++ [⟨c.now, args.trackId, args.seconds⟩]) c.now
      (execute env c guard db (.addListenedSeconds args)).guard
      (execute env c guard db (.addListenedSeconds args)).repo := by
  obtain ⟨hguard, hrepo⟩ := execute_counts env c guard db args
  obtain ⟨up, down, hdays, hpassed⟩ := h.days
  rw [hguard, hrepo]
  rcases hpassed.step ⟨c.now, args.trackId, args.seconds⟩ hnow with ⟨hno, hstep⟩ | ⟨hyes, hstep⟩
  · rw [if_neg hno]
    exact ⟨h.schema, h.ledgers, up, down, hdays, hstep⟩
  · rw [if_pos hyes, Command.call]
    cases args.trackId.toI64 with
    | none =>
      exact ⟨h.schema, h.ledgers, _, _, hdays.mono (Nat.le_add_right ..) (Nat.le_add_right ..),
        hstep⟩
    | some id =>
      obtain ⟨hup, hdown⟩ := hpassed.le hupTo hprior
      obtain ⟨hfit, hcountable⟩ := fits h.ledgers hdays hup hdown hargs c.date id
      refine ⟨Integrity.keptByAll_schema.turn env _ h.schema, ledgers_turn h.ledgers ?_, _, _, ?_,
        hstep⟩
      · rintro _ _ _ ⟨⟩
        exact hfit
      · exact (addListenedSeconds_days env c.date id args.seconds).final
          (s := ⟨db, none, c.faults⟩) hcountable

theorem callOf_eq_some {e : Circumstances × Message} {args : AddListenedSecondsArgs}
    (h : commandOf numbers parser e.2 = some (.addListenedSeconds args)) :
    callOf numbers parser e = some ⟨e.1.now, args.trackId, args.seconds⟩ := by
  rw [callOf, h]

theorem callOf_eq_none {e : Circumstances × Message}
    (h : ∀ args, commandOf numbers parser e.2 ≠ some (.addListenedSeconds args)) :
    callOf numbers parser e = none := by
  unfold callOf
  split
  · case h_1 trackId n hcmd => exact absurd hcmd (h ⟨trackId, n⟩)
  · rfl

theorem calls_concat (es : List (Circumstances × Message)) (e : Circumstances × Message) :
    calls numbers parser (es ++ [e]) =
      calls numbers parser es ++ (callOf numbers parser e).toList := by
  rw [calls, List.filterMap_append, List.filterMap_cons]
  cases callOf numbers parser e <;> rfl

/-- Time goes by. -/
theorem Kept.mono {upTo' : ℕ} (h : Kept prior upTo guard db) (hle : upTo ≤ upTo') :
    Kept prior upTo' guard db := by
  obtain ⟨up, down, hdays, hpassed⟩ := h.days
  exact ⟨h.schema, h.ledgers, up, down, hdays, hpassed.mono hle⟩

/-- The tables are empty again, but the guard is what it was. -/
theorem Kept.reset (h : Kept prior upTo guard db) :
    Kept prior upTo guard (Database.empty : Database ρ) := by
  obtain ⟨up, down, -, hpassed⟩ := h.days
  refine ⟨Database.satisfiesSchema_empty, ledgers_empty, up, down, ?_, hpassed⟩
  exact ⟨nofun, Nat.zero_le _, Nat.zero_le _⟩

/-- One request that does not count. -/
theorem Kept.dispatch (h : Kept prior upTo core.guard db) (hrepo : core.repo = some db)
    (hcmd : ∀ args, cmd ≠ .addListenedSeconds args) :
    ∃ db', (dispatchWithCore env core ⟨cmd, c⟩).2.repo = some db' ∧
      Kept prior upTo (dispatchWithCore env core ⟨cmd, c⟩).2.guard db' := by
  rcases dispatchWithCore_core env core ⟨cmd, c⟩ with
    ⟨-, hsame⟩ | ⟨-, hempty⟩ | ⟨repo, hrepo', -, hrun⟩
  · rw [hsame]
    exact ⟨db, hrepo, h⟩
  · rw [hempty]
    exact ⟨_, rfl, h.reset⟩
  · obtain rfl : repo = db := Option.some.inj (hrepo'.symm.trans hrepo)
    rw [hrun]
    exact ⟨_, rfl, h.other hcmd⟩

/-- One message. -/
theorem Kept.handle {e : Circumstances × Message} (h : Kept prior upTo core.guard db)
    (env : Environment ρ) (hrepo : core.repo = some db) (hnow : upTo ≤ e.1.now)
    (hupTo : upTo < 2 ^ 63) (hprior : ∀ call ∈ prior, IsI32 call.seconds) :
    ∃ db', (AppWsHandler.handle env numbers parser e.1 core e.2).2.repo = some db' ∧
      Kept (prior ++ (callOf numbers parser e).toList) e.1.now
        (AppWsHandler.handle env numbers parser e.1 core e.2).2.guard db' := by
  rw [handle_cases]
  by_cases hcount : ∃ args, commandOf numbers parser e.2 = some (.addListenedSeconds args)
  · obtain ⟨args, hcmd⟩ := hcount
    rw [callOf_eq_some hcmd, hcmd, Option.elim_some]
    rcases dispatchWithCore_core env core ⟨.addListenedSeconds args, e.1⟩ with
      ⟨hreset | hnone, -⟩ | ⟨hreset, -⟩ | ⟨repo, hrepo', -, hrun⟩
    · cases hreset
    · exact nomatch hrepo.symm.trans hnone
    · cases hreset
    · obtain rfl : repo = db := Option.some.inj (hrepo'.symm.trans hrepo)
      rw [hrun]
      exact ⟨_, rfl, h.count hnow hupTo hprior (isI32_of_commandOf hcmd)⟩
  · rw [callOf_eq_none fun args hcmd => hcount ⟨args, hcmd⟩, Option.toList_none, List.append_nil]
    cases hcmd : commandOf numbers parser e.2 with
    | none => exact ⟨db, hrepo, h.mono hnow⟩
    | some cmd =>
      exact (h.mono hnow).dispatch hrepo fun args heq => hcount ⟨args, heq ▸ hcmd⟩

/-- What is kept is what is wanted. -/
theorem Kept.to_accounted (h : Kept prior upTo guard db) : Accounted prior upTo db := by
  obtain ⟨up, down, hdays, hpassed⟩ := h.days
  obtain ⟨hlow, hhigh⟩ := listened_within h.ledgers.agree hdays
  refine ⟨h.schema, h.ledgers.agree, ?_⟩
  cases hlast : guard.last with
  | none =>
    obtain ⟨-, rfl, rfl, rfl⟩ := hpassed.start hlast
    exact Int.le_antisymm hhigh hlow
  | some t =>
    obtain ⟨hle, first, rest, rfl, hfirst, hdown, hup⟩ := hpassed.later t hlast
    constructor
    · omega
    · rw [Int.mul_sub]
      omega

end Runs

/-- **Whatever messages come in**, and whatever fails, on the database of a new installation: the
tables satisfy the schema, the ledgers agree, and there are no more seconds in them than fit into
the time that has passed. Instants are nanoseconds, and there are 292 years of them. -/
theorem accounted {env : Environment ρ} {numbers : Numbers ρ} {parser : Parser} {isTest : Bool}
    {es : List (Circumstances × Message)} {core : Core ρ} {upTo : ℕ}
    (hrun : (server env numbers parser (.new Database.empty isTest)).run
      (.new Database.empty isTest) es = some core)
    (hordered : es.Pairwise fun a b => a.1.now ≤ b.1.now) (hlast : ∀ e ∈ es, e.1.now ≤ upTo)
    (hupTo : upTo < 2 ^ 63) :
    ∃ db, core.repo = some db ∧ Accounted (calls numbers parser es) upTo db := by
  suffices hkept : ∃ db, core.repo = some db ∧ Kept (calls numbers parser es) upTo core.guard db by
    obtain ⟨db, hrepo, hkept⟩ := hkept
    exact ⟨db, hrepo, hkept.to_accounted⟩
  refine StateMachine.run_induction
    (M := server env numbers parser (.new Database.empty isTest))
    (P := fun es core => es.Pairwise (fun a b => a.1.now ≤ b.1.now) → ∀ upTo < 2 ^ 63,
      (∀ e ∈ es, e.1.now ≤ upTo) →
        ∃ db, core.repo = some db ∧ Kept (calls numbers parser es) upTo core.guard db)
    ?_ ?_ hrun hordered upTo hupTo hlast
  · intro _ upTo _ _
    refine ⟨_, rfl, Database.satisfiesSchema_empty, ledgers_empty, 0, 0, ?_, ?_⟩
    · exact ⟨nofun, Nat.le_refl _, Nat.le_refl _⟩
    · exact ⟨fun _ => ⟨rfl, rfl, rfl, rfl⟩, nofun⟩
  · intro es core e core' _ ih hstep hordered upTo hupTo hlast
    obtain rfl := Option.some.inj hstep
    obtain ⟨hpairs, -, hbefore⟩ := List.pairwise_append.mp hordered
    have he := hlast e (List.mem_append_right _ (List.mem_singleton_self e))
    have hnow : e.1.now < 2 ^ 63 := he.trans_lt hupTo
    obtain ⟨db, hrepo, hkept⟩ := ih hpairs e.1.now hnow fun e' he' =>
      hbefore e' he' e (List.mem_singleton_self e)
    obtain ⟨db', hrepo', hkept'⟩ := hkept.handle env hrepo (Nat.le_refl _) hnow
      fun _ => isI32_of_calls
    rw [calls_concat]
    exact ⟨db', hrepo', hkept'.mono he⟩

/-- Two messages, by their names. -/
def twoMessages : Parser where
  parse
    | "add" => some (requestOf "0" ((Command.addTrack (ρ := ℤ)
        ⟨"Chopin", "Nocturne", some 270, none, none, "2024", ["nocturne.mp3"]⟩).toJson
        ⟨.int, .int⟩))
    | "count" => some (requestOf "1" ((Command.addListenedSeconds (ρ := ℤ) ⟨⟨"1"⟩, 10⟩).toJson
        ⟨.int, .int⟩))
    | _ => none
  complaint _ := "expected value at line 1 column 1"

/-- A track is added and counted three times: at once, five seconds later, and after nine. -/
def counting : List (Circumstances × Message) :=
  [(circumstancesAt 0, .text "add"), (circumstancesAt 0, .text "count"),
    (circumstancesAt 5000000000, .text "count"), (circumstancesAt 9000000000, .text "count")]

/-- The application after that. -/
def counted : Core ℤ :=
  counting.foldl (fun core e => (handle plainEnvironment plainNumbers twoMessages e.1 core e.2).2)
    (.new Database.empty false)

theorem accounted_counting :
    ∃ db, counted.repo = some db ∧ listened db = 20 ∧
      Accounted (calls plainNumbers twoMessages counting) 9000000000 db := by
  have hrun : (server plainEnvironment plainNumbers twoMessages (.new Database.empty false)).run
      (.new Database.empty false) counting = some counted := rfl
  have hlast : ∀ e ∈ counting, e.1.now ≤ 9000000000 := by decide
  obtain ⟨db, hrepo, h⟩ := accounted hrun (by decide) hlast (by decide)
  have hlistened : counted.repo.map listened = some 20 := by decide +kernel
  rw [hrepo] at hlistened
  exact ⟨db, hrepo, Option.some.inj hlistened, h⟩

end ListeningTime

end Vamp
