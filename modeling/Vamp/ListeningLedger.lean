import Mathlib.Algebra.BigOperators.Group.List.Basic
import Mathlib.Algebra.Ring.Int.Defs
import Vamp.RepositoryRuns

/-!
# The two ledgers of listened seconds

The seconds for which a track was listened to are counted twice: in total, in its row of
`track_info`, and for each day, in rows of `listened_daily`. Only `add_listened_seconds`
counts, with two statements in one transaction; so the ledgers disagree in the middle of it,
and agree again when it is over, however it ends (`addListenedSeconds_keeps`). All other
operations consist of statements that keep the ledgers (`keptByStatements`).
-/

namespace Vamp

namespace ListeningLedger

open Program Repository

variable {ρ : Type} {α : Type}

/-! ## The ledgers -/

/-- A cell contains the sum of some cells. -/
def Sums (cells : List (Cell ρ)) (total : Cell ρ) : Prop :=
  ∃ ns : List ℤ, cells = ns.map .integer ∧ total = .integer ns.sum

/-- The cells of a track in `listened_daily`. -/
def dailyOf (rows : List (ListenedDaily ρ)) (trackId : ℤ) : List (Cell ρ) :=
  (rows.filter fun row => row.trackId = trackId).map ListenedDaily.listened

/-- **The ledgers agree**: every total is the sum over the days. -/
def LedgersAgree (db : Database ρ) : Prop :=
  ∀ track ∈ db.trackInfo.rows, Sums (dailyOf db.listenedDaily.rows track.id) track.listenedSeconds

/-- The ledgers agree, and `listened_daily` is as it is declared. -/
structure Ledgers (db : Database ρ) : Prop where
  /-- every total is the sum over the days -/
  agree : LedgersAgree db
  /-- `REFERENCES track_info(id)` -/
  references : ∀ row ∈ db.listenedDaily.rows, db.HasTrack row.trackId
  /-- `UNIQUE(date, track_id)` -/
  unique : (db.listenedDaily.rows.map fun row => (row.date, row.trackId)).Nodup

theorem ledgers_empty : Ledgers (Database.empty : Database ρ) :=
  ⟨nofun, nofun, List.nodup_nil⟩

/-! ## Statements that do not touch the ledgers -/

/-- The two tables of the ledgers are what they were. -/
def Untouched (db db' : Database ρ) : Prop :=
  db'.trackInfo = db.trackInfo ∧ db'.listenedDaily = db.listenedDaily

theorem Untouched.refl (db : Database ρ) : Untouched db db := ⟨rfl, rfl⟩

theorem Ledgers.of_untouched {db db' : Database ρ} (h : Ledgers db) (hdb : Untouched db db') :
    Ledgers db' := by
  obtain ⟨htracks, hdaily⟩ := hdb
  refine ⟨?_, ?_, ?_⟩
  · rw [LedgersAgree, htracks, hdaily]
    exact h.agree
  · rw [hdaily]
    intro row hrow
    rw [Database.HasTrack, htracks]
    exact h.references row hrow
  · rw [hdaily]
    exact h.unique

theorem keeps_of_untouched {statement : Database ρ → Except SqlxError (α × Database ρ)}
    (h : ∀ db a db', statement db = .ok (a, db') → Untouched db db') : Keeps Ledgers statement :=
  fun db a db' hdb hrun => hdb.of_untouched (h db a db' hrun)

theorem keeps_insertSources (sources : List (ℤ × String)) :
    Keeps Ledgers (Database.insertSources (ρ := ρ) sources) := by
  refine keeps_of_untouched fun db id db' h => ?_
  obtain ⟨trackSources, rfl⟩ := Database.insertSources_changes h
  exact .refl db

theorem keeps_insertAssignments (pairs : List (ℤ × ℤ)) :
    Keeps Ledgers (Database.insertAssignments (ρ := ρ) pairs) := by
  refine keeps_of_untouched fun db _ db' h => ?_
  obtain ⟨tagAssignments, rfl⟩ := Database.insertAssignments_changes h
  exact .refl db

theorem keeps_insertListen (trackId listenedFrom listenedTo : ℤ) :
    Keeps Ledgers (Database.insertListen (ρ := ρ) trackId listenedFrom listenedTo) := by
  refine keeps_of_untouched fun db id db' h => ?_
  obtain ⟨listenInfo, rfl⟩ := Database.insertListen_changes h
  exact .refl db

theorem keeps_insertTag (name : String) :
    Keeps Ledgers (Database.insertTag (ρ := ρ) name) := by
  refine keeps_of_untouched fun db id db' h => ?_
  obtain ⟨tags, rfl, -⟩ := Database.insertTag_changes h
  exact .refl db

theorem keeps_insertMeta (trackId : ℤ) (key value : String) :
    Keeps Ledgers (Database.insertMeta (ρ := ρ) trackId key value) := by
  refine keeps_of_untouched fun db id db' h => ?_
  obtain ⟨trackMeta, rfl⟩ := Database.insertMeta_changes h
  exact .refl db

theorem keeps_insertError (errorText : String) :
    Keeps Ledgers (Database.insertError (ρ := ρ) errorText) := by
  refine keeps_of_untouched fun db id db' h => ?_
  obtain ⟨errors, rfl, -⟩ := Database.insertError_changes h
  exact .refl db

theorem keeps_insertConflict (c : NewTrackConflict ρ) (sameTrackId : ℤ) :
    Keeps Ledgers (Database.insertConflict c sameTrackId) := by
  refine keeps_of_untouched fun db id db' h => ?_
  obtain ⟨trackAddConflicts, rfl⟩ := Database.insertConflict_changes h
  exact .refl db

theorem keeps_insertRemoved (data : String) :
    Keeps Ledgers (Database.insertRemoved (ρ := ρ) data) := by
  refine keeps_of_untouched fun db id db' h => ?_
  obtain ⟨removedTracks, rfl⟩ := Database.insertRemoved_changes h
  exact .refl db

theorem keeps_updateTag (id : ℤ) (name : String) :
    Keeps Ledgers (Database.updateTag (ρ := ρ) id name) := by
  refine keeps_of_untouched fun db _ db' h => ?_
  obtain ⟨tags, rfl, -⟩ := Database.updateTag_changes h
  exact .refl db

theorem keeps_deleteTag (id : ℤ) : Keeps Ledgers (Database.deleteTag (ρ := ρ) id) := by
  refine keeps_of_untouched fun db _ db' h => ?_
  unfold Database.deleteTag at h
  split at h <;>
  · obtain ⟨-, rfl⟩ := Prod.mk.inj (Except.ok.inj h)
    exact .refl db

/-- The statements that change one other table, without a check. -/
theorem keeps_of_ok {change : Database ρ → Database ρ} (h : ∀ db, Untouched db (change db)) :
    Keeps (ε := SqlxError) Ledgers fun db => .ok ((), change db) := by
  refine keeps_of_untouched fun db _ db' hrun => ?_
  obtain ⟨-, rfl⟩ := Prod.mk.inj (Except.ok.inj hrun)
  exact h db

theorem keeps_updateMeta (id : ℤ) (value : String) :
    Keeps Ledgers (Database.updateMeta (ρ := ρ) id value) := keeps_of_ok .refl

theorem keeps_deleteAssignment (trackId tagId : ℤ) :
    Keeps Ledgers (Database.deleteAssignment (ρ := ρ) trackId tagId) := keeps_of_ok .refl

theorem keeps_deleteMeta (id : ℤ) :
    Keeps Ledgers (Database.deleteMeta (ρ := ρ) id) := keeps_of_ok .refl

theorem keeps_deleteSource (trackId : ℤ) (url : String) :
    Keeps Ledgers (Database.deleteSource (ρ := ρ) trackId url) := keeps_of_ok .refl

/-! ## Statements on `track_info` -/

theorem dailyOf_eq_nil {rows : List (ListenedDaily ρ)} {trackId : ℤ}
    (h : ∀ row ∈ rows, row.trackId ≠ trackId) : dailyOf rows trackId = [] := by
  rw [dailyOf, List.filter_eq_nil_iff.mpr fun row hrow => by simpa using h row hrow]
  rfl

theorem Sums.nil : Sums ([] : List (Cell ρ)) (.integer 0) := ⟨[], rfl, rfl⟩

/-- A track that is added has not been listened to. -/
theorem keeps_insertTrack {db db' : Database ρ} {t : NewTrack ρ} (hdb : Ledgers db)
    (h : db.insertTrack t = .ok db') : Ledgers db' := by
  unfold Database.insertTrack at h
  split at h
  · cases h
  split at h
  · cases h
  obtain ⟨table, htable, h⟩ := ok_of_bind h
  obtain rfl := Except.ok.inj h
  obtain ⟨hrows, hfresh⟩ := Database.insertInto_eq_ok htable
  refine ⟨?_, ?_, hdb.unique⟩
  · intro track htrack
    rw [hrows] at htrack
    rcases List.mem_append.mp htrack with hold | hnew
    · exact hdb.agree track hold
    · obtain rfl := List.mem_singleton.mp hnew
      rw [dailyOf_eq_nil]
      · exact Sums.nil
      · intro row hrow heq
        obtain ⟨track, htrack, hid⟩ := hdb.references row hrow
        exact hfresh track htrack (hid.trans heq)
  · intro row hrow
    obtain ⟨track, htrack, hid⟩ := hdb.references row hrow
    exact ⟨track, hrows ▸ List.mem_append_left _ htrack, hid⟩

theorem keeps_insertTracks (ts : List (NewTrack ρ)) :
    Keeps Ledgers (Database.insertTracks ts) := by
  intro db id db' hdb h
  obtain ⟨db₁, hfold, h⟩ := ok_of_bind h
  obtain ⟨-, rfl⟩ := Prod.mk.inj (Except.ok.inj h)
  exact foldlM_keeps (fun _ _ _ => keeps_insertTrack) hdb hfold

/-- An update does not change what was listened to. -/
theorem keeps_updateTrack (id : ℤ) (u : TrackUpdate ρ) :
    Keeps Ledgers (Database.updateTrack id u) := by
  intro db _ db' hdb h
  unfold Database.updateTrack at h
  split at h
  · cases h
  · obtain ⟨-, rfl⟩ := Prod.mk.inj (Except.ok.inj h)
    refine ⟨?_, ?_, hdb.unique⟩
    · intro track htrack
      obtain ⟨old, hold, rfl⟩ := List.mem_map.mp htrack
      have hagree := hdb.agree old hold
      split
      · exact hagree
      · exact hagree
    · intro row hrow
      obtain ⟨track, htrack, hid⟩ := hdb.references row hrow
      refine ⟨_, List.mem_map_of_mem htrack, ?_⟩
      split
      · exact hid
      · exact hid

/-- A deletion takes the days with it. -/
theorem keeps_deleteTrack (id : ℤ) : Keeps Ledgers (Database.deleteTrack (ρ := ρ) id) := by
  intro db _ db' hdb h
  unfold Database.deleteTrack at h
  split at h
  · obtain ⟨-, rfl⟩ := Prod.mk.inj (Except.ok.inj h)
    refine ⟨?_, ?_, ?_⟩
    · intro track htrack
      obtain ⟨hold, hne⟩ := List.mem_filter.mp htrack
      have hdaily : dailyOf (db.listenedDaily.rows.filter fun row => row.trackId ≠ id) track.id =
          dailyOf db.listenedDaily.rows track.id := by
        rw [dailyOf, dailyOf, List.filter_filter]
        refine congrArg _ (List.filter_congr fun row _ => ?_)
        have hne' : track.id ≠ id := of_decide_eq_true hne
        by_cases hrow : row.trackId = track.id
        · simp [hrow, hne']
        · simp [hrow]
      exact hdaily ▸ hdb.agree track hold
    · intro row hrow
      obtain ⟨hrow, hne⟩ := List.mem_filter.mp hrow
      obtain ⟨track, htrack, hid⟩ := hdb.references row hrow
      have hne' : track.id ≠ id := hid ▸ of_decide_eq_true hne
      exact ⟨track, List.mem_filter.mpr ⟨htrack, decide_eq_true hne'⟩, hid⟩
    · exact hdb.unique.sublist (List.filter_sublist.map _)
  · obtain ⟨-, rfl⟩ := Prod.mk.inj (Except.ok.inj h)
    exact hdb

/-! ## Counting -/

section Counting

variable {beyond : Cell ρ → Cell ρ → Cell ρ} {date : String} {trackId seconds : ℤ}
  {rows : List (ListenedDaily ρ)}

/-- The total of the track and its count for the day stay in 64 bits when seconds are added. -/
structure SumsFit (date : String) (trackId seconds : ℤ) (db : Database ρ) : Prop where
  /-- the total -/
  total : ∀ track ∈ db.trackInfo.rows, track.id = trackId →
    ∀ n, track.listenedSeconds = .integer n → IsI64 (n + seconds)
  /-- the day -/
  day : ∀ row ∈ db.listenedDaily.rows, row.date = date → row.trackId = trackId →
    ∀ n, row.listened = .integer n → IsI64 (n + seconds)

theorem add_integer {n : ℤ} (h : IsI64 (n + seconds)) :
    (Cell.integer n).add beyond (.integer seconds) = .integer (n + seconds) :=
  if_pos h

theorem dailyOf_append (rows rows' : List (ListenedDaily ρ)) (trackId : ℤ) :
    dailyOf (rows ++ rows') trackId = dailyOf rows trackId ++ dailyOf rows' trackId := by
  rw [dailyOf, List.filter_append, List.map_append]
  rfl

theorem dailyOf_cons (row : ListenedDaily ρ) (rows : List (ListenedDaily ρ)) (trackId : ℤ) :
    dailyOf (row :: rows) trackId =
      if row.trackId = trackId then row.listened :: dailyOf rows trackId
      else dailyOf rows trackId := by
  by_cases h : row.trackId = trackId
  · simp [dailyOf, h]
  · simp [dailyOf, h]

theorem countOn_of_not {row : ListenedDaily ρ} (h : ¬(row.date = date ∧ row.trackId = trackId)) :
    Database.countOn beyond date trackId seconds row = row := if_neg h

theorem countOn_key (row : ListenedDaily ρ) :
    (Database.countOn beyond date trackId seconds row).date = row.date ∧
      (Database.countOn beyond date trackId seconds row).trackId = row.trackId := by
  unfold Database.countOn
  split <;> exact ⟨rfl, rfl⟩

/-- Rows for other days and tracks stay as they are. -/
theorem map_countOn_of_not (beyond : Cell ρ → Cell ρ → Cell ρ) (seconds : ℤ)
    (h : ∀ row ∈ rows, ¬(row.date = date ∧ row.trackId = trackId)) :
    rows.map (Database.countOn beyond date trackId seconds) = rows :=
  (List.map_congr_left fun row hrow => countOn_of_not (h row hrow)).trans (List.map_id rows)

/-- The days of the other tracks stay as they are. -/
theorem dailyOf_countOn_of_ne {other : ℤ} (h : other ≠ trackId) :
    dailyOf (rows.map (Database.countOn beyond date trackId seconds)) other =
      dailyOf rows other := by
  induction rows with
  | nil => rfl
  | cons row rows ih =>
    rw [List.map_cons, dailyOf_cons, dailyOf_cons, ih, (countOn_key row).2]
    split
    · case isTrue hother =>
      rw [countOn_of_not fun hrow => h (hother.symm.trans hrow.2)]
    · rfl

/-- The sum over the days of the track grows by the seconds. -/
theorem sums_countOn (hunique : (rows.map fun row => (row.date, row.trackId)).Nodup)
    (hday : ∀ row ∈ rows, row.date = date → row.trackId = trackId →
      ∀ n, row.listened = .integer n → IsI64 (n + seconds))
    (hexists : ∃ row ∈ rows, row.date = date ∧ row.trackId = trackId) {n : ℤ}
    (hsums : Sums (dailyOf rows trackId) (.integer n)) :
    Sums (dailyOf (rows.map (Database.countOn beyond date trackId seconds)) trackId)
      (.integer (n + seconds)) := by
  obtain ⟨row, hrow, hdate, htrack⟩ := hexists
  obtain ⟨before, after, rfl⟩ := List.append_of_mem hrow
  rw [List.map_append, List.map_cons] at hunique
  -- by the key, no other row is counted on
  have hother : ∀ row' ∈ before ++ after, ¬(row'.date = date ∧ row'.trackId = trackId) := by
    rintro row' hrow' ⟨hdate', htrack'⟩
    refine (List.nodup_middle.mp hunique).notMem ?_
    rw [← List.map_append, List.mem_map]
    exact ⟨row', hrow', by rw [hdate, htrack, hdate', htrack']⟩
  have hbefore := map_countOn_of_not beyond seconds fun row' hrow' =>
    hother row' (List.mem_append_left _ hrow')
  have hafter := map_countOn_of_not beyond seconds fun row' hrow' =>
    hother row' (List.mem_append_right _ hrow')
  -- the cell of the day is one of those that are summed up
  obtain ⟨ns, hcells, hn⟩ := hsums
  rw [dailyOf_append, dailyOf_cons, if_pos htrack] at hcells
  obtain ⟨as, bs, rfl, has, hbs⟩ := List.map_eq_append_iff.mp hcells.symm
  obtain ⟨m, cs, rfl, hm, hcs⟩ := List.map_eq_cons_iff.mp hbs
  have hlistened : (Database.countOn beyond date trackId seconds row).listened =
      .integer (m + seconds) := by
    rw [Database.countOn, if_pos ⟨hdate, htrack⟩]
    simp only [← hm]
    exact add_integer (hday row hrow hdate htrack m hm.symm)
  refine ⟨as ++ (m + seconds) :: cs, ?_, ?_⟩
  · rw [List.map_append, List.map_cons, hbefore, hafter, dailyOf_append, dailyOf_cons,
      (countOn_key row).2, if_pos htrack, hlistened, List.map_append, List.map_cons, has, hcs]
  · obtain rfl := Cell.integer.inj hn
    simp only [List.sum_append, List.sum_cons]
    congr 1
    omega

/-- The totals agree with days to which the same seconds were added. -/
theorem agree_of_credit {db : Database ρ} (hagree : LedgersAgree db)
    (hfit : SumsFit date trackId seconds db)
    (hother : ∀ other, other ≠ trackId →
      dailyOf rows other = dailyOf db.listenedDaily.rows other)
    (hthis : ∀ n, Sums (dailyOf db.listenedDaily.rows trackId) (.integer n) →
      Sums (dailyOf rows trackId) (.integer (n + seconds))) :
    ∀ track ∈ db.trackInfo.rows.map (Database.credit beyond trackId seconds),
      Sums (dailyOf rows track.id) track.listenedSeconds := by
  intro track htrack
  obtain ⟨old, hold, rfl⟩ := List.mem_map.mp htrack
  have hsums := hagree old hold
  rw [Database.credit_id]
  unfold Database.credit
  split
  · case isTrue hid =>
    rw [hid] at hsums ⊢
    obtain ⟨ns, hcells, htotal⟩ := hsums
    have hnew := hthis ns.sum ⟨ns, hcells, rfl⟩
    simp only [htotal, add_integer (hfit.total old hold hid _ htotal)]
    exact hnew
  · case isFalse hid =>
    rw [hother old.id hid]
    exact hsums

/-- The keys of the days stay as they are. -/
theorem map_key_countOn (rows : List (ListenedDaily ρ)) :
    (rows.map (Database.countOn beyond date trackId seconds)).map
      (fun row => (row.date, row.trackId)) = rows.map fun row => (row.date, row.trackId) := by
  rw [List.map_map]
  exact List.map_congr_left fun row _ => Prod.ext (countOn_key row).1 (countOn_key row).2

/-- **Counting twice keeps the ledgers**: in the total, and on the day. -/
theorem ledgers_of_counted {db db₁ db₂ : Database ρ} (hdb : Ledgers db)
    (hfit : SumsFit date trackId seconds db)
    (hadd : Database.addListened beyond trackId seconds db = .ok ((), db₁))
    (hupsert : Database.upsertDaily beyond date trackId seconds db₁ = .ok ((), db₂)) :
    Ledgers db₂ := by
  obtain ⟨-, rfl⟩ := Prod.mk.inj (Except.ok.inj hadd)
  obtain ⟨htracks, hrows⟩ := Database.upsertDaily_cases hupsert
  have hreferences : ∀ id, db.HasTrack id → db₂.HasTrack id := by
    rintro id ⟨track, htrack, hid⟩
    refine ⟨Database.credit beyond trackId seconds track, ?_, (Database.credit_id ..).trans hid⟩
    rw [htracks]
    exact List.mem_map_of_mem htrack
  rcases hrows with ⟨hexists, hrows⟩ | ⟨hnone, htrack, id, hrows⟩
  · -- the row of the day is changed
    refine ⟨?_, ?_, ?_⟩
    · rw [LedgersAgree, htracks, hrows]
      refine agree_of_credit hdb.agree hfit (fun other hne => dailyOf_countOn_of_ne hne) ?_
      exact fun n hn => sums_countOn hdb.unique hfit.day hexists hn
    · intro row hrow
      rw [hrows] at hrow
      obtain ⟨old, hold, rfl⟩ := List.mem_map.mp hrow
      rw [(countOn_key old).2]
      exact hreferences _ (hdb.references old hold)
    · rw [hrows, map_key_countOn]
      exact hdb.unique
  · -- the day gets a row
    refine ⟨?_, ?_, ?_⟩
    · rw [LedgersAgree, htracks, hrows]
      refine agree_of_credit hdb.agree hfit (fun other hne => ?_) ?_
      · rw [dailyOf_append, dailyOf_cons, if_neg (Ne.symm hne)]
        exact List.append_nil _
      · rintro n ⟨ns, hcells, hn⟩
        obtain rfl := Cell.integer.inj hn
        refine ⟨ns ++ [seconds], ?_, ?_⟩
        · rw [dailyOf_append, dailyOf_cons, if_pos rfl, List.map_append]
          exact congrArg (· ++ _) hcells
        · rw [List.sum_append, List.sum_singleton]
    · intro row hrow
      rw [hrows] at hrow
      rcases List.mem_append.mp hrow with hold | hnew
      · exact hreferences _ (hdb.references row hold)
      · obtain rfl := List.mem_singleton.mp hnew
        obtain ⟨track, htrack, hid⟩ := htrack
        exact ⟨track, htracks ▸ htrack, hid⟩
    · rw [hrows, List.map_append, List.map_singleton, ← List.concat_eq_append]
      refine hdb.unique.concat fun hmem => ?_
      obtain ⟨row, hrow, hkey⟩ := List.mem_map.mp hmem
      exact hnone row hrow (Prod.mk.inj hkey)

end Counting

/-! ## Runs -/

/-- All statements but those that count keep the ledgers. -/
theorem keptByStatements : KeptByStatements (Ledgers : Database ρ → Prop) where
  insertTracks := keeps_insertTracks
  insertSources := keeps_insertSources
  insertListen := keeps_insertListen
  insertTag := keeps_insertTag
  insertAssignments := keeps_insertAssignments
  insertMeta := keeps_insertMeta
  insertError := keeps_insertError
  insertConflict := keeps_insertConflict
  insertRemoved := keeps_insertRemoved
  updateTrack := keeps_updateTrack
  updateTag := keeps_updateTag
  updateMeta := keeps_updateMeta
  deleteTrack := keeps_deleteTrack
  deleteTag := keeps_deleteTag
  deleteAssignment := keeps_deleteAssignment
  deleteMeta := keeps_deleteMeta
  deleteSource := keeps_deleteSource

/-- The first statement has been executed on tables with the ledgers. -/
def Credited (env : Environment ρ) (date : String) (trackId seconds : ℤ) (db₁ : Database ρ) :
    Prop :=
  ∃ db, Ledgers db ∧ SumsFit date trackId seconds db ∧
    Database.addListened env.beyond trackId seconds db = .ok ((), db₁)

/-- **The operation that counts** keeps the ledgers as well, when the sums fit. -/
theorem addListenedSeconds_keeps (env : Environment ρ) (date : String) (trackId seconds : ℤ) :
    Triple (Committed fun db => Ledgers db ∧ SumsFit date trackId seconds db)
      (addListenedSeconds env date trackId seconds) (fun _ => Committed Ledgers)
      (Committed Ledgers) := by
  have hlog := keptByStatements (ρ := ρ)
  have hbegin : Triple
      (Committed fun db : Database ρ => Ledgers db ∧ SumsFit date trackId seconds db)
      (beginTx : Operation ρ Unit)
      (fun _ => Within Ledgers fun db => Ledgers db ∧ SumsFit date trackId seconds db)
      (Committed Ledgers) :=
    Triple.mono (fun _ => id) Triple.beginTx (fun _ _ h => ⟨h.1.1, h.2⟩) fun _ h => h.1
  have hadd : Triple
      (Within Ledgers fun db : Database ρ => Ledgers db ∧ SumsFit date trackId seconds db)
      (execute (Database.addListened env.beyond trackId seconds) : Operation ρ Unit)
      (fun _ => Within Ledgers (Credited env date trackId seconds)) (Committed Ledgers) :=
    Triple.execute fun db _ db₁ hdb hrun => ⟨db, hdb.1, hdb.2, hrun⟩
  have hupsert : Triple (Within Ledgers (Credited env date trackId seconds))
      (execute (Database.upsertDaily env.beyond date trackId seconds) : Operation ρ Unit)
      (fun _ => Within Ledgers Ledgers) (Committed Ledgers) := by
    refine Triple.execute ?_
    rintro db₁ _ db₂ ⟨db, hdb, hfit, hadd⟩ hupsert
    exact ledgers_of_counted hdb hfit hadd hupsert
  refine Triple.scope ((hlog.tryLog hbegin).bind fun _ => (hlog.tryLog hadd).bind fun _ => ?_)
  exact (hlog.tryLog hupsert).bind fun _ => hlog.tryLog (Triple.commit fun _ => id)

/-- The sums stay in 64 bits when a call counts. -/
def FitsNext (db : Database ρ) (t : Turn ρ) : Prop :=
  ∀ date trackId seconds, t.call = .addListenedSeconds date trackId seconds →
    SumsFit date trackId seconds db

theorem ledgers_turn {env : Environment ρ} {db : Database ρ} {t : Turn ρ} (hdb : Ledgers db)
    (hfit : FitsNext db t) : Ledgers (turn env db t) := by
  by_cases hcount : ∃ date trackId seconds, t.call = .addListenedSeconds date trackId seconds
  · obtain ⟨date, trackId, seconds, hcall⟩ := hcount
    have hkeeps := (addListenedSeconds_keeps env date trackId seconds).final
      (s := ⟨db, none, t.faults⟩) ⟨hdb, hfit date trackId seconds hcall⟩
    rw [turn, hcall]
    exact hkeeps
  · have hcall : ∀ date trackId seconds, t.call ≠ .addListenedSeconds date trackId seconds :=
      fun date trackId seconds h => hcount ⟨date, trackId, seconds, h⟩
    exact (keptByStatements.preserves env t.call hcall).final (s := ⟨db, none, t.faults⟩) hdb

/-- **The ledgers agree** after any operations, whether they succeed or fail, on the database
of a new installation, as long as the sums fit. -/
theorem ledgers_agree (env : Environment ρ) {turns : List (Turn ρ)} {db : Database ρ}
    (hrun : (repository env).run (repository env).init turns = some db)
    (hfit : (repository env).Along FitsNext (repository env).init turns) : LedgersAgree db := by
  refine (StateMachine.run_induction (M := repository env)
    (P := fun turns db => (repository env).Along FitsNext (repository env).init turns →
      Ledgers db) (fun _ => ledgers_empty) ?_ hrun hfit).agree
  intro turns db t db' hrun ih hstep hfit
  obtain rfl : turn env db t = db' := Option.some.inj hstep
  exact ledgers_turn (ih hfit.init) (hfit.last hrun)

/-- A track is added and listened to, another one is not there, and an addition fails when it
is committed. -/
def listening : List (Turn ℤ) :=
  [⟨.addTrack ⟨"Chopin", "Nocturne", some 270, none, none, "2024", ["nocturne.mp3"]⟩, []⟩,
    ⟨.addListenedSeconds "01-01-2024" 1 30, []⟩,
    ⟨.addListenedSeconds "01-01-2024" 2 30, []⟩,
    ⟨.addListenedSeconds "02-01-2024" 1 5, [none, none, none, some (.io "disk")]⟩]

/-- The sum of a cell and seconds fits, if it is an integer. -/
def cellFits (seconds : ℤ) : Cell ρ → Bool
  | .integer n => IsI64 (n + seconds)
  | .real _ => true

/-- All sums fit when a call counts. -/
def allFit (db : Database ρ) (t : Turn ρ) : Bool :=
  match t.call with
  | .addListenedSeconds _ _ seconds =>
    db.trackInfo.rows.all (fun track => cellFits seconds track.listenedSeconds) &&
      db.listenedDaily.rows.all fun row => cellFits seconds row.listened
  | _ => true

theorem fitsNext_of_allFit {db : Database ρ} {t : Turn ρ} (h : allFit db t = true) :
    FitsNext db t := by
  intro date trackId seconds hcall
  rw [allFit, hcall, Bool.and_eq_true, List.all_eq_true, List.all_eq_true] at h
  refine ⟨fun track htrack _ n hn => ?_, fun row hrow _ _ n hn => ?_⟩
  · have hfits := h.1 track htrack
    rw [hn] at hfits
    exact of_decide_eq_true hfits
  · have hfits := h.2 row hrow
    rw [hn] at hfits
    exact of_decide_eq_true hfits

theorem ledgers_agree_listening :
    ∃ db, (repository plainEnvironment).run (repository plainEnvironment).init listening =
        some db ∧
      db.trackInfo.rows.map TrackInfo.listenedSeconds = [.integer 30] ∧
      db.listenedDaily.rows = [⟨1, "01-01-2024", 1, .integer 30⟩] ∧
      db.errors.rows =
        [⟨1, "[add_listened_seconds: commit] error communicating with database: disk"⟩] ∧
      LedgersAgree db := by
  refine ⟨((repository plainEnvironment).run (repository plainEnvironment).init listening).get rfl,
    (Option.some_get _).symm, by decide, by decide, by decide, ?_⟩
  refine ledgers_agree plainEnvironment (Option.some_get rfl).symm ?_
  refine .cons (fitsNext_of_allFit rfl) rfl (.cons (fitsNext_of_allFit rfl) rfl ?_)
  exact .cons (fitsNext_of_allFit rfl) rfl (.cons (fitsNext_of_allFit rfl) rfl .nil)

end ListeningLedger

end Vamp
