import Mathlib.Data.Multiset.MapFold
import Vamp.Repository

/-!
# The archive of a deleted track

`delete_track` writes what it deletes as JSON into `removed_tracks`. A deletion takes rows out
of seven tables, six of which are about the track only (`content`). Of these the archive
contains five: the listen history is missing. It also contains the tempo as an `f32`.

The text is as good as what it is made of (`Json.write_injective`), so two contents of a track
can be told apart by their archives unless they differ only there
(`archive_determines_iff`).
-/

namespace Vamp

namespace TrackArchive

open Program Repository SqlPage

variable {ρ : Type} {env : Environment ρ} {db db' : Database ρ} {id : ℤ}

/-! ## What is deleted -/

/-- The rows of a track, without their own keys. -/
@[ext]
structure Content (ρ : Type) : Type where
  /-- `track_info` -/
  info : Option (TrackInfo ρ)
  /-- `track_sources` -/
  urls : Multiset String
  /-- `tag_assignments` -/
  tagIds : Multiset ℤ
  /-- `track_meta` -/
  metas : Multiset (String × String)
  /-- `listened_daily` -/
  days : Multiset (String × Cell ρ)
  /-- `listen_info` -/
  listens : Multiset (ℤ × ℤ)

/-- The row of a track. -/
def infoOf (db : Database ρ) (id : ℤ) : Option (TrackInfo ρ) :=
  db.trackInfo.rows.find? fun row => row.id = id

/-- The listen history of a track. -/
def listensOf (db : Database ρ) (id : ℤ) : Multiset (ℤ × ℤ) :=
  ((db.listenInfo.rows.filter fun row => row.trackId = id).map fun row =>
    (row.listenedFrom, row.listenedTo) : List (ℤ × ℤ))

/-- The assignments of tags that are not there, which foreign keys exclude. -/
def danglingOf (db : Database ρ) (id : ℤ) : Multiset ℤ :=
  ((db.tagAssignments.rows.filter fun row => row.trackId = id ∧ ¬db.HasTag row.tagId).map
    TagAssigned.tagId : List ℤ)

/-- What the deletion of a track deletes. -/
def content (db : Database ρ) (id : ℤ) : Content ρ where
  info := infoOf db id
  urls := ((db.trackSources.rows.filter fun row => row.trackId = id).map TrackSource.url :
    List String)
  tagIds := ((db.tagAssignments.rows.filter fun row => row.trackId = id).map TagAssigned.tagId :
    List ℤ)
  metas := ((db.trackMeta.rows.filter fun row => row.trackId = id).map fun row =>
    (row.key, row.value) : List (String × String))
  days := ((db.listenedDaily.rows.filter fun row => row.trackId = id).map fun row =>
    (row.date, row.listened) : List (String × Cell ρ))
  listens := listensOf db id

/-- A deletion succeeds, and this is what it writes. -/
def Deletes (env : Environment ρ) (db : Database ρ) (id : ℤ) (data : String) : Prop :=
  ∃ s' key, deleteTrack env id ⟨db, none, []⟩ = .ok () s' ∧
    s'.committed.removedTracks.rows = db.removedTracks.rows ++ [⟨key, data⟩]

/-- **The archive determines** what was deleted, as far as these two databases go. -/
def ArchiveDetermines (env : Environment ρ) (db db' : Database ρ) (id : ℤ) : Prop :=
  content db id ≠ content db' id →
    ∀ data data', Deletes env db id data → Deletes env db' id data' → data ≠ data'

/-! ## What a deletion writes -/

/-- The row with a key, as `get_track` returns it. -/
theorem selectTrack_eq_ok {track : TrackRow ρ} :
    Database.selectTrack id db = .ok track ↔ ∃ row total, infoOf db id = some row ∧
      row.listenedSeconds = .integer total ∧
      track = ⟨.fromI64 id, row.artist, row.trackName, some row.lengthSeconds, row.bitrateKbps,
        row.tempoBpm, row.additionTime, total⟩ := by
  unfold Database.selectTrack infoOf
  cases hfind : db.trackInfo.rows.find? fun row => row.id = id with
  | none =>
    constructor
    · exact nofun
    · rintro ⟨_, _, ⟨⟩, -⟩
  | some row =>
    have hid : row.id = id := by simpa using List.find?_some hfind
    subst hid
    simp only [TrackRow.fromRow]
    cases hcell : row.listenedSeconds with
    | integer total =>
      constructor
      · rintro ⟨⟩
        exact ⟨row, total, rfl, hcell, rfl⟩
      · rintro ⟨_, total', ⟨⟩, htotal, rfl⟩
        obtain rfl := Cell.integer.inj (hcell.symm.trans htotal)
        rfl
    | real x =>
      constructor
      · exact nofun
      · rintro ⟨_, total', ⟨⟩, htotal, -⟩
        cases hcell.symm.trans htotal

theorem id_of_infoOf {row : TrackInfo ρ} (h : infoOf db id = some row) : row.id = id := by
  simpa using List.find?_some h

/-- Keys are `i64`s. -/
theorem isI64_of_infoOf {row : TrackInfo ρ} (h : infoOf db id = some row) : IsI64 id := by
  have hmem := List.mem_of_find?_eq_some h
  obtain rfl := id_of_infoOf h
  have hmin := db.trackInfo.min_le row hmem
  have hmax := db.trackInfo.le_seq row hmem
  have hseq := db.trackInfo.seq_mem.2
  unfold minRowid at hmin
  unfold maxRowid at hseq
  exact ⟨hmin, by omega⟩

/-- The archive that is written. -/
def archived (env : Environment ρ) (db : Database ρ) (id : ℤ) (row : TrackInfo ρ) (total : ℤ)
    (days : List (String × ℤ)) : Json :=
  archive env id ⟨.fromI64 id, row.artist, row.trackName, some row.lengthSeconds, row.bitrateKbps,
    row.tempoBpm, row.additionTime, total⟩ (db.selectSources id) (db.selectTagsForTrack id)
    (db.selectMeta id) days

/-- What an undisturbed deletion does. -/
theorem deleteTrack_eq_ok {s' : Session (Database ρ) SqlxError} :
    deleteTrack env id ⟨db, none, []⟩ = .ok () s' ↔ ∃ track days n db₁ db₂,
      db.selectTrack id = .ok track ∧ db.selectDaily id = .ok days ∧ track.id.toI64 = some n ∧
      db.insertRemoved (archive env n track (db.selectSources id) (db.selectTagsForTrack id)
        (db.selectMeta id) days).write = .ok ((), db₁) ∧
      db₁.deleteTrack id = .ok ((), db₂) ∧ ⟨db₂, none, []⟩ = s' := by
  simp only [deleteTrack, tryLog, deleteTrackUnlogged, logging_eq_ok, scope_eq_ok, bind_eq_ok,
    beginTx_eq_ok, fetch_eq_ok, execute_eq_ok, commit_eq_ok, orCrash_eq_ok, exists_and_left,
    Except.ok.injEq, and_assoc, ↓existsAndEq, true_and]
  constructor
  · rintro ⟨⟨⟩, track, htrack, days, hdays, n, hn, ⟨⟩, db₁, hremoved, ⟨⟩, db₂, hdelete, hs'⟩
    exact ⟨track, htrack, days, hdays, n, hn, db₁, hremoved, db₂, hdelete, hs'⟩
  · rintro ⟨track, htrack, days, hdays, n, hn, db₁, hremoved, db₂, hdelete, hs'⟩
    exact ⟨(), track, htrack, days, hdays, n, hn, (), db₁, hremoved, (), db₂, hdelete, hs'⟩

/-- A row is added to `removed_tracks`, if there is a key for it. -/
theorem insertRemoved_eq_ok {data : String} :
    db.insertRemoved data = .ok ((), db') ↔ ∃ table,
      db.removedTracks.insert (fun id => ⟨id, data⟩) (fun _ => rfl) = some table ∧
      { db with removedTracks := table } = db' := by
  unfold Database.insertRemoved Database.insertInto
  cases db.removedTracks.insert (fun id => ⟨id, data⟩) (fun _ => rfl) with
  | none => exact ⟨nofun, nofun⟩
  | some table =>
    constructor
    · rintro ⟨⟩
      exact ⟨table, rfl, rfl⟩
    · rintro ⟨_, ⟨⟩, rfl⟩
      rfl

/-- A deletion of a track never fails and leaves the archives alone. -/
theorem exists_deleteTrack (db : Database ρ) (id : ℤ) :
    ∃ db', db.deleteTrack id = .ok ((), db') ∧ db'.removedTracks = db.removedTracks := by
  unfold Database.deleteTrack
  split
  · exact ⟨_, rfl, rfl⟩
  · exact ⟨_, rfl, rfl⟩

/-- **What is written**: the archive, provided that the sums are integers and there is a key
for it. -/
theorem deletes_iff {data : String} :
    Deletes env db id data ↔ db.removedTracks.seq < maxRowid ∧ ∃ row total days,
      infoOf db id = some row ∧ row.listenedSeconds = .integer total ∧
      db.selectDaily id = .ok days ∧ data = (archived env db id row total days).write := by
  constructor
  · rintro ⟨s', key, hrun, hrows⟩
    obtain ⟨track, days, n, db₁, db₂, htrack, hdays, hn, hremoved, hdelete, rfl⟩ :=
      deleteTrack_eq_ok.mp hrun
    obtain ⟨row, total, hrow, htotal, rfl⟩ := selectTrack_eq_ok.mp htrack
    obtain ⟨table, htable, rfl⟩ := insertRemoved_eq_ok.mp hremoved
    -- cascades do not reach the archive, so its last row is the one that was inserted
    obtain ⟨db₃, hdelete', hkept⟩ := exists_deleteTrack { db with removedTracks := table } id
    obtain ⟨-, rfl⟩ := Prod.mk.inj (Except.ok.inj (hdelete'.symm.trans hdelete))
    obtain rfl : id = n :=
      Option.some.inj ((BigintId.toI64_fromI64 (isI64_of_infoOf hrow)).symm.trans hn)
    obtain ⟨hinserted, hseq⟩ := SqlTable.insert_eq_some htable
    simp only [hkept, hinserted, List.append_cancel_left_eq, List.cons.injEq, and_true,
      RemovedTrack.mk.injEq] at hrows
    refine ⟨?_, row, total, days, hrow, htotal, hdays, hrows.2.symm⟩
    have hmax := table.seq_mem.2
    omega
  · rintro ⟨hseq, row, total, days, hrow, htotal, hdays, rfl⟩
    obtain ⟨table, htable⟩ : ∃ table, db.removedTracks.insert
        (fun key => ⟨key, (archived env db id row total days).write⟩) (fun _ => rfl) =
          some table := ⟨_, dif_pos hseq⟩
    obtain ⟨db₂, hdelete, hkept⟩ := exists_deleteTrack { db with removedTracks := table } id
    refine ⟨⟨db₂, none, []⟩, table.seq, deleteTrack_eq_ok.mpr ⟨_, days, id, _, db₂,
      selectTrack_eq_ok.mpr ⟨row, total, hrow, htotal, rfl⟩, hdays,
      BigintId.toI64_fromI64 (isI64_of_infoOf hrow),
      insertRemoved_eq_ok.mpr ⟨table, htable, rfl⟩, hdelete, rfl⟩, ?_⟩
    simp only [hkept]
    exact (SqlTable.insert_eq_some htable).1

/-! ## What is archived -/

/-- Two databases are the same to the archive of a track. -/
structure SameArchive (env : Environment ρ) (db db' : Database ρ) (id : ℤ) : Prop where
  /-- the row of `track_info`, with the tempo as it is written -/
  info : ∃ row row', infoOf db id = some row ∧ infoOf db' id = some row' ∧
    { row with tempoBpm := none } = { row' with tempoBpm := none } ∧
    row.tempoBpm.bind env.number = row'.tempoBpm.bind env.number
  /-- the URLs, in the order of their keys -/
  urls : (db.selectSources id).map TrackSource.url = (db'.selectSources id).map TrackSource.url
  /-- the tags, with their names -/
  tags : db.selectTagsForTrack id = db'.selectTagsForTrack id
  /-- the metadata, in the order of their keys -/
  metas : ((db.selectMeta id).map fun row => (row.key, row.value)) =
    (db'.selectMeta id).map fun row => (row.key, row.value)
  /-- the days -/
  days : db.selectDaily id = db'.selectDaily id

theorem orNull_injective {α : Type} {toJson : α → Json} (hinj : Function.Injective toJson)
    (hnull : ∀ a, toJson a ≠ .null) : Function.Injective (orNull toJson) := by
  rintro (_ | a) (_ | a') h
  · rfl
  · exact absurd h.symm (hnull a')
  · exact absurd h (hnull a)
  · exact congrArg some (hinj h)

/-- Archives of the same kind of row are the same if the rows are. -/
theorem map_json_inj {α β : Type} {toJson : β → Json} (hinj : Function.Injective toJson)
    {f : α → β} {xs ys : List α}
    (h : (xs.map fun x => toJson (f x)) = ys.map fun y => toJson (f y)) :
    xs.map f = ys.map f := by
  refine List.map_injective_iff.mpr hinj ?_
  rw [List.map_map, List.map_map]
  exact h

theorem pair_injective {α β : Type} {f : α → Json} {g : β → Json} (hf : Function.Injective f)
    (hg : Function.Injective g) :
    Function.Injective fun p : α × β => Json.arr [f p.1, g p.2] := by
  rintro ⟨a, b⟩ ⟨a', b'⟩ h
  obtain ⟨ha, hb⟩ := List.cons.inj (Json.arr.inj h)
  exact Prod.ext (hf ha) (hg (List.cons.inj hb).1)

theorem str_injective : Function.Injective Json.str := fun _ _ => Json.str.inj

theorem int_injective : Function.Injective Json.int := fun _ _ => Json.int.inj

theorem float_injective : Function.Injective Json.float := fun _ _ => Json.float.inj

theorem tag_injective : Function.Injective fun tag : Tag => (tag.id, tag.tagName) := by
  rintro ⟨id, tagName⟩ ⟨id', tagName'⟩ h
  obtain ⟨rfl, rfl⟩ := Prod.mk.inj h
  rfl

/-- The archive determines what it is made of. -/
theorem archived_inj {row row' : TrackInfo ρ} {total total' : ℤ} {days days' : List (String × ℤ)}
    (h : archived env db id row total days = archived env db' id row' total' days') :
    (row.artist = row'.artist ∧ row.trackName = row'.trackName ∧
      row.lengthSeconds = row'.lengthSeconds ∧ row.bitrateKbps = row'.bitrateKbps ∧
      row.additionTime = row'.additionTime ∧
      row.tempoBpm.bind env.number = row'.tempoBpm.bind env.number ∧ total = total') ∧
    (db.selectSources id).map TrackSource.url = (db'.selectSources id).map TrackSource.url ∧
    db.selectTagsForTrack id = db'.selectTagsForTrack id ∧
    ((db.selectMeta id).map fun row => (row.key, row.value)) =
      (db'.selectMeta id).map (fun row => (row.key, row.value)) ∧
    days = days' := by
  simp only [archived, archive, Json.arr.injEq, List.cons.injEq, Json.str.injEq, Json.int.injEq,
    true_and, and_true] at h
  obtain ⟨hartist, hname, hlength, hbitrate, htempo, htime, htotal, hurls, htags, hmetas, hdays⟩ :=
    h
  have hint := orNull_injective int_injective nofun
  refine ⟨⟨hartist, hname, Option.some.inj (hint hlength), hint hbitrate, htime,
    orNull_injective float_injective nofun htempo, htotal⟩, map_json_inj str_injective hurls, ?_,
    map_json_inj (pair_injective str_injective str_injective) hmetas, ?_⟩
  · exact List.map_injective_iff.mpr tag_injective
      (map_json_inj (pair_injective int_injective str_injective) htags)
  · exact List.map_injective_iff.mpr (pair_injective str_injective int_injective) hdays

/-! ## What can be told apart -/

/-- Two databases differ in what the archive of a track does not contain. -/
def Lost (db db' : Database ρ) (id : ℤ) : Prop :=
  listensOf db id ≠ listensOf db' id ∨
  (infoOf db id).bind TrackInfo.tempoBpm ≠ (infoOf db' id).bind TrackInfo.tempoBpm ∨
  danglingOf db id ≠ danglingOf db' id

/-- A track can be deleted. -/
structure Deletable (db : Database ρ) (id : ℤ) : Prop where
  /-- its total is an integer -/
  total : ∀ row, infoOf db id = some row → ∃ n, row.listenedSeconds = .integer n
  /-- and so is every day -/
  days : ∀ row ∈ db.listenedDaily.rows, row.trackId = id → ∃ n, row.listened = .integer n
  /-- there is a key for the archive -/
  key : db.removedTracks.seq < maxRowid

/-- A day whose seconds are an integer. -/
def integerDay (day : String × ℤ) : String × Cell ρ := (day.1, .integer day.2)

/-- Days can be read if their seconds are integers. -/
theorem mapM_day_eq_ok {rows : List (ListenedDaily ρ)} {days : List (String × ℤ)} :
    (rows.mapM fun row => do
      let listened ← row.listened.toI64 "1"
      .ok (row.date, listened)) = (.ok days : Except SqlxError _) ↔
      (rows.map fun row => (row.date, row.listened)) = days.map integerDay := by
  induction rows generalizing days with
  | nil =>
    constructor
    · rintro ⟨⟩
      rfl
    · intro h
      obtain rfl := List.map_eq_nil_iff.mp h.symm
      rfl
  | cons row rows ih =>
    rw [List.mapM_cons, List.map_cons]
    cases hcell : row.listened with
    | integer n =>
      constructor
      · intro h
        obtain ⟨day, hday, h⟩ := ok_of_bind h
        obtain rfl := Except.ok.inj hday
        obtain ⟨rest, hrest, h⟩ := ok_of_bind h
        obtain rfl := Except.ok.inj h
        rw [ih.mp hrest]
        rfl
      · intro h
        obtain ⟨day, rest, rfl, hday, hrest⟩ := List.map_eq_cons_iff.mp h.symm
        obtain ⟨hdate, hn⟩ := Prod.mk.inj hday
        obtain rfl : day = (row.date, n) := Prod.ext hdate (Cell.integer.inj hn)
        rw [ih.mpr hrest.symm]
        rfl
    -- a cell that has left the integers cannot be read
    | real x =>
      constructor
      · exact nofun
      · intro h
        obtain ⟨day, rest, rfl, hday, hrest⟩ := List.map_eq_cons_iff.mp h.symm
        cases (Prod.mk.inj hday).2

/-- The days of a track. -/
theorem days_of_selectDaily {days : List (String × ℤ)} (h : db.selectDaily id = .ok days) :
    (content db id).days = (days.map integerDay : List (String × Cell ρ)) := by
  rw [← mapM_day_eq_ok.mp h]
  exact Multiset.coe_eq_coe.mpr ((List.mergeSort_perm ..).symm.map _)

/-- The days of a track can be read if they are integers. -/
theorem exists_selectDaily_iff :
    (∃ days, db.selectDaily id = .ok days) ↔
      ∀ row ∈ db.listenedDaily.rows, row.trackId = id → ∃ n, row.listened = .integer n := by
  have hmem : ∀ row : ListenedDaily ρ, row ∈ (db.listenedDaily.rows.filter fun row =>
      row.trackId = id).mergeSort (fun a b => a.date ≤ b.date) ↔
        row ∈ db.listenedDaily.rows ∧ row.trackId = id := by
    intro row
    rw [List.mem_mergeSort, List.mem_filter, decide_eq_true_eq]
  constructor
  · rintro ⟨days, hdays⟩ row hrow hid
    have hcell := List.mem_map_of_mem (f := fun row => (row.date, row.listened))
      ((hmem row).mpr ⟨hrow, hid⟩)
    rw [mapM_day_eq_ok.mp hdays] at hcell
    obtain ⟨day, -, hday⟩ := List.mem_map.mp hcell
    exact ⟨day.2, (Prod.mk.inj hday).2.symm⟩
  · intro h
    suffices hlist : ∀ rows : List (ListenedDaily ρ),
        (∀ row ∈ rows, ∃ n, row.listened = .integer n) →
          ∃ days : List (String × ℤ),
            (rows.map fun row => (row.date, row.listened)) = days.map integerDay by
      obtain ⟨days, hdays⟩ := hlist _ fun row hrow =>
        h row ((hmem row).mp hrow).1 ((hmem row).mp hrow).2
      exact ⟨days, mapM_day_eq_ok.mpr hdays⟩
    intro rows hrows
    induction rows with
    | nil => exact ⟨[], rfl⟩
    | cons row rows ih =>
      obtain ⟨⟨n, hn⟩, hrest⟩ := List.forall_mem_cons.mp hrows
      obtain ⟨days, hdays⟩ := ih hrest
      exact ⟨(row.date, n) :: days, by rw [List.map_cons, List.map_cons, hdays, hn, integerDay]⟩

/-- Rows that belong to one of several keys, key by key. -/
theorem flatMap_filter_perm {α β : Type} {key : α → ℤ} {ref : β → ℤ} {xs : List α}
    (hnodup : (xs.map key).Nodup) (ys : List β) :
    (xs.flatMap fun x => ys.filter fun y => ref y = key x).Perm
      (ys.filter fun y => ref y ∈ xs.map key) := by
  induction xs with
  | nil => simp
  | cons x xs ih =>
    obtain ⟨hx, hxs⟩ := List.nodup_cons.mp hnodup
    have hsplit := List.filter_append_perm (fun y => decide (ref y = key x))
      (ys.filter fun y => ref y ∈ (x :: xs).map key)
    rw [List.filter_filter, List.filter_filter] at hsplit
    have hthis : (ys.filter fun y =>
        decide (ref y = key x) && decide (ref y ∈ (x :: xs).map key)) =
        ys.filter fun y => ref y = key x := by
      refine List.filter_congr fun y _ => ?_
      by_cases hy : ref y = key x
      · simp [hy]
      · simp [hy]
    have hrest : (ys.filter fun y =>
        !decide (ref y = key x) && decide (ref y ∈ (x :: xs).map key)) =
        ys.filter fun y => ref y ∈ xs.map key := by
      refine List.filter_congr fun y _ => ?_
      by_cases hy : ref y = key x
      · simp only [hy, hx, decide_true, Bool.not_true, Bool.false_and, decide_false]
      · simp [hy]
    rw [hthis, hrest] at hsplit
    rw [List.flatMap_cons]
    exact ((ih hxs).append_left _).trans hsplit

/-- The tags that are assigned: those that are there, and those that are not. -/
theorem tagIds_eq : (content db id).tagIds =
    ((db.selectTagsForTrack id).map Tag.id : List ℤ) + danglingOf db id := by
  let ys := db.tagAssignments.rows.filter fun row => row.trackId = id
  -- the join loses the order, and the rows without a tag
  have hjoin : ((db.selectTagsForTrack id).map Tag.id).Perm
      ((ys.filter fun row => row.tagId ∈ db.tags.rows.map Tag.id).map TagAssigned.tagId) := by
    have hflat : (db.tags.rows.flatMap fun tag =>
        (db.tagAssignments.rows.filter fun row => row.tagId = tag.id ∧ row.trackId = id).map
          fun _ => tag).map Tag.id =
        (db.tags.rows.flatMap fun tag => ys.filter fun row => row.tagId = tag.id).map
          TagAssigned.tagId := by
      rw [List.map_flatMap, List.map_flatMap]
      refine List.flatMap_congr fun tag _ => ?_
      rw [List.map_map, List.filter_filter]
      simp only [Bool.decide_and]
      refine List.map_congr_left fun row hrow => ?_
      have hrow' := (List.mem_filter.mp hrow).2
      simp only [Bool.and_eq_true, decide_eq_true_eq] at hrow'
      exact hrow'.1.symm
    refine ((orderAsc_perm _).map Tag.id).trans ?_
    rw [hflat]
    exact (flatMap_filter_perm db.tags.nodup ys).map _
  have hdangling : (db.tagAssignments.rows.filter fun row =>
      row.trackId = id ∧ ¬db.HasTag row.tagId) =
        ys.filter fun row => !decide (row.tagId ∈ db.tags.rows.map Tag.id) := by
    rw [List.filter_filter]
    refine List.filter_congr fun row _ => ?_
    rw [Bool.decide_and, Bool.and_comm, decide_not]
    exact congrArg (fun b => !b && _) (decide_eq_decide.mpr List.mem_map.symm)
  have hall := (List.filter_append_perm (fun row => decide (row.tagId ∈ db.tags.rows.map Tag.id))
    ys).map TagAssigned.tagId
  rw [List.map_append] at hall
  rw [danglingOf, hdangling, Multiset.coe_add]
  exact Multiset.coe_eq_coe.mpr (hall.symm.trans (hjoin.symm.append_right _))

/-- Contents that are archived alike, and do not differ in what is lost, are the same. -/
theorem content_eq (harchive : SameArchive env db db' id) (hlost : ¬Lost db db' id)
    (hdb : Deletable db id) : content db id = content db' id := by
  unfold Lost at hlost
  push Not at hlost
  obtain ⟨hlistens, htempo, hdangling⟩ := hlost
  have hinfo : infoOf db id = infoOf db' id := by
    obtain ⟨row, row', hrow, hrow', heq, -⟩ := harchive.info
    rw [hrow, hrow'] at htempo ⊢
    obtain ⟨_, _, _, _, _, tempo, _, _⟩ := row
    obtain ⟨_, _, _, _, _, tempo', _, _⟩ := row'
    obtain rfl : tempo = tempo' := htempo
    simp only [TrackInfo.mk.injEq, true_and] at heq
    simp only [heq]
  have hurls : (content db id).urls = (content db' id).urls := by
    have hsorted : ∀ db : Database ρ, (content db id).urls =
        ((db.selectSources id).map TrackSource.url : List String) := fun db =>
      Multiset.coe_eq_coe.mpr ((orderAsc_perm _).symm.map _)
    rw [hsorted, hsorted, harchive.urls]
  have hmetas : (content db id).metas = (content db' id).metas := by
    have hsorted : ∀ db : Database ρ, (content db id).metas =
        ((db.selectMeta id).map fun row => (row.key, row.value) : List (String × String)) :=
      fun db => Multiset.coe_eq_coe.mpr ((orderAsc_perm _).symm.map _)
    rw [hsorted, hsorted, harchive.metas]
  have htagIds : (content db id).tagIds = (content db' id).tagIds := by
    rw [tagIds_eq, tagIds_eq, harchive.tags, hdangling]
  have hdays : (content db id).days = (content db' id).days := by
    obtain ⟨days, hread⟩ := exists_selectDaily_iff.mpr hdb.days
    rw [days_of_selectDaily hread, days_of_selectDaily (harchive.days.symm.trans hread)]
  exact Content.ext hinfo hurls htagIds hmetas hdays hlistens

/-- Contents that differ in what is lost differ. -/
theorem content_ne (harchive : SameArchive env db db' id) (hlost : Lost db db' id) :
    content db id ≠ content db' id := by
  intro h
  rcases hlost with hlistens | htempo | hdangling
  · exact hlistens (congrArg Content.listens h)
  · exact htempo (congrArg (fun c => c.info.bind TrackInfo.tempoBpm) h)
  · have htagIds := congrArg Content.tagIds h
    rw [tagIds_eq, tagIds_eq, harchive.tags] at htagIds
    exact hdangling (Multiset.add_right_inj.mp htagIds)

/-- What is the same to the archive is archived alike. -/
theorem archived_eq (harchive : SameArchive env db db' id) {row row' : TrackInfo ρ}
    (hrow : infoOf db id = some row) (hrow' : infoOf db' id = some row') (total : ℤ)
    (days : List (String × ℤ)) :
    archived env db id row total days = archived env db' id row' total days := by
  obtain ⟨row₁, row₁', h, h', heq, htempo⟩ := harchive.info
  obtain rfl := Option.some.inj (h.symm.trans hrow)
  obtain rfl := Option.some.inj (h'.symm.trans hrow')
  simp only [TrackInfo.mk.injEq, true_and] at heq
  have hurls : ∀ rows : List TrackSource, (rows.map fun row => Json.str row.url) =
      (rows.map TrackSource.url).map .str := fun rows => List.map_map.symm
  have hmetas : ∀ rows : List TrackMeta,
      (rows.map fun row => Json.arr [.str row.key, .str row.value]) =
        (rows.map fun row => (row.key, row.value)).map fun p : String × String =>
          .arr [.str p.1, .str p.2] := by
    intro rows
    rw [List.map_map]
    rfl
  simp only [archived, archive, hurls, hmetas, heq, htempo, harchive.urls, harchive.tags,
    harchive.metas]

/-- **When the archive determines what is deleted**: unless both deletions succeed, and the
contents are the same to the archive and differ in what it does not contain. -/
theorem archive_determines_iff (env : Environment ρ) (db db' : Database ρ) (id : ℤ) :
    ArchiveDetermines env db db' id ↔ ¬(Deletable db id ∧ Deletable db' id ∧
      SameArchive env db db' id ∧ Lost db db' id) := by
  constructor
  · rintro hdetermines ⟨hdb, hdb', harchive, hlost⟩
    obtain ⟨row, row', hrow, hrow', heq, -⟩ := harchive.info
    obtain ⟨total, htotal⟩ := hdb.total row hrow
    obtain ⟨days, hdays⟩ := exists_selectDaily_iff.mpr hdb.days
    have htotal' : row'.listenedSeconds = .integer total :=
      (congrArg TrackInfo.listenedSeconds heq).symm.trans htotal
    refine hdetermines (content_ne harchive hlost) _ _
      (deletes_iff.mpr ⟨hdb.key, row, total, days, hrow, htotal, hdays, rfl⟩)
      (deletes_iff.mpr ⟨hdb'.key, row', total, days, hrow', htotal',
        harchive.days.symm.trans hdays, rfl⟩) ?_
    rw [archived_eq harchive hrow hrow']
  · rintro hnot hcontent data data' hdeletes hdeletes' rfl
    obtain ⟨hkey, row, total, days, hrow, htotal, hdays, hdata⟩ := deletes_iff.mp hdeletes
    obtain ⟨hkey', row', total', days', hrow', htotal', hdays', hdata'⟩ :=
      deletes_iff.mp hdeletes'
    -- the text determines the archive, and the archive all that it is made of
    obtain ⟨⟨hartist, hname, hlength, hbitrate, htime, htempo, rfl⟩, hurls, htags, hmetas, rfl⟩ :=
      archived_inj (Json.write_injective (hdata.symm.trans hdata'))
    have harchive : SameArchive env db db' id := by
      refine ⟨⟨row, row', hrow, hrow', ?_, htempo⟩, hurls, htags, hmetas, hdays.trans hdays'.symm⟩
      simp only [TrackInfo.mk.injEq, true_and]
      exact ⟨(id_of_infoOf hrow).trans (id_of_infoOf hrow').symm, hartist, hname, hlength,
        hbitrate, htime, htotal.trans htotal'.symm⟩
    have hdeletable : ∀ {db : Database ρ} {row : TrackInfo ρ}, db.removedTracks.seq < maxRowid →
        infoOf db id = some row → row.listenedSeconds = .integer total →
        db.selectDaily id = .ok days → Deletable db id := by
      intro db row hkey hrow htotal hdays
      refine ⟨fun row₁ hrow₁ => ⟨total, ?_⟩, exists_selectDaily_iff.mp ⟨days, hdays⟩, hkey⟩
      obtain rfl := Option.some.inj (hrow.symm.trans hrow₁)
      exact htotal
    have hdb := hdeletable hkey hrow htotal hdays
    refine hnot ⟨hdb, hdeletable hkey' hrow' htotal' hdays', harchive, ?_⟩
    exact not_not.mp fun hlost => hcontent (content_eq harchive hlost hdb)

/-- A track, and whether it was listened to. -/
def nocturne (listens : SqlTable ListenInfo ListenInfo.id) : Database ℤ :=
  { Database.empty with
    trackInfo := FilteredTracks.oneTrack
    listenInfo := listens }

/-- It was listened to once. -/
def listened : SqlTable ListenInfo ListenInfo.id :=
  ⟨[⟨1, 1, 0, 270⟩], 1, by decide, by decide, by decide, SqlTable.seq_mem_one⟩

theorem listens_not_archived :
    (nocturne .empty).HasTrack 1 ∧ (nocturne listened).HasTrack 1 ∧
      ¬ArchiveDetermines plainEnvironment (nocturne .empty) (nocturne listened) 1 := by
  refine ⟨by decide, by decide, fun hdetermines => ?_⟩
  have hdaily : ∀ listens, (nocturne listens).selectDaily 1 = .ok [] := by
    intro listens
    exact mapM_day_eq_ok.mpr (by simp [nocturne, Database.empty])
  refine hdetermines (fun h => ?_) _ _
    (deletes_iff.mpr ⟨by decide, _, 0, [], rfl, rfl, hdaily _, rfl⟩)
    (deletes_iff.mpr ⟨by decide, _, 0, [], rfl, rfl, hdaily _, rfl⟩) rfl
  have hcard := congrArg (fun c => c.listens.card) h
  cases hcard

end TrackArchive

end Vamp
