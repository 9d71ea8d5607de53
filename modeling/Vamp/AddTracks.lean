import Vamp.RepositoryPanics
import Vamp.RepositoryRuns

/-!
# Adding many tracks

`add_tracks` inserts tracks in chunks, computes their ids back from the last id of each chunk,
joins them with the sources, and inserts these in chunks as well. It is to do what
`add_track_unlogged` does for one track after the other.

An `INSERT` reads and changes one table (`trackInfoStep`, `sourceStep`). So both ways come down to
the same two folds over tables (`addTracks_eq_ok`, `mapM_addTrackUnlogged_eq_ok`): the tracks are
inserted in order, their ids are the next ones, and the sources are inserted in order.
-/

namespace Vamp

namespace Repository

open Program

variable {ρ α : Type}

/-! ## Chunks -/

theorem flatten_chunks {n : ℕ} (hn : 0 < n) (xs : List α) : (chunks n xs).flatten = xs := by
  have htake : ∀ k, ((List.range k).map fun i => (xs.drop (i * n)).take n).flatten =
      xs.take (k * n) := by
    intro k
    induction k with
    | zero => rw [Nat.zero_mul, List.take_zero]; rfl
    | succ k ih =>
      rw [List.range_succ, List.map_append, List.flatten_append, ih, Nat.add_mul, Nat.one_mul,
        List.take_add]
      simp
  rw [chunks, htake]
  refine List.take_of_length_le ?_
  have hlt := Nat.lt_mul_div_succ (xs.length + (n - 1)) hn
  rw [Nat.mul_add, Nat.mul_one, Nat.mul_comm] at hlt
  omega

theorem length_le_of_mem_chunks {n : ℕ} {xs chunk : List α} (h : chunk ∈ chunks n xs) :
    chunk.length ≤ n := by
  obtain ⟨i, -, rfl⟩ := List.mem_map.mp h
  exact List.length_take_le ..

/-! ## Tables -/

/-- `INSERT INTO track_info`, as far as the table goes. -/
def trackInfoStep (table : SqlTable (TrackInfo ρ) TrackInfo.id) (t : NewTrack ρ) :
    Except SqlxError (SqlTable (TrackInfo ρ) TrackInfo.id) :=
  (Database.insertTrack { Database.empty with trackInfo := table } t).map Database.trackInfo

/-- `INSERT INTO track_sources`, as far as the table goes. -/
def sourceStep (table : SqlTable TrackSource TrackSource.id) (source : ℤ × String) :
    Except SqlxError (SqlTable TrackSource TrackSource.id) :=
  (Database.insertSource (ρ := ℤ) { Database.empty with trackSources := table } source).map
    Database.trackSources

theorem insertTrack_eq (db : Database ρ) (t : NewTrack ρ) :
    db.insertTrack t =
      (trackInfoStep db.trackInfo t).map fun trackInfo => { db with trackInfo } := by
  unfold trackInfoStep Database.insertTrack
  cases t.lengthSeconds with
  | none => rfl
  | some lengthSeconds =>
    dsimp only
    split
    · rfl
    · cases Database.insertInto db.trackInfo _ _ <;> rfl

theorem insertSource_eq (db : Database ρ) (source : ℤ × String) :
    db.insertSource source =
      (sourceStep db.trackSources source).map fun trackSources => { db with trackSources } := by
  unfold sourceStep Database.insertSource
  split
  · rfl
  · cases Database.insertInto db.trackSources _ _ <;> rfl

/-- The row of a track. -/
def newRow (t : NewTrack ρ) (id : ℤ) : TrackInfo ρ :=
  ⟨id, t.artist, t.trackName, t.lengthSeconds.getD 0, t.bitrateKbps, t.tempoBpm, t.additionTime,
    .integer 0⟩

/-- What an `INSERT` does to the table. -/
theorem trackInfoStep_eq_ok {table table' : SqlTable (TrackInfo ρ) TrackInfo.id} {t : NewTrack ρ}
    (h : trackInfoStep table t = .ok table') :
    table'.rows = table.rows ++ [newRow t table'.seq] ∧ table'.seq = table.seq + 1 := by
  obtain ⟨db, hdb, rfl⟩ := ok_map_iff.mp h
  unfold Database.insertTrack at hdb
  cases hlength : t.lengthSeconds with
  | none =>
    rw [hlength] at hdb
    cases hdb
  | some lengthSeconds =>
    rw [hlength] at hdb
    dsimp only at hdb
    split at hdb
    · cases hdb
    · obtain ⟨table', htable, hdb⟩ := ok_of_bind hdb
      obtain rfl := Except.ok.inj hdb
      unfold Database.insertInto at htable
      split at htable
      · case h_1 table'' hinsert =>
        obtain rfl := Except.ok.inj htable
        rw [newRow, hlength]
        exact SqlTable.insert_eq_some hinsert
      · cases htable

theorem sourceStep_eq_ok {table table' : SqlTable TrackSource TrackSource.id}
    {source : ℤ × String} (h : sourceStep table source = .ok table') :
    table'.rows = table.rows ++ [⟨table'.seq, source.1, source.2⟩] := by
  obtain ⟨db, hdb, rfl⟩ := ok_map_iff.mp h
  unfold Database.insertSource at hdb
  split at hdb
  · cases hdb
  · obtain ⟨table', htable, hdb⟩ := ok_of_bind hdb
    obtain rfl := Except.ok.inj hdb
    exact (Database.insertInto_eq_ok htable).1

/-- A loop that changes one part of the tables. -/
theorem foldlM_part {σ τ β : Type} {f : σ → β → Except SqlxError σ} {g : τ → β → Except SqlxError τ}
    {part : σ → τ} {put : σ → τ → σ} (hstep : ∀ s x, f s x = (g (part s) x).map (put s))
    (hget : ∀ s t, part (put s t) = t) (hput : ∀ s t t', put (put s t) t' = put s t')
    (hself : ∀ s, put s (part s) = s) (s : σ) (xs : List β) :
    xs.foldlM f s = (xs.foldlM g (part s)).map (put s) := by
  induction xs generalizing s with
  | nil => exact congrArg Except.ok (hself s).symm
  | cons x xs ih =>
    rw [List.foldlM_cons, List.foldlM_cons, hstep]
    cases g (part s) x with
    | error e => rfl
    | ok t =>
      have hrest := ih (put s t)
      rw [hget, funext (hput s t)] at hrest
      exact hrest

theorem foldlM_insertTrack (db : Database ρ) (ts : List (NewTrack ρ)) :
    ts.foldlM Database.insertTrack db =
      (ts.foldlM trackInfoStep db.trackInfo).map fun trackInfo => { db with trackInfo } :=
  foldlM_part insertTrack_eq (fun _ _ => rfl) (fun _ _ _ => rfl) (fun _ => rfl) db ts

theorem foldlM_insertSource (db : Database ρ) (sources : List (ℤ × String)) :
    sources.foldlM Database.insertSource db =
      (sources.foldlM sourceStep db.trackSources).map fun trackSources =>
        { db with trackSources } :=
  foldlM_part insertSource_eq (fun _ _ => rfl) (fun _ _ _ => rfl) (fun _ => rfl) db sources

theorem insertTracks_eq_ok {db db' : Database ρ} {ts : List (NewTrack ρ)} {lastId : ℤ} :
    Database.insertTracks ts db = .ok (lastId, db') ↔
      ∃ trackInfo, ts.foldlM trackInfoStep db.trackInfo = .ok trackInfo ∧
        trackInfo.seq = lastId ∧ { db with trackInfo } = db' := by
  rw [Database.insertTracks, foldlM_insertTrack, ok_bind_iff]
  constructor
  · rintro ⟨db₁, hdb₁, h⟩
    obtain ⟨trackInfo, hfold, rfl⟩ := ok_map_iff.mp hdb₁
    obtain ⟨rfl, rfl⟩ := Prod.mk.inj (Except.ok.inj h)
    exact ⟨trackInfo, hfold, rfl, rfl⟩
  · rintro ⟨trackInfo, hfold, rfl, rfl⟩
    exact ⟨_, ok_map_iff.mpr ⟨trackInfo, hfold, rfl⟩, rfl⟩

theorem insertSources_eq_ok {db db' : Database ρ} {sources : List (ℤ × String)} {lastId : ℤ}
    (hsources : ∀ source ∈ sources, db.HasTrack source.1) :
    Database.insertSources sources db = .ok (lastId, db') ↔
      ∃ trackSources, sources.foldlM sourceStep db.trackSources = .ok trackSources ∧
        trackSources.seq = lastId ∧ { db with trackSources } = db' := by
  rw [Database.insertSources, foldlM_insertSource, ok_bind_iff]
  have hall : ∀ trackSources, (sources.all fun source =>
      ({ db with trackSources } : Database ρ).HasTrack source.1) = true := fun trackSources =>
    List.all_eq_true.mpr fun source hsource => decide_eq_true (hsources source hsource)
  constructor
  · rintro ⟨db₁, hdb₁, h⟩
    obtain ⟨trackSources, hfold, rfl⟩ := ok_map_iff.mp hdb₁
    rw [if_pos (hall trackSources)] at h
    obtain ⟨rfl, rfl⟩ := Prod.mk.inj (Except.ok.inj h)
    exact ⟨trackSources, hfold, rfl, rfl⟩
  · rintro ⟨trackSources, hfold, rfl, rfl⟩
    exact ⟨_, ok_map_iff.mpr ⟨trackSources, hfold, rfl⟩, if_pos (hall trackSources)⟩

/-! ## Ids -/

/-- The next ids. -/
def nextIds (seq : ℤ) (n : ℕ) : List ℤ := (List.range n).map fun i : ℕ => seq + 1 + i

/-- The sources of some tracks, with the ids of these. -/
def listed (ts : List (NewTrack ρ)) (ids : List ℤ) : List (ℤ × String) :=
  (ts.zip ids).flatMap fun (t, trackId) => t.sources.map fun url => (trackId, url)

theorem nextIds_add (seq : ℤ) (m n : ℕ) :
    nextIds seq (m + n) = nextIds seq m ++ nextIds (seq + m) n := by
  rw [nextIds, List.range_add, List.map_append, List.map_map]
  refine congrArg (nextIds seq m ++ ·) (List.map_congr_left fun i _ => ?_)
  simp only [Function.comp_apply, Int.natCast_add]
  omega

theorem nextIds_succ (seq : ℤ) (n : ℕ) :
    nextIds seq (n + 1) = (seq + 1) :: nextIds (seq + 1) n := by
  rw [Nat.add_comm, nextIds_add]
  simp [nextIds]

/-- **Ids are computed back** from the last one. -/
theorem ids_of_last (seq : ℤ) (n : ℕ) :
    ((List.range n).reverse.map fun i : ℕ => seq + n - i) = nextIds seq n := by
  refine List.ext_getElem (by simp [nextIds]) fun i hi hi' => ?_
  rw [nextIds, List.length_map, List.length_range] at hi'
  simp only [nextIds, List.getElem_map, List.getElem_reverse, List.getElem_range,
    List.length_range]
  omega

/-- The tracks that are inserted get the next ids. -/
theorem foldlM_trackInfoStep {ts : List (NewTrack ρ)}
    {table table' : SqlTable (TrackInfo ρ) TrackInfo.id}
    (h : ts.foldlM trackInfoStep table = .ok table') :
    table'.seq = table.seq + ts.length ∧
      table'.rows = table.rows ++
        (ts.zip (nextIds table.seq ts.length)).map fun (t, id) => newRow t id := by
  induction ts generalizing table with
  | nil =>
    obtain rfl := Except.ok.inj h
    exact ⟨(Int.add_zero _).symm, (List.append_nil _).symm⟩
  | cons t ts ih =>
    rw [List.foldlM_cons] at h
    obtain ⟨table₁, ht, hts⟩ := ok_of_bind h
    obtain ⟨hrows₁, hseq₁⟩ := trackInfoStep_eq_ok ht
    obtain ⟨hseq, hrows⟩ := ih hts
    rw [hseq₁] at hrows₁ hseq hrows
    rw [List.length_cons, nextIds_succ, List.zip_cons_cons, hrows, hrows₁, List.append_assoc,
      hseq, Int.natCast_succ]
    exact ⟨by omega, rfl⟩

/-- The sources that are inserted. -/
theorem foldlM_sourceStep {sources : List (ℤ × String)}
    {table table' : SqlTable TrackSource TrackSource.id}
    (h : sources.foldlM sourceStep table = .ok table') :
    ∃ rows, table'.rows = table.rows ++ rows ∧
      rows.map (fun row => (row.trackId, row.url)) = sources := by
  induction sources generalizing table with
  | nil =>
    obtain rfl := Except.ok.inj h
    exact ⟨[], (List.append_nil _).symm, rfl⟩
  | cons source sources ih =>
    rw [List.foldlM_cons] at h
    obtain ⟨table₁, hsource, hsources⟩ := ok_of_bind h
    obtain ⟨rows, hrows, hmap⟩ := ih hsources
    rw [sourceStep_eq_ok hsource, List.append_assoc] at hrows
    exact ⟨_, hrows, congrArg (source :: ·) hmap⟩

/-- Every new id is the id of a track. -/
theorem hasTrack_of_mem_nextIds {ts : List (NewTrack ρ)} {db : Database ρ}
    {trackInfo : SqlTable (TrackInfo ρ) TrackInfo.id} {id : ℤ}
    (h : ts.foldlM trackInfoStep db.trackInfo = .ok trackInfo)
    (hid : id ∈ nextIds db.trackInfo.seq ts.length) :
    ({ db with trackInfo } : Database ρ).HasTrack id := by
  have hlength : (nextIds db.trackInfo.seq ts.length).length ≤ ts.length := by simp [nextIds]
  rw [← List.map_snd_zip hlength] at hid
  obtain ⟨⟨t, id⟩, hpair, rfl⟩ := List.mem_map.mp hid
  refine ⟨newRow t id, ?_, rfl⟩
  rw [(foldlM_trackInfoStep h).2]
  exact List.mem_append_right _ (List.mem_map.mpr ⟨(t, id), hpair, rfl⟩)

theorem mem_listed {ts : List (NewTrack ρ)} {ids : List ℤ} {source : ℤ × String}
    (h : source ∈ listed ts ids) : source.1 ∈ ids := by
  obtain ⟨⟨t, id⟩, hpair, hsource⟩ := List.mem_flatMap.mp h
  obtain ⟨url, -, rfl⟩ := List.mem_map.mp hsource
  exact (List.of_mem_zip hpair).2

/-! ## One track after the other -/

/-- A statement is executed for what it does. -/
theorem executed_eq_ok {p : Operation ρ α}
    {statement : Database ρ → Except SqlxError (α × Database ρ)}
    (hp : ∀ s a s', p s = .ok a s' ↔ execute statement s = .ok a s') {committed tables : Database ρ}
    {locked : Bool} {u : Unit} {s' : Session (Database ρ) SqlxError} :
    (p >>= fun _ => pure ()) ⟨committed, some ⟨tables, locked⟩, []⟩ = .ok u s' ↔
      ∃ tables', (statement tables).map Prod.snd = .ok tables' ∧
        ⟨committed, some ⟨tables', true⟩, []⟩ = s' := by
  simp only [bind_eq_ok, hp, execute_eq_ok, pure_eq_ok, ok_map_iff]
  constructor
  · rintro ⟨a, _, ⟨tables', hrun, rfl⟩, -, rfl⟩
    exact ⟨tables', ⟨(a, tables'), hrun, rfl⟩, rfl⟩
  · rintro ⟨_, ⟨⟨a, tables'⟩, hrun, rfl⟩, rfl⟩
    exact ⟨a, _, ⟨tables', hrun, rfl⟩, trivial, rfl⟩

/-- Sources that are inserted in parts are inserted. -/
theorem foldlM_insertSources {db db' : Database ρ} {parts : List (List (ℤ × String))}
    (h : ∀ source ∈ parts.flatten, db.HasTrack source.1) :
    parts.foldlM (fun db part => (Database.insertSources part db).map Prod.snd) db = .ok db' ↔
      ∃ trackSources, parts.flatten.foldlM sourceStep db.trackSources = .ok trackSources ∧
        { db with trackSources } = db' := by
  induction parts generalizing db with
  | nil =>
    constructor
    · rintro ⟨⟩
      exact ⟨_, rfl, rfl⟩
    · rintro ⟨_, ⟨⟩, rfl⟩
      rfl
  | cons part parts ih =>
    rw [List.flatten_cons, List.forall_mem_append] at h
    rw [List.foldlM_cons, List.flatten_cons, List.foldlM_append]
    simp only [ok_bind_iff, ok_map_iff]
    have hrest : ∀ trackSources, ∀ source ∈ parts.flatten,
        ({ db with trackSources } : Database ρ).HasTrack source.1 := fun _ => h.2
    constructor
    · rintro ⟨_, ⟨⟨lastId, db₁⟩, hpart, rfl⟩, hparts⟩
      obtain ⟨table₁, htable₁, -, rfl⟩ := (insertSources_eq_ok h.1).mp hpart
      obtain ⟨table, htable, rfl⟩ := (ih (hrest table₁)).mp hparts
      exact ⟨table, ⟨table₁, htable₁, htable⟩, rfl⟩
    · rintro ⟨table, ⟨table₁, htable₁, htable⟩, rfl⟩
      have hpart : Database.insertSources part db =
          .ok (table₁.seq, { db with trackSources := table₁ }) :=
        (insertSources_eq_ok h.1).mpr ⟨table₁, htable₁, rfl, rfl⟩
      exact ⟨_, ⟨_, hpart, rfl⟩, (ih (hrest table₁)).mpr ⟨table, htable, rfl⟩⟩

/-- Sources that are inserted in rounds. -/
theorem forM_insertSources_eq_ok {β : Type} {f : β → Operation ρ Unit}
    {part : β → List (ℤ × String)} {xs : List β} {committed db : Database ρ} {locked : Bool}
    {u : Unit} {s' : Session (Database ρ) SqlxError}
    (hf : ∀ x tables locked u s', f x ⟨committed, some ⟨tables, locked⟩, []⟩ = .ok u s' ↔
      ∃ tables', (Database.insertSources (part x) tables).map Prod.snd = .ok tables' ∧
        ⟨committed, some ⟨tables', true⟩, []⟩ = s')
    (h : ∀ source ∈ xs.flatMap part, db.HasTrack source.1) :
    xs.forM f ⟨committed, some ⟨db, locked⟩, []⟩ = .ok u s' ↔
      ∃ trackSources, (xs.flatMap part).foldlM sourceStep db.trackSources = .ok trackSources ∧
        ⟨committed, some ⟨{ db with trackSources }, locked || !xs.isEmpty⟩, []⟩ = s' := by
  rw [List.flatMap_def] at h ⊢
  rw [forM_eq_ok hf, ← List.foldlM_map (f := part)
    (g := fun tables part => (Database.insertSources part tables).map Prod.snd)]
  simp only [foldlM_insertSources h]
  constructor
  · rintro ⟨_, ⟨trackSources, hfold, rfl⟩, rfl⟩
    exact ⟨trackSources, hfold, rfl⟩
  · rintro ⟨trackSources, hfold, rfl⟩
    exact ⟨_, ⟨trackSources, hfold, rfl⟩, rfl⟩

/-- What `add_track_unlogged` does, if it succeeds. -/
theorem addTrackUnlogged_eq_ok {db : Database ρ} {t : NewTrack ρ} {id : ℤ}
    {s' : Session (Database ρ) SqlxError} :
    addTrackUnlogged t ⟨db, none, []⟩ = .ok id s' ↔
      ∃ trackInfo trackSources, trackInfoStep db.trackInfo t = .ok trackInfo ∧
        (t.sources.map fun url => (trackInfo.seq, url)).foldlM sourceStep db.trackSources =
          .ok trackSources ∧
        trackInfo.seq = id ∧ ⟨{ db with trackInfo, trackSources }, none, []⟩ = s' := by
  have hone : ∀ {trackInfo}, [t].foldlM trackInfoStep db.trackInfo = .ok trackInfo ↔
      trackInfoStep db.trackInfo t = .ok trackInfo := by
    intro trackInfo
    rw [List.foldlM_cons]
    cases trackInfoStep db.trackInfo t <;> rfl
  have hurls : ∀ {trackInfo : SqlTable (TrackInfo ρ) TrackInfo.id} {u s'},
      trackInfoStep db.trackInfo t = .ok trackInfo →
      ((t.sources.forM fun url => do
        let _ ← execute (Database.insertSources [(trackInfo.seq, url)]) : Operation ρ Unit)
          ⟨db, some ⟨{ db with trackInfo }, true⟩, []⟩ = .ok u s' ↔
        ∃ trackSources, (t.sources.map fun url => (trackInfo.seq, url)).foldlM sourceStep
            db.trackSources = .ok trackSources ∧
          ⟨db, some ⟨{ db with trackInfo, trackSources }, true⟩, []⟩ = s') := by
    intro trackInfo u s' htrackInfo
    rw [List.map_eq_flatMap]
    refine forM_insertSources_eq_ok (fun url tables locked u s' =>
      executed_eq_ok fun _ _ _ => Iff.rfl) fun source hsource => ?_
    obtain ⟨url, -, hsource⟩ := List.mem_flatMap.mp hsource
    obtain rfl := List.mem_singleton.mp hsource
    have hseq := (trackInfoStep_eq_ok htrackInfo).2
    refine hasTrack_of_mem_nextIds (hone.mpr htrackInfo) ?_
    rw [hseq, List.length_singleton, nextIds_succ]
    exact List.mem_cons_self ..
  unfold addTrackUnlogged
  simp only [scope_eq_ok, bind_eq_ok, beginTx_eq_ok, pure_eq_ok]
  constructor
  · rintro ⟨_, ⟨_, _, rfl, lastId, _, hinsert, _, _, hloop, _, _, hcommit, rfl, rfl⟩, rfl⟩
    obtain ⟨_, hrun, rfl⟩ := execute_eq_ok.mp hinsert
    obtain ⟨trackInfo, hfold, rfl, rfl⟩ := insertTracks_eq_ok.mp hrun
    obtain ⟨trackSources, hsources, rfl⟩ := (hurls (hone.mp hfold)).mp hloop
    obtain rfl := commit_eq_ok.mp hcommit
    exact ⟨trackInfo, trackSources, hone.mp hfold, hsources, rfl, rfl⟩
  · rintro ⟨trackInfo, trackSources, hinsert, hsources, rfl, rfl⟩
    have hexecute : execute (Database.insertTracks [t]) ⟨db, some ⟨db, false⟩, []⟩ =
        .ok trackInfo.seq ⟨db, some ⟨{ db with trackInfo }, true⟩, []⟩ :=
      execute_eq_ok.mpr
        ⟨_, insertTracks_eq_ok.mpr ⟨trackInfo, hone.mpr hinsert, rfl, rfl⟩, rfl⟩
    have hloop := (hurls (u := ()) hinsert).mpr ⟨trackSources, hsources, rfl⟩
    exact ⟨_, ⟨(), _, rfl, _, _, hexecute, (), _, hloop, (), _, rfl, rfl, rfl⟩, rfl⟩

/-- **One track after the other**: what their ids and sources are. -/
theorem mapM_addTrackUnlogged_eq_ok {db : Database ρ} {ts : List (NewTrack ρ)} {ids : List ℤ}
    {s' : Session (Database ρ) SqlxError} :
    ts.mapM addTrackUnlogged ⟨db, none, []⟩ = .ok ids s' ↔
      ∃ trackInfo trackSources, ts.foldlM trackInfoStep db.trackInfo = .ok trackInfo ∧
        (listed ts ids).foldlM sourceStep db.trackSources = .ok trackSources ∧
        nextIds db.trackInfo.seq ts.length = ids ∧
        ⟨{ db with trackInfo, trackSources }, none, []⟩ = s' := by
  induction ts generalizing db ids with
  | nil =>
    rw [List.mapM_nil, pure_eq_ok]
    constructor
    · rintro ⟨rfl, rfl⟩
      exact ⟨_, _, rfl, rfl, rfl, rfl⟩
    · rintro ⟨_, _, ⟨⟩, ⟨⟩, rfl, rfl⟩
      exact ⟨rfl, rfl⟩
  | cons t ts ih =>
    rw [List.mapM_cons, List.foldlM_cons, List.length_cons, nextIds_succ]
    simp only [bind_eq_ok, pure_eq_ok, addTrackUnlogged_eq_ok]
    constructor
    · rintro ⟨_, _, ⟨info₁, sources₁, hinfo₁, hsources₁, rfl, rfl⟩, ids', _, hts, rfl, rfl⟩
      obtain ⟨trackInfo, trackSources, hinfo, hsources, rfl, rfl⟩ := ih.mp hts
      rw [← (trackInfoStep_eq_ok hinfo₁).2]
      refine ⟨trackInfo, trackSources, ok_bind_iff.mpr ⟨info₁, hinfo₁, hinfo⟩, ?_, rfl, rfl⟩
      rw [listed, List.zip_cons_cons, List.flatMap_cons, List.foldlM_append]
      exact ok_bind_iff.mpr ⟨sources₁, hsources₁, hsources⟩
    · rintro ⟨trackInfo, trackSources, hinfo, hsources, rfl, rfl⟩
      obtain ⟨info₁, hinfo₁, hinfo⟩ := ok_bind_iff.mp hinfo
      rw [← (trackInfoStep_eq_ok hinfo₁).2] at hsources ⊢
      rw [listed, List.zip_cons_cons, List.flatMap_cons, List.foldlM_append] at hsources
      obtain ⟨sources₁, hsources₁, hsources⟩ := ok_bind_iff.mp hsources
      exact ⟨_, _, ⟨info₁, sources₁, hinfo₁, hsources₁, rfl, rfl⟩, _, _,
        ih.mpr ⟨trackInfo, trackSources, hinfo, hsources, rfl, rfl⟩, rfl, rfl⟩

/-! ## All tracks at once

The values that are bound to a statement of `add_tracks` do not show in what it does. Here they
stand beside it. -/

/-- A value that is bound. -/
inductive Bound (ρ : Type) : Type where
  | text (s : String)
  | integer (n : Option ℤ)
  | real (x : Option ρ)
  deriving DecidableEq

/-- The values of a track. -/
def trackValues (t : NewTrack ρ) : List (Bound ρ) :=
  [.text t.artist, .text t.trackName, .integer t.lengthSeconds, .integer t.bitrateKbps,
    .real t.tempoBpm, .text t.additionTime]

/-- The values of a source. -/
def sourceValues (source : ℤ × String) : List (Bound ρ) := [.integer source.1, .text source.2]

/-- A way to execute a statement with its values. -/
abbrev Executes (ρ : Type) : Type :=
  List (Bound ρ) → (Database ρ → Except SqlxError (ℤ × Database ρ)) → Operation ρ ℤ

/-- The way of the model, to which values do not matter. -/
def executes : Executes ρ := fun _ statement => execute statement

/-- A chunk of tracks. -/
def insertBatch (insert : Executes ρ) (chunk : List (NewTrack ρ)) : Operation ρ (List ℤ) := do
  let lastId ← tryLog "add_tracks: insert batch"
    (insert (chunk.flatMap trackValues) (Database.insertTracks chunk))
  pure ((List.range chunk.length).reverse.map fun i : ℕ => lastId - i)

/-- A chunk of sources. -/
def insertSourceBatch (insert : Executes ρ) (chunk : List (ℤ × String)) : Operation ρ Unit := do
  let _ ← tryLog "add_tracks: insert track_sources batch"
    (insert (chunk.flatMap sourceValues) (Database.insertSources chunk))

/-- `add_tracks`, with a way to execute statements. -/
def addTracksWith (insert : Executes ρ) (ts : List (NewTrack ρ)) : Operation ρ (List ℤ) := scope do
  tryLog "add_tracks: begin transaction" beginTx
  let batches ← (chunks 166 ts).mapM (insertBatch insert)
  (chunks 500 (listed ts batches.flatten)).forM (insertSourceBatch insert)
  tryLog "add_tracks: commit" commit
  pure batches.flatten

theorem addTracks_eq_addTracksWith (ts : List (NewTrack ρ)) :
    addTracks ts = addTracksWith executes ts := rfl

/-- Values of members of a chunk. -/
theorem length_flatMap_le {β : Type} {f : α → List β} {k n : ℕ} (hf : ∀ x, (f x).length = k)
    {xs chunk : List α} (h : chunk ∈ chunks n xs) : (chunk.flatMap f).length ≤ n * k := by
  have hlength : (chunk.flatMap f).length = chunk.length * k := by
    rw [List.length_flatMap, List.map_congr_left fun x _ => hf x, List.map_const']
    simp
  rw [hlength]
  exact Nat.mul_le_mul_right k (length_le_of_mem_chunks h)

theorem mapM_congr {β : Type} {f g : α → Operation ρ β} {xs : List α} (h : ∀ x ∈ xs, f x = g x) :
    xs.mapM f = xs.mapM g := by
  induction xs with
  | nil => rfl
  | cons x xs ih =>
    obtain ⟨hx, hxs⟩ := List.forall_mem_cons.mp h
    rw [List.mapM_cons, List.mapM_cons, hx, ih hxs]

theorem forM_congr {f g : α → Operation ρ Unit} {xs : List α} (h : ∀ x ∈ xs, f x = g x) :
    xs.forM f = xs.forM g := by
  induction xs with
  | nil => rfl
  | cons x xs ih =>
    obtain ⟨hx, hxs⟩ := List.forall_mem_cons.mp h
    have hforM : ∀ f : α → Operation ρ Unit, (x :: xs).forM f = (f x >>= fun _ => xs.forM f) :=
      fun _ => rfl
    rw [hforM, hforM, hx, ih hxs]

/-- **No statement binds more than 1000 values**: it does not matter what happens to those that
do. -/
theorem addTracksWith_congr {insert insert' : Executes ρ}
    (h : ∀ values statement, values.length ≤ 1000 →
      insert values statement = insert' values statement)
    (ts : List (NewTrack ρ)) : addTracksWith insert ts = addTracksWith insert' ts := by
  have hbatches : (chunks 166 ts).mapM (insertBatch insert) =
      (chunks 166 ts).mapM (insertBatch insert') := by
    refine mapM_congr fun chunk hchunk => ?_
    have hlength : (chunk.flatMap trackValues).length ≤ 166 * 6 :=
      length_flatMap_le (f := trackValues) (fun _ => rfl) hchunk
    rw [insertBatch, insertBatch, h _ _ (Nat.le_trans hlength (by decide))]
  have hsources : ∀ ids, (chunks 500 (listed ts ids)).forM (insertSourceBatch insert) =
      (chunks 500 (listed ts ids)).forM (insertSourceBatch insert') := by
    refine fun ids => forM_congr fun chunk hchunk => ?_
    have hlength : (chunk.flatMap (sourceValues (ρ := ρ))).length ≤ 500 * 2 :=
      length_flatMap_le (f := sourceValues) (fun _ => rfl) hchunk
    rw [insertSourceBatch, insertSourceBatch, h _ _ hlength]
  rw [addTracksWith, addTracksWith, hbatches]
  simp only [hsources]

/-- The tracks are inserted in chunks, and their ids are computed. -/
theorem insertBatch_eq_ok {parts : List (List (NewTrack ρ))} {committed db : Database ρ}
    {locked : Bool} {ids : List ℤ} {s' : Session (Database ρ) SqlxError} :
    (∃ batches, parts.mapM (insertBatch executes) ⟨committed, some ⟨db, locked⟩, []⟩ =
        .ok batches s' ∧ batches.flatten = ids) ↔
      ∃ trackInfo, parts.flatten.foldlM trackInfoStep db.trackInfo = .ok trackInfo ∧
        nextIds db.trackInfo.seq parts.flatten.length = ids ∧
        ⟨committed, some ⟨{ db with trackInfo }, locked || !parts.isEmpty⟩, []⟩ = s' := by
  induction parts generalizing db locked ids with
  | nil =>
    simp only [List.mapM_nil, pure_eq_ok, List.isEmpty_nil, Bool.not_true, Bool.or_false]
    constructor
    · rintro ⟨_, ⟨rfl, rfl⟩, rfl⟩
      exact ⟨_, rfl, rfl, rfl⟩
    · rintro ⟨_, ⟨⟩, rfl, rfl⟩
      exact ⟨_, ⟨rfl, rfl⟩, rfl⟩
  | cons part parts ih =>
    rw [List.flatten_cons, List.foldlM_append, List.length_append, nextIds_add, List.isEmpty_cons,
      Bool.not_false, Bool.or_true]
    simp only [List.mapM_cons, bind_eq_ok, pure_eq_ok, insertBatch, executes, tryLog,
      logging_eq_ok, execute_eq_ok, insertTracks_eq_ok]
    constructor
    · rintro ⟨_, ⟨_, _, ⟨_, _, ⟨_, ⟨info₁, hinfo₁, rfl, rfl⟩, rfl⟩, rfl, rfl⟩, batches, _, hparts,
        rfl, rfl⟩, rfl⟩
      obtain ⟨trackInfo, hinfo, hids, rfl⟩ := ih.mp ⟨batches, hparts, rfl⟩
      have hseq := (foldlM_trackInfoStep hinfo₁).1
      refine ⟨trackInfo, ok_bind_iff.mpr ⟨info₁, hinfo₁, hinfo⟩, ?_, rfl⟩
      rw [List.flatten_cons, ← hids, hseq, ids_of_last]
    · rintro ⟨trackInfo, hinfo, rfl, rfl⟩
      obtain ⟨info₁, hinfo₁, hinfo⟩ := ok_bind_iff.mp hinfo
      have hseq := (foldlM_trackInfoStep hinfo₁).1
      have hrest : ∃ batches, parts.mapM (insertBatch executes)
          ⟨committed, some ⟨{ db with trackInfo := info₁ }, true⟩, []⟩ = .ok batches _ ∧
            batches.flatten = _ := ih.mpr ⟨trackInfo, hinfo, rfl, rfl⟩
      obtain ⟨batches, hparts, hids⟩ := hrest
      refine ⟨_, ⟨_, _, ⟨_, _, ⟨_, ⟨info₁, hinfo₁, rfl, rfl⟩, rfl⟩, rfl, rfl⟩, batches, _, hparts,
        rfl, rfl⟩, ?_⟩
      rw [List.flatten_cons, hids, hseq, ids_of_last]

/-- The sources are inserted in chunks. -/
theorem insertSourceBatch_eq_ok {sources : List (ℤ × String)} {committed db : Database ρ}
    {locked : Bool} {u : Unit} {s' : Session (Database ρ) SqlxError}
    (h : ∀ source ∈ sources, db.HasTrack source.1) :
    (chunks 500 sources).forM (insertSourceBatch executes)
        ⟨committed, some ⟨db, locked⟩, []⟩ = .ok u s' ↔
      ∃ trackSources, sources.foldlM sourceStep db.trackSources = .ok trackSources ∧
        ⟨committed, some ⟨{ db with trackSources }, locked || !(chunks 500 sources).isEmpty⟩, []⟩ =
          s' := by
  have hflatten : ((chunks 500 sources).flatMap fun chunk => chunk) = sources :=
    List.flatMap_id'.trans (flatten_chunks (by decide) sources)
  rw [← hflatten] at h
  have hloop : (chunks 500 sources).forM (insertSourceBatch executes)
      ⟨committed, some ⟨db, locked⟩, []⟩ = .ok u s' ↔ _ :=
    forM_insertSources_eq_ok
      (fun chunk tables locked u s' => executed_eq_ok fun _ _ _ => logging_eq_ok) h
  rwa [hflatten] at hloop

/-- **All tracks at once**: their ids and sources are the same. -/
theorem addTracks_eq_ok {db : Database ρ} {ts : List (NewTrack ρ)} {ids : List ℤ}
    {s' : Session (Database ρ) SqlxError} :
    addTracks ts ⟨db, none, []⟩ = .ok ids s' ↔
      ∃ trackInfo trackSources, ts.foldlM trackInfoStep db.trackInfo = .ok trackInfo ∧
        (listed ts ids).foldlM sourceStep db.trackSources = .ok trackSources ∧
        nextIds db.trackInfo.seq ts.length = ids ∧
        ⟨{ db with trackInfo, trackSources }, none, []⟩ = s' := by
  have hflatten : (chunks 166 ts).flatten = ts := flatten_chunks (by decide) ts
  have hlisted : ∀ {trackInfo}, ts.foldlM trackInfoStep db.trackInfo = .ok trackInfo →
      nextIds db.trackInfo.seq ts.length = ids →
      ∀ source ∈ listed ts ids, ({ db with trackInfo } : Database ρ).HasTrack source.1 := by
    rintro trackInfo hinfo rfl source hsource
    exact hasTrack_of_mem_nextIds hinfo (mem_listed hsource)
  rw [addTracks_eq_addTracksWith, addTracksWith]
  simp only [scope_eq_ok, bind_eq_ok, pure_eq_ok]
  constructor
  · rintro ⟨_, ⟨_, _, hbegin, batches, _, hbatch, _, _, hloop, _, _, hcommit, rfl, rfl⟩, rfl⟩
    obtain rfl := beginTx_eq_ok.mp (logging_eq_ok.mp hbegin)
    obtain ⟨trackInfo, hinfo, hids, rfl⟩ := insertBatch_eq_ok.mp ⟨batches, hbatch, rfl⟩
    rw [hflatten] at hinfo hids
    obtain ⟨trackSources, hfold, rfl⟩ := (insertSourceBatch_eq_ok (hlisted hinfo hids)).mp hloop
    obtain rfl := commit_eq_ok.mp (logging_eq_ok.mp hcommit)
    exact ⟨trackInfo, trackSources, hinfo, hfold, hids, rfl⟩
  · rintro ⟨trackInfo, trackSources, hinfo, hfold, hids, rfl⟩
    have hbatch : ∃ batches, (chunks 166 ts).mapM (insertBatch executes)
        ⟨db, some ⟨db, false⟩, []⟩ = .ok batches _ ∧ batches.flatten = ids :=
      insertBatch_eq_ok.mpr ⟨trackInfo, by rwa [hflatten], by rwa [hflatten], rfl⟩
    obtain ⟨batches, hbatch, rfl⟩ := hbatch
    have hloop : ∀ locked,
        (chunks 500 (listed ts batches.flatten)).forM (insertSourceBatch executes)
          ⟨db, some ⟨{ db with trackInfo }, locked⟩, []⟩ = .ok () _ := fun locked =>
      (insertSourceBatch_eq_ok (hlisted hinfo hids)).mpr ⟨trackSources, hfold, rfl⟩
    exact ⟨_, ⟨(), _, logging_eq_ok.mpr rfl, batches, _, hbatch, (), _, hloop _, (), _,
      logging_eq_ok.mpr rfl, rfl, rfl⟩, rfl⟩

/-- The tracks and their sources are those of another database. -/
def SameTracks (db db' : Database ρ) : Prop :=
  db'.trackInfo = db.trackInfo ∧ db'.trackSources = db.trackSources

/-- If `add_tracks` fails, it adds no track and no source, wherever it fails. -/
theorem addTracks_fails (db : Database ρ) (ts : List (NewTrack ρ)) :
    Triple (Committed (SameTracks db)) (addTracks ts) (fun _ _ => True)
      (Committed (SameTracks db)) := by
  have hlog : ∀ {β : Type} {context : String} {p : Operation ρ β} {P Q},
      Triple P p Q (Committed (SameTracks db)) →
        Triple P (tryLog context p) Q (Committed (SameTracks db)) :=
    Triple.tryLog (keeps_insertError fun _ _ hsame => hsame)
  refine Triple.scopeAny ((hlog Triple.beginAny).bind fun _ => ?_)
  refine Triple.bind (Triple.mapM fun chunk _ => ?_) fun batches => ?_
  · exact (hlog Triple.executeAny).bind fun _ => .pure fun _ => id
  refine Triple.bind (Triple.forM fun chunk _ => ?_) fun _ => ?_
  · exact (hlog Triple.executeAny).bind fun _ => .pure fun _ => id
  · exact (hlog Triple.commitAny).bind fun _ => .pure fun _ => id

/-- **All or nothing**: `add_tracks` succeeds if and only if all tracks can be added one after
the other, with the same ids and the same tables; then it has added a row for every track and
for every source, with the id of the track under which this was listed. A failure, also one of
the disk at any statement, leaves tracks and sources as they were, and no statement binds more
than 1000 values. -/
theorem addTracks_atomic (db : Database ρ) (ts : List (NewTrack ρ)) :
    (∀ ids s', addTracks ts ⟨db, none, []⟩ = .ok ids s' ↔
      ts.mapM addTrackUnlogged ⟨db, none, []⟩ = .ok ids s') ∧
    (∀ ids s', addTracks ts ⟨db, none, []⟩ = .ok ids s' →
      ids.length = ts.length ∧
      s'.committed.trackInfo.rows =
        db.trackInfo.rows ++ (ts.zip ids).map (fun (t, id) => newRow t id) ∧
      ∃ sources, s'.committed.trackSources.rows = db.trackSources.rows ++ sources ∧
        sources.map (fun row => (row.trackId, row.url)) = listed ts ids) ∧
    (∀ faults e s', addTracks ts ⟨db, none, faults⟩ = .error e s' →
      e ≠ .panic ∧ s'.committed.trackInfo = db.trackInfo ∧
        s'.committed.trackSources = db.trackSources) ∧
    ∀ insert : Executes ρ,
      (∀ values statement, values.length ≤ 1000 → insert values statement = execute statement) →
      addTracksWith insert ts = addTracks ts := by
  refine ⟨fun ids s' => ?_, fun ids s' h => ?_, fun faults e s' h => ?_, fun insert h => ?_⟩
  · rw [addTracks_eq_ok, mapM_addTrackUnlogged_eq_ok]
  · obtain ⟨trackInfo, trackSources, hinfo, hsources, rfl, rfl⟩ := addTracks_eq_ok.mp h
    exact ⟨by simp [nextIds], (foldlM_trackInfoStep hinfo).2, foldlM_sourceStep hsources⟩
  · refine ⟨?_, (addTracks_fails db ts).of_error ⟨rfl, rfl⟩ h⟩
    rintro rfl
    exact (neverPanics_addTracks ts).not_panics _ ⟨s', h⟩
  · rw [addTracks_eq_addTracksWith]
    exact addTracksWith_congr h ts

end Repository

end Vamp
