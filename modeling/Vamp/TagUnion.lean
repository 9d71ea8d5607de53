import Mathlib.Data.Set.Insert
import Vamp.AddTracks

/-!
# Assigning many tags

`assign_tags` inserts pairs in chunks, and ignores those that are there already. What counts is
the set of pairs in the table (`Database.assigned`): it grows by all of them, or not at all.

Every pair takes a key, also one that is ignored. So a table of which all keys were given out
refuses even a pair that it contains, and the exact condition for success speaks of keys as well
as of references (`assignTags_union`). That references hold of the pairs which are there is an
invariant of all runs (`assignmentsRefer_reachable`).
-/

namespace Vamp

variable {ρ : Type}

/-! ## The set of assignments -/

/-- The pairs of some rows. -/
def pairsOf (rows : List TagAssigned) : Set (ℤ × ℤ) :=
  {pair | ∃ row ∈ rows, (row.trackId, row.tagId) = pair}

theorem pairsOf_append (rows rows' : List TagAssigned) :
    pairsOf (rows ++ rows') = pairsOf rows ∪ pairsOf rows' := by
  ext pair
  simp only [pairsOf, Set.mem_ofPred_eq, Set.mem_union, List.mem_append, or_and_right, exists_or]

theorem pairsOf_singleton (row : TagAssigned) : pairsOf [row] = {(row.trackId, row.tagId)} := by
  ext pair
  constructor
  · rintro ⟨row', hrow', rfl⟩
    obtain rfl := List.mem_singleton.mp hrow'
    rfl
  · rintro rfl
    exact ⟨row, List.mem_singleton.mpr rfl, rfl⟩

namespace Database

/-- **The assignments**, as a set. -/
def assigned (db : Database ρ) : Set (ℤ × ℤ) := pairsOf db.tagAssignments.rows

/-- There are the track and the tag of a pair. -/
def Refers (db : Database ρ) (pair : ℤ × ℤ) : Prop := db.HasTrack pair.1 ∧ db.HasTag pair.2

instance (db : Database ρ) (pair : ℤ × ℤ) : Decidable (db.Refers pair) :=
  inferInstanceAs (Decidable (_ ∧ _))

/-- `REFERENCES track_info(id)` and `REFERENCES tags(id)`. -/
def AssignmentsRefer (db : Database ρ) : Prop := ∀ pair ∈ db.assigned, db.Refers pair

end Database

namespace Repository

open Program Database

/-! ## The table -/

/-- `INSERT OR IGNORE INTO tag_assignments`, as far as the table goes. -/
def assignmentStep (table : SqlTable TagAssigned TagAssigned.id) (pair : ℤ × ℤ) :
    Except SqlxError (SqlTable TagAssigned TagAssigned.id) :=
  (insertAssignment (ρ := ℤ) { Database.empty with tagAssignments := table } pair).map
    tagAssignments

theorem insertAssignment_eq (db : Database ρ) (pair : ℤ × ℤ) :
    db.insertAssignment pair = (assignmentStep db.tagAssignments pair).map fun tagAssignments =>
      { db with tagAssignments } := by
  unfold assignmentStep insertAssignment
  split
  · dsimp only
    split <;> rfl
  · dsimp only
    cases insertInto db.tagAssignments _ _ <;> rfl

theorem foldlM_insertAssignment (db : Database ρ) (pairs : List (ℤ × ℤ)) :
    pairs.foldlM insertAssignment db =
      (pairs.foldlM assignmentStep db.tagAssignments).map fun tagAssignments =>
        { db with tagAssignments } :=
  foldlM_part insertAssignment_eq (fun _ _ => rfl) (fun _ _ _ => rfl) (fun _ => rfl) db pairs

/-- Some pairs were inserted. -/
structure Grown (table : SqlTable TagAssigned TagAssigned.id) (pairs : List (ℤ × ℤ))
    (table' : SqlTable TagAssigned TagAssigned.id) : Prop where
  /-- every pair takes a key -/
  seq : table'.seq = table.seq + pairs.length
  /-- and is there -/
  union : pairsOf table'.rows = pairsOf table.rows ∪ {pair | pair ∈ pairs}
  /-- no row is lost, and no other row is added -/
  rows : ∃ rows, table'.rows = table.rows ++ rows ∧
    ∀ row ∈ rows, table.seq < row.id ∧ (row.trackId, row.tagId) ∈ pairs

/-- What an `INSERT OR IGNORE` does to the table. -/
theorem assignmentStep_eq_ok {table table' : SqlTable TagAssigned TagAssigned.id} {pair : ℤ × ℤ}
    (h : assignmentStep table pair = .ok table') : Grown table [pair] table' := by
  obtain ⟨db, hdb, rfl⟩ := ok_map_iff.mp h
  unfold insertAssignment at hdb
  split at hdb
  · case isTrue hany =>
    split at hdb
    · case h_1 table' hskip =>
      obtain rfl := Except.ok.inj hdb
      obtain ⟨hrows, hseq⟩ := SqlTable.skip_eq_some hskip
      obtain ⟨row, hrow, hpair⟩ := List.any_eq_true.mp hany
      obtain ⟨htrack, htag⟩ := of_decide_eq_true hpair
      refine ⟨hseq, ?_, [], by rw [hrows, List.append_nil],
        fun row hrow => absurd hrow List.not_mem_nil⟩
      rw [hrows]
      refine (Set.union_eq_self_of_subset_right ?_).symm
      intro pair' hpair'
      obtain rfl := List.mem_singleton.mp hpair'
      exact ⟨row, hrow, Prod.ext htrack htag⟩
    · cases hdb
  · obtain ⟨table', htable, hdb⟩ := ok_of_bind hdb
    obtain rfl := Except.ok.inj hdb
    unfold insertInto at htable
    split at htable
    · case h_1 table'' hinsert =>
      obtain rfl := Except.ok.inj htable
      obtain ⟨hrows, hseq⟩ := SqlTable.insert_eq_some hinsert
      refine ⟨hseq, ?_, _, hrows, ?_⟩
      · rw [hrows, pairsOf_append, pairsOf_singleton]
        exact congrArg _ (Set.ext fun pair' => List.mem_singleton.symm)
      · intro row hrow
        obtain rfl := List.mem_singleton.mp hrow
        exact ⟨by simp only [hseq]; omega, List.mem_singleton.mpr rfl⟩
    · cases htable

/-- It fails only if there is no key left. -/
theorem assignmentStep_ok_iff {table : SqlTable TagAssigned TagAssigned.id} {pair : ℤ × ℤ} :
    (∃ table', assignmentStep table pair = .ok table') ↔ table.seq < maxRowid := by
  unfold assignmentStep insertAssignment insertInto SqlTable.skip SqlTable.insert
  dsimp only
  by_cases hany : (table.rows.any fun row => row.trackId = pair.1 ∧ row.tagId = pair.2) = true
  · by_cases hseq : table.seq < maxRowid
    · rw [if_pos hany, dif_pos hseq]
      exact iff_of_true ⟨_, rfl⟩ hseq
    · rw [if_pos hany, dif_neg hseq]
      exact iff_of_false nofun hseq
  · by_cases hseq : table.seq < maxRowid
    · rw [if_neg hany, dif_pos hseq]
      exact iff_of_true ⟨_, rfl⟩ hseq
    · rw [if_neg hany, dif_neg hseq]
      exact iff_of_false nofun hseq

theorem Grown.trans {table table₁ table₂ : SqlTable TagAssigned TagAssigned.id}
    {pairs pairs' : List (ℤ × ℤ)} (h₁ : Grown table pairs table₁)
    (h₂ : Grown table₁ pairs' table₂) : Grown table (pairs ++ pairs') table₂ := by
  obtain ⟨rows₁, hrows₁, hnew₁⟩ := h₁.rows
  obtain ⟨rows₂, hrows₂, hnew₂⟩ := h₂.rows
  have hseq₁ := h₁.seq
  refine ⟨?_, ?_, rows₁ ++ rows₂, by rw [hrows₂, hrows₁, List.append_assoc], ?_⟩
  · rw [h₂.seq, hseq₁, List.length_append, Int.natCast_add, Int.add_assoc]
  · rw [h₂.union, h₁.union, Set.union_assoc]
    exact congrArg _ (Set.ext fun pair => List.mem_append.symm)
  · intro row hrow
    rcases List.mem_append.mp hrow with hrow | hrow
    · obtain ⟨hid, hpair⟩ := hnew₁ row hrow
      exact ⟨hid, List.mem_append_left _ hpair⟩
    · obtain ⟨hid, hpair⟩ := hnew₂ row hrow
      exact ⟨by omega, List.mem_append_right _ hpair⟩

/-- **Pairs are united** with those that are there. -/
theorem foldlM_assignmentStep {table table' : SqlTable TagAssigned TagAssigned.id}
    {pairs : List (ℤ × ℤ)} (h : pairs.foldlM assignmentStep table = .ok table') :
    Grown table pairs table' := by
  induction pairs generalizing table with
  | nil =>
    obtain rfl := Except.ok.inj h
    refine ⟨(Int.add_zero _).symm, ?_, [], (List.append_nil _).symm, nofun⟩
    exact (Set.union_eq_self_of_subset_right nofun).symm
  | cons pair pairs ih =>
    rw [List.foldlM_cons] at h
    obtain ⟨table₁, hpair, hpairs⟩ := ok_of_bind h
    exact (assignmentStep_eq_ok hpair).trans (ih hpairs)

/-- There is a key for every pair, or not. -/
theorem foldlM_assignmentStep_ok_iff {table : SqlTable TagAssigned TagAssigned.id}
    {pairs : List (ℤ × ℤ)} :
    (∃ table', pairs.foldlM assignmentStep table = .ok table') ↔
      table.seq + pairs.length ≤ maxRowid := by
  induction pairs generalizing table with
  | nil =>
    refine iff_of_true ⟨table, rfl⟩ ?_
    rw [List.length_nil, Int.natCast_zero, Int.add_zero]
    exact table.seq_mem.2
  | cons pair pairs ih =>
    rw [List.length_cons, Int.natCast_succ]
    constructor
    · rintro ⟨table', h⟩
      rw [List.foldlM_cons] at h
      obtain ⟨table₁, hpair, hpairs⟩ := ok_of_bind h
      have hseq := (assignmentStep_eq_ok hpair).seq
      have hrest := ih.mp ⟨table', hpairs⟩
      rw [hseq, List.length_singleton] at hrest
      omega
    · intro hkeys
      have hkey : table.seq < maxRowid := by omega
      obtain ⟨table₁, hpair⟩ : ∃ table₁, assignmentStep table pair = .ok table₁ :=
        assignmentStep_ok_iff.mpr hkey
      have hseq := (assignmentStep_eq_ok hpair).seq
      rw [List.length_singleton] at hseq
      have hkeys₁ : table₁.seq + pairs.length ≤ maxRowid := by omega
      obtain ⟨table', hpairs⟩ := ih.mpr hkeys₁
      exact ⟨table', ok_bind_iff.mpr ⟨table₁, hpair, hpairs⟩⟩

/-! ## The statement -/

section Statement

variable {db db' : Database ρ} {pairs : List (ℤ × ℤ)}

/-- Pairs that refer are added to pairs that refer. -/
theorem assignmentsRefer_grown {tagAssignments : SqlTable TagAssigned TagAssigned.id}
    (h : db.AssignmentsRefer) (hpairs : ∀ pair ∈ pairs, db.Refers pair)
    (hgrown : Grown db.tagAssignments pairs tagAssignments) :
    ({ db with tagAssignments } : Database ρ).AssignmentsRefer := by
  intro pair hpair
  rw [assigned, hgrown.union] at hpair
  rcases hpair with hold | hnew
  · exact h pair hold
  · exact hpairs pair hnew

/-- **References are fatal**, also where pairs may be ignored: those of the pairs that are there
hold anyway. -/
theorem insertAssignments_eq_ok {u : Unit} (hrefer : db.AssignmentsRefer) :
    insertAssignments pairs db = .ok (u, db') ↔ (∀ pair ∈ pairs, db.Refers pair) ∧
      ∃ tagAssignments, pairs.foldlM assignmentStep db.tagAssignments = .ok tagAssignments ∧
        { db with tagAssignments } = db' := by
  rw [insertAssignments, foldlM_insertAssignment, ok_bind_iff]
  have hcheck : ∀ {tagAssignments}, pairs.foldlM assignmentStep db.tagAssignments =
      .ok tagAssignments → ((tagAssignments.rows.all fun row =>
        row.id ≤ db.tagAssignments.seq ∨ (db.HasTrack row.trackId ∧ db.HasTag row.tagId)) = true ↔
          ∀ pair ∈ pairs, db.Refers pair) := by
    intro tagAssignments hfold
    have hgrown := foldlM_assignmentStep hfold
    obtain ⟨rows, hrows, hnew⟩ := hgrown.rows
    rw [List.all_eq_true]
    constructor
    · intro hall pair hpair
      have hthere : pair ∈ pairsOf tagAssignments.rows := hgrown.union ▸ .inr hpair
      obtain ⟨row, hrow, rfl⟩ := hthere
      rcases of_decide_eq_true (hall row hrow) with hid | hrefers
      · rw [hrows] at hrow
        rcases List.mem_append.mp hrow with hrow | hrow
        · exact hrefer _ ⟨row, hrow, rfl⟩
        · exact absurd (hnew row hrow).1 (Int.not_lt.mpr hid)
      · exact hrefers
    · intro hpairs row hrow
      refine decide_eq_true ?_
      rw [hrows] at hrow
      rcases List.mem_append.mp hrow with hrow | hrow
      · exact .inl (db.tagAssignments.le_seq row hrow)
      · exact .inr (hpairs _ (hnew row hrow).2)
  constructor
  · rintro ⟨_, hdb₁, h⟩
    obtain ⟨tagAssignments, hfold, rfl⟩ := ok_map_iff.mp hdb₁
    split at h
    · case isTrue hall =>
      exact ⟨(hcheck hfold).mp hall, tagAssignments, hfold, (Prod.mk.inj (Except.ok.inj h)).2⟩
    · cases h
  · rintro ⟨hpairs, tagAssignments, hfold, rfl⟩
    exact ⟨_, ok_map_iff.mpr ⟨tagAssignments, hfold, rfl⟩, if_pos ((hcheck hfold).mpr hpairs)⟩

/-- Pairs that are inserted in parts are inserted. -/
theorem foldlM_insertAssignments {parts : List (List (ℤ × ℤ))} (hrefer : db.AssignmentsRefer) :
    parts.foldlM (fun db part => (insertAssignments part db).map Prod.snd) db = .ok db' ↔
      (∀ pair ∈ parts.flatten, db.Refers pair) ∧
      ∃ tagAssignments,
        parts.flatten.foldlM assignmentStep db.tagAssignments = .ok tagAssignments ∧
        { db with tagAssignments } = db' := by
  induction parts generalizing db with
  | nil =>
    constructor
    · rintro ⟨⟩
      exact ⟨nofun, _, rfl, rfl⟩
    · rintro ⟨-, _, ⟨⟩, rfl⟩
      rfl
  | cons part parts ih =>
    rw [List.flatten_cons, List.foldlM_cons, List.foldlM_append, List.forall_mem_append]
    simp only [ok_bind_iff, ok_map_iff, Prod.exists, insertAssignments_eq_ok hrefer]
    constructor
    · rintro ⟨_, ⟨u, _, ⟨hpart, table₁, htable₁, rfl⟩, rfl⟩, hparts⟩
      have hrefer₁ := assignmentsRefer_grown hrefer hpart (foldlM_assignmentStep htable₁)
      obtain ⟨hrest, table, htable, rfl⟩ := (ih hrefer₁).mp hparts
      exact ⟨⟨hpart, hrest⟩, table, ⟨table₁, htable₁, htable⟩, rfl⟩
    · rintro ⟨⟨hpart, hrest⟩, table, ⟨table₁, htable₁, htable⟩, rfl⟩
      have hrefer₁ := assignmentsRefer_grown hrefer hpart (foldlM_assignmentStep htable₁)
      exact ⟨_, ⟨(), _, ⟨hpart, table₁, htable₁, rfl⟩, rfl⟩,
        (ih hrefer₁).mpr ⟨hrest, table, htable, rfl⟩⟩

end Statement

/-! ## The operations -/

/-- A statement that returns nothing. -/
theorem snd_eq_ok {x : Except SqlxError (Unit × Database ρ)} {u : Unit} {tables : Database ρ} :
    x = .ok (u, tables) ↔ x.map Prod.snd = .ok tables := by
  rw [ok_map_iff]
  constructor
  · intro h
    exact ⟨_, h, rfl⟩
  · rintro ⟨⟨u', tables'⟩, h, rfl⟩
    exact h

section Operations

variable {db : Database ρ} {assignments : List TagAssignment} {groups : List (List (ℤ × ℤ))}
  {u : Unit} {s' : Session (Database ρ) SqlxError}

/-- What `assign_tags` does, if it succeeds. -/
theorem assignTags_eq_ok (hrefer : db.AssignmentsRefer)
    (hread : assignments.mapM TagAssignment.pairs = some groups) :
    assignTags assignments ⟨db, none, []⟩ = .ok u s' ↔
      (∀ pair ∈ groups.flatten, db.Refers pair) ∧
      ∃ tagAssignments,
        groups.flatten.foldlM assignmentStep db.tagAssignments = .ok tagAssignments ∧
        ⟨{ db with tagAssignments }, none, []⟩ = s' := by
  have hround : ∀ chunk tables locked u s', (execute (insertAssignments chunk) : Operation ρ Unit)
      ⟨db, some ⟨tables, locked⟩, []⟩ = .ok u s' ↔
        ∃ tables', (insertAssignments chunk tables).map Prod.snd = .ok tables' ∧
          ⟨db, some ⟨tables', true⟩, []⟩ = s' := by
    intro chunk tables locked u s'
    simp only [execute_eq_ok, snd_eq_ok]
  have hflatten : (chunks 500 groups.flatten).flatten = groups.flatten :=
    flatten_chunks (by decide) _
  simp only [assignTags, tryLog, assignTagsUnlogged, logging_eq_ok, scope_eq_ok, bind_eq_ok,
    beginTx_eq_ok, orCrash_eq_ok, hread]
  constructor
  · rintro ⟨_, ⟨_, _, rfl, _, _, ⟨⟨⟩, rfl⟩, _, _, hrounds, hcommit⟩, rfl⟩
    obtain ⟨_, hfold, rfl⟩ := (forM_eq_ok hround).mp hrounds
    obtain ⟨hpairs, table, htable, rfl⟩ := (foldlM_insertAssignments hrefer).mp hfold
    rw [hflatten] at hpairs htable
    obtain rfl := commit_eq_ok.mp hcommit
    exact ⟨hpairs, table, htable, rfl⟩
  · rintro ⟨hpairs, table, htable, rfl⟩
    rw [← hflatten] at hpairs htable
    have hfold := (foldlM_insertAssignments hrefer).mpr ⟨hpairs, table, htable, rfl⟩
    exact ⟨_, ⟨(), _, rfl, groups, _, ⟨rfl, rfl⟩, (), _,
      (forM_eq_ok hround).mpr ⟨_, hfold, rfl⟩, rfl⟩, rfl⟩

/-- What `assign_tag` does for one pair after the other. -/
theorem forM_assignTag_eq_ok {pairs : List (ℤ × ℤ)} (hrefer : db.AssignmentsRefer) :
    (pairs.forM fun pair => assignTag pair.1 pair.2) ⟨db, none, []⟩ = .ok u s' ↔
      (∀ pair ∈ pairs, db.Refers pair) ∧
      ∃ tagAssignments, pairs.foldlM assignmentStep db.tagAssignments = .ok tagAssignments ∧
        ⟨{ db with tagAssignments }, none, []⟩ = s' := by
  have hround : ∀ pair : ℤ × ℤ, ∀ tables u s', (assignTag pair.1 pair.2 : Operation ρ Unit)
      ⟨tables, none, []⟩ = .ok u s' ↔
        ∃ tables', (insertAssignments [pair] tables).map Prod.snd = .ok tables' ∧
          ⟨tables', none, []⟩ = s' := by
    intro pair tables u s'
    simp only [assignTag, tryLog, executeOnPool, logging_eq_ok, executePool_eq_ok, snd_eq_ok]
  have hflatten : (pairs.map fun pair => [pair]).flatten = pairs := by
    rw [← List.flatMap_def, List.flatMap_singleton']
  rw [forM_pool_eq_ok hround, ← List.foldlM_map (f := fun pair => [pair])
    (g := fun db part => (insertAssignments part db).map Prod.snd)]
  simp only [foldlM_insertAssignments hrefer, hflatten]
  constructor
  · rintro ⟨_, ⟨hpairs, table, htable, rfl⟩, rfl⟩
    exact ⟨hpairs, table, htable, rfl⟩
  · rintro ⟨hpairs, table, htable, rfl⟩
    exact ⟨_, ⟨hpairs, table, htable, rfl⟩, rfl⟩

/-- **When it succeeds**: all references hold, and there is a key for every pair. -/
theorem assignTags_ok_iff (hrefer : db.AssignmentsRefer)
    (hread : assignments.mapM TagAssignment.pairs = some groups) :
    (∃ s', assignTags assignments ⟨db, none, []⟩ = .ok () s') ↔
      (∀ pair ∈ groups.flatten, db.Refers pair) ∧
        db.tagAssignments.seq + groups.flatten.length ≤ maxRowid := by
  simp only [assignTags_eq_ok hrefer hread, ← foldlM_assignmentStep_ok_iff]
  constructor
  · rintro ⟨_, hpairs, table, htable, -⟩
    exact ⟨hpairs, table, htable⟩
  · rintro ⟨hpairs, table, htable⟩
    exact ⟨_, hpairs, table, htable, rfl⟩

/-- **What it does then**: the set of assignments grows by all pairs, and nothing else changes. -/
theorem assignTags_unites (hrefer : db.AssignmentsRefer)
    (hread : assignments.mapM TagAssignment.pairs = some groups)
    (h : assignTags assignments ⟨db, none, []⟩ = .ok () s') :
    s'.committed.assigned = db.assigned ∪ {pair | pair ∈ groups.flatten} ∧
      ∃ tagAssignments, s' = ⟨{ db with tagAssignments }, none, []⟩ := by
  obtain ⟨-, table, htable, rfl⟩ := (assignTags_eq_ok hrefer hread).mp h
  exact ⟨(foldlM_assignmentStep htable).union, table, rfl⟩

end Operations

/-! ## References

Foreign keys are enforced, so what is assigned refers to tracks and tags that are there. -/

section References

variable {env : Environment ρ} {db db' : Database ρ}

/-- Assignments refer as before if none is added, and no track and no tag is lost to those that
stay. -/
theorem assignmentsRefer_of (h : db.AssignmentsRefer) (hsubset : db'.assigned ⊆ db.assigned)
    (hkept : ∀ pair ∈ db'.assigned, db.Refers pair → db'.Refers pair) : db'.AssignmentsRefer :=
  fun pair hpair => hkept pair hpair (h pair (hsubset hpair))

theorem keeps_insertTracks (ts : List (NewTrack ρ)) :
    Keeps AssignmentsRefer (insertTracks ts) := by
  intro db id db' hdb h
  obtain ⟨trackInfo, hfold, -, rfl⟩ := insertTracks_eq_ok.mp h
  refine assignmentsRefer_of hdb Set.Subset.rfl fun pair _ hrefers => ⟨?_, hrefers.2⟩
  obtain ⟨track, htrack, hid⟩ := hrefers.1
  exact ⟨track, (foldlM_trackInfoStep hfold).2 ▸ List.mem_append_left _ htrack, hid⟩

theorem keeps_insertTag (name : String) :
    Keeps (AssignmentsRefer (ρ := ρ)) (insertTag name) := by
  intro db id db' hdb h
  obtain ⟨tags, rfl, hrows⟩ := insertTag_changes h
  refine assignmentsRefer_of hdb Set.Subset.rfl fun pair _ hrefers => ⟨hrefers.1, ?_⟩
  obtain ⟨tag, htag, hid⟩ := hrefers.2
  exact ⟨tag, hrows ▸ List.mem_append_left _ htag, hid⟩

theorem keeps_insertAssignments (pairs : List (ℤ × ℤ)) :
    Keeps (AssignmentsRefer (ρ := ρ)) (insertAssignments pairs) := by
  intro db _ db' hdb h
  obtain ⟨hpairs, table, htable, rfl⟩ := (insertAssignments_eq_ok hdb).mp h
  exact assignmentsRefer_grown hdb hpairs (foldlM_assignmentStep htable)

/-- An update leaves the keys of tracks. -/
theorem hasTrack_map {f : TrackInfo ρ → TrackInfo ρ} {hf : ∀ row, (f row).id = row.id} {id : ℤ}
    (h : db.HasTrack id) :
    ({ db with trackInfo := db.trackInfo.map f hf } : Database ρ).HasTrack id := by
  obtain ⟨track, htrack, rfl⟩ := h
  exact ⟨f track, List.mem_map_of_mem htrack, hf track⟩

theorem keeps_updateTrack (id : ℤ) (u : TrackUpdate ρ) :
    Keeps AssignmentsRefer (Database.updateTrack id u) := by
  intro db _ db' hdb h
  unfold Database.updateTrack at h
  split at h
  · cases h
  · obtain ⟨-, rfl⟩ := Prod.mk.inj (Except.ok.inj h)
    exact assignmentsRefer_of hdb Set.Subset.rfl fun pair _ hrefers =>
      ⟨hasTrack_map hrefers.1, hrefers.2⟩

theorem keeps_updateTag (id : ℤ) (name : String) :
    Keeps (AssignmentsRefer (ρ := ρ)) (Database.updateTag id name) := by
  intro db _ db' hdb h
  obtain ⟨tags, rfl, hids⟩ := updateTag_changes h
  refine assignmentsRefer_of hdb Set.Subset.rfl fun pair _ hrefers => ⟨hrefers.1, ?_⟩
  have hid := List.mem_map.mpr hrefers.2
  rw [← hids] at hid
  exact List.mem_map.mp hid

/-- A deletion takes the assignments with it. -/
theorem keeps_deleteTrack (id : ℤ) :
    Keeps (AssignmentsRefer (ρ := ρ)) (Database.deleteTrack id) := by
  intro db _ db' hdb h
  unfold Database.deleteTrack at h
  split at h
  · obtain ⟨-, rfl⟩ := Prod.mk.inj (Except.ok.inj h)
    refine assignmentsRefer_of hdb ?_ ?_
    · rintro _ ⟨row, hrow, rfl⟩
      exact ⟨row, List.mem_of_mem_filter hrow, rfl⟩
    · rintro _ ⟨row, hrow, rfl⟩ ⟨⟨track, htrack, hid⟩, htag⟩
      have hne : track.id ≠ id := hid ▸ of_decide_eq_true (List.mem_filter.mp hrow).2
      exact ⟨⟨track, List.mem_filter.mpr ⟨htrack, decide_eq_true hne⟩, hid⟩, htag⟩
  · obtain ⟨-, rfl⟩ := Prod.mk.inj (Except.ok.inj h)
    exact hdb

theorem keeps_deleteTag (id : ℤ) : Keeps (AssignmentsRefer (ρ := ρ)) (Database.deleteTag id) := by
  intro db _ db' hdb h
  unfold Database.deleteTag at h
  split at h
  · obtain ⟨-, rfl⟩ := Prod.mk.inj (Except.ok.inj h)
    refine assignmentsRefer_of hdb ?_ ?_
    · rintro _ ⟨row, hrow, rfl⟩
      exact ⟨row, List.mem_of_mem_filter hrow, rfl⟩
    · rintro _ ⟨row, hrow, rfl⟩ ⟨htrack, tag, htag, hid⟩
      have hne : tag.id ≠ id := hid ▸ of_decide_eq_true (List.mem_filter.mp hrow).2
      exact ⟨htrack, tag, List.mem_filter.mpr ⟨htag, decide_eq_true hne⟩, hid⟩
  · obtain ⟨-, rfl⟩ := Prod.mk.inj (Except.ok.inj h)
    exact hdb

theorem keeps_deleteAssignment (trackId tagId : ℤ) :
    Keeps (AssignmentsRefer (ρ := ρ)) (deleteAssignment trackId tagId) := by
  intro db _ db' hdb h
  obtain ⟨-, rfl⟩ := Prod.mk.inj (Except.ok.inj h)
  refine assignmentsRefer_of hdb ?_ fun _ _ => id
  rintro _ ⟨row, hrow, rfl⟩
  exact ⟨row, List.mem_of_mem_filter hrow, rfl⟩

/-- The other statements change neither tracks nor tags nor assignments. -/
theorem keptByStatements : KeptByStatements (AssignmentsRefer : Database ρ → Prop) where
  insertTracks := keeps_insertTracks
  insertSources _ _ _ _ hdb h := by
    obtain ⟨_, rfl⟩ := insertSources_changes h
    exact hdb
  insertListen _ _ _ _ _ _ hdb h := by
    obtain ⟨_, rfl⟩ := insertListen_changes h
    exact hdb
  insertTag := keeps_insertTag
  insertAssignments := keeps_insertAssignments
  insertMeta _ _ _ _ _ _ hdb h := by
    obtain ⟨_, rfl⟩ := insertMeta_changes h
    exact hdb
  insertError _ _ _ _ hdb h := by
    obtain ⟨_, rfl, -⟩ := insertError_changes h
    exact hdb
  insertConflict _ _ _ _ _ hdb h := by
    obtain ⟨_, rfl⟩ := insertConflict_changes h
    exact hdb
  insertRemoved _ _ _ _ hdb h := by
    obtain ⟨_, rfl⟩ := insertRemoved_changes h
    exact hdb
  updateTrack := keeps_updateTrack
  updateTag := keeps_updateTag
  updateMeta _ _ _ _ _ hdb h := by
    obtain ⟨-, rfl⟩ := Prod.mk.inj (Except.ok.inj h)
    exact hdb
  deleteTrack := keeps_deleteTrack
  deleteTag := keeps_deleteTag
  deleteAssignment := keeps_deleteAssignment
  deleteMeta _ _ _ _ hdb h := by
    obtain ⟨-, rfl⟩ := Prod.mk.inj (Except.ok.inj h)
    exact hdb
  deleteSource _ _ _ _ _ hdb h := by
    obtain ⟨-, rfl⟩ := Prod.mk.inj (Except.ok.inj h)
    exact hdb

/-- Counting seconds leaves the keys of tracks. -/
theorem preserves_addListenedSeconds (date : String) (trackId seconds : ℤ) :
    Preserves AssignmentsRefer (addListenedSeconds env date trackId seconds) := by
  have hlog := keptByStatements (ρ := ρ)
  have hadd : Keeps AssignmentsRefer (addListened env.beyond trackId seconds) := by
    intro db _ db' hdb h
    obtain ⟨-, rfl⟩ := Prod.mk.inj (Except.ok.inj h)
    exact assignmentsRefer_of hdb Set.Subset.rfl fun pair _ hrefers =>
      ⟨hasTrack_map hrefers.1, hrefers.2⟩
  have hupsert : Keeps AssignmentsRefer (upsertDaily env.beyond date trackId seconds) := by
    intro db _ db' hdb h
    obtain ⟨_, rfl⟩ := upsertDaily_changes h
    exact hdb
  refine Triple.scope ((hlog.tryLog Triple.beginTx).bind fun _ => ?_)
  refine (hlog.tryLog (Triple.execute hadd)).bind fun _ => ?_
  refine (hlog.tryLog (Triple.execute hupsert)).bind fun _ => ?_
  exact hlog.tryLog (Triple.commit fun _ => id)

/-- **References hold** after any operations on the database of a new installation. -/
theorem assignmentsRefer_reachable (h : (repository env).Reachable db) : db.AssignmentsRefer := by
  refine StateMachine.invariant (M := repository env) (I := AssignmentsRefer) ?_ ?_ h
  · rintro _ ⟨_, ⟨⟩, -⟩
  · intro db t db' _ hdb hstep
    obtain rfl : turn env db t = db' := Option.some.inj hstep
    have hcall : Preserves AssignmentsRefer (t.call.run env) := by
      by_cases hcount : ∃ date trackId seconds, t.call = .addListenedSeconds date trackId seconds
      · obtain ⟨date, trackId, seconds, hcount⟩ := hcount
        rw [hcount]
        exact preserves_addListenedSeconds date trackId seconds
      · exact keptByStatements.preserves env t.call fun date trackId seconds h =>
          hcount ⟨date, trackId, seconds, h⟩
    exact hcall.final (s := ⟨db, none, t.faults⟩) hdb

end References

/-! ## The union -/

/-- The assignments are those of another database. -/
def SameAssignments (db db' : Database ρ) : Prop := db'.tagAssignments = db.tagAssignments

/-- If `assign_tags` fails, it adds no assignment, wherever it fails. -/
theorem assignTags_fails (db : Database ρ) (assignments : List TagAssignment) :
    Triple (Committed (SameAssignments db)) (assignTags assignments) (fun _ _ => True)
      (Committed (SameAssignments db)) := by
  have hinsertError := keeps_insertError (I := SameAssignments db) fun _ _ hsame => hsame
  refine Triple.tryLog hinsertError (Triple.scopeAny (Triple.beginAny.bind fun _ => ?_))
  refine (Triple.orCrash fun _ => committed_of_within).bind fun pairs => ?_
  exact (Triple.forM fun chunk _ => Triple.executeAny).bind fun _ => Triple.commitAny

/-- **`assign_tags` is a union**, all or nothing: it succeeds if and only if all tracks and tags
are there and so is a key for every pair. Then the set of assignments grows by the pairs; so it
is the same for all lists that contain the same pairs, for `assign_tag` on the pairs in any
order, and when the call is repeated. If it fails, also because of the disk at any statement,
no assignment is added. -/
theorem assignTags_union (db : Database ρ) (hrefer : db.AssignmentsRefer)
    (assignments : List TagAssignment) (groups : List (List (ℤ × ℤ)))
    (hread : assignments.mapM TagAssignment.pairs = some groups) :
    ((∃ s', assignTags assignments ⟨db, none, []⟩ = .ok () s') ↔
      (∀ pair ∈ groups.flatten, db.Refers pair) ∧
        db.tagAssignments.seq + groups.flatten.length ≤ maxRowid) ∧
    (∀ s', assignTags assignments ⟨db, none, []⟩ = .ok () s' →
      s'.committed.assigned = db.assigned ∪ {pair | pair ∈ groups.flatten} ∧
      (∃ tagAssignments, s' = ⟨{ db with tagAssignments }, none, []⟩) ∧
      (∀ pairs : List (ℤ × ℤ), pairs.Perm groups.flatten →
        ∃ s'', (pairs.forM fun pair => assignTag pair.1 pair.2) ⟨db, none, []⟩ = .ok () s'' ∧
          s''.committed.assigned = s'.committed.assigned) ∧
      (∀ assignments' groups' s'', assignments'.mapM TagAssignment.pairs = some groups' →
        (∀ pair, pair ∈ groups'.flatten ↔ pair ∈ groups.flatten) →
        assignTags assignments' ⟨db, none, []⟩ = .ok () s'' →
          s''.committed.assigned = s'.committed.assigned) ∧
      ((∃ s'', assignTags assignments s' = .ok () s'') ↔
        s'.committed.tagAssignments.seq + groups.flatten.length ≤ maxRowid) ∧
      ∀ s'', assignTags assignments s' = .ok () s'' →
        s''.committed.assigned = s'.committed.assigned) ∧
    ∀ faults e s', assignTags assignments ⟨db, none, faults⟩ = .error e s' →
      e ≠ .panic ∧ s'.committed.tagAssignments = db.tagAssignments := by
  refine ⟨assignTags_ok_iff hrefer hread, fun s' h => ?_, fun faults e s' h => ⟨?_, ?_⟩⟩
  · obtain ⟨hpairs, table, htable, rfl⟩ := (assignTags_eq_ok hrefer hread).mp h
    have hgrown := foldlM_assignmentStep htable
    have hrefer' := assignmentsRefer_grown hrefer hpairs hgrown
    refine ⟨hgrown.union, ⟨table, rfl⟩, fun pairs hperm => ?_, fun assignments' groups' s'' hread'
      hsame h' => ?_, ?_, fun s'' h' => ?_⟩
    · have hkeys := foldlM_assignmentStep_ok_iff.mp ⟨table, htable⟩
      rw [← hperm.length_eq] at hkeys
      obtain ⟨table', htable'⟩ := foldlM_assignmentStep_ok_iff.mpr hkeys
      have hpairs' : ∀ pair ∈ pairs, db.Refers pair := fun pair hpair =>
        hpairs pair (hperm.mem_iff.mp hpair)
      refine ⟨_, (forM_assignTag_eq_ok hrefer).mpr ⟨hpairs', table', htable', rfl⟩, ?_⟩
      rw [assigned, assigned, (foldlM_assignmentStep htable').union, hgrown.union]
      exact congrArg _ (Set.ext fun pair => hperm.mem_iff)
    · rw [(assignTags_unites hrefer hread' h').1, assigned, assigned, hgrown.union]
      exact congrArg _ (Set.ext hsame)
    · rw [assignTags_ok_iff hrefer' hread]
      exact and_iff_right hpairs
    · rw [(assignTags_unites hrefer' hread h').1, assigned, hgrown.union, Set.union_assoc,
        Set.union_self]
  · rintro rfl
    obtain ⟨⟨a, ha, hunreadable⟩, -⟩ := panics_assignTags_iff.mp ⟨s', h⟩
    have hnone := BigintId.mapM_eq_none_iff.mpr
      ⟨a, ha, TagAssignment.pairs_eq_none_iff.mpr hunreadable⟩
    cases hread.symm.trans hnone
  · exact (assignTags_fails db assignments).of_error (s := ⟨db, none, faults⟩) rfl h

/-- A track and a tag, and a table of assignments that has given out keys up to `seq`. -/
def oneTag (seq : ℤ) (hseq : 0 ≤ seq ∧ seq ≤ maxRowid) : Database ℤ :=
  { Database.empty with
    trackInfo := FilteredTracks.oneTrack
    tags := ⟨[⟨1, "piano"⟩], 1, by decide, by decide, by decide, SqlTable.seq_mem_one⟩
    tagAssignments := ⟨[], seq, List.nodup_nil, nofun, nofun, hseq⟩ }

theorem assignmentsRefer_oneTag (seq : ℤ) (hseq : 0 ≤ seq ∧ seq ≤ maxRowid) :
    (oneTag seq hseq).AssignmentsRefer := by
  rintro _ ⟨_, ⟨⟩, -⟩

/-- The tag is assigned to the track, twice. -/
def assignedTwice : List TagAssignment :=
  [⟨.fromI64 1, [.fromI64 1]⟩, ⟨.fromI64 1, [.fromI64 1]⟩]

theorem pairs_assignedTwice :
    assignedTwice.mapM TagAssignment.pairs = some [[(1, 1)], [(1, 1)]] := by
  have hone : (BigintId.fromI64 1).toI64 = some 1 := BigintId.toI64_fromI64 (by decide)
  simp [assignedTwice, TagAssignment.pairs, hone]

theorem assignTags_union_oneTag :
    ∃ s', assignTags assignedTwice ⟨oneTag 0 (by decide), none, []⟩ = .ok () s' ∧
      s'.committed.assigned = {(1, 1)} := by
  obtain ⟨hiff, hunion, -⟩ := assignTags_union (oneTag 0 (by decide))
    (assignmentsRefer_oneTag _ _) assignedTwice _ pairs_assignedTwice
  obtain ⟨s', h⟩ := hiff.mpr ⟨by decide, by decide⟩
  refine ⟨s', h, (hunion s' h).1.trans (Set.ext fun pair => ?_)⟩
  simp [oneTag, assigned, pairsOf]

/-- All keys were given out. The track and the tag are there, and the tag is not assigned. -/
theorem exhausted_not_assigned :
    (oneTag maxRowid (by decide)).AssignmentsRefer ∧
    assignedTwice.mapM TagAssignment.pairs = some [[(1, 1)], [(1, 1)]] ∧
    (∀ pair ∈ [[(1, 1)], [(1, 1)]].flatten, (oneTag maxRowid (by decide)).Refers pair) ∧
    ¬ ∃ s', assignTags assignedTwice ⟨oneTag maxRowid (by decide), none, []⟩ = .ok () s' := by
  refine ⟨assignmentsRefer_oneTag _ _, pairs_assignedTwice, by decide, fun hok => ?_⟩
  have hkeys := (assignTags_ok_iff (assignmentsRefer_oneTag _ _) pairs_assignedTwice).mp hok
  exact absurd hkeys.2 (by decide)

end Repository

end Vamp
