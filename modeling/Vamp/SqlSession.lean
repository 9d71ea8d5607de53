import Mathlib.Data.List.Forall2
import Mathlib.Tactic.Basic

/-!
# Programs that use a database

A program talks to a database one action at a time: it begins a transaction, executes a
statement in it or outside of it, commits. Every action may fail for a reason of its own (the
disk, the network, a lock of somebody else), which a script decides. A transaction that is
still open when its scope ends is rolled back.

`Leaves P p Q F` says what holds when `p` is left, with a value (`Q`) or with a failure (`F`);
there is one rule for every action. They are used in two forms. `Triple P p Q E` is about
what is kept, and speaks of the two places that tables are in: `Committed I` is about the
tables that everybody sees, `Within I J` also about those of the open transaction.
`Calm P p Q` says that `p` does not panic.

Nothing here knows what the tables are, nor what errors there are.
-/

/-- A program that ended without a value. -/
inductive Failure (ε : Type) : Type where
  /-- it returned an error -/
  | error (e : ε)
  /-- it panicked -/
  | panic

/-- An open transaction. -/
structure Transaction (σ : Type) : Type where
  /-- the tables, as it has changed them -/
  tables : σ
  /-- it has the lock for writing -/
  locked : Bool

/-- A database and the one program that uses it. -/
structure Session (σ ε : Type) : Type where
  /-- the tables -/
  committed : σ
  /-- the transaction of the program -/
  tx : Option (Transaction σ)
  /-- the failures of the next actions -/
  faults : List (Option ε)

/-- A program that uses a database. -/
abbrev Program (σ ε : Type) : Type → Type := EStateM (Failure ε) (Session σ ε)

variable {σ ε α β : Type}

/-! ## Statements -/

/-- A statement that succeeds keeps a property of the tables. -/
def Keeps (I : σ → Prop) (statement : σ → Except ε (α × σ)) : Prop :=
  ∀ tables a tables', I tables → statement tables = .ok (a, tables') → I tables'

/-- What succeeded in steps succeeded at every step. -/
theorem ok_of_bind {x : Except ε α} {f : α → Except ε β} {b : β} (h : (x >>= f) = .ok b) :
    ∃ a, x = .ok a ∧ f a = .ok b := by
  cases x with
  | error e => cases h
  | ok a => exact ⟨a, rfl, h⟩

theorem ok_bind_iff {x : Except ε α} {f : α → Except ε β} {b : β} :
    (x >>= f) = .ok b ↔ ∃ a, x = .ok a ∧ f a = .ok b := by
  constructor
  · exact ok_of_bind
  · rintro ⟨a, rfl, h⟩
    exact h

theorem ok_map_iff {x : Except ε α} {f : α → β} {b : β} :
    x.map f = .ok b ↔ ∃ a, x = .ok a ∧ f a = b := by
  cases x with
  | error e => exact iff_of_false nofun nofun
  | ok a =>
    constructor
    · intro h
      exact ⟨a, rfl, Except.ok.inj h⟩
    · rintro ⟨_, ⟨⟩, rfl⟩
      rfl

/-- A loop that succeeds makes one result after the other. -/
theorem mapM_eq_ok_iff {f : α → Except ε β} {xs : List α} {ys : List β} :
    xs.mapM f = .ok ys ↔ List.Forall₂ (fun x y => f x = .ok y) xs ys := by
  induction xs generalizing ys with
  | nil =>
    rw [List.forall₂_nil_left_iff]
    constructor
    · rintro ⟨⟩
      rfl
    · rintro rfl
      rfl
  | cons x xs ih =>
    rw [List.mapM_cons, ok_bind_iff, List.forall₂_cons_left_iff]
    constructor
    · rintro ⟨y, hy, h⟩
      obtain ⟨ys', hys', h⟩ := ok_of_bind h
      obtain rfl := Except.ok.inj h
      exact ⟨y, ys', hy, ih.mp hys', rfl⟩
    · rintro ⟨y, ys', hy, hys', rfl⟩
      refine ⟨y, hy, ?_⟩
      rw [ih.mpr hys']
      rfl

/-- Each member of the one list belongs to one of the other. -/
theorem exists_of_forall₂ {R : α → β → Prop} {xs : List α} {ys : List β}
    (h : List.Forall₂ R xs ys) {x : α} (hx : x ∈ xs) : ∃ y ∈ ys, R x y := by
  induction h with
  | nil => exact absurd hx List.not_mem_nil
  | cons hxy _ ih =>
    rcases List.mem_cons.mp hx with rfl | hx
    · exact ⟨_, List.mem_cons_self, hxy⟩
    · obtain ⟨y, hy, hxy⟩ := ih hx
      exact ⟨y, List.mem_cons_of_mem _ hy, hxy⟩

theorem exists_of_forall₂_right {R : α → β → Prop} {xs : List α} {ys : List β}
    (h : List.Forall₂ R xs ys) {y : β} (hy : y ∈ ys) : ∃ x ∈ xs, R x y :=
  exists_of_forall₂ (List.Forall₂.flip (R := flip R) h) hy

/-- If there is something for each member, there is a list for all of them. -/
theorem exists_forall₂ {R : α → β → Prop} {xs : List α} (h : ∀ x ∈ xs, ∃ y, R x y) :
    ∃ ys, List.Forall₂ R xs ys := by
  induction xs with
  | nil => exact ⟨[], .nil⟩
  | cons x xs ih =>
    obtain ⟨⟨y, hxy⟩, hxs⟩ := List.forall_mem_cons.mp h
    obtain ⟨ys, hys⟩ := ih hxs
    exact ⟨y :: ys, .cons hxy hys⟩

/-- What every row keeps, all rows keep. -/
theorem foldlM_keeps {I : σ → Prop} {f : σ → β → Except ε σ} {xs : List β} {tables tables' : σ}
    (step : ∀ tables x tables', I tables → f tables x = .ok tables' → I tables')
    (hI : I tables) (h : xs.foldlM f tables = .ok tables') : I tables' := by
  induction xs generalizing tables with
  | nil =>
    obtain rfl := Except.ok.inj h
    exact hI
  | cons x xs ih =>
    rw [List.foldlM_cons] at h
    obtain ⟨tables₁, hx, hxs⟩ := ok_of_bind h
    exact ih (step _ _ _ hI hx) hxs

namespace Program

/-! ## Actions -/

/-- Give up with an error. -/
def raise (e : ε) : Program σ ε α := throw (.error e)

/-- Panic. -/
def crash : Program σ ε α := throw .panic

/-- The next action, as far as it does not depend on the tables. -/
def attempt : Program σ ε Unit := fun s =>
  match s.faults with
  | [] => .ok () s
  | none :: faults => .ok () { s with faults }
  | some e :: faults => .error (.error e) { s with faults }

/-- `BEGIN`. -/
def beginTx : Program σ ε Unit := do
  attempt
  modify fun s => { s with tx := some ⟨s.committed, false⟩ }

/-- Execute a statement in the transaction. Without a transaction there is no way to write
this. -/
def execute (statement : σ → Except ε (α × σ)) : Program σ ε α := do
  attempt
  fun s =>
    match s.tx with
    | none => .error .panic s
    | some tx =>
      match statement tx.tables with
      | .ok (a, tables) => .ok a { s with tx := some ⟨tables, true⟩ }
      | .error e => .error (.error e) { s with tx := some { tx with locked := true } }

/-- Read in the transaction. -/
def fetch (query : σ → Except ε α) : Program σ ε α := do
  attempt
  fun s =>
    match s.tx with
    | none => .error .panic s
    | some tx =>
      match query tx.tables with
      | .ok a => .ok a s
      | .error e => .error (.error e) s

/-- Execute a statement outside of the transaction. It would wait for its lock in vain. -/
def executePool (locked : ε) (statement : σ → Except ε (α × σ)) : Program σ ε α := do
  attempt
  fun s =>
    if s.tx.any Transaction.locked then .error (.error locked) s
    else
      match statement s.committed with
      | .ok (a, tables) => .ok a { s with committed := tables }
      | .error e => .error (.error e) s

/-- Read outside of the transaction. -/
def fetchPool (query : σ → Except ε α) : Program σ ε α := do
  attempt
  fun s =>
    match query s.committed with
    | .ok a => .ok a s
    | .error e => .error (.error e) s

/-- `COMMIT`. The transaction is over even when this fails. -/
def commit : Program σ ε Unit := fun s =>
  match attempt s with
  | .ok () s' =>
    .ok () { s' with
      committed := (s'.tx.map Transaction.tables).getD s'.committed
      tx := none }
  | .error e s' => .error e { s' with tx := none }

/-- A part of a program at whose end the transaction is dropped. -/
def scope (p : Program σ ε α) : Program σ ε α := fun s =>
  match p s with
  | .ok a s' => .ok a { s' with tx := none }
  | .error e s' => .error e { s' with tx := none }

/-- The session in which a program was left. -/
def final (p : Program σ ε α) (s : Session σ ε) : Session σ ε :=
  match p s with
  | .ok _ s' => s'
  | .error _ s' => s'

/-- Record an error of `p`, if there is one, as well as that can be done. -/
def logging (record : ε → Program σ ε β) (p : Program σ ε α) : Program σ ε α := fun s =>
  match p s with
  | .error (.error e) s' => .error (.error e) ((record e).final s')
  | result => result

/-! ## Running -/

theorem bind_eq_ok {p : Program σ ε α} {f : α → Program σ ε β} {s s' : Session σ ε} {b : β} :
    (p >>= f) s = .ok b s' ↔ ∃ a s₁, p s = .ok a s₁ ∧ f a s₁ = .ok b s' := by
  have hbind : (p >>= f) s = EStateM.bind p f s := rfl
  rw [hbind, EStateM.bind]
  cases p s with
  | ok a s₁ =>
    constructor
    · exact fun h => ⟨a, s₁, rfl, h⟩
    · rintro ⟨_, _, ⟨⟩, h⟩
      exact h
  | error e s₁ =>
    constructor
    · exact nofun
    · rintro ⟨_, _, ⟨⟩, -⟩

theorem pure_eq_ok {s s' : Session σ ε} {a b : α} :
    (pure a : Program σ ε α) s = .ok b s' ↔ a = b ∧ s = s' := by
  constructor
  · rintro ⟨⟩
    exact ⟨rfl, rfl⟩
  · rintro ⟨rfl, rfl⟩
    rfl

theorem scope_eq_ok {p : Program σ ε α} {s s' : Session σ ε} {a : α} :
    scope p s = .ok a s' ↔ ∃ s₁, p s = .ok a s₁ ∧ { s₁ with tx := none } = s' := by
  unfold scope
  cases p s with
  | ok a s₁ =>
    constructor
    · rintro ⟨⟩
      exact ⟨s₁, rfl, rfl⟩
    · rintro ⟨_, ⟨⟩, rfl⟩
      rfl
  | error e s₁ => exact ⟨nofun, nofun⟩

theorem logging_eq_ok {record : ε → Program σ ε β} {p : Program σ ε α} {s s' : Session σ ε}
    {a : α} : logging record p s = .ok a s' ↔ p s = .ok a s' := by
  unfold logging
  cases p s with
  | ok a s₁ => rfl
  | error e s₁ => cases e <;> exact ⟨nofun, nofun⟩

theorem logging_congr {record : ε → Program σ ε β} {p p' : Program σ ε α} {s : Session σ ε}
    (h : p s = p' s) : logging record p s = logging record p' s := by
  rw [logging, logging, h]

/-- A query is asked about the tables that everybody sees. -/
theorem fetchPool_congr {query query' : σ → Except ε α} {s : Session σ ε}
    (h : query s.committed = query' s.committed) : fetchPool query s = fetchPool query' s := by
  obtain ⟨committed, tx, faults⟩ := s
  change query committed = query' committed at h
  rcases faults with _ | ⟨_ | e, faults⟩
  · simp only [fetchPool, attempt, bind, EStateM.bind, h]
  · simp only [fetchPool, attempt, bind, EStateM.bind, h]
  · rfl

section Undisturbed

variable {committed : σ} {tx : Transaction σ} {s' : Session σ ε}

theorem beginTx_eq_ok {u : Unit} : (beginTx : Program σ ε Unit) ⟨committed, none, []⟩ = .ok u s' ↔
    ⟨committed, some ⟨committed, false⟩, []⟩ = s' := by
  constructor
  · rintro ⟨⟩
    rfl
  · rintro rfl
    rfl

theorem commit_eq_ok {u : Unit} : (commit : Program σ ε Unit) ⟨committed, some tx, []⟩ = .ok u s' ↔
    ⟨tx.tables, none, []⟩ = s' := by
  constructor
  · rintro ⟨⟩
    rfl
  · rintro rfl
    rfl

theorem fetch_eq_ok {query : σ → Except ε α} {a : α} :
    fetch query ⟨committed, some tx, []⟩ = .ok a s' ↔
      query tx.tables = .ok a ∧ ⟨committed, some tx, []⟩ = s' := by
  have hfetch : fetch query ⟨committed, some tx, []⟩ =
      match query tx.tables with
      | .ok a => .ok a ⟨committed, some tx, []⟩
      | .error e => .error (.error e) ⟨committed, some tx, []⟩ := rfl
  rw [hfetch]
  cases query tx.tables with
  | ok a' =>
    constructor
    · rintro ⟨⟩
      exact ⟨rfl, rfl⟩
    · rintro ⟨⟨⟩, rfl⟩
      rfl
  | error e => exact ⟨nofun, nofun⟩

theorem execute_eq_ok {statement : σ → Except ε (α × σ)} {a : α} :
    execute statement ⟨committed, some tx, []⟩ = .ok a s' ↔
      ∃ tables, statement tx.tables = .ok (a, tables) ∧
        ⟨committed, some ⟨tables, true⟩, []⟩ = s' := by
  have hexecute : execute statement ⟨committed, some tx, []⟩ =
      match statement tx.tables with
      | .ok (a, tables) => .ok a ⟨committed, some ⟨tables, true⟩, []⟩
      | .error e => .error (.error e) ⟨committed, some ⟨tx.tables, true⟩, []⟩ := rfl
  rw [hexecute]
  cases statement tx.tables with
  | ok r =>
    constructor
    · rintro ⟨⟩
      exact ⟨r.2, rfl, rfl⟩
    · rintro ⟨tables, ⟨⟩, rfl⟩
      rfl
  | error e => exact ⟨nofun, nofun⟩

theorem executePool_eq_ok {locked : ε} {statement : σ → Except ε (α × σ)} {a : α} :
    executePool locked statement ⟨committed, none, []⟩ = .ok a s' ↔
      ∃ tables, statement committed = .ok (a, tables) ∧ ⟨tables, none, []⟩ = s' := by
  have hexecute : executePool locked statement ⟨committed, none, []⟩ =
      match statement committed with
      | .ok (a, tables) => .ok a ⟨tables, none, []⟩
      | .error e => .error (.error e) ⟨committed, none, []⟩ := rfl
  rw [hexecute]
  cases statement committed with
  | ok r =>
    constructor
    · rintro ⟨⟩
      exact ⟨r.2, rfl, rfl⟩
    · rintro ⟨tables, ⟨⟩, rfl⟩
      rfl
  | error e => exact ⟨nofun, nofun⟩

theorem fetchPool_eq_ok {query : σ → Except ε α} {a : α} :
    fetchPool query ⟨committed, none, []⟩ = .ok a s' ↔
      query committed = .ok a ∧ ⟨committed, none, []⟩ = s' := by
  have hfetch : fetchPool query ⟨committed, none, []⟩ =
      match query committed with
      | .ok a => .ok a ⟨committed, none, []⟩
      | .error e => .error (.error e) ⟨committed, none, []⟩ := rfl
  rw [hfetch]
  cases query committed with
  | ok a' =>
    constructor
    · rintro ⟨⟩
      exact ⟨rfl, rfl⟩
    · rintro ⟨⟨⟩, rfl⟩
      rfl
  | error e => exact ⟨nofun, nofun⟩

/-- A loop whose rounds are statements outside of a transaction. -/
theorem forM_pool_eq_ok {f : β → Program σ ε Unit} {step : σ → β → Except ε σ} {xs : List β}
    {u : Unit}
    (hf : ∀ x tables u s', f x ⟨tables, none, []⟩ = .ok u s' ↔
      ∃ tables', step tables x = .ok tables' ∧ ⟨tables', none, []⟩ = s') :
    xs.forM f ⟨committed, none, []⟩ = .ok u s' ↔
      ∃ tables', xs.foldlM step committed = .ok tables' ∧ ⟨tables', none, []⟩ = s' := by
  induction xs generalizing committed with
  | nil =>
    have hforM : ([] : List β).forM f = (pure () : Program σ ε Unit) := rfl
    rw [hforM, pure_eq_ok]
    constructor
    · rintro ⟨-, rfl⟩
      exact ⟨committed, rfl, rfl⟩
    · rintro ⟨_, ⟨⟩, rfl⟩
      exact ⟨rfl, rfl⟩
  | cons x xs ih =>
    have hforM : (x :: xs).forM f = (f x >>= fun _ => xs.forM f) := rfl
    rw [hforM, bind_eq_ok, List.foldlM_cons]
    constructor
    · rintro ⟨_, _, hx, hxs⟩
      obtain ⟨tables₁, hstep, rfl⟩ := (hf x _ _ _).mp hx
      obtain ⟨tables', hsteps, rfl⟩ := ih.mp hxs
      exact ⟨tables', ok_bind_iff.mpr ⟨tables₁, hstep, hsteps⟩, rfl⟩
    · rintro ⟨tables', hfold, rfl⟩
      obtain ⟨tables₁, hstep, hsteps⟩ := ok_bind_iff.mp hfold
      exact ⟨(), _, (hf x _ _ _).mpr ⟨tables₁, hstep, rfl⟩, ih.mpr ⟨tables', hsteps, rfl⟩⟩

/-- A loop whose rounds execute one statement each. -/
theorem forM_eq_ok {f : β → Program σ ε Unit} {step : σ → β → Except ε σ} {xs : List β}
    {tables : σ} {locked : Bool} {u : Unit}
    (hf : ∀ x tables locked u s', f x ⟨committed, some ⟨tables, locked⟩, []⟩ = .ok u s' ↔
      ∃ tables', step tables x = .ok tables' ∧ ⟨committed, some ⟨tables', true⟩, []⟩ = s') :
    xs.forM f ⟨committed, some ⟨tables, locked⟩, []⟩ = .ok u s' ↔
      ∃ tables', xs.foldlM step tables = .ok tables' ∧
        ⟨committed, some ⟨tables', locked || !xs.isEmpty⟩, []⟩ = s' := by
  induction xs generalizing tables locked with
  | nil =>
    have hforM : ([] : List β).forM f = (pure () : Program σ ε Unit) := rfl
    rw [hforM, pure_eq_ok, List.isEmpty_nil, Bool.not_true, Bool.or_false]
    constructor
    · rintro ⟨-, rfl⟩
      exact ⟨tables, rfl, rfl⟩
    · rintro ⟨_, ⟨⟩, rfl⟩
      exact ⟨rfl, rfl⟩
  | cons x xs ih =>
    have hforM : (x :: xs).forM f = (f x >>= fun _ => xs.forM f) := rfl
    rw [hforM, bind_eq_ok, List.foldlM_cons, List.isEmpty_cons, Bool.not_false, Bool.or_true]
    constructor
    · rintro ⟨_, _, hx, hxs⟩
      obtain ⟨tables₁, hstep, rfl⟩ := (hf x _ _ _ _).mp hx
      obtain ⟨tables', hsteps, rfl⟩ := ih.mp hxs
      exact ⟨tables', ok_bind_iff.mpr ⟨tables₁, hstep, hsteps⟩, rfl⟩
    · rintro ⟨tables', hfold, rfl⟩
      obtain ⟨tables₁, hstep, hsteps⟩ := ok_bind_iff.mp hfold
      exact ⟨(), _, (hf x _ _ _ _).mpr ⟨tables₁, hstep, rfl⟩, ih.mpr ⟨tables', hsteps, rfl⟩⟩

end Undisturbed

/-! ## How a program is left -/

/-- `p`, started in a session with `P`, is left with a value and `Q`, or with a failure and `F`. -/
def Leaves (P : Session σ ε → Prop) (p : Program σ ε α) (Q : α → Session σ ε → Prop)
    (F : Failure ε → Session σ ε → Prop) : Prop :=
  ∀ s, P s →
    match p s with
    | .ok a s' => Q a s'
    | .error e s' => F e s'

/-- `p`, started in a session with `P`, is left with a value and `Q` or without and `E`. -/
def Triple (P : Session σ ε → Prop) (p : Program σ ε α) (Q : α → Session σ ε → Prop)
    (E : Session σ ε → Prop) : Prop :=
  ∀ s, P s →
    match p s with
    | .ok a s' => Q a s'
    | .error _ s' => E s'

/-- The committed tables satisfy `I`. -/
def Committed (I : σ → Prop) (s : Session σ ε) : Prop := I s.committed

/-- The committed tables satisfy `I`, and those of an open transaction satisfy `J`. -/
def Within (I J : σ → Prop) (s : Session σ ε) : Prop :=
  I s.committed ∧ ∃ tx, s.tx = some tx ∧ J tx.tables

variable {P P' : Session σ ε → Prop} {Q Q' : α → Session σ ε → Prop} {E E' : Session σ ε → Prop}
  {F F' : Failure ε → Session σ ε → Prop} {R : β → Session σ ε → Prop} {I J : σ → Prop}

namespace Leaves

/-- The rule for one program after another. -/
theorem bind {p : Program σ ε α} {f : α → Program σ ε β} (hp : Leaves P p Q F)
    (hf : ∀ a, Leaves (Q a) (f a) R F) : Leaves P (p >>= f) R F := by
  intro s hs
  have hp' := hp s hs
  have hbind : (p >>= f) s = EStateM.bind p f s := rfl
  rw [hbind, EStateM.bind]
  cases hrun : p s with
  | ok a s' =>
    rw [hrun] at hp'
    exact hf a s' hp'
  | error e s' =>
    rw [hrun] at hp'
    exact hp'

/-- Weaken what is said. -/
theorem mono {p : Program σ ε α} (hP : ∀ s, P' s → P s) (hp : Leaves P p Q F)
    (hQ : ∀ a s, Q a s → Q' a s) (hF : ∀ e s, F e s → F' e s) : Leaves P' p Q' F' := by
  intro s hs
  have hp' := hp s (hP s hs)
  cases hrun : p s with
  | ok a s' =>
    rw [hrun] at hp'
    exact hQ a s' hp'
  | error e s' =>
    rw [hrun] at hp'
    exact hF e s' hp'

theorem attempt (h : ∀ s faults, P s → P { s with faults })
    (hF : ∀ e s, P s → F (.error e) s) :
    Leaves P (attempt : Program σ ε Unit) (fun _ => P) F := by
  intro s hs
  unfold Program.attempt
  rcases hfaults : s.faults with _ | ⟨_ | e, faults⟩
  · exact hs
  · exact h s faults hs
  · exact hF e _ (h s faults hs)

/-- The rule for statements in the transaction. -/
theorem execute {statement : σ → Except ε (α × σ)} (h : ∀ s faults, P s → P { s with faults })
    (hF : ∀ e s, P s → F (.error e) s)
    (hopen : ∀ s, P s → ∃ tx, s.tx = some tx ∧
      (∀ a tables, statement tx.tables = .ok (a, tables) →
        Q a { s with tx := some ⟨tables, true⟩ }) ∧
      ∀ e, statement tx.tables = .error e →
        F (.error e) { s with tx := some { tx with locked := true } }) :
    Leaves P (execute statement) Q F := by
  refine (attempt h hF).bind fun _ s hs => ?_
  obtain ⟨tx, htx, hok, herror⟩ := hopen s hs
  simp only [htx]
  cases hrun : statement tx.tables with
  | ok r => exact hok _ _ hrun
  | error e => exact herror e hrun

/-- The rule for queries in the transaction. -/
theorem fetch {query : σ → Except ε α} (h : ∀ s faults, P s → P { s with faults })
    (hF : ∀ e s, P s → F (.error e) s)
    (hopen : ∀ s, P s → ∃ tx, s.tx = some tx ∧ ∀ a, query tx.tables = .ok a → Q a s) :
    Leaves P (fetch query) Q F := by
  refine (attempt h hF).bind fun _ s hs => ?_
  obtain ⟨tx, htx, hok⟩ := hopen s hs
  simp only [htx]
  cases hrun : query tx.tables with
  | ok a => exact hok a hrun
  | error e => exact hF e s hs

/-- The rule for statements outside of a transaction. -/
theorem executePool {locked : ε} {statement : σ → Except ε (α × σ)}
    (h : ∀ s faults, P s → P { s with faults }) (hF : ∀ e s, P s → F (.error e) s)
    (hok : ∀ s a tables, P s → statement s.committed = .ok (a, tables) →
      Q a { s with committed := tables }) :
    Leaves P (executePool locked statement) Q F := by
  refine (attempt h hF).bind fun _ s hs => ?_
  by_cases hlocked : s.tx.any Transaction.locked = true
  · simp only [if_pos hlocked]
    exact hF locked s hs
  · simp only [if_neg hlocked]
    cases hrun : statement s.committed with
    | ok r => exact hok _ _ _ hs hrun
    | error e => exact hF e s hs

/-- The rule for queries outside of a transaction. -/
theorem fetchPool {query : σ → Except ε α} (h : ∀ s faults, P s → P { s with faults })
    (hF : ∀ e s, P s → F (.error e) s)
    (hok : ∀ s a, P s → query s.committed = .ok a → Q a s) :
    Leaves P (fetchPool query) Q F := by
  refine (attempt h hF).bind fun _ s hs => ?_
  cases hrun : query s.committed with
  | ok a => exact hok _ _ hs hrun
  | error e => exact hF e s hs

/-- The rule for the end of a transaction, which is over in any case. -/
theorem commit {Q : Unit → Session σ ε → Prop} (h : ∀ s faults, P s → P { s with faults })
    (hok : ∀ s, P s → Q () { s with
      committed := (s.tx.map Transaction.tables).getD s.committed
      tx := none })
    (hF : ∀ e s, P s → F (.error e) { s with tx := none }) :
    Leaves P (commit : Program σ ε Unit) Q F := by
  intro s hs
  have hattempt : Leaves P (Program.attempt : Program σ ε Unit) (fun _ => P)
      fun e s => F e { s with tx := none } := attempt h hF
  have hattempt' := hattempt s hs
  unfold Program.commit
  cases hrun : Program.attempt s with
  | ok _ s' =>
    rw [hrun] at hattempt'
    exact hok s' hattempt'
  | error e s' =>
    rw [hrun] at hattempt'
    exact hattempt'

/-- The rule for scopes. -/
theorem scope {p : Program σ ε α} (hp : Leaves P p (fun a s => Q a { s with tx := none })
    fun e s => F e { s with tx := none }) : Leaves P (scope p) Q F := by
  intro s hs
  have hp' := hp s hs
  unfold Program.scope
  cases hrun : p s with
  | ok a s' =>
    rw [hrun] at hp'
    exact hp'
  | error e s' =>
    rw [hrun] at hp'
    exact hp'

/-- The rule for recording errors, which may change what is known of them. -/
theorem loggingTo {record : ε → Program σ ε β} {p : Program σ ε α} (hp : Leaves P p Q F)
    (hrecord : ∀ e s, F (.error e) s → F' (.error e) ((record e).final s))
    (hpanic : ∀ s, F .panic s → F' .panic s) : Leaves P (Program.logging record p) Q F' := by
  intro s hs
  have hp' := hp s hs
  unfold Program.logging
  cases hrun : p s with
  | ok a s' =>
    rw [hrun] at hp'
    exact hp'
  | error e s' =>
    rw [hrun] at hp'
    cases e with
    | error e => exact hrecord e s' hp'
    | panic => exact hpanic s' hp'

/-- The rule for recording errors. -/
theorem logging {record : ε → Program σ ε β} {p : Program σ ε α} (hp : Leaves P p Q F)
    (hrecord : ∀ e s, F (.error e) s → F (.error e) ((record e).final s)) :
    Leaves P (logging record p) Q F :=
  hp.loggingTo hrecord fun _ => id

/-- The rule for loops: `P` is the invariant. -/
theorem forM {xs : List β} {f : β → Program σ ε Unit}
    (h : ∀ x ∈ xs, Leaves P (f x) (fun _ => P) F) :
    Leaves P (xs.forM f) (fun _ => P) F := by
  induction xs with
  | nil => exact fun _ => id
  | cons x xs ih =>
    obtain ⟨hx, hxs⟩ := List.forall_mem_cons.mp h
    exact hx.bind fun _ => ih hxs

/-- The rule for loops that collect values. -/
theorem mapM {xs : List β} {f : β → Program σ ε α} (h : ∀ x ∈ xs, Leaves P (f x) (fun _ => P) F) :
    Leaves P (xs.mapM f) (fun _ => P) F := by
  induction xs with
  | nil => exact fun _ => id
  | cons x xs ih =>
    obtain ⟨hx, hxs⟩ := List.forall_mem_cons.mp h
    rw [List.mapM_cons]
    exact hx.bind fun _ => (ih hxs).bind fun _ _ => id

/-- The rule for loops that collect values of which something is known. -/
theorem mapM_forall {xs : List β} {f : β → Program σ ε α} {R : α → Prop}
    (h : ∀ x ∈ xs, Leaves P (f x) (fun a s => R a ∧ P s) F) :
    Leaves P (xs.mapM f) (fun as s => (∀ a ∈ as, R a) ∧ P s) F := by
  induction xs with
  | nil => exact fun _ hs => ⟨fun _ hmem => absurd hmem List.not_mem_nil, hs⟩
  | cons x xs ih =>
    obtain ⟨hx, hxs⟩ := List.forall_mem_cons.mp h
    rw [List.mapM_cons]
    refine hx.bind fun a s hs => ?_
    refine (ih hxs).bind (fun as s₁ hs₁ => ?_) s hs.2
    exact ⟨List.forall_mem_cons.mpr ⟨hs.1, hs₁.1⟩, hs₁.2⟩

end Leaves

/-! ## What is kept

A failure is a failure. -/

namespace Triple

theorem leaves {p : Program σ ε α} (hp : Triple P p Q E) : Leaves P p Q fun _ => E := hp

theorem pure {a : α} (h : ∀ s, P s → Q a s) : Triple P (pure a) Q E := h

theorem throw {e : Failure ε} (h : ∀ s, P s → E s) : Triple P (throw e : Program σ ε α) Q E := h

/-- The rule for one program after another. -/
theorem bind {p : Program σ ε α} {f : α → Program σ ε β} (hp : Triple P p Q E)
    (hf : ∀ a, Triple (Q a) (f a) R E) : Triple P (p >>= f) R E :=
  hp.leaves.bind fun a => (hf a).leaves

/-- Weaken what is said. -/
theorem mono {p : Program σ ε α} (hP : ∀ s, P' s → P s) (hp : Triple P p Q E)
    (hQ : ∀ a s, Q a s → Q' a s) (hE : ∀ s, E s → E' s) : Triple P' p Q' E' :=
  hp.leaves.mono hP hQ fun _ => hE

/-- What is known before does not depend on the session. -/
theorem assuming {A : Prop} {p : Program σ ε α} (hp : A → Triple P p Q E) :
    Triple (fun s => A ∧ P s) p Q E := fun s hs => hp hs.1 s hs.2

theorem beginTx : Triple (Committed I) (beginTx : Program σ ε Unit) (fun _ => Within I I)
    (Committed I) :=
  (Leaves.attempt (fun _ _ h => h) fun _ _ h => h).bind fun _ _ hs => ⟨hs, _, rfl, hs⟩

/-- The rule for statements in the transaction. -/
theorem execute {statement : σ → Except ε (α × σ)} {J' : α → σ → Prop}
    (h : ∀ tables a tables', J tables → statement tables = .ok (a, tables') → J' a tables') :
    Triple (Within I J) (execute statement) (fun a => Within I (J' a)) (Committed I) := by
  refine Leaves.execute (fun _ _ h => h) (fun _ _ h => h.1) ?_
  rintro s ⟨hI, tx, htx, hJ⟩
  exact ⟨tx, htx, fun a tables hrun => ⟨hI, _, rfl, h _ _ _ hJ hrun⟩, fun _ _ => hI⟩

theorem fetch {query : σ → Except ε α} :
    Triple (Within I J) (fetch query) (fun _ => Within I J) (Committed I) := by
  refine Leaves.fetch (fun _ _ h => h) (fun _ _ h => h.1) ?_
  rintro s ⟨hI, tx, htx, hJ⟩
  exact ⟨tx, htx, fun _ _ => ⟨hI, tx, htx, hJ⟩⟩

/-- The rule for statements outside of a transaction. -/
theorem executePool {locked : ε} {statement : σ → Except ε (α × σ)} (h : Keeps I statement) :
    Triple (Committed I) (executePool locked statement) (fun _ => Committed I) (Committed I) :=
  Leaves.executePool (fun _ _ h => h) (fun _ _ h => h) fun _ _ _ hI => h _ _ _ hI

theorem fetchPool {query : σ → Except ε α} :
    Triple (Committed I) (fetchPool query) (fun _ => Committed I) (Committed I) :=
  Leaves.fetchPool (fun _ _ h => h) (fun _ _ h => h) fun _ _ hI _ => hI

/-- The rule for the end of a transaction. -/
theorem commitTo : Triple (Within I J) (commit : Program σ ε Unit) (fun _ => Committed J)
    (Committed I) := by
  refine Leaves.commit (fun _ _ h => h) ?_ fun _ _ h => h.1
  rintro ⟨committed, _, faults⟩ ⟨-, tx, rfl, hJ⟩
  exact hJ

theorem commit (h : ∀ tables, J tables → I tables) :
    Triple (Within I J) (Program.commit : Program σ ε Unit) (fun _ => Committed I) (Committed I) :=
  commitTo.mono (fun _ => id) (fun _ _ => h _) fun _ => id

theorem scope {p : Program σ ε α} {J : α → σ → Prop}
    (hp : Triple P p (fun a => Committed (J a)) (Committed I)) :
    Triple P (scope p) (fun a => Committed (J a)) (Committed I) := Leaves.scope hp

/-- What a success leaves. -/
theorem of_ok {p : Program σ ε α} (hp : Triple P p Q E) {s s' : Session σ ε} {a : α} (hs : P s)
    (h : p s = .ok a s') : Q a s' := by
  have hp' := hp s hs
  rw [h] at hp'
  exact hp'

/-- What a failure leaves. -/
theorem of_error {p : Program σ ε α} (hp : Triple P p Q E) {s s' : Session σ ε} {e : Failure ε}
    (hs : P s) (h : p s = .error e s') : E s' := by
  have hp' := hp s hs
  rw [h] at hp'
  exact hp'

/-- A program that keeps a property keeps it, however it is left. -/
theorem final {p : Program σ ε α} (hp : Triple P p (fun _ => E) E) {s : Session σ ε} (hs : P s) :
    E (p.final s) := by
  have hp' := hp s hs
  unfold Program.final
  cases hrun : p s with
  | ok a s' =>
    rw [hrun] at hp'
    exact hp'
  | error e s' =>
    rw [hrun] at hp'
    exact hp'

/-- The rule for recording errors. -/
theorem logging {record : ε → Program σ ε β} {p : Program σ ε α} (hp : Triple P p Q E)
    (hrecord : ∀ e, Triple E (record e) (fun _ => E) E) : Triple P (logging record p) Q E :=
  hp.leaves.logging fun e _ hs => (hrecord e).final hs

/-- The rule for loops: `P` is the invariant. -/
theorem forM {xs : List β} {f : β → Program σ ε Unit}
    (h : ∀ x ∈ xs, Triple P (f x) (fun _ => P) E) :
    Triple P (xs.forM f) (fun _ => P) E := Leaves.forM h

/-- The rule for loops that collect values. -/
theorem mapM {xs : List β} {f : β → Program σ ε α} (h : ∀ x ∈ xs, Triple P (f x) (fun _ => P) E) :
    Triple P (xs.mapM f) (fun _ => P) E := Leaves.mapM h

/-- The rule for loops that collect values of which something is known. -/
theorem mapM_forall {xs : List β} {f : β → Program σ ε α} {R : α → Prop}
    (h : ∀ x ∈ xs, Triple P (f x) (fun a s => R a ∧ P s) E) :
    Triple P (xs.mapM f) (fun as s => (∀ a ∈ as, R a) ∧ P s) E := Leaves.mapM_forall h

/-! A transaction that fails changes nothing, whatever it was about to do. -/

theorem beginAny : Triple (Committed I) (Program.beginTx : Program σ ε Unit)
    (fun _ => Within I fun _ => True) (Committed I) :=
  Triple.beginTx.mono (fun _ => id) (fun _ _ ⟨hI, tx, htx, _⟩ => ⟨hI, tx, htx, trivial⟩) fun _ => id

theorem executeAny {statement : σ → Except ε (α × σ)} :
    Triple (Within I fun _ => True) (Program.execute statement) (fun _ => Within I fun _ => True)
      (Committed I) := Triple.execute fun _ _ _ _ _ => trivial

theorem commitAny :
    Triple (Within I J) (Program.commit : Program σ ε Unit) (fun _ _ => True) (Committed I) :=
  commitTo.mono (fun _ => id) (fun _ _ _ => trivial) fun _ => id

theorem scopeAny {p : Program σ ε α} (hp : Triple P p (fun _ _ => True) (Committed I)) :
    Triple P (Program.scope p) (fun _ _ => True) (Committed I) := Leaves.scope hp

end Triple

/-! ## Panics

A failure is an error. -/

/-- `p`, started in a session with `P`, does not panic, and is left with a value only if `Q`. -/
def Calm (P : Session σ ε → Prop) (p : Program σ ε α) (Q : α → Session σ ε → Prop) : Prop :=
  Leaves P p Q fun e _ => e ≠ .panic

/-- There is an open transaction. -/
def Open (s : Session σ ε) : Prop := ∃ tx, s.tx = some tx

/-- Whatever the session is like, `p` does not panic. -/
def NeverPanics (p : Program σ ε α) : Prop := Calm (fun _ => True) p fun _ _ => True

/-- `p`, started in a session, panics. -/
def Panics (p : Program σ ε α) (s : Session σ ε) : Prop := ∃ s', p s = .error .panic s'

theorem Calm.not_panics {p : Program σ ε α} (hp : Calm P p Q) {s : Session σ ε} (hs : P s) :
    ¬ Panics p s := by
  rintro ⟨s', hrun⟩
  have hp' := hp s hs
  rw [hrun] at hp'
  exact hp' rfl

theorem NeverPanics.not_panics {p : Program σ ε α} (hp : NeverPanics p) (s : Session σ ε) :
    ¬ Panics p s := Calm.not_panics hp trivial

theorem panics_crash (s : Session σ ε) : Panics (crash : Program σ ε α) s := ⟨s, rfl⟩

/-- One program after another panics in the one or in the other. -/
theorem panics_bind_iff {p : Program σ ε α} {f : α → Program σ ε β} {s : Session σ ε} :
    Panics (p >>= f) s ↔ Panics p s ∨ ∃ a s', p s = .ok a s' ∧ Panics (f a) s' := by
  have hbind : (p >>= f) s = EStateM.bind p f s := rfl
  unfold Panics
  rw [hbind, EStateM.bind]
  cases hrun : p s with
  | ok a s₁ =>
    refine ⟨fun h => .inr ⟨a, s₁, rfl, h⟩, ?_⟩
    rintro (⟨_, ⟨⟩⟩ | ⟨_, _, ⟨⟩, h⟩)
    exact h
  | error e s₁ => simp

theorem panics_scope_iff {p : Program σ ε α} {s : Session σ ε} :
    Panics (scope p) s ↔ Panics p s := by
  unfold Panics scope
  cases hrun : p s with
  | ok a s₁ => simp
  | error e s₁ => simp

theorem panics_logging_iff {record : ε → Program σ ε β} {p : Program σ ε α} {s : Session σ ε} :
    Panics (logging record p) s ↔ Panics p s := by
  unfold Panics logging
  cases hrun : p s with
  | ok a s₁ => simp
  | error e s₁ => cases e <;> simp

/-- `BEGIN` fails, or there is a transaction. -/
theorem beginTx_cases (s : Session σ ε) :
    (∃ e faults, s.faults = some e :: faults ∧ beginTx s = .error (.error e) { s with faults }) ∨
    ((∀ e faults, s.faults ≠ some e :: faults) ∧ ∃ s', beginTx s = .ok () s') := by
  obtain ⟨committed, tx, faults⟩ := s
  rcases faults with _ | ⟨_ | e, faults⟩
  · exact .inr ⟨nofun, _, rfl⟩
  · exact .inr ⟨nofun, _, rfl⟩
  · exact .inl ⟨e, faults, rfl, rfl⟩

/-- What panics after `BEGIN` panics unless `BEGIN` fails. -/
theorem panics_beginTx_bind_iff {f : Unit → Program σ ε α} {s : Session σ ε}
    (hf : ∀ s', Panics (f ()) s') :
    Panics (beginTx >>= f) s ↔ ∀ e faults, s.faults ≠ some e :: faults := by
  rw [panics_bind_iff]
  unfold Panics
  rcases beginTx_cases s with ⟨e, faults, hfaults, hrun⟩ | ⟨hready, s', hrun⟩
  · rw [hrun]
    refine iff_of_false ?_ fun hready => hready e faults hfaults
    rintro (⟨_, ⟨⟩⟩ | ⟨_, _, ⟨⟩, -⟩)
  · exact iff_of_true (.inr ⟨(), s', hrun, hf s'⟩) hready

namespace Calm

theorem pure {a : α} (h : ∀ s, P s → Q a s) : Calm P (pure a) Q := h

theorem raise {e : ε} : Calm P (raise e : Program σ ε α) Q := fun _ _ => nofun

/-- The rule for one program after another. -/
theorem bind {p : Program σ ε α} {f : α → Program σ ε β} (hp : Calm P p Q)
    (hf : ∀ a, Calm (Q a) (f a) R) : Calm P (p >>= f) R := Leaves.bind hp hf

/-- Weaken what is said. -/
theorem mono {p : Program σ ε α} (hP : ∀ s, P' s → P s) (hp : Calm P p Q)
    (hQ : ∀ a s, Q a s → Q' a s) : Calm P' p Q' := Leaves.mono hP hp hQ fun _ _ => id

/-- What is known before does not depend on the session. -/
theorem assuming {A : Prop} {p : Program σ ε α} (hp : A → Calm P p Q) :
    Calm (fun s => A ∧ P s) p Q := fun s hs => hp hs.1 s hs.2

/-- The rule for programs that need nothing, and of which nothing is needed. -/
theorem neverPanics {p : Program σ ε α} (hp : Calm (fun _ => True) p Q) : NeverPanics p :=
  mono (fun _ => id) hp fun _ _ _ => trivial

theorem beginTx : Calm (fun _ => True) (beginTx : Program σ ε Unit) fun _ => Open :=
  (Leaves.attempt (fun _ _ h => h) fun _ _ _ => nofun).bind fun _ _ _ => ⟨_, rfl⟩

/-- The rule for statements in the transaction. -/
theorem execute {statement : σ → Except ε (α × σ)} :
    Calm Open (execute statement) fun _ => Open := by
  refine Leaves.execute (fun _ _ h => h) (fun _ _ _ => nofun) ?_
  rintro s ⟨tx, htx⟩
  exact ⟨tx, htx, fun _ _ _ => ⟨_, rfl⟩, fun _ _ => nofun⟩

/-- The rule for queries: `R` is what they find. -/
theorem fetch {query : σ → Except ε α} {R : α → Prop}
    (h : ∀ tables a, query tables = .ok a → R a) :
    Calm Open (fetch query) fun a s => R a ∧ Open s := by
  refine Leaves.fetch (fun _ _ h => h) (fun _ _ _ => nofun) ?_
  rintro s ⟨tx, htx⟩
  exact ⟨tx, htx, fun a hrun => ⟨h _ _ hrun, tx, htx⟩⟩

/-- The rule for queries of which nothing is needed. -/
theorem fetchAny {query : σ → Except ε α} : Calm Open (Program.fetch query) fun _ => Open :=
  mono (fun _ => id) (fetch (R := fun _ => True) fun _ _ _ => trivial) fun _ _ h => h.2

/-- The rule for statements outside of a transaction. -/
theorem executePool {locked : ε} {statement : σ → Except ε (α × σ)} :
    NeverPanics (executePool locked statement) :=
  Leaves.executePool (fun _ _ h => h) (fun _ _ _ => nofun) fun _ _ _ _ _ => trivial

/-- The rule for queries outside of a transaction. -/
theorem fetchPool {query : σ → Except ε α} {R : α → Prop}
    (h : ∀ tables a, query tables = .ok a → R a) :
    Calm (fun _ => True) (fetchPool query) fun a _ => R a :=
  Leaves.fetchPool (fun _ _ h => h) (fun _ _ _ => nofun) fun _ _ _ hrun => h _ _ hrun

theorem commit : Calm Open (commit : Program σ ε Unit) fun _ _ => True :=
  Leaves.commit (fun _ _ h => h) (fun _ _ => trivial) fun _ _ _ => nofun

theorem scope {p : Program σ ε α} (hp : Calm P p fun _ _ => True) :
    Calm P (scope p) fun _ _ => True := Leaves.scope hp

/-- The rule for recording errors: that changes nothing. -/
theorem logging {record : ε → Program σ ε β} {p : Program σ ε α} (hp : Calm P p Q) :
    Calm P (logging record p) Q := Leaves.logging hp fun _ _ => id

/-- The rule for loops: `P` is the invariant. -/
theorem forM {xs : List β} {f : β → Program σ ε Unit} (h : ∀ x ∈ xs, Calm P (f x) fun _ => P) :
    Calm P (xs.forM f) fun _ => P := Leaves.forM h

/-- The rule for loops that collect values. -/
theorem mapM {xs : List β} {f : β → Program σ ε α} (h : ∀ x ∈ xs, Calm P (f x) fun _ => P) :
    Calm P (xs.mapM f) fun _ => P := Leaves.mapM h

end Calm

/-! ## Disturbances

An action that fails for a reason of its own is the end of a program. So one that is left with
a value ran as it runs when nothing disturbs it. -/

/-- The same session, when no action is going to fail. -/
def calmed (s : Session σ ε) : Session σ ε := { s with faults := [] }

/-- What `p` is left with does not depend on what may disturb it. -/
def Steady (p : Program σ ε α) : Prop :=
  ∀ s a s', p s = .ok a s' → p (calmed s) = .ok a (calmed s')

namespace Steady

theorem pure {a : α} : Steady (pure a : Program σ ε α) := by
  rintro s _ _ ⟨⟩
  rfl

theorem crash : Steady (crash : Program σ ε α) := by
  intro s a s' hrun
  cases hrun

theorem bind {p : Program σ ε α} {f : α → Program σ ε β} (hp : Steady p)
    (hf : ∀ a, Steady (f a)) : Steady (p >>= f) := by
  intro s b s' hrun
  obtain ⟨a, s₁, hp', hf'⟩ := bind_eq_ok.mp hrun
  exact bind_eq_ok.mpr ⟨a, calmed s₁, hp s a s₁ hp', hf a s₁ b s' hf'⟩

theorem scope {p : Program σ ε α} (hp : Steady p) : Steady (scope p) := by
  intro s a s' hrun
  obtain ⟨s₁, hp', rfl⟩ := scope_eq_ok.mp hrun
  exact scope_eq_ok.mpr ⟨calmed s₁, hp s a s₁ hp', rfl⟩

theorem logging {record : ε → Program σ ε β} {p : Program σ ε α} (hp : Steady p) :
    Steady (logging record p) := by
  intro s a s' hrun
  exact logging_eq_ok.mpr (hp s a s' (logging_eq_ok.mp hrun))

theorem attempt : Steady (attempt : Program σ ε Unit) := by
  rintro ⟨committed, tx, faults⟩ _ s' hrun
  rcases faults with _ | ⟨_ | e, faults⟩
  · cases hrun
    rfl
  · cases hrun
    rfl
  · cases hrun

theorem beginTx : Steady (beginTx : Program σ ε Unit) := by
  refine attempt.bind fun _ => ?_
  rintro s _ _ ⟨⟩
  rfl

theorem execute {statement : σ → Except ε (α × σ)} : Steady (execute statement) := by
  refine attempt.bind fun _ => ?_
  rintro ⟨committed, tx, faults⟩ a s' hrun
  cases tx with
  | none => cases hrun
  | some tx =>
    dsimp only [calmed] at hrun ⊢
    cases hstatement : statement tx.tables with
    | error e =>
      rw [hstatement] at hrun
      cases hrun
    | ok r =>
      rw [hstatement] at hrun
      cases hrun
      rfl

theorem commit : Steady (commit : Program σ ε Unit) := by
  rintro ⟨committed, tx, faults⟩ _ s' hrun
  rcases faults with _ | ⟨_ | e, faults⟩
  · cases hrun
    rfl
  · cases hrun
    rfl
  · cases hrun

theorem forM {xs : List β} {f : β → Program σ ε Unit} (h : ∀ x, Steady (f x)) :
    Steady (xs.forM f) := by
  induction xs with
  | nil => exact pure
  | cons x xs ih => exact (h x).bind fun _ => ih

theorem mapM {xs : List β} {f : β → Program σ ε α} (h : ∀ x, Steady (f x)) :
    Steady (xs.mapM f) := by
  induction xs with
  | nil =>
    rw [List.mapM_nil]
    exact pure
  | cons x xs ih =>
    rw [List.mapM_cons]
    exact (h x).bind fun _ => ih.bind fun _ => pure

end Steady

/-! ## Idle databases

Nothing disturbs the program: an action fails only if its statement does. -/

/-- There is no transaction, and no action is going to fail. -/
def Idle (db : σ) (s : Session σ ε) : Prop := s = ⟨db, none, []⟩

/-- There is a transaction, and no action is going to fail. -/
def Writing (db : σ) (s : Session σ ε) : Prop := ∃ tx, s = ⟨db, some tx, []⟩

/-- There is a transaction that has the lock, and no action is going to fail. -/
def Locked (db : σ) (s : Session σ ε) : Prop := ∃ tables, s = ⟨db, some ⟨tables, true⟩, []⟩

namespace Idle

variable {db : σ}

/-- A transaction begins. -/
theorem beginTx : Leaves (Idle db) (beginTx : Program σ ε Unit) (fun _ => Writing db) F := by
  rintro _ rfl
  exact ⟨_, rfl⟩

/-- A statement that fails has the lock. -/
theorem execute {statement : σ → Except ε (α × σ)} :
    Leaves (Writing db) (execute statement) (fun _ => Writing db) fun _ => Locked db := by
  rintro _ ⟨tx, rfl⟩
  have hrun : Program.execute statement ⟨db, some tx, []⟩ =
      match statement tx.tables with
      | .ok (a, tables) => .ok a ⟨db, some ⟨tables, true⟩, []⟩
      | .error e => .error (.error e) ⟨db, some ⟨tx.tables, true⟩, []⟩ := rfl
  rw [hrun]
  cases statement tx.tables with
  | ok r => exact ⟨_, rfl⟩
  | error e => exact ⟨_, rfl⟩

theorem fetch {query : σ → Except ε α} :
    Leaves (Writing db) (fetch query) (fun _ => Writing db) fun _ => Writing db := by
  rintro _ ⟨tx, rfl⟩
  have hrun : Program.fetch query ⟨db, some tx, []⟩ =
      match query tx.tables with
      | .ok a => .ok a ⟨db, some tx, []⟩
      | .error e => .error (.error e) ⟨db, some tx, []⟩ := rfl
  rw [hrun]
  cases query tx.tables with
  | ok a => exact ⟨tx, rfl⟩
  | error e => exact ⟨tx, rfl⟩

theorem commit :
    Leaves (Writing db) (commit : Program σ ε Unit) (fun _ _ => True) F := by
  rintro _ ⟨tx, rfl⟩
  trivial

/-- A transaction that fails is rolled back. -/
theorem scope {p : Program σ ε α}
    (hp : Leaves (Idle db) p (fun _ _ => True) fun _ => Writing db) :
    Leaves (Idle db) (scope p) (fun _ _ => True) fun _ => Idle db := by
  refine Leaves.scope (hp.mono (fun _ => id) (fun _ _ _ => trivial) ?_)
  rintro e _ ⟨tx, rfl⟩
  rfl

/-- A statement outside of a transaction that fails. -/
theorem executePool {locked : ε} {statement : σ → Except ε (α × σ)} :
    Leaves (Idle db) (executePool locked statement) (fun _ _ => True) fun _ => Idle db := by
  rintro _ rfl
  have hrun : Program.executePool locked statement ⟨db, none, []⟩ =
      match statement db with
      | .ok (a, tables) => .ok a ⟨tables, none, []⟩
      | .error e => .error (.error e) ⟨db, none, []⟩ := rfl
  rw [hrun]
  cases statement db with
  | ok r => trivial
  | error e => rfl

theorem fetchPool {query : σ → Except ε α} :
    Leaves (Idle db) (fetchPool query) (fun _ => Idle db) fun _ => Idle db := by
  rintro _ rfl
  have hrun : Program.fetchPool query ⟨db, none, []⟩ =
      match query db with
      | .ok a => .ok a ⟨db, none, []⟩
      | .error e => .error (.error e) ⟨db, none, []⟩ := rfl
  rw [hrun]
  cases query db with
  | ok a => rfl
  | error e => rfl

end Idle

theorem Locked.writing {db : σ} {s : Session σ ε} (h : Locked db s) : Writing db s := by
  obtain ⟨tables, rfl⟩ := h
  exact ⟨_, rfl⟩

/-- A statement outside of a transaction does what it does, or nothing. -/
theorem final_executePool {db : σ} {locked : ε} {statement : σ → Except ε (α × σ)} :
    (executePool locked statement).final ⟨db, none, []⟩ =
      ⟨((statement db).map Prod.snd).toOption.getD db, none, []⟩ := by
  have hrun : executePool locked statement ⟨db, none, []⟩ =
      match statement db with
      | .ok (a, tables) => .ok a ⟨tables, none, []⟩
      | .error e => .error (.error e) ⟨db, none, []⟩ := rfl
  rw [final, hrun]
  cases statement db with
  | ok r => rfl
  | error e => rfl

/-- Who has the lock waits in vain for it. -/
theorem final_executePool_of_locked {db : σ} {s : Session σ ε} {locked : ε}
    {statement : σ → Except ε (α × σ)} (h : Locked db s) :
    (executePool locked statement).final s = s := by
  obtain ⟨tables, rfl⟩ := h
  rfl

end Program
