import Mathlib.Data.List.Perm.Basic
import Mathlib.Data.Nat.Notation

/-!
# Promises, and the jobs that they queue

What a program of JavaScript rests on when it awaits. A **promise** is settled once. Whoever
awaits it before is a reaction of it, and is queued as a **job** when it is settled; whoever
awaits it later is queued at once. Jobs are done one after another, in the order in which they
were queued, and everything else waits until there are none.

Nothing is known here of the code that awaits: `κ` says who is to be resumed, `ρ` with what.
-/

variable {κ ρ : Type}

/-- A promise. -/
inductive Promise (κ ρ : Type) : Type where
  /-- it has not been settled, and is awaited -/
  | pending (reactions : List κ)
  /-- it has been settled -/
  | settled (res : ρ)
  deriving DecidableEq

/-- Those who await the promise. -/
def Promise.reactions : Promise κ ρ → List κ
  | pending reactions => reactions
  | settled _ => []

/-- Promises, oldest first, and jobs. -/
structure Promises (κ ρ : Type) : Type where
  /-- the promises -/
  table : List (Promise κ ρ)
  /-- the jobs, in the order in which they will be done -/
  jobs : List (κ × ρ)
  deriving DecidableEq

namespace Promises

variable {p : Promises κ ρ} {i : ℕ} {k : κ} {ks : List κ} {res : ρ}

/-- There is no promise yet. -/
def new : Promises κ ρ := ⟨[], []⟩

/-- A promise is made. -/
def create (p : Promises κ ρ) : Promises κ ρ := { p with table := p.table ++ [.pending []] }

/-- A promise is resolved or rejected. Only the first time counts. -/
def settle (p : Promises κ ρ) (i : ℕ) (res : ρ) : Promises κ ρ :=
  match p.table[i]? with
  | some (.pending reactions) =>
    ⟨p.table.set i (.settled res), p.jobs ++ reactions.map fun k => (k, res)⟩
  | _ => p

/-- A job is queued. -/
def enqueue (p : Promises κ ρ) (k : κ) (res : ρ) : Promises κ ρ :=
  { p with jobs := p.jobs ++ [(k, res)] }

/-- A promise is awaited. -/
def await (p : Promises κ ρ) (i : ℕ) (k : κ) : Promises κ ρ :=
  match p.table[i]? with
  | some (.pending reactions) => { p with table := p.table.set i (.pending (reactions ++ [k])) }
  | some (.settled res) => p.enqueue k res
  | none => p

/-- The next job, and what remains. -/
def next (p : Promises κ ρ) : Option ((κ × ρ) × Promises κ ρ) :=
  match p.jobs with
  | [] => none
  | job :: jobs => some (job, { p with jobs := jobs })

/-- All who await a promise. -/
def reactions (p : Promises κ ρ) : List κ := p.table.flatMap Promise.reactions

/-- All who are to be resumed some time. -/
def continuations (p : Promises κ ρ) : List κ := p.reactions ++ p.jobs.map Prod.fst

/-! ## What the operations do -/

theorem settle_eq (h : p.table[i]? = some (.pending ks)) :
    p.settle i res = ⟨p.table.set i (.settled res), p.jobs ++ ks.map fun k => (k, res)⟩ := by
  rw [settle, h]

theorem await_settled (h : p.table[i]? = some (.settled res)) : p.await i k = p.enqueue k res := by
  rw [await, h]

/-- The first to await a promise. -/
theorem await_create : p.create.await p.table.length k =
    { p with table := p.table ++ [.pending [k]] } := by
  have hget : p.create.table[p.table.length]? = some (.pending []) := List.getElem?_concat_length
  rw [await, hget, create]
  simp only [List.set_append_right _ _ (Nat.le_refl _), Nat.sub_self, List.set_cons_zero,
    List.nil_append]

@[simp] theorem reactions_concat (table : List (Promise κ ρ)) (q : Promise κ ρ)
    (jobs : List (κ × ρ)) :
    reactions ⟨table ++ [q], jobs⟩ = reactions ⟨table, jobs⟩ ++ q.reactions := by
  rw [reactions, List.flatMap_append, List.flatMap_singleton]
  rfl

/-- A promise of which nobody is a reaction any more. -/
theorem flatMap_reactions_set {table : List (Promise κ ρ)} (h : table[i]? = some (.pending ks)) :
    (ks ++ (table.set i (.settled res)).flatMap Promise.reactions).Perm
      (table.flatMap Promise.reactions) := by
  induction table generalizing i with
  | nil => cases h
  | cons q table ih =>
    cases i with
    | zero =>
      obtain rfl := Option.some.inj h
      rfl
    | succ i =>
      rw [List.set_cons_succ, List.flatMap_cons, List.flatMap_cons, ← List.append_assoc]
      refine (List.perm_append_comm.append_right _).trans ?_
      rw [List.append_assoc]
      exact (ih h).append_left _

/-- Settling a promise releases its reactions, and no others. -/
theorem reactions_settle (h : p.table[i]? = some (.pending ks)) :
    (ks ++ (p.settle i res).reactions).Perm p.reactions := by
  rw [settle_eq h]
  exact flatMap_reactions_set h

/-- When all await one promise, nobody awaits anything after it has been settled. -/
theorem reactions_settle_of_eq (h : p.table[i]? = some (.pending ks)) (hall : p.reactions = ks) :
    (p.settle i res).reactions = [] := by
  have hperm : (ks ++ (p.settle i res).reactions).Perm p.reactions := reactions_settle h
  have hlength := hperm.length_eq
  rw [hall, List.length_append] at hlength
  exact List.eq_nil_of_length_eq_zero (by omega)

end Promises
