import Mathlib.Order.Nat
import Vamp.StateMachine

/-!
# Runs that never end, and what must happen in the fair ones

A run without end is a sequence of states with an event between any two of them. It is **fair**
to a group of events if one of them happens again and again, as long as one of them is possible
again and again.

Fairness makes things happen (`Fair.leadsTo`): when nothing but the goal ends a situation in which
the events stay possible, and one of them reaches the goal, the goal is reached. What holds for
good from some moment on, for each of finitely many things, holds of all of them from some moment
on (`eventually_forall`).
-/

universe u v w

namespace StateMachine

variable {σ : Type u} {ε : Type v} {M : StateMachine σ ε} {states : ℕ → σ} {events : ℕ → ε}

/-- A run without end, from a state that is reached. -/
structure Forever (M : StateMachine σ ε) (states : ℕ → σ) (events : ℕ → ε) : Prop where
  /-- where it starts -/
  start : M.Reachable (states 0)
  /-- one step after the other -/
  steps : ∀ n, M.step (states n) (events n) = some (states (n + 1))

/-- One of the events is possible. -/
def Enabled (M : StateMachine σ ε) (E : ε → Prop) (s : σ) : Prop :=
  ∃ e s', E e ∧ M.step s e = some s'

/-- **Fairness**: what is possible again and again, happens again and again. -/
def Fair (M : StateMachine σ ε) (E : ε → Prop) (states : ℕ → σ) (events : ℕ → ε) : Prop :=
  (∀ n, ∃ m, n ≤ m ∧ M.Enabled E (states m)) → ∀ n, ∃ m, n ≤ m ∧ E (events m)

/-- Whenever `P` holds, `Q` holds then or later. -/
def LeadsTo (P Q : σ → Prop) (states : ℕ → σ) : Prop :=
  ∀ n, P (states n) → ∃ m, n ≤ m ∧ Q (states m)

theorem Forever.reachable (h : M.Forever states events) (n : ℕ) : M.Reachable (states n) := by
  induction n with
  | zero => exact h.start
  | succ n ih => exact ih.step (h.steps n)

/-- What every step keeps, stays. -/
theorem Forever.stays (h : M.Forever states events) {P : σ → Prop}
    (keep : ∀ s e s', P s → M.step s e = some s' → P s') {n m : ℕ} (hnm : n ≤ m)
    (hn : P (states n)) : P (states m) := by
  induction m, hnm using Nat.le_induction with
  | base => exact hn
  | succ m _ ih => exact keep _ _ _ ih (h.steps m)

section LeadsTo

variable {P Q R : σ → Prop}

theorem LeadsTo.trans (h : LeadsTo P Q states) (h' : LeadsTo Q R states) :
    LeadsTo P R states := by
  intro n hn
  obtain ⟨m, hnm, hm⟩ := h n hn
  obtain ⟨m', hmm', hm'⟩ := h' m hm
  exact ⟨m', hnm.trans hmm', hm'⟩

theorem LeadsTo.or (h : LeadsTo P R states) (h' : LeadsTo Q R states) :
    LeadsTo (fun s => P s ∨ Q s) R states :=
  fun n hn => hn.elim (h n) (h' n)

/-- **What fairness is good for.** `P` ends only with the goal, leads to states in which one of
the events is possible, and ends with the goal when one of them happens. -/
theorem Fair.leadsTo (h : M.Forever states events) {E : ε → Prop}
    (hfair : M.Fair E states events)
    (stay : ∀ s e s', M.Reachable s → P s → M.step s e = some s' → P s' ∨ Q s')
    (goal : ∀ s e s', M.Reachable s → P s → E e → M.step s e = some s' → Q s')
    (enabled : LeadsTo P (fun s => M.Enabled E s ∨ Q s) states) : LeadsTo P Q states := by
  intro n hn
  by_contra hnever
  have hnot : ∀ m, n ≤ m → ¬ Q (states m) := fun m hm hQ => hnever ⟨m, hm, hQ⟩
  -- without the goal, `P` holds for good
  have hstays : ∀ m, n ≤ m → P (states m) := by
    intro m hm
    induction m, hm using Nat.le_induction with
    | base => exact hn
    | succ m hm ih =>
      exact (stay _ _ _ (h.reachable m) ih (h.steps m)).resolve_right (hnot _ (by omega))
  have hagain : ∀ k, ∃ m, k ≤ m ∧ M.Enabled E (states m) := by
    intro k
    obtain ⟨m, hm, hor⟩ := enabled (max n k) (hstays _ (Nat.le_max_left n k))
    have hnm := (Nat.le_max_left n k).trans hm
    exact ⟨m, (Nat.le_max_right n k).trans hm, hor.resolve_right (hnot m hnm)⟩
  obtain ⟨m, hm, hE⟩ := hfair hagain n
  exact hnot _ (Nat.le_succ_of_le hm) (goal _ _ _ (h.reachable m) (hstays m hm) hE (h.steps m))

end LeadsTo

/-- What holds from some moment on for each of finitely many, holds from some moment on for
all. -/
theorem eventually_forall {ι : Type w} {P : ι → ℕ → Prop} (xs : List ι)
    (h : ∀ x ∈ xs, ∃ m, ∀ m', m ≤ m' → P x m') : ∃ m, ∀ m', m ≤ m' → ∀ x ∈ xs, P x m' := by
  induction xs with
  | nil => exact ⟨0, fun _ _ _ hx => absurd hx List.not_mem_nil⟩
  | cons x xs ih =>
    obtain ⟨hx, hxs⟩ := List.forall_mem_cons.mp h
    obtain ⟨m, hm⟩ := hx
    obtain ⟨m', hm'⟩ := ih hxs
    refine ⟨max m m', fun k hk => List.forall_mem_cons.mpr ⟨?_, ?_⟩⟩
    · exact hm k ((Nat.le_max_left m m').trans hk)
    · exact hm' k ((Nat.le_max_right m m').trans hk)

end StateMachine
