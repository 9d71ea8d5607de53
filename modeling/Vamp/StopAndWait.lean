import Mathlib.Data.List.Sort
import Vamp.StateMachine

/-!
# Stop and wait, with rising numbers

The protocol behind a reliable sender and a filtering receiver, without any network:
the sender **offers** numbered items one at a time, each under a number above all
earlier ones, and waits; an item that was ever offered may **arrive** at any time and
any number of times; the receiver **hands** an item on if its number is above the last
one handed on; the sender **completes** the item it waits for once its number has
arrived, or it **gives up** and goes on.

Loss, duplication, delay and reordering of items and of acknowledgements are all in the
freedom of `arrive` and `complete`. What comes out (`reachable_reliable`): the items handed
on are a sublist of the items offered, and a completed item has been handed on exactly
once.
-/

universe u v

namespace StopAndWait

/-- The state of the two parties, with what has happened so far. -/
structure Link (ι : Type u) (α : Type v) where
  /-- the items offered, with their numbers, oldest first -/
  offered : List (ι × α) := []
  /-- the number that the sender waits for -/
  waiting : Option ι := none
  /-- the numbers that have arrived -/
  arrived : List ι := []
  /-- the receiver's last number -/
  last : Option ι := none
  /-- the items handed on, oldest first -/
  handed : List (ι × α) := []
  /-- the numbers completed, oldest first -/
  completed : List ι := []

/-- What can happen. -/
inductive LinkEvent (ι : Type u) (α : Type v) where
  /-- a new item is offered; `wait` says whether the sender waits for it -/
  | offer (n : ι) (x : α) (wait : Bool) : LinkEvent ι α
  /-- an offered item arrives -/
  | arrive (n : ι) (x : α) : LinkEvent ι α
  /-- the sender takes its number for acknowledged -/
  | complete (n : ι) : LinkEvent ι α
  /-- the sender stops waiting -/
  | giveUp : LinkEvent ι α

variable {ι : Type u} {α : Type v} [LinearOrder ι]

namespace Link

/-- A number above everything handed on so far. -/
def Fresh (l : Link ι α) (n : ι) : Prop := ∀ m ∈ l.last, m < n

open scoped Classical in
/-- The steps of the protocol: numbers rise, an item arrives only if it was offered, a
number completes only if it has arrived. -/
noncomputable def step (l : Link ι α) : LinkEvent ι α → Option (Link ι α)
  | .offer n x wait =>
    if l.waiting = none ∧ ∀ p ∈ l.offered, p.1 < n then
      some { l with offered := l.offered ++ [(n, x)], waiting := if wait then some n else none }
    else none
  | .arrive n x =>
    if (n, x) ∈ l.offered then
      if l.Fresh n then
        some { l with arrived := n :: l.arrived, last := some n, handed := l.handed ++ [(n, x)] }
      else some { l with arrived := n :: l.arrived }
    else none
  | .complete n =>
    if l.waiting = some n ∧ n ∈ l.arrived then
      some { l with waiting := none, completed := l.completed ++ [n] }
    else none
  | .giveUp => some { l with waiting := none }

end Link

/-- The protocol. -/
noncomputable def link (ι : Type u) (α : Type v) [LinearOrder ι] :
    StateMachine (Link ι α) (LinkEvent ι α) where
  init := {}
  step := Link.step

/-! ## The steps, one by one -/

section Steps

variable {l : Link ι α} {n : ι} {x : α}

theorem step_offer (wait : Bool) (hw : l.waiting = none) (hrise : ∀ p ∈ l.offered, p.1 < n) :
    (link ι α).step l (.offer n x wait) = some { l with
      offered := l.offered ++ [(n, x)]
      waiting := if wait then some n else none } :=
  if_pos ⟨hw, hrise⟩

theorem step_arrive_fresh (hoffered : (n, x) ∈ l.offered) (hfresh : l.Fresh n) :
    (link ι α).step l (.arrive n x) = some { l with
      arrived := n :: l.arrived
      last := some n
      handed := l.handed ++ [(n, x)] } :=
  (if_pos hoffered).trans (if_pos hfresh)

theorem step_arrive_stale (hoffered : (n, x) ∈ l.offered) (hstale : ¬ l.Fresh n) :
    (link ι α).step l (.arrive n x) = some { l with arrived := n :: l.arrived } :=
  (if_pos hoffered).trans (if_neg hstale)

theorem step_complete (hw : l.waiting = some n) (ha : n ∈ l.arrived) :
    (link ι α).step l (.complete n) = some { l with
      waiting := none
      completed := l.completed ++ [n] } :=
  if_pos ⟨hw, ha⟩

end Steps

/-! ## The invariant -/

/-- What ties the two parties together. -/
structure Link.Inv (l : Link ι α) : Prop where
  /-- the numbers offered rise -/
  offered_rise : l.offered.Pairwise fun p q => p.1 < q.1
  /-- the sender waits for the item offered last -/
  waiting_last : ∀ n, l.waiting = some n → ∃ x, l.offered.getLast? = some (n, x)
  /-- what is handed on was offered -/
  handed_offered : ∀ p ∈ l.handed, p ∈ l.offered
  /-- the numbers handed on rise -/
  handed_rise : l.handed.Pairwise fun p q => p.1 < q.1
  /-- the receiver's last number is the greatest one handed on -/
  handed_le : ∀ p ∈ l.handed, ∃ m, l.last = some m ∧ p.1 ≤ m
  /-- the receiver's last number was handed on -/
  last_handed : ∀ m, l.last = some m → ∃ x, (m, x) ∈ l.handed
  /-- whatever has arrived is not above the receiver's last number -/
  arrived_le : ∀ n ∈ l.arrived, ∃ m, l.last = some m ∧ n ≤ m
  /-- a completed item was handed on -/
  completed_handed : ∀ n ∈ l.completed, ∃ x, (n, x) ∈ l.handed

theorem inv_init : (link ι α).init.Inv where
  offered_rise := .nil
  waiting_last n h := by cases h
  handed_offered p h := by cases h
  handed_rise := .nil
  handed_le p h := by cases h
  last_handed m h := by cases h
  arrived_le n h := by cases h
  completed_handed n h := by cases h

variable {l l' : Link ι α}

/-- The last one of a rising list is the greatest. -/
theorem le_getLast {ps : List (ι × α)} (hrise : ps.Pairwise fun p q => p.1 < q.1) {p q : ι × α}
    (hq : ps.getLast? = some q) (hp : p ∈ ps) : p.1 ≤ q.1 := by
  obtain ⟨init, rfl⟩ := List.getLast?_eq_some_iff.mp hq
  obtain ⟨-, -, hlt⟩ := List.pairwise_append.mp hrise
  rcases List.mem_append.mp hp with hp | hp
  · exact (hlt p hp q (List.mem_singleton_self q)).le
  · rw [List.mem_singleton.mp hp]

/-- A rising list does not mind one more item on top. -/
theorem rise_concat {ps : List (ι × α)} (hrise : ps.Pairwise fun p q => p.1 < q.1) {n : ι} {x : α}
    (h : ∀ p ∈ ps, p.1 < n) : (ps ++ [(n, x)]).Pairwise fun p q => p.1 < q.1 := by
  rw [List.pairwise_append]
  refine ⟨hrise, List.pairwise_singleton _ _, fun p hp q hq => ?_⟩
  rw [List.mem_singleton.mp hq]
  exact h p hp

/-- **A number that is waited for and has arrived was handed on**: it is the greatest
number offered, so nothing handed on is above it. -/
theorem Link.Inv.waiting_handed (hI : l.Inv) {n : ι} (hw : l.waiting = some n)
    (ha : n ∈ l.arrived) : ∃ x, (n, x) ∈ l.handed := by
  obtain ⟨x, hx⟩ := hI.waiting_last n hw
  obtain ⟨m, hm, hle⟩ := hI.arrived_le n ha
  obtain ⟨y, hy⟩ := hI.last_handed m hm
  have hge : m ≤ n := le_getLast hI.offered_rise hx (hI.handed_offered _ hy)
  obtain rfl : n = m := le_antisymm hle hge
  exact ⟨y, hy⟩

/-- A new item is above everything offered so far. -/
theorem Link.Inv.offer (hI : l.Inv) {n : ι} (x : α) (wait : Bool)
    (hrise : ∀ p ∈ l.offered, p.1 < n) :
    Inv { l with
      offered := l.offered ++ [(n, x)]
      waiting := if wait then some n else none } := by
  refine { hI with
    offered_rise := rise_concat hI.offered_rise hrise
    waiting_last := ?_
    handed_offered := fun p hp => List.mem_append_left _ (hI.handed_offered p hp) }
  intro m hm
  cases wait with
  | true =>
    obtain rfl : n = m := Option.some.inj hm
    exact ⟨x, List.getLast?_concat ..⟩
  | false => cases hm

/-- A fresh item is above everything handed on so far. -/
theorem Link.Inv.arrive_fresh (hI : l.Inv) {n : ι} {x : α} (hoffered : (n, x) ∈ l.offered)
    (hfresh : l.Fresh n) :
    Inv { l with
      arrived := n :: l.arrived
      last := some n
      handed := l.handed ++ [(n, x)] } := by
  -- this keeps what was handed on rising
  have habove : ∀ p ∈ l.handed, p.1 < n := by
    intro p hp
    obtain ⟨m, hm, hle⟩ := hI.handed_le p hp
    exact lt_of_le_of_lt hle (hfresh m hm)
  constructor
  case offered_rise => exact hI.offered_rise
  case waiting_last => exact hI.waiting_last
  case handed_offered =>
    intro p hp
    rcases List.mem_append.mp hp with hp | hp
    · exact hI.handed_offered p hp
    · rw [List.mem_singleton.mp hp]
      exact hoffered
  case handed_rise => exact rise_concat hI.handed_rise habove
  case handed_le =>
    intro p hp
    rcases List.mem_append.mp hp with hp | hp
    · exact ⟨n, rfl, (habove p hp).le⟩
    · rw [List.mem_singleton.mp hp]
      exact ⟨n, rfl, le_rfl⟩
  case last_handed =>
    intro m hm
    obtain rfl : n = m := Option.some.inj hm
    exact ⟨x, List.mem_append_right _ (List.mem_singleton_self _)⟩
  case arrived_le =>
    intro k hk
    rcases List.mem_cons.mp hk with rfl | hk
    · exact ⟨k, rfl, le_rfl⟩
    · obtain ⟨m, hm, hle⟩ := hI.arrived_le k hk
      exact ⟨n, rfl, hle.trans (hfresh m hm).le⟩
  case completed_handed =>
    intro k hk
    obtain ⟨y, hy⟩ := hI.completed_handed k hk
    exact ⟨y, List.mem_append_left _ hy⟩

/-- An item that is not fresh is not above the receiver's last number. -/
theorem Link.Inv.arrive_stale (hI : l.Inv) {n : ι} (hstale : ¬ l.Fresh n) :
    Inv { l with arrived := n :: l.arrived } := by
  refine { hI with arrived_le := ?_ }
  intro k hk
  rcases List.mem_cons.mp hk with rfl | hk
  · simp only [Link.Fresh, not_forall, not_lt] at hstale
    obtain ⟨m, hm, hle⟩ := hstale
    exact ⟨m, hm, hle⟩
  · exact hI.arrived_le k hk

/-- What the sender takes for acknowledged was handed on. -/
theorem Link.Inv.complete (hI : l.Inv) {n : ι} (hw : l.waiting = some n) (ha : n ∈ l.arrived) :
    Inv { l with waiting := none, completed := l.completed ++ [n] } := by
  refine { hI with waiting_last := fun m hm => (by cases hm), completed_handed := ?_ }
  intro k hk
  rcases List.mem_append.mp hk with hk | hk
  · exact hI.completed_handed k hk
  · rw [List.mem_singleton.mp hk]
    exact hI.waiting_handed hw ha

theorem Link.Inv.giveUp (hI : l.Inv) : Inv { l with waiting := none } :=
  { hI with waiting_last := fun m hm => by cases hm }

/-- Every step keeps the invariant. -/
theorem inv_step (hI : l.Inv) {e : LinkEvent ι α} (h : (link ι α).step l e = some l') : l'.Inv := by
  cases e with
  | offer n x wait =>
    simp only [link, Link.step, Option.ite_none_right_eq_some, Option.some.injEq] at h
    obtain ⟨⟨-, hrise⟩, rfl⟩ := h
    exact hI.offer x wait hrise
  | arrive n x =>
    simp only [link, Link.step, Option.ite_none_right_eq_some] at h
    obtain ⟨hoffered, h⟩ := h
    by_cases hfresh : l.Fresh n
    · rw [if_pos hfresh, Option.some.injEq] at h
      subst h
      exact hI.arrive_fresh hoffered hfresh
    · rw [if_neg hfresh, Option.some.injEq] at h
      subst h
      exact hI.arrive_stale hfresh
  | complete n =>
    simp only [link, Link.step, Option.ite_none_right_eq_some, Option.some.injEq] at h
    obtain ⟨⟨hw, ha⟩, rfl⟩ := h
    exact hI.complete hw ha
  | giveUp =>
    obtain rfl := Option.some.inj h
    exact hI.giveUp

/-! ## Reliability -/

/-- Two rising lists: what is contained in the other one is a sublist of it. -/
theorem sublist_of_rising {ps qs : List (ι × α)} (hps : ps.Pairwise fun p q => p.1 < q.1)
    (hqs : qs.Pairwise fun p q => p.1 < q.1) (h : ∀ p ∈ ps, p ∈ qs) : ps.Sublist qs := by
  have hnodup : ps.Nodup := hps.imp fun hlt heq => absurd hlt (by rw [heq]; exact lt_irrefl _)
  have : Std.Antisymm fun p q : ι × α => p.1 < q.1 :=
    ⟨fun _ _ hlt hgt => absurd hgt hlt.asymm⟩
  exact List.sublist_of_subperm_of_pairwise (List.subperm_of_subset hnodup h) hps hqs

/-- In a rising list a number occurs once. -/
theorem filter_of_rising {ps : List (ι × α)} (hps : ps.Pairwise fun p q => p.1 < q.1) {n : ι}
    {x : α} (h : (n, x) ∈ ps) : ps.filter (fun p => p.1 = n) = [(n, x)] := by
  obtain ⟨pre, post, rfl⟩ := List.append_of_mem h
  obtain ⟨-, hrest, hpre⟩ := List.pairwise_append.mp hps
  have hnone : ∀ qs : List (ι × α), (∀ q ∈ qs, q.1 ≠ n) → qs.filter (fun p => p.1 = n) = [] := by
    intro qs hqs
    rw [List.filter_eq_nil_iff]
    intro q hq
    simpa using hqs q hq
  have h₁ : pre.filter (fun p => p.1 = n) = [] :=
    hnone pre fun q hq => (hpre q hq (n, x) (List.mem_cons_self ..)).ne
  have h₂ : post.filter (fun p => p.1 = n) = [] :=
    hnone post fun q hq => (List.rel_of_pairwise_cons hrest hq).ne'
  rw [List.filter_append, h₁, List.nil_append, List.filter_cons_of_pos (by simp), h₂]

/-- **Reliability.** In every reachable state: numbers are offered in rising order, what
is handed on is a sublist of what was offered, and a completed item is handed on exactly
once. -/
theorem reachable_reliable (h : (link ι α).Reachable l) :
    l.offered.Pairwise (fun p q => p.1 < q.1) ∧ l.handed.Sublist l.offered ∧
    ∀ n ∈ l.completed, ∃ x, (n, x) ∈ l.offered ∧
      l.handed.filter (fun p => p.1 = n) = [(n, x)] := by
  have hI : l.Inv := StateMachine.invariant inv_init (fun _ _ _ _ hI he => inv_step hI he) h
  refine ⟨hI.offered_rise, sublist_of_rising hI.handed_rise hI.offered_rise hI.handed_offered, ?_⟩
  intro n hn
  obtain ⟨x, hx⟩ := hI.completed_handed n hn
  exact ⟨x, hI.handed_offered _ hx, filter_of_rising hI.handed_rise hx⟩

end StopAndWait
