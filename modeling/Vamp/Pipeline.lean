import Mathlib.Logic.Function.Iterate
import Mathlib.Data.Nat.Init
import Mathlib.Data.Nat.Nth
import Mathlib.Order.Preorder.Finite
import Mathlib.Tactic.Basic

/-!
# Requests that are answered in order

What is shown decides what is requested next, and what is answered is shown. Requests may be
made while others are pending; answers arrive in the order of the requests.

In a fair run, of which requests and answers never stop, everything pending now is shown some
day, and all that is pending then was requested since (`eventually_all`). So if every request
lowers a rank, the rank is zero some day and ever after (`eventually_rank_zero`). And from a fresh
start, every answer shows the same again or what comes next (`shown_step`).

States that follow a pipeline, but pause in between, have from some day on what the pipeline has
(`eventually_follows`).
-/

universe u v

/-- What is shown, and what was requested. -/
structure Pipeline (ω : Type u) : Type u where
  /-- shown now -/
  shown : ω
  /-- requested and not answered, oldest first -/
  pending : List ω

namespace Pipeline

variable {ω : Type u} {f : ω → ω} {p : Pipeline ω}

/-- Everything that is shown or will be. -/
def all (p : Pipeline ω) : List ω := p.shown :: p.pending

/-- Make a request. -/
def ask (f : ω → ω) (p : Pipeline ω) : Pipeline ω :=
  { p with pending := p.pending ++ [f p.shown] }

/-- Answer the oldest request, if there is one. -/
def answer (p : Pipeline ω) : Pipeline ω :=
  match p.pending with
  | [] => p
  | w :: pending => ⟨w, pending⟩

/-- A request or an answer. -/
inductive Turn : Type where
  | ask
  | answer
  deriving DecidableEq

/-- One turn. -/
def step (f : ω → ω) (p : Pipeline ω) : Turn → Pipeline ω
  | .ask => p.ask f
  | .answer => p.answer

/-- Some turns of a run that does not end. -/
def after (f : ω → ω) (turns : ℕ → Turn) (p : Pipeline ω) : ℕ → Pipeline ω
  | 0 => p
  | n + 1 => (after f turns p n).step f (turns n)

/-- Requests and answers never stop. -/
def Fair (turns : ℕ → Turn) : Prop := ∀ turn n, ∃ m, n ≤ m ∧ turns m = turn

theorem all_ask : (p.ask f).all = p.all ++ [f p.shown] := rfl

theorem all_answer (h : p.pending ≠ []) : p.answer.all = p.all.tail := by
  obtain ⟨shown, _ | ⟨w, pending⟩⟩ := p
  · exact absurd rfl h
  · rfl

theorem all_answer_subset : p.answer.all ⊆ p.all := by
  obtain ⟨shown, _ | ⟨w, pending⟩⟩ := p
  · exact List.Subset.refl _
  · exact List.subset_cons_self _ _

/-! ## What holds of everything -/

/-- What every request hands on. -/
theorem forall_all_step {P : ω → Prop} (hf : ∀ w, P w → P (f w)) (h : ∀ w ∈ p.all, P w)
    (turn : Turn) : ∀ w ∈ (p.step f turn).all, P w := by
  cases turn with
  | ask =>
    refine List.forall_mem_append.mpr ⟨h, List.forall_mem_singleton.mpr ?_⟩
    exact hf _ (h _ List.mem_cons_self)
  | answer => exact fun w hw => h w (all_answer_subset hw)

theorem forall_all_after {P : ω → Prop} {turns : ℕ → Turn} (hf : ∀ w, P w → P (f w)) {n : ℕ}
    (h : ∀ w ∈ (after f turns p n).all, P w) {m : ℕ} (hm : n ≤ m) :
    ∀ w ∈ (after f turns p m).all, P w := by
  induction m, hm using Nat.le_induction with
  | base => exact h
  | succ m _ ih => exact forall_all_step hf ih (turns m)

/-! ## Everything is new some day -/

/-- All but the first `n` satisfy `P`. -/
def NewAfter (P : ω → Prop) (n : ℕ) (p : Pipeline ω) : Prop :=
  ∃ old new, p.all = old ++ new ∧ old.length ≤ n ∧ ∀ w ∈ new, P w

section New

variable {P : ω → Prop} {n : ℕ}

theorem newAfter_ask (hask : P (f p.shown)) (h : NewAfter P n p) : NewAfter P n (p.ask f) := by
  obtain ⟨old, new, hall, hold, hnew⟩ := h
  refine ⟨old, new ++ [f p.shown], ?_, hold, ?_⟩
  · rw [all_ask, hall, List.append_assoc]
  · exact List.forall_mem_append.mpr ⟨hnew, List.forall_mem_singleton.mpr hask⟩

/-- An answer takes one of the old. -/
theorem newAfter_answer (hpending : p.pending ≠ []) (h : NewAfter P n p) :
    NewAfter P (n - 1) p.answer := by
  obtain ⟨old, new, hall, hold, hnew⟩ := h
  rw [NewAfter, all_answer hpending, hall]
  cases old with
  | nil => exact ⟨[], new.tail, rfl, Nat.zero_le _, fun w hw => hnew w (List.mem_of_mem_tail hw)⟩
  | cons o old =>
    rw [List.length_cons] at hold
    exact ⟨old, new, rfl, by omega, hnew⟩

theorem NewAfter.mono {m : ℕ} (h : NewAfter P n p) (hm : n ≤ m) : NewAfter P m p := by
  obtain ⟨old, new, hall, hold, hnew⟩ := h
  exact ⟨old, new, hall, Nat.le_trans hold hm, hnew⟩

theorem newAfter_step (hask : P (f p.shown)) (h : NewAfter P n p) (turn : Turn) :
    NewAfter P n (p.step f turn) := by
  cases turn with
  | ask => exact newAfter_ask hask h
  | answer =>
    by_cases hpending : p.pending = []
    · rwa [step, answer, hpending]
    · exact (newAfter_answer hpending h).mono (Nat.sub_le n 1)

end New

section Runs

variable {P Q : ω → Prop} {turns : ℕ → Turn} {n : ℕ}

/-- What is new stays. -/
theorem newAfter_after (hask : ∀ m, n ≤ m → P (f (after f turns p m).shown)) {k : ℕ}
    (h : NewAfter P k (after f turns p n)) {m : ℕ} (hm : n ≤ m) :
    NewAfter P k (after f turns p m) := by
  induction m, hm using Nat.le_induction with
  | base => exact h
  | succ m hm ih => exact newAfter_step (hask m hm) ih (turns m)

/-- Until the next answer, requests stay pending. -/
theorem newAfter_of_answer (hask : ∀ m, n ≤ m → P (f (after f turns p m).shown)) {k d : ℕ}
    (hpending : (after f turns p n).pending ≠ []) (h : NewAfter P k (after f turns p n))
    (hanswer : turns (n + d) = .answer) : ∃ m, n ≤ m ∧ NewAfter P (k - 1) (after f turns p m) := by
  induction d generalizing n with
  | zero =>
    refine ⟨n + 1, Nat.le_succ n, ?_⟩
    rw [after, show turns n = .answer from hanswer]
    exact newAfter_answer hpending h
  | succ d ih =>
    cases hturn : turns n with
    | answer =>
      refine ⟨n + 1, Nat.le_succ n, ?_⟩
      rw [after, hturn]
      exact newAfter_answer hpending h
    | ask =>
      have hnext : after f turns p (n + 1) = (after f turns p n).ask f := by
        rw [after, hturn]
        rfl
      have hrest : ∃ m, n + 1 ≤ m ∧ NewAfter P (k - 1) (after f turns p m) := by
        refine ih (fun m hm => hask m (by omega)) ?_ ?_ ?_
        · rw [hnext]
          exact List.concat_ne_nil _ _
        · rw [hnext]
          exact newAfter_ask (hask n (Nat.le_refl n)) h
        · rw [← hanswer]
          congr 1
          omega
      obtain ⟨m, hm, hnew⟩ := hrest
      exact ⟨m, by omega, hnew⟩

/-- In a fair run, everything is new some day. -/
theorem eventually_new (hfair : Fair turns)
    (hask : ∀ m, n ≤ m → P (f (after f turns p m).shown)) {k : ℕ}
    (h : NewAfter P k (after f turns p n)) : ∃ m, n ≤ m ∧ NewAfter P 0 (after f turns p m) := by
  induction k generalizing n with
  | zero => exact ⟨n, Nat.le_refl n, h⟩
  | succ k ih =>
    -- wait for a request, and then for an answer
    obtain ⟨m, hm, hturn⟩ := hfair .ask n
    have hnext : after f turns p (m + 1) = (after f turns p m).ask f := by
      rw [after, hturn]
      rfl
    obtain ⟨m', hm', hanswer⟩ := hfair .answer (m + 1)
    obtain ⟨d, rfl⟩ := Nat.exists_eq_add_of_le hm'
    have hfewer : ∃ m₁, m + 1 ≤ m₁ ∧ NewAfter P (k + 1 - 1) (after f turns p m₁) := by
      refine newAfter_of_answer (fun m₁ h₁ => hask m₁ (by omega)) ?_ ?_ hanswer
      · rw [hnext]
        exact List.concat_ne_nil _ _
      · exact newAfter_after hask h (by omega)
    obtain ⟨m₁, h₁, hnew⟩ := hfewer
    obtain ⟨m₂, h₂, hall⟩ := ih (fun m₂ h₂ => hask m₂ (by omega)) hnew
    exact ⟨m₂, by omega, hall⟩

/-- **What requests bring about** holds of everything some day. -/
theorem eventually_all (hfair : Fair turns) (hf : ∀ w, Q w → Q (f w)) (hP : ∀ w, Q w → P (f w))
    (h : ∀ w ∈ (after f turns p n).all, Q w) :
    ∃ m, n ≤ m ∧ ∀ w ∈ (after f turns p m).all, P w := by
  have hask : ∀ m, n ≤ m → P (f (after f turns p m).shown) := fun m hm =>
    hP _ (forall_all_after hf h hm _ List.mem_cons_self)
  have hold : NewAfter P (after f turns p n).all.length (after f turns p n) :=
    ⟨_, [], (List.append_nil _).symm, Nat.le_refl _, nofun⟩
  obtain ⟨m, hm, old, new, hall, hlength, hnew⟩ := eventually_new hfair hask hold
  obtain rfl := List.eq_nil_of_length_eq_zero (Nat.le_zero.mp hlength)
  rw [List.nil_append] at hall
  exact ⟨m, hm, fun w hw => hnew w (hall ▸ hw)⟩

/-- **A rank that every request lowers** is zero some day, and ever after. -/
theorem eventually_rank_zero (rank : ω → ℕ) (hfair : Fair turns) (hf : ∀ w, Q w → Q (f w))
    (hrank : ∀ w, Q w → rank (f w) ≤ rank w - 1) (h : ∀ w ∈ p.all, Q w) :
    ∃ n, ∀ m, n ≤ m → ∀ w ∈ (after f turns p m).all, Q w ∧ rank w = 0 := by
  have hlower : ∀ r, (∃ n, ∀ w ∈ (after f turns p n).all, Q w ∧ rank w ≤ r) →
      ∃ n, ∀ w ∈ (after f turns p n).all, Q w ∧ rank w ≤ 0 := by
    intro r
    induction r with
    | zero => exact id
    | succ r ih =>
      rintro ⟨n, hn⟩
      refine ih ?_
      have hsome : ∃ m, n ≤ m ∧ ∀ w ∈ (after f turns p m).all, Q w ∧ rank w ≤ r := by
        refine eventually_all (Q := fun w => Q w ∧ rank w ≤ r + 1) hfair ?_ ?_ hn
        · rintro w ⟨hw, hle⟩
          have hless := hrank w hw
          exact ⟨hf w hw, by omega⟩
        · rintro w ⟨hw, hle⟩
          have hless := hrank w hw
          exact ⟨hf w hw, by omega⟩
      obtain ⟨m, -, hm⟩ := hsome
      exact ⟨m, hm⟩
  -- there are finitely many ranks at the start
  have hbound : ∀ ws : List ω, ∃ r, ∀ w ∈ ws, rank w ≤ r := by
    intro ws
    induction ws with
    | nil => exact ⟨0, nofun⟩
    | cons w ws ih =>
      obtain ⟨r, hr⟩ := ih
      refine ⟨max (rank w) r, List.forall_mem_cons.mpr ⟨Nat.le_max_left _ _, fun w' hw' => ?_⟩⟩
      exact Nat.le_trans (hr w' hw') (Nat.le_max_right _ _)
  obtain ⟨r, hr⟩ := hbound p.all
  obtain ⟨n, hn⟩ := hlower r ⟨0, fun w hw => ⟨h w hw, hr w hw⟩⟩
  refine ⟨n, fun m hm w hw => ?_⟩
  have hzero := forall_all_after (P := fun w => Q w ∧ rank w ≤ 0) ?_ hn hm w hw
  · exact ⟨hzero.1, Nat.le_zero.mp hzero.2⟩
  · rintro w ⟨hw, hle⟩
    have hless := hrank w hw
    exact ⟨hf w hw, by omega⟩

end Runs

/-! ## One step at a time -/

/-- What is pending is what is shown, or what comes next. -/
def InStep (f : ω → ω) (v : ω) (p : Pipeline ω) : Prop :=
  ∃ k, ∃ ks : List ℕ, p.shown = f^[k] v ∧ p.pending = ks.map (fun i => f^[i] v) ∧
    (∀ i ∈ ks, k ≤ i ∧ i ≤ k + 1) ∧ ks.Pairwise (· ≤ ·)

theorem inStep_fresh (f : ω → ω) (v : ω) : InStep f v ⟨v, [f v]⟩ :=
  ⟨0, [1], rfl, rfl, by simp, List.pairwise_singleton _ _⟩

theorem inStep_step {v : ω} (h : InStep f v p) (turn : Turn) : InStep f v (p.step f turn) := by
  obtain ⟨k, ks, hshown, hpending, hks, hsorted⟩ := h
  cases turn with
  | ask =>
    refine ⟨k, ks ++ [k + 1], hshown, ?_, ?_, ?_⟩
    · rw [step, ask, hshown, hpending, List.map_append, List.map_singleton,
        Function.iterate_succ_apply']
    · exact List.forall_mem_append.mpr ⟨hks, by simp⟩
    · refine List.pairwise_append.mpr ⟨hsorted, List.pairwise_singleton _ _, ?_⟩
      intro i hi j hj
      obtain rfl := List.mem_singleton.mp hj
      exact (hks i hi).2
  | answer =>
    cases ks with
    | nil =>
      have hnone : p.pending = [] := hpending
      rw [step, answer, hnone]
      exact ⟨k, [], hshown, hnone, hks, hsorted⟩
    | cons i ks =>
      have hsome : p.pending = f^[i] v :: ks.map fun i => f^[i] v := hpending
      obtain ⟨hi, hks⟩ := List.forall_mem_cons.mp hks
      obtain ⟨hle, hsorted⟩ := List.pairwise_cons.mp hsorted
      rw [step, answer, hsome]
      refine ⟨i, ks, rfl, rfl, fun j hj => ⟨hle j hj, ?_⟩, hsorted⟩
      have hbound := (hks j hj).2
      omega

/-- **The same again or what comes next** is shown. -/
theorem shown_step {v : ω} (h : InStep f v p) (turn : Turn) :
    (p.step f turn).shown = p.shown ∨ (p.step f turn).shown = f p.shown := by
  cases turn with
  | ask => exact .inl rfl
  | answer =>
    obtain ⟨k, ks, hshown, hpending, hks, -⟩ := h
    cases ks with
    | nil =>
      have hnone : p.pending = [] := hpending
      rw [step, answer, hnone]
      exact .inl rfl
    | cons i ks =>
      have hsome : p.pending = f^[i] v :: ks.map fun i => f^[i] v := hpending
      obtain ⟨⟨hle, hge⟩, -⟩ := List.forall_mem_cons.mp hks
      rw [step, answer, hsome, hshown]
      rcases Nat.lt_or_eq_of_le hle with hlt | rfl
      · have hi : i = k + 1 := by omega
        exact .inr (by rw [hi, Function.iterate_succ_apply'])
      · exact .inl rfl

theorem inStep_after {v : ω} (turns : ℕ → Turn) (h : InStep f v p) (n : ℕ) :
    InStep f v (after f turns p n) := by
  induction n with
  | zero => exact h
  | succ n ih => exact inStep_step ih (turns n)

/-! ## With pauses -/

section Pauses

variable {σ : Type v} {states : ℕ → σ} {events : ℕ → Option Turn} {R : σ → Pipeline ω → Prop}

/-- The turns of a run that pauses now and then. -/
noncomputable def unpaused (events : ℕ → Option Turn) (k : ℕ) : Turn :=
  (events (Nat.nth (fun n => (events n).isSome) k)).getD .ask

/-- States that follow a pipeline, and stay where they are in a pause. -/
theorem follows (h : R (states 0) p)
    (hpause : ∀ n p, events n = none → R (states n) p → R (states (n + 1)) p)
    (hturn : ∀ n turn p, events n = some turn → R (states n) p →
      R (states (n + 1)) (p.step f turn)) (n : ℕ) :
    R (states n) (after f (unpaused events) p (Nat.count (fun n => (events n).isSome) n)) := by
  induction n with
  | zero => exact h
  | succ n ih =>
    rw [Nat.count_succ]
    cases hevent : events n with
    | none => exact hpause n _ hevent ih
    | some turn =>
      have hnth : unpaused events (Nat.count (fun n => (events n).isSome) n) = turn := by
        have hsome : (events n).isSome := hevent ▸ rfl
        rw [unpaused, Nat.nth_count hsome, hevent]
        rfl
      rw [Option.isSome_some, if_pos rfl, after, hnth]
      exact hturn n turn _ hevent ih

/-- **What holds of a pipeline from some day on** holds of the states that follow it, although they
pause. -/
theorem eventually_follows (hfair : ∀ turn n, ∃ m, n ≤ m ∧ events m = some turn)
    (h : R (states 0) p)
    (hpause : ∀ n p, events n = none → R (states n) p → R (states (n + 1)) p)
    (hturn : ∀ n turn p, events n = some turn → R (states n) p →
      R (states (n + 1)) (p.step f turn))
    {P : Pipeline ω → Prop}
    (hP : ∀ turns, Fair turns → ∃ m, ∀ m', m ≤ m' → P (after f turns p m')) :
    ∃ N, ∀ n, N ≤ n → ∃ q, R (states n) q ∧ P q := by
  have hinfinite : (Set.ofPred fun n => (events n).isSome = true).Infinite := by
    refine Set.infinite_of_forall_exists_gt fun n => ?_
    obtain ⟨m, hm, hask⟩ := hfair .ask (n + 1)
    exact ⟨m, congrArg Option.isSome hask, hm⟩
  have hunpaused : Fair (unpaused events) := by
    intro turn k
    obtain ⟨m, hm, hevent⟩ := hfair turn (Nat.nth (fun n => (events n).isSome) k)
    have hcount := Nat.count_monotone (fun n => (events n).isSome) hm
    rw [Nat.count_nth_of_infinite hinfinite] at hcount
    refine ⟨_, hcount, ?_⟩
    have hsome : (events m).isSome := hevent ▸ rfl
    rw [unpaused, Nat.nth_count hsome, hevent]
    rfl
  obtain ⟨m, hm⟩ := hP _ hunpaused
  refine ⟨Nat.nth (fun n => (events n).isSome) m, fun n hn => ⟨_, follows h hpause hturn n, ?_⟩⟩
  have hcount := Nat.count_monotone (fun n => (events n).isSome) hn
  rw [Nat.count_nth_of_infinite hinfinite] at hcount
  exact hm _ hcount

end Pauses

end Pipeline
