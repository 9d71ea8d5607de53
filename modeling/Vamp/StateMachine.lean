import Mathlib.Data.List.Induction

/-!
# State machines, their runs, and three ways to reason about them

The vocabulary shared by every component model of this development. A
**machine** is a start state and a partial step function on events; `none`
says the event is not enabled. Nothing below knows what the states are.

* **Runs.** `M.run s es` plays a list of events, `M.Reachable` is "some run from
  the start gets here", `M.trace obs s es` collects what an observer sees on the
  way, and `M.Along P s es` says that every step of the run is taken under `P`.
* **Invariants.** `invariant` for properties of states, `run_induction` for
  properties that tie a state to the events that led to it.
* **Two machines, two runs.** `Simulation` maps every step of one machine to a
  (possibly empty) run of another; `Unwinding` removes from a run all events
  that a group of observers must not notice.
-/

universe u v w x

/-- Where a list can be split that has one more element. -/
theorem List.split_concat {α : Type u} {xs pre post : List α} {x y : α}
    (h : xs ++ [x] = pre ++ y :: post) :
    (pre = xs ∧ y = x ∧ post = []) ∨ ∃ post', post = post' ++ [x] ∧ xs = pre ++ y :: post' := by
  rcases List.eq_nil_or_concat post with rfl | ⟨post', z, rfl⟩
  · obtain ⟨rfl, hlast⟩ := List.append_inj' h rfl
    exact .inl ⟨rfl, (List.cons.inj hlast).1.symm, rfl⟩
  · have hinit : xs ++ [x] = (pre ++ y :: post') ++ [z] := by
      rw [h, List.concat_eq_append, List.append_assoc, List.cons_append]
    obtain ⟨hxs, hlast⟩ := List.append_inj' hinit rfl
    exact .inr ⟨post', by rw [List.concat_eq_append, (List.cons.inj hlast).1], hxs⟩

/-- A state machine over states `σ` and events `ε`. -/
structure StateMachine (σ : Type u) (ε : Type v) where
  /-- the start state -/
  init : σ
  /-- one step; `none` when the event is not enabled -/
  step : σ → ε → Option σ

namespace StateMachine

variable {σ : Type u} {ε : Type v} (M : StateMachine σ ε)

/-! ## Runs -/

/-- Play a list of events, oldest first. -/
def run (s : σ) (es : List ε) : Option σ := es.foldlM M.step s

/-- Some run from the start state ends here. -/
def Reachable (s : σ) : Prop := ∃ es, M.run M.init es = some s

/-- Every step of the run `es` from `s` is taken in a state, and at an event,
that satisfy `P`. -/
def Along (P : σ → ε → Prop) (s : σ) (es : List ε) : Prop :=
  ∀ pre e post s', es = pre ++ e :: post → M.run s pre = some s' → P s' e

variable {M}

@[simp] theorem run_nil (s : σ) : M.run s [] = some s := rfl

theorem run_cons (s : σ) (e : ε) (es : List ε) :
    M.run s (e :: es) = (M.step s e).bind fun s' => M.run s' es := rfl

theorem run_append (s : σ) (es es' : List ε) :
    M.run s (es ++ es') = (M.run s es).bind fun s' => M.run s' es' := by
  simp only [run, List.foldlM_append]
  rfl

/-- Inversion for a run that starts with a given event. -/
theorem run_cons_eq_some {s s' : σ} {e : ε} {es : List ε} :
    M.run s (e :: es) = some s' ↔ ∃ s₁, M.step s e = some s₁ ∧ M.run s₁ es = some s' := by
  rw [run_cons, Option.bind_eq_some_iff]

/-- Inversion for a run split in two. -/
theorem run_append_eq_some {s s' : σ} {es es' : List ε} :
    M.run s (es ++ es') = some s' ↔ ∃ s₁, M.run s es = some s₁ ∧ M.run s₁ es' = some s' := by
  rw [run_append, Option.bind_eq_some_iff]

/-- Inversion for a run that ends with a given event. -/
theorem run_concat_eq_some {s s' : σ} {e : ε} {es : List ε} :
    M.run s (es ++ [e]) = some s' ↔ ∃ s₁, M.run s es = some s₁ ∧ M.step s₁ e = some s' := by
  rw [run_append_eq_some]
  simp only [run_cons_eq_some, run_nil, Option.some.injEq, exists_eq_right]

/-! ## Invariants -/

theorem Reachable.init : M.Reachable M.init := ⟨[], rfl⟩

theorem Reachable.run {s s' : σ} {es : List ε} (hs : M.Reachable s)
    (hr : M.run s es = some s') : M.Reachable s' := by
  obtain ⟨es₀, h₀⟩ := hs
  exact ⟨es₀ ++ es, run_append_eq_some.mpr ⟨s, h₀, hr⟩⟩

theorem Reachable.step {s s' : σ} {e : ε} (hs : M.Reachable s)
    (he : M.step s e = some s') : M.Reachable s' :=
  hs.run (run_cons_eq_some.mpr ⟨s', he, run_nil s'⟩)

/-- **The history rule**: what holds of the empty run and survives one more
step holds of every run, together with the state it ends in. -/
theorem run_induction {P : List ε → σ → Prop} {s₀ : σ} (nil : P [] s₀)
    (concat : ∀ es s e s', M.run s₀ es = some s → P es s → M.step s e = some s' →
      P (es ++ [e]) s') :
    ∀ {es : List ε} {s : σ}, M.run s₀ es = some s → P es s := by
  intro es
  induction es using List.reverseRecOn with
  | nil =>
    intro s hr
    obtain rfl : s₀ = s := Option.some.inj hr
    exact nil
  | append_singleton es e ih =>
    intro s hr
    obtain ⟨s₁, h₁, he⟩ := run_concat_eq_some.mp hr
    exact concat es s₁ e s h₁ (ih h₁) he

/-- **The invariant rule**: what holds at the start and survives every step from
a reachable state holds of every reachable state. -/
theorem invariant {I : σ → Prop} (start : I M.init)
    (step : ∀ s e s', M.Reachable s → I s → M.step s e = some s' → I s') :
    ∀ {s : σ}, M.Reachable s → I s := by
  rintro s ⟨es, hr⟩
  exact run_induction (P := fun _ s => I s) start
    (fun es s e s' h hI he => step s e s' ⟨es, h⟩ hI he) hr

/-! ## Observations along a run -/

variable (M) in
/-- What `obs` reports along the run `es` from `s`, oldest first. The run is
followed as long as its events are enabled. -/
def trace {o : Type w} (obs : σ → ε → List o) : σ → List ε → List o
  | _, [] => []
  | s, e :: es =>
    match M.step s e with
    | none => []
    | some s' => obs s e ++ trace obs s' es

section Trace

variable {o : Type w} {obs : σ → ε → List o}

@[simp] theorem trace_nil (s : σ) : M.trace obs s [] = [] := rfl

theorem trace_cons {s s' : σ} {e : ε} {es : List ε} (he : M.step s e = some s') :
    M.trace obs s (e :: es) = obs s e ++ M.trace obs s' es := by
  rw [trace, he]

theorem trace_append {s s' : σ} {es es' : List ε} (hr : M.run s es = some s') :
    M.trace obs s (es ++ es') = M.trace obs s es ++ M.trace obs s' es' := by
  induction es generalizing s with
  | nil =>
    obtain rfl : s = s' := Option.some.inj hr
    rfl
  | cons e es ih =>
    obtain ⟨s₁, he, hr₁⟩ := run_cons_eq_some.mp hr
    rw [List.cons_append, trace_cons he, trace_cons he, ih hr₁, List.append_assoc]

theorem trace_concat {s s₁ s' : σ} {es : List ε} {e : ε} (hr : M.run s es = some s₁)
    (he : M.step s₁ e = some s') :
    M.trace obs s (es ++ [e]) = M.trace obs s es ++ obs s₁ e := by
  rw [trace_append hr, trace_cons he, trace_nil, List.append_nil]

end Trace

/-! ## Conditions on the steps of a run -/

theorem Along.init {P : σ → ε → Prop} {s : σ} {es es' : List ε} (h : M.Along P s (es ++ es')) :
    M.Along P s es := by
  intro pre e post s' hsplit hr
  exact h pre e (post ++ es') s' (by rw [hsplit]; simp) hr

theorem Along.last {P : σ → ε → Prop} {s s' : σ} {es : List ε} {e : ε}
    (h : M.Along P s (es ++ [e])) (hr : M.run s es = some s') : P s' e :=
  h es e [] s' rfl hr

theorem Along.nil {P : σ → ε → Prop} {s : σ} : M.Along P s [] := by
  intro pre e post s' hsplit
  cases pre <;> cases hsplit

/-- A run is along `P` when its first step is and the rest is. -/
theorem Along.cons {P : σ → ε → Prop} {s s₁ : σ} {e : ε} {es : List ε} (he : P s e)
    (hstep : M.step s e = some s₁) (h : M.Along P s₁ es) : M.Along P s (e :: es) := by
  intro pre e' post s' hsplit hr
  cases pre with
  | nil =>
    obtain ⟨rfl, -⟩ := List.cons.inj hsplit
    obtain rfl : s = s' := Option.some.inj hr
    exact he
  | cons e₀ pre =>
    obtain ⟨rfl, htail⟩ := List.cons.inj hsplit
    obtain ⟨s₂, hstep₂, hr₂⟩ := run_cons_eq_some.mp hr
    obtain rfl : s₁ = s₂ := Option.some.inj (hstep.symm.trans hstep₂)
    exact h pre e' post s' htail hr₂

theorem Along.head {P : σ → ε → Prop} {s : σ} {es : List ε} {e : ε}
    (h : M.Along P s (e :: es)) : P s e :=
  h [] e es s rfl rfl

theorem Along.tail {P : σ → ε → Prop} {s s' : σ} {es : List ε} {e : ε}
    (h : M.Along P s (e :: es)) (he : M.step s e = some s') : M.Along P s' es := by
  intro pre e' post s₁ hsplit hr
  exact h (e :: pre) e' post s₁ (by rw [hsplit, List.cons_append])
    (run_cons_eq_some.mpr ⟨s', he, hr⟩)

/-- Conditions that agree along a run hold along it both or not at all. -/
theorem Along.congr {P Q : σ → ε → Prop} {s : σ} {es : List ε}
    (h : M.Along (fun s e => P s e ↔ Q s e) s es) : M.Along P s es ↔ M.Along Q s es := by
  constructor
  · intro hP pre e post s' hsplit hpre
    exact (h pre e post s' hsplit hpre).mp (hP pre e post s' hsplit hpre)
  · intro hQ pre e post s' hsplit hpre
    exact (h pre e post s' hsplit hpre).mpr (hQ pre e post s' hsplit hpre)

/-- Conditions that agree in reachable states, at enabled events, agree along a run. -/
theorem along_congr {P Q : σ → ε → Prop} {s s' : σ} {es : List ε} (hs : M.Reachable s)
    (hrun : M.run s es = some s')
    (h : ∀ s₁ e s₂, M.Reachable s₁ → M.step s₁ e = some s₂ → (P s₁ e ↔ Q s₁ e)) :
    M.Along P s es ↔ M.Along Q s es := by
  refine Along.congr fun pre e post s₁ hsplit hpre => ?_
  rw [hsplit] at hrun
  obtain ⟨s₁', hpre', hrest⟩ := run_append_eq_some.mp hrun
  obtain rfl : s₁ = s₁' := Option.some.inj (hpre.symm.trans hpre')
  obtain ⟨s₂, hstep, -⟩ := run_cons_eq_some.mp hrest
  exact h s₁ e s₂ (hs.run hpre) hstep

/-! ## Machines with the same steps -/

/-- What is done along a run is done along a longer one, if its last step is, too. -/
theorem Along.concat {P : σ → ε → Prop} {s s' : σ} {es : List ε} {e : ε} (h : M.Along P s es)
    (hrun : M.run s es = some s') (he : P s' e) : M.Along P s (es ++ [e]) := by
  intro pre e' post s₁ hsplit hpre
  rcases List.split_concat hsplit with ⟨rfl, rfl, -⟩ | ⟨post', -, hes⟩
  · obtain rfl := Option.some.inj (hrun.symm.trans hpre)
    exact he
  · exact h pre e' post' s₁ hes hpre

/-- Machines that take the same steps along a run of one of them run alike. -/
theorem run_congr_of_along {N : StateMachine σ ε} (hinit : N.init = M.init) {es : List ε}
    (h : M.Along (fun s e => N.step s e = M.step s e) M.init es) :
    N.run N.init es = M.run M.init es := by
  induction es using List.reverseRecOn with
  | nil => exact congrArg some hinit
  | append_singleton es e ih =>
    rw [run_append, run_append, ih h.init]
    cases hrun : M.run M.init es with
    | none => rfl
    | some s =>
      rw [Option.bind_some, Option.bind_some, run_cons, run_cons, h.last hrun]
      rfl

/-- Their runs show the same, if their steps do. -/
theorem trace_congr_of_along {N : StateMachine σ ε} {o : Type w} {obs obs' : σ → ε → List o}
    (hinit : N.init = M.init) {es : List ε} {s : σ} (hrun : M.run M.init es = some s)
    (h : M.Along (fun s e => N.step s e = M.step s e) M.init es)
    (hobs : M.Along (fun s e => obs' s e = obs s e) M.init es) :
    N.trace obs' N.init es = M.trace obs M.init es := by
  refine run_induction (M := M)
    (P := fun es _ => M.Along (fun s e => N.step s e = M.step s e) M.init es →
      M.Along (fun s e => obs' s e = obs s e) M.init es →
      N.trace obs' N.init es = M.trace obs M.init es) (fun _ _ => rfl) ?_ hrun h hobs
  intro es s e s' hes ih he h hobs
  have hes' : N.run N.init es = some s := (run_congr_of_along hinit h.init).trans hes
  have he' : N.step s e = some s' := (h.last hes).trans he
  rw [trace_concat hes he, trace_concat hes' he', ih h.init hobs.init, hobs.last hes]

/-- Machines that take the same steps in the states that one of them reaches have the same
runs. -/
theorem run_congr {N : StateMachine σ ε} (hinit : N.init = M.init)
    (h : ∀ s e, M.Reachable s → N.step s e = M.step s e) (es : List ε) :
    N.run N.init es = M.run M.init es :=
  run_congr_of_along hinit fun pre e _ s _ hpre => h s e ⟨pre, hpre⟩

/-- And they show the same. -/
theorem trace_congr {N : StateMachine σ ε} {o : Type w} {obs obs' : σ → ε → List o}
    (hinit : N.init = M.init) (h : ∀ s e, M.Reachable s → N.step s e = M.step s e)
    (hobs : ∀ s e, M.Reachable s → obs' s e = obs s e) {es : List ε} {s : σ}
    (hrun : M.run M.init es = some s) : N.trace obs' N.init es = M.trace obs M.init es :=
  trace_congr_of_along hinit hrun (fun pre e _ s _ hpre => h s e ⟨pre, hpre⟩)
    fun pre e _ s _ hpre => hobs s e ⟨pre, hpre⟩

/-! ## The exact condition of an invariant -/

variable (M) in
/-- Every state that the run `es` from `s` visits satisfies `I`. -/
def Throughout (I : σ → Prop) (s : σ) (es : List ε) : Prop :=
  ∀ pre post s', es = pre ++ post → M.run s pre = some s' → I s'

theorem along_concat_iff {P : σ → ε → Prop} {s s' : σ} {es : List ε} {e : ε}
    (hrun : M.run s es = some s') :
    M.Along P s (es ++ [e]) ↔ M.Along P s es ∧ P s' e :=
  ⟨fun h => ⟨h.init, h.last hrun⟩, fun h => h.1.concat hrun h.2⟩

theorem throughout_concat_iff {I : σ → Prop} {s s' : σ} {es : List ε} {e : ε}
    (hrun : M.run s (es ++ [e]) = some s') :
    M.Throughout I s (es ++ [e]) ↔ M.Throughout I s es ∧ I s' := by
  constructor
  · intro h
    refine ⟨fun pre post s₁ hsplit => h pre (post ++ [e]) s₁ ?_, h _ [] s' ?_ hrun⟩
    · rw [hsplit, List.append_assoc]
    · rw [List.append_nil]
  · rintro ⟨h, hlast⟩ pre post s₁ hsplit hpre
    rcases List.eq_nil_or_concat post with rfl | ⟨post, x, rfl⟩
    · rw [List.append_nil] at hsplit
      rw [hsplit] at hrun
      obtain rfl := Option.some.inj (hrun.symm.trans hpre)
      exact hlast
    · refine h pre post s₁ ?_ hpre
      rw [List.concat_eq_append, ← List.append_assoc] at hsplit
      exact (List.append_inj' hsplit rfl).1

/-- **The rule for assumptions**: what is kept by every step under `P` holds throughout a run
along `P`. -/
theorem throughout_of_along {I : σ → Prop} {P : σ → ε → Prop} {s : σ} {es : List ε} (start : I s)
    (keep : ∀ s e s', I s → P s e → M.step s e = some s' → I s') (h : M.Along P s es) :
    M.Throughout I s es := by
  intro pre post s' hsplit hpre
  rw [hsplit] at h
  refine run_induction (M := M) (P := fun es s' => M.Along P s es → I s') (fun _ => start) ?_ hpre
    h.init
  intro es s₁ e s₂ hrun ih hstep halong
  exact keep s₁ e s₂ (ih halong.init) (halong.last hrun) hstep

/-- Conditions agree along a run if they agree in the states with an invariant that is kept by
the steps under them. -/
theorem along_iff_of_kept {I : σ → Prop} {P Q : σ → ε → Prop} {s : σ} {es : List ε} (start : I s)
    (agree : ∀ s e, I s → (P s e ↔ Q s e))
    (keep : ∀ s e s', I s → P s e → M.step s e = some s' → I s') :
    M.Along P s es ↔ M.Along Q s es := by
  constructor
  · intro hP pre e post s' hsplit hpre
    have hI := throughout_of_along start keep hP pre (e :: post) s' hsplit hpre
    exact (agree s' e hI).mp (hP pre e post s' hsplit hpre)
  · intro hQ pre e post s' hsplit hpre
    have hkeep : ∀ s e s', I s → Q s e → M.step s e = some s' → I s' := fun s e s' hI hq =>
      keep s e s' hI ((agree s e hI).mpr hq)
    have hI := throughout_of_along start hkeep hQ pre (e :: post) s' hsplit hpre
    exact (agree s' e hI).mpr (hQ pre e post s' hsplit hpre)

/-- The exact condition in runs along `Q`. -/
theorem throughout_iff_along_under {I : σ → Prop} {P Q : σ → ε → Prop} (start : I M.init)
    (step : ∀ s e s', M.Reachable s → I s → Q s e → M.step s e = some s' → (I s' ↔ P s e))
    {es : List ε} {s : σ} (hrun : M.run M.init es = some s) (hQ : M.Along Q M.init es) :
    M.Throughout I M.init es ↔ M.Along P M.init es := by
  refine run_induction (M := M) (P := fun es _ => M.Along Q M.init es →
    (M.Throughout I M.init es ↔ M.Along P M.init es)) ?_ ?_ hrun hQ
  · refine fun _ => iff_of_true ?_ .nil
    intro pre post s' hsplit hpre
    obtain ⟨rfl, -⟩ := List.append_eq_nil_iff.mp hsplit.symm
    obtain rfl := Option.some.inj hpre
    exact start
  · intro es s e s' hs ih he hQ
    rw [throughout_concat_iff (run_concat_eq_some.mpr ⟨s, hs, he⟩), along_concat_iff hs,
      ← ih hQ.init]
    refine and_congr_right fun h => ?_
    exact step s e s' ⟨es, hs⟩ (h es [] s (List.append_nil es).symm hs) (hQ.last hs) he

/-- **The exact condition**: when a step from a state with the invariant keeps it if and only
if it is taken under `P`, the invariant holds throughout a run if and only if every step
is taken under `P`. -/
theorem throughout_iff_along {I : σ → Prop} {P : σ → ε → Prop} (start : I M.init)
    (step : ∀ s e s', M.Reachable s → I s → M.step s e = some s' → (I s' ↔ P s e))
    {es : List ε} {s : σ} (hrun : M.run M.init es = some s) :
    M.Throughout I M.init es ↔ M.Along P M.init es :=
  throughout_iff_along_under (Q := fun _ _ => True) start
    (fun s e s' hreach hs _ he => step s e s' hreach hs he) hrun fun _ _ _ _ _ _ => trivial

/-! ## Interleaving

Two machines that have nothing to do with each other, in any order of their steps. -/

/-- Every step is one of the left or of the right machine. -/
def interleave {τ : Type w} {δ : Type x} (M : StateMachine σ ε) (N : StateMachine τ δ) :
    StateMachine (σ × τ) (ε ⊕ δ) where
  init := (M.init, N.init)
  step s e := match e with
    | .inl e => (M.step s.1 e).map fun s' => (s', s.2)
    | .inr e => (N.step s.2 e).map fun t => (s.1, t)

/-- The exact condition for an interleaving, from those for its machines. -/
theorem throughout_interleave_iff {τ : Type w} {δ : Type x} {N : StateMachine τ δ}
    {I : σ → Prop} {J : τ → Prop} {P : σ → ε → Prop} {Q : τ → δ → Prop}
    (start : I M.init) (start' : J N.init)
    (step : ∀ s e s', I s → M.step s e = some s' → (I s' ↔ P s e))
    (step' : ∀ t e t', J t → N.step t e = some t' → (J t' ↔ Q t e))
    {es : List (ε ⊕ δ)} {s : σ × τ}
    (hrun : (M.interleave N).run (M.interleave N).init es = some s) :
    (M.interleave N).Throughout (fun s => I s.1 ∧ J s.2) (M.interleave N).init es ↔
      (M.interleave N).Along (fun s e => e.elim (P s.1) (Q s.2)) (M.interleave N).init es := by
  refine throughout_iff_along ⟨start, start'⟩ ?_ hrun
  rintro s (e | e) s' - ⟨hI, hJ⟩ hstep
  · obtain ⟨s₁, he, rfl⟩ := Option.map_eq_some_iff.mp hstep
    exact (and_iff_left hJ).trans (step s.1 e s₁ hI he)
  · obtain ⟨t₁, he, rfl⟩ := Option.map_eq_some_iff.mp hstep
    exact (and_iff_right hI).trans (step' s.2 e t₁ hJ he)

/-! ## Simulation

A step of the concrete machine may be several steps of the abstract one, or
none. Only steps under `Allowed` are simulated. -/

/-- `C` is simulated by `A`: every allowed step of `C` between related states is
answered by a run of `A`. -/
structure Simulation {τ : Type w} {δ : Type x} (C : StateMachine σ ε) (A : StateMachine τ δ)
    (Allowed : σ → ε → Prop) where
  /-- which abstract state explains which concrete state -/
  R : σ → τ → Prop
  /-- every allowed step is an abstract run -/
  step : ∀ {s : σ} {e : ε} {s' : σ} {t : τ}, R s t → Allowed s e → C.step s e = some s' →
    ∃ ds t', A.run t ds = some t' ∧ R s' t'

/-- A simulation lifts from steps to runs: a run of the concrete machine ends in a state
that an abstract run explains. -/
theorem Simulation.run {τ : Type w} {δ : Type x} {C : StateMachine σ ε} {A : StateMachine τ δ}
    {Allowed : σ → ε → Prop} (S : Simulation C A Allowed) {s s' : σ} {es : List ε} {t : τ}
    (hR : S.R s t) (hall : C.Along Allowed s es) (hr : C.run s es = some s') :
    ∃ ds t', A.run t ds = some t' ∧ S.R s' t' := by
  induction es generalizing s t with
  | nil =>
    obtain rfl : s = s' := Option.some.inj hr
    exact ⟨[], t, rfl, hR⟩
  | cons e es ih =>
    obtain ⟨s₁, he, hr₁⟩ := run_cons_eq_some.mp hr
    obtain ⟨ds₁, t₁, hrun₁, hR₁⟩ := S.step hR hall.head he
    obtain ⟨ds, t', hrun, hR'⟩ := ih hR₁ (hall.tail he) hr₁
    exact ⟨ds₁ ++ ds, t', run_append_eq_some.mpr ⟨t₁, hrun₁, hrun⟩, hR'⟩

/-! ## Unwinding

The two-run principle behind noninterference. The events that `keep` selects
are those of the observed group; every other event of the run (so far as
`Allowed` admits it) must leave the related state alone and be invisible. Then
the run with all other events purged is a run, and looks the same. -/

/-- Unwinding conditions for the observer `obs`. -/
structure Unwinding {o : Type w} (M : StateMachine σ ε) (keep : ε → Bool) (Allowed : ε → Prop)
    (obs : σ → ε → List o) where
  /-- the left state belongs to the full run, the right one to the purged run -/
  R : σ → σ → Prop
  /-- an event of the group is taken by both runs, and looks the same in both -/
  kept : ∀ {s t : σ} {e : ε} {s' : σ}, R s t → keep e = true → Allowed e →
    M.step s e = some s' → ∃ t', M.step t e = some t' ∧ R s' t' ∧ obs s e = obs t e
  /-- any other event goes unnoticed -/
  purged : ∀ {s t : σ} {e : ε} {s' : σ}, R s t → keep e = false → Allowed e →
    M.step s e = some s' → R s' t ∧ obs s e = []

/-- **Purging**: the run without the other events exists, ends in a related
state and shows the observer the same things. -/
theorem Unwinding.purge {o : Type w} {keep : ε → Bool} {Allowed : ε → Prop}
    {obs : σ → ε → List o} (U : Unwinding M keep Allowed obs) {s t s' : σ} {es : List ε}
    (hR : U.R s t) (hall : ∀ e ∈ es, Allowed e) (hr : M.run s es = some s') :
    ∃ t', M.run t (es.filter keep) = some t' ∧ U.R s' t' ∧
      M.trace obs s es = M.trace obs t (es.filter keep) := by
  induction es generalizing s t with
  | nil =>
    obtain rfl : s = s' := Option.some.inj hr
    exact ⟨t, rfl, hR, rfl⟩
  | cons e es ih =>
    obtain ⟨s₁, he, hr₁⟩ := run_cons_eq_some.mp hr
    have he_allowed : Allowed e := hall e (List.mem_cons_self ..)
    have hrest : ∀ e' ∈ es, Allowed e' := fun e' h => hall e' (List.mem_cons_of_mem _ h)
    rcases hk : keep e with _ | _
    · -- purged: only the full run moves
      obtain ⟨hR₁, hobs⟩ := U.purged hR hk he_allowed he
      obtain ⟨t', hrun, hR', htr⟩ := ih hR₁ hrest hr₁
      refine ⟨t', ?_, hR', ?_⟩
      · rw [List.filter_cons_of_neg (by rw [hk]; exact Bool.false_ne_true)]
        exact hrun
      · rw [List.filter_cons_of_neg (by rw [hk]; exact Bool.false_ne_true), trace_cons he, hobs,
          List.nil_append, htr]
    · -- kept: both runs move together
      obtain ⟨t₁, ht, hR₁, hobs⟩ := U.kept hR hk he_allowed he
      obtain ⟨t', hrun, hR', htr⟩ := ih hR₁ hrest hr₁
      refine ⟨t', ?_, hR', ?_⟩
      · rw [List.filter_cons_of_pos hk]
        exact run_cons_eq_some.mpr ⟨t₁, ht, hrun⟩
      · rw [List.filter_cons_of_pos hk, trace_cons he, trace_cons ht, hobs, htr]

end StateMachine
