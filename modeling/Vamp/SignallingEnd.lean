import Vamp.SignallingSender

/-!
# The queue of signalling messages, after `close`

`close` stops the transport, and from then on `send` rejects whatever it is given. But
`sendSignallingMessage` keeps a message that has been rejected at the head of the queue, and goes
on with it: as the promise has been rejected already, it is resumed by a job, and queues another
one. There is no last job then, and nothing else ever happens on the page.
-/

namespace Vamp

namespace Ts

namespace SignallingSender

variable {τ κ : Type} {codec : Codec τ κ} {nodeId : NodeId} {s s' s'' : SignallingSender τ}
  {stage : Stage τ} {r : Request τ} {rest : List (Request τ)} {err : MyErr}

/-- How many calls of `sendSignallingMessage` await something. -/
def loops (s : SignallingSender τ) : ℕ := s.promises.continuations.countP Resumption.isLoop

/-- Every call of `sendSignallingMessage` that is active returns when the jobs are done, and
there is only so much to do. -/
structure LoopsEnd (codec : Codec τ κ) (nodeId : NodeId) (s : SignallingSender τ) : Prop where
  /-- how many jobs can be done, at most -/
  finite : ∃ n, ∀ (oks : List Bool) s',
    (machine codec nodeId).run s (oks.map .job) = some s' → oks.length ≤ n
  /-- nothing is awaited when there is none left -/
  settled : ∀ (oks : List Bool) s', (machine codec nodeId).run s (oks.map .job) = some s' →
    s'.promises.jobs = [] → s'.loops = 0

/-- Where a step of the machine leads. -/
theorem At.machine_step {e : SenderEvent τ κ} (h : s.At stage)
    (hstep : (machine codec nodeId).step s e = some s') :
    ∃ deeds stage' P H S C, Took codec s stage e s' deeds stage' P H S C := by
  obtain ⟨⟨s₁, deeds⟩, hsome, rfl⟩ := Option.map_eq_some_iff.mp hstep
  exact ⟨deeds, h.step hsome⟩

/-- Where a run of the machine leads. -/
theorem at_of_run {es : List (SenderEvent τ κ)}
    (hrun : (machine codec nodeId).run (machine codec nodeId).init es = some s) :
    ∃ stage, s.At stage :=
  StateMachine.run_induction (P := fun _ s => ∃ stage, s.At stage) ⟨.free, at_new nodeId⟩
    (fun _ _ _ _ _ ih hstep => by
      obtain ⟨stage, hat⟩ := ih
      obtain ⟨_, stage', _, _, _, _, htook⟩ := hat.machine_step hstep
      exact ⟨stage', htook.reached⟩) hrun

/-- A queue that is empty has nothing to do. -/
theorem At.loopsEnd (h : s.At .free) : s.LoopsEnd codec nodeId := by
  have hstuck : ∀ (oks : List Bool) s', (machine codec nodeId).run s (oks.map .job) = some s' →
      oks = [] ∧ s = s' := by
    intro oks s' hrun
    cases oks with
    | nil => exact ⟨rfl, Option.some.inj hrun⟩
    | cons ok oks =>
      obtain ⟨s₁, hstep, -⟩ := StateMachine.run_cons_eq_some.mp hrun
      have hnext : s.promises.next = none := by
        rw [Promises.next, h.jobs]
        rfl
      simp only [machine, SignallingSender.step, hnext, Option.map_none] at hstep
      cases hstep
  refine ⟨⟨0, fun oks s' hrun => ?_⟩, fun oks s' hrun _ => ?_⟩
  · rw [(hstuck oks s' hrun).1]
    exact Nat.le_refl 0
  · rw [← (hstuck oks s' hrun).2, loops, Promises.continuations, h.reactions, h.jobs]
    rfl

/-- A message that is refused is refused as often as one likes. -/
theorem At.run_retrying (codec : Codec τ κ) (nodeId : NodeId) (n : ℕ) :
    ∀ {s : SignallingSender τ} {err : MyErr}, s.At (.retrying r rest err) →
      ∃ s',
        (machine codec nodeId).run s ((List.replicate n true).map SenderEvent.job) = some s' := by
  induction n with
  | zero => exact fun _ => ⟨_, rfl⟩
  | succ n ih =>
    intro s err h
    obtain ⟨s₁, hstep⟩ : ∃ s₁, (machine codec nodeId).step s (.job true) = some s₁ := by
      have hnext : s.promises.next =
          some ((.loop r, .error err), { s.promises with jobs := [] }) := by
        rw [Promises.next, h.jobs]
        rfl
      simp only [machine, SignallingSender.step, hnext, Option.map_some]
      exact ⟨_, rfl⟩
    obtain ⟨_, _, _, _, _, _, htook⟩ := h.machine_step hstep
    have hgoes := htook.goes
    cases hgoes with
    | retries _ _ _ err' _ =>
      obtain ⟨s', hrun⟩ := ih htook.reached
      exact ⟨s', StateMachine.run_cons_eq_some.mpr ⟨s₁, hstep, hrun⟩⟩
    | stays _ _ hjobs => cases hjobs

theorem At.not_loopsEnd (h : s.At (.retrying r rest err)) : ¬s.LoopsEnd codec nodeId := by
  rintro ⟨⟨n, hfinite⟩, -⟩
  obtain ⟨s', hrun⟩ := At.run_retrying codec nodeId (n + 1) h
  have hle := hfinite _ s' hrun
  rw [List.length_replicate] at hle
  omega

/-- Nothing undoes `close`. -/
theorem aborted_of_run {es : List (SenderEvent τ κ)} (h : s.At stage)
    (hclosed : s.transport.aborted = true)
    (hrun : (machine codec nodeId).run s es = some s') :
    ∃ stage', s'.At stage' ∧ s'.transport.aborted = true := by
  refine StateMachine.run_induction
    (P := fun _ s' => ∃ stage', s'.At stage' ∧ s'.transport.aborted = true) ⟨stage, h, hclosed⟩ ?_
    hrun
  rintro _ _ _ _ - ⟨stage, hat, hclosed⟩ hstep
  obtain ⟨_, stage', _, _, _, _, htook⟩ := hat.machine_step hstep
  refine ⟨stage', htook.reached, ?_⟩
  rw [htook.closed, hclosed]
  rfl

/-- What `close` finds. -/
theorem At.close_cases (h : s.At stage) (hclose : (machine codec nodeId).step s .close = some s') :
    s'.transport.aborted = true ∧ (s.deliveryState = none ∧ s'.At .free ∨
      s.deliveryState ≠ none ∧ ∃ r rest err, s'.At (.retrying r rest err)) := by
  obtain ⟨_, stage', _, _, _, _, htook⟩ := h.machine_step hclose
  refine ⟨by rw [htook.closed]; exact Bool.or_true _, ?_⟩
  have hdelivering := h.delivering
  have hgoes := htook.goes
  cases hgoes with
  | stopped i r rest err =>
    refine .inr ⟨fun hnone => ?_, r, rest, err, htook.reached⟩
    rw [hnone] at hdelivering
    cases hdelivering
  | stays _ _ hjobs _ _ hstop =>
    have hnone := hstop rfl
    have hfree : stage = .free := by
      cases stage with
      | free => rfl
      | left => cases hjobs
      | waiting | acked | cleared | retrying => cases hnone
    subst hfree
    exact .inl ⟨Option.isNone_iff_eq_none.mp (Option.isSome_eq_false_iff.mp hdelivering),
      htook.reached⟩

/-- **After `close`, every call of `sendSignallingMessage` returns if and only if** no message was
being delivered then, and none is sent later. -/
theorem loops_end_iff {pre post : List (SenderEvent τ κ)}
    (hpre : (machine codec nodeId).run (machine codec nodeId).init pre = some s)
    (hclose : (machine codec nodeId).step s .close = some s')
    (hpost : (machine codec nodeId).run s' post = some s'') :
    (machine codec nodeId).Throughout (LoopsEnd codec nodeId) s' post ↔
      s.deliveryState = none ∧
        ∀ msg callback ok, .sendSignallingMessage msg callback ok ∉ post := by
  obtain ⟨stage, hat⟩ := at_of_run hpre
  obtain ⟨hclosed, ⟨hnone, hfree⟩ | ⟨hsome, r, rest, err, hretrying⟩⟩ := hat.close_cases hclose
  · refine ⟨fun hends => ⟨hnone, fun msg callback ok hmem => ?_⟩, fun ⟨_, hquiet⟩ => ?_⟩
    · -- the message is retried from the moment it is sent
      obtain ⟨es, es', rfl⟩ := List.append_of_mem hmem
      obtain ⟨s₁, hrun, hrest⟩ := StateMachine.run_append_eq_some.mp hpost
      obtain ⟨s₂, hstep, -⟩ := StateMachine.run_cons_eq_some.mp hrest
      obtain ⟨stage₁, hat₁, hclosed₁⟩ := aborted_of_run hfree hclosed hrun
      obtain ⟨_, _, _, _, _, _, htook⟩ := hat₁.machine_step hstep
      have hretrying : ∃ r rest err, s₂.At (.retrying r rest err) := by
        have hgoes := htook.goes
        have hreached := htook.reached
        cases hgoes with
        | begins =>
          have habort := htook.closed
          rw [hclosed₁] at habort
          rcases hreached.stopped habort with heq | ⟨_, _, _, heq⟩ <;> cases heq
        | refused => exact ⟨_, _, _, hreached⟩
        | queued => rcases hat₁.stopped hclosed₁ with heq | ⟨_, _, _, heq⟩ <;> cases heq
        | stays _ _ _ hpush => exact absurd rfl (hpush msg callback ok)
      obtain ⟨r, rest, err, hretrying⟩ := hretrying
      refine hretrying.not_loopsEnd (hends (es ++ [.sendSignallingMessage msg callback ok]) es' s₂
        (by rw [List.append_assoc]; rfl)
        (StateMachine.run_concat_eq_some.mpr ⟨s₁, hrun, hstep⟩))
    · -- nothing changes
      have hkeep : (machine codec nodeId).Throughout (fun s => s.At .free) s' post := by
        refine StateMachine.throughout_of_along
          (P := fun _ e => ∀ msg callback ok, e ≠ .sendSignallingMessage msg callback ok)
          hfree ?_ ?_
        · intro s₁ e s₂ hat₁ hnot hstep
          obtain ⟨_, _, _, _, _, _, htook⟩ := hat₁.machine_step hstep
          have hgoes := htook.goes
          cases hgoes with
          | begins msg callback ok => exact absurd rfl (hnot msg callback ok)
          | refused msg callback ok => exact absurd rfl (hnot msg callback ok)
          | stays => exact htook.reached
        · rintro es e es' _ rfl - msg callback ok rfl
          exact hquiet msg callback ok (List.mem_append_right _ (List.mem_cons_self ..))
      exact fun es es' s₁ hsplit hrun => (hkeep es es' s₁ hsplit hrun).loopsEnd
  · refine ⟨fun hends => ?_, fun h => absurd h.1 hsome⟩
    exact absurd (hends [] post s' rfl rfl) hretrying.not_loopsEnd

/-- Nothing is delivered when `close` is called, and nothing is sent later. -/
theorem loops_end_iff_quiet : ∃ s', (machine (.identity Unit) "self").step (.new "self") .close =
    some s' ∧ (machine (.identity Unit) "self").Throughout (LoopsEnd (.identity Unit) "self") s'
      [.onDebounceTimeout] :=
  have hpre : (machine (.identity Unit) "self").run (machine (.identity Unit) "self").init [] =
      some (.new "self") := rfl
  ⟨_, rfl, (loops_end_iff hpre rfl rfl).mpr ⟨rfl, fun _ _ _ hmem => nomatch hmem⟩⟩

/-- A message is not acknowledged before `close` is called. -/
def closedEarly : List (SenderEvent Unit (TransportMsg Unit)) :=
  [.sendSignallingMessage () false true]

/-- Its call never returns. -/
theorem not_loopsEnd_closedEarly : ∃ s s',
    (machine (.identity Unit) "self").run (.new "self") closedEarly = some s ∧
      (machine (.identity Unit) "self").step s .close = some s' ∧
      ¬s'.LoopsEnd (.identity Unit) "self" := by
  have hpre : ∃ s s', (machine (.identity Unit) "self").run (.new "self") closedEarly = some s ∧
      (machine (.identity Unit) "self").step s .close = some s' ∧ s.deliveryState.isSome = true :=
    ⟨_, _, rfl, rfl, rfl⟩
  obtain ⟨s, s', hrun, hclose, hsome⟩ := hpre
  refine ⟨s, s', hrun, hclose, ?_⟩
  obtain ⟨stage, hat⟩ := at_of_run hrun
  obtain ⟨-, ⟨hnone, -⟩ | ⟨-, r, rest, err, hretrying⟩⟩ := hat.close_cases hclose
  · rw [hnone] at hsome
    cases hsome
  · exact hretrying.not_loopsEnd

end SignallingSender

end Ts

end Vamp
