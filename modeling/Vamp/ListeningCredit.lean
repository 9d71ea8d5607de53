import Mathlib.Algebra.BigOperators.Group.List.Basic
import Mathlib.Data.List.Chain
import Mathlib.Data.Rat.Cast.Order
import Mathlib.Tactic.Linarith
import Mathlib.Tactic.Ring
import Vamp.Dispatch

/-!
# What the guard lets pass

The records of listened seconds come from any number of clients, for any tracks, and share one
`ListenGuard`. What it does with a call depends on the last record that it let pass, and on
nothing else (`decision_eq`). So nobody is credited with more than the time that has passed,
and a tenth (`credit_bounded`). It also follows that a track is kept out by the records of
another one, though the comment at `should_record` says otherwise; when this makes no
difference is said by `tracks_independent_iff`.
-/

namespace Vamp

namespace ListenGuard

/-- A call, and the record that it is for. -/
structure Call : Type where
  /-- `Instant::now` -/
  now : ℕ
  /-- the track -/
  trackId : BigintId
  /-- the interval -/
  seconds : ℤ
  deriving DecidableEq

variable {window : ℤ → Option ℕ} {calls : List Call} {c : Call} {g : ListenGuard}

/-- What the guard says to a call. -/
def decision (window : ℤ → Option ℕ) (g : ListenGuard) (c : Call) : Option Bool :=
  (g.shouldRecord window c.now c.seconds).1

/-- The guard after a call. -/
def next (window : ℤ → Option ℕ) (g : ListenGuard) (c : Call) : ListenGuard :=
  (g.shouldRecord window c.now c.seconds).2

/-- A new guard after some calls. -/
def after (window : ℤ → Option ℕ) (calls : List Call) : ListenGuard :=
  calls.foldl (next window) new

/-- What the guard says to one call after the other. -/
def decisionsFrom (window : ℤ → Option ℕ) : ListenGuard → List Call → List (Call × Option Bool)
  | _, [] => []
  | g, c :: calls => (c, decision window g c) :: decisionsFrom window (next window g c) calls

/-- What a new guard says. -/
def decisions (window : ℤ → Option ℕ) (calls : List Call) : List (Call × Option Bool) :=
  decisionsFrom window new calls

/-- The calls that it accepts. -/
def recorded (window : ℤ → Option ℕ) (calls : List Call) : List Call :=
  ((decisions window calls).filter fun d => d.2 = some true).map Prod.fst

/-- The times do not decrease, and the intervals are not negative. -/
structure Plausible (calls : List Call) : Prop where
  /-- a call comes after the earlier ones -/
  ordered : calls.Pairwise fun a b => a.now ≤ b.now
  /-- nobody has listened for less than no time -/
  nonneg : ∀ c ∈ calls, 0 ≤ c.seconds

theorem Plausible.init (h : Plausible (calls ++ [c])) : Plausible calls where
  ordered := (List.pairwise_append.mp h.ordered).1
  nonneg a ha := h.nonneg a (List.mem_append_left _ ha)

theorem Plausible.filter (h : Plausible calls) (p : Call → Bool) : Plausible (calls.filter p) where
  ordered := h.ordered.filter p
  nonneg a ha := h.nonneg a (List.mem_of_mem_filter ha)

/-- The window of every interval can be computed. -/
def Total (window : ℤ → Option ℕ) : Prop := ∀ d, 0 ≤ d → ∃ width, window d = some width

theorem total_window : Total Vamp.window := fun _ hd =>
  Option.ne_none_iff_exists'.mp fun hnone => absurd (window_eq_none_iff.mp hnone) hd.not_gt

/-- The call comes too early after an accepted one. -/
def Call.Within (window : ℤ → Option ℕ) (c a : Call) : Prop :=
  ∃ width, window c.seconds = some width ∧ c.now - a.now < width

/-- The call comes too early after the last one that was accepted. -/
def TooEarly (window : ℤ → Option ℕ) (calls : List Call) (c : Call) : Prop :=
  ∃ a, (recorded window calls).getLast? = some a ∧ c.Within window a

/-! ### One call after the other -/

theorem decisionsFrom_append (calls calls' : List Call) :
    decisionsFrom window g (calls ++ calls') =
      decisionsFrom window g calls ++
        decisionsFrom window (calls.foldl (next window) g) calls' := by
  induction calls generalizing g with
  | nil => rfl
  | cons c calls ih => rw [List.cons_append, decisionsFrom, ih, decisionsFrom, List.foldl_cons,
      List.cons_append]

theorem decisions_concat (calls : List Call) (c : Call) :
    decisions window (calls ++ [c]) =
      decisions window calls ++ [(c, decision window (after window calls) c)] :=
  decisionsFrom_append calls [c]

theorem recorded_concat (calls : List Call) (c : Call) :
    recorded window (calls ++ [c]) = recorded window calls ++
      if decision window (after window calls) c = some true then [c] else [] := by
  rw [recorded, decisions_concat, List.filter_append, List.map_append, recorded]
  congr 1
  by_cases h : decision window (after window calls) c = some true
  · rw [if_pos h, List.filter_cons_of_pos (by simpa using h)]
    rfl
  · rw [if_neg h, List.filter_cons_of_neg (by simpa using h)]
    rfl

theorem after_concat (calls : List Call) (c : Call) :
    after window (calls ++ [c]) = next window (after window calls) c := by
  rw [after, List.foldl_append]
  rfl

/-- The calls that are accepted are calls, in their order. -/
theorem recorded_sublist (calls : List Call) : (recorded window calls).Sublist calls := by
  have hcalls : ∀ (g : ListenGuard) (calls : List Call),
      (decisionsFrom window g calls).map Prod.fst = calls := by
    intro g calls
    induction calls generalizing g with
    | nil => rfl
    | cons c calls ih => rw [decisionsFrom, List.map_cons, ih]
  have hsub := (List.filter_sublist (p := fun d => decide (d.2 = some true))
    (l := decisions window calls)).map Prod.fst
  rw [decisions, hcalls] at hsub
  exact hsub

/-- **What the guard knows**: when the last call was accepted. -/
theorem after_eq (htotal : Total window) (h : ∀ c ∈ calls, 0 ≤ c.seconds) :
    after window calls = ⟨(recorded window calls).getLast?.map Call.now, false⟩ := by
  induction calls using List.reverseRecOn with
  | nil => rfl
  | append_singleton calls c ih =>
    rw [after_concat, recorded_concat]
    have hafter := ih fun c hc => h c (List.mem_append_left _ hc)
    have hc : 0 ≤ c.seconds := h c (List.mem_append_right _ (List.mem_singleton_self c))
    obtain ⟨width, hwidth⟩ := htotal c.seconds hc
    rw [next, decision]
    rcases shouldRecord_cases window c.now c.seconds (after window calls) with
      ⟨-, hwhy, -⟩ | ⟨t, width', -, -, -, -, heq⟩ | ⟨-, -, heq⟩
    · rcases hwhy with hpoisoned | ⟨-, hnone⟩
      · rw [hafter] at hpoisoned
        cases hpoisoned
      · cases hwidth.symm.trans hnone
    · rw [heq, if_neg nofun, List.append_nil, hafter]
    · rw [heq, if_pos rfl, List.getLast?_concat, hafter]
      rfl

/-- **What the guard says**: a call is rejected if it comes too early after the last one that
was accepted, and nothing else counts. -/
theorem decision_cases (htotal : Total window) (h : ∀ a ∈ calls, 0 ≤ a.seconds)
    (hc : 0 ≤ c.seconds) :
    (decision window (after window calls) c = some false ∧ TooEarly window calls c ∧
      next window (after window calls) c = after window calls) ∨
    (decision window (after window calls) c = some true ∧ ¬ TooEarly window calls c) := by
  obtain ⟨width, hwidth⟩ := htotal c.seconds hc
  have hlast : ∀ t, (after window calls).last = some t ↔
      ∃ a, (recorded window calls).getLast? = some a ∧ a.now = t := by
    intro t
    rw [after_eq htotal h, Option.map_eq_some_iff]
  rw [next, decision]
  rcases shouldRecord_cases window c.now c.seconds (after window calls) with
    ⟨-, hwhy, -⟩ | ⟨t, width', -, ht, hwidth', hlt, heq⟩ | ⟨-, hadmits, heq⟩
  · rcases hwhy with hpoisoned | ⟨-, hnone⟩
    · rw [after_eq htotal h] at hpoisoned
      cases hpoisoned
    · cases hwidth.symm.trans hnone
  · rw [heq]
    obtain ⟨a, ha, rfl⟩ := (hlast t).mp ht
    exact .inl ⟨rfl, ⟨a, ha, width', hwidth', hlt⟩, rfl⟩
  · rw [heq]
    refine .inr ⟨rfl, ?_⟩
    rintro ⟨a, ha, width₁, hwidth₁, hlt⟩
    obtain ⟨width₂, hwidth₂, hle⟩ := hadmits a.now ((hlast a.now).mpr ⟨a, ha, rfl⟩)
    obtain rfl := Option.some.inj (hwidth₁.symm.trans hwidth₂)
    omega

theorem decision_eq_true_iff (htotal : Total window) (h : ∀ a ∈ calls, 0 ≤ a.seconds)
    (hc : 0 ≤ c.seconds) :
    decision window (after window calls) c = some true ↔ ¬ TooEarly window calls c := by
  rcases decision_cases htotal h hc with ⟨hno, hearly, -⟩ | ⟨hyes, hlate⟩
  · rw [hno]
    exact iff_of_false nofun (not_not_intro hearly)
  · exact iff_of_true hyes hlate

/-- The guard says the same to a call after two sequences, if it is too early after both, or after
neither. -/
theorem decision_congr_iff {calls' : List Call} (htotal : Total window)
    (h : ∀ a ∈ calls, 0 ≤ a.seconds) (h' : ∀ a ∈ calls', 0 ≤ a.seconds) (hc : 0 ≤ c.seconds) :
    decision window (after window calls) c = decision window (after window calls') c ↔
      (TooEarly window calls c ↔ TooEarly window calls' c) := by
  rcases decision_cases htotal h hc with ⟨hverdict, hearly, -⟩ | ⟨hverdict, hearly⟩ <;>
    rcases decision_cases htotal h' hc with ⟨hverdict', hearly', -⟩ | ⟨hverdict', hearly'⟩ <;>
      simp [hverdict, hverdict', hearly, hearly']

/-! ### The dispatcher -/

section Dispatcher

open Dispatch

variable {ρ : Type} (env : Environment ρ) (c : Circumstances) (guard : ListenGuard)
  (repo : Database ρ) (trackId : BigintId) (seconds : ℤ)

/-- A command is one call. -/
theorem execute_guard :
    (execute env c guard repo (.addListenedSeconds ⟨trackId, seconds⟩)).guard =
      next Vamp.window guard ⟨c.now, trackId, seconds⟩ := by
  rw [execute, next]
  rcases guard.shouldRecord Vamp.window c.now seconds with ⟨_ | record, guard'⟩
  · rfl
  · exact answer_guard

/-- What is rejected is not recorded. -/
theorem execute_rejected
    (h : decision Vamp.window guard ⟨c.now, trackId, seconds⟩ = some false) :
    (execute env c guard repo (.addListenedSeconds ⟨trackId, seconds⟩)).repo = repo := by
  rw [decision] at h
  rw [execute]
  rcases hrun : guard.shouldRecord Vamp.window c.now seconds with ⟨record, guard'⟩
  rw [hrun] at h
  obtain rfl : record = some false := h
  rfl

end Dispatcher

/-! ### Credit

Here the window is what the code means by it, nine tenths of the interval. -/

/-- The window without rounding. -/
def exactWindow (interval : ℤ) : Option ℕ :=
  if interval < 0 then none else some (900000000 * interval.toNat)

theorem total_exactWindow : Total exactWindow := fun _ hd => ⟨_, if_neg hd.not_gt⟩

/-- The time of a call, in seconds. -/
def Call.time (c : Call) : ℚ := c.now / 10 ^ 9

/-- Nobody is credited with more than the time that has passed, and a tenth. -/
structure CreditBounded (calls : List Call) : Prop where
  /-- a call that is accepted comes late enough after the one before -/
  spaced : (recorded exactWindow calls).IsChain
    fun a b => 9 / 10 * (b.seconds : ℚ) ≤ b.time - a.time
  /-- the intervals that are accepted, but for the first, fit into the time -/
  credit : ∀ first rest last, recorded exactWindow calls = first :: rest →
    (first :: rest).getLast? = some last →
    (rest.map fun c => (c.seconds : ℚ)).sum ≤ (last.time - first.time) / (9 / 10)
  /-- a call that is rejected changes nothing -/
  rejected : ∀ pre c post, calls = pre ++ c :: post →
    decision exactWindow (after exactWindow pre) c ≠ some true →
    next exactWindow (after exactWindow pre) c = after exactWindow pre
  /-- a call that comes late enough is accepted -/
  accepted : ∀ pre c post, calls = pre ++ c :: post →
    (∀ a, (recorded exactWindow pre).getLast? = some a →
      9 / 10 * (c.seconds : ℚ) ≤ c.time - a.time) →
    decision exactWindow (after exactWindow pre) c = some true

/-- What is not too early, in seconds. -/
theorem within_exactWindow_iff {a : Call} (hc : 0 ≤ c.seconds) (hle : a.now ≤ c.now) :
    c.Within exactWindow a ↔ c.time - a.time < 9 / 10 * c.seconds := by
  obtain ⟨n, hn⟩ := Int.eq_ofNat_of_zero_le hc
  have hwindow : exactWindow c.seconds = some (900000000 * n) := by
    rw [exactWindow, if_neg hc.not_gt, hn, Int.toNat_natCast]
  have hwithin : c.Within exactWindow a ↔ c.now - a.now < 900000000 * n := by
    simp only [Call.Within, hwindow, Option.some.injEq, exists_eq_left']
  obtain ⟨d, hd⟩ := Nat.exists_eq_add_of_le hle
  have htime : c.time - a.time = d / 10 ^ 9 := by
    rw [Call.time, Call.time, hd]
    push_cast
    ring
  rw [hwithin, htime, hd, Nat.add_sub_cancel_left, hn, div_lt_iff₀ (by norm_num)]
  have hcast : (9 / 10 * ((n : ℤ) : ℚ)) * 10 ^ 9 = ((900000000 * n : ℕ) : ℚ) := by
    push_cast
    ring
  rw [hcast, Nat.cast_lt]

/-- The calls that are accepted come one after the other, as the calls do. -/
theorem now_le_of_recorded {a : Call} {pre : List Call} (h : Plausible (pre ++ [c]))
    (ha : a ∈ recorded window pre) : a.now ≤ c.now :=
  (List.pairwise_append.mp h.ordered).2.2 a ((recorded_sublist pre).subset ha) c
    (List.mem_singleton_self c)

theorem tooEarly_exactWindow_iff (h : Plausible (calls ++ [c])) :
    TooEarly exactWindow calls c ↔ ∃ a, (recorded exactWindow calls).getLast? = some a ∧
      c.time - a.time < 9 / 10 * c.seconds := by
  have hc : 0 ≤ c.seconds := h.nonneg c (List.mem_append_right _ (List.mem_singleton_self c))
  refine exists_congr fun a => and_congr_right fun ha => ?_
  exact within_exactWindow_iff hc (now_le_of_recorded h (List.mem_of_getLast? ha))

/-- **The distance** between calls that are accepted. -/
theorem spaced (h : Plausible calls) :
    (recorded exactWindow calls).IsChain
      fun a b => 9 / 10 * (b.seconds : ℚ) ≤ b.time - a.time := by
  induction calls using List.reverseRecOn with
  | nil => exact .nil
  | append_singleton calls c ih =>
    rw [recorded_concat]
    split
    · case isTrue hyes =>
      have hc : 0 ≤ c.seconds := h.nonneg c (List.mem_append_right _ (List.mem_singleton_self c))
      have hlate := (decision_eq_true_iff total_exactWindow h.init.nonneg hc).mp hyes
      rw [tooEarly_exactWindow_iff h] at hlate
      push Not at hlate
      refine List.isChain_append.mpr ⟨ih h.init, .singleton c, ?_⟩
      intro a ha b hb
      obtain rfl := Option.some.inj hb
      exact hlate a ha
    · rw [List.append_nil]
      exact ih h.init

/-- **The sum** telescopes: the intervals lie side by side. -/
theorem sum_le_of_isChain {first last : Call} {rest : List Call}
    (h : (first :: rest).IsChain fun a b => 9 / 10 * (b.seconds : ℚ) ≤ b.time - a.time)
    (hlast : (first :: rest).getLast? = some last) :
    9 / 10 * (rest.map fun c => (c.seconds : ℚ)).sum ≤ last.time - first.time := by
  induction rest generalizing first with
  | nil =>
    obtain rfl := Option.some.inj hlast
    simp
  | cons second rest ih =>
    rw [List.isChain_cons_cons] at h
    have hrest := ih h.2 (by rw [← hlast, List.getLast?_cons_cons])
    have hfirst := h.1
    rw [List.map_cons, List.sum_cons]
    linarith

/-- **Listening credit is bounded by real time.** -/
theorem credit_bounded (h : Plausible calls) : CreditBounded calls := by
  have hsplit : ∀ pre c post, calls = pre ++ c :: post → Plausible (pre ++ [c]) := by
    rintro pre c post rfl
    rw [List.append_cons] at h
    exact ⟨(List.pairwise_append.mp h.ordered).1, fun a ha =>
      h.nonneg a (List.mem_append_left _ ha)⟩
  have hnonneg : ∀ pre c, Plausible (pre ++ [c]) → 0 ≤ c.seconds := fun pre c h =>
    h.nonneg c (List.mem_append_right _ (List.mem_singleton_self c))
  refine ⟨spaced h, ?_, ?_, ?_⟩
  · intro first rest last hrecorded hlast
    have hchain := spaced h
    rw [hrecorded] at hchain
    rw [le_div_iff₀ (by norm_num), mul_comm]
    exact sum_le_of_isChain hchain hlast
  · intro pre c post heq hno
    have hpre := hsplit pre c post heq
    rcases decision_cases total_exactWindow hpre.init.nonneg (hnonneg pre c hpre) with
      ⟨-, -, hsame⟩ | ⟨hyes, -⟩
    · exact hsame
    · exact absurd hyes hno
  · intro pre c post heq hlate
    have hpre := hsplit pre c post heq
    rw [decision_eq_true_iff total_exactWindow hpre.init.nonneg (hnonneg pre c hpre),
      tooEarly_exactWindow_iff hpre]
    rintro ⟨a, ha, hlt⟩
    exact absurd hlt (not_lt_of_ge (hlate a ha))

/-- Two devices listen to a track. -/
def twoDevices : List Call :=
  [⟨0, ⟨"1"⟩, 10⟩, ⟨5000000000, ⟨"1"⟩, 10⟩, ⟨10000000000, ⟨"1"⟩, 10⟩]

theorem credit_bounded_twoDevices : CreditBounded twoDevices :=
  credit_bounded ⟨by decide, by decide⟩

/-! ### Tracks -/

/-- The call is for the track. -/
def Call.isFor (track : ℤ) (c : Call) : Bool := c.trackId.toI64 = some track

/-- What the guard says to the calls for a track. -/
def decisionsFor (track : ℤ) (calls : List Call) : List (Call × Option Bool) :=
  (decisions Vamp.window calls).filter fun d => d.1.isFor track

/-- The track is left alone: a call that comes too early after the record of another track also
comes too early after a record of its own. -/
def LeftAlone (track : ℤ) (calls : List Call) : Prop :=
  ∀ pre c post, calls = pre ++ c :: post → c.isFor track = true →
    ∀ other, (recorded Vamp.window pre).getLast? = some other → other.isFor track = false →
      c.Within Vamp.window other →
      ∃ own, ((recorded Vamp.window pre).filter (Call.isFor track)).getLast? = some own ∧
        c.Within Vamp.window own

theorem leftAlone_concat_iff {track : ℤ} (calls : List Call) (c : Call) :
    LeftAlone track (calls ++ [c]) ↔ LeftAlone track calls ∧ (c.isFor track = true →
      ∀ other, (recorded Vamp.window calls).getLast? = some other → other.isFor track = false →
        c.Within Vamp.window other →
        ∃ own, ((recorded Vamp.window calls).filter (Call.isFor track)).getLast? = some own ∧
          c.Within Vamp.window own) := by
  constructor
  · intro h
    refine ⟨fun pre c' post hsplit => h pre c' (post ++ [c]) ?_, h calls c [] rfl⟩
    rw [hsplit, List.append_assoc, List.cons_append]
  · rintro ⟨h, hlast⟩ pre c' post hsplit
    rcases List.split_concat hsplit with ⟨rfl, rfl, -⟩ | ⟨post', -, hcalls⟩
    · exact hlast
    · exact h pre c' post' hcalls

/-- If the calls for a track are answered as they would be without the others, those that are
accepted are the same. -/
theorem recorded_filter_of_eq {track : ℤ}
    (h : decisionsFor track calls = decisions Vamp.window (calls.filter (Call.isFor track))) :
    recorded Vamp.window (calls.filter (Call.isFor track)) =
      (recorded Vamp.window calls).filter (Call.isFor track) := by
  rw [recorded, recorded, ← h, decisionsFor, List.filter_filter, List.filter_map,
    List.filter_filter]
  congr 2
  funext d
  exact Bool.and_comm ..

/-- A record is not younger than the last one. -/
theorem now_le_last {a last : Call} (h : Plausible calls) (ha : a ∈ recorded window calls)
    (hlast : (recorded window calls).getLast? = some last) : a.now ≤ last.now := by
  have hsub : (recorded window calls).Sublist calls := recorded_sublist calls
  have hordered := h.ordered.sublist hsub
  obtain ⟨init, hinit⟩ := List.getLast?_eq_some_iff.mp hlast
  rw [hinit] at ha hordered
  rcases List.mem_append.mp ha with hmem | hmem
  · exact (List.pairwise_append.mp hordered).2.2 a hmem last (List.mem_singleton_self last)
  · rw [List.mem_singleton.mp hmem]

/-- The last of a list is the last of those that are selected, if it is. -/
theorem getLast?_filter_of_pos {α : Type} {p : α → Bool} {xs : List α} {x : α}
    (h : xs.getLast? = some x) (hx : p x = true) : (xs.filter p).getLast? = some x := by
  obtain ⟨init, rfl⟩ := List.getLast?_eq_some_iff.mp h
  rw [List.filter_append, List.filter_cons_of_pos hx, List.filter_nil, List.getLast?_concat]

/-- A call for a track is answered as it would be without the others, if the last record does
not keep it out, or its own does. -/
theorem tooEarly_congr_iff {track : ℤ} (h : Plausible (calls ++ [c]))
    (hsame : recorded Vamp.window (calls.filter (Call.isFor track)) =
      (recorded Vamp.window calls).filter (Call.isFor track)) :
    (TooEarly Vamp.window calls c ↔ TooEarly Vamp.window (calls.filter (Call.isFor track)) c) ↔
      ∀ other, (recorded Vamp.window calls).getLast? = some other → other.isFor track = false →
        c.Within Vamp.window other →
        ∃ own, ((recorded Vamp.window calls).filter (Call.isFor track)).getLast? = some own ∧
          c.Within Vamp.window own := by
  simp only [TooEarly, hsame]
  -- an own record keeps out no longer than the last one
  have hback : ∀ own, ((recorded Vamp.window calls).filter (Call.isFor track)).getLast? = some own →
      c.Within Vamp.window own →
      ∃ a, (recorded Vamp.window calls).getLast? = some a ∧ c.Within Vamp.window a := by
    rintro own hown ⟨width, hwidth, hlt⟩
    have hmem : own ∈ recorded Vamp.window calls :=
      List.mem_of_mem_filter (List.mem_of_getLast? hown)
    have hne := List.ne_nil_of_mem hmem
    have hlast := List.getLast?_eq_some_getLast hne
    generalize (recorded Vamp.window calls).getLast hne = last at hlast
    have hle := now_le_last h.init hmem hlast
    exact ⟨last, hlast, width, hwidth, by omega⟩
  constructor
  · intro hiff other hlast _ hwithin
    exact hiff.mp ⟨other, hlast, hwithin⟩
  · intro halone
    constructor
    · rintro ⟨a, hlast, hwithin⟩
      cases ha : a.isFor track with
      | true => exact ⟨a, getLast?_filter_of_pos hlast ha, hwithin⟩
      | false => exact halone a hlast ha hwithin
    · rintro ⟨own, hown, hwithin⟩
      exact hback own hown hwithin

/-- **When tracks do not suppress each other**: the calls for a track are answered as they would
be without the calls for other tracks, if and only if the track is left alone. -/
theorem tracks_independent_iff (track : ℤ) (h : Plausible calls) :
    decisionsFor track calls = decisions Vamp.window (calls.filter (Call.isFor track)) ↔
      LeftAlone track calls := by
  induction calls using List.reverseRecOn with
  | nil =>
    refine iff_of_true rfl ?_
    intro pre c post hsplit
    cases pre <;> cases hsplit
  | append_singleton calls c ih =>
    rw [leftAlone_concat_iff, ← ih h.init, decisionsFor, decisions_concat, List.filter_append,
      List.filter_append, ← decisionsFor]
    cases hfor : c.isFor track with
    | false => simp [hfor]
    | true =>
      have hc : 0 ≤ c.seconds := h.nonneg c (List.mem_append_right _ (List.mem_singleton_self c))
      have hanswer := decision_congr_iff total_window h.init.nonneg
        (h.init.filter (Call.isFor track)).nonneg hc
      simp only [List.filter_cons, hfor, if_true, List.filter_nil, decisions_concat, forall_const]
      constructor
      · intro heq
        obtain ⟨hold, hlast⟩ := List.append_inj' heq rfl
        refine ⟨hold, (tooEarly_congr_iff h (recorded_filter_of_eq hold)).mp ?_⟩
        exact hanswer.mp (congrArg Prod.snd (List.cons.inj hlast).1)
      · rintro ⟨hold, halone⟩
        have hearly := (tooEarly_congr_iff h (recorded_filter_of_eq hold)).mpr halone
        rw [hold, hanswer.mpr hearly]

/-- A track is played for a second when another one has just been recorded. -/
def twoTracks : List Call := [⟨0, ⟨"2"⟩, 10⟩, ⟨1000000000, ⟨"1"⟩, 10⟩]

theorem tracks_independent_twoDevices :
    decisionsFor 1 twoDevices = decisions Vamp.window (twoDevices.filter (Call.isFor 1)) ↔
      LeftAlone 1 twoDevices :=
  tracks_independent_iff 1 ⟨by decide, by decide⟩

/-- The first record of a track is rejected because of another track. -/
theorem twoTracks_dependent :
    decisionsFor 1 twoTracks ≠ decisions Vamp.window (twoTracks.filter (Call.isFor 1)) := by
  decide

end ListenGuard

end Vamp
