import Mathlib.Data.List.Basic
import Mathlib.Data.Nat.Notation

/-!
# Windows that begin late

A way to limit how much happens. A **window** counts what passes, up to a limit. It does not
end by itself: the first arrival that finds it old enough begins the next one. So windows lie
anywhere, with gaps between them, and what is limited in each of them is not limited in every
interval that is as long.

Two windows begin at least `width` apart. An interval of that length therefore meets two of them at
most, and what passes in it is twice the limit at most (`Keeps.burst`). What passes in a window
arrives in an interval of that length, so where arrivals keep to the limit in each of these, all of
them pass (`Keeps.passes`).
-/

/-- A window. -/
structure LazyWindow : Type where
  /-- when it began -/
  start : ℕ
  /-- how many have passed -/
  count : ℕ
  deriving DecidableEq

namespace LazyWindow

/-- The window in which an arrival falls. -/
def roll (width : ℕ) (w : LazyWindow) (now : ℕ) : LazyWindow :=
  if width ≤ now - w.start then ⟨now, 0⟩ else w

/-- Whether an arrival passes. -/
def passes (width limit : ℕ) (w : LazyWindow) (now : ℕ) : Bool :=
  (w.roll width now).count < limit

/-- The window after an arrival. -/
def arrive (width limit : ℕ) (w : LazyWindow) (now : ℕ) : LazyWindow :=
  if w.passes width limit now then
    { w.roll width now with count := (w.roll width now).count + 1 }
  else w.roll width now

/-- How many of `times` are in the half-open interval of length `width` that begins at `a`. -/
def within (width a : ℕ) (times : List ℕ) : ℕ := times.countP fun t => a ≤ t ∧ t < a + width

/-- What a window knows of the arrivals, and of those that have passed. -/
structure Keeps (width limit : ℕ) (w : LazyWindow) (arrivals passed : List ℕ) : Prop where
  /-- the limit -/
  count_le : w.count ≤ limit
  /-- what has passed has arrived -/
  sub : passed.Sublist arrivals
  /-- what has passed since the window began -/
  current : ∀ a, w.start < a → passed.countP (a ≤ ·) ≤ w.count
  /-- what has passed in this window and the one before -/
  recent : ∀ a, w.start < a + width → passed.countP (a ≤ ·) ≤ limit + w.count
  /-- what has passed in an interval as long as a window -/
  burst : ∀ a, within width a passed ≤ 2 * limit
  /-- what is counted has arrived since the window began -/
  arrived : w.count ≤ arrivals.countP (w.start ≤ ·)

variable {width limit start now : ℕ} {w : LazyWindow} {arrivals passed : List ℕ}

theorem keeps_nil (width limit start : ℕ) : Keeps width limit ⟨start, 0⟩ [] [] where
  count_le := Nat.zero_le _
  sub := .refl _
  current _ _ := Nat.zero_le _
  recent _ _ := Nat.zero_le _
  burst _ := Nat.zero_le _
  arrived := Nat.le_refl _

/-- A window that begins now. -/
theorem Keeps.roll (h : Keeps width limit w arrivals passed) (hnow : ∀ t ∈ arrivals, t ≤ now)
    (hstart : w.start ≤ now) :
    Keeps width limit (w.roll width now) arrivals passed := by
  rw [LazyWindow.roll]
  split
  · case isTrue hold =>
    refine ⟨Nat.zero_le _, h.sub, fun a ha => ?_, fun a ha => ?_, h.burst, Nat.zero_le _⟩
    · -- nothing has passed later than now
      refine Nat.le_of_eq (List.countP_eq_zero.mpr fun t ht => ?_)
      have hle := hnow t (h.sub.subset ht)
      simp only [decide_eq_true_eq]
      exact Nat.not_le.mpr (Nat.lt_of_le_of_lt hle ha)
    · -- what is recent for the new window is what was current for the old one
      have hcurrent := h.current a (by dsimp only at ha; omega)
      have hcount := h.count_le
      dsimp only
      omega
  · exact h

theorem start_roll_le (hstart : w.start ≤ now) : (w.roll width now).start ≤ now := by
  rw [roll]
  split
  · exact Nat.le_refl now
  · exact hstart

/-- The window in which an arrival falls is not old. -/
theorem lt_start_roll (hwidth : 0 < width) (hstart : w.start ≤ now) :
    now < (w.roll width now).start + width := by
  rw [roll]
  split
  · exact Nat.lt_add_of_pos_right hwidth
  · case isFalse hyoung => omega

theorem start_arrive_le (hstart : w.start ≤ now) :
    (w.arrive width limit now).start ≤ now := by
  rw [arrive]
  split
  · exact start_roll_le hstart
  · exact start_roll_le hstart

/-- **Every interval as long as a window**: at most twice the limit passes in it. -/
theorem Keeps.arrive (h : Keeps width limit w arrivals passed) (hnow : ∀ t ∈ arrivals, t ≤ now)
    (hstart : w.start ≤ now) :
    Keeps width limit (w.arrive width limit now) (arrivals ++ [now])
      (passed ++ if w.passes width limit now then [now] else []) := by
  have hroll := h.roll hnow hstart
  have hyoung : (w.roll width now).start ≤ now := start_roll_le hstart
  rw [LazyWindow.arrive]
  cases hpass : w.passes width limit now with
  | false =>
    rw [if_neg Bool.false_ne_true, if_neg Bool.false_ne_true, List.append_nil]
    refine ⟨hroll.count_le, hroll.sub.trans (List.sublist_append_left _ _), hroll.current,
      hroll.recent, hroll.burst, ?_⟩
    rw [List.countP_append]
    exact Nat.le_add_right_of_le hroll.arrived
  | true =>
    have hlt : (w.roll width now).count < limit := of_decide_eq_true hpass
    have hone : ∀ p : ℕ → Bool, [now].countP p ≤ 1 := fun p => List.countP_le_length
    rw [if_pos rfl, if_pos rfl]
    refine ⟨hlt, hroll.sub.append (.refl _), fun a ha => ?_, fun a ha => ?_, fun a => ?_, ?_⟩
    · rw [List.countP_append]
      exact Nat.add_le_add (hroll.current a ha) (hone _)
    · rw [List.countP_append]
      have hrecent := hroll.recent a ha
      have hlast := hone (a ≤ ·)
      dsimp only
      omega
    · rw [within, List.countP_append]
      by_cases hin : a ≤ now ∧ now < a + width
      · -- the interval ends after the window has begun
        have hrecent := hroll.recent a (Nat.lt_of_le_of_lt hyoung hin.2)
        have hsome : passed.countP (fun t => decide (a ≤ t ∧ t < a + width)) ≤
            passed.countP (a ≤ ·) := List.countP_mono_left fun t _ ht => by
          simp only [decide_eq_true_eq] at ht ⊢
          exact ht.1
        have hlast := hone fun t => decide (a ≤ t ∧ t < a + width)
        omega
      · have hlast : [now].countP (fun t => decide (a ≤ t ∧ t < a + width)) = 0 := by
          rw [List.countP_singleton, if_neg (by simpa using hin)]
        rw [hlast]
        exact hroll.burst a
    · rw [List.countP_append, List.countP_singleton, if_pos (by simpa using hyoung)]
      exact Nat.add_le_add_right hroll.arrived 1

/-- **No false drops**: an arrival passes when no more have arrived in any such interval than may
pass. -/
theorem Keeps.passes (h : Keeps width limit w arrivals passed) (hnow : ∀ t ∈ arrivals, t ≤ now)
    (hstart : w.start ≤ now) (hwidth : 0 < width)
    (hsparse : ∀ a, within width a (arrivals ++ [now]) ≤ limit) :
    w.passes width limit now = true := by
  have hroll := h.roll hnow hstart
  have hyoung : (w.roll width now).start ≤ now := start_roll_le hstart
  have hlt := lt_start_roll hwidth hstart
  have hcount := hsparse (w.roll width now).start
  have hall : arrivals.countP ((w.roll width now).start ≤ ·) ≤
      within width (w.roll width now).start arrivals := List.countP_mono_left fun t ht hle => by
    simp only [decide_eq_true_eq] at hle ⊢
    exact ⟨hle, Nat.lt_of_le_of_lt (hnow t ht) hlt⟩
  rw [within, List.countP_append, List.countP_singleton, if_pos (by simpa using ⟨hyoung, hlt⟩)]
    at hcount
  have harrived := hroll.arrived
  rw [within] at hall
  exact decide_eq_true (by omega)

end LazyWindow
