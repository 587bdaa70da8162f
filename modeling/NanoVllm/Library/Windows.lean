import Mathlib.Data.Nat.Find
import Mathlib.Tactic.Common

/-!
# Choices within moving windows

A window of natural numbers moves up over time. `latest` picks the largest number of the window
which satisfies a predicate, or the lower end if there is none: the picks move up with the
window, and they satisfy the predicate whenever something in the window does.
-/

namespace NanoVllm.Windows

variable {P : ℕ → Prop} [DecidablePred P] {lower upper lower' upper' k : ℕ}

/-- The largest number of a window which satisfies a predicate, or else its lower end. -/
def latest (P : ℕ → Prop) [DecidablePred P] (lower upper : ℕ) : ℕ :=
  max lower (Nat.findGreatest (fun k => lower ≤ k ∧ P k) upper)

theorem le_latest : lower ≤ latest P lower upper := Nat.le_max_left ..

theorem latest_le (window : lower ≤ upper) : latest P lower upper ≤ upper :=
  Nat.max_le.mpr ⟨window, Nat.findGreatest_le _⟩

theorem latest_spec (inside : lower ≤ k ∧ k ≤ upper) (holds : P k) :
    P (latest P lower upper) := by
  have found := Nat.findGreatest_spec (P := fun k => lower ≤ k ∧ P k) inside.2 ⟨inside.1, holds⟩
  rw [latest, Nat.max_eq_right found.1]
  exact found.2

theorem latest_mono (lowers : lower ≤ lower') (uppers : upper ≤ upper') :
    latest P lower upper ≤ latest P lower' upper' := by
  refine Nat.max_le.mpr ⟨Nat.le_trans lowers le_latest, ?_⟩
  rcases Nat.eq_zero_or_pos (Nat.findGreatest (fun k => lower ≤ k ∧ P k) upper) with
    zero | positive
  · rw [zero]
    exact Nat.zero_le _
  · have found := Nat.findGreatest_of_ne_zero rfl (Nat.ne_of_gt positive)
    rcases Nat.lt_or_ge (Nat.findGreatest (fun k => lower ≤ k ∧ P k) upper) lower' with
      left | within
    · exact Nat.le_trans (Nat.le_of_lt left) le_latest
    · have inside := Nat.findGreatest_le (P := fun k => lower ≤ k ∧ P k) upper
      exact Nat.le_trans
        (Nat.le_findGreatest (Nat.le_trans inside uppers) ⟨within, found.2⟩)
        (Nat.le_max_right ..)

end NanoVllm.Windows
