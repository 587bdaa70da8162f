import Mathlib.Data.Nat.Basic
import Mathlib.Tactic.Common

/-!
# High-water marks

Each of several parties holds an initial segment of positions. It loses the end of the segment,
regains positions or produces them. The high-water mark of a party is the longest segment it held
just before a loss. What is missing up to the mark is known from a counter alone.
-/

namespace HighWater

variable {ι : Type*} [DecidableEq ι] {i : ι} {high held lost regained produced : ℕ}

/-- The largest amount a log of losses has for a party. -/
def highest (log : List (ι × ℕ)) (i : ι) : ℕ :=
  (log.map fun loss => if loss.1 = i then loss.2 else 0).foldr max 0

@[simp]
theorem highest_nil (i : ι) : highest ([] : List (ι × ℕ)) i = 0 := rfl

theorem highest_cons (loss : ι × ℕ) (log : List (ι × ℕ)) (i : ι) :
    highest (loss :: log) i = max (if loss.1 = i then loss.2 else 0) (highest log i) := rfl

theorem highest_append (log log' : List (ι × ℕ)) (i : ι) :
    highest (log ++ log') i = max (highest log i) (highest log' i) := by
  induction log with
  | nil => simp
  | cons loss log ih => rw [List.cons_append, highest_cons, highest_cons, ih, max_assoc]

theorem highest_concat_self (log : List (ι × ℕ)) (i : ι) (held : ℕ) :
    highest (log ++ [(i, held)]) i = max (highest log i) held := by
  simp [highest_append, highest_cons]

theorem highest_concat_of_ne (log : List (ι × ℕ)) {j : ι} (differ : j ≠ i) (held : ℕ) :
    highest (log ++ [(i, held)]) j = highest log j := by
  simp [highest_append, highest_cons, Ne.symm differ]

/-- A loss moves the mark and adds to what is missing. -/
theorem missing_lose (le : lost ≤ held) :
    high - held + (held - lost) = max high held - lost := by
  omega

/-- What is regained is missing no more. -/
theorem missing_regain (le : held ≤ regained) :
    high - held - (regained - held) = high - regained := by
  omega

/-- The produced positions below the mark. -/
theorem countP_below (start produced high : ℕ) :
    (List.range' start produced).countP (· < high) = min produced (high - start) := by
  induction produced generalizing start with
  | zero => simp
  | succ produced ih =>
    rw [List.range'_succ, List.countP_cons, ih]
    by_cases below : start < high
    · simp only [below, decide_true, if_true]
      omega
    · simp only [below, decide_false, Bool.false_eq_true, if_false]
      omega

/-- The produced positions below the mark are missing no more. -/
theorem missing_produce :
    high - held - min produced (high - held) = high - (held + produced) := by
  omega

end HighWater
