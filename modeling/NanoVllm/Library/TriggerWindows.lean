import Mathlib.Data.List.Pairwise
import Mathlib.Data.List.Sort
import Mathlib.Data.Nat.Count
import Mathlib.Tactic.Common

/-!
# Windows around triggers

Events arrive one after the other and are numbered from zero. Some of them are triggers. The window
of a trigger holds the `before` events up to the trigger and the `after` events which follow it. A
recorder which remembers the last `before` events, counts down the events which the windows still
expect, and never records an event a second time, records the windows without gaps.
-/

namespace NanoVllm.TriggerWindows

variable {triggers : ℕ → Prop} {before after n e w : ℕ} {expected : ℤ}

/-- An event lies in the window of one of the first `n` events. -/
def Covered (triggers : ℕ → Prop) (before after n e : ℕ) : Prop :=
  ∃ t < n, triggers t ∧ t < e + before ∧ e ≤ t + after

instance [DecidablePred triggers] : DecidablePred (Covered triggers before after n) := fun e =>
  inferInstanceAs (Decidable (∃ t < n, triggers t ∧ t < e + before ∧ e ≤ t + after))

/-- The events which are covered when `n` events have arrived. -/
def captured (triggers : ℕ → Prop) [DecidablePred triggers] (before after n : ℕ) : List ℕ :=
  (List.range n).filter fun e => Covered triggers before after n e

/-- The last `before` of the first `n` events. -/
def recent (before n : ℕ) : List ℕ := (List.range n).drop (n - before)

/-- The last event of a list, or `-1`. -/
def watermark (events : List ℕ) : ℤ := events.getLast?.elim (-1) Nat.cast

/-- The windows of the first `n` events expect this many further events. -/
structure Countdown (triggers : ℕ → Prop) (after n : ℕ) (expected : ℤ) : Prop where
  nonneg : 0 ≤ expected
  ends : ∀ t < n, triggers t → (t : ℤ) + after + 1 ≤ n + expected
  due : expected = 0 ∨ ∃ t < n, triggers t ∧ (t : ℤ) + after + 1 = n + expected

/-! ## The covered events -/

theorem covered_succ : Covered triggers before after (n + 1) e ↔
    Covered triggers before after n e ∨ triggers n ∧ n < e + before ∧ e ≤ n + after :=
  Nat.exists_lt_succ_right

/-- The windows have no gap between a recent event and one which is covered. -/
theorem Covered.of_le (covered : Covered triggers before after n w) (le : e ≤ w)
    (recent : n < e + before) : Covered triggers before after n e := by
  rcases covered with ⟨t, early, trigger, -, inside⟩
  refine ⟨t, early, trigger, ?_, le.trans inside⟩
  omega

theorem mem_recent : e ∈ recent before n ↔ n ≤ e + before ∧ e < n := by
  simp only [recent, List.mem_iff_getElem?, List.getElem?_drop]
  constructor
  · intro found
    rcases found with ⟨k, get⟩
    rcases List.getElem?_eq_some_iff.mp get with ⟨bound, rfl⟩
    simp only [List.length_range, List.getElem_range] at bound ⊢
    omega
  · intro inside
    refine ⟨e - (n - before), List.getElem?_eq_some_iff.mpr ⟨?_, ?_⟩⟩
    · simp only [List.length_range]
      omega
    · simp only [List.getElem_range]
      omega

theorem recent_succ : recent before (n + 1) =
    (recent before n ++ [n]).drop ((recent before n).length + 1 - before) := by
  have room : n - before ≤ (List.range n).length := by simp
  rw [recent, recent, ← List.drop_append_of_le_length room, ← List.range_succ, List.drop_drop,
    List.length_drop, List.length_range]
  congr 1
  omega

theorem watermark_nil : watermark [] = -1 := rfl

theorem watermark_of_last {events : List ℕ} (last : events.getLast? = some e) :
    watermark events = e := by
  simp [watermark, last]

theorem sortedLT_recent : (recent before n).SortedLT :=
  ((List.sortedLT_range n).pairwise.sublist (List.drop_sublist ..)).sortedLT

section Captured

variable [DecidablePred triggers]

theorem mem_captured : e ∈ captured triggers before after n ↔
    e < n ∧ Covered triggers before after n e := by
  simp [captured]

theorem sortedLT_captured : (captured triggers before after n).SortedLT :=
  ((List.sortedLT_range n).pairwise.sublist List.filter_sublist).sortedLT

theorem captured_zero : captured triggers before after 0 = [] := rfl

/-- An arrival adds later events to those which are covered. -/
theorem captured_succ {batch : List ℕ} (sorted : batch.SortedLT)
    (later : ∀ w ∈ captured triggers before after n, ∀ e ∈ batch, w < e)
    (members : ∀ e, e ∈ captured triggers before after (n + 1) ↔
      e ∈ captured triggers before after n ∨ e ∈ batch) :
    captured triggers before after (n + 1) = captured triggers before after n ++ batch := by
  apply sortedLT_captured.eq_of_mem_iff
  · exact (List.pairwise_append.mpr ⟨sortedLT_captured.pairwise, sorted.pairwise, later⟩).sortedLT
  · simpa only [List.mem_append] using members

/-- A trigger adds the recent events which were not covered before. -/
theorem captured_trigger (positive : 0 < before) (trigger : triggers n) :
    captured triggers before after (n + 1) = captured triggers before after n ++
      (recent before (n + 1)).filter fun e => e ∉ captured triggers before after n := by
  apply captured_succ
  · exact (sortedLT_recent.pairwise.sublist List.filter_sublist).sortedLT
  · intro w old e fresh
    simp only [List.mem_filter, mem_recent, decide_eq_true_eq, mem_captured, not_and] at fresh
    rcases mem_captured.mp old with ⟨early, covered⟩
    by_contra later
    apply fresh.2
    · omega
    · apply covered.of_le <;> omega
  · intro e
    simp only [List.mem_filter, mem_recent, decide_eq_true_eq, mem_captured, covered_succ]
    constructor
    · intro inside
      by_cases old : e < n ∧ Covered triggers before after n e
      · exact .inl old
      · refine .inr ⟨⟨?_, inside.1⟩, old⟩
        rcases inside.2 with covered | new
        · have same : e = n := by
            by_contra differ
            exact old ⟨by omega, covered⟩
          omega
        · omega
    · intro inside
      rcases inside with old | new
      · exact ⟨by omega, .inl old.2⟩
      · refine ⟨new.1.2, .inr ⟨trigger, ?_⟩⟩
        omega

/-- Within a window every arrival is covered. -/
theorem captured_inside (quiet : ¬triggers n) (inside : Covered triggers before after n n) :
    captured triggers before after (n + 1) = captured triggers before after n ++ [n] := by
  apply captured_succ (List.pairwise_singleton ..).sortedLT
  · intro w old e new
    rw [List.mem_singleton.mp new]
    exact (mem_captured.mp old).1
  · intro e
    simp only [mem_captured, covered_succ, quiet, false_and, or_false, List.mem_singleton]
    constructor
    · intro covered
      rcases Nat.lt_succ_iff_lt_or_eq.mp covered.1 with early | same
      · exact .inl ⟨early, covered.2⟩
      · exact .inr same
    · intro covered
      rcases covered with old | rfl
      · exact ⟨by omega, old.2⟩
      · exact ⟨by omega, inside⟩

/-- Outside all windows nothing is added. -/
theorem captured_outside (quiet : ¬triggers n) (outside : ¬Covered triggers before after n n) :
    captured triggers before after (n + 1) = captured triggers before after n := by
  rw [← List.append_nil (captured triggers before after n)]
  apply captured_succ List.Pairwise.nil.sortedLT
  · intro w old e new
    cases new
  · intro e
    simp only [mem_captured, covered_succ, quiet, false_and, or_false, List.not_mem_nil]
    constructor
    · intro covered
      rcases Nat.lt_succ_iff_lt_or_eq.mp covered.1 with early | rfl
      · exact ⟨early, covered.2⟩
      · exact absurd covered.2 outside
    · intro covered
      exact ⟨by omega, covered.2⟩

/-- The events which are covered early come first. -/
theorem captured_prefix {m : ℕ} (positive : 0 < before) (le : m ≤ n) :
    captured triggers before after m <+: captured triggers before after n := by
  induction n, le using Nat.le_induction with
  | base => exact List.prefix_rfl
  | succ n le ih =>
    apply ih.trans
    by_cases trigger : triggers n
    · rw [captured_trigger positive trigger]
      exact List.prefix_append ..
    · by_cases inside : Covered triggers before after n n
      · rw [captured_inside trigger inside]
        exact List.prefix_append ..
      · rw [captured_outside trigger inside]

/-- A recent event is beyond the watermark exactly when it is not covered yet. -/
theorem watermark_lt_iff (recent : n < e + before) :
    watermark (captured triggers before after n) < e ↔ e ∉ captured triggers before after n := by
  cases last : (captured triggers before after n).getLast? with
  | none =>
    have empty := List.getLast?_eq_none_iff.mp last
    simp only [empty, watermark_nil, List.not_mem_nil, not_false_eq_true, iff_true]
    omega
  | some w =>
    have member := List.mem_of_getLast? last
    simp only [watermark_of_last last, Int.ofNat_lt]
    constructor
    · intro later old
      have highest := List.Pairwise.rel_getLast (sortedLT_captured.pairwise.imp Nat.le_of_lt) old
      rw [List.getLast_eq_iff_getLast?_eq_some _ |>.mpr last] at highest
      omega
    · intro fresh
      by_contra early
      apply fresh
      rcases mem_captured.mp member with ⟨bound, covered⟩
      exact mem_captured.mpr ⟨by omega, covered.of_le (by omega) recent⟩

end Captured

/-! ## The countdown -/

theorem Countdown.zero : Countdown triggers after 0 0 where
  nonneg := le_rfl
  ends t early := absurd early (Nat.not_lt_zero t)
  due := .inl rfl

/-- A trigger starts the count again. -/
theorem Countdown.of_trigger (trigger : triggers n) :
    Countdown triggers after (n + 1) after where
  nonneg := Int.natCast_nonneg after
  ends t early _ := by
    push_cast
    omega
  due := .inr ⟨n, Nat.lt_succ_self n, trigger, by push_cast; omega⟩

/-- Any other event is one of those which were expected. -/
theorem Countdown.follow (count : Countdown triggers after n expected) (quiet : ¬triggers n)
    (left : expected ≠ 0) : Countdown triggers after (n + 1) (expected - 1) where
  nonneg := by
    have nonneg := count.nonneg
    omega
  ends t early trigger := by
    have differ : t ≠ n := fun same => quiet (same ▸ trigger)
    have ends := count.ends t (by omega) trigger
    push_cast
    omega
  due := by
    rcases count.due with none | due
    · exact absurd none left
    · rcases due with ⟨t, early, trigger, ends⟩
      refine .inr ⟨t, by omega, trigger, ?_⟩
      push_cast
      omega

theorem Countdown.idle (count : Countdown triggers after n 0) (quiet : ¬triggers n) :
    Countdown triggers after (n + 1) 0 where
  nonneg := le_rfl
  ends t early trigger := by
    have differ : t ≠ n := fun same => quiet (same ▸ trigger)
    have ends := count.ends t (by omega) trigger
    push_cast
    omega
  due := .inl rfl

/-- The next event is expected exactly when it is covered by an earlier trigger. -/
theorem Countdown.ne_zero_iff (count : Countdown triggers after n expected) :
    expected ≠ 0 ↔ Covered triggers before after n n := by
  have nonneg := count.nonneg
  constructor
  · intro left
    rcases count.due.resolve_left left with ⟨t, early, trigger, ends⟩
    exact ⟨t, early, trigger, by omega, by omega⟩
  · intro covered
    rcases covered with ⟨t, early, trigger, -, inside⟩
    have ends := count.ends t early trigger
    omega

/-- Nothing is expected exactly when all windows have ended. -/
theorem Countdown.eq_zero_iff (count : Countdown triggers after n expected) :
    expected = 0 ↔ ∀ t < n, triggers t → t + after < n := by
  have nonneg := count.nonneg
  constructor
  · intro none t early trigger
    have ends := count.ends t early trigger
    omega
  · intro ended
    by_contra left
    rcases count.due.resolve_left left with ⟨t, early, trigger, ends⟩
    have past := ended t early trigger
    omega

/-! ## The first triggers -/

section First

variable {p : ℕ → Prop} [DecidablePred p] {quota : ℤ}

/-- One of the first `quota` events which satisfy a predicate. -/
def First (p : ℕ → Prop) [DecidablePred p] (quota : ℤ) (t : ℕ) : Prop :=
  p t ∧ (Nat.count p t : ℤ) < quota

instance : DecidablePred (First p quota) := fun t =>
  inferInstanceAs (Decidable (p t ∧ (Nat.count p t : ℤ) < quota))

/-- A counter which stops at the quota tells which events are among the first. -/
theorem first_iff {counter : ℤ} (counts : counter = min (Nat.count p n : ℤ) (max 0 quota)) :
    First p quota n ↔ p n ∧ counter < quota := by
  apply and_congr_right
  intro _
  omega

theorem counter_first {counter : ℤ} (counts : counter = min (Nat.count p n : ℤ) (max 0 quota))
    (first : First p quota n) : counter + 1 = min (Nat.count p (n + 1) : ℤ) (max 0 quota) := by
  rcases first with ⟨holds, early⟩
  rw [Nat.count_succ, if_pos holds]
  push_cast
  omega

theorem counter_other {counter : ℤ} (counts : counter = min (Nat.count p n : ℤ) (max 0 quota))
    (other : ¬First p quota n) : counter = min (Nat.count p (n + 1) : ℤ) (max 0 quota) := by
  rw [Nat.count_succ]
  by_cases holds : p n
  · have late : quota ≤ Nat.count p n := not_lt.mp fun early => other ⟨holds, early⟩
    rw [if_pos holds]
    push_cast
    omega
  · rw [if_neg holds]
    exact counts

/-- The whole quota of windows has been opened, and all of them have ended. -/
structure Complete (p : ℕ → Prop) [DecidablePred p] (quota : ℤ) (after n : ℕ) : Prop where
  positive : 0 < quota
  used : quota ≤ Nat.count p n
  ended : ∀ t < n, First p quota t → t + after < n

/-- After the last window no event is among the first. -/
theorem Complete.not_first (complete : Complete p quota after n) : ¬First p quota n := by
  intro first
  have used := complete.used
  have early := first.2
  omega

theorem Complete.succ (complete : Complete p quota after n) : Complete p quota after (n + 1) where
  positive := complete.positive
  used := complete.used.trans (Int.ofNat_le.mpr (Nat.count_monotone p (Nat.le_succ n)))
  ended t early first := by
    have differ : t ≠ n := fun same => complete.not_first (same ▸ first)
    have ended := complete.ended t (by omega) first
    omega

theorem Complete.captured_succ (complete : Complete p quota after n) :
    captured (First p quota) before after (n + 1) = captured (First p quota) before after n := by
  apply captured_outside complete.not_first
  intro covered
  rcases covered with ⟨t, early, first, -, inside⟩
  have ended := complete.ended t early first
  omega

/-- The windows are complete when the counter has reached the quota and nothing is expected. -/
theorem complete_iff {counter : ℤ} (counts : counter = min (Nat.count p n : ℤ) (max 0 quota))
    (count : Countdown (First p quota) after n expected) :
    Complete p quota after n ↔ 0 < quota ∧ quota ≤ counter ∧ expected = 0 := by
  rw [count.eq_zero_iff]
  constructor
  · intro complete
    have positive := complete.positive
    have used := complete.used
    exact ⟨positive, by omega, complete.ended⟩
  · intro state
    exact ⟨state.1, by omega, state.2.2⟩

end First

end NanoVllm.TriggerWindows
