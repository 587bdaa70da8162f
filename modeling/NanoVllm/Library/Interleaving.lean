import Mathlib.Algebra.BigOperators.Group.Finset.Basic
import Mathlib.Algebra.GroupWithZero.Nat
import Mathlib.Algebra.Order.BigOperators.Group.Finset
import Mathlib.Tactic.Common

/-!
# Interleaved counters

Each of several parties has a counter. A step of a party costs a price which depends on its
counter, and then counts on. The total cost of an interleaving depends only on how many steps
each party takes, so it is a sum over the parties.
-/

namespace Interleaving

variable {ι : Type*} [DecidableEq ι] {price : ℕ → ℕ} {counter counter' : ι → ℕ} {order : List ι}
  {parties : Finset ι} {steps : ι → ℕ}

/-- The cost of the steps of an interleaving, one after the other. -/
def cost (price : ℕ → ℕ) : (ι → ℕ) → List ι → ℕ
  | _, [] => 0
  | counter, i :: order =>
      price (counter i) + cost price (Function.update counter i (counter i + 1)) order

/-- The cost of `n` steps of one party. -/
def spent (price : ℕ → ℕ) (start n : ℕ) : ℕ := ((List.range n).map fun k => price (start + k)).sum

theorem spent_succ_left (price : ℕ → ℕ) (start n : ℕ) :
    spent price start (n + 1) = price start + spent price (start + 1) n := by
  simp only [spent, List.range_succ_eq_map, List.map_cons, List.sum_cons, List.map_map,
    Nat.add_zero]
  congr 3
  funext k
  simp only [Function.comp, Nat.succ_eq_add_one]
  congr 1
  omega

theorem spent_succ (price : ℕ → ℕ) (start n : ℕ) :
    spent price start (n + 1) = spent price start n + price (start + n) := by
  simp [spent, List.range_succ]

theorem spent_mono (price : ℕ → ℕ) (start : ℕ) {n n' : ℕ} (le : n ≤ n') :
    spent price start n ≤ spent price start n' := by
  induction le with
  | refl => exact Nat.le_refl _
  | step _ ih =>
    rw [spent_succ]
    exact ih.trans (Nat.le_add_right _ _)

/-- The cost depends on the counters of the parties which take steps. -/
theorem cost_congr (same : ∀ i ∈ order, counter i = counter' i) :
    cost price counter order = cost price counter' order := by
  induction order generalizing counter counter' with
  | nil => rfl
  | cons i order ih =>
    rw [cost, cost, same i List.mem_cons_self]
    congr 1
    apply ih
    intro j mem
    by_cases self : j = i
    · simp [self]
    · simp only [Function.update_of_ne self]
      exact same j (List.mem_cons_of_mem i mem)

theorem cost_append (order order' : List ι) :
    cost price counter (order ++ order') = cost price counter order +
      cost price (fun i => counter i + order.count i) order' := by
  induction order generalizing counter with
  | nil => simp [cost]
  | cons i order ih =>
    rw [List.cons_append, cost, cost, ih, Nat.add_assoc]
    congr 2
    apply cost_congr
    intro j _
    by_cases self : j = i
    · subst self
      simp
      omega
    · simp [Function.update_of_ne self, List.count_cons_of_ne (Ne.symm self)]

/-- The cost of an interleaving is what each party spends alone. -/
theorem cost_eq (members : ∀ i ∈ order, i ∈ parties) :
    cost price counter order = ∑ i ∈ parties, spent price (counter i) (order.count i) := by
  induction order generalizing counter with
  | nil => simp [cost, spent]
  | cons i order ih =>
    have mem := members i List.mem_cons_self
    rw [cost, ih fun j mem' => members j (List.mem_cons_of_mem i mem'),
      ← Finset.add_sum_erase parties _ mem, ← Finset.add_sum_erase parties _ mem]
    have others : ∀ j ∈ parties.erase i, spent price (Function.update counter i (counter i + 1) j)
        (order.count j) = spent price (counter j) ((i :: order).count j) := by
      intro j mem'
      have differ := Finset.ne_of_mem_erase mem'
      rw [Function.update_of_ne differ, List.count_cons_of_ne differ.symm]
    rw [Finset.sum_congr rfl others, Function.update_self, List.count_cons_self,
      spent_succ_left, Nat.add_assoc]

/-- An interleaving in which each party takes all its steps. -/
theorem cost_complete (members : ∀ i ∈ order, i ∈ parties)
    (complete : ∀ i, order.count i = steps i) :
    cost price counter order = ∑ i ∈ parties, spent price (counter i) (steps i) := by
  rw [cost_eq members]
  simp only [complete]

/-- What is left over pays for the next step. -/
theorem cost_next_le (members : ∀ i ∈ order, i ∈ parties) (le : ∀ i, order.count i ≤ steps i)
    {i : ι} (mem : i ∈ parties) (next : order.count i < steps i) :
    cost price counter order + price (counter i + order.count i) ≤
      ∑ i ∈ parties, spent price (counter i) (steps i) := by
  have extended : cost price counter order + price (counter i + order.count i) =
      cost price counter (order ++ [i]) := by
    rw [cost_append]
    rfl
  have members' : ∀ j ∈ order ++ [i], j ∈ parties := by
    intro j mem'
    rcases List.mem_append.mp mem' with mem' | mem'
    · exact members j mem'
    · rw [List.mem_singleton.mp mem']
      exact mem
  rw [extended, cost_eq members']
  apply Finset.sum_le_sum
  intro j _
  apply spent_mono
  rw [List.count_append]
  by_cases self : j = i
  · subst self
    rw [List.count_singleton_self]
    exact next
  · simpa [List.count_cons_of_ne (Ne.symm self)] using le j

end Interleaving
