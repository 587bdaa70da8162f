import Mathlib.Algebra.BigOperators.Group.Finset.Basic
import Mathlib.Algebra.Order.BigOperators.Group.Finset
import Mathlib.Data.List.Count

/-!
# Counting references

A finite set of owners holds lists of resources. The number of references to a resource is the
number of its occurrences in the lists of all owners. This file relates the count to ownership
and gives its change when the list of one owner is replaced.
-/

namespace References

open Finset

variable {ι α : Type} [DecidableEq ι] [DecidableEq α]

/-- The number of references to a resource. -/
def count (owners : Finset ι) (table : ι → List α) (a : α) : ℕ :=
  ∑ i ∈ owners, (table i).count a

variable {owners : Finset ι} {table : ι → List α} {i j : ι} {a : α}

omit [DecidableEq ι] in
theorem count_le_count (table : ι → List α) (a : α) (owns : i ∈ owners) :
    (table i).count a ≤ count owners table a :=
  single_le_sum (f := fun k => (table k).count a) (fun _ _ => Nat.zero_le _) owns

omit [DecidableEq ι] in
theorem count_pos_iff : 0 < count owners table a ↔ ∃ i ∈ owners, a ∈ table i := by
  simp only [count, sum_pos_iff_of_nonneg (fun _ _ => Nat.zero_le _), List.count_pos_iff]

omit [DecidableEq ι] in
theorem count_pos_of_mem (owns : i ∈ owners) (mem : a ∈ table i) : 0 < count owners table a :=
  count_pos_iff.mpr ⟨i, owns, mem⟩

/-- A resource with a single reference has a single owner. -/
theorem eq_of_count_eq_one (single : count owners table a = 1) (owns : i ∈ owners)
    (mem : a ∈ table i) (owns' : j ∈ owners) (mem' : a ∈ table j) : i = j := by
  by_contra differ
  have pair : ({i, j} : Finset ι) ⊆ owners := by
    simp [insert_subset_iff, owns, owns']
  have bound := sum_le_sum_of_subset (f := fun k => (table k).count a) pair
  rw [sum_pair differ] at bound
  have := List.count_pos_iff.mpr mem
  have := List.count_pos_iff.mpr mem'
  change _ ≤ count owners table a at bound
  omega

/-- Replacing the list of one owner exchanges its references. -/
theorem count_update_add (owns : i ∈ owners) (resources : List α) :
    count owners (Function.update table i resources) a + (table i).count a =
      count owners table a + resources.count a := by
  have split : ∀ table : ι → List α, count owners table a =
      (table i).count a + ∑ k ∈ owners.erase i, (table k).count a := fun table =>
    (add_sum_erase owners (fun k => (table k).count a) owns).symm
  have others : ∑ k ∈ owners.erase i, (Function.update table i resources k).count a =
      ∑ k ∈ owners.erase i, (table k).count a :=
    sum_congr rfl fun k mem => by rw [Function.update_of_ne (ne_of_mem_erase mem)]
  rw [split, split table, others, Function.update_self]
  omega

omit [DecidableEq ι] in
theorem count_congr {table' : ι → List α} (same : ∀ i ∈ owners, table' i = table i) :
    count owners table' a = count owners table a :=
  sum_congr rfl fun i owns => by rw [same i owns]

/-- The references are the occurrences in the lists of all owners which have resources. -/
theorem count_eq_flatMap {owned : List ι} (distinct : owned.Nodup)
    (known : ∀ i ∈ owned, i ∈ owners) (others : ∀ i ∈ owners, i ∉ owned → table i = []) :
    count owners table a = (owned.flatMap table).count a := by
  have subset : owned.toFinset ⊆ owners := fun i mem => known i (List.mem_toFinset.mp mem)
  rw [count, List.count_flatMap, ← List.sum_toFinset _ distinct]
  refine (sum_subset subset fun i owns absent => ?_).symm
  rw [others i owns (fun mem => absent (List.mem_toFinset.mpr mem)), List.count_nil]

/-- An owner without resources adds no references. -/
theorem count_insert (empty : table i = []) :
    count (insert i owners) table a = count owners table a := by
  by_cases owns : i ∈ owners
  · rw [insert_eq_of_mem owns]
  · rw [count, sum_insert owns, empty, List.count_nil, Nat.zero_add, count]

end References
