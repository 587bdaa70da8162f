import Mathlib.Data.List.MinMax
import Mathlib.Data.List.Sort
import Mathlib.Tactic.Common

/-!
# Sorting by a key

`sortBy key list` lists the elements of a list by their keys. When no two elements have the same
key, it is the only such list: taking out an element with the least key takes out the first one,
and taking out an element with the greatest key takes out the last one.
-/

namespace SortBy

variable {α β : Type*} [LinearOrder β] {key key' : α → β} {list sorted : List α} {a : α}

/-- The elements of a list in the order of their keys. -/
def sortBy (key : α → β) (list : List α) : List α :=
  list.insertionSort fun a b => key a ≤ key b

instance keyTotal (key : α → β) : Std.Total fun a b => key a ≤ key b :=
  ⟨fun a b => le_total (key a) (key b)⟩

instance keyTrans (key : α → β) : IsTrans α fun a b => key a ≤ key b :=
  ⟨fun _ _ _ => le_trans⟩

theorem sortBy_perm (key : α → β) (list : List α) : (sortBy key list).Perm list :=
  List.perm_insertionSort _ _

@[simp] theorem mem_sortBy : a ∈ sortBy key list ↔ a ∈ list := (sortBy_perm key list).mem_iff

theorem pairwise_sortBy (key : α → β) (list : List α) :
    (sortBy key list).Pairwise fun a b => key a ≤ key b :=
  List.pairwise_insertionSort _ _

@[simp] theorem sortBy_nil : sortBy key [] = [] := rfl

/-- A sorted list is the only one when the keys are distinct. -/
theorem eq_sortBy (injective : Function.Injective key) (perm : sorted.Perm list)
    (pairwise : sorted.Pairwise fun a b => key a ≤ key b) : sorted = sortBy key list := by
  apply List.Perm.eq_of_pairwise _ pairwise (pairwise_sortBy key list)
  · exact perm.trans (sortBy_perm key list).symm
  · intro a b _ _ le ge
    exact injective (le_antisymm le ge)

/-- Only the keys of the elements matter. -/
theorem sortBy_congr (injective : Function.Injective key') (same : ∀ a ∈ list, key a = key' a) :
    sortBy key list = sortBy key' list := by
  apply eq_sortBy injective (sortBy_perm key list)
  apply (pairwise_sortBy key list).imp_of_mem
  intro a b left right le
  rw [← same a (mem_sortBy.mp left), ← same b (mem_sortBy.mp right)]
  exact le

variable [DecidableEq α]

/-- An element with the least key comes first. -/
theorem sortBy_argmin (injective : Function.Injective key) (least : a ∈ list.argmin key) :
    sortBy key list = a :: sortBy key (list.erase a) := by
  have mem := List.argmin_mem least
  symm
  apply eq_sortBy injective
  · apply List.Perm.trans _ (List.perm_cons_erase mem).symm
    exact (sortBy_perm key _).cons a
  · apply List.Pairwise.cons _ (pairwise_sortBy key _)
    intro b inside
    have old := List.mem_of_mem_erase (mem_sortBy.mp inside)
    exact List.le_of_mem_argmin old least

/-- An element with the greatest key comes last. -/
theorem sortBy_argmax (injective : Function.Injective key) (greatest : a ∈ list.argmax key) :
    sortBy key list = sortBy key (list.erase a) ++ [a] := by
  have mem := List.argmax_mem greatest
  symm
  apply eq_sortBy injective
  · apply List.Perm.trans (List.perm_append_singleton _ _)
    apply List.Perm.trans _ (List.perm_cons_erase mem).symm
    exact (sortBy_perm key _).cons a
  · apply List.pairwise_append.mpr
    refine ⟨pairwise_sortBy key _, List.pairwise_singleton _ _, ?_⟩
    intro b inside c last
    have old := List.mem_of_mem_erase (mem_sortBy.mp inside)
    rw [List.mem_singleton.mp last]
    exact List.le_of_mem_argmax old greatest

end SortBy
