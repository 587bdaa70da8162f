import Mathlib.Data.List.GetD
import Mathlib.Data.List.Sort
import Mathlib.Tactic.Common

/-!
# Tables which keep some pages

Positions are cut into pages of a fixed size, and a table keeps some of the pages in increasing
order. An offset in the table stands for a position in a page which is kept. The offsets up to
the last position stand for all positions in kept pages, in order.
-/

namespace Paging

/-- The number of pages among the first `n` which the table does not keep. -/
def absentPages (n : ℕ) (pages : List ℕ) : ℕ := (List.range n).countP fun page => page ∉ pages

/-- The position at an offset of the table. -/
def position (size : ℕ) (pages : List ℕ) (offset : ℕ) : ℕ :=
  pages.getD (offset / size) 0 * size + offset % size

variable {size n : ℕ} {pages : List ℕ}

theorem le_last_of_increasing (increasing : pages.Pairwise (· < ·))
    (last : pages.getLast? = some n) {page : ℕ} (mem : page ∈ pages) : page ≤ n := by
  rcases List.getLast?_eq_some_iff.mp last with ⟨first, rfl⟩
  rcases List.mem_append.mp mem with earlier | final
  · exact ((List.pairwise_append.mp increasing).2.2 page earlier n List.mem_cons_self).le
  · exact (List.mem_singleton.mp final).le

/-- Every page is kept or absent. -/
theorem length_add_absentPages (increasing : pages.Pairwise (· < ·))
    (bounded : ∀ page ∈ pages, page < n) : pages.length + absentPages n pages = n := by
  have kept : pages.length = (List.range n).countP fun page => page ∈ pages := by
    rw [List.countP_eq_length_filter]
    congr 1
    apply increasing.eq_of_mem_iff (List.pairwise_lt_range.filter _)
    intro page
    simp only [List.mem_filter, List.mem_range, decide_eq_true_eq]
    exact ⟨fun mem => ⟨bounded page mem, mem⟩, And.right⟩
  have split := List.length_eq_countP_add_countP (fun page => decide (page ∈ pages))
    (l := List.range n)
  simp only [List.length_range, decide_eq_true_eq] at split
  simp only [absentPages, kept]
  exact split.symm

theorem position_eq {index offset : ℕ} (inPage : offset < size) :
    position size pages (index * size + offset) = pages.getD index 0 * size + offset := by
  have positive : 0 < size := Nat.zero_lt_of_lt inPage
  rw [position, Nat.mul_comm index, Nat.mul_add_div positive, Nat.div_eq_of_lt inPage,
    Nat.mul_add_mod, Nat.mod_eq_of_lt inPage, Nat.add_zero]

/-- Offsets in the table are in the order of the positions. -/
theorem position_lt (positive : 0 < size) (increasing : pages.Pairwise (· < ·))
    {offset offset' : ℕ} (lt : offset < offset') (inTable : offset' / size < pages.length) :
    position size pages offset < position size pages offset' := by
  have order := Nat.div_le_div_right (c := size) lt.le
  have short := Nat.lt_of_le_of_lt order inTable
  simp only [position, List.getD_eq_getElem _ _ short, List.getD_eq_getElem _ _ inTable]
  rcases Nat.lt_or_eq_of_le order with earlier | same
  · have pageOrder := List.pairwise_iff_getElem.mp increasing _ _ short inTable earlier
    have inPage := Nat.mod_lt offset positive
    have := Nat.mul_le_mul_right size (Nat.succ_le_of_lt pageOrder)
    rw [Nat.succ_mul] at this
    omega
  · have split := Nat.div_add_mod offset size
    have split' := Nat.div_add_mod offset' size
    simp only [same] at split ⊢
    omega

/--
The offsets of a table whose last page contains position `n` stand for the positions up to `n`
which are in kept pages.
-/
theorem map_position_range (positive : 0 < size) (increasing : pages.Pairwise (· < ·))
    (last : pages.getLast? = some (n / size)) :
    (List.range ((pages.length - 1) * size + n % size + 1)).map (position size pages) =
      (List.range (n + 1)).filter fun position => position / size ∈ pages := by
  have nonempty : 0 < pages.length := by
    apply List.length_pos_iff.mpr
    rintro rfl
    cases last
  have getLast : pages.getD (pages.length - 1) 0 = n / size := by
    rw [List.getLast?_eq_getElem?] at last
    rw [List.getD_eq_getElem?_getD, last, Option.getD_some]
  have inside := Nat.mod_lt n positive
  have split := Nat.div_add_mod' n size
  have inTable : ∀ offset, offset ≤ (pages.length - 1) * size + n % size →
      offset / size ≤ pages.length - 1 := by
    intro offset le
    apply Nat.le_of_lt_succ
    apply (Nat.div_lt_iff_lt_mul positive).mpr
    rw [Nat.succ_mul]
    omega
  refine List.Pairwise.eq_of_mem_iff (r := (· < ·)) ?_ (List.pairwise_lt_range.filter _) ?_
  · apply List.pairwise_map.mpr
    refine List.pairwise_lt_range.imp_of_mem fun {offset offset'} _ mem' lt => ?_
    have := inTable offset' (by simpa [Nat.lt_succ_iff] using mem')
    exact position_lt positive increasing lt (by omega)
  intro target
  simp only [List.mem_map, List.mem_range, List.mem_filter, decide_eq_true_eq]
  constructor
  · rintro ⟨offset, short, rfl⟩
    have page := inTable offset (by omega)
    have inPage := Nat.mod_lt offset positive
    have split' := Nat.div_add_mod' offset size
    have mem : pages.getD (offset / size) 0 ∈ pages := by
      rw [List.getD_eq_getElem _ _ (by omega)]
      exact List.getElem_mem _
    have division : position size pages offset / size = pages.getD (offset / size) 0 := by
      rw [position, Nat.add_comm, Nat.add_mul_div_right _ _ positive, Nat.div_eq_of_lt inPage,
        Nat.zero_add]
    refine ⟨?_, division ▸ mem⟩
    rcases Nat.lt_or_eq_of_le page with earlier | final
    · have before : offset < (pages.length - 1) * size + n % size := by
        have := Nat.mul_le_mul_right size (Nat.succ_le_of_lt earlier)
        rw [Nat.succ_mul] at this
        omega
      have inside' : ((pages.length - 1) * size + n % size) / size < pages.length := by
        have := inTable _ (le_refl ((pages.length - 1) * size + n % size))
        omega
      have := position_lt positive increasing before inside'
      rw [position_eq inside, getLast] at this
      omega
    · rw [position, final, getLast]
      rw [final] at split'
      omega
  · rintro ⟨short, mem⟩
    rcases List.getElem_of_mem mem with ⟨index, bound, get⟩
    have inPage := Nat.mod_lt target positive
    have split' := Nat.div_add_mod' target size
    refine ⟨index * size + target % size, ?_, ?_⟩
    · by_cases final : index = pages.length - 1
      · have samePage : target / size = n / size := by
          rw [← get, ← getLast, List.getD_eq_getElem _ _ (by omega)]
          simp only [final]
        rw [samePage] at split'
        rw [final]
        omega
      · have := Nat.mul_le_mul_right size (show index + 1 ≤ pages.length - 1 by omega)
        rw [Nat.add_mul, Nat.one_mul] at this
        omega
    · rw [position_eq inPage, List.getD_eq_getElem _ _ bound, get]
      exact split'

end Paging
