import Mathlib.Algebra.BigOperators.Group.List.Basic
import Mathlib.Tactic.Ring
import NanoVllm.Library.Paging

/-!
# Linear maps in shards

A shard is a page of the rows or of the columns of a linear map. The shards of the rows compute the
shards of its values, and the values of the shards of the columns add up to its values. A vector is
the list of its entries, and a matrix that of its rows.
-/

namespace Paging

variable {α β γ : Type} {size : ℕ}

theorem page_map (f : α → β) (xs : List α) (i : ℕ) :
    page size (xs.map f) i = (page size xs i).map f := by
  simp [page, List.map_take, List.map_drop]

theorem page_zipWith (f : α → β → γ) (xs : List α) (ys : List β) (i : ℕ) :
    page size (List.zipWith f xs ys) i = List.zipWith f (page size xs i) (page size ys i) := by
  simp [page, List.drop_zipWith, List.take_zipWith]

/-- A page of a page. -/
theorem page_page (xs : List α) (r : ℕ) {n i : ℕ} (inside : i < n) :
    page size (page (n * size) xs r) i = page size xs (r * n + i) := by
  have room : size ≤ n * size - i * size := by
    rw [← Nat.sub_mul]
    exact Nat.le_mul_of_pos_left size (Nat.sub_pos_of_lt inside)
  have start : r * (n * size) + i * size = (r * n + i) * size := by ring
  rw [page, page, page, List.drop_take, List.take_take, min_eq_left room, List.drop_drop, start]

/-- The small pages of a large one. -/
theorem pages_page (xs : List α) (r n : ℕ) :
    pages size (page (n * size) xs r) n = (List.range n).map fun i => page size xs (r * n + i) := by
  apply List.map_congr_left
  intro i inside
  exact page_page xs r (List.mem_range.mp inside)

theorem page_range {n r count : ℕ} (inside : (r + 1) * n ≤ count) :
    page n (List.range count) r = (List.range n).map fun i => r * n + i := by
  rw [Nat.succ_mul] at inside
  apply List.ext_getElem
  · simp [page]
    omega
  · intro k _ _
    simp [page]

/-- The large pages consist of the small ones. -/
theorem page_pages (xs : List α) {n r count : ℕ} (inside : (r + 1) * n ≤ count) :
    page n (pages size xs count) r = (List.range n).map fun i => page size xs (r * n + i) := by
  rw [pages, page_map, page_range inside, List.map_map]
  rfl

/-- The small pages of a large one are a page of all small ones. -/
theorem pages_page_eq (xs : List α) {n r count : ℕ} (inside : r < count) :
    pages size (page (n * size) xs r) n = page n (pages size xs (count * n)) r := by
  have room : (r + 1) * n ≤ count * n := Nat.mul_le_mul_right n (Nat.succ_le_of_lt inside)
  rw [pages_page, page_pages xs room]

theorem getElem?_page {xs : List α} {r i : ℕ} (inside : i < size) :
    (page size xs r)[i]? = xs[r * size + i]? := by
  rw [page, List.getElem?_take_of_lt inside, List.getElem?_drop]

theorem page_zero (xs : List α) : page size xs 0 = xs.take size := by
  simp [page]

theorem Full.drop_flatten {path : List (List α)} (full : Full size path) (k : ℕ) :
    path.flatten.drop (k * size) = (path.drop k).flatten := by
  induction path generalizing k with
  | nil => simp
  | cons first path ih =>
    cases k with
    | zero => simp
    | succ k =>
      have firstFull := full first (.head _)
      have rest := ih (fun page mem => full page (.tail _ mem)) k
      rw [Nat.succ_mul, Nat.add_comm, ← firstFull, List.flatten_cons, List.drop_length_add_append,
        firstFull, rest, List.drop_succ_cons]

theorem Full.take_flatten {path : List (List α)} (full : Full size path) (k : ℕ) :
    path.flatten.take (k * size) = (path.take k).flatten := by
  induction path generalizing k with
  | nil => simp
  | cons first path ih =>
    cases k with
    | zero => simp
    | succ k =>
      have firstFull := full first (.head _)
      have rest := ih (fun page mem => full page (.tail _ mem)) k
      rw [Nat.succ_mul, Nat.add_comm, ← firstFull, List.flatten_cons, List.take_length_add_append,
        firstFull, rest, List.take_succ_cons, List.flatten_cons]

/-- What full pages join to, cut into larger pages. -/
theorem Full.page_flatten_mul {path : List (List α)} (full : Full size path) (n r : ℕ) :
    page (n * size) path.flatten r = (page n path r).flatten := by
  have start : r * (n * size) = r * n * size := (Nat.mul_assoc r n size).symm
  have rest : Full size (path.drop (r * n)) := fun page mem =>
    full page (List.mem_of_mem_drop mem)
  rw [page, page, start, full.drop_flatten, rest.take_flatten]

end Paging

namespace Sharding

open Paging

variable {R : Type} [Semiring R]

/-- The product of two vectors. -/
def dot (xs ys : List R) : R := (List.zipWith (· * ·) xs ys).sum

/-- The sum of two vectors. -/
def add (xs ys : List R) : List R := List.zipWith (· + ·) xs ys

/-- The values of a linear map. -/
def apply (rows : List (List R)) (xs : List R) : List R := rows.map fun row => dot row xs

/-- The sum of the vectors of all ranks. -/
def total : List (List R) → List R
  | [] => []
  | xs :: rest => rest.foldl add xs

variable {size count : ℕ} {xs ys : List R} {rows : List (List R)}

@[simp] theorem length_apply : (apply rows xs).length = rows.length := List.length_map _

theorem apply_append (rows rows' : List (List R)) (xs : List R) :
    apply (rows ++ rows') xs = apply rows xs ++ apply rows' xs := List.map_append

/-- The rows of a shard compute its values. -/
theorem apply_page (rows : List (List R)) (xs : List R) (r : ℕ) :
    apply (page size rows r) xs = page size (apply rows xs) r :=
  (page_map _ rows r).symm

theorem sum_pages (long : xs.length ≤ count * size) :
    ((List.range count).map fun r => (page size xs r).sum).sum = xs.sum := by
  have pages := List.sum_flatten (l := pages size xs count)
  rw [flatten_pages, List.take_of_length_le long] at pages
  rw [pages, Paging.pages, List.map_map]
  rfl

/-- A product is the sum of the products of the shards. -/
theorem dot_pages (xs : List R) (long : ys.length ≤ count * size) :
    ((List.range count).map fun r => dot (page size xs r) (page size ys r)).sum = dot xs ys := by
  have short : (List.zipWith (· * ·) xs ys).length ≤ count * size := by
    rw [List.length_zipWith]
    exact (min_le_right _ _).trans long
  rw [dot, ← sum_pages short]
  congr 1
  apply List.map_congr_left
  intro r _
  rw [dot, page_zipWith]

theorem foldl_add_map (ranks : List ℕ) (first : List R → R) (part : ℕ → List R → R)
    (rows : List (List R)) :
    (ranks.map fun r => rows.map (part r)).foldl add (rows.map first) =
      rows.map fun row => first row + (ranks.map fun r => part r row).sum := by
  induction ranks generalizing first with
  | nil => simp
  | cons r ranks ih =>
    have sum : add (rows.map first) (rows.map (part r)) =
        rows.map fun row => first row + part r row := by
      simp [add, List.zipWith_map, List.zipWith_self]
    simp only [List.map_cons, List.foldl_cons, sum, ih, List.sum_cons, add_assoc]

/-- The values which the columns of the shards give add up to those of the map. -/
theorem total_apply_pages (rows : List (List R)) (positive : 0 < count)
    (long : xs.length ≤ count * size) :
    total ((List.range count).map fun r =>
      apply (rows.map fun row => page size row r) (page size xs r)) = apply rows xs := by
  rcases Nat.exists_eq_succ_of_ne_zero positive.ne' with ⟨more, rfl⟩
  simp only [apply, List.map_map]
  rw [List.range_succ_eq_map, List.map_cons, total, List.map_map]
  have parts := foldl_add_map ((List.range more).map Nat.succ)
    (fun row => dot (page size row 0) (page size xs 0))
    (fun r row => dot (page size row r) (page size xs r)) rows
  rw [List.map_map] at parts
  refine Eq.trans parts ?_
  apply List.map_congr_left
  intro row _
  have whole : ((List.range (more + 1)).map fun r =>
      dot (page size row r) (page size xs r)).sum = dot row xs := dot_pages row long
  rw [List.range_succ_eq_map, List.map_cons, List.sum_cons] at whole
  exact whole

end Sharding
