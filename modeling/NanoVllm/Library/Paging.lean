import Mathlib.Data.List.Basic
import Mathlib.Tactic.Common

/-!
# Paths of equally long pages

A list is cut into pages of a fixed size. The pages of a prefix of the list join to the prefix,
and a sequence of full pages is determined by the list it joins to.
-/

namespace Paging

variable {α : Type}

/-- The page of a list at an index. -/
def page (size : ℕ) (xs : List α) (i : ℕ) : List α := (xs.drop (i * size)).take size

/-- The first pages of a list. -/
def pages (size : ℕ) (xs : List α) (n : ℕ) : List (List α) := (List.range n).map (page size xs)

/-- Every page of a path is full. -/
def Full (size : ℕ) (path : List (List α)) : Prop := ∀ page ∈ path, page.length = size

variable {size : ℕ} {xs : List α} {path path' : List (List α)}

theorem Full.length_flatten (full : Full size path) : path.flatten.length = path.length * size := by
  induction path with
  | nil => simp
  | cons first path ih =>
    rw [List.flatten_cons, List.length_append, ih fun page mem => full page (.tail _ mem),
      full first (.head _), List.length_cons, Nat.add_mul, Nat.one_mul, Nat.add_comm]

/-- Full pages are determined by what they join to. -/
theorem Full.eq_of_flatten_eq (positive : 0 < size) (full : Full size path)
    (full' : Full size path') (same : path.flatten = path'.flatten) : path = path' := by
  induction path generalizing path' with
  | nil =>
    have length := full'.length_flatten
    rw [← same, List.flatten_nil, List.length_nil] at length
    have := Nat.mul_eq_zero.mp length.symm
    exact (List.eq_nil_of_length_eq_zero (by omega)).symm
  | cons first path ih =>
    cases path' with
    | nil =>
      have length := full.length_flatten
      rw [same, List.flatten_nil, List.length_nil, List.length_cons] at length
      have := Nat.mul_eq_zero.mp length.symm
      omega
    | cons first' path' =>
      rw [List.flatten_cons, List.flatten_cons] at same
      obtain ⟨sameFirst, sameRest⟩ := List.append_inj same
        ((full first (.head _)).trans (full' first' (.head _)).symm)
      rw [sameFirst, ih (fun page mem => full page (.tail _ mem))
        (fun page mem => full' page (.tail _ mem)) sameRest]

@[simp] theorem length_pages (n : ℕ) : (pages size xs n).length = n := by
  simp [pages]

theorem take_pages {m n : ℕ} (le : m ≤ n) : (pages size xs n).take m = pages size xs m := by
  rw [pages, ← List.map_take, List.take_range, Nat.min_eq_left le, pages]

theorem getElem?_pages {i n : ℕ} (short : i < n) :
    (pages size xs n)[i]? = some (page size xs i) := by
  simp [pages, List.getElem?_range short]

theorem pages_succ (n : ℕ) : pages size xs (n + 1) = pages size xs n ++ [page size xs n] := by
  simp [pages, List.range_succ]

theorem flatten_pages (n : ℕ) : (pages size xs n).flatten = xs.take (n * size) := by
  induction n with
  | zero => simp [pages]
  | succ n ih =>
    rw [pages_succ, List.flatten_append, ih, Nat.add_mul, Nat.one_mul, List.take_add]
    simp [page]

theorem full_pages {n : ℕ} (long : n * size ≤ xs.length) : Full size (pages size xs n) := by
  intro page mem
  simp only [pages, List.mem_map, List.mem_range] at mem
  obtain ⟨i, short, rfl⟩ := mem
  have := Nat.mul_le_mul_right size (show i + 1 ≤ n by omega)
  rw [Nat.add_mul, Nat.one_mul] at this
  simp only [Paging.page, List.length_take, List.length_drop]
  omega

theorem length_page {i n : ℕ} (long : n * size ≤ xs.length) (short : i < n) :
    (page size xs i).length = size :=
  full_pages long _ (List.mem_map_of_mem (List.mem_range.mpr short))

/-- A page is found again in what a path joins to. -/
theorem Full.page_flatten (full : Full size path) {i : ℕ} (short : i < path.length) :
    page size path.flatten i = path[i] := by
  induction path generalizing i with
  | nil => cases short
  | cons first path ih =>
    have firstFull := full first (.head _)
    cases i with
    | zero => simp [page, ← firstFull]
    | succ i =>
      have later := ih (fun page mem => full page (.tail _ mem)) (Nat.lt_of_succ_lt_succ short)
      have behind : (i + 1) * size = first.length + i * size := by
        rw [firstFull, Nat.succ_mul, Nat.add_comm]
      rw [page] at later ⊢
      rw [List.flatten_cons, behind, List.drop_length_add_append, later, List.getElem_cons_succ]

/-- A prefix inside one of the first pages is a prefix of what they join to. -/
theorem take_flatten_pages {n m : ℕ} (le : m ≤ n * size) :
    (pages size xs n).flatten.take m = xs.take m := by
  rw [flatten_pages, List.take_take, Nat.min_eq_left le]

/-- Pages only depend on the tokens they contain. -/
theorem pages_append {ys : List α} {n : ℕ} (long : n * size ≤ xs.length) :
    pages size (xs ++ ys) n = pages size xs n := by
  refine List.map_congr_left fun i mem => ?_
  rw [List.mem_range] at mem
  have := Nat.mul_le_mul_right size (show i + 1 ≤ n by omega)
  rw [Nat.add_mul, Nat.one_mul] at this
  rw [page, page, List.drop_append_of_le_length (by omega), List.take_append_of_le_length]
  rw [List.length_drop]
  omega

end Paging
