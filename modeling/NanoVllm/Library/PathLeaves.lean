import NanoVllm.Library.PathIndex
import Mathlib.Data.List.Sort
import Mathlib.Data.List.Lex

/-!
# The leaves of a map of paths

A prefix-closed map is determined by its leaves, the paths which no path of the map extends,
together with the values along them. Inserting the leaves into the empty map in any order
rebuilds the map, and the sorted list of the leaves depends on the map alone.
-/

namespace PathIndex

variable {K V : Type} {find find' : List K → Option V} {path : List K} {values values' : List V}

/-- The values of the prefixes of a path, all of which are in the map. -/
structure Along (find : List K → Option V) (path : List K) (values : List V) : Prop where
  length_eq : values.length = path.length
  get : ∀ i value, values[i]? = some value → find (path.take (i + 1)) = some value

/-- A path of the map which no path of the map extends by one key. -/
def IsLeaf (find : List K → Option V) (path : List K) : Prop :=
  find path ≠ none ∧ ∀ key, find (path ++ [key]) = none

namespace Along

theorem nil : Along find [] [] where
  length_eq := rfl
  get i value get := by simp at get

theorem found (along : Along find path values) {i : ℕ} (short : i < path.length) :
    ∃ value, values[i]? = some value ∧ find (path.take (i + 1)) = some value := by
  have bound : i < values.length := by rw [along.length_eq]; exact short
  exact ⟨values[i], List.getElem?_eq_getElem bound,
    along.get i _ (List.getElem?_eq_getElem bound)⟩

/-- The values along a path are the values of a map. -/
theorem unique (along : Along find path values) (along' : Along find path values') :
    values = values' := by
  refine List.ext_getElem (along.length_eq.trans along'.length_eq.symm) fun i short short' => ?_
  have left := along.get i _ (List.getElem?_eq_getElem short)
  have right := along'.get i _ (List.getElem?_eq_getElem short')
  rw [left] at right
  exact Option.some.inj right

theorem congr (along : Along find path values)
    (same : ∀ i, i < path.length → find' (path.take (i + 1)) = find (path.take (i + 1))) :
    Along find' path values where
  length_eq := along.length_eq
  get i value get := by
    have short := (List.getElem?_eq_some_iff.mp get).1
    rw [along.length_eq] at short
    rw [same i short]
    exact along.get i value get

/-- The values of a non-empty prefix. -/
theorem value_eq (along : Along find path values) {path' : List K} (path'_ne : path' ≠ [])
    (isPrefix : path' <+: path) : find path' = values[path'.length - 1]? := by
  have positive := List.length_pos_iff.mpr path'_ne
  have bound := isPrefix.length_le
  rcases along.found (i := path'.length - 1) (by omega) with ⟨value, get, found⟩
  rw [Nat.sub_add_cancel positive, ← List.prefix_iff_eq_take.mp isPrefix] at found
  rw [get, found]

end Along

/-! ## Rebuilding a map from its leaves -/

/-- Insert paths with the values along them, one after the other. -/
def insertPaths [DecidableEq K] (find : List K → Option V)
    (leaves : List (List K × List V)) : List K → Option V :=
  leaves.foldl (fun find leaf => insertPath find leaf.1 leaf.2) find

/-- A path in the map keeps its value, and a path along one of the leaves gets the value there. -/
theorem insertPaths_eq [DecidableEq K] {start : List K → Option V}
    {leaves : List (List K × List V)} (along : ∀ leaf ∈ leaves, Along find leaf.1 leaf.2)
    (below : ∀ path value, start path = some value → find path = some value)
    (path : List K) (path_ne : path ≠ []) :
    insertPaths start leaves path =
      if start path ≠ none ∨ ∃ leaf ∈ leaves, path <+: leaf.1 then find path else none := by
  unfold insertPaths
  induction leaves generalizing start with
  | nil =>
    cases stored : start path with
    | none => simp [stored]
    | some value => simp [stored, below path value stored]
  | cons leaf leaves ih =>
    rw [List.forall_mem_cons] at along
    have inserted : ∀ path, path ≠ [] → insertPath start leaf.1 leaf.2 path =
        if start path ≠ none ∨ path <+: leaf.1 then find path else none := by
      intro path path_ne
      cases stored : start path with
      | some value =>
        rw [insertPath_of_found stored, if_pos (.inl nofun), below path value stored]
      | none =>
        by_cases inside : path <+: leaf.1
        · simp [insertPath, stored, path_ne, inside, along.1.value_eq path_ne inside]
        · simp [insertPath, stored, inside]
    have below' : ∀ path value, insertPath start leaf.1 leaf.2 path = some value →
        find path = some value := by
      intro path value got
      by_cases empty : path = []
      · subst empty
        refine below [] value ?_
        simpa [insertPath] using got
      · rw [inserted path empty] at got
        split at got
        · exact got
        · cases got
    rw [List.foldl_cons, ih along.2 below', inserted path path_ne]
    cases stored : find path with
    | none => simp
    | some value =>
      have start_or : (if start path ≠ none ∨ path <+: leaf.1 then some value else none) ≠ none ↔
          start path ≠ none ∨ path <+: leaf.1 := by simp [imp_iff_not_or]
      simp only [start_or, List.exists_mem_cons_iff, or_assoc]

/-- A map is rebuilt from paths of the map which cover it. -/
theorem insertPaths_none [DecidableEq K] {leaves : List (List K × List V)}
    (along : ∀ leaf ∈ leaves, Along find leaf.1 leaf.2)
    (covered : ∀ path, find path ≠ none → ∃ leaf ∈ leaves, path <+: leaf.1)
    (root : find [] = none) : insertPaths (fun _ => none) leaves = find := by
  funext path
  by_cases empty : path = []
  · subst empty
    rw [root]
    unfold insertPaths
    have unset : ∀ start : List K → Option V, start [] = none →
        leaves.foldl (fun find leaf => insertPath find leaf.1 leaf.2) start [] = none := by
      clear along covered
      induction leaves with
      | nil => exact fun _ unset => unset
      | cons leaf leaves ih => exact fun start unset => ih _ (by simp [insertPath, unset])
    exact unset _ rfl
  · have below : ∀ path value, (fun _ => none : List K → Option V) path = some value →
        find path = some value := by
      rintro _ _ ⟨⟩
    rw [insertPaths_eq along below path empty]
    by_cases found : find path = none
    · rw [found, ite_self]
    · rw [if_pos (.inr (covered path found))]

/-! ## The sorted leaves -/

/--
The paths listed in increasing order, with the values along them. Every path of the map is a
prefix of a listed path.
-/
structure ListsLeaves [LT K] (find : List K → Option V) (leaves : List (List K × List V)) :
    Prop where
  along : ∀ leaf ∈ leaves, Along find leaf.1 leaf.2
  isLeaf : ∀ leaf ∈ leaves, IsLeaf find leaf.1
  covers : ∀ path, find path ≠ none → ∃ leaf ∈ leaves, path <+: leaf.1
  increasing : leaves.Pairwise fun left right => left.1 < right.1

namespace ListsLeaves

variable [LinearOrder K] {leaves leaves' : List (List K × List V)}

/-- The listed paths are the leaves of the map. -/
theorem mem_iff (lists : ListsLeaves find leaves) (closed : PrefixClosed find) :
    path ∈ leaves.map Prod.fst ↔ IsLeaf find path := by
  rw [List.mem_map]
  constructor
  · rintro ⟨leaf, mem, rfl⟩
    exact lists.isLeaf leaf mem
  · rintro ⟨found, last⟩
    rcases lists.covers path found with ⟨leaf, mem, suffix, extends'⟩
    cases suffix with
    | nil => exact ⟨leaf, mem, by rw [← extends', List.append_nil]⟩
    | cons key suffix =>
      refine absurd (last key) (closed leaf.1 _ (by simp) ?_ (lists.isLeaf leaf mem).1)
      exact ⟨suffix, by rw [← extends', List.append_assoc, List.singleton_append]⟩

/-- Two listings of one map are equal. -/
theorem unique (lists : ListsLeaves find leaves) (lists' : ListsLeaves find leaves')
    (closed : PrefixClosed find) : leaves = leaves' := by
  have samePaths : leaves.map Prod.fst = leaves'.map Prod.fst := by
    refine List.Subset.antisymm_of_sortedLT ?_ ?_ ?_ ?_
    · exact fun path mem => (lists'.mem_iff closed).mpr ((lists.mem_iff closed).mp mem)
    · exact fun path mem => (lists.mem_iff closed).mpr ((lists'.mem_iff closed).mp mem)
    · exact (List.pairwise_map.mpr lists.increasing).sortedLT
    · exact (List.pairwise_map.mpr lists'.increasing).sortedLT
  have sameLength : leaves.length = leaves'.length := by
    simpa using congrArg List.length samePaths
  refine List.ext_getElem sameLength fun i short short' => ?_
  have paths : leaves[i].1 = leaves'[i].1 := by
    simpa [short, short'] using congrArg (·[i]?) samePaths
  have along := lists.along _ (List.getElem_mem short)
  have along' := lists'.along _ (List.getElem_mem short')
  rw [← paths] at along'
  exact Prod.ext paths (along.unique along')

end ListsLeaves

end PathIndex
