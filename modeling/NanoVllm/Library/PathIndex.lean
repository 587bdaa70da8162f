import Mathlib.Data.List.Basic
import Mathlib.Data.List.Nodup
import Mathlib.Data.List.Infix
import Mathlib.Tactic.Common

/-!
# Longest matches in a map of paths

A prefix index is a partial map from paths to values. Looking a path up yields the values of
its longest chain of prefixes which are all in the map. This file develops that notion for an
arbitrary map: longest matches are unique, they shorten with the path, and they survive every
change of the map which keeps their values and adds nothing.
-/

namespace PathIndex

variable {K V : Type}

/-- The values of the longest chain of non-empty prefixes of `keys` found in a map. -/
structure IsLongestMatch (find : List K → Option V) (keys : List K) (matched : List V) :
    Prop where
  length_le : matched.length ≤ keys.length
  get : ∀ i value, matched[i]? = some value → find (keys.take (i + 1)) = some value
  stop : matched.length < keys.length → find (keys.take (matched.length + 1)) = none

/-- A map in which every value has at most one path. -/
def InjectiveIndex (find : List K → Option V) : Prop :=
  ∀ path path' value, find path = some value → find path' = some value → path = path'

/-- A map which is defined on the non-empty prefixes of each of its paths. -/
def PrefixClosed (find : List K → Option V) : Prop :=
  ∀ path path', path' ≠ [] → path' <+: path → find path ≠ none → find path' ≠ none

variable {find find' : List K → Option V} {keys : List K} {matched matched' : List V}

namespace IsLongestMatch

/-- Every prefix shorter than the match is in the map. -/
theorem found (longest : IsLongestMatch find keys matched) {i : ℕ}
    (short : i < matched.length) : find (keys.take (i + 1)) = some matched[i] :=
  longest.get i _ (List.getElem?_eq_getElem short)

theorem length_le_length (longest : IsLongestMatch find keys matched)
    (longest' : IsLongestMatch find keys matched') : matched.length ≤ matched'.length := by
  by_contra shorter
  have found := longest.found (Nat.lt_of_not_le shorter)
  have bound := longest.length_le
  have absent := longest'.stop (by omega)
  rw [absent] at found
  cases found

/-- A path has only one longest match. -/
theorem unique (longest : IsLongestMatch find keys matched)
    (longest' : IsLongestMatch find keys matched') : matched = matched' := by
  have sameLength : matched.length = matched'.length :=
    Nat.le_antisymm (longest.length_le_length longest') (longest'.length_le_length longest)
  refine List.ext_getElem sameLength fun i short short' => ?_
  have left := longest.found short
  have right := longest'.found short'
  rw [left] at right
  exact Option.some.inj right

/-- The values of a longest match are distinct when every value has one path. -/
theorem nodup (longest : IsLongestMatch find keys matched) (injective : InjectiveIndex find) :
    matched.Nodup := by
  rw [List.nodup_iff_getElem?_ne_getElem?]
  intro i j before short same
  have left := longest.found (Nat.lt_trans before short)
  have right := longest.found short
  rw [List.getElem?_eq_getElem (by omega), List.getElem?_eq_getElem short] at same
  rw [Option.some.inj same] at left
  have samePath := congrArg List.length (injective _ _ _ left right)
  have bound := longest.length_le
  simp only [List.length_take] at samePath
  omega

/-- A longest match survives when its values stay and nothing is added. -/
theorem transfer (longest : IsLongestMatch find keys matched)
    (kept : ∀ i value, matched[i]? = some value → find' (keys.take (i + 1)) = some value)
    (shrinks : ∀ path, find path = none → find' path = none) :
    IsLongestMatch find' keys matched where
  length_le := longest.length_le
  get := kept
  stop short := shrinks _ (longest.stop short)

/-- A longest match only depends on the prefixes of its path. -/
theorem agree (longest : IsLongestMatch find keys matched)
    (same : ∀ i, i < keys.length → find' (keys.take (i + 1)) = find (keys.take (i + 1))) :
    IsLongestMatch find' keys matched where
  length_le := longest.length_le
  get i value get := by
    have short := (List.getElem?_eq_some_iff.mp get).1
    have bound := longest.length_le
    rw [same i (by omega)]
    exact longest.get i value get
  stop short := by
    rw [same _ short]
    exact longest.stop short

/-- A chain of values followed by a longest match of what remains of the path. -/
theorem append {first : List V} (find' : List K → Option V) (length_le : first.length ≤ keys.length)
    (firstFound : ∀ i value, first[i]? = some value → find (keys.take (i + 1)) = some value)
    (below : ∀ i, i < keys.length - first.length →
      find (keys.take (first.length + i + 1)) = find' ((keys.drop first.length).take (i + 1)))
    (longest : IsLongestMatch find' (keys.drop first.length) matched) :
    IsLongestMatch find keys (first ++ matched) where
  length_le := by
    have := longest.length_le
    simp only [List.length_append, List.length_drop] at this ⊢
    omega
  get i value get := by
    rw [List.getElem?_append] at get
    split at get
    · exact firstFound i value get
    · have short := (List.getElem?_eq_some_iff.mp get).1
      have bound := longest.length_le
      simp only [List.length_drop] at bound
      have := below (i - first.length) (by omega)
      rw [show first.length + (i - first.length) + 1 = i + 1 by omega] at this
      rw [this]
      exact longest.get _ value get
  stop short := by
    simp only [List.length_append] at short ⊢
    have := below matched.length (by omega)
    rw [this]
    exact longest.stop (by simp only [List.length_drop]; omega)

theorem nil : IsLongestMatch find ([] : List K) [] where
  length_le := Nat.le_refl _
  get i value get := by simp at get
  stop short := by simp at short

/-- The match of a shorter path is a prefix of the match. -/
theorem take (longest : IsLongestMatch find keys matched) (n : ℕ) :
    IsLongestMatch find (keys.take n) (matched.take n) where
  length_le := by
    have := longest.length_le
    simp only [List.length_take]
    omega
  get i value get := by
    rw [List.getElem?_take] at get
    split at get
    · rw [List.take_take, Nat.min_eq_left (by omega)]
      exact longest.get i value get
    · cases get
  stop short := by
    simp only [List.length_take] at short
    have matchedShort : matched.length < n := by omega
    have absent := longest.stop (by omega)
    rwa [List.take_take, List.length_take, Nat.min_eq_right (by omega : matched.length ≤ n),
      Nat.min_eq_left (by omega)]

end IsLongestMatch

/-- The length of the longest chain of non-empty prefixes of a path which are all listed. -/
def chainLength [DecidableEq K] (listed : List (List K)) (keys : List K) : ℕ :=
  ((List.range keys.length).takeWhile fun k => keys.take (k + 1) ∈ listed).length

/-- A chain of listed prefixes which cannot be continued is the longest one. -/
theorem chainLength_eq [DecidableEq K] {listed : List (List K)} {n : ℕ}
    (bound : n ≤ keys.length) (chain : ∀ k < n, keys.take (k + 1) ∈ listed)
    (stop : n < keys.length → keys.take (n + 1) ∉ listed) : chainLength listed keys = n := by
  have split : List.range keys.length = List.range n ++ List.range' n (keys.length - n) := by
    have parts := List.range'_append_1 (s := 0) (m := n) (n := keys.length - n)
    rw [Nat.add_sub_cancel' bound, Nat.zero_add] at parts
    simpa [List.range_eq_range'] using parts.symm
  have ended : (List.range' n (keys.length - n)).takeWhile
      (fun k => decide (keys.take (k + 1) ∈ listed)) = [] := by
    rcases Nat.eq_or_lt_of_le bound with full | short
    · simp [full]
    · rw [show keys.length - n = keys.length - n - 1 + 1 by omega, List.range'_succ,
        List.takeWhile_cons_of_neg]
      simpa using stop short
  rw [chainLength, split, List.takeWhile_append_of_pos, ended, List.append_nil, List.length_range]
  intro k mem
  simpa using chain k (List.mem_range.mp mem)

/-- A longest match is as long as the longest chain of paths which the map knows. -/
theorem IsLongestMatch.length_eq_chainLength [DecidableEq K] {listed : List (List K)}
    (longest : IsLongestMatch find keys matched)
    (known : ∀ path, find path ≠ none ↔ path ∈ listed) :
    matched.length = chainLength listed keys := by
  symm
  apply chainLength_eq longest.length_le
  · intro k short
    rw [← known, longest.found short]
    exact Option.some_ne_none _
  · intro short
    rw [← known, longest.stop short]
    simp

/-! ## Adding and removing paths -/

/-- Add the prefixes of a path which are not in a map yet. -/
def insertPath [DecidableEq K] (find : List K → Option V) (keys : List K) (values : List V)
    (path : List K) : Option V :=
  (find path).or (if path ≠ [] ∧ path <+: keys then values[path.length - 1]? else none)

/-- Remove the path of a value together with its extensions. -/
def removeValue [DecidableEq V] (find : List K → Option V) (value : V) (path : List K) :
    Option V :=
  if ∃ ancestor ∈ path.inits, find ancestor = some value then none else find path

theorem insertPath_of_found [DecidableEq K] {values : List V} {path : List K} {value : V}
    (found : find path = some value) : insertPath find keys values path = some value := by
  simp [insertPath, found]

theorem insertPath_ne_none_iff [DecidableEq K] {values : List V}
    (sameLength : keys.length = values.length) {path : List K} :
    insertPath find keys values path ≠ none ↔
      find path ≠ none ∨ (path ≠ [] ∧ path <+: keys) := by
  unfold insertPath
  cases found : find path with
  | some value => simp
  | none =>
    simp only [Option.none_or, ne_eq, not_true_eq_false, false_or]
    split
    · next inside =>
      have positive := List.length_pos_iff.mpr inside.1
      have bound := inside.2.length_le
      simp only [List.getElem?_eq_none_iff, Nat.not_le]
      exact iff_of_true (by omega) inside
    · next outside =>
      simp only [not_true_eq_false, false_iff]
      exact outside

theorem removeValue_eq_some_iff [DecidableEq V] {value value' : V} {path : List K} :
    removeValue find value path = some value' ↔
      find path = some value' ∧ ∀ ancestor, ancestor <+: path → find ancestor ≠ some value := by
  unfold removeValue
  split
  · next hit =>
    rcases hit with ⟨ancestor, mem, found⟩
    simp only [reduceCtorEq, false_iff, not_and, not_forall]
    intro _
    exact ⟨ancestor, (List.mem_inits _ _).mp mem, fun absent => absent found⟩
  · next missed =>
    refine ⟨fun found => ⟨found, ?_⟩, And.left⟩
    intro ancestor isPrefix found'
    exact missed ⟨ancestor, (List.mem_inits _ _).mpr isPrefix, found'⟩

theorem PrefixClosed.insertPath [DecidableEq K] {values : List V} (closed : PrefixClosed find)
    (sameLength : keys.length = values.length) : PrefixClosed (insertPath find keys values) := by
  intro path path' path'_ne isPrefix found
  rw [insertPath_ne_none_iff sameLength] at found ⊢
  rcases found with old | ⟨-, inside⟩
  · exact .inl (closed path path' path'_ne isPrefix old)
  · exact .inr ⟨path'_ne, isPrefix.trans inside⟩

theorem PrefixClosed.removeValue [DecidableEq V] (closed : PrefixClosed find) (value : V) :
    PrefixClosed (removeValue find value) := by
  intro path path' path'_ne isPrefix found
  rw [Option.ne_none_iff_exists'] at found
  rcases found with ⟨stored, found⟩
  rw [removeValue_eq_some_iff] at found
  have found' := closed path path' path'_ne isPrefix (by simp [found.1])
  rw [Option.ne_none_iff_exists'] at found'
  rcases found' with ⟨stored', found'⟩
  have kept : PathIndex.removeValue find value path' = some stored' :=
    removeValue_eq_some_iff.mpr
      ⟨found', fun ancestor inside => found.2 ancestor (inside.trans isPrefix)⟩
  simp [kept]

/-- In a prefix-closed map a longest match ends at the longest prefix in the map. -/
theorem IsLongestMatch.none_beyond (longest : IsLongestMatch find keys matched)
    (closed : PrefixClosed find) {n : ℕ} (beyond : matched.length < n) (bound : n ≤ keys.length) :
    find (keys.take n) = none := by
  by_contra found
  have absent := longest.stop (by omega)
  refine closed _ (keys.take (matched.length + 1)) ?_ ?_ found absent
  · intro empty
    have := congrArg List.length empty
    simp only [List.length_take, List.length_nil] at this
    omega
  · exact List.take_prefix_take_left (by omega)

end PathIndex
