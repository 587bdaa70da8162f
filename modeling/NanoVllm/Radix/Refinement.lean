import NanoVllm.Radix.Cache
import Mathlib.Data.Set.Finite.Basic
import Mathlib.Data.Set.Finite.Lattice

/-!
# Runs of the radix prefix cache

`match`, `insert` and `remove_block` in any order, starting from the empty cache. A run may only
insert ids which are new to the cache wherever they are newly indexed. The map `find` which the
tree represents then follows the operations of a finite prefix-closed map.
-/

namespace NanoVllm

open PathIndex

/-- The operations of the cache. -/
inductive RadixOp (K : Type) where
  | insert (keys : List K) (blockIds : List BlockId)
  | lookup (keys : List K)
  | removeBlock (blockId : BlockId)

namespace RadixPrefixCache

variable {K : Type} [DecidableEq K]

/-- The cache after an operation. An `insert` which raises leaves the cache as it was. -/
def apply (cache : RadixPrefixCache K) : RadixOp K → RadixPrefixCache K
  | .insert keys blockIds =>
      match cache.insert keys blockIds with
      | .ok cache' => cache'
      | .error _ => cache
  | .lookup keys => (cache.matchKeys keys).1
  | .removeBlock blockId => (cache.removeBlock blockId).1

/-- The ids which an `insert` newly indexes are distinct and not indexed already. -/
structure FreshIds (cache : RadixPrefixCache K) (keys : List K) (blockIds : List BlockId) :
    Prop where
  fresh : ∀ i blockId, blockIds[i]? = some blockId → cache.find (keys.take (i + 1)) = none →
    ∀ path, cache.find path ≠ some blockId
  distinct : ∀ i j blockId, blockIds[i]? = some blockId → blockIds[j]? = some blockId →
    cache.find (keys.take (i + 1)) = none → cache.find (keys.take (j + 1)) = none → i = j

/-- The precondition of an operation. -/
def Fresh (cache : RadixPrefixCache K) : RadixOp K → Prop
  | .insert keys blockIds => cache.FreshIds keys blockIds
  | .lookup _ => True
  | .removeBlock _ => True

/-- The caches reached from the empty cache by operations which satisfy a condition. -/
inductive ReachableBy (Allowed : RadixPrefixCache K → RadixOp K → Prop) :
    RadixPrefixCache K → Prop
  | empty : ReachableBy Allowed .empty
  | step {cache : RadixPrefixCache K} {op : RadixOp K} (reachable : ReachableBy Allowed cache)
      (allowed : Allowed cache op) : ReachableBy Allowed (cache.apply op)

variable {cache : RadixPrefixCache K} {keys : List K} {blockIds : List BlockId}

/-- An `insert` raises on ids which do not fit the keys or repeat, and changes nothing. -/
theorem apply_insert_rejected (bad : ¬(keys.length = blockIds.length ∧ blockIds.Nodup)) :
    (∃ error, cache.insert keys blockIds = .error error) ∧
      cache.apply (.insert keys blockIds) = cache := by
  have raises : ∃ error, cache.insert keys blockIds = .error error := by
    unfold RadixPrefixCache.insert
    split
    · exact ⟨_, rfl⟩
    · next sameLength =>
      rw [not_not] at sameLength
      split
      · next empty =>
        have none : blockIds = [] := List.eq_nil_of_length_eq_zero (by simp [← sameLength, empty])
        exact absurd ⟨sameLength, none ▸ List.nodup_nil⟩ bad
      · rw [if_pos fun distinct => bad ⟨sameLength, distinct⟩]
        exact ⟨_, rfl⟩
  rcases raises with ⟨error, raised⟩
  exact ⟨⟨error, raised⟩, by simp only [RadixPrefixCache.apply, raised]⟩

theorem Valid.insert_ok (valid : cache.Valid) (fresh : cache.FreshIds keys blockIds)
    (sameLength : keys.length = blockIds.length) (distinct : blockIds.Nodup) :
    ∃ cache', cache.insert keys blockIds = .ok cache' ∧ cache'.Valid ∧
      cache'.find = insertPath cache.find keys blockIds := by
  rcases valid.insert sameLength distinct fresh.fresh with ⟨cache', inserted, valid', found⟩
  exact ⟨cache', inserted, valid', funext found⟩

/-- An operation keeps the cache valid and its map finite and prefix-closed. -/
theorem Valid.apply (valid : cache.Valid) (closed : PrefixClosed cache.find)
    (finite : {path | cache.find path ≠ none}.Finite) {op : RadixOp K} (fresh : cache.Fresh op) :
    (cache.apply op).Valid ∧ PrefixClosed (cache.apply op).find ∧
      {path | (cache.apply op).find path ≠ none}.Finite := by
  cases op with
  | insert keys blockIds =>
    change cache.FreshIds keys blockIds at fresh
    by_cases good : keys.length = blockIds.length ∧ blockIds.Nodup
    · rcases valid.insert_ok fresh good.1 good.2 with ⟨cache', inserted, valid', found⟩
      have result : cache.apply (.insert keys blockIds) = cache' := by
        simp only [RadixPrefixCache.apply, inserted]
      rw [result, found]
      refine ⟨valid', closed.insertPath good.1, ?_⟩
      refine (finite.union (List.finite_toSet keys.inits)).subset ?_
      intro path stored
      rcases (insertPath_ne_none_iff good.1).mp stored with old | ⟨-, inside⟩
      · exact .inl old
      · exact .inr ((List.mem_inits _ _).mpr inside)
    · rw [(apply_insert_rejected good).2]
      exact ⟨valid, closed, finite⟩
  | lookup keys =>
    have same : (cache.apply (.lookup keys)).find = cache.find := funext (matchKeys_find keys)
    rw [same]
    exact ⟨valid.matchKeys keys, closed, finite⟩
  | removeBlock blockId =>
    rcases valid.removeBlock blockId with ⟨valid', removed⟩
    have same : (cache.apply (.removeBlock blockId)).find = removeValue cache.find blockId := by
      funext path
      apply Option.ext
      intro value
      rw [removeValue_eq_some_iff]
      exact removed path value
    rw [same]
    refine ⟨valid', closed.removeValue blockId, finite.subset ?_⟩
    intro path stored
    rcases Option.ne_none_iff_exists'.mp stored with ⟨value, found⟩
    simp [(removeValue_eq_some_iff.mp found).1]

/-- Every run keeps the cache valid and its map finite and prefix-closed. -/
theorem ReachableBy.valid {Allowed : RadixPrefixCache K → RadixOp K → Prop}
    (reachable : ReachableBy Allowed cache)
    (fresh : ∀ cache op, Allowed cache op → cache.Fresh op) :
    cache.Valid ∧ PrefixClosed cache.find ∧ {path | cache.find path ≠ none}.Finite := by
  induction reachable with
  | empty =>
    refine ⟨empty_valid, ?_, ?_⟩
    · intro path path' _ _ found
      exact absurd (RadixForest.find_nil path) found
    · convert Set.finite_empty
      ext path
      simp [RadixPrefixCache.find, RadixPrefixCache.empty]
  | step _ allowed ih => exact ih.1.apply ih.2.1 ih.2.2 (fresh _ _ allowed)

/-- `match` returns the values of the longest prefix in the map. -/
theorem matchKeys_values (valid : cache.Valid) (closed : PrefixClosed cache.find)
    (keys : List K) :
    ∃ n ≤ keys.length,
      (cache.matchKeys keys).2.map some =
        (List.range n).map (fun i => cache.find (keys.take (i + 1))) ∧
      (n = 0 ∨ cache.find (keys.take n) ≠ none) ∧
      ∀ m, n < m → m ≤ keys.length → cache.find (keys.take m) = none := by
  have longest := matchKeys_isLongestMatch valid keys
  refine ⟨(cache.matchKeys keys).2.length, longest.length_le, ?_, ?_, ?_⟩
  · apply List.ext_getElem
    · simp
    · intro i short short'
      simp only [List.length_map] at short
      simp only [List.getElem_map, List.getElem_range]
      exact (longest.found short).symm
  · rcases Nat.eq_zero_or_pos (cache.matchKeys keys).2.length with none | positive
    · exact .inl none
    · right
      have found := longest.found (i := (cache.matchKeys keys).2.length - 1) (by omega)
      rw [Nat.sub_add_cancel positive] at found
      simp [found]
  · intro m beyond bound
    exact longest.none_beyond closed beyond bound

/-- `remove_block` of a block which is not indexed returns `False` and changes nothing. -/
theorem removeBlock_missing (valid : cache.Valid) {blockId : BlockId}
    (missing : ∀ path, cache.find path ≠ some blockId) :
    cache.removeBlock blockId = (cache, false) := by
  unfold RadixPrefixCache.removeBlock
  split
  · rfl
  · next location =>
    have indexed : cache.isIndexed blockId = true := by simp [isIndexed, location]
    rcases valid.isIndexed_iff.mp indexed with ⟨path, found⟩
    exact absurd found (missing path)

/-- `remove_block` of an indexed block returns `True` and removes the block's extensions. -/
theorem removeBlock_indexed (valid : cache.Valid) {blockId : BlockId} {path : List K}
    (found : cache.find path = some blockId) :
    (cache.removeBlock blockId).2 = true ∧
      (cache.removeBlock blockId).1.find = removeValue cache.find blockId := by
  constructor
  · have indexed := valid.isIndexed_iff.mpr ⟨path, found⟩
    unfold RadixPrefixCache.removeBlock
    split
    · next missing => simp [isIndexed, missing] at indexed
    · rfl
  · funext path'
    apply Option.ext
    intro value
    rw [removeValue_eq_some_iff]
    exact (valid.removeBlock blockId).2 path' value

/--
After every run of operations with fresh ids the cache is a finite prefix-closed map: `match`
returns the values of the longest prefix in the map and changes no entry, `insert` with distinct
ids adds exactly the missing prefixes, and `remove_block` removes exactly the entry of its block
with all extensions. An `insert` with repeated ids raises and changes nothing.
-/
theorem radixPrefixCache_refines_map (reachable : ReachableBy Fresh cache) :
    cache.find [] = none ∧ PrefixClosed cache.find ∧ {path | cache.find path ≠ none}.Finite ∧
      (∀ keys, (cache.matchKeys keys).1.find = cache.find ∧
        ∃ n ≤ keys.length,
          (cache.matchKeys keys).2.map some =
            (List.range n).map (fun i => cache.find (keys.take (i + 1))) ∧
          (n = 0 ∨ cache.find (keys.take n) ≠ none) ∧
          ∀ m, n < m → m ≤ keys.length → cache.find (keys.take m) = none) ∧
      (∀ keys blockIds, cache.FreshIds keys blockIds → keys.length = blockIds.length →
        (blockIds.Nodup → ∃ cache', cache.insert keys blockIds = .ok cache' ∧
          (∀ path, cache'.find path =
            if cache.find path = none ∧ path ≠ [] ∧ path <+: keys then
              blockIds[path.length - 1]?
            else cache.find path)) ∧
        (¬blockIds.Nodup → (∃ error, cache.insert keys blockIds = .error error) ∧
          cache.apply (.insert keys blockIds) = cache)) ∧
      (∀ blockId,
        ((∀ path, cache.find path ≠ some blockId) →
          cache.removeBlock blockId = (cache, false)) ∧
        ((∃ path, cache.find path = some blockId) → (cache.removeBlock blockId).2 = true ∧
          ∀ path, (cache.removeBlock blockId).1.find path =
            if ∃ ancestor ∈ path.inits, cache.find ancestor = some blockId then none
            else cache.find path)) := by
  rcases reachable.valid (fun _ _ fresh => fresh) with ⟨valid, closed, finite⟩
  refine ⟨RadixForest.find_empty _, closed, finite, ?_, ?_, ?_⟩
  · intro keys
    exact ⟨funext (matchKeys_find keys), matchKeys_values valid closed keys⟩
  · intro keys blockIds fresh sameLength
    constructor
    · intro distinct
      rcases valid.insert_ok fresh sameLength distinct with ⟨cache', inserted, -, found⟩
      refine ⟨cache', inserted, fun path => ?_⟩
      rw [found]
      unfold insertPath
      cases stored : cache.find path with
      | some blockId => simp
      | none => simp
    · intro repeats
      exact apply_insert_rejected fun good => repeats good.2
  · intro blockId
    constructor
    · exact removeBlock_missing valid
    · rintro ⟨path, found⟩
      rcases removeBlock_indexed valid found with ⟨removed, remains⟩
      exact ⟨removed, fun path' => congrFun remains path'⟩

/-- A cache with one page. -/
def onePage : RadixPrefixCache BlockKey := (empty : RadixPrefixCache BlockKey).apply
  (.insert [[1, 2]] [10])

theorem empty_freshIds {keys : List K} {blockId : BlockId} :
    (empty : RadixPrefixCache K).FreshIds keys [blockId] where
  fresh i blockId' _ _ path := by
    simp [RadixPrefixCache.find, RadixPrefixCache.empty]
  distinct i j blockId' get get' _ _ := by
    rcases List.getElem?_eq_some_iff.mp get with ⟨short, -⟩
    rcases List.getElem?_eq_some_iff.mp get' with ⟨short', -⟩
    simp only [List.length_singleton] at short short'
    omega

theorem onePage_reachable : ReachableBy Fresh onePage :=
  @ReachableBy.step _ _ _ _ (.insert [[1, 2]] [10]) .empty empty_freshIds

theorem radixPrefixCache_refines_map_onePage :
    PrefixClosed onePage.find ∧ (onePage.removeBlock 10).2 = true ∧
      onePage.removeBlock 11 = (onePage, false) := by
  have refines := radixPrefixCache_refines_map onePage_reachable
  refine ⟨refines.2.1, ((refines.2.2.2.2.2 10).2 ⟨[[1, 2]], rfl⟩).1,
    (refines.2.2.2.2.2 11).1 ?_⟩
  intro path found
  rcases (RadixForest.mem_allBlockIds_of_find found) with stored
  simp [onePage, RadixPrefixCache.apply, RadixPrefixCache.insert, RadixPrefixCache.empty,
    RadixForest.insertKeys, RadixForest.allBlockIds] at stored

/--
The ids which an `insert` newly indexes may be distinct and fresh although the ids it passes are
not distinct; then it raises and the missing prefix is not added.
-/
theorem insert_rejects_repeated_ids :
    ReachableBy Fresh onePage ∧ onePage.FreshIds [[1, 2], [3, 4]] [20, 20] ∧
      onePage.find [[1, 2], [3, 4]] = none ∧
      onePage.insert [[1, 2], [3, 4]] [20, 20] =
        .error (.valueError "a radix path cannot contain duplicate block ids") ∧
      (onePage.apply (.insert [[1, 2], [3, 4]] [20, 20])).find [[1, 2], [3, 4]] = none := by
  refine ⟨onePage_reachable, ⟨?_, ?_⟩, rfl, rfl, rfl⟩
  · intro i blockId get absent path found
    have stored := RadixForest.mem_allBlockIds_of_find found
    have mem := List.mem_of_getElem? get
    simp only [List.mem_cons, List.not_mem_nil, or_false, or_self] at mem
    subst mem
    simp [onePage, RadixPrefixCache.apply, RadixPrefixCache.insert, RadixPrefixCache.empty,
      RadixForest.insertKeys, RadixForest.allBlockIds] at stored
  · intro i j blockId get get' absent absent'
    rcases List.getElem?_eq_some_iff.mp get with ⟨short, -⟩
    rcases List.getElem?_eq_some_iff.mp get' with ⟨short', -⟩
    simp only [List.length_cons, List.length_nil] at short short'
    have notFirst : ∀ n, onePage.find (List.take (n + 1) [[1, 2], [3, 4]]) = none → n ≠ 0 := by
      rintro n missing rfl
      cases missing
    have := notFirst i absent
    have := notFirst j absent'
    omega

end RadixPrefixCache

end NanoVllm
