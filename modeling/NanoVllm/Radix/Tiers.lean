import Mathlib.Data.List.MinMax
import Mathlib.Data.Prod.Lex
import NanoVllm.HierarchicalCache
import NanoVllm.Radix.Refinement

/-!
# A radix index for each tier

`HierarchicalRadixCache` keeps an index of its own for each tier, so the operations on one tier leave
the maps of the others. A match looks into all of them, and the longest one is taken from the
fastest tier which has it.
-/

namespace NanoVllm

open PathIndex

/-- `TierMatch`. -/
structure TierMatch where
  tier : CacheTier
  handles : List BlockId
  deriving DecidableEq, Repr

def TierMatch.numBlocks (found : TierMatch) : ℕ := found.handles.length

/-- `tier_order`. -/
def CacheTier.order : CacheTier → ℕ
  | .gpu => 0
  | .cpu => 1
  | .mooncake => 2

/-- The tiers in the order of their definition. -/
def CacheTier.all : List CacheTier := [.gpu, .cpu, .mooncake]

theorem CacheTier.mem_all (tier : CacheTier) : tier ∈ all := by
  cases tier <;> decide

theorem CacheTier.order_le (tier : CacheTier) : tier.order ≤ 2 := by
  cases tier <;> decide

/-- The key by which `longest_match` compares, with `2 - order` for `-order`. -/
def TierMatch.key (found : TierMatch) : ℕ ×ₗ ℕ := toLex (found.numBlocks, 2 - found.tier.order)

/-- `HierarchicalRadixCache`. -/
structure HierarchicalRadixCache (K : Type) where
  indexes : CacheTier → RadixPrefixCache K

/-- The operations of the cache. -/
inductive TierOp (K : Type) where
  | insert (tier : CacheTier) (keys : List K) (handles : List BlockId)
  | lookup (keys : List K)
  | longestMatch (keys : List K)
  | remove (tier : CacheTier) (handle : BlockId)

namespace HierarchicalRadixCache

variable {K : Type}

def empty : HierarchicalRadixCache K where
  indexes := fun _ => .empty

/-- The map of a tier. -/
def find [DecidableEq K] (cache : HierarchicalRadixCache K) (tier : CacheTier) (path : List K) :
    Option BlockId :=
  (cache.indexes tier).find path

/-- `remove`. -/
def remove (cache : HierarchicalRadixCache K) (tier : CacheTier) (handle : BlockId) :
    HierarchicalRadixCache K × Bool :=
  let removed := (cache.indexes tier).removeBlock handle
  ({ indexes := Function.update cache.indexes tier removed.1 }, removed.2)

variable [DecidableEq K]

/-- `insert`. -/
def insert (cache : HierarchicalRadixCache K) (tier : CacheTier) (keys : List K)
    (handles : List BlockId) : Py (HierarchicalRadixCache K) := do
  let index ← (cache.indexes tier).insert keys handles
  .ok { indexes := Function.update cache.indexes tier index }

/-- `match`. -/
def matchKeys (cache : HierarchicalRadixCache K) (keys : List K) :
    HierarchicalRadixCache K × (CacheTier → TierMatch) :=
  ({ indexes := fun tier => ((cache.indexes tier).matchKeys keys).1 },
    fun tier => ⟨tier, ((cache.indexes tier).matchKeys keys).2⟩)

/-- `longest_match`. -/
def longestMatch (cache : HierarchicalRadixCache K) (keys : List K) :
    HierarchicalRadixCache K × Option TierMatch :=
  let matched := cache.matchKeys keys
  let best := (CacheTier.all.map matched.2).argmax TierMatch.key
  (matched.1, best.filter fun found => found.numBlocks ≠ 0)

/-- The cache after an operation. An `insert` which raises leaves the cache as it was. -/
def apply (cache : HierarchicalRadixCache K) : TierOp K → HierarchicalRadixCache K
  | .insert tier keys handles =>
      match cache.insert tier keys handles with
      | .ok cache' => cache'
      | .error _ => cache
  | .lookup keys => (cache.matchKeys keys).1
  | .longestMatch keys => (cache.longestMatch keys).1
  | .remove tier handle => (cache.remove tier handle).1

/-- An `insert` indexes handles which are new to its tier. -/
def Fresh (cache : HierarchicalRadixCache K) : TierOp K → Prop
  | .insert tier keys handles => (cache.indexes tier).FreshIds keys handles
  | .lookup _ | .longestMatch _ | .remove _ _ => True

/-- The caches reached from the empty cache. -/
inductive Reachable : HierarchicalRadixCache K → Prop
  | empty : Reachable .empty
  | step {cache : HierarchicalRadixCache K} {op : TierOp K} (reachable : Reachable cache)
      (fresh : cache.Fresh op) : Reachable (cache.apply op)

variable {cache cache' : HierarchicalRadixCache K} {keys : List K} {tier : CacheTier}

/-! ## The index of a tier -/

/-- An operation is at most one operation on the index of each tier. -/
theorem step_index (op : TierOp K) (fresh : cache.Fresh op) (tier : CacheTier) :
    (cache.apply op).indexes tier = cache.indexes tier ∨ ∃ radixOp,
      (cache.indexes tier).Fresh radixOp ∧
        (cache.apply op).indexes tier = (cache.indexes tier).apply radixOp := by
  cases op with
  | insert tier' keys handles =>
    by_cases same : tier = tier'
    · subst same
      refine .inr ⟨.insert keys handles, fresh, ?_⟩
      rw [apply, insert, RadixPrefixCache.apply]
      cases (cache.indexes tier).insert keys handles with
      | error => rfl
      | ok index => exact Function.update_self _ _ _
    · left
      rw [apply, insert]
      cases (cache.indexes tier').insert keys handles with
      | error => rfl
      | ok index => exact Function.update_of_ne same _ _
  | lookup keys => exact .inr ⟨.lookup keys, trivial, rfl⟩
  | longestMatch keys => exact .inr ⟨.lookup keys, trivial, rfl⟩
  | remove tier' handle =>
    by_cases same : tier = tier'
    · subst same
      exact .inr ⟨.removeBlock handle, trivial, Function.update_self _ _ _⟩
    · exact .inl (Function.update_of_ne same _ _)

/-- The index of each tier is a radix prefix cache after some operations. -/
theorem Reachable.index (reachable : Reachable cache) (tier : CacheTier) :
    RadixPrefixCache.ReachableBy RadixPrefixCache.Fresh (cache.indexes tier) := by
  induction reachable with
  | empty => exact .empty
  | @step cache op _ fresh ih =>
    rcases step_index op fresh tier with same | ⟨radixOp, allowed, applied⟩
    · rw [same]
      exact ih
    · rw [applied]
      exact ih.step allowed

theorem Reachable.valid (reachable : Reachable cache) (tier : CacheTier) :
    (cache.indexes tier).Valid ∧ PrefixClosed (cache.find tier) := by
  rcases (reachable.index tier).valid fun _ _ fresh => fresh with ⟨valid, closed, -⟩
  exact ⟨valid, closed⟩

/-! ## The longest match -/

/-- A longest match of all tiers, which the fastest one of them has. -/
structure IsBest (cache : HierarchicalRadixCache K) (keys : List K) (best : TierMatch) : Prop where
  positive : 0 < best.numBlocks
  longest : IsLongestMatch (cache.find best.tier) keys best.handles
  others : ∀ tier n, best.numBlocks < n → n ≤ keys.length → cache.find tier (keys.take n) = none
  fastest : ∀ tier, cache.find tier (keys.take best.numBlocks) ≠ none →
    best.tier.order ≤ tier.order

/-- The match of a tier is longer than that of another, or as long and its tier is not slower. -/
theorem le_of_key {found best : TierMatch} (le : found.key ≤ best.key) :
    found.numBlocks ≤ best.numBlocks ∧
      (found.numBlocks = best.numBlocks → best.tier.order ≤ found.tier.order) := by
  rcases Prod.Lex.toLex_le_toLex.mp le with shorter | ⟨same, slower⟩
  · exact ⟨shorter.le, fun same => absurd same shorter.ne⟩
  · refine ⟨same.le, fun _ => ?_⟩
    have inside := best.tier.order_le
    omega

theorem exists_best (cache : HierarchicalRadixCache K) (keys : List K) : ∃ tier,
    (cache.longestMatch keys).2 =
        (if ((cache.matchKeys keys).2 tier).numBlocks = 0 then none
        else some ((cache.matchKeys keys).2 tier)) ∧
      ∀ other, ((cache.matchKeys keys).2 other).numBlocks ≤
          ((cache.matchKeys keys).2 tier).numBlocks ∧
        (((cache.matchKeys keys).2 other).numBlocks = ((cache.matchKeys keys).2 tier).numBlocks →
          tier.order ≤ other.order) := by
  unfold longestMatch
  dsimp only
  cases chosen : (CacheTier.all.map (cache.matchKeys keys).2).argmax TierMatch.key with
  | none =>
    rw [List.argmax_eq_none] at chosen
    cases chosen
  | some best =>
    rcases List.mem_map.mp (List.argmax_mem chosen) with ⟨tier, -, rfl⟩
    refine ⟨tier, ?_, ?_⟩
    · by_cases none : ((cache.matchKeys keys).2 tier).numBlocks = 0 <;> simp [none]
    · intro other
      have mem : (cache.matchKeys keys).2 other ∈ CacheTier.all.map (cache.matchKeys keys).2 :=
        List.mem_map_of_mem (CacheTier.mem_all other)
      have le := List.le_of_mem_argmax mem chosen
      exact le_of_key le

theorem Reachable.longestMatch (reachable : Reachable cache) (keys : List K) :
    (∀ best, (cache.longestMatch keys).2 = some best → cache.IsBest keys best) ∧
      ((cache.longestMatch keys).2 = none → ∀ tier n, 0 < n → n ≤ keys.length →
        cache.find tier (keys.take n) = none) := by
  have longest : ∀ tier, IsLongestMatch (cache.find tier) keys
      ((cache.matchKeys keys).2 tier).handles := fun tier =>
    RadixPrefixCache.matchKeys_isLongestMatch (reachable.valid tier).1 keys
  rcases exists_best cache keys with ⟨tier, chosen, best⟩
  rw [chosen]
  constructor
  · intro found isFound
    split at isFound
    · cases isFound
    · next some =>
      cases isFound
      refine ⟨Nat.pos_of_ne_zero some, longest tier, ?_, ?_⟩
      · intro other n beyond bound
        exact (longest other).none_beyond (reachable.valid other).2
          ((best other).1.trans_lt beyond) bound
      · intro other isIn
        apply (best other).2
        apply le_antisymm (best other).1
        by_contra shorter
        exact isIn ((longest other).none_beyond (reachable.valid other).2 (not_le.mp shorter)
          (longest tier).length_le)
  · intro isNone other n positive bound
    split at isNone
    · next none =>
      apply (longest other).none_beyond (reachable.valid other).2 _ bound
      exact (Nat.le_zero.mp (none ▸ (best other).1)).trans_lt positive
    · cases isNone

/-! ## The maps of the tiers -/

theorem find_update (tier : CacheTier) (index : RadixPrefixCache K) :
    ({ indexes := Function.update cache.indexes tier index } : HierarchicalRadixCache K).find =
      Function.update cache.find tier index.find := by
  funext other
  by_cases same : other = tier
  · subst same
    funext path
    simp only [find, Function.update_self]
  · funext path
    simp only [find, Function.update_of_ne same]

/--
After every run with fresh handles each tier is a prefix-closed map of its own. `insert` adds the
missing prefixes to one map, and `remove` takes a handle with all extensions out of one map. `match`
returns the longest match of each map, `longest_match` the longest one of the fastest tier, and
neither changes a map.
-/
theorem tiers_refine_maps (reachable : Reachable cache) :
    (∀ tier, PrefixClosed (cache.find tier)) ∧
      (∀ tier keys handles, (cache.indexes tier).FreshIds keys handles →
        keys.length = handles.length → handles.Nodup →
          ∃ cache', cache.insert tier keys handles = .ok cache' ∧
            cache'.find =
              Function.update cache.find tier (insertPath (cache.find tier) keys handles)) ∧
      (∀ tier handle, ((cache.remove tier handle).2 = true ↔
          ∃ path, cache.find tier path = some handle) ∧
        (cache.remove tier handle).1.find =
          Function.update cache.find tier (removeValue (cache.find tier) handle)) ∧
      (∀ keys, (cache.matchKeys keys).1.find = cache.find ∧
        ∀ tier, IsLongestMatch (cache.find tier) keys ((cache.matchKeys keys).2 tier).handles) ∧
      ∀ keys, (cache.longestMatch keys).1.find = cache.find ∧
        (∀ best, (cache.longestMatch keys).2 = some best → cache.IsBest keys best) ∧
          ((cache.longestMatch keys).2 = none → ∀ tier n, 0 < n → n ≤ keys.length →
            cache.find tier (keys.take n) = none) := by
  have matched : ∀ keys, (cache.matchKeys keys).1.find = cache.find := by
    intro keys
    funext tier path
    exact RadixPrefixCache.matchKeys_find keys path
  refine ⟨fun tier => (reachable.valid tier).2, ?_, ?_, ?_, ?_⟩
  · intro tier keys handles fresh sameLength distinct
    rcases (reachable.valid tier).1.insert_ok fresh sameLength distinct with
      ⟨index, inserted, -, found⟩
    refine ⟨_, by rw [insert, inserted, Py.ok_bind], ?_⟩
    rw [find_update, found]
    rfl
  · intro tier handle
    have valid := (reachable.valid tier).1
    by_cases indexed : ∃ path, cache.find tier path = some handle
    · rcases indexed with ⟨path, found⟩
      rcases RadixPrefixCache.removeBlock_indexed valid found with ⟨removed, rest⟩
      refine ⟨iff_of_true removed ⟨path, found⟩, ?_⟩
      rw [remove, find_update, rest]
      rfl
    · have missing : ∀ path, (cache.indexes tier).find path ≠ some handle := by
        intro path found
        exact indexed ⟨path, found⟩
      have same := RadixPrefixCache.removeBlock_missing valid missing
      have unchanged : removeValue (cache.find tier) handle = cache.find tier := by
        funext path
        rw [removeValue, if_neg]
        rintro ⟨ancestor, -, found⟩
        exact missing ancestor found
      rw [remove, same, unchanged]
      refine ⟨iff_of_false Bool.false_ne_true indexed, ?_⟩
      rw [find_update]
      rfl
  · intro keys
    exact ⟨matched keys, fun tier =>
      RadixPrefixCache.matchKeys_isLongestMatch (reachable.valid tier).1 keys⟩
  · intro keys
    exact ⟨matched keys, reachable.longestMatch keys⟩

/-- One page on the GPU and in the store. -/
def twoTiers : HierarchicalRadixCache BlockKey :=
  (empty.apply (.insert .mooncake [[1, 2]] [20])).apply (.insert .gpu [[1, 2]] [10])

theorem twoTiers_reachable : Reachable twoTiers := by
  have first : Reachable ((empty : HierarchicalRadixCache BlockKey).apply
      (.insert .mooncake [[1, 2]] [20])) :=
    .step .empty RadixPrefixCache.empty_freshIds
  exact first.step RadixPrefixCache.empty_freshIds

theorem tiers_refine_maps_twoTiers :
    twoTiers.IsBest [[1, 2], [3, 4]] ⟨.gpu, [10]⟩ ∧ (twoTiers.remove .gpu 10).2 = true := by
  have refines := tiers_refine_maps twoTiers_reachable
  have chosen : (twoTiers.longestMatch [[1, 2], [3, 4]]).2 = some ⟨.gpu, [10]⟩ := by decide
  exact ⟨(refines.2.2.2.2 _).2.1 _ chosen, (refines.2.2.1 .gpu 10).1.mpr ⟨[[1, 2]], rfl⟩⟩

end HierarchicalRadixCache

end NanoVllm
