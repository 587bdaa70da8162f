import NanoVllm.BlockManager.Basic
import NanoVllm.Radix.Cache
import NanoVllm.Library.Paging

/-!
# The prefix index

The two backends implement one abstract object, a partial map from paths of page keys to
physical pages. A lookup returns the longest match of a path in the map. This file defines the
map, states when the data of the backend represent it, and proves what a lookup reads and what
the eviction of a page removes.
-/

namespace NanoVllm

open PathIndex

/-- The chained hash of a path of page keys. -/
def chainHash (cfg : Config) (path : List BlockKey) : Option ℕ :=
  path.foldl (fun prefixHash tokens => some (cfg.pageHash.computeHash tokens prefixHash)) none

@[simp] theorem chainHash_nil (cfg : Config) : chainHash cfg [] = none := rfl

theorem chainHash_append_singleton (cfg : Config) (path : List BlockKey) (tokens : BlockKey) :
    chainHash cfg (path ++ [tokens]) =
      some (cfg.pageHash.computeHash tokens (chainHash cfg path)) := by
  simp [chainHash]

/-- Without collisions the chained hash determines the path. -/
theorem chainHash_injective {cfg : Config} {path path' : List BlockKey}
    (same : chainHash cfg path = chainHash cfg path') : path = path' := by
  induction path using List.reverseRecOn generalizing path' with
  | nil =>
    cases path' using List.reverseRecOn with
    | nil => rfl
    | append_singleton path' tokens' =>
      rw [chainHash_append_singleton] at same
      cases same
  | append_singleton path tokens ih =>
    cases path' using List.reverseRecOn with
    | nil =>
      rw [chainHash_append_singleton] at same
      cases same
    | append_singleton path' tokens' =>
      rw [chainHash_append_singleton, chainHash_append_singleton, Option.some.injEq] at same
      obtain ⟨sameTokens, samePrefix⟩ := cfg.pageHash.collisionFree same
      rw [sameTokens, ih samePrefix]

namespace BlockManager

/-- The page the prefix index stores for a path of page keys. -/
def entry (cfg : Config) (bm : BlockManager) (path : List BlockKey) : Option BlockId :=
  match cfg.prefixCacheBackend with
  | .hash => (chainHash cfg path).bind bm.hashToBlockId
  | .radix => bm.radixCache.find path

/-- The data of the configured backend represent the map `entry`. -/
structure IndexValid (cfg : Config) (bm : BlockManager) : Prop where
  radix : cfg.prefixCacheBackend = .radix → bm.radixCache.Valid
  hash : cfg.prefixCacheBackend = .hash → ∀ h blockId, bm.hashToBlockId h = some blockId →
    (bm.blocks blockId).hash = some h ∧
      ∃ path, chainHash cfg path = some h ∧ path.getLast? = some (bm.blocks blockId).tokenIds

/-- A page which no path of the index leads to. -/
def Unindexed (cfg : Config) (bm : BlockManager) (blockId : BlockId) : Prop :=
  ∀ path, bm.entry cfg path ≠ some blockId

variable {cfg : Config} {bm bm' : BlockManager}

theorem entry_hash (backend : cfg.prefixCacheBackend = .hash) (path : List BlockKey) :
    bm.entry cfg path = (chainHash cfg path).bind bm.hashToBlockId := by
  simp [entry, backend]

theorem entry_radix (backend : cfg.prefixCacheBackend = .radix) (path : List BlockKey) :
    bm.entry cfg path = bm.radixCache.find path := by
  simp [entry, backend]

@[simp] theorem entry_nil : bm.entry cfg [] = none := by
  unfold entry
  split <;> simp [RadixPrefixCache.find]

/-- The index only depends on the data of the backends. -/
theorem entry_congr (hashToBlockId : bm'.hashToBlockId = bm.hashToBlockId)
    (radixCache : bm'.radixCache = bm.radixCache) (path : List BlockKey) :
    bm'.entry cfg path = bm.entry cfg path := by
  simp only [entry, hashToBlockId, radixCache]

namespace IndexValid

theorem init : IndexValid cfg (init cfg) where
  radix _ := RadixPrefixCache.empty_valid
  hash _ h blockId stored := by simp [BlockManager.init] at stored

/-- A page has one path. -/
theorem entry_injective (valid : bm.IndexValid cfg) : InjectiveIndex (bm.entry cfg) := by
  intro path path' value found found'
  cases backend : cfg.prefixCacheBackend with
  | hash =>
    rw [entry_hash backend, Option.bind_eq_some_iff] at found found'
    obtain ⟨h, chain, stored⟩ := found
    obtain ⟨h', chain', stored'⟩ := found'
    have hash := (valid.hash backend h value stored).1
    rw [(valid.hash backend h' value stored').1, Option.some.injEq] at hash
    subst hash
    exact chainHash_injective (chain.trans chain'.symm)
  | radix =>
    rw [entry_radix backend] at found found'
    exact (valid.radix backend).find_injective path path' value found found'

theorem matchHashChain_isLongestMatch (valid : bm.IndexValid cfg)
    (backend : cfg.prefixCacheBackend = .hash) (keys path : List BlockKey) :
    IsLongestMatch (fun rest => bm.entry cfg (path ++ rest)) keys
      (bm.matchHashChain cfg keys (chainHash cfg path)) := by
  induction keys generalizing path with
  | nil => exact .nil
  | cons tokens keys ih =>
    have chain := chainHash_append_singleton cfg path tokens
    simp only [matchHashChain]
    split
    · next missing =>
      refine ⟨Nat.zero_le _, by simp, fun _ => ?_⟩
      rw [List.length_nil, List.take_succ_cons, List.take_zero, entry_hash backend, chain]
      exact missing
    · next blockId stored =>
      obtain ⟨-, path', chain', last⟩ := valid.hash backend _ _ stored
      have samePath := chainHash_injective (chain'.trans chain.symm)
      have sameTokens : (bm.blocks blockId).tokenIds = tokens := by simpa [samePath] using last.symm
      rw [if_neg (not_not.mpr sameTokens), ← chain]
      change IsLongestMatch _ _ ([blockId] ++ _)
      refine IsLongestMatch.append _ (Nat.le_add_left _ _) ?_ ?_ (ih (path ++ [tokens]))
      · intro i value get
        obtain ⟨rfl, rfl⟩ : i = 0 ∧ blockId = value := by
          rcases i with _ | i
          · simpa using get
          · simp at get
        rw [List.take_succ_cons, List.take_zero, entry_hash backend, chain]
        exact stored
      · intro i _
        rw [List.length_singleton, Nat.add_comm 1 i, List.take_succ_cons]
        simp

/-- A lookup returns the longest match of its path. -/
theorem matchKeys_isLongestMatch (valid : bm.IndexValid cfg) (keys : List BlockKey) :
    IsLongestMatch (bm.entry cfg) keys (bm.matchKeys cfg keys).2 := by
  cases backend : cfg.prefixCacheBackend with
  | hash =>
    simpa [matchKeys, backend] using valid.matchHashChain_isLongestMatch backend keys []
  | radix =>
    simp only [matchKeys, backend]
    exact (RadixPrefixCache.matchKeys_isLongestMatch (valid.radix backend) keys).agree
      fun i _ => entry_radix backend _

end IndexValid

/-! ## Lookups -/

/-- Two states with the same pages and the same index, up to access times and pending plans. -/
structure SameMemory (cfg : Config) (bm bm' : BlockManager) : Prop where
  blocks : bm'.blocks = bm.blocks
  freeBlockIds : bm'.freeBlockIds = bm.freeBlockIds
  usedBlockIds : bm'.usedBlockIds = bm.usedBlockIds
  entry : ∀ path, bm'.entry cfg path = bm.entry cfg path
  index : bm.IndexValid cfg → bm'.IndexValid cfg

namespace SameMemory

theorem refl (cfg : Config) (bm : BlockManager) : SameMemory cfg bm bm :=
  ⟨rfl, rfl, rfl, fun _ => rfl, id⟩

theorem trans {bm'' : BlockManager} (first : SameMemory cfg bm bm')
    (second : SameMemory cfg bm' bm'') : SameMemory cfg bm bm'' where
  blocks := second.blocks.trans first.blocks
  freeBlockIds := second.freeBlockIds.trans first.freeBlockIds
  usedBlockIds := second.usedBlockIds.trans first.usedBlockIds
  entry path := (second.entry path).trans (first.entry path)
  index valid := second.index (first.index valid)

/-- Changing only the pending plans. -/
theorem of_plans (pendingMatches pendingResumeMatches : SeqId → Option (List BlockId)) :
    SameMemory cfg bm
      { bm with pendingMatches, pendingResumeMatches } :=
  ⟨rfl, rfl, rfl, fun _ => rfl, fun valid => ⟨valid.radix, valid.hash⟩⟩

end SameMemory

theorem matchKeys_sameMemory (keys : List BlockKey) :
    SameMemory cfg bm (bm.matchKeys cfg keys).1 := by
  cases backend : cfg.prefixCacheBackend with
  | hash =>
    simp only [matchKeys, backend]
    exact .refl cfg bm
  | radix =>
    simp only [matchKeys, backend]
    refine ⟨rfl, rfl, rfl, fun path => ?_, fun valid => ⟨fun _ => ?_, fun hash => ?_⟩⟩
    · rw [entry_radix backend, entry_radix backend]
      exact RadixPrefixCache.matchKeys_find keys path
    · exact (valid.radix backend).matchKeys keys
    · rw [backend] at hash
      cases hash

@[simp] theorem matchKeys_pendingMatches (keys : List BlockKey) :
    (bm.matchKeys cfg keys).1.pendingMatches = bm.pendingMatches := by
  simp only [matchKeys]
  split <;> rfl

@[simp] theorem matchKeys_pendingResumeMatches (keys : List BlockKey) :
    (bm.matchKeys cfg keys).1.pendingResumeMatches = bm.pendingResumeMatches := by
  simp only [matchKeys]
  split <;> rfl

/-! ## Eviction -/

/-- An entry whose own path does not go through a page. -/
def Avoids (cfg : Config) (bm : BlockManager) (blockId : BlockId) (path : List BlockKey) : Prop :=
  ∀ ancestor, ancestor <+: path → bm.entry cfg ancestor ≠ some blockId

/--
Eviction of a page unindexes it and adds nothing. It keeps every entry whose path does not go
through the page.
-/
structure Evicts (cfg : Config) (bm bm' : BlockManager) (blockId : BlockId) : Prop where
  unindexed : bm'.Unindexed cfg blockId
  shrinks : ∀ path value, bm'.entry cfg path = some value → bm.entry cfg path = some value
  keeps : ∀ path value, bm.entry cfg path = some value → bm.Avoids cfg blockId path →
    bm'.entry cfg path = some value

/-- Eviction only touches the data of the index. -/
theorem evict_eq (cfg : Config) (bm : BlockManager) (blockId : BlockId) :
    ∃ hashToBlockId radixCache,
      bm.evict cfg blockId = { bm with hashToBlockId, radixCache } := by
  unfold evict
  split
  · split
    · exact ⟨_, _, rfl⟩
    · split <;> exact ⟨_, _, rfl⟩
  · exact ⟨_, _, rfl⟩

@[simp] theorem evict_blocks (blockId : BlockId) :
    (bm.evict cfg blockId).blocks = bm.blocks := by
  obtain ⟨_, _, evicted⟩ := evict_eq cfg bm blockId
  rw [evicted]

@[simp] theorem evict_freeBlockIds (blockId : BlockId) :
    (bm.evict cfg blockId).freeBlockIds = bm.freeBlockIds := by
  obtain ⟨_, _, evicted⟩ := evict_eq cfg bm blockId
  rw [evicted]

@[simp] theorem evict_usedBlockIds (blockId : BlockId) :
    (bm.evict cfg blockId).usedBlockIds = bm.usedBlockIds := by
  obtain ⟨_, _, evicted⟩ := evict_eq cfg bm blockId
  rw [evicted]

@[simp] theorem evict_pendingMatches (blockId : BlockId) :
    (bm.evict cfg blockId).pendingMatches = bm.pendingMatches := by
  obtain ⟨_, _, evicted⟩ := evict_eq cfg bm blockId
  rw [evicted]

@[simp] theorem evict_pendingResumeMatches (blockId : BlockId) :
    (bm.evict cfg blockId).pendingResumeMatches = bm.pendingResumeMatches := by
  obtain ⟨_, _, evicted⟩ := evict_eq cfg bm blockId
  rw [evicted]

/-- The hash map of a valid index maps exactly one hash to an indexed page, the page's own. -/
theorem IndexValid.hash_eq (valid : bm.IndexValid cfg)
    (backend : cfg.prefixCacheBackend = .hash) {h : ℕ} {blockId : BlockId}
    (stored : bm.hashToBlockId h = some blockId) : (bm.blocks blockId).hash = some h :=
  (valid.hash backend h blockId stored).1

theorem evict_hashToBlockId (valid : bm.IndexValid cfg)
    (backend : cfg.prefixCacheBackend = .hash) (blockId : BlockId) (h : ℕ) :
    (bm.evict cfg blockId).hashToBlockId h =
      if bm.hashToBlockId h = some blockId then none else bm.hashToBlockId h := by
  simp only [evict, backend]
  split
  · next noHash =>
    rw [if_neg]
    intro stored
    rw [valid.hash_eq backend stored] at noHash
    cases noHash
  · next own ownHash =>
    split
    · next stored =>
      by_cases same : h = own
      · subst same
        simp [stored]
      · rw [if_neg]
        · exact Function.update_of_ne same _ _
        intro stored'
        rw [valid.hash_eq backend stored', Option.some.injEq] at ownHash
        exact same ownHash
    · next notStored =>
      rw [if_neg]
      intro stored
      have ownHash' := valid.hash_eq backend stored
      rw [ownHash, Option.some.injEq] at ownHash'
      exact notStored (ownHash' ▸ stored)

theorem evict_valid (valid : bm.IndexValid cfg) (blockId : BlockId) :
    (bm.evict cfg blockId).IndexValid cfg where
  radix backend := by
    simp only [evict, backend]
    exact ((valid.radix backend).removeBlock blockId).1
  hash backend h value stored := by
    rw [evict_hashToBlockId valid backend] at stored
    split at stored
    · cases stored
    · rw [evict_blocks]
      exact valid.hash backend h value stored

theorem evict_evicts (valid : bm.IndexValid cfg) (blockId : BlockId) :
    Evicts cfg bm (bm.evict cfg blockId) blockId := by
  cases backend : cfg.prefixCacheBackend with
  | hash =>
    refine ⟨fun path found => ?_, fun path value found => ?_, fun path value found avoids => ?_⟩
    all_goals
      rw [entry_hash backend, Option.bind_eq_some_iff] at found
      obtain ⟨h, chain, stored⟩ := found
    · rw [evict_hashToBlockId valid backend] at stored
      split at stored
      · cases stored
      · exact absurd stored ‹_›
    · rw [evict_hashToBlockId valid backend] at stored
      split at stored
      · cases stored
      · rw [entry_hash backend, chain]
        exact stored
    · rw [entry_hash backend, chain, Option.bind_some, evict_hashToBlockId valid backend,
        if_neg]
      · exact stored
      · intro hit
        refine avoids path (List.prefix_refl _) ?_
        rw [entry_hash backend, chain]
        exact hit
  | radix =>
    have spec := ((valid.radix backend).removeBlock blockId).2
    simp only [evict, backend]
    refine ⟨fun path found => ?_, fun path value found => ?_, fun path value found avoids => ?_⟩
    · rw [entry_radix backend, spec] at found
      exact found.2 path (List.prefix_refl _) found.1
    · rw [entry_radix backend] at found ⊢
      exact ((spec path value).mp found).1
    · rw [entry_radix backend] at found ⊢
      refine (spec path value).mpr ⟨found, fun ancestor isPrefix hit => ?_⟩
      exact avoids ancestor isPrefix ((entry_radix backend ancestor).trans hit)

/-- The contents of an unindexed page do not matter to the index. -/
theorem IndexValid.setBlock (valid : bm.IndexValid cfg) {blockId : BlockId}
    (unindexed : bm.Unindexed cfg blockId) (block : Block) :
    (bm.setBlock blockId block).IndexValid cfg where
  radix := valid.radix
  hash backend h value stored := by
    have old := valid.hash backend h value stored
    have differ : value ≠ blockId := by
      rintro rfl
      obtain ⟨-, path, chain, -⟩ := old
      refine unindexed path ?_
      rw [entry_hash backend, chain]
      exact stored
    simpa only [BlockManager.setBlock, Function.update_of_ne differ] using old

/-- Counters and lists do not matter to the index. -/
theorem IndexValid.congr (valid : bm.IndexValid cfg)
    (hashToBlockId : bm'.hashToBlockId = bm.hashToBlockId)
    (radixCache : bm'.radixCache = bm.radixCache)
    (hash : ∀ blockId, (bm'.blocks blockId).hash = (bm.blocks blockId).hash)
    (tokenIds : ∀ blockId, (bm'.blocks blockId).tokenIds = (bm.blocks blockId).tokenIds) :
    bm'.IndexValid cfg where
  radix backend := radixCache ▸ valid.radix backend
  hash backend h value stored := by
    rw [hashToBlockId] at stored
    rw [hash, tokenIds]
    exact valid.hash backend h value stored

end BlockManager

end NanoVllm
