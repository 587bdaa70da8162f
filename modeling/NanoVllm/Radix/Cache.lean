import NanoVllm.Radix.Remove

/-!
# The radix prefix cache as a map

A valid cache stores every block once and its reverse index is exact. On valid caches the
three operations of the cache are operations on the map `find`: `match` reads a longest match,
`insert` adds the missing prefixes of a path, and `remove_block` removes the paths through a
block.
-/

namespace NanoVllm

open PathIndex

theorem RadixForest.leafCandidates_mem {K : Type} {forest : RadixForest K}
    {eligible : Finset BlockId} {candidate : ℕ × BlockId}
    (mem : candidate ∈ forest.leafCandidates eligible) : candidate.2 ∈ eligible := by
  induction forest with
  | nil => simp [leafCandidates] at mem
  | cons key node children rest ihChildren ihRest =>
    cases children with
    | nil =>
      simp only [leafCandidates, List.mem_append, List.mem_map] at mem
      rcases mem with ⟨found, isFound, rfl⟩ | mem
      · simpa using List.find?_some (Option.mem_toList.mp isFound)
      · exact ihRest mem
    | cons childKey child grandchildren siblings =>
      rw [leafCandidates, List.mem_append] at mem
      · exact mem.elim ihChildren ihRest
      · exact nofun

namespace RadixPrefixCache

variable {K : Type}

/-- The invariant of the cache. -/
structure Valid (cache : RadixPrefixCache K) : Prop where
  wellFormed : cache.root.WellFormed
  distinctBlocks : cache.root.allBlockIds.Nodup
  distinctNodes : cache.root.nodeIds.Nodup
  nodeId_lt : ∀ nodeId ∈ cache.root.nodeIds, nodeId < cache.tables.nextNode
  located : cache.root.Located cache.tables
  exact : ∀ blockId, cache.tables.blockLocations blockId ≠ none →
    blockId ∈ cache.root.allBlockIds

theorem empty_valid : (empty : RadixPrefixCache K).Valid where
  wellFormed := trivial
  distinctBlocks := List.nodup_nil
  distinctNodes := List.nodup_nil
  nodeId_lt nodeId mem := by simp [empty, RadixForest.nodeIds] at mem
  located := trivial
  exact blockId indexed := absurd rfl indexed

/-- The page a cache evicts by age is one of the eligible pages. -/
theorem lruLeafBlock_mem {cache : RadixPrefixCache K} {eligible : Finset BlockId}
    {blockId : BlockId} (picked : cache.lruLeafBlock eligible = some blockId) :
    blockId ∈ eligible := by
  rw [lruLeafBlock, Option.map_eq_some_iff] at picked
  obtain ⟨candidate, least, rfl⟩ := picked
  exact RadixForest.leafCandidates_mem (List.argmin_mem least)

variable [DecidableEq K] {cache : RadixPrefixCache K}

namespace Valid

theorem mem_allBlockIds_iff (valid : cache.Valid) {blockId : BlockId} :
    blockId ∈ cache.root.allBlockIds ↔ ∃ path, cache.find path = some blockId :=
  ⟨fun stored => valid.wellFormed.exists_find stored,
    fun ⟨_, found⟩ => RadixForest.mem_allBlockIds_of_find found⟩

/-- The reverse index knows exactly the blocks of the map. -/
theorem isIndexed_iff (valid : cache.Valid) {blockId : BlockId} :
    cache.isIndexed blockId = true ↔ ∃ path, cache.find path = some blockId := by
  rw [← valid.mem_allBlockIds_iff, isIndexed, Option.isSome_iff_ne_none]
  refine ⟨valid.exact blockId, fun stored => ?_⟩
  obtain ⟨nodeId, index, location, -⟩ := valid.located.holds stored
  simp [location]

theorem find_injective (valid : cache.Valid) : InjectiveIndex cache.find :=
  RadixForest.find_injective valid.distinctBlocks

theorem matchKeys (valid : cache.Valid) (keys : List K) :
    (cache.matchKeys keys).1.Valid := by
  have same := RadixForest.matchKeys_eraseAccess cache.root keys cache.tables.clock
  have blocks : (cache.matchKeys keys).1.root.allBlockIds = cache.root.allBlockIds := by
    rw [← RadixForest.eraseAccess_allBlockIds, ← RadixForest.eraseAccess_allBlockIds cache.root]
    exact congrArg RadixForest.allBlockIds same
  have nodes : (cache.matchKeys keys).1.root.nodeIds = cache.root.nodeIds := by
    rw [← RadixForest.eraseAccess_nodeIds, ← RadixForest.eraseAccess_nodeIds cache.root]
    exact congrArg RadixForest.nodeIds same
  refine ⟨?_, ?_, ?_, ?_, ?_, ?_⟩
  · rw [← RadixForest.eraseAccess_wellFormed]
    exact same ▸ (RadixForest.eraseAccess_wellFormed _).mpr valid.wellFormed
  · rw [blocks]
    exact valid.distinctBlocks
  · rw [nodes]
    exact valid.distinctNodes
  · rw [nodes]
    exact valid.nodeId_lt
  · rw [← RadixForest.eraseAccess_located]
    exact same ▸ (RadixForest.eraseAccess_located _ _).mpr (valid.located.mono fun _ _ => rfl)
  · rw [blocks]
    exact valid.exact

theorem removeBlock (valid : cache.Valid) (blockId : BlockId) :
    (cache.removeBlock blockId).1.Valid ∧ ∀ path value,
      (cache.removeBlock blockId).1.find path = some value ↔
        cache.find path = some value ∧ ∀ ancestor, ancestor <+: path →
          cache.find ancestor ≠ some blockId := by
  unfold RadixPrefixCache.removeBlock
  split
  · next missing =>
    refine ⟨valid, fun path value => ⟨fun found => ⟨found, fun ancestor _ hit => ?_⟩, And.left⟩⟩
    have indexed := valid.isIndexed_iff.mpr ⟨ancestor, hit⟩
    simp [isIndexed, missing] at indexed
  · next nodeId index location =>
    obtain ⟨nodeId', index', location', holds⟩ :=
      valid.located.holds (valid.exact blockId (by simp [location]))
    rw [location] at location'
    cases location'
    have removes := RadixForest.removeAt_removes holds valid.distinctNodes cache.tables
    have subset := removes.nodeIds_sublist.subset
    refine ⟨⟨removes.wellFormed valid.wellFormed,
      removes.allBlockIds_sublist.nodup valid.distinctBlocks,
      removes.nodeIds_sublist.nodup valid.distinctNodes,
      fun nodeId mem => ?_, removes.located valid.located valid.distinctBlocks,
      fun other indexed => ?_⟩, removes.find_eq_some_iff valid.wellFormed valid.distinctBlocks⟩
    · rw [removes.nextNode_eq]
      exact valid.nodeId_lt nodeId (subset mem)
    · by_contra removed
      refine indexed ?_
      by_cases stored : other ∈ cache.root.allBlockIds
      · exact removes.blockLocations_of_removed stored removed
      · rw [removes.blockLocations_of_not_mem stored]
        by_contra known
        exact stored (valid.exact other known)

theorem insert (valid : cache.Valid) {keys : List K} {blockIds : List BlockId}
    (sameLength : keys.length = blockIds.length) (distinct : blockIds.Nodup)
    (fresh : ∀ i blockId, blockIds[i]? = some blockId → cache.find (keys.take (i + 1)) = none →
      ∀ path, cache.find path ≠ some blockId) :
    ∃ cache', cache.insert keys blockIds = .ok cache' ∧ cache'.Valid ∧ ∀ path,
      cache'.find path =
        (cache.find path).or (RadixForest.insertedBlock keys blockIds path) := by
  unfold RadixPrefixCache.insert
  rw [if_neg (not_not.mpr sameLength)]
  by_cases empty : keys = []
  · subst empty
    rw [if_pos rfl]
    refine ⟨cache, rfl, valid, fun path => ?_⟩
    rw [RadixForest.insertedBlock, if_neg, Option.or_none]
    rintro ⟨path_ne, isPrefix⟩
    exact path_ne (List.prefix_nil.mp isPrefix)
  · rw [if_neg empty, if_neg (not_not.mpr distinct)]
    have inserts := RadixForest.insertKeys_inserts valid.wellFormed keys blockIds cache.tables
    obtain ⟨m, absent, perm⟩ := inserts.allBlockIds_perm valid.wellFormed sameLength
    obtain ⟨grows, permNodes⟩ := inserts.nodeIds_perm
    have distinctBlocks : (cache.root.allBlockIds ++ blockIds.drop m).Nodup := by
      refine List.nodup_append.mpr ⟨valid.distinctBlocks, (List.drop_sublist _ _).nodup distinct,
        fun old stored new mem same => ?_⟩
      subst same
      obtain ⟨i, get⟩ := List.mem_iff_getElem?.mp mem
      rw [List.getElem?_drop] at get
      have bound := (List.getElem?_eq_some_iff.mp get).1
      obtain ⟨path, found⟩ := valid.mem_allBlockIds_iff.mp stored
      exact fresh _ _ get (absent _ (by omega) (by omega)) path found
    have distinctBlocks' := perm.nodup_iff.mpr distinctBlocks
    refine ⟨_, rfl, ⟨inserts.wellFormed valid.wellFormed sameLength, distinctBlocks', ?_, ?_,
      inserts.located valid.located distinctBlocks', ?_⟩, inserts.find_eq valid.wellFormed⟩
    · refine permNodes.nodup_iff.mpr (List.nodup_append.mpr
        ⟨valid.distinctNodes, List.nodup_range', fun old mem new mem' same => ?_⟩)
      have := valid.nodeId_lt old mem
      rw [List.mem_range'_1] at mem'
      omega
    · intro nodeId mem
      rw [permNodes.mem_iff, List.mem_append, List.mem_range'_1] at mem
      rcases mem with old | new
      · exact (valid.nodeId_lt nodeId old).trans_le grows
      · change nodeId < (cache.root.insertKeys keys blockIds cache.tables).2.nextNode
        omega
    · intro blockId indexed
      by_contra removed
      refine indexed ?_
      refine (inserts.blockLocations_of_not_mem removed).trans ?_
      by_contra known
      refine removed (perm.mem_iff.mpr (List.mem_append_left _ (valid.exact blockId known)))

end Valid

/-- A returned insertion has kept every entry and added the missing prefixes of its path. -/
theorem insert_find {cache' : RadixPrefixCache K} {keys : List K} {blockIds : List BlockId}
    (valid : cache.Valid) (inserted : cache.insert keys blockIds = .ok cache') (path : List K) :
    keys.length = blockIds.length ∧
      cache'.find path = (cache.find path).or (RadixForest.insertedBlock keys blockIds path) := by
  simp only [insert, ne_eq, ite_not] at inserted
  split at inserted
  · next sameLength =>
    refine ⟨sameLength, ?_⟩
    split at inserted
    · next empty =>
      cases inserted
      rw [RadixForest.insertedBlock, if_neg, Option.or_none]
      rintro ⟨path_ne, isPrefix⟩
      exact path_ne (List.prefix_nil.mp (empty ▸ isPrefix))
    · split at inserted
      · cases inserted
        exact (RadixForest.insertKeys_inserts valid.wellFormed keys blockIds
          cache.tables).find_eq valid.wellFormed path
      · cases inserted
  · cases inserted

@[simp] theorem matchKeys_find (keys path : List K) :
    (cache.matchKeys keys).1.find path = cache.find path := by
  have same := RadixForest.matchKeys_eraseAccess cache.root keys cache.tables.clock
  rw [find, find, ← RadixForest.eraseAccess_find, ← RadixForest.eraseAccess_find cache.root]
  exact congrArg (RadixForest.find · path) same

theorem matchKeys_isLongestMatch (valid : cache.Valid) (keys : List K) :
    IsLongestMatch cache.find keys (cache.matchKeys keys).2 :=
  RadixForest.matchKeys_isLongestMatch valid.wellFormed keys cache.tables.clock

end RadixPrefixCache

end NanoVllm
