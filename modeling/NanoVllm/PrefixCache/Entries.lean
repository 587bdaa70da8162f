import NanoVllm.Memory.Admission
import NanoVllm.Memory.Publication

/-!
# The paths of the prefix index

Which paths the index knows after pages have been allocated or published. Allocating pages that
no path leads to changes no entry. Publishing adds the paths of the published pages and loses
none, whichever page the two backends keep for a path.
-/

namespace NanoVllm

open PathIndex

variable {cfg : Config} {bm bm' bm₁ : BlockManager} {seq : Sequence}

namespace BlockManager

/-! ## Allocation -/

variable {refs : BlockId → ℕ} {attached fresh table table' : List BlockId} {blockId : BlockId}

/-- Evicting a page which no path leads to changes no entry. -/
theorem Evicts.entry_eq (evicts : Evicts cfg bm bm' blockId) (unindexed : bm.Unindexed cfg blockId)
    (path : List BlockKey) : bm'.entry cfg path = bm.entry cfg path := by
  apply Option.ext
  intro value
  constructor
  · exact evicts.shrinks path value
  · intro found
    exact evicts.keeps path value found fun ancestor _ => unindexed ancestor

theorem allocateBlock_entry (index : bm.IndexValid cfg)
    (allocated : bm.allocateBlock cfg = .ok (bm', blockId)) :
    bm'.IndexValid cfg ∧ (∀ path value, bm'.entry cfg path = some value →
        bm.entry cfg path = some value) ∧
      bm.freeBlockIds ≠ [] ∧ bm'.freeBlockIds.length = bm.freeBlockIds.length - 1 ∧
      (bm.Unindexed cfg blockId → ∀ path, bm'.entry cfg path = bm.entry cfg path) := by
  simp only [allocateBlock] at allocated
  split at allocated
  · cases allocated
  · next picked isPicked =>
    split at allocated
    · cases allocated
    · cases allocated
      have free := pickFreeBlock_mem isPicked
      have index₁ : IndexValid cfg { bm with freeBlockIds := bm.freeBlockIds.erase blockId } :=
        ⟨index.radix, index.hash⟩
      have evicts := evict_evicts index₁ blockId
      have index₂ := (evict_valid index₁ blockId).setBlock evicts.unindexed
        { refCount := 1, hash := none, tokenIds := [] }
      refine ⟨⟨index₂.radix, index₂.hash⟩, evicts.shrinks, List.ne_nil_of_mem free, ?_, ?_⟩
      · simp [List.length_erase_of_mem free]
      · exact evicts.entry_eq

theorem allocateBlocks_entry (index : bm.IndexValid cfg) {count : ℕ}
    (allocated : bm.allocateBlocks cfg count table = .ok (bm', table')) :
    count ≤ bm.freeBlockIds.length ∧ ∃ fresh, table' = table ++ fresh ∧ fresh.length = count ∧
      ((∀ blockId ∈ fresh, bm.Unindexed cfg blockId) →
        ∀ path, bm'.entry cfg path = bm.entry cfg path) := by
  induction count generalizing bm table with
  | zero =>
    cases allocated
    exact ⟨Nat.zero_le _, [], by simp⟩
  | succ count ih =>
    simp only [allocateBlocks] at allocated
    rcases Py.exists_of_bind allocated with ⟨⟨bm₁, blockId⟩, first, rest⟩
    rcases allocateBlock_entry index first with ⟨index₁, shrinks, nonempty, length, same⟩
    rcases ih index₁ rest with ⟨enough, fresh, appended, freshLength, sameRest⟩
    have positive := List.length_pos_iff.mpr nonempty
    refine ⟨by omega, blockId :: fresh, by simp [appended], by simp [freshLength], ?_⟩
    intro unindexed path
    rw [sameRest]
    · exact same (unindexed blockId List.mem_cons_self) path
    · intro other mem path' found
      exact unindexed other (List.mem_cons_of_mem _ mem) path' (shrinks path' other found)

/-- Acquiring matched pages and allocating fresh ones, read off a call which returned. -/
theorem PoolValid.grown {count : ℕ} (pool : PoolValid cfg bm refs) (index : bm.IndexValid cfg)
    (inRange : ∀ blockId ∈ attached, blockId < cfg.numBlocks) (distinct : attached.Nodup)
    (acquired : BlockManager.acquireBlocks attached bm = .ok bm₁)
    (allocated : BlockManager.allocateBlocks cfg count bm₁ table = .ok (bm', table')) :
    ∃ fresh, table' = table ++ fresh ∧ fresh.length = count ∧
      count + attached.length ≤ bm.freeBlockIds.length + attached.countP (0 < refs ·) ∧
      Allocates cfg bm (addRefs refs attached) bm' fresh ∧
      ((∀ blockId ∈ fresh, bm.Unindexed cfg blockId) →
        ∀ path, bm'.entry cfg path = bm.entry cfg path) := by
  rcases pool.acquireBlocks inRange with ⟨acquiredTo, acquired', pool₁, same₁⟩
  rw [acquired] at acquired'
  cases acquired'
  have index₁ := same₁.index index
  rcases allocateBlocks_entry index₁ allocated with ⟨enough, fresh, appended, length, same⟩
  have free := pool.length_free_addRefs pool₁ distinct
  rcases pool.grow index attached count inRange distinct (by omega) table with
    ⟨acquiredTo, grownTo, fresh', acquired', allocated', -, allocates⟩
  rw [acquired] at acquired'
  cases acquired'
  rw [allocated] at allocated'
  cases allocated'
  have sameFresh : fresh' = fresh := List.append_cancel_left appended
  subst sameFresh
  refine ⟨fresh', rfl, length, by omega, allocates, ?_⟩
  intro unindexed path
  rw [same fun blockId mem path' found => ?_, same₁.entry]
  exact unindexed blockId mem path' ((same₁.entry path').symm.trans found)

/-! ## Publication -/

/-- The paths of the logical pages `start, ..., stop - 1` of a request. -/
def pathsBetween (cfg : Config) (seq : Sequence) (start stop : ℕ) : List (List BlockKey) :=
  (List.range' start (stop - start)).map fun logical => seq.blockKeys cfg (logical + 1)

theorem mem_pathsBetween {start stop : ℕ} {path : List BlockKey} :
    path ∈ pathsBetween cfg seq start stop ↔
      ∃ logical, start ≤ logical ∧ logical < stop ∧ seq.blockKeys cfg (logical + 1) = path := by
  simp only [pathsBetween, List.mem_map, List.mem_range'_1]
  constructor
  · rintro ⟨logical, ⟨lower, upper⟩, rfl⟩
    exact ⟨logical, lower, by omega, rfl⟩
  · rintro ⟨logical, lower, upper, rfl⟩
    exact ⟨logical, ⟨lower, by omega⟩, rfl⟩

theorem publishHash_indexed (backend : cfg.prefixCacheBackend = .hash) (path : List BlockKey)
    (blockId : BlockId) (tokens : BlockKey) (other : List BlockKey) :
    (bm.publishHash cfg path blockId tokens).entry cfg other ≠ none ↔
      bm.entry cfg other ≠ none ∨ other = path ++ [tokens] := by
  rw [entry_hash backend, entry_hash backend]
  by_cases same : other = path ++ [tokens]
  · subst same
    simp [publishHash, chainHash_append_singleton]
  · cases chain : chainHash cfg other with
    | none => simp [same]
    | some h =>
      have differ : h ≠ cfg.pageHash.computeHash tokens (chainHash cfg path) := by
        rintro rfl
        rw [← chainHash_append_singleton] at chain
        exact same (chainHash_injective chain)
      simp [publishHash, Function.update_of_ne differ, same]

theorem publishHashes_indexed (backend : cfg.prefixCacheBackend = .hash)
    (pages : List (BlockId × BlockKey)) (path other : List BlockKey) :
    (publishHashes cfg pages (chainHash cfg path) bm).entry cfg other ≠ none ↔
      bm.entry cfg other ≠ none ∨
        ∃ k < pages.length, other = path ++ (pages.map Prod.snd).take (k + 1) := by
  induction pages generalizing bm path with
  | nil => simp [publishHashes]
  | cons page pages ih =>
    rcases page with ⟨blockId, tokens⟩
    rw [publishHashes_cons, ih, publishHash_indexed backend, or_assoc]
    apply or_congr Iff.rfl
    constructor
    · rintro (rfl | ⟨k, short, rfl⟩)
      · exact ⟨0, by simp⟩
      · exact ⟨k + 1, by simpa using short, by simp⟩
    · rintro ⟨k, short, rfl⟩
      rcases k with _ | k
      · exact .inl (by simp)
      · exact .inr ⟨k, by simpa using short, by simp⟩

variable {start stop : ℕ}

/-- Publishing in the hash index adds the paths of the published pages. -/
theorem publishPages_indexed (backend : cfg.prefixCacheBackend = .hash)
    (owned : stop ≤ seq.blockTable.length) (path : List BlockKey) :
    (publishHashes cfg (tablePages cfg seq start stop)
        (chainHash cfg (seq.blockKeys cfg start)) bm).entry cfg path ≠ none ↔
      bm.entry cfg path ≠ none ∨ path ∈ pathsBetween cfg seq start stop := by
  have length : (tablePages cfg seq start stop).length = stop - start := by
    have pages : (tablePages cfg seq start stop).map Prod.fst =
        (seq.blockTable.take stop).drop start := tablePages_map_fst owned
    simpa [Nat.min_eq_left owned] using congrArg List.length pages
  rw [publishHashes_indexed backend, mem_pathsBetween, length]
  apply or_congr Iff.rfl
  constructor
  · rintro ⟨k, short, rfl⟩
    rw [tablePages_path owned (by omega)]
    exact ⟨start + k, Nat.le_add_right _ _, by omega, rfl⟩
  · rintro ⟨logical, lower, upper, rfl⟩
    refine ⟨logical - start, by omega, ?_⟩
    rw [tablePages_path owned (by omega), Nat.add_sub_cancel' lower]

theorem pathsBetween_append {middle : ℕ} (lower : start ≤ middle) (upper : middle ≤ stop)
    {path : List BlockKey} :
    path ∈ pathsBetween cfg seq start stop ↔
      path ∈ pathsBetween cfg seq start middle ∨ path ∈ pathsBetween cfg seq middle stop := by
  simp only [mem_pathsBetween]
  constructor
  · rintro ⟨logical, first, last, rfl⟩
    rcases Nat.lt_or_ge logical middle with before | after
    · exact .inl ⟨logical, first, before, rfl⟩
    · exact .inr ⟨logical, after, last, rfl⟩
  · rintro (⟨logical, first, last, rfl⟩ | ⟨logical, first, last, rfl⟩)
    · exact ⟨logical, first, by omega, rfl⟩
    · exact ⟨logical, by omega, last, rfl⟩

/-- An insertion offers a block for exactly the paths of the inserted pages. -/
theorem insertedBlock_ne_none (owned : stop ≤ seq.blockTable.length) {path : List BlockKey} :
    RadixForest.insertedBlock (seq.blockKeys cfg stop) (seq.blockTable.take stop) path ≠ none ↔
      path ∈ pathsBetween cfg seq 0 stop := by
  rw [mem_pathsBetween]
  constructor
  · intro offered
    by_cases inside : path ≠ [] ∧ path <+: seq.blockKeys cfg stop
    · have positive := List.length_pos_iff.mpr inside.1
      have bound := inside.2.length_le
      rw [Sequence.blockKeys_eq, Paging.length_pages] at bound
      refine ⟨path.length - 1, Nat.zero_le _, by omega, ?_⟩
      rw [Nat.sub_add_cancel positive, Sequence.blockKeys_eq, ← Paging.take_pages bound]
      exact (List.prefix_iff_eq_take.mp inside.2).symm
    · exact absurd (if_neg inside) offered
  · rintro ⟨logical, -, short, rfl⟩
    have length : (seq.blockKeys cfg (logical + 1)).length = logical + 1 := by
      simp [Sequence.blockKeys_eq]
    rw [RadixForest.insertedBlock_inside, length, Nat.add_sub_cancel,
      List.getElem?_take_of_lt short, List.getElem?_eq_getElem (by omega)]
    · exact Option.some_ne_none _
    · intro empty
      simp [empty] at length
    · rw [Sequence.blockKeys_eq, Sequence.blockKeys_eq, ← Paging.take_pages (by omega : _ ≤ stop)]
      exact List.take_prefix _ _

/-- Publishing in the radix cache adds the paths of all pages up to the published ones. -/
theorem insertRadix_indexed (backend : cfg.prefixCacheBackend = .radix)
    (index : bm.IndexValid cfg) (same : bm₁.radixCache = bm.radixCache)
    (owned : stop ≤ seq.blockTable.length)
    (inserted : bm₁.insertRadix cfg seq stop = .ok bm') (path : List BlockKey) :
    bm'.entry cfg path ≠ none ↔
      bm.entry cfg path ≠ none ∨ path ∈ pathsBetween cfg seq 0 stop := by
  rw [insertRadix, same] at inserted
  rcases Py.exists_of_bind inserted with ⟨cache, result, returned⟩
  cases returned
  have find := (RadixPrefixCache.insert_find (index.radix backend) result path).2
  rw [entry_radix backend, entry_radix backend, ← insertedBlock_ne_none owned]
  simp [find, Option.or_eq_none_iff, imp_iff_not_or]

/-- `hash_blocks` adds the paths of the pages completed by the scheduled tokens. -/
theorem hashBlocks_indexed {kv : KvStore} {refs : BlockId → ℕ} {n : ℕ}
    (index : bm.IndexValid cfg) (memory : SeqMemory cfg bm kv refs n seq)
    (uncompressed : seq.kvCompressed = false)
    (below : ∀ path ∈ pathsBetween cfg seq 0 (seq.numCachedTokens / cfg.blockSize),
      bm.entry cfg path ≠ none)
    (returned : bm.hashBlocks cfg seq = .ok bm') (path : List BlockKey) :
    bm'.entry cfg path ≠ none ↔ bm.entry cfg path ≠ none ∨
      path ∈ pathsBetween cfg seq (seq.numCachedTokens / cfg.blockSize)
        ((seq.numCachedTokens + seq.numScheduledTokens) / cfg.blockSize) := by
  have ordered : seq.numCachedTokens / cfg.blockSize ≤
      (seq.numCachedTokens + seq.numScheduledTokens) / cfg.blockSize :=
    Nat.div_le_div_right (Nat.le_add_right _ _)
  simp only [hashBlocks, uncompressed, Bool.false_eq_true, if_false] at returned
  split at returned
  · next nothing =>
    cases returned
    simp [← nothing, pathsBetween]
  · split at returned
    · cases returned
    · next owned =>
      cases backend : cfg.prefixCacheBackend with
      | hash =>
        rw [backend, memory.previousHash backend uncompressed (by omega)] at returned
        cases returned
        exact publishPages_indexed backend (by omega) path
      | radix =>
        rw [backend] at returned
        have recorded := (recordTokens_spec (tablePages cfg seq
          (seq.numCachedTokens / cfg.blockSize)
          ((seq.numCachedTokens + seq.numScheduledTokens) / cfg.blockSize)) bm).2.1
        rw [insertRadix_indexed backend index recorded (by omega) returned,
          pathsBetween_append (Nat.zero_le _) ordered, ← or_assoc]
        exact or_congr_left (or_iff_left_of_imp (below path))

/-- `commit_restored_prefix` adds the paths of the restored pages. -/
theorem commitRestoredPrefix_indexed {seq' : Sequence} {numCached : ℕ}
    (index : bm.IndexValid cfg)
    (below : ∀ path ∈ pathsBetween cfg seq 0 (seq.numCachedTokens / cfg.blockSize),
      bm.entry cfg path ≠ none)
    (returned : bm.commitRestoredPrefix cfg seq numCached = .ok (bm', seq'))
    (path : List BlockKey) :
    bm'.entry cfg path ≠ none ↔ bm.entry cfg path ≠ none ∨
      path ∈ pathsBetween cfg seq (seq.numCachedTokens / cfg.blockSize) numCached := by
  simp only [commitRestoredPrefix] at returned
  split at returned
  · cases returned
  · next extends_cached =>
    split at returned
    · cases returned
    · next full =>
      have indexed : bm'.entry cfg path ≠ none ↔
          bm.entry cfg path ≠ none ∨ path ∈ pathsBetween cfg seq 0 numCached := by
        cases backend : cfg.prefixCacheBackend with
        | hash =>
          rw [backend] at returned
          cases returned
          exact publishPages_indexed backend (by omega) path
        | radix =>
          have recorded := (recordTokens_spec (tablePages cfg seq
            (seq.numCachedTokens / cfg.blockSize) numCached) bm).2.1
          rw [backend] at returned
          rcases Py.exists_of_bind returned with ⟨published, inserted, result⟩
          cases result
          exact insertRadix_indexed backend index recorded (by omega) inserted path
      rw [indexed, pathsBetween_append (Nat.zero_le _)
        (show seq.numCachedTokens / cfg.blockSize ≤ numCached by omega), ← or_assoc]
      exact or_congr_left (or_iff_left_of_imp (below path))

end BlockManager

end NanoVllm
