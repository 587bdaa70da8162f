import NanoVllm.Memory.Release

/-!
# Attaching pages

`allocate`, `resume` and `may_append` attach matched pages of the prefix index and freshly
allocated pages to a block table. The matched pages already hold the KV of the request's own
prefix; the fresh ones are exclusive to the request and unpublished.
-/

namespace NanoVllm

open PathIndex BlockManager

variable {cfg : Config} {ids : Finset SeqId} {seqs : SeqId → Sequence} {bm bm' bm'' : BlockManager}
  {kv : KvStore} {computed : Sequence → ℕ} {i : SeqId} {seq : Sequence}

namespace BlockManager

variable {refs : BlockId → ℕ} {attached fresh : List BlockId}

theorem Allocates.of_refsOnly (allocates : Allocates cfg bm' refs bm'' fresh)
    (same : RefsOnly bm bm') : Allocates cfg bm refs bm'' fresh where
  pool := allocates.pool
  index := allocates.index
  distinct := allocates.distinct
  unreferenced := allocates.unreferenced
  unindexed := allocates.unindexed
  clean := allocates.clean
  hash blockId absent := (allocates.hash blockId absent).trans (same.hash blockId)
  shrinks path value found := (same.entry path).symm.trans (allocates.shrinks path value found)
  keeps path value found referenced := by
    refine allocates.keeps path value ((same.entry path).trans found)
      fun ancestor blockId isPrefix hit => ?_
    exact referenced ancestor blockId isPrefix ((same.entry ancestor).symm.trans hit)
  pendingMatches := allocates.pendingMatches.trans same.pendingMatches
  pendingResumeMatches := allocates.pendingResumeMatches.trans same.pendingResumeMatches

/-- Acquiring indexed pages and then allocating fresh ones raises nothing within capacity. -/
theorem PoolValid.grow (pool : PoolValid cfg bm refs) (index : bm.IndexValid cfg)
    (attached : List BlockId) (count : ℕ)
    (inRange : ∀ blockId ∈ attached, blockId < cfg.numBlocks) (distinct : attached.Nodup)
    (enough : count + attached.length ≤
      bm.freeBlockIds.length + attached.countP (0 < refs ·)) (blockTable : List BlockId) :
    ∃ bm₁ bm' fresh, BlockManager.acquireBlocks attached bm = .ok bm₁ ∧
      BlockManager.allocateBlocks cfg count bm₁ blockTable = .ok (bm', blockTable ++ fresh) ∧
      fresh.length = count ∧ Allocates cfg bm (addRefs refs attached) bm' fresh := by
  obtain ⟨bm₁, acquired, pool₁, same₁⟩ := pool.acquireBlocks inRange
  have free := pool.length_free_addRefs pool₁ distinct
  obtain ⟨bm', fresh, allocated, length, allocates⟩ :=
    pool₁.allocateBlocks (same₁.index index) (show count ≤ _ by omega) blockTable
  exact ⟨bm₁, bm', fresh, acquired, allocated, length, allocates.of_refsOnly same₁⟩

end BlockManager

/-- Counting the references after pages have been attached to a request. -/
theorem addRefs_tableRefs (known : i ∈ ids) {attached fresh : List BlockId}
    (table : seq.blockTable = (seqs i).blockTable ++ (attached ++ fresh)) :
    addRefs (addRefs (tableRefs ids seqs) attached) fresh =
      tableRefs ids (Function.update seqs i seq) := by
  funext blockId
  have refs : _ = tableRefs ids seqs blockId + _ := tableRefs_update known seq blockId
  rw [table, List.count_append, List.count_append] at refs
  simp only [addRefs]
  omega

/-- The memory invariant does not depend on access times and pending plans. -/
theorem MemoryValid.sameMemory (valid : MemoryValid cfg ids seqs bm kv computed)
    (same : SameMemory cfg bm bm') : MemoryValid cfg ids seqs bm' kv computed where
  pool := valid.pool.of_sameMemory same
  index := same.index valid.index
  cached path blockId found := valid.cached path blockId ((same.entry path).symm.trans found)
  request j known := SeqMemory.frame (valid.request j known)
    (show Frame cfg bm bm' _ [] from ⟨fun _ _ => by rw [same.blocks], fun _ _ _ hash => by rw [same.blocks]; exact hash,
      fun path _ found => .inl ((same.entry path).symm.trans found)⟩)
    (fun _ => tableRefs_pos known) fun _ _ single _ => ⟨List.not_mem_nil, single⟩

/-- How a request grows: matched pages and fresh pages behind its old ones. -/
structure Attaches (cfg : Config) (bm : BlockManager) (seq seq' : Sequence)
    (attached fresh : List BlockId) (attachedAt freshAt : List ℕ) : Prop where
  table : seq'.blockTable = seq.blockTable ++ (attached ++ fresh)
  logical : seq'.kvBlockLogicalIndices = seq.kvBlockLogicalIndices ++ (attachedAt ++ freshAt)
  attachedLength : attachedAt.length = attached.length
  freshLength : freshAt.length = fresh.length
  increasing : seq'.kvBlockLogicalIndices.Pairwise (· < ·)
  exact : seq'.kvCompressed = false →
    seq'.kvBlockLogicalIndices = List.range seq'.blockTable.length
  tokenIds : seq'.tokenIds = seq.tokenIds
  seqId : seq'.seqId = seq.seqId
  compressed : seq'.kvCompressed = seq.kvCompressed
  cached_le : seq.numCachedTokens ≤ seq'.numCachedTokens
  old : ∀ logical blockId offset, (logical, blockId) ∈ seq.pages → offset < cfg.blockSize →
    logical * cfg.blockSize + offset < seq'.numCachedTokens →
      logical * cfg.blockSize + offset < seq.numCachedTokens
  distinct : (seq.blockTable ++ attached).Nodup
  matched : ∀ logical blockId, (logical, blockId) ∈ attachedAt.zip attached →
    bm.entry cfg (seq.blockKeys cfg (logical + 1)) = some blockId ∧
      (logical + 1) * cfg.blockSize ≤ seq'.numCachedTokens
  uncomputed : ∀ logical ∈ freshAt, seq'.numCachedTokens ≤ logical * cfg.blockSize

theorem Attaches.mem_pages {attached fresh : List BlockId} {attachedAt freshAt : List ℕ}
    {seq' : Sequence} (attaches : Attaches cfg bm seq seq' attached fresh attachedAt freshAt)
    (sameLength : seq.kvBlockLogicalIndices.length = seq.blockTable.length) {page : ℕ × BlockId} :
    page ∈ seq'.pages ↔
      page ∈ seq.pages ∨ page ∈ attachedAt.zip attached ∨ page ∈ freshAt.zip fresh := by
  rw [Sequence.pages, attaches.table, attaches.logical, List.zip_append sameLength,
    List.zip_append attaches.attachedLength, List.mem_append, List.mem_append]
  rfl

/-- A request which grows keeps its guarantees. -/
theorem SeqMemory.grow {attached fresh : List BlockId} {attachedAt freshAt : List ℕ}
    {seq' : Sequence} {refs : BlockId → ℕ}
    (memory : SeqMemory cfg bm kv refs seq.numCachedTokens seq) (index : bm.IndexValid cfg)
    (cached : ∀ path blockId, bm.entry cfg path = some blockId → PageHolds cfg kv blockId path)
    (referenced : ∀ blockId ∈ seq.blockTable, 0 < refs blockId)
    (attaches : Attaches cfg bm seq seq' attached fresh attachedAt freshAt)
    (allocates : Allocates cfg bm (addRefs refs attached) bm' fresh) :
    SeqMemory cfg bm' kv (addRefs (addRefs refs attached) fresh) seq'.numCachedTokens seq' := by
  have mem_pages : ∀ {page}, page ∈ seq'.pages ↔ _ := attaches.mem_pages memory.sameLength
  have notFresh : ∀ blockId, 0 < refs blockId ∨ blockId ∈ attached → blockId ∉ fresh :=
    fun blockId used mem => by
      have unreferenced := allocates.unreferenced blockId mem
      simp only [addRefs, Nat.add_eq_zero_iff, List.count_eq_zero] at unreferenced
      exact used.elim (fun positive => by omega) unreferenced.2
  have freshRefs : ∀ blockId ∈ fresh,
      addRefs (addRefs refs attached) fresh blockId = 1 := fun blockId mem => by
    rw [addRefs, allocates.unreferenced blockId mem,
      List.count_eq_one_of_mem allocates.distinct mem]
  have positive := cfg.blockSize_pos
  refine ⟨?_, ?_, attaches.increasing, attaches.exact, ?_, ?_, ?_⟩
  · rw [attaches.table, ← List.append_assoc]
    refine List.nodup_append.mpr ⟨attaches.distinct, allocates.distinct, ?_⟩
    rintro blockId mem _ mem' rfl
    exact notFresh blockId ((List.mem_append.mp mem).imp_left (referenced blockId)) mem'
  · simp [attaches.table, attaches.logical, memory.sameLength, attaches.attachedLength,
      attaches.freshLength]
  · intro logical blockId mem incomplete
    rcases mem_pages.mp mem with old | matched | new
    · have mem' := Sequence.mem_blockTable_of_mem_pages old
      obtain ⟨single, unindexed, noHash⟩ := memory.exclusive logical blockId old
        (attaches.cached_le.trans_lt incomplete)
      have notAttached : blockId ∉ attached := fun both => by
        exact (List.nodup_append.mp attaches.distinct).2.2 _ mem' _ both rfl
      have absent := notFresh blockId (.inl (referenced blockId mem'))
      refine ⟨?_, fun path found => unindexed path (allocates.shrinks path blockId found),
        (allocates.hash blockId absent).trans noHash⟩
      simp only [addRefs, List.count_eq_zero.mpr notAttached, List.count_eq_zero.mpr absent,
        single]
    · have := (attaches.matched logical blockId matched).2
      omega
    · have mem' := (List.of_mem_zip new).2
      exact ⟨freshRefs blockId mem', allocates.unindexed blockId mem',
        allocates.clean blockId mem'⟩
  · intro logical blockId offset mem inPage computed
    rw [attaches.tokenIds, attaches.compressed, attaches.seqId]
    rcases mem_pages.mp mem with old | matched | new
    · exact memory.content logical blockId offset old inPage
        (attaches.old logical blockId offset old inPage computed)
    · obtain ⟨found, -⟩ := attaches.matched logical blockId matched
      have slot := (cached _ _ found).slots offset inPage
      rw [Sequence.blockKeys_eq, Paging.length_pages, Nat.add_sub_cancel,
        Paging.take_flatten_pages (by rw [Nat.add_mul, Nat.one_mul]; omega)] at slot
      exact ⟨none, slot, .inl rfl⟩
    · have := attaches.uncomputed logical (List.of_mem_zip new).1
      omega
  · intro backend uncompressed logical blockId mem complete
    rw [Sequence.blockKeys_eq, attaches.tokenIds]
    rcases mem_pages.mp mem with old | matched | new
    · have absent := notFresh blockId
        (.inl (referenced blockId (Sequence.mem_blockTable_of_mem_pages old)))
      have bound := attaches.old logical blockId (cfg.blockSize - 1) old (by omega)
      rw [Nat.add_mul, Nat.one_mul] at complete
      rw [allocates.hash blockId absent]
      refine memory.sealed backend (attaches.compressed ▸ uncompressed) logical blockId old ?_
      rw [Nat.add_mul, Nat.one_mul]
      omega
    · obtain ⟨found, -⟩ := attaches.matched logical blockId matched
      have absent := notFresh blockId (.inr (List.of_mem_zip matched).2)
      rw [entry_hash backend, Option.bind_eq_some_iff] at found
      obtain ⟨h, chain, stored⟩ := found
      rw [allocates.hash blockId absent, index.hash_eq backend stored, ← chain]
      rfl
    · have := attaches.uncomputed logical (List.of_mem_zip new).1
      rw [Nat.add_mul, Nat.one_mul] at complete
      omega

/-- Growing a request keeps the memory invariant. -/
theorem MemoryValid.grow {attached fresh : List BlockId} {attachedAt freshAt : List ℕ}
    (valid : MemoryValid cfg ids seqs bm kv Sequence.numCachedTokens) (known : i ∈ ids)
    (attaches : Attaches cfg bm (seqs i) seq attached fresh attachedAt freshAt)
    (allocates : Allocates cfg bm (addRefs (tableRefs ids seqs) attached) bm' fresh) :
    MemoryValid cfg ids (Function.update seqs i seq) bm' kv Sequence.numCachedTokens := by
  have refs := addRefs_tableRefs known attaches.table
  refine valid.update known (refs ▸ allocates.pool) allocates.index
    (fun path blockId found => .inl (allocates.shrinks path blockId found))
    ⟨fun blockId untouched => ?_, fun blockId h referenced hash => ?_,
      fun path blockId found => .inl (allocates.shrinks path blockId found)⟩
    (fun blockId mem => ?_) ?_
  · refine allocates.hash blockId fun mem => untouched ?_
    simp [attaches.table, mem]
  · rw [allocates.hash blockId fun mem => ?_, hash]
    have := allocates.unreferenced blockId mem
    simp only [addRefs] at this
    omega
  · rw [attaches.table, List.mem_append, List.mem_append] at mem
    rcases mem with old | matched | new
    · exact .inl old
    · obtain ⟨k, get⟩ := List.mem_iff_getElem?.mp matched
      have short := (List.getElem?_eq_some_iff.mp get).1
      have mem' : (attachedAt.get ⟨k, attaches.attachedLength ▸ short⟩, blockId) ∈
          attachedAt.zip attached := by
        rw [List.mem_iff_getElem?]
        refine ⟨k, ?_⟩
        rw [List.getElem?_zip_eq_some]
        exact ⟨List.getElem?_eq_getElem _, get⟩
      exact .inr (.inr fun unindexed => unindexed _ (attaches.matched _ _ mem').1)
    · have := allocates.unreferenced blockId new
      simp only [addRefs] at this
      exact .inr (.inl (by omega))
  · rw [← refs]
    exact (valid.request i known).grow valid.index (fun path blockId found =>
      (valid.cached path blockId found).2) (fun _ => tableRefs_pos known) attaches allocates

end NanoVllm
