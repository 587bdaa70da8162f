import NanoVllm.Memory.Basic

/-!
# Releasing pages

`deallocate`, `reclaim_suffix` and the compressions drop references and keep the index. What
remains in a block table keeps its content, so the memory invariant is preserved.
-/

namespace NanoVllm

variable {cfg : Config} {ids : Finset SeqId} {seqs : SeqId → Sequence} {bm bm' : BlockManager}
  {kv : KvStore} {computed : Sequence → ℕ} {i : SeqId} {seq : Sequence}

namespace BlockManager

/-- Two states which differ only in reference counts, the lists and the pending plans. -/
structure SameIndex (bm bm' : BlockManager) : Prop where
  hash : ∀ blockId, (bm'.blocks blockId).hash = (bm.blocks blockId).hash
  tokenIds : ∀ blockId, (bm'.blocks blockId).tokenIds = (bm.blocks blockId).tokenIds
  hashToBlockId : bm'.hashToBlockId = bm.hashToBlockId
  radixCache : bm'.radixCache = bm.radixCache

theorem RefsOnly.sameIndex (same : RefsOnly bm bm') : SameIndex bm bm' :=
  ⟨same.hash, same.tokenIds, same.hashToBlockId, same.radixCache⟩

namespace SameIndex

theorem refl (bm : BlockManager) : SameIndex bm bm := ⟨fun _ => rfl, fun _ => rfl, rfl, rfl⟩

/-- Popping the pending plan of a resumption before releasing pages. -/
theorem of_popPendingResumeMatch {seqId : SeqId}
    (same : RefsOnly (bm.popPendingResumeMatch seqId) bm') : SameIndex bm bm' :=
  ⟨same.hash, same.tokenIds, same.hashToBlockId, same.radixCache⟩

theorem entry (same : SameIndex bm bm') (path : List BlockKey) :
    bm'.entry cfg path = bm.entry cfg path :=
  entry_congr same.hashToBlockId same.radixCache path

theorem index (same : SameIndex bm bm') (valid : bm.IndexValid cfg) : bm'.IndexValid cfg :=
  valid.congr same.hashToBlockId same.radixCache same.hash same.tokenIds

theorem unindexed (same : SameIndex bm bm') {blockId : BlockId} :
    bm'.Unindexed cfg blockId ↔ bm.Unindexed cfg blockId := by
  simp only [Unindexed, same.entry]

theorem frame (same : SameIndex bm bm') (refs : BlockId → ℕ) (touched : List BlockId) :
    Frame cfg bm bm' refs touched where
  hash blockId _ := same.hash blockId
  recorded blockId _ _ recorded := (same.hash blockId).trans recorded
  index path _ found := .inl ((same.entry path).symm.trans found)

end SameIndex

end BlockManager

open BlockManager

/-- Replacing a request without touching the index, when its table only shrinks. -/
theorem MemoryValid.release (valid : MemoryValid cfg ids seqs bm kv computed) (known : i ∈ ids)
    (same : SameIndex bm bm')
    (pool : bm'.PoolValid cfg (tableRefs ids (Function.update seqs i seq)))
    (subset : seq.blockTable ⊆ (seqs i).blockTable)
    (request : SeqMemory cfg bm' kv (tableRefs ids (Function.update seqs i seq)) (computed seq)
      seq) :
    MemoryValid cfg ids (Function.update seqs i seq) bm' kv computed :=
  valid.update known pool (same.index valid.index)
    (fun path _ found => .inl ((same.entry path).symm.trans found)) (same.frame _ _)
    (fun _ mem => .inl (subset mem)) request

/-- Counting the references after some pages of a request have been dropped. -/
theorem dropRefs_tableRefs (known : i ∈ ids) {dropped : List BlockId}
    (perm : (seqs i).blockTable.Perm (seq.blockTable ++ dropped)) :
    dropRefs (tableRefs ids seqs) dropped = tableRefs ids (Function.update seqs i seq) := by
  funext blockId
  have refs : _ = tableRefs ids seqs blockId + _ := tableRefs_update known seq blockId
  rw [perm.count_eq, List.count_append] at refs
  simp only [dropRefs]
  omega

theorem count_le_tableRefs (known : i ∈ ids) {dropped : List BlockId}
    (perm : (seqs i).blockTable.Perm (seq.blockTable ++ dropped)) (blockId : BlockId) :
    dropped.count blockId ≤ tableRefs ids seqs blockId := by
  have bound : (seqs i).blockTable.count blockId ≤ _ :=
    References.count_le_count (fun i => (seqs i).blockTable) blockId known
  rw [perm.count_eq, List.count_append] at bound
  exact (Nat.le_add_left _ _).trans bound

/-! ## All pages -/

/-- A request without pages needs no guarantee. -/
theorem SeqMemory.of_empty {refs : BlockId → ℕ} {n : ℕ} (table : seq.blockTable = [])
    (logical : seq.kvBlockLogicalIndices = []) : SeqMemory cfg bm kv refs n seq where
  distinct := by rw [table]; exact List.nodup_nil
  sameLength := by rw [table, logical]
  increasing := by rw [logical]; exact .nil
  exact _ := by rw [table, logical]; rfl
  exclusive _ _ mem := by simp [Sequence.pages, table] at mem
  content _ _ _ mem := by simp [Sequence.pages, table] at mem
  sealed _ _ _ _ mem := by simp [Sequence.pages, table] at mem

/-- What `deallocate` leaves of a request. -/
def Sequence.withoutPages (seq : Sequence) : Sequence :=
  { seq with
    numCachedTokens := 0
    numPhysicalCachedTokens := 0
    kvCompressed := false
    blockTable := []
    kvBlockLogicalIndices := [] }

/-- `deallocate` releases all pages of a request and raises nothing. -/
theorem MemoryValid.deallocate (valid : MemoryValid cfg ids seqs bm kv computed)
    (known : i ∈ ids) (table : seq.blockTable = (seqs i).blockTable) :
    ∃ bm', bm.deallocate seq = .ok (bm', seq.withoutPages) ∧
      MemoryValid cfg ids (Function.update seqs i seq.withoutPages) bm' kv computed ∧
      RefsOnly (bm.popPendingResumeMatch seq.seqId) bm' := by
  have perm : (seqs i).blockTable.Perm (seq.withoutPages.blockTable ++ seq.blockTable.reverse) :=
    table ▸ (List.reverse_perm _).symm
  have pool₀ : (bm.popPendingResumeMatch seq.seqId).PoolValid cfg (tableRefs ids seqs) :=
    valid.pool.of_sameMemory (.of_plans _ _)
  obtain ⟨bm', released, pool, same⟩ := pool₀.releaseBlocks (count_le_tableRefs known perm)
  refine ⟨bm', ?_, ?_, same⟩
  · rw [BlockManager.deallocate, released, Py.ok_bind]
    rfl
  · rw [dropRefs_tableRefs known perm] at pool
    exact valid.release known (.of_popPendingResumeMatch same) pool (List.nil_subset _)
      (.of_empty rfl rfl)

/-! ## A suffix -/

/-- What `reclaim_suffix` leaves of a request. -/
def Sequence.withPrefix (cfg : Config) (seq : Sequence) (keep : ℕ) : Sequence :=
  { seq with
    blockTable := seq.blockTable.take keep
    kvBlockLogicalIndices := seq.kvBlockLogicalIndices.take keep
    numCachedTokens := keep * cfg.blockSize
    numPhysicalCachedTokens := keep * cfg.blockSize }

theorem Sequence.withPrefix_pages (keep : ℕ) :
    (seq.withPrefix cfg keep).pages = seq.pages.take keep := by
  simp [withPrefix, pages, List.zip, List.take_zipWith]

/-- The retained pages of an uncompressed request are complete and keep their content. -/
theorem SeqMemory.withPrefix {refs refs' : BlockId → ℕ} {n : ℕ} {keep : ℕ}
    (memory : SeqMemory cfg bm kv refs n seq) (same : SameIndex bm bm')
    (uncompressed : seq.kvCompressed = false) (cached : keep * cfg.blockSize ≤ n)
    (complete : keep * cfg.blockSize ≤ seq.numCachedTokens) :
    SeqMemory cfg bm' kv refs' (keep * cfg.blockSize) (seq.withPrefix cfg keep) := by
  have exact := memory.exact uncompressed
  have subset : ∀ {page}, page ∈ (seq.withPrefix cfg keep).pages → page ∈ seq.pages :=
    fun mem => by
      rw [Sequence.withPrefix_pages] at mem
      exact List.mem_of_mem_take mem
  have short : ∀ {logical blockId}, (logical, blockId) ∈ (seq.withPrefix cfg keep).pages →
      logical + 1 ≤ keep := fun {logical blockId} mem => by
    have := (List.of_mem_zip mem).1
    rw [Sequence.withPrefix, exact, List.take_range, List.mem_range] at this
    omega
  refine ⟨(List.take_sublist _ _).nodup memory.distinct, ?_,
    memory.increasing.sublist (List.take_sublist _ _), fun _ => ?_, ?_, ?_, ?_⟩
  · simp [Sequence.withPrefix, memory.sameLength]
  · simp [Sequence.withPrefix, exact, List.take_range]
  · intro logical blockId mem incomplete
    have bound := Nat.mul_le_mul_right cfg.blockSize (short mem)
    simp only [Sequence.withPrefix] at incomplete
    omega
  · intro logical blockId offset mem inPage computed
    exact memory.content logical blockId offset (subset mem) inPage (by omega)
  · intro backend _ logical blockId mem complete'
    rw [same.hash]
    refine memory.sealed backend uncompressed logical blockId (subset mem) ?_
    exact complete'.trans complete

/-- `reclaim_suffix` of complete pages raises nothing. -/
theorem MemoryValid.reclaimSuffix
    (valid : MemoryValid cfg ids seqs bm kv Sequence.numCachedTokens) (known : i ∈ ids)
    {keep : ℕ} (uncompressed : (seqs i).kvCompressed = false)
    (owned : keep ≤ (seqs i).blockTable.length)
    (complete : keep * cfg.blockSize ≤ (seqs i).numCachedTokens) :
    ∃ bm' freed, bm.reclaimSuffix cfg (seqs i) keep =
        .ok (bm', (seqs i).withPrefix cfg keep, freed) ∧
      MemoryValid cfg ids (Function.update seqs i ((seqs i).withPrefix cfg keep)) bm' kv
        Sequence.numCachedTokens ∧
      RefsOnly (bm.popPendingResumeMatch (seqs i).seqId) bm' := by
  have perm : (seqs i).blockTable.Perm (((seqs i).withPrefix cfg keep).blockTable ++
      ((seqs i).blockTable.drop keep).reverse) := by
    conv_lhs => rw [← List.take_append_drop keep (seqs i).blockTable]
    exact (List.reverse_perm _).symm.append_left _
  have pool₀ : (bm.popPendingResumeMatch (seqs i).seqId).PoolValid cfg (tableRefs ids seqs) :=
    valid.pool.of_sameMemory (.of_plans _ _)
  obtain ⟨bm', released, pool, same⟩ := pool₀.releaseBlocks (count_le_tableRefs known perm)
  refine ⟨bm', bm'.freeBlockIds.length - bm.freeBlockIds.length, ?_, ?_, same⟩
  · rw [BlockManager.reclaimSuffix, if_neg (by omega), if_neg (by omega)]
    simp only [released, Py.ok_bind]
    rfl
  · rw [dropRefs_tableRefs known perm] at pool
    have same' := SameIndex.of_popPendingResumeMatch same
    exact valid.release known same' pool (List.take_subset _ _)
      ((valid.request i known).withPrefix same' uncompressed complete complete)

/-! ## Compression -/

section KeepPositions

variable {α β : Type} {keep : ℕ → Bool}

theorem keepPositions_sublist (xs : List α) : (keepPositions keep xs).Sublist xs := by
  have sublist := (List.filter_sublist (p := fun entry : α × ℕ => keep entry.2)
    (l := xs.zipIdx)).map Prod.fst
  rwa [List.zipIdx_map_fst] at sublist

theorem keepPositions_perm (xs : List α) :
    xs.Perm (keepPositions keep xs ++ keepPositions (fun index => !keep index) xs) := by
  have perm := (List.filter_append_perm (fun entry : α × ℕ => keep entry.2) xs.zipIdx).map
    Prod.fst
  rw [List.zipIdx_map_fst, List.map_append] at perm
  exact perm.symm

theorem keepPositions_zip {xs : List α} {ys : List β} (sameLength : xs.length = ys.length) :
    (keepPositions keep xs).zip (keepPositions keep ys) = keepPositions keep (xs.zip ys) := by
  simp only [keepPositions]
  generalize 0 = start
  induction xs generalizing ys start with
  | nil => simp
  | cons x xs ih =>
    cases ys with
    | nil => simp at sameLength
    | cons y ys =>
      simp only [List.length_cons, Nat.add_right_cancel_iff] at sameLength
      have ih := ih sameLength (start + 1)
      cases kept : keep start <;> simp [kept, ih]

theorem keepPositions_length {xs : List α} {ys : List β} (sameLength : xs.length = ys.length) :
    (keepPositions keep xs).length = (keepPositions keep ys).length := by
  simp only [keepPositions]
  generalize 0 = start
  induction xs generalizing ys start with
  | nil =>
    have := List.eq_nil_of_length_eq_zero sameLength.symm
    subst this
    simp
  | cons x xs ih =>
    cases ys with
    | nil => simp at sameLength
    | cons y ys =>
      simp only [List.length_cons, Nat.add_right_cancel_iff] at sameLength
      have ih := ih sameLength (start + 1)
      simp only [List.length_map] at ih
      cases kept : keep start <;> simp [kept, ih]

/-- A kept last position stays last. -/
theorem keepPositions_getLast? {xs : List α} (kept : keep (xs.length - 1) = true) :
    (keepPositions keep xs).getLast? = xs.getLast? := by
  cases xs using List.reverseRecOn with
  | nil => rfl
  | append_singleton xs x =>
    simp only [List.length_append, List.length_singleton, Nat.add_sub_cancel] at kept
    simp [keepPositions, List.zipIdx_append, kept]

end KeepPositions

/-- What `_compress_keep_positions` leaves of a request. -/
def Sequence.compressed (cfg : Config) (seq : Sequence) (keep : ℕ → Bool) : Sequence :=
  { seq with
    blockTable := keepPositions keep seq.blockTable
    kvBlockLogicalIndices := keepPositions keep seq.kvBlockLogicalIndices
    numPhysicalCachedTokens := seq.numPhysicalCachedTokens -
      min ((keepPositions (fun index => !keep index) seq.blockTable).length * cfg.blockSize)
        seq.numPhysicalCachedTokens
    kvCompressed := true }

/-- The pages kept by a compression keep their content. -/
theorem SeqMemory.compressed {refs refs' : BlockId → ℕ} {n : ℕ} {keep : ℕ → Bool}
    (memory : SeqMemory cfg bm kv refs n seq) (same : SameIndex bm bm')
    (kept : ∀ blockId ∈ keepPositions keep seq.blockTable, refs' blockId = refs blockId) :
    SeqMemory cfg bm' kv refs' n (seq.compressed cfg keep) := by
  have subset : ∀ {page}, page ∈ (seq.compressed cfg keep).pages → page ∈ seq.pages :=
    fun {page} mem => by
      change page ∈ (keepPositions keep _).zip (keepPositions keep _) at mem
      rw [keepPositions_zip memory.sameLength] at mem
      exact (keepPositions_sublist _).subset mem
  refine ⟨(keepPositions_sublist _).nodup memory.distinct, ?_,
    memory.increasing.sublist (keepPositions_sublist _), nofun, ?_, ?_, fun _ => nofun⟩
  · exact keepPositions_length memory.sameLength
  · intro logical blockId mem incomplete
    obtain ⟨single, unindexed, noHash⟩ :=
      memory.exclusive logical blockId (subset mem) incomplete
    refine ⟨?_, same.unindexed.mpr unindexed, (same.hash blockId).trans noHash⟩
    rw [kept blockId (Sequence.mem_blockTable_of_mem_pages mem), single]
  · intro logical blockId offset mem inPage computed
    obtain ⟨taint, slot, exact⟩ :=
      memory.content logical blockId offset (subset mem) inPage computed
    exact ⟨taint, slot, exact.imp_right fun own => ⟨rfl, own.2⟩⟩

/-- `_compress_keep_positions` raises nothing. -/
theorem MemoryValid.compressKeepPositions
    (valid : MemoryValid cfg ids seqs bm kv Sequence.numCachedTokens) (known : i ∈ ids)
    (keep : ℕ → Bool)
    (some_dropped : keepPositions (fun index => !keep index) (seqs i).blockTable ≠ []) :
    ∃ bm' freed, bm.compressKeepPositions cfg (seqs i) keep =
        .ok (bm', (seqs i).compressed cfg keep,
          (keepPositions (fun index => !keep index) (seqs i).blockTable).length, freed,
          min ((keepPositions (fun index => !keep index) (seqs i).blockTable).length *
            cfg.blockSize) (seqs i).numPhysicalCachedTokens) ∧
      MemoryValid cfg ids (Function.update seqs i ((seqs i).compressed cfg keep)) bm' kv
        Sequence.numCachedTokens ∧
      RefsOnly bm bm' := by
  have memory := valid.request i known
  have perm : (seqs i).blockTable.Perm (((seqs i).compressed cfg keep).blockTable ++
      (keepPositions (fun index => !keep index) (seqs i).blockTable).reverse) :=
    (keepPositions_perm _).trans ((List.reverse_perm _).symm.append_left _)
  obtain ⟨bm', released, pool, same⟩ := valid.pool.releaseBlocks (count_le_tableRefs known perm)
  refine ⟨bm', bm'.freeBlockIds.length - bm.freeBlockIds.length, ?_, ?_, same⟩
  · simp only [BlockManager.compressKeepPositions, if_neg some_dropped, released, Py.ok_bind]
    rfl
  · rw [dropRefs_tableRefs known perm] at pool
    refine valid.release known same.sameIndex pool (keepPositions_sublist _).subset
      (memory.compressed same.sameIndex fun blockId mem => ?_)
    have refs : _ = tableRefs ids seqs blockId + _ :=
      tableRefs_update known ((seqs i).compressed cfg keep) blockId
    have before := List.count_eq_one_of_mem memory.distinct ((keepPositions_sublist _).subset mem)
    have after := List.count_eq_one_of_mem
      ((keepPositions_sublist _).nodup memory.distinct) mem
    change _ = _ + (keepPositions keep (seqs i).blockTable).count blockId at refs
    omega

/-- `compress_sink_recent` does nothing or keeps positions which include the last one. -/
theorem compressSinkRecent_cases (cfg : Config) (bm : BlockManager) (seq : Sequence) :
    bm.compressSinkRecent cfg seq = .ok (bm, seq, 0, 0, 0) ∨
      ∃ keep : ℕ → Bool, keep (seq.blockTable.length - 1) = true ∧
        bm.compressSinkRecent cfg seq = bm.compressKeepPositions cfg seq keep := by
  have sink := cfg.sinkBlocks_pos
  have recent := cfg.recentBlocks_pos
  simp only [compressSinkRecent]
  rw [if_neg (by omega)]
  split
  · exact .inl rfl
  · refine .inr ⟨_, ?_, rfl⟩
    simp only [Bool.not_eq_true', Bool.and_eq_false_imp, decide_eq_true_eq,
      decide_eq_false_iff_not]
    omega

/-- `compress_query_aware` does nothing or keeps positions which include the last one. -/
theorem compressQueryAware_cases (cfg : Config) (bm : BlockManager) (seq : Sequence) :
    bm.compressQueryAware cfg seq = .ok (bm, seq, 0, 0, 0) ∨
      ∃ keep : ℕ → Bool, keep (seq.blockTable.length - 1) = true ∧
        bm.compressQueryAware cfg seq = bm.compressKeepPositions cfg seq keep := by
  have recent := cfg.recentBlocks_pos
  have importance := cfg.importanceBlocks_pos
  have query := cfg.queryTokens_pos
  simp only [compressQueryAware]
  rw [if_neg (by omega)]
  split
  · exact .inl rfl
  · refine .inr ⟨_, ?_, rfl⟩
    simp only [Bool.or_eq_true, decide_eq_true_eq]
    omega

end NanoVllm
