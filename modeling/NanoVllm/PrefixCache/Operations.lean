import NanoVllm.PrefixCache.Calls
import NanoVllm.Memory.Restore

/-!
# The calls keep the index exact

Every call keeps the invariant of a run. Capacity checks and releases change no entry, an
admission or a resumption which reallocates no cached page changes none either, and a
publication adds the published paths. The pages a request re-attaches were published before.
-/

namespace NanoVllm

open BlockManager

variable {cfg : Config} {ids : Finset SeqId} {s : ManagedRequests} {bm bm' : BlockManager}
  {i : SeqId} {seq seq' : Sequence} {op : BlockOp}

/-! ## The cached paths of a request -/

theorem mem_cachedPaths {path : List BlockKey} :
    path ∈ seq.cachedPaths cfg ↔
      ∃ logical, (logical + 1) * cfg.blockSize ≤ seq.numCachedTokens ∧
        seq.blockKeys cfg (logical + 1) = path := by
  simp only [Sequence.cachedPaths, mem_pathsBetween, Nat.zero_le, true_and, Nat.lt_iff_add_one_le,
    Nat.le_div_iff_mul_le cfg.blockSize_pos]

/-- Losing cached tokens loses cached paths only. -/
theorem cachedPaths_subset (tokens : seq'.tokenIds = seq.tokenIds)
    (fewer : seq'.numCachedTokens ≤ seq.numCachedTokens) :
    seq'.cachedPaths cfg ⊆ seq.cachedPaths cfg := by
  intro path mem
  rw [mem_cachedPaths] at mem ⊢
  rcases mem with ⟨logical, complete, rfl⟩
  refine ⟨logical, complete.trans fewer, ?_⟩
  simp [Sequence.blockKeys_eq, tokens]

/-- A new token leaves the cached paths alone. -/
theorem cachedPaths_appendToken (inRange : seq.numCachedTokens ≤ seq.numTokens) (tokenId : Token)
    (now : ℚ) : (seq.appendToken tokenId now).cachedPaths cfg ⊆ seq.cachedPaths cfg := by
  intro path mem
  rw [mem_cachedPaths] at mem ⊢
  rcases mem with ⟨logical, complete, rfl⟩
  refine ⟨logical, complete, ?_⟩
  simp only [Sequence.blockKeys_eq, Sequence.appendToken]
  exact (Paging.pages_append (complete.trans inRange)).symm

/-- The cached paths after a run are those before it and those of the completed pages. -/
theorem mem_cachedPaths_of_pathsBetween {stop : ℕ} {path : List BlockKey}
    (ordered : seq.numCachedTokens / cfg.blockSize ≤ stop) :
    path ∈ pathsBetween cfg seq 0 stop ↔ path ∈ seq.cachedPaths cfg ∨
      path ∈ pathsBetween cfg seq (seq.numCachedTokens / cfg.blockSize) stop :=
  pathsBetween_append (Nat.zero_le _) ordered

theorem numBlocks_of_startsPage (starts : startsPage cfg seq = true) :
    seq.numTokens = (seq.numBlocks cfg - 1) * cfg.blockSize + 1 ∧ 0 < seq.numBlocks cfg := by
  have positive := cfg.blockSize_pos
  have split := Nat.div_add_mod seq.numTokens cfg.blockSize
  simp only [startsPage, decide_eq_true_eq] at starts
  rw [starts] at split
  have total : seq.numTokens + cfg.blockSize - 1 =
      cfg.blockSize * (seq.numTokens / cfg.blockSize + 1) := by
    rw [Nat.mul_succ]
    omega
  have blocks : seq.numBlocks cfg = seq.numTokens / cfg.blockSize + 1 := by
    rw [Sequence.numBlocks, total, Nat.mul_div_cancel_left _ positive]
  rw [blocks, Nat.add_sub_cancel, Nat.mul_comm]
  exact ⟨by omega, Nat.succ_pos _⟩

/-- A request with every page but the last one stays ready with that page. -/
theorem Sequence.Ready.withPage (ready : seq.Ready cfg) (nonempty : 0 < seq.numBlocks cfg)
    (complete : seq.kvCompressed = false → seq.blockTable.length = seq.numBlocks cfg - 1)
    (blockId : BlockId) : (seq.withPage cfg blockId).Ready cfg := by
  have length : (seq.withPage cfg blockId).blockTable.length = seq.blockTable.length + 1 := by
    simp [Sequence.withPage]
  have blocks : (seq.withPage cfg blockId).numBlocks cfg = seq.numBlocks cfg := rfl
  refine ⟨ready.inRange, fun empty => ?_, fun uncompressed => ?_, fun uncompressed => ?_,
    fun uncompressed shorter => ?_⟩
  · simp [empty] at length
  · have := complete uncompressed
    omega
  · rw [length, Nat.succ_mul]
    exact (ready.covered uncompressed).trans (Nat.le_add_right _ _)
  · have := complete uncompressed
    omega

namespace ManagedRequests.Valid

/-- The index knows the cached paths of an uncompressed request. -/
theorem cachedIndexed (valid : s.Valid cfg ids) (known : i ∈ ids)
    (uncompressed : (s.seqs i).kvCompressed = false) :
    ∀ path ∈ (s.seqs i).cachedPaths cfg, s.blockManager.entry cfg path ≠ none := by
  intro path mem
  exact (valid.indexed path).mpr (valid.chained i known uncompressed path mem)

theorem index (valid : s.Valid cfg ids) : s.blockManager.IndexValid cfg := by
  rcases valid.memory with ⟨kv, memory⟩
  exact memory.index

end ManagedRequests.Valid

theorem Sequence.mul_blockSize_le {n : ℕ} (bound : n ≤ seq.numBlocks cfg - 1) :
    n * cfg.blockSize ≤ seq.numTokens := by
  rcases Nat.eq_zero_or_pos n with rfl | positive
  · simp
  · exact (Sequence.mul_blockSize_lt (show n < seq.numBlocks cfg by omega)).le

/-- An admitted request is ready. -/
theorem Sequence.Ready.admitted {blockTable : List BlockId} {cachedBlocks : ℕ}
    (uncompressed : seq.kvCompressed = false) (bound : cachedBlocks ≤ seq.numBlocks cfg - 1)
    (length : blockTable.length = seq.numBlocks cfg) :
    (seq.admitted cfg blockTable cachedBlocks).Ready cfg where
  inRange := Sequence.mul_blockSize_le bound
  idle _ := uncompressed
  owned _ := length.le
  covered _ := Nat.mul_le_mul_right _ (by simp only [Sequence.admitted, length]; omega)
  complete _ shorter := absurd shorter (length ▸ Nat.lt_irrefl _)

/-- A request which resumes with all its pages stays ready. -/
theorem Sequence.Ready.resumed {suffix fresh : List BlockId} (ready : seq.Ready cfg)
    (uncompressed : seq.kvCompressed = false)
    (length : suffix.length + fresh.length = seq.numBlocks cfg - seq.blockTable.length)
    (bound : suffix ≠ [] → seq.blockTable.length + suffix.length ≤ seq.numBlocks cfg - 1) :
    (seq.resumed cfg suffix fresh).Ready cfg := by
  have owned := ready.owned uncompressed
  have covered := ready.covered uncompressed
  have complete := ready.complete uncompressed
  have cached : (seq.resumed cfg suffix fresh).numCachedTokens =
      seq.numCachedTokens + suffix.length * cfg.blockSize := rfl
  have tokens : (seq.resumed cfg suffix fresh).numTokens = seq.numTokens := rfl
  have total : (seq.resumed cfg suffix fresh).blockTable.length = seq.numBlocks cfg := by
    simp only [Sequence.resumed, List.length_append]
    omega
  have reattached : suffix ≠ [] → seq.numCachedTokens + suffix.length * cfg.blockSize =
      (seq.blockTable.length + suffix.length) * cfg.blockSize := by
    intro nonempty
    have positive := List.length_pos_iff.mpr nonempty
    rw [complete (by omega), Nat.add_mul]
  refine ⟨?_, fun _ => uncompressed, fun _ => total.le, fun _ => ?_,
    fun _ shorter => absurd shorter (total ▸ Nat.lt_irrefl _)⟩
  · by_cases nothing : suffix = []
    · rw [cached, tokens]
      simpa [nothing] using ready.inRange
    · exact (reattached nothing).le.trans (Sequence.mul_blockSize_le (bound nothing))
  · by_cases nothing : suffix = []
    · rw [total, cached, nothing, List.length_nil, Nat.zero_mul, Nat.add_zero]
      exact covered.trans (Nat.mul_le_mul_right _ owned)
    · rw [total]
      exact (reattached nothing).le.trans (Nat.mul_le_mul_right _ (by omega))

/-! ## Plans -/

namespace BlockManager

/-- `allocate` uses the longest match, also where the announced length is wrong. -/
theorem plannedMatch_matches (index : bm.IndexValid cfg) (current : PlanCurrent cfg bm seq)
    (numCachedBlocks : ℕ) :
    Matches cfg bm seq (bm.plannedMatch cfg seq numCachedBlocks).2 ∧
      SameMemory cfg bm (bm.plannedMatch cfg seq numCachedBlocks).1 := by
  have popped : SameMemory cfg bm (bm.popPendingMatch seq.seqId) := .of_plans _ _
  have looked : Matches cfg bm seq ((bm.popPendingMatch seq.seqId).lookupCachedBlocks cfg seq).2 :=
    (lookupCachedBlocks_matches (popped.index index) seq).agree fun _ _ => (popped.entry _).symm
  have same := popped.trans (lookupCachedBlocks_sameMemory cfg (bm.popPendingMatch seq.seqId) seq)
  simp only [plannedMatch]
  split
  · next plan pending =>
    split
    · exact ⟨current plan pending, popped⟩
    · exact ⟨looked, same⟩
  · exact ⟨looked, same⟩

/-- A returned `allocate` has acquired the longest match and appended fresh pages. -/
theorem allocate_returned {numCachedBlocks : ℕ} (index : bm.IndexValid cfg)
    (current : PlanCurrent cfg bm seq)
    (returned : bm.allocate cfg seq numCachedBlocks = .ok (bm', seq')) :
    ∃ bm₀ bm₁ matched blockTable, Matches cfg bm seq matched ∧
      matched.length = numCachedBlocks ∧ SameMemory cfg bm bm₀ ∧ seq.blockTable = [] ∧
      acquireBlocks matched bm₀ = .ok bm₁ ∧
      bm₁.allocateBlocks cfg (seq.numBlocks cfg - numCachedBlocks) matched =
        .ok (bm', blockTable) ∧
      seq' = seq.admitted cfg blockTable numCachedBlocks := by
  rcases plannedMatch_matches index current numCachedBlocks with ⟨matches', same⟩
  simp only [allocate] at returned
  split at returned
  · cases returned
  · next idle =>
    split at returned
    · cases returned
    · next announced =>
      rcases Py.exists_of_bind returned with ⟨bm₁, acquired, returned⟩
      rcases Py.exists_of_bind returned with ⟨⟨bm₂, blockTable⟩, allocated, result⟩
      cases result
      exact ⟨_, bm₁, _, _, matches', not_not.mp announced, same, not_not.mp idle, acquired,
        allocated, rfl⟩

/-- `resume` re-attaches the suffix of the longest match, planned or not. -/
theorem plannedResume_returned {suffix : List BlockId} (index : bm.IndexValid cfg)
    (owned : seq.blockTable.length ≤ seq.numBlocks cfg) (current : ResumePlanCurrent cfg bm seq)
    (returned : bm.plannedResume cfg seq = .ok (bm', suffix)) :
    ∃ matched, Matches cfg bm seq matched ∧ suffix = resumeSuffix cfg seq matched ∧
      SameMemory cfg bm bm' := by
  simp only [plannedResume] at returned
  split at returned
  · next plan pending =>
    cases returned
    have looked := lookupCachedBlocks_matches index seq
    exact ⟨_, looked, current _ pending _ looked, .of_plans _ _⟩
  · rcases canResume_spec index owned with
      ⟨bm₀, matched, matches', same, -, ⟨-, result, pending⟩ | ⟨-, result, -⟩⟩
    · rw [result] at returned
      simp only [Py.ok_bind, Bool.not_true, Bool.false_eq_true, if_false, pending,
        Function.update_self] at returned
      cases returned
      exact ⟨matched, matches', rfl, same.trans (.of_plans _ _)⟩
    · rw [result] at returned
      cases returned

/-- A returned `resume` has acquired a suffix of the longest match and appended fresh pages. -/
theorem resume_returned {reused : ℕ} (index : bm.IndexValid cfg)
    (owned : seq.blockTable.length ≤ seq.numBlocks cfg) (current : ResumePlanCurrent cfg bm seq)
    (returned : bm.resume cfg seq = .ok (bm', seq', reused)) :
    ∃ bm₀ bm₁ matched blockTable, Matches cfg bm seq matched ∧ SameMemory cfg bm bm₀ ∧
      acquireBlocks (resumeSuffix cfg seq matched) bm₀ = .ok bm₁ ∧
      bm₁.allocateBlocks cfg (seq.numBlocks cfg -
          (seq.blockTable ++ resumeSuffix cfg seq matched).length)
        (seq.blockTable ++ resumeSuffix cfg seq matched) = .ok (bm', blockTable) ∧
      seq' = { seq with
        blockTable := blockTable
        kvBlockLogicalIndices := seq.kvBlockLogicalIndices ++
          List.range' seq.kvBlockLogicalIndices.length
            (blockTable.length - seq.blockTable.length)
        numCachedTokens :=
          seq.numCachedTokens + (resumeSuffix cfg seq matched).length * cfg.blockSize
        numPhysicalCachedTokens := seq.numPhysicalCachedTokens +
          (resumeSuffix cfg seq matched).length * cfg.blockSize } := by
  rcases Py.exists_of_bind returned with ⟨⟨bm₀, suffix⟩, planned, returned⟩
  rcases plannedResume_returned index owned current planned with ⟨matched, matches', rfl, same⟩
  rcases Py.exists_of_bind returned with ⟨bm₁, acquired, returned⟩
  rcases Py.exists_of_bind returned with ⟨⟨bm₂, blockTable⟩, allocated, result⟩
  cases result
  exact ⟨bm₀, bm₁, matched, _, matches', same, acquired, allocated, rfl⟩

end BlockManager

namespace BlockOp.Keeps

/-- A call which changes no entry. -/
theorem unpublished (valid : s.Valid cfg ids) (known : i ∈ ids)
    (memory : ∃ kv, MemoryValid cfg ids (Function.update s.seqs i seq') bm' kv
      Sequence.numCachedTokens)
    (ready : seq'.Ready cfg) (nothing : op.publishes cfg (s.seqs i) = [])
    (entry : ∀ path, bm'.entry cfg path = s.blockManager.entry cfg path)
    (compressed : seq'.kvCompressed = false → (s.seqs i).kvCompressed = false)
    (cached : seq'.kvCompressed = false → seq'.cachedPaths cfg ⊆ (s.seqs i).cachedPaths cfg) :
    op.Keeps cfg ids s i bm' seq' where
  memory := memory
  ready := ready
  indexed path := by simp [entry, nothing]
  chained uncompressed path mem := by
    rw [entry]
    exact valid.cachedIndexed known (compressed uncompressed) path (cached uncompressed mem)

/-- A call which changes neither the memory nor its request. -/
theorem of_sameMemory (valid : s.Valid cfg ids) (known : i ∈ ids)
    (same : SameMemory cfg s.blockManager bm') (nothing : op.publishes cfg (s.seqs i) = []) :
    op.Keeps cfg ids s i bm' (s.seqs i) := by
  apply unpublished valid known _ (valid.ready i known) nothing same.entry id
    fun _ => List.Subset.refl _
  rcases valid.memory with ⟨kv, memory⟩
  refine ⟨kv, ?_⟩
  rw [Function.update_eq_self]
  exact memory.sameMemory same

/-! ## Checks, releases and tokens -/

theorem canAllocate (valid : s.Valid cfg ids) (known : i ∈ ids) :
    BlockOp.canAllocate.Keeps cfg ids s i (s.blockManager.canAllocate cfg (s.seqs i)).1
      (s.seqs i) := by
  rcases canAllocate_spec valid.index (s.seqs i) with
    ⟨bm', matched, -, same, -, ⟨-, result, -⟩ | ⟨-, result, -⟩⟩
  · rw [result]
    exact of_sameMemory valid known same rfl
  · rw [result]
    exact of_sameMemory valid known same rfl

theorem canResume {resumable : Bool} (valid : s.Valid cfg ids) (known : i ∈ ids)
    (returned : s.blockManager.canResume cfg (s.seqs i) = .ok (bm', resumable)) :
    BlockOp.canResume.Keeps cfg ids s i bm' (s.seqs i) := by
  have owned : (s.seqs i).blockTable.length ≤ (s.seqs i).numBlocks cfg := by
    by_contra longer
    simp only [BlockManager.canResume, Nat.lt_of_not_le longer, if_true] at returned
    cases returned
  rcases canResume_spec valid.index owned with
    ⟨bm₀, matched, -, same, -, ⟨-, result, -⟩ | ⟨-, result, -⟩⟩
  · cases result.symm.trans returned
    exact of_sameMemory valid known same rfl
  · cases result.symm.trans returned
    exact of_sameMemory valid known same rfl

theorem deallocate (valid : s.Valid cfg ids) (known : i ∈ ids)
    (returned : s.blockManager.deallocate (s.seqs i) = .ok (bm', seq')) :
    BlockOp.deallocate.Keeps cfg ids s i bm' seq' := by
  rcases valid.memory with ⟨kv, memory⟩
  rcases memory.deallocate known (show (s.seqs i).blockTable = _ from rfl) with ⟨bm₀, result, memory', refs⟩
  cases result.symm.trans returned
  have ready : (s.seqs i).withoutPages.Ready cfg := .unserved ⟨rfl, rfl, rfl, rfl⟩
  refine ⟨⟨kv, memory'⟩, ready, ?_, ?_⟩
  · intro path
    have entry : bm'.entry cfg path = s.blockManager.entry cfg path :=
      (SameIndex.of_popPendingResumeMatch refs).entry path
    simp [entry, BlockOp.publishes]
  · intro _ path mem
    simp [Sequence.cachedPaths, Sequence.withoutPages, pathsBetween] at mem

theorem appendToken {tokenId : Token} {now : ℚ} (valid : s.Valid cfg ids) (known : i ∈ ids)
    (called : (s.seqs i).numCachedTokens = (s.seqs i).numTokens) :
    (BlockOp.appendToken tokenId now).Keeps cfg ids s i s.blockManager
      ((s.seqs i).appendToken tokenId now) := by
  have ready := valid.ready i known
  have tokens : ((s.seqs i).appendToken tokenId now).numTokens = (s.seqs i).numTokens + 1 := by
    simp [Sequence.appendToken, Sequence.numTokens]
  refine unpublished valid known ?_ ?_ rfl (fun _ => rfl) id
    fun _ => cachedPaths_appendToken ready.inRange tokenId now
  · rcases valid.memory with ⟨kv, memory⟩
    exact ⟨kv, memory.appendToken known tokenId now ready.inRange ready.inRange rfl⟩
  · have owned : (s.seqs i).numBlocks cfg ≤
        ((s.seqs i).appendToken tokenId now).numBlocks cfg := by
      simp only [Sequence.numBlocks, tokens]
      exact Nat.div_le_div_right (by omega)
    refine ⟨?_, ready.idle, fun uncompressed => (ready.owned uncompressed).trans owned,
      ready.covered, ?_⟩
    · rw [tokens]
      exact ready.inRange.trans (Nat.le_succ _)
    · intro uncompressed shorter
      have covered := ready.covered uncompressed
      have long := Sequence.mul_blockSize_lt shorter
      rw [tokens, ← called] at long
      exact Nat.le_antisymm covered (Nat.le_of_lt_succ long)

theorem reclaimSuffix {keep freed : ℕ} (valid : s.Valid cfg ids) (known : i ∈ ids)
    (uncompressed : (s.seqs i).kvCompressed = false)
    (returned : s.blockManager.reclaimSuffix cfg (s.seqs i) keep = .ok (bm', seq', freed)) :
    (BlockOp.reclaimSuffix keep).Keeps cfg ids s i bm' seq' := by
  have ready := valid.ready i known
  have bounds : keep ≤ (s.seqs i).blockTable.length ∧
      keep * cfg.blockSize ≤ (s.seqs i).numCachedTokens := by
    simp only [BlockManager.reclaimSuffix] at returned
    split at returned
    · cases returned
    · split at returned
      · cases returned
      · omega
  rcases valid.memory with ⟨kv, memory⟩
  rcases memory.reclaimSuffix known uncompressed bounds.1 bounds.2 with
    ⟨bm₀, freed', result, memory', refs⟩
  cases result.symm.trans returned
  have length : ((s.seqs i).withPrefix cfg keep).blockTable.length = keep := by
    simp [Sequence.withPrefix, bounds.1]
  refine unpublished valid known ⟨kv, memory'⟩ ?_ rfl
    (SameIndex.of_popPendingResumeMatch refs).entry id
    fun _ => cachedPaths_subset rfl bounds.2
  refine ⟨bounds.2.trans ready.inRange, fun _ => uncompressed, fun _ => ?_, fun _ => ?_,
    fun _ _ => ?_⟩
  · rw [length]
    exact bounds.1.trans (ready.owned uncompressed)
  · rw [length]
    exact Nat.le_refl _
  · rw [length]
    rfl

/-- Dropping pages but not the last one. -/
theorem compressKeepPositions {keep : ℕ → Bool} {counts : ℕ × ℕ × ℕ}
    (valid : s.Valid cfg ids) (known : i ∈ ids)
    (nothing : op.publishes cfg (s.seqs i) = [])
    (kept : keep ((s.seqs i).blockTable.length - 1) = true)
    (returned : s.blockManager.compressKeepPositions cfg (s.seqs i) keep =
      .ok (bm', seq', counts)) :
    op.Keeps cfg ids s i bm' seq' := by
  by_cases dropped : keepPositions (fun index => !keep index) (s.seqs i).blockTable = []
  · simp only [BlockManager.compressKeepPositions, dropped, if_true] at returned
    cases returned
    exact of_sameMemory valid known (.refl cfg _) nothing
  · rcases valid.memory with ⟨kv, memory⟩
    rcases memory.compressKeepPositions known keep dropped with
      ⟨bm₀, freed, result, memory', refs⟩
    cases result.symm.trans returned
    have table_ne : (s.seqs i).blockTable ≠ [] := by
      intro empty
      simp [empty, keepPositions] at dropped
    refine unpublished valid known ⟨kv, memory'⟩ ?_ nothing refs.entry ?_ ?_
    · refine ⟨(valid.ready i known).inRange, fun empty => ?_, ?_, ?_, ?_⟩
      · have last := keepPositions_getLast? kept
        change keepPositions keep (s.seqs i).blockTable = [] at empty
        rw [empty, List.getLast?_nil] at last
        exact absurd (List.getLast?_eq_none_iff.mp last.symm) table_ne
      · intro uncompressed
        cases uncompressed
      · intro uncompressed
        cases uncompressed
      · intro uncompressed
        cases uncompressed
    · intro uncompressed
      cases uncompressed
    · intro uncompressed
      cases uncompressed

theorem compressSinkRecent {counts : ℕ × ℕ × ℕ} (valid : s.Valid cfg ids) (known : i ∈ ids)
    (returned : s.blockManager.compressSinkRecent cfg (s.seqs i) = .ok (bm', seq', counts)) :
    BlockOp.compressSinkRecent.Keeps cfg ids s i bm' seq' := by
  rcases compressSinkRecent_cases cfg s.blockManager (s.seqs i) with same | ⟨keep, kept, result⟩
  · cases same.symm.trans returned
    exact of_sameMemory valid known (.refl cfg _) rfl
  · exact compressKeepPositions valid known rfl kept (result.symm.trans returned)

theorem compressQueryAware {counts : ℕ × ℕ × ℕ} (valid : s.Valid cfg ids) (known : i ∈ ids)
    (returned : s.blockManager.compressQueryAware cfg (s.seqs i) = .ok (bm', seq', counts)) :
    BlockOp.compressQueryAware.Keeps cfg ids s i bm' seq' := by
  rcases compressQueryAware_cases cfg s.blockManager (s.seqs i) with same | ⟨keep, kept, result⟩
  · cases same.symm.trans returned
    exact of_sameMemory valid known (.refl cfg _) rfl
  · exact compressKeepPositions valid known rfl kept (result.symm.trans returned)

/-! ## Attaching pages -/

theorem mayAppend (valid : s.Valid cfg ids) (known : i ∈ ids)
    (called : BlockOp.mayAppend.Called cfg s.blockManager (s.seqs i))
    (returned : s.blockManager.mayAppend cfg (s.seqs i) = .ok (bm', seq'))
    (unindexed : ∀ blockId ∈ BlockOp.mayAppend.freshPages cfg (s.seqs i) seq',
      s.blockManager.Unindexed cfg blockId) :
    BlockOp.mayAppend.Keeps cfg ids s i bm' seq' := by
  cases starts : startsPage cfg (s.seqs i) with
  | false =>
    cases (mayAppend_of_not_starts starts).symm.trans returned
    exact of_sameMemory valid known (.refl cfg _) rfl
  | true =>
    rcases called starts with ⟨cached, behind⟩
    have ready := valid.ready i known
    rcases numBlocks_of_startsPage starts with ⟨tokens, positive⟩
    have tail : (s.seqs i).numCachedTokens =
        ((s.seqs i).numBlocks cfg - 1) * cfg.blockSize := by omega
    rcases valid.memory with ⟨kv, memory⟩
    have complete : (s.seqs i).kvCompressed = false →
        (s.seqs i).blockTable.length = (s.seqs i).numBlocks cfg - 1 := by
      intro uncompressed
      have covered := ready.covered uncompressed
      rw [tail] at covered
      apply Nat.le_antisymm _ (Nat.le_of_mul_le_mul_right covered cfg.blockSize_pos)
      rw [(memory.request i known).exact uncompressed] at behind
      simp only [List.mem_range] at behind
      by_contra longer
      exact absurd (behind _ (Nat.lt_of_not_le longer)) (Nat.lt_irrefl _)
    rw [BlockManager.mayAppend, if_pos starts] at returned
    rcases Py.exists_of_bind returned with ⟨⟨bm₁, blockId⟩, allocated, grown⟩
    cases grown
    rcases allocateBlock_entry valid.index allocated with ⟨-, -, free, -, entry⟩
    rcases memory.mayAppend known starts free behind complete tail.le with
      ⟨bm₂, blockId', result, memory', -⟩
    simp only [BlockManager.mayAppend, starts, if_true, allocated, Py.ok_bind,
      Except.ok.injEq, Prod.mk.injEq] at result
    rcases result with ⟨rfl, appended⟩
    have sameBlock : blockId = blockId' := by
      simpa [Sequence.withPage] using congrArg Sequence.blockTable appended
    subst sameBlock
    have same := entry (unindexed blockId (by simp [BlockOp.freshPages]))
    change BlockOp.mayAppend.Keeps cfg ids s i bm' ((s.seqs i).withPage cfg blockId)
    exact unpublished valid known ⟨kv, memory'⟩ (ready.withPage positive complete blockId) rfl
      same id fun _ => List.Subset.refl _

theorem allocate {numCachedBlocks : ℕ} (valid : s.Valid cfg ids) (known : i ∈ ids)
    (current : PlanCurrent cfg s.blockManager (s.seqs i))
    (returned : s.blockManager.allocate cfg (s.seqs i) numCachedBlocks = .ok (bm', seq'))
    (unindexed : ∀ blockId ∈ (BlockOp.allocate numCachedBlocks).freshPages cfg (s.seqs i) seq',
      s.blockManager.Unindexed cfg blockId) :
    (BlockOp.allocate numCachedBlocks).Keeps cfg ids s i bm' seq' := by
  have ready := valid.ready i known
  rcases valid.memory with ⟨kv, memory⟩
  rcases allocate_returned valid.index current returned with
    ⟨bm₀, bm₁, matched, blockTable, matches', rfl, same, idle, acquired, allocated, rfl⟩
  have uncompressed := ready.idle idle
  have uncached : (s.seqs i).numCachedTokens = 0 := by
    simpa [idle] using ready.covered uncompressed
  have logical : (s.seqs i).kvBlockLogicalIndices = [] := by
    simp [(memory.request i known).exact uncompressed, idle]
  have memory₀ := memory.sameMemory same
  have matches₀ := matches'.of_sameMemory same
  have distinct := matches₀.distinct memory₀.index
  have bound := matches₀.length_le
  have inRange : ∀ blockId ∈ matched, blockId < cfg.numBlocks := by
    intro blockId mem
    rcases List.mem_iff_getElem?.mp mem with ⟨k, get⟩
    exact (memory₀.cached _ _ (matches₀.entry get)).1
  rcases memory₀.pool.grown memory₀.index inRange distinct acquired allocated with
    ⟨fresh, rfl, length, -, allocates, entry⟩
  have attaches := admitted_attaches idle logical uncached matches₀ distinct
    (show matched.length + fresh.length = (s.seqs i).numBlocks cfg by omega)
  have freshUnindexed : ∀ blockId ∈ fresh, bm₀.Unindexed cfg blockId := by
    intro blockId mem path found
    rw [same.entry] at found
    refine unindexed blockId ?_ path found
    simpa [BlockOp.freshPages, Sequence.admitted] using mem
  have sameEntry : ∀ path, bm'.entry cfg path = s.blockManager.entry cfg path := by
    intro path
    rw [entry freshUnindexed, same.entry]
  refine ⟨⟨kv, memory₀.grow known attaches allocates⟩,
    .admitted uncompressed bound (by simp; omega), ?_, ?_⟩
  · intro path
    simp [sameEntry, BlockOp.publishes]
  · intro _ path mem
    rw [mem_cachedPaths] at mem
    rcases mem with ⟨k, complete, rfl⟩
    have short : k < matched.length :=
      Nat.le_of_mul_le_mul_right complete cfg.blockSize_pos
    rw [sameEntry, Sequence.blockKeys_eq]
    have found := matches'.entry (List.getElem?_eq_getElem short)
    rw [Sequence.blockKeys_eq] at found
    simp [Sequence.admitted, found]

theorem resume {reused : ℕ} (valid : s.Valid cfg ids) (known : i ∈ ids)
    (uncompressed : (s.seqs i).kvCompressed = false)
    (current : ResumePlanCurrent cfg s.blockManager (s.seqs i))
    (returned : s.blockManager.resume cfg (s.seqs i) = .ok (bm', seq', reused))
    (unindexed : ∀ blockId ∈ BlockOp.resume.freshPages cfg (s.seqs i) seq',
      s.blockManager.Unindexed cfg blockId) :
    BlockOp.resume.Keeps cfg ids s i bm' seq' := by
  have ready := valid.ready i known
  have owned := ready.owned uncompressed
  have complete := ready.complete uncompressed
  rcases valid.memory with ⟨kv, memory⟩
  rcases resume_returned valid.index owned current returned with
    ⟨bm₀, bm₁, matched, blockTable, matches', same, acquired, allocated, result⟩
  have memory₀ := memory.sameMemory same
  have request₀ := memory₀.request i known
  have matches₀ := matches'.of_sameMemory same
  have distinct := resumeSuffix_distinct cfg (matches₀.distinct memory₀.index) request₀.distinct
  have shorter := resumeSuffix_length_le cfg (s.seqs i) matched
  have found : ∀ k blockId, (resumeSuffix cfg (s.seqs i) matched)[k]? = some blockId →
      bm₀.entry cfg ((s.seqs i).blockKeys cfg ((s.seqs i).blockTable.length + k + 1)) =
        some blockId := by
    intro k blockId get
    exact resumeSuffix_entry matches₀ get
  have inRange : ∀ blockId ∈ resumeSuffix cfg (s.seqs i) matched, blockId < cfg.numBlocks := by
    intro blockId mem
    rcases List.mem_iff_getElem?.mp mem with ⟨k, get⟩
    exact (memory₀.cached _ _ (found k blockId get)).1
  have bound : resumeSuffix cfg (s.seqs i) matched ≠ [] →
      (s.seqs i).blockTable.length + (resumeSuffix cfg (s.seqs i) matched).length ≤
        (s.seqs i).numBlocks cfg - 1 := by
    intro nonempty
    rcases resumeSuffix_cases cfg (s.seqs i) matched with empty | taken
    · exact absurd empty nonempty
    · have length := congrArg List.length taken
      have matchedShort := matches'.length_le
      simp only [List.length_take, List.length_append] at length
      omega
  rcases memory₀.pool.grown memory₀.index inRange (List.nodup_append.mp distinct).2.1 acquired
    allocated with ⟨fresh, rfl, length, -, allocates, entry⟩
  rw [List.length_append] at length
  have total : (resumeSuffix cfg (s.seqs i) matched).length + fresh.length =
      (s.seqs i).numBlocks cfg - (s.seqs i).blockTable.length := by omega
  have resumed : seq' =
      (s.seqs i).resumed cfg (resumeSuffix cfg (s.seqs i) matched) fresh := by
    rw [result]
    simp [Sequence.resumed]
  subst resumed
  have attaches := resumed_attaches request₀ uncompressed complete total distinct found
  have freshUnindexed : ∀ blockId ∈ fresh, bm₀.Unindexed cfg blockId := by
    intro blockId mem path hit
    rw [same.entry] at hit
    refine unindexed blockId ?_ path hit
    have positive := List.length_pos_of_mem mem
    have reattached : ((s.seqs i).resumed cfg (resumeSuffix cfg (s.seqs i) matched)
        fresh).numCachedTokens / cfg.blockSize =
          ((s.seqs i).blockTable ++ resumeSuffix cfg (s.seqs i) matched).length := by
      simp only [Sequence.resumed, List.length_append]
      rw [complete (by omega), ← Nat.add_mul, Nat.mul_div_cancel _ cfg.blockSize_pos]
    simp only [BlockOp.freshPages, reattached]
    rw [Nat.max_eq_right (by simp), Sequence.resumed, List.drop_left]
    exact mem
  have sameEntry : ∀ path, bm'.entry cfg path = s.blockManager.entry cfg path := by
    intro path
    rw [entry freshUnindexed, same.entry]
  refine ⟨⟨kv, memory₀.grow known attaches allocates⟩,
    ready.resumed uncompressed total bound, ?_, ?_⟩
  · intro path
    simp [sameEntry, BlockOp.publishes]
  · intro _ path mem
    rw [mem_cachedPaths] at mem
    rcases mem with ⟨k, cached, rfl⟩
    rw [sameEntry]
    by_cases old : (k + 1) * cfg.blockSize ≤ (s.seqs i).numCachedTokens
    · exact valid.cachedIndexed known uncompressed _ (mem_cachedPaths.mpr ⟨k, old, rfl⟩)
    · change (k + 1) * cfg.blockSize ≤ (s.seqs i).numCachedTokens +
        (resumeSuffix cfg (s.seqs i) matched).length * cfg.blockSize at cached
      have nonempty : 0 < (resumeSuffix cfg (s.seqs i) matched).length := by
        by_contra nothing
        rw [Nat.eq_zero_of_not_pos nothing] at cached
        omega
      have aligned := complete (by omega)
      rw [aligned, ← Nat.add_mul] at cached
      rw [aligned] at old
      have upper := Nat.le_of_mul_le_mul_right cached cfg.blockSize_pos
      have lower : (s.seqs i).blockTable.length ≤ k := by
        by_contra before
        exact old (Nat.mul_le_mul_right _ (by omega))
      have get := List.getElem?_eq_getElem
        (show k - (s.seqs i).blockTable.length <
          (resumeSuffix cfg (s.seqs i) matched).length by omega)
      have hit := resumeSuffix_entry matches' get
      rw [Nat.add_sub_cancel' lower] at hit
      change s.blockManager.entry cfg ((s.seqs i).blockKeys cfg (k + 1)) ≠ none
      rw [hit]
      exact Option.some_ne_none _

/-! ## Publishing -/

theorem hashBlocks {n : ℕ} (valid : s.Valid cfg ids) (known : i ∈ ids)
    (called : (BlockOp.hashBlocks n).Called cfg s.blockManager (s.seqs i))
    (returned : s.blockManager.hashBlocks cfg { s.seqs i with numScheduledTokens := n } =
      .ok bm') :
    (BlockOp.hashBlocks n).Keeps cfg ids s i bm'
      (({ s.seqs i with numScheduledTokens := n } : Sequence).advanced false) := by
  have ready := valid.ready i known
  rcases called with ⟨inRange, covered⟩
  let scheduled : Sequence := { s.seqs i with numScheduledTokens := n }
  have advancedReady : (scheduled.advanced false).Ready cfg := by
    refine ⟨inRange, ready.idle, ready.owned, covered, fun uncompressed shorter => ?_⟩
    have complete := ready.complete uncompressed shorter
    have bound := covered uncompressed
    change (s.seqs i).numCachedTokens + n = (s.seqs i).blockTable.length * cfg.blockSize
    omega
  rcases valid.memory with ⟨kv, memory⟩
  have memory₁ : MemoryValid cfg ids (Function.update s.seqs i scheduled) s.blockManager kv
      Sequence.numCachedTokens := memory.agree ⟨rfl, rfl, rfl, rfl, rfl, rfl⟩ (Nat.le_refl _)
  rcases memory₁.filled Sequence.computedTokens with ⟨kv', memory₂⟩
  have self : Function.update s.seqs i scheduled i = scheduled := Function.update_self ..
  have fewer : ∀ seqs : SeqId → Sequence, ∀ j ∈ ids,
      (seqs j).numCachedTokens ≤ (seqs j).computedTokens := by
    intro seqs j _
    exact Nat.le_add_right _ _
  cases flag : (s.seqs i).kvCompressed with
  | true =>
    have nothing : s.blockManager.hashBlocks cfg scheduled = .ok s.blockManager := by
      simp [BlockManager.hashBlocks, scheduled, flag]
    cases nothing.symm.trans returned
    have memory₃ := @MemoryValid.advanceCompressed _ _ _ _ _ i (scheduled.advanced false) _
      memory₂ (by rw [self]; exact flag) (by rw [self]; exact Nat.le_add_right _ _)
      (by rw [self]; exact ⟨rfl, rfl, rfl, rfl, rfl, rfl⟩) (by rw [self]; exact Nat.le_refl _)
    rw [Function.update_idem] at memory₃
    refine ⟨⟨kv', memory₃.mono (fewer _)⟩, advancedReady, ?_, ?_⟩
    · intro path
      simp [BlockOp.publishes, flag]
    · intro uncompressed
      exact absurd (flag.symm.trans uncompressed) Bool.true_eq_false.mp
  | false =>
    have positive := cfg.blockSize_pos
    have publication := @MemoryValid.hashBlocks _ _ _ _ _ i _ memory₂ known
    have growth := @MemoryValid.publish _ _ _ _ bm' _ i (scheduled.advanced false) _
      ((s.seqs i).numCachedTokens / cfg.blockSize)
      (((s.seqs i).numCachedTokens + n) / cfg.blockSize) memory₂ known
    have request := memory₂.request i known
    simp only [self] at publication growth request
    rcases publication flag rfl (covered flag) inRange with ⟨bm₀, result, publishes⟩
    cases result.symm.trans returned
    have memory₃ := growth flag publishes rfl (Nat.div_mul_le_self _ _)
      (Nat.le_add_right _ _) (Nat.le_refl _) inRange ⟨rfl, rfl, rfl, rfl, rfl, rfl⟩
      (Nat.le_refl _)
    rw [Function.update_idem] at memory₃
    have indexed : ∀ path, bm'.entry cfg path ≠ none ↔ s.blockManager.entry cfg path ≠ none ∨
        path ∈ (BlockOp.hashBlocks n).publishes cfg (s.seqs i) := by
      intro path
      simp only [BlockOp.publishes, flag, Bool.false_eq_true, if_false]
      exact hashBlocks_indexed valid.index request flag (valid.cachedIndexed known flag)
        returned path
    refine ⟨⟨kv', memory₃.mono (fewer _)⟩, advancedReady, indexed, ?_⟩
    intro _ path mem
    have ordered : (s.seqs i).numCachedTokens / cfg.blockSize ≤
        ((s.seqs i).numCachedTokens + n) / cfg.blockSize :=
      Nat.div_le_div_right (Nat.le_add_right _ _)
    rw [indexed]
    simp only [BlockOp.publishes, flag, Bool.false_eq_true, if_false]
    apply ((mem_cachedPaths_of_pathsBetween ordered).mp mem).imp_left
    exact valid.cachedIndexed known flag path

theorem commitRestoredPrefix {numCached : ℕ} (valid : s.Valid cfg ids) (known : i ∈ ids)
    (called : (BlockOp.commitRestoredPrefix numCached).Called cfg s.blockManager (s.seqs i))
    (returned : s.blockManager.commitRestoredPrefix cfg (s.seqs i) numCached =
      .ok (bm', seq')) :
    (BlockOp.commitRestoredPrefix numCached).Keeps cfg ids s i bm' seq' := by
  rcases called with ⟨uncompressed, aligned⟩
  have ready := valid.ready i known
  have cachedLocal := (Nat.div_mul_cancel aligned).symm
  have bounds : (s.seqs i).numCachedTokens / cfg.blockSize < numCached ∧
      numCached < (s.seqs i).numBlocks cfg ∧
        (s.seqs i).blockTable.length = (s.seqs i).numBlocks cfg := by
    simp only [BlockManager.commitRestoredPrefix] at returned
    split at returned
    · cases returned
    · split at returned
      · cases returned
      · omega
  rcases bounds with ⟨extends_local, tail, full⟩
  have inRange := (Sequence.mul_blockSize_lt tail).le
  have fewer : (s.seqs i).numCachedTokens ≤ numCached * cfg.blockSize := by
    rw [cachedLocal]
    exact Nat.mul_le_mul_right _ extends_local.le
  rcases valid.memory with ⟨kv, memory⟩
  rcases memory.filled (fun seq => max seq.numCachedTokens (numCached * cfg.blockSize)) with
    ⟨kv', memory₁⟩
  rcases memory₁.commitRestoredPrefix known uncompressed cachedLocal extends_local tail full
    (Nat.max_eq_right fewer) inRange (Nat.max_self _) with ⟨bm₀, result, memory₂, -⟩
  cases result.symm.trans returned
  have indexed := commitRestoredPrefix_indexed valid.index
    (valid.cachedIndexed known uncompressed) returned
  refine ⟨⟨kv', memory₂.mono fun j _ => Nat.le_max_left _ _⟩, ?_, indexed, ?_⟩
  · refine ⟨inRange, ready.idle, ready.owned, fun _ => ?_, fun _ shorter => ?_⟩
    · change numCached * cfg.blockSize ≤ (s.seqs i).blockTable.length * cfg.blockSize
      rw [full]
      exact Nat.mul_le_mul_right _ tail.le
    · change (s.seqs i).blockTable.length < (s.seqs i).numBlocks cfg at shorter
      omega
  · intro _ path mem
    have mem' : path ∈ pathsBetween cfg (s.seqs i) 0 numCached := by
      simpa [Sequence.cachedPaths, Sequence.committed, pathsBetween,
        Nat.mul_div_cancel _ cfg.blockSize_pos, Sequence.blockKeys_eq] using mem
    rw [indexed]
    apply ((mem_cachedPaths_of_pathsBetween extends_local.le).mp mem').imp_left
    exact valid.cachedIndexed known uncompressed path

/-! ## Runs -/

/-- Every call which reallocates no cached page keeps the invariant. -/
theorem of_perform (valid : s.Valid cfg ids) (known : i ∈ ids)
    (called : op.Called cfg s.blockManager (s.seqs i))
    (returned : op.perform cfg s.blockManager (s.seqs i) = .ok (bm', seq'))
    (unindexed : ∀ blockId ∈ op.freshPages cfg (s.seqs i) seq',
      s.blockManager.Unindexed cfg blockId) :
    op.Keeps cfg ids s i bm' seq' := by
  cases op with
  | canAllocate =>
    cases returned
    exact canAllocate valid known
  | allocate numCachedBlocks => exact allocate valid known called returned unindexed
  | hashBlocks n =>
    rcases Py.exists_of_bind returned with ⟨bm₁, published, result⟩
    cases result
    exact hashBlocks valid known called published
  | deallocate => exact deallocate valid known returned
  | reclaimSuffix keep =>
    rcases Py.exists_of_bind returned with ⟨⟨bm₁, seq₁, freed⟩, reclaimed, result⟩
    cases result
    exact reclaimSuffix valid known called reclaimed
  | canResume =>
    rcases Py.exists_of_bind returned with ⟨⟨bm₁, resumable⟩, checked, result⟩
    cases result
    exact canResume valid known checked
  | resume =>
    rcases Py.exists_of_bind returned with ⟨⟨bm₁, seq₁, reused⟩, resumed, result⟩
    cases result
    exact resume valid known called.1 called.2 resumed unindexed
  | commitRestoredPrefix numCached => exact commitRestoredPrefix valid known called returned
  | compressSinkRecent =>
    rcases Py.exists_of_bind returned with ⟨⟨bm₁, seq₁, counts⟩, compressed, result⟩
    cases result
    exact compressSinkRecent valid known compressed
  | compressQueryAware =>
    rcases Py.exists_of_bind returned with ⟨⟨bm₁, seq₁, counts⟩, compressed, result⟩
    cases result
    exact compressQueryAware valid known compressed
  | appendToken tokenId now =>
    cases returned
    exact appendToken valid known called
  | mayAppend => exact mayAppend valid known called returned unindexed

end BlockOp.Keeps

end NanoVllm
