import NanoVllm.Memory.Run

/-!
# Page imports

The pages of a pending restore are allocated and not cached, so an import writes slots nobody
else can see. Once all of them are imported, the request holds the KV of the restored prefix.
-/

namespace NanoVllm

open BlockManager NanoVllm.System

/-- The complete pages of the cached tokens of a request. -/
def Sequence.cachedBlocks (cfg : Config) (seq : Sequence) : ℕ :=
  seq.numCachedTokens / cfg.blockSize

/-- A pending restore extends the local hit of its request by the following pages. -/
structure PendingRestoreState.Valid (cfg : Config) (seq : Sequence)
    (state : PendingRestoreState) : Prop where
  aligned : seq.numCachedTokens = seq.cachedBlocks cfg * cfg.blockSize
  extendsLocal : seq.cachedBlocks cfg < state.totalCachedBlocks
  tail : state.totalCachedBlocks < seq.numBlocks cfg
  blockIds : state.blockIds =
    (seq.blockTable.take state.totalCachedBlocks).drop (seq.cachedBlocks cfg)
  restored : state.restoredBlocks = state.totalCachedBlocks - seq.cachedBlocks cfg
  pagesLength : state.pages.length = state.totalCachedBlocks - seq.cachedBlocks cfg
  pages : ∀ k page, state.pages[k]? = some page →
    page.pageIndex = seq.cachedBlocks cfg + k ∧
      page.prefixTokenIds =
        seq.tokenIds.take ((seq.cachedBlocks cfg + k + 1) * cfg.blockSize)

variable {cfg : Config} {ids : Finset SeqId} {seqs : SeqId → Sequence} {bm bm' : BlockManager}
  {kv : KvStore} {i : SeqId} {seq : Sequence} {state : PendingRestoreState}

/-- The tokens of all pages but the last are tokens of the request. -/
theorem Sequence.mul_blockSize_lt {n : ℕ} (tail : n < seq.numBlocks cfg) :
    n * cfg.blockSize < seq.numTokens := by
  have := (Nat.le_div_iff_mul_le cfg.blockSize_pos).mp (Nat.succ_le_of_lt tail)
  rw [Nat.succ_mul] at this
  have := cfg.blockSize_pos
  omega

namespace PendingRestoreState.Valid

theorem getElem?_blockIds (valid : state.Valid cfg seq) {k : ℕ} {blockId : BlockId} :
    state.blockIds[k]? = some blockId ↔
      seq.cachedBlocks cfg + k < state.totalCachedBlocks ∧
        seq.blockTable[seq.cachedBlocks cfg + k]? = some blockId := by
  rw [valid.blockIds, List.getElem?_drop, List.getElem?_take]
  split
  · next short => simp [short]
  · next long => simp [long]

/-- The slots of the imported pages are not cached. -/
theorem writable (valid : state.Valid cfg seq) {refs : BlockId → ℕ} {n : ℕ}
    (memory : SeqMemory cfg bm kv refs n seq) (uncompressed : seq.kvCompressed = false)
    {blockId : BlockId} {offset : ℕ} (mem : blockId ∈ state.blockIds)
    (inPage : offset < cfg.blockSize) :
    Writable cfg seq (blockId * cfg.blockSize + offset) := by
  obtain ⟨k, get⟩ := List.mem_iff_getElem?.mp mem
  obtain ⟨-, get'⟩ := valid.getElem?_blockIds.mp get
  refine ⟨_, ?_, SlotAt.of_page ((memory.mem_pages_iff uncompressed).mpr get') inPage⟩
  rw [valid.aligned, Nat.add_mul]
  omega

/-- The import writes the entry of every restored position. -/
theorem mem_importWrites (valid : state.Valid cfg seq) {refs : BlockId → ℕ} {n : ℕ}
    (memory : SeqMemory cfg bm kv refs n seq) (uncompressed : seq.kvCompressed = false)
    {position slot : ℕ} (slotAt : SlotAt cfg seq position slot)
    (uncached : seq.numCachedTokens ≤ position)
    (short : position < state.totalCachedBlocks * cfg.blockSize) :
    (slot, kvEntry seq position) ∈ importWrites cfg state := by
  have positive := cfg.blockSize_pos
  obtain ⟨blockId, mem, rfl⟩ := slotAt
  rw [memory.mem_pages_iff uncompressed] at mem
  have lower : seq.cachedBlocks cfg ≤ position / cfg.blockSize := Nat.div_le_div_right uncached
  have upper : position / cfg.blockSize < state.totalCachedBlocks :=
    (Nat.div_lt_iff_lt_mul positive).mpr short
  obtain ⟨k, split⟩ := Nat.exists_eq_add_of_le lower
  rw [split] at mem upper
  have getBlock := valid.getElem?_blockIds.mpr ⟨upper, mem⟩
  have getPage : ∃ page, state.pages[k]? = some page := by
    refine ⟨_, List.getElem?_eq_getElem ?_⟩
    rw [valid.pagesLength]
    omega
  obtain ⟨page, getPage⟩ := getPage
  obtain ⟨index, prefixTokens⟩ := valid.pages k page getPage
  have whole := Nat.div_add_mod position cfg.blockSize
  have inside := Nat.mod_lt position positive
  rw [split, Nat.mul_comm] at whole
  refine List.mem_flatMap.mpr ⟨(page, blockId), ?_, ?_⟩
  · rw [List.mem_iff_getElem?]
    refine ⟨k, ?_⟩
    rw [List.getElem?_zip_eq_some]
    exact ⟨getPage, getBlock⟩
  · refine List.mem_map.mpr ⟨position % cfg.blockSize, List.mem_range.mpr inside, ?_⟩
    have length : min ((seq.cachedBlocks cfg + k) * cfg.blockSize + position % cfg.blockSize + 1)
        ((seq.cachedBlocks cfg + k + 1) * cfg.blockSize) = position + 1 := by
      rw [Nat.succ_mul]
      omega
    simp only [kvEntry, uncompressed, Bool.false_eq_true, if_false, index, prefixTokens,
      List.take_take, length]

theorem mem_of_importWrites {slot : ℕ} (mem : slot ∈ (importWrites cfg state).map Prod.fst) :
    ∃ blockId ∈ state.blockIds, ∃ offset, offset < cfg.blockSize ∧
      slot = blockId * cfg.blockSize + offset := by
  simp only [importWrites, List.mem_map, List.mem_flatMap, List.mem_range] at mem
  obtain ⟨_, ⟨⟨page, blockId⟩, inZip, offset, inPage, rfl⟩, rfl⟩ := mem
  exact ⟨blockId, (List.of_mem_zip inZip).2, offset, inPage, rfl⟩

theorem importWrites_distinct (valid : state.Valid cfg seq) (distinct : seq.blockTable.Nodup) :
    ((importWrites cfg state).map Prod.fst).Nodup := by
  have blocks : state.blockIds.Nodup := by
    rw [valid.blockIds]
    exact (List.drop_sublist _ _).nodup ((List.take_sublist _ _).nodup distinct)
  have zipped : (state.pages.zip state.blockIds).Pairwise fun page page' => page.2 ≠ page'.2 := by
    have sublist : ((state.pages.zip state.blockIds).map Prod.snd).Nodup := by
      rw [List.map_snd_zip]
      · exact blocks
      · rw [valid.blockIds, valid.pagesLength, List.length_drop, List.length_take]
        omega
    exact List.pairwise_map.mp sublist
  rw [importWrites, List.map_flatMap, List.nodup_flatMap]
  constructor
  · rintro ⟨page, blockId⟩ -
    rw [List.map_map]
    refine List.Nodup.map_on (fun offset _ offset' _ same => ?_) List.nodup_range
    simp only [Function.comp_apply] at same
    omega
  · refine zipped.imp fun {page page'} differ => ?_
    simp only [Function.onFun, List.disjoint_left, List.map_map, List.mem_map, List.mem_range,
      Function.comp_apply, not_exists, not_and]
    rintro slot ⟨offset, inPage, rfl⟩ offset' inPage' same
    exact differ (slot_injective inPage' inPage same).1.symm

end PendingRestoreState.Valid

/-- The tokens in memory once the pages of one request have been imported. -/
def importedTokens (i : SeqId) (n : ℕ) (seq : Sequence) : ℕ :=
  if seq.seqId = i then n else seq.numCachedTokens

/-- Importing the pages of a pending restore puts the restored prefix in memory. -/
theorem MemoryValid.importPages (valid : MemoryValid cfg ids seqs bm kv Sequence.numCachedTokens)
    (known : i ∈ ids) (named : ∀ j ∈ ids, (seqs j).seqId = j)
    (uncompressed : (seqs i).kvCompressed = false) (pending : state.Valid cfg (seqs i)) :
    MemoryValid cfg ids seqs bm (kv.write (importWrites cfg state))
      (importedTokens i (state.totalCachedBlocks * cfg.blockSize)) := by
  have memory := valid.request i known
  have distinct := pending.importWrites_distinct memory.distinct
  refine (valid.overwrite fun slot differs => ⟨i, known, ?_⟩).compute
    fun j known' position slot slotAt uncached short => ?_
  · by_cases mem : slot ∈ (importWrites cfg state).map Prod.fst
    · obtain ⟨blockId, owned, offset, inPage, rfl⟩ :=
        PendingRestoreState.Valid.mem_of_importWrites mem
      exact pending.writable memory uncompressed owned inPage
    · exact absurd (KvStore.write_of_not_mem mem) differs
  · rw [importedTokens, named j known'] at short
    split at short
    · next same =>
      subst same
      exact KvStore.write_of_mem distinct
        (pending.mem_importWrites memory uncompressed slotAt uncached short)
    · omega

/-- A failed import leaves anything in the pages it was to fill, and nothing else changes. -/
theorem MemoryValid.scramblePages
    (valid : MemoryValid cfg ids seqs bm kv Sequence.numCachedTokens) (known : i ∈ ids)
    (uncompressed : (seqs i).kvCompressed = false) (pending : state.Valid cfg (seqs i))
    (garbage : KvStore) :
    MemoryValid cfg ids seqs bm (scramblePages cfg kv garbage state.blockIds)
      Sequence.numCachedTokens := by
  refine valid.overwrite fun slot differs => ⟨i, known, ?_⟩
  have inside := Nat.mod_lt slot cfg.blockSize_pos
  by_cases mem : slot / cfg.blockSize ∈ state.blockIds
  · have writable := pending.writable (valid.request i known) uncompressed mem inside
    rwa [Nat.mul_comm, Nat.div_add_mod] at writable
  · exact absurd (if_neg mem) differs

/-! ## New tokens -/

/-- The guarantees of a request survive a new token. -/
theorem SeqMemory.appendToken {refs : BlockId → ℕ} {n : ℕ}
    (memory : SeqMemory cfg bm kv refs n seq) (tokenId : Token) (now : ℚ)
    (computed_le : n ≤ seq.numTokens) (cached_le : seq.numCachedTokens ≤ seq.numTokens) :
    SeqMemory cfg bm kv refs n (seq.appendToken tokenId now) where
  distinct := memory.distinct
  sameLength := memory.sameLength
  increasing := memory.increasing
  exact := memory.exact
  exclusive := memory.exclusive
  content logical blockId offset mem inPage short := by
    obtain ⟨taint, slot, exact⟩ := memory.content logical blockId offset mem inPage short
    refine ⟨taint, ?_, exact⟩
    rw [slot, Sequence.appendToken, List.take_append_of_le_length]
    exact (Nat.succ_le_of_lt short).trans computed_le
  sealed backend uncompressed logical blockId mem complete := by
    have hash := memory.sealed backend uncompressed logical blockId mem complete
    rw [hash, Sequence.blockKeys_eq, Sequence.blockKeys_eq, Sequence.appendToken,
      Paging.pages_append]
    exact LE.le.trans complete cached_le

/-- A new token keeps the memory invariant. -/
theorem MemoryValid.appendToken {computed : Sequence → ℕ}
    (valid : MemoryValid cfg ids seqs bm kv computed) (known : i ∈ ids) (tokenId : Token)
    (now : ℚ) (computed_le : computed (seqs i) ≤ (seqs i).numTokens)
    (cached_le : (seqs i).numCachedTokens ≤ (seqs i).numTokens)
    (computed_eq : computed ((seqs i).appendToken tokenId now) = computed (seqs i)) :
    MemoryValid cfg ids (Function.update seqs i ((seqs i).appendToken tokenId now)) bm kv
      computed := by
  have refs := @tableRefs_update_of_eq seqs ids i _
    (show ((seqs i).appendToken tokenId now).blockTable = (seqs i).blockTable from rfl)
  refine ⟨refs ▸ valid.pool, valid.index, valid.cached, fun j known' => ?_⟩
  rw [refs]
  by_cases same : j = i
  · subst same
    rw [Function.update_self, computed_eq]
    exact (valid.request j known').appendToken tokenId now computed_le cached_le
  · rw [Function.update_of_ne same]
    exact valid.request j known'

/-- Counting computed tokens of a compressed request as cached keeps the memory invariant. -/
theorem MemoryValid.advanceCompressed {computed : Sequence → ℕ}
    (valid : MemoryValid cfg ids seqs bm kv computed)
    (compressed : (seqs i).kvCompressed = true)
    (cached_le : (seqs i).numCachedTokens ≤ seq.numCachedTokens)
    (same : ({ seqs i with numCachedTokens := seq.numCachedTokens } : Sequence).SameKv seq)
    (computed_le : computed seq ≤ computed (seqs i)) :
    MemoryValid cfg ids (Function.update seqs i seq) bm kv computed := by
  obtain ⟨seqId, tokenIds, table, logical, -, flag⟩ := same
  have refs := @tableRefs_update_of_eq seqs ids i _ table
  refine ⟨refs ▸ valid.pool, valid.index, valid.cached, fun j known => ?_⟩
  rw [refs]
  by_cases self : j = i
  · subst self
    have memory := valid.request j known
    have pages : seq.pages = (seqs j).pages := by rw [Sequence.pages, table, logical]; rfl
    rw [Function.update_self]
    refine ⟨table ▸ memory.distinct, by rw [logical, table]; exact memory.sameLength,
      logical ▸ memory.increasing, ?_, ?_, ?_, ?_⟩
    · rw [flag]
      exact fun uncompressed => absurd (compressed.symm.trans uncompressed) (by simp)
    · rw [pages]
      exact fun logical' blockId mem incomplete =>
        memory.exclusive logical' blockId mem (cached_le.trans_lt incomplete)
    · rw [pages, tokenIds, flag, seqId]
      exact fun logical' blockId offset mem inPage short =>
        memory.content logical' blockId offset mem inPage (short.trans_le computed_le)
    · rw [flag]
      exact fun _ uncompressed => absurd (compressed.symm.trans uncompressed) (by simp)
  · rw [Function.update_of_ne self]
    exact valid.request j known

end NanoVllm
