import NanoVllm.Sequence
import NanoVllm.Radix.Basic
import Mathlib.Data.Finset.Basic
import Mathlib.Data.List.Sort
import Mathlib.Algebra.Order.Field.Rat

/-!
# The block manager

`BlockManager` owns the physical KV pages: the reference counts, the free list and one of two
prefix indexes, the hash chain of page hashes or the radix cache. The page size and the choice
of the index live in the configuration. An absent hash is `none` where the source uses `-1`.

Operations on a request return the manager together with the new record of the request. Every
explicit `raise` and `assert`, and the exceptions of `popleft`, `remove` and dictionary
lookups, are error results. Cache-hit statistics are write-only and left out.
-/

namespace NanoVllm

/-- `Block`; the block id is the index into `BlockManager.blocks`. -/
structure Block where
  refCount : ℤ
  hash : Option ℕ
  tokenIds : List Token
  deriving DecidableEq, Repr

/-- The state of `BlockManager`. -/
structure BlockManager where
  blocks : BlockId → Block
  hashToBlockId : ℕ → Option BlockId
  radixCache : RadixPrefixCache BlockKey
  freeBlockIds : List BlockId
  usedBlockIds : Finset BlockId
  pendingMatches : SeqId → Option (List BlockId)
  pendingResumeMatches : SeqId → Option (List BlockId)

namespace BlockManager

/-- `BlockManager.__init__`. -/
def init (cfg : Config) : BlockManager where
  blocks := fun _ => { refCount := 0, hash := none, tokenIds := [] }
  hashToBlockId := fun _ => none
  radixCache := .empty
  freeBlockIds := List.range cfg.numBlocks
  usedBlockIds := ∅
  pendingMatches := fun _ => none
  pendingResumeMatches := fun _ => none

/-- Replace one block. -/
def setBlock (bm : BlockManager) (blockId : BlockId) (block : Block) : BlockManager :=
  { bm with blocks := Function.update bm.blocks blockId block }

/-- `pending_matches.pop(seq_id, None)`. -/
def popPendingMatch (bm : BlockManager) (seqId : SeqId) : BlockManager :=
  { bm with pendingMatches := Function.update bm.pendingMatches seqId none }

/-- `pending_resume_matches.pop(seq_id, None)`. -/
def popPendingResumeMatch (bm : BlockManager) (seqId : SeqId) : BlockManager :=
  { bm with pendingResumeMatches := Function.update bm.pendingResumeMatches seqId none }

/-! ## Allocation and release of one page -/

/--
The page `_allocate_block` takes: the head of the free list, or with the radix cache a free
page outside the index, else the oldest leaf page, else the head.
-/
def pickFreeBlock (cfg : Config) (bm : BlockManager) : Option BlockId :=
  match cfg.prefixCacheBackend with
  | .hash => bm.freeBlockIds.head?
  | .radix =>
      (bm.freeBlockIds.find? fun candidate => !bm.radixCache.isIndexed candidate)
        <|> bm.radixCache.lruLeafBlock bm.freeBlockIds.toFinset
        <|> bm.freeBlockIds.head?

/-- Remove a page from the prefix index before it is reused. -/
def evict (cfg : Config) (bm : BlockManager) (blockId : BlockId) : BlockManager :=
  match cfg.prefixCacheBackend with
  | .hash =>
      match (bm.blocks blockId).hash with
      | none => bm
      | some h =>
          if bm.hashToBlockId h = some blockId then
            { bm with hashToBlockId := Function.update bm.hashToBlockId h none }
          else bm
  | .radix => { bm with radixCache := (bm.radixCache.removeBlock blockId).1 }

/-- `_allocate_block`. -/
def allocateBlock (cfg : Config) (bm : BlockManager) : Py (BlockManager × BlockId) :=
  match bm.pickFreeBlock cfg with
  | none => .error (.indexError "free_block_ids")
  | some blockId =>
      if (bm.blocks blockId).refCount ≠ 0 then .error .assertionError
      else
        let evicted :=
          { bm with freeBlockIds := bm.freeBlockIds.erase blockId }.evict cfg blockId
        .ok ({ evicted.setBlock blockId { refCount := 1, hash := none, tokenIds := [] } with
          usedBlockIds := insert blockId evicted.usedBlockIds }, blockId)

/-- Append `count` freshly allocated pages to a block table. -/
def allocateBlocks (cfg : Config) : ℕ → BlockManager → List BlockId →
    Py (BlockManager × List BlockId)
  | 0, bm, blockTable => .ok (bm, blockTable)
  | count + 1, bm, blockTable => do
      let (bm, blockId) ← bm.allocateBlock cfg
      allocateBlocks cfg count bm (blockTable ++ [blockId])

/-- `_deallocate_block`. -/
def deallocateBlock (bm : BlockManager) (blockId : BlockId) : Py BlockManager :=
  if (bm.blocks blockId).refCount ≠ 0 then .error .assertionError
  else if blockId ∉ bm.usedBlockIds then .error (.keyError "used_block_ids")
  else
    .ok { bm with
      usedBlockIds := bm.usedBlockIds.erase blockId
      freeBlockIds := bm.freeBlockIds ++ [blockId] }

/-- Drop one reference and free the page with the last one. -/
def releaseBlock (bm : BlockManager) (blockId : BlockId) : Py BlockManager :=
  let block := bm.blocks blockId
  let bm := bm.setBlock blockId { block with refCount := block.refCount - 1 }
  if block.refCount - 1 = 0 then bm.deallocateBlock blockId else .ok bm

/-- Release pages in the given order. -/
def releaseBlocks : List BlockId → BlockManager → Py BlockManager
  | [], bm => .ok bm
  | blockId :: blockIds, bm => do
      let bm ← bm.releaseBlock blockId
      releaseBlocks blockIds bm

/-- Add one reference to a matched page, taking it off the free list when it is unused. -/
def acquireBlock (bm : BlockManager) (blockId : BlockId) : Py BlockManager :=
  let block := bm.blocks blockId
  if blockId ∈ bm.usedBlockIds then
    .ok (bm.setBlock blockId { block with refCount := block.refCount + 1 })
  else if blockId ∉ bm.freeBlockIds then
    .error (.valueError "free_block_ids")
  else
    .ok { bm.setBlock blockId { block with refCount := 1 } with
      freeBlockIds := bm.freeBlockIds.erase blockId
      usedBlockIds := insert blockId bm.usedBlockIds }

/-- Acquire matched pages in order. -/
def acquireBlocks : List BlockId → BlockManager → Py BlockManager
  | [], bm => .ok bm
  | blockId :: blockIds, bm => do
      let bm ← bm.acquireBlock blockId
      acquireBlocks blockIds bm

/-! ## Lookup -/

/-- The hash chain followed by `_lookup_cached_blocks`. -/
def matchHashChain (cfg : Config) (bm : BlockManager) : List BlockKey → Option ℕ → List BlockId
  | [], _ => []
  | tokens :: keys, prefixHash =>
      let h := cfg.pageHash.computeHash tokens prefixHash
      match bm.hashToBlockId h with
      | none => []
      | some blockId =>
          if (bm.blocks blockId).tokenIds ≠ tokens then []
          else blockId :: matchHashChain cfg bm keys (some h)

/-- The longest cached prefix of a path of page keys. -/
def matchKeys (cfg : Config) (bm : BlockManager) (keys : List BlockKey) :
    BlockManager × List BlockId :=
  match cfg.prefixCacheBackend with
  | .hash => (bm, bm.matchHashChain cfg keys none)
  | .radix =>
      let result := bm.radixCache.matchKeys keys
      ({ bm with radixCache := result.1 }, result.2)

/-- `_lookup_cached_blocks`: every page of the request but the last may be cached. -/
def lookupCachedBlocks (cfg : Config) (bm : BlockManager) (seq : Sequence) :
    BlockManager × List BlockId :=
  bm.matchKeys cfg (seq.blockKeys cfg (seq.numBlocks cfg - 1))

/-- The number of listed pages which are in use. -/
def countUsed (bm : BlockManager) (blockIds : List BlockId) : ℕ :=
  blockIds.countP (· ∈ bm.usedBlockIds)

/-! ## Admission of a request without pages -/

/-- `can_allocate`, with `none` for `-1`. -/
def canAllocate (cfg : Config) (bm : BlockManager) (seq : Sequence) :
    BlockManager × Option ℕ :=
  let (bm, cachedBlockIds) := bm.lookupCachedBlocks cfg seq
  let numNewBlocks : ℤ := seq.numBlocks cfg - bm.countUsed cachedBlockIds
  if (bm.freeBlockIds.length : ℤ) < numNewBlocks then (bm.popPendingMatch seq.seqId, none)
  else
    ({ bm with
      pendingMatches := Function.update bm.pendingMatches seq.seqId (some cachedBlockIds) },
      some cachedBlockIds.length)

/-- `planned_allocation_pages`. -/
def plannedAllocationPages (cfg : Config) (bm : BlockManager) (seq : Sequence) : Py ℤ :=
  match bm.pendingMatches seq.seqId with
  | none => .error (.keyError "pending_matches")
  | some matched => .ok (seq.numBlocks cfg - bm.countUsed matched)

/-- The matched pages `allocate` uses: the pending plan if it has the announced length. -/
def plannedMatch (cfg : Config) (bm : BlockManager) (seq : Sequence) (numCachedBlocks : ℕ) :
    BlockManager × List BlockId :=
  match bm.pendingMatches seq.seqId with
  | some cachedBlockIds =>
      if cachedBlockIds.length = numCachedBlocks then
        (bm.popPendingMatch seq.seqId, cachedBlockIds)
      else (bm.popPendingMatch seq.seqId).lookupCachedBlocks cfg seq
  | none => (bm.popPendingMatch seq.seqId).lookupCachedBlocks cfg seq

/-- `allocate`. -/
def allocate (cfg : Config) (bm : BlockManager) (seq : Sequence) (numCachedBlocks : ℕ) :
    Py (BlockManager × Sequence) :=
  if seq.blockTable ≠ [] then .error .assertionError
  else
    let (bm, cachedBlockIds) := bm.plannedMatch cfg seq numCachedBlocks
    if cachedBlockIds.length ≠ numCachedBlocks then
      .error (.runtimeError "prefix cache changed between capacity check and allocation")
    else do
      let bm ← bm.acquireBlocks cachedBlockIds
      let (bm, blockTable) ←
        bm.allocateBlocks cfg (seq.numBlocks cfg - numCachedBlocks) cachedBlockIds
      .ok (bm, { seq with
        blockTable := blockTable
        kvBlockLogicalIndices := List.range (seq.numBlocks cfg)
        numCachedTokens := numCachedBlocks * cfg.blockSize
        numPhysicalCachedTokens := numCachedBlocks * cfg.blockSize })

/-- `reserve_restore`, returning the pages the remote prefix is imported into. -/
def reserveRestore (cfg : Config) (bm : BlockManager) (seq : Sequence)
    (numLocalCachedBlocks numRemoteCachedBlocks : ℕ) :
    Py (BlockManager × Sequence × List BlockId) :=
  if ¬(numLocalCachedBlocks < numRemoteCachedBlocks ∧ numRemoteCachedBlocks < seq.numBlocks cfg)
  then
    .error (.valueError
      "restored prefix must extend the local cache and leave a writable tail")
  else do
    let (bm, seq) ← bm.allocate cfg seq numLocalCachedBlocks
    .ok (bm, seq, (seq.blockTable.take numRemoteCachedBlocks).drop numLocalCachedBlocks)

/-! ## Publication -/

/-- Record the hash and the tokens of a page, keeping its references. -/
def updateBlock (bm : BlockManager) (blockId : BlockId) (hash : Option ℕ)
    (tokenIds : List Token) : BlockManager :=
  bm.setBlock blockId { bm.blocks blockId with hash := hash, tokenIds := tokenIds }

/-- Publish pages in the hash index, chaining from `prefixHash`. -/
def publishHashes (cfg : Config) : List (BlockId × BlockKey) → Option ℕ → BlockManager →
    BlockManager
  | [], _, bm => bm
  | (blockId, tokens) :: pages, prefixHash, bm =>
      let h := cfg.pageHash.computeHash tokens prefixHash
      let bm := bm.updateBlock blockId (some h) tokens
      publishHashes cfg pages (some h)
        { bm with hashToBlockId := Function.update bm.hashToBlockId h (some blockId) }

/-- Record the tokens of pages indexed by the radix cache. -/
def recordTokens : List (BlockId × BlockKey) → BlockManager → BlockManager
  | [], bm => bm
  | (blockId, tokens) :: pages, bm => recordTokens pages (bm.updateBlock blockId none tokens)

/-- The pages `start, ..., stop - 1` of a request with their keys. -/
def tablePages (cfg : Config) (seq : Sequence) (start stop : ℕ) : List (BlockId × BlockKey) :=
  ((seq.blockTable.take stop).zip (seq.blockKeys cfg stop)).drop start

/-- Insert the first `stop` pages of a request into the radix cache. -/
def insertRadix (cfg : Config) (bm : BlockManager) (seq : Sequence) (stop : ℕ) :
    Py BlockManager := do
  let radixCache ← bm.radixCache.insert (seq.blockKeys cfg stop) (seq.blockTable.take stop)
  .ok { bm with radixCache := radixCache }

/-- `commit_restored_prefix`. -/
def commitRestoredPrefix (cfg : Config) (bm : BlockManager) (seq : Sequence)
    (numCachedBlocks : ℕ) : Py (BlockManager × Sequence) :=
  let currentBlocks := seq.numCachedTokens / cfg.blockSize
  if ¬(currentBlocks < numCachedBlocks ∧ numCachedBlocks < seq.numBlocks cfg) then
    .error (.valueError "restored prefix length is invalid")
  else if seq.blockTable.length ≠ seq.numBlocks cfg then
    .error (.runtimeError "restored request does not own a complete block table")
  else do
    let bm ← match cfg.prefixCacheBackend with
      | .radix =>
          (recordTokens (tablePages cfg seq currentBlocks numCachedBlocks) bm).insertRadix cfg seq
            numCachedBlocks
      | .hash => .ok (publishHashes cfg (tablePages cfg seq 0 numCachedBlocks) none bm)
    .ok (bm, { seq with
      numCachedTokens := numCachedBlocks * cfg.blockSize
      numPhysicalCachedTokens := numCachedBlocks * cfg.blockSize })

/-- `hash_blocks`: publish the pages completed by the tokens scheduled in this run. -/
def hashBlocks (cfg : Config) (bm : BlockManager) (seq : Sequence) : Py BlockManager :=
  if seq.kvCompressed then .ok bm
  else
    let start := seq.numCachedTokens / cfg.blockSize
    let stop := (seq.numCachedTokens + seq.numScheduledTokens) / cfg.blockSize
    if start = stop then .ok bm
    else if seq.blockTable.length < stop then .error (.indexError "block_table")
    else
      match cfg.prefixCacheBackend with
      | .radix => (recordTokens (tablePages cfg seq start stop) bm).insertRadix cfg seq stop
      | .hash =>
          let previousHash :=
            if 0 < start then (seq.blockTable[start - 1]?).bind fun blockId =>
              (bm.blocks blockId).hash
            else none
          .ok (publishHashes cfg (tablePages cfg seq start stop) previousHash bm)

/-! ## Release of a request's pages -/

/-- `deallocate`. -/
def deallocate (bm : BlockManager) (seq : Sequence) : Py (BlockManager × Sequence) := do
  let bm ← releaseBlocks seq.blockTable.reverse (bm.popPendingResumeMatch seq.seqId)
  .ok (bm, { seq with
    numCachedTokens := 0
    numPhysicalCachedTokens := 0
    kvCompressed := false
    blockTable := []
    kvBlockLogicalIndices := [] })

/-- `abort_restore`. -/
def abortRestore (bm : BlockManager) (seq : Sequence) : Py (BlockManager × Sequence) :=
  if seq.blockTable = [] then .ok (bm, seq) else bm.deallocate seq

/-- `reclaim_suffix`, returning the number of pages which became free. -/
def reclaimSuffix (cfg : Config) (bm : BlockManager) (seq : Sequence) (keepBlocks : ℕ) :
    Py (BlockManager × Sequence × ℕ) :=
  if seq.blockTable.length < keepBlocks then
    .error (.valueError "keep_blocks must be within the owned block table")
  else if seq.numCachedTokens < keepBlocks * cfg.blockSize then
    .error (.valueError "cannot retain blocks containing uncomputed KV tokens")
  else do
    let freeBefore := bm.freeBlockIds.length
    let bm ← releaseBlocks (seq.blockTable.drop keepBlocks).reverse
      (bm.popPendingResumeMatch seq.seqId)
    .ok (bm, { seq with
      blockTable := seq.blockTable.take keepBlocks
      kvBlockLogicalIndices := seq.kvBlockLogicalIndices.take keepBlocks
      numCachedTokens := keepBlocks * cfg.blockSize
      numPhysicalCachedTokens := keepBlocks * cfg.blockSize },
      bm.freeBlockIds.length - freeBefore)

/-! ## Resumption of a request with pages -/

/-- The suffix of a lookup which `can_resume` re-attaches to the retained pages. -/
def resumableSuffix (seq : Sequence) (missingBlocks : ℕ) (cachedBlockIds : List BlockId) :
    List BlockId :=
  let retainedBlocks := seq.blockTable.length
  if cachedBlockIds.take retainedBlocks ≠ seq.blockTable then []
  else (cachedBlockIds.take (retainedBlocks + missingBlocks)).drop retainedBlocks

/-- `can_resume`. -/
def canResume (cfg : Config) (bm : BlockManager) (seq : Sequence) : Py (BlockManager × Bool) :=
  if seq.numBlocks cfg < seq.blockTable.length then
    .error (.runtimeError "request owns more KV blocks than its sequence needs")
  else
    let missingBlocks := seq.numBlocks cfg - seq.blockTable.length
    let (bm, cachedBlockIds) := bm.lookupCachedBlocks cfg seq
    let cachedSuffix := resumableSuffix seq missingBlocks cachedBlockIds
    if (bm.freeBlockIds.length : ℤ) < missingBlocks - bm.countUsed cachedSuffix then
      .ok (bm.popPendingResumeMatch seq.seqId, false)
    else
      .ok ({ bm with
        pendingResumeMatches :=
          Function.update bm.pendingResumeMatches seq.seqId (some cachedSuffix) }, true)

/-- The suffix `resume` attaches: the pending plan, or the one of a new capacity check. -/
def plannedResume (cfg : Config) (bm : BlockManager) (seq : Sequence) :
    Py (BlockManager × List BlockId) :=
  match bm.pendingResumeMatches seq.seqId with
  | some cachedSuffix => .ok (bm.popPendingResumeMatch seq.seqId, cachedSuffix)
  | none => do
      let (bm, resumable) ← bm.canResume cfg seq
      if !resumable then .error (.runtimeError "insufficient KV blocks to resume request")
      else
        match bm.pendingResumeMatches seq.seqId with
        | none => .error (.keyError "pending_resume_matches")
        | some cachedSuffix => .ok (bm.popPendingResumeMatch seq.seqId, cachedSuffix)

/-- `resume`, returning the number of re-attached tokens. -/
def resume (cfg : Config) (bm : BlockManager) (seq : Sequence) :
    Py (BlockManager × Sequence × ℕ) := do
  let (bm, cachedSuffix) ← bm.plannedResume cfg seq
  let bm ← bm.acquireBlocks cachedSuffix
  let attached := seq.blockTable ++ cachedSuffix
  let reusedTokens := cachedSuffix.length * cfg.blockSize
  let (bm, blockTable) ←
    bm.allocateBlocks cfg (seq.numBlocks cfg - attached.length) attached
  let firstIndex := seq.kvBlockLogicalIndices.length
  let addedBlocks := blockTable.length - seq.blockTable.length
  .ok (bm, { seq with
    blockTable := blockTable
    kvBlockLogicalIndices := seq.kvBlockLogicalIndices ++ List.range' firstIndex addedBlocks
    numCachedTokens := seq.numCachedTokens + reusedTokens
    numPhysicalCachedTokens := seq.numPhysicalCachedTokens + reusedTokens }, reusedTokens)

/-! ## Compression -/

/-- The elements of a list at the positions satisfying a predicate. -/
def keepPositions {α : Type} (keep : ℕ → Bool) (xs : List α) : List α :=
  (xs.zipIdx.filter fun entry => keep entry.2).map Prod.fst

/-- `_compress_keep_positions`, returning dropped pages, freed pages and dropped tokens. -/
def compressKeepPositions (cfg : Config) (bm : BlockManager) (seq : Sequence)
    (keep : ℕ → Bool) : Py (BlockManager × Sequence × ℕ × ℕ × ℕ) :=
  let dropped := keepPositions (fun index => !keep index) seq.blockTable
  if dropped = [] then .ok (bm, seq, 0, 0, 0)
  else do
    let freeBefore := bm.freeBlockIds.length
    let bm ← releaseBlocks dropped.reverse bm
    let droppedTokens := min (dropped.length * cfg.blockSize) seq.numPhysicalCachedTokens
    .ok (bm, { seq with
      blockTable := keepPositions keep seq.blockTable
      kvBlockLogicalIndices := keepPositions keep seq.kvBlockLogicalIndices
      numPhysicalCachedTokens := seq.numPhysicalCachedTokens - droppedTokens
      kvCompressed := true },
      dropped.length, bm.freeBlockIds.length - freeBefore, droppedTokens)

/-- `compress_sink_recent`. -/
def compressSinkRecent (cfg : Config) (bm : BlockManager) (seq : Sequence) :
    Py (BlockManager × Sequence × ℕ × ℕ × ℕ) :=
  let sinkBlocks := cfg.kvCompressionSinkBlocks
  let recentBlocks := cfg.kvCompressionRecentBlocks
  if sinkBlocks < 1 ∨ recentBlocks < 1 then
    .error (.valueError "sink and recent windows must each keep at least one block")
  else if seq.blockTable.length ≤ sinkBlocks + recentBlocks then .ok (bm, seq, 0, 0, 0)
  else
    let recentStart := max sinkBlocks (seq.blockTable.length - recentBlocks)
    bm.compressKeepPositions cfg seq fun index =>
      !(sinkBlocks ≤ index && index < recentStart)

/-- The middle positions scored by `compress_query_aware`. -/
def candidatePositions (cfg : Config) (seq : Sequence) : List ℕ :=
  let length := seq.blockTable.length
  let sinkEnd := min cfg.kvCompressionSinkBlocks length
  let recentStart := max sinkEnd (length - cfg.kvCompressionRecentBlocks)
  (List.range length).filter fun index => sinkEnd ≤ index && index < recentStart

/-- The distinct tokens of the logical page at a table position. -/
def positionTokens (cfg : Config) (seq : Sequence) (position : ℕ) : Finset Token :=
  (seq.block cfg (seq.kvBlockLogicalIndices.getD position 0)).toFinset

/-- `document_frequency`: the number of middle pages which contain a token. -/
def documentFrequency (cfg : Config) (seq : Sequence) (tokenId : Token) : ℕ :=
  (candidatePositions cfg seq).countP fun position => tokenId ∈ positionTokens cfg seq position

/-- The score of a middle page against the last `query_tokens` prompt tokens. -/
def positionScore (cfg : Config) (seq : Sequence) (position : ℕ) : ℚ :=
  let prompt := seq.promptTokenIds
  let queryIds := (prompt.drop (prompt.length - cfg.kvCompressionQueryTokens)).toFinset
  ((seq.block cfg (seq.kvBlockLogicalIndices.getD position 0)).dedup.map fun tokenId =>
    if tokenId ∈ queryIds then 1 / (documentFrequency cfg seq tokenId : ℚ) else 0).sum

/-- The best middle positions, by score and then by recency. -/
def importantPositions (cfg : Config) (seq : Sequence) : List ℕ :=
  let scored := (candidatePositions cfg seq).map fun position =>
    toLex (positionScore cfg seq position, position)
  let sorted := scored.insertionSort (fun left right => right ≤ left)
  (sorted.take cfg.kvCompressionImportanceBlocks).map fun entry => (ofLex entry).2

/-- `compress_query_aware`. -/
def compressQueryAware (cfg : Config) (bm : BlockManager) (seq : Sequence) :
    Py (BlockManager × Sequence × ℕ × ℕ × ℕ) :=
  let sinkBlocks := cfg.kvCompressionSinkBlocks
  let recentBlocks := cfg.kvCompressionRecentBlocks
  let importanceBlocks := cfg.kvCompressionImportanceBlocks
  if importanceBlocks < 1 ∨ cfg.kvCompressionQueryTokens < 1 then
    .error (.valueError "importance blocks and query token window must be positive")
  else if seq.blockTable.length ≤ sinkBlocks + recentBlocks + importanceBlocks then
    .ok (bm, seq, 0, 0, 0)
  else
    let sinkEnd := min sinkBlocks seq.blockTable.length
    let recentStart := max sinkEnd (seq.blockTable.length - recentBlocks)
    let important := importantPositions cfg seq
    bm.compressKeepPositions cfg seq fun index =>
      index < sinkEnd || recentStart ≤ index || index ∈ important

/-! ## Decoding -/

/-- The condition under which the next decode step of a request starts a new page. -/
def startsPage (cfg : Config) (seq : Sequence) : Bool :=
  seq.numTokens % cfg.blockSize = 1

/-- `can_append`. -/
def canAppend (cfg : Config) (bm : BlockManager) (seq : Sequence) : Bool :=
  (if startsPage cfg seq then 1 else 0) ≤ bm.freeBlockIds.length

/-- `may_append`. -/
def mayAppend (cfg : Config) (bm : BlockManager) (seq : Sequence) :
    Py (BlockManager × Sequence) :=
  if startsPage cfg seq then do
    let (bm, blockId) ← bm.allocateBlock cfg
    .ok (bm, { seq with
      blockTable := seq.blockTable ++ [blockId]
      kvBlockLogicalIndices := seq.kvBlockLogicalIndices ++ [seq.numBlocks cfg - 1] })
  else .ok (bm, seq)

end BlockManager

end NanoVllm
