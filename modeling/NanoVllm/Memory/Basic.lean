import NanoVllm.Engine
import NanoVllm.BlockManager.Pool
import NanoVllm.Library.References

/-!
# The memory invariant

`MemoryValid` says what the pages hold. The reference counts are those of the block tables, a
page in the prefix index holds exactly the KV of its path, and the pages of a request hold the
KV of its own tokens. A page whose content is still to be computed belongs to one request and is
not in the index.

An operation on one request changes the pages of that request and of nobody else. `Frame` states
this, and `MemoryValid.update` derives that every other request keeps its guarantees.
-/

namespace NanoVllm

namespace Sequence

/-- The pages of a request with the logical pages they hold. -/
def pages (seq : Sequence) : List (ℕ × BlockId) := seq.kvBlockLogicalIndices.zip seq.blockTable

theorem blockKeys_eq (cfg : Config) (seq : Sequence) (n : ℕ) :
    seq.blockKeys cfg n = Paging.pages cfg.blockSize seq.tokenIds n := rfl

theorem mem_blockTable_of_mem_pages {seq : Sequence} {logical : ℕ} {blockId : BlockId}
    (mem : (logical, blockId) ∈ seq.pages) : blockId ∈ seq.blockTable :=
  (List.of_mem_zip mem).2

end Sequence

/-- The number of references to a page from the block tables of some requests. -/
def tableRefs (ids : Finset SeqId) (seqs : SeqId → Sequence) (blockId : BlockId) : ℕ :=
  References.count ids (fun i => (seqs i).blockTable) blockId

/-- Every slot of a page holds the exact KV of a path which ends with the page. -/
structure PageHolds (cfg : Config) (kv : KvStore) (blockId : BlockId) (path : List BlockKey) :
    Prop where
  path_ne : path ≠ []
  full : Paging.Full cfg.blockSize path
  slots : ∀ offset, offset < cfg.blockSize → kv (blockId * cfg.blockSize + offset) =
    some { prefixTokens := path.flatten.take ((path.length - 1) * cfg.blockSize + offset + 1)
           taint := none }

/-- The prefix in the last slot of a page is the whole path. -/
theorem PageHolds.last {cfg : Config} {kv : KvStore} {blockId : BlockId} {path : List BlockKey}
    (holds : PageHolds cfg kv blockId path) :
    kv (blockId * cfg.blockSize + (cfg.blockSize - 1)) =
      some { prefixTokens := path.flatten, taint := none } := by
  have positive := cfg.blockSize_pos
  have length := holds.full.length_flatten
  have path_pos := List.length_pos_iff.mpr holds.path_ne
  have total : (path.length - 1) * cfg.blockSize + (cfg.blockSize - 1) + 1 =
      path.flatten.length := by
    rw [length]
    obtain ⟨n, count⟩ := Nat.exists_eq_add_of_lt path_pos
    rw [count, Nat.zero_add, Nat.add_sub_cancel, Nat.add_mul]
    omega
  rw [holds.slots _ (by omega), total, List.take_length]

/-- A page holds the KV of at most one path. -/
theorem PageHolds.unique {cfg : Config} {kv : KvStore} {blockId : BlockId}
    {path path' : List BlockKey} (holds : PageHolds cfg kv blockId path)
    (holds' : PageHolds cfg kv blockId path') : path = path' := by
  have same := holds.last.symm.trans holds'.last
  simp only [Option.some.injEq, KvSlot.mk.injEq, and_true] at same
  exact holds.full.eq_of_flatten_eq cfg.blockSize_pos holds'.full same

/--
What the memory guarantees to one request: its pages are distinct and in logical order, pages
with content still to come are its own and unpublished, the slots of the first `computed`
tokens hold their KV, and with the hash backend complete pages carry their chained hash.
-/
structure SeqMemory (cfg : Config) (bm : BlockManager) (kv : KvStore) (refs : BlockId → ℕ)
    (computed : ℕ) (seq : Sequence) : Prop where
  distinct : seq.blockTable.Nodup
  sameLength : seq.kvBlockLogicalIndices.length = seq.blockTable.length
  increasing : seq.kvBlockLogicalIndices.Pairwise (· < ·)
  exact : seq.kvCompressed = false →
    seq.kvBlockLogicalIndices = List.range seq.blockTable.length
  exclusive : ∀ logical blockId, (logical, blockId) ∈ seq.pages →
    seq.numCachedTokens < (logical + 1) * cfg.blockSize →
      refs blockId = 1 ∧ bm.Unindexed cfg blockId ∧ (bm.blocks blockId).hash = none
  content : ∀ logical blockId offset, (logical, blockId) ∈ seq.pages → offset < cfg.blockSize →
    logical * cfg.blockSize + offset < computed →
      ∃ taint, kv (blockId * cfg.blockSize + offset) =
          some { prefixTokens := seq.tokenIds.take (logical * cfg.blockSize + offset + 1), taint } ∧
        (taint = none ∨ (seq.kvCompressed = true ∧ taint = some seq.seqId))
  sealed : cfg.prefixCacheBackend = .hash → seq.kvCompressed = false →
    ∀ logical blockId, (logical, blockId) ∈ seq.pages →
      (logical + 1) * cfg.blockSize ≤ seq.numCachedTokens →
        (bm.blocks blockId).hash = chainHash cfg (seq.blockKeys cfg (logical + 1))

/--
The memory invariant. `computed` is the number of tokens of a request whose KV is in memory:
the cached tokens, and after a model run also the scheduled ones.
-/
structure MemoryValid (cfg : Config) (ids : Finset SeqId) (seqs : SeqId → Sequence)
    (bm : BlockManager) (kv : KvStore) (computed : Sequence → ℕ) : Prop where
  pool : bm.PoolValid cfg (tableRefs ids seqs)
  index : bm.IndexValid cfg
  cached : ∀ path blockId, bm.entry cfg path = some blockId →
    blockId < cfg.numBlocks ∧ PageHolds cfg kv blockId path
  request : ∀ i ∈ ids, SeqMemory cfg bm kv (tableRefs ids seqs) (computed (seqs i)) (seqs i)

/--
The effect of an operation on pages it does not touch: their hashes stay, recorded hashes of
referenced pages are never lost, and only touched pages enter the index.
-/
structure Frame (cfg : Config) (bm bm' : BlockManager) (refs : BlockId → ℕ)
    (touched : List BlockId) : Prop where
  hash : ∀ blockId, blockId ∉ touched → (bm'.blocks blockId).hash = (bm.blocks blockId).hash
  recorded : ∀ blockId h, 0 < refs blockId → (bm.blocks blockId).hash = some h →
    (bm'.blocks blockId).hash = some h
  index : ∀ path blockId, bm'.entry cfg path = some blockId →
    bm.entry cfg path = some blockId ∨ blockId ∈ touched

variable {cfg : Config} {ids : Finset SeqId} {seqs : SeqId → Sequence} {bm bm' : BlockManager}
  {kv : KvStore} {computed : Sequence → ℕ}

theorem tableRefs_update {i : SeqId} (known : i ∈ ids) (seq : Sequence) (blockId : BlockId) :
    tableRefs ids (Function.update seqs i seq) blockId + (seqs i).blockTable.count blockId =
      tableRefs ids seqs blockId + seq.blockTable.count blockId := by
  rw [tableRefs, tableRefs, ← References.count_update_add known seq.blockTable]
  congr 2
  funext j
  by_cases same : j = i
  · subst same
    simp only [Function.update_self]
  · simp only [Function.update_of_ne same]

/-- Replacing a request by one with the same block table changes no reference. -/
theorem tableRefs_update_of_eq (ids : Finset SeqId) {i : SeqId} {seq : Sequence}
    (table : seq.blockTable = (seqs i).blockTable) :
    tableRefs ids (Function.update seqs i seq) = tableRefs ids seqs := by
  funext blockId
  refine References.count_congr fun j _ => ?_
  by_cases same : j = i
  · subst same
    simp [table]
  · simp [same]

/-- The logical pages of an uncompressed request are its table positions. -/
theorem SeqMemory.mem_pages_iff {refs : BlockId → ℕ} {n logical : ℕ} {seq : Sequence}
    {blockId : BlockId} (memory : SeqMemory cfg bm kv refs n seq)
    (uncompressed : seq.kvCompressed = false) :
    (logical, blockId) ∈ seq.pages ↔ seq.blockTable[logical]? = some blockId := by
  rw [Sequence.pages, List.mem_iff_getElem?, memory.exact uncompressed]
  constructor
  · rintro ⟨k, get⟩
    rw [List.getElem?_zip_eq_some] at get
    obtain ⟨getLogical, getBlock⟩ := get
    rw [List.getElem?_range (List.getElem?_eq_some_iff.mp getBlock).1, Option.some.injEq]
      at getLogical
    subst getLogical
    exact getBlock
  · intro get
    refine ⟨logical, ?_⟩
    rw [List.getElem?_zip_eq_some]
    exact ⟨List.getElem?_range (List.getElem?_eq_some_iff.mp get).1, get⟩

/-- The guarantees of a request survive operations which only touch other pages. -/
theorem SeqMemory.frame {refs refs' : BlockId → ℕ} {n : ℕ} {seq : Sequence}
    {touched : List BlockId} (memory : SeqMemory cfg bm kv refs n seq)
    (frame : Frame cfg bm bm' refs touched)
    (referenced : ∀ blockId ∈ seq.blockTable, 0 < refs blockId)
    (untouched : ∀ blockId ∈ seq.blockTable, refs blockId = 1 → bm.Unindexed cfg blockId →
      blockId ∉ touched ∧ refs' blockId = 1) :
    SeqMemory cfg bm' kv refs' n seq where
  distinct := memory.distinct
  sameLength := memory.sameLength
  increasing := memory.increasing
  exact := memory.exact
  exclusive logical blockId mem incomplete := by
    obtain ⟨single, unindexed, noHash⟩ := memory.exclusive logical blockId mem incomplete
    obtain ⟨notTouched, single'⟩ :=
      untouched blockId (Sequence.mem_blockTable_of_mem_pages mem) single unindexed
    refine ⟨single', fun path found => ?_, (frame.hash blockId notTouched).trans noHash⟩
    exact (frame.index path blockId found).elim (unindexed path) notTouched
  content := memory.content
  sealed backend uncompressed logical blockId mem complete := by
    have hash := memory.sealed backend uncompressed logical blockId mem complete
    rw [Sequence.blockKeys_eq, Paging.pages_succ, chainHash_append_singleton] at hash ⊢
    exact frame.recorded blockId _ (referenced blockId (Sequence.mem_blockTable_of_mem_pages mem))
      hash

theorem tableRefs_pos {i : SeqId} (known : i ∈ ids) {blockId : BlockId}
    (mem : blockId ∈ (seqs i).blockTable) : 0 < tableRefs ids seqs blockId :=
  References.count_pos_of_mem known mem

namespace MemoryValid

/-- A page with one reference is in one table only. -/
theorem eq_of_single {i j : SeqId} {blockId : BlockId} (single : tableRefs ids seqs blockId = 1)
    (known : i ∈ ids) (mem : blockId ∈ (seqs i).blockTable) (known' : j ∈ ids)
    (mem' : blockId ∈ (seqs j).blockTable) : i = j :=
  References.eq_of_count_eq_one single known mem known' mem'

/--
An operation on one request keeps the memory invariant if it keeps it for that request and for
the index, attaches only unreferenced or indexed pages, and satisfies the frame condition.
-/
theorem update (valid : MemoryValid cfg ids seqs bm kv computed) {i : SeqId} (known : i ∈ ids)
    {seq : Sequence}
    (pool : bm'.PoolValid cfg (tableRefs ids (Function.update seqs i seq)))
    (index : bm'.IndexValid cfg)
    (cached : ∀ path blockId, bm'.entry cfg path = some blockId →
      bm.entry cfg path = some blockId ∨
        (blockId < cfg.numBlocks ∧ PageHolds cfg kv blockId path))
    (frame : Frame cfg bm bm' (tableRefs ids seqs) ((seqs i).blockTable ++ seq.blockTable))
    (attached : ∀ blockId ∈ seq.blockTable, blockId ∈ (seqs i).blockTable ∨
      tableRefs ids seqs blockId = 0 ∨ ¬bm.Unindexed cfg blockId)
    (request : SeqMemory cfg bm' kv (tableRefs ids (Function.update seqs i seq)) (computed seq)
      seq) :
    MemoryValid cfg ids (Function.update seqs i seq) bm' kv computed where
  pool := pool
  index := index
  cached path blockId found := (cached path blockId found).elim (valid.cached path blockId) id
  request j known' := by
    by_cases same : j = i
    · subst same
      rw [Function.update_self]
      exact request
    · rw [Function.update_of_ne same]
      refine (valid.request j known').frame frame
        (fun blockId => tableRefs_pos known') fun blockId mem single unindexed => ?_
      have notOld : blockId ∉ (seqs i).blockTable := fun mem' =>
        same (eq_of_single single known' mem known mem')
      have notNew : blockId ∉ seq.blockTable := fun mem' => by
        rcases attached blockId mem' with old | unreferenced | indexed
        · exact notOld old
        · omega
        · exact indexed unindexed
      have refs : _ = tableRefs ids seqs blockId + _ := tableRefs_update known seq blockId
      rw [List.count_eq_zero.mpr notOld, List.count_eq_zero.mpr notNew, single] at refs
      exact ⟨by simp [notOld, notNew], refs⟩

end MemoryValid

theorem SeqMemory.mono {refs : BlockId → ℕ} {n n' : ℕ} {seq : Sequence}
    (memory : SeqMemory cfg bm kv refs n seq) (le : n' ≤ n) :
    SeqMemory cfg bm kv refs n' seq where
  distinct := memory.distinct
  sameLength := memory.sameLength
  increasing := memory.increasing
  exact := memory.exact
  exclusive := memory.exclusive
  content logical blockId offset mem inPage short :=
    memory.content logical blockId offset mem inPage (short.trans_le le)
  sealed := memory.sealed

/-- Fewer tokens may be claimed as computed. -/
theorem MemoryValid.mono {computed' : Sequence → ℕ}
    (valid : MemoryValid cfg ids seqs bm kv computed)
    (le : ∀ i ∈ ids, computed' (seqs i) ≤ computed (seqs i)) :
    MemoryValid cfg ids seqs bm kv computed' where
  pool := valid.pool
  index := valid.index
  cached := valid.cached
  request i known := (valid.request i known).mono (le i known)

/-- Two records of a request which agree on everything the memory invariant reads. -/
structure Sequence.SameKv (seq seq' : Sequence) : Prop where
  seqId : seq'.seqId = seq.seqId
  tokenIds : seq'.tokenIds = seq.tokenIds
  blockTable : seq'.blockTable = seq.blockTable
  kvBlockLogicalIndices : seq'.kvBlockLogicalIndices = seq.kvBlockLogicalIndices
  numCachedTokens : seq'.numCachedTokens = seq.numCachedTokens
  kvCompressed : seq'.kvCompressed = seq.kvCompressed

theorem Sequence.SameKv.refl (seq : Sequence) : seq.SameKv seq := ⟨rfl, rfl, rfl, rfl, rfl, rfl⟩

theorem SeqMemory.agree {refs : BlockId → ℕ} {n n' : ℕ} {seq seq' : Sequence}
    (memory : SeqMemory cfg bm kv refs n seq) (same : seq.SameKv seq') (le : n' ≤ n) :
    SeqMemory cfg bm kv refs n' seq' := by
  obtain ⟨seqId, tokenIds, blockTable, logical, cached, compressed⟩ := same
  have pages : seq'.pages = seq.pages := by rw [Sequence.pages, blockTable, logical]; rfl
  refine ⟨blockTable ▸ memory.distinct, ?_, logical ▸ memory.increasing, ?_, ?_, ?_, ?_⟩
  · rw [logical, blockTable, memory.sameLength]
  · rw [logical, blockTable, compressed]
    exact memory.exact
  · rw [pages, cached]
    exact memory.exclusive
  · rw [pages, tokenIds, compressed, seqId]
    exact fun logical blockId offset mem inPage computed =>
      memory.content logical blockId offset mem inPage (computed.trans_le le)
  · rw [pages, compressed, cached]
    simp only [Sequence.blockKeys_eq, tokenIds]
    exact memory.sealed

/-- The memory invariant does not depend on the other fields of a request. -/
theorem MemoryValid.agree (valid : MemoryValid cfg ids seqs bm kv computed) {i : SeqId}
    {seq : Sequence} (same : (seqs i).SameKv seq) (le : computed seq ≤ computed (seqs i)) :
    MemoryValid cfg ids (Function.update seqs i seq) bm kv computed := by
  have refs := tableRefs_update_of_eq ids same.blockTable
  refine ⟨refs ▸ valid.pool, valid.index, valid.cached, fun j known => ?_⟩
  rw [refs]
  by_cases self : j = i
  · subst self
    rw [Function.update_self]
    exact (valid.request j known).agree same le
  · rw [Function.update_of_ne self]
    exact valid.request j known

/-- Changing other fields of a request which has just been replaced. -/
theorem MemoryValid.replace {i : SeqId} {seq seq' : Sequence}
    (valid : MemoryValid cfg ids (Function.update seqs i seq) bm kv computed)
    (same : seq.SameKv seq') (le : computed seq' ≤ computed seq) :
    MemoryValid cfg ids (Function.update seqs i seq') bm kv computed := by
  have agreed := @MemoryValid.agree cfg ids _ bm kv computed valid i seq' (by rwa [Function.update_self])
    (by rwa [Function.update_self])
  rwa [Function.update_idem] at agreed

end NanoVllm
