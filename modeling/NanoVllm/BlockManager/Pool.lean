import NanoVllm.BlockManager.Index
import Mathlib.Data.Finset.Card
import Mathlib.Data.Finset.Range
import Mathlib.Data.Finset.Basic

/-!
# Reference counts and the free list

`PoolValid` ties the reference counts, the free list and the used set to a function which says
how many references each page should have. Acquiring, allocating and releasing pages add and
drop references; under the stated capacity conditions they raise nothing.
-/

namespace NanoVllm

namespace BlockManager

variable {cfg : Config} {bm bm' bm'' : BlockManager} {refs : BlockId → ℕ}

/-- The state of the pages when `refs` counts the references to each page. -/
structure PoolValid (cfg : Config) (bm : BlockManager) (refs : BlockId → ℕ) : Prop where
  freeNodup : bm.freeBlockIds.Nodup
  mem_free : ∀ blockId, blockId ∈ bm.freeBlockIds ↔ blockId < cfg.numBlocks ∧ refs blockId = 0
  mem_used : ∀ blockId, blockId ∈ bm.usedBlockIds ↔ 0 < refs blockId
  refCount : ∀ blockId, (bm.blocks blockId).refCount = refs blockId
  lt_numBlocks : ∀ blockId, 0 < refs blockId → blockId < cfg.numBlocks

/-- Add one reference for each listed page. -/
def addRefs (refs : BlockId → ℕ) (blockIds : List BlockId) (blockId : BlockId) : ℕ :=
  refs blockId + blockIds.count blockId

/-- Drop one reference for each listed page. -/
def dropRefs (refs : BlockId → ℕ) (blockIds : List BlockId) (blockId : BlockId) : ℕ :=
  refs blockId - blockIds.count blockId

/-- Two states which differ only in reference counts, the free list and the used set. -/
structure RefsOnly (bm bm' : BlockManager) : Prop where
  hash : ∀ blockId, (bm'.blocks blockId).hash = (bm.blocks blockId).hash
  tokenIds : ∀ blockId, (bm'.blocks blockId).tokenIds = (bm.blocks blockId).tokenIds
  hashToBlockId : bm'.hashToBlockId = bm.hashToBlockId
  radixCache : bm'.radixCache = bm.radixCache
  pendingMatches : bm'.pendingMatches = bm.pendingMatches
  pendingResumeMatches : bm'.pendingResumeMatches = bm.pendingResumeMatches

namespace RefsOnly

theorem refl (bm : BlockManager) : RefsOnly bm bm :=
  ⟨fun _ => rfl, fun _ => rfl, rfl, rfl, rfl, rfl⟩

theorem trans (first : RefsOnly bm bm') (second : RefsOnly bm' bm'') : RefsOnly bm bm'' where
  hash blockId := (second.hash blockId).trans (first.hash blockId)
  tokenIds blockId := (second.tokenIds blockId).trans (first.tokenIds blockId)
  hashToBlockId := second.hashToBlockId.trans first.hashToBlockId
  radixCache := second.radixCache.trans first.radixCache
  pendingMatches := second.pendingMatches.trans first.pendingMatches
  pendingResumeMatches := second.pendingResumeMatches.trans first.pendingResumeMatches

theorem entry (same : RefsOnly bm bm') (path : List BlockKey) :
    bm'.entry cfg path = bm.entry cfg path :=
  entry_congr same.hashToBlockId same.radixCache path

theorem index (same : RefsOnly bm bm') (valid : bm.IndexValid cfg) : bm'.IndexValid cfg :=
  valid.congr same.hashToBlockId same.radixCache same.hash same.tokenIds

end RefsOnly

namespace PoolValid

theorem init (cfg : Config) : PoolValid cfg (init cfg) fun _ => 0 where
  freeNodup := List.nodup_range
  mem_free blockId := by simp [BlockManager.init]
  mem_used blockId := by simp [BlockManager.init]
  refCount blockId := rfl
  lt_numBlocks blockId referenced := absurd referenced (Nat.lt_irrefl 0)

theorem congr {refs' : BlockId → ℕ} (valid : PoolValid cfg bm refs)
    (same : ∀ blockId, refs' blockId = refs blockId) : PoolValid cfg bm refs' := by
  rwa [funext same]

theorem of_sameMemory (valid : PoolValid cfg bm refs) (same : SameMemory cfg bm bm') :
    PoolValid cfg bm' refs where
  freeNodup := same.freeBlockIds ▸ valid.freeNodup
  mem_free := same.freeBlockIds ▸ valid.mem_free
  mem_used := same.usedBlockIds ▸ valid.mem_used
  refCount := same.blocks ▸ valid.refCount
  lt_numBlocks := valid.lt_numBlocks

/-- The number of free pages is a function of the references. -/
theorem length_free (valid : PoolValid cfg bm refs) :
    bm.freeBlockIds.length = ((Finset.range cfg.numBlocks).filter (refs · = 0)).card := by
  rw [← List.toFinset_card_of_nodup valid.freeNodup]
  congr 1
  ext blockId
  simp [valid.mem_free]

theorem countUsed (valid : PoolValid cfg bm refs) (blockIds : List BlockId) :
    bm.countUsed blockIds = blockIds.countP (0 < refs ·) := by
  simp only [BlockManager.countUsed, valid.mem_used]

/-- A change of the references to one page. -/
theorem update (valid : PoolValid cfg bm refs) {blockId : BlockId} {refs' : BlockId → ℕ}
    (inRange : blockId < cfg.numBlocks) (others : ∀ other, other ≠ blockId → refs' other = refs other)
    (freeNodup : bm'.freeBlockIds.Nodup)
    (freeOthers : ∀ other, other ≠ blockId →
      (other ∈ bm'.freeBlockIds ↔ other ∈ bm.freeBlockIds))
    (freeSelf : blockId ∈ bm'.freeBlockIds ↔ refs' blockId = 0)
    (usedOthers : ∀ other, other ≠ blockId →
      (other ∈ bm'.usedBlockIds ↔ other ∈ bm.usedBlockIds))
    (usedSelf : blockId ∈ bm'.usedBlockIds ↔ 0 < refs' blockId)
    (blocksOthers : ∀ other, other ≠ blockId →
      (bm'.blocks other).refCount = (bm.blocks other).refCount)
    (blocksSelf : (bm'.blocks blockId).refCount = refs' blockId) : PoolValid cfg bm' refs' where
  freeNodup := freeNodup
  mem_free other := by
    by_cases same : other = blockId
    · subst same
      rw [freeSelf, and_iff_right inRange]
    · rw [freeOthers other same, valid.mem_free, others other same]
  mem_used other := by
    by_cases same : other = blockId
    · subst same
      exact usedSelf
    · rw [usedOthers other same, valid.mem_used, others other same]
  refCount other := by
    by_cases same : other = blockId
    · subst same
      exact blocksSelf
    · rw [blocksOthers other same, valid.refCount, others other same]
  lt_numBlocks other referenced := by
    by_cases same : other = blockId
    · subst same
      exact inRange
    · exact valid.lt_numBlocks other (others other same ▸ referenced)

end PoolValid

theorem addRefs_singleton_self (refs : BlockId → ℕ) (blockId : BlockId) :
    addRefs refs [blockId] blockId = refs blockId + 1 := by
  simp [addRefs]

theorem addRefs_singleton_of_ne {other blockId : BlockId} (differ : other ≠ blockId) :
    addRefs refs [blockId] other = refs other := by
  simp [addRefs, Ne.symm differ]

theorem dropRefs_singleton_self (refs : BlockId → ℕ) (blockId : BlockId) :
    dropRefs refs [blockId] blockId = refs blockId - 1 := by
  simp [dropRefs]

theorem dropRefs_singleton_of_ne {other blockId : BlockId} (differ : other ≠ blockId) :
    dropRefs refs [blockId] other = refs other := by
  simp [dropRefs, Ne.symm differ]

theorem addRefs_cons (blockId : BlockId) (blockIds : List BlockId) :
    addRefs refs (blockId :: blockIds) = addRefs (addRefs refs [blockId]) blockIds := by
  funext other
  simp only [addRefs, List.count_cons, List.count_nil]
  omega

theorem dropRefs_cons (blockId : BlockId) (blockIds : List BlockId) :
    dropRefs refs (blockId :: blockIds) = dropRefs (dropRefs refs [blockId]) blockIds := by
  funext other
  simp only [dropRefs, List.count_cons, List.count_nil]
  omega

/-! ## Setting one block -/

section SetBlock

variable {blockId other : BlockId} {block : Block}

@[simp] theorem setBlock_blocks_self : (bm.setBlock blockId block).blocks blockId = block := by
  simp [setBlock]

@[simp] theorem setBlock_usedBlockIds :
    (bm.setBlock blockId block).usedBlockIds = bm.usedBlockIds := rfl

@[simp] theorem setBlock_freeBlockIds :
    (bm.setBlock blockId block).freeBlockIds = bm.freeBlockIds := rfl

theorem setBlock_blocks_of_ne (differ : other ≠ blockId) :
    (bm.setBlock blockId block).blocks other = bm.blocks other := by
  simp [setBlock, differ]

/-- A change of a reference count and of the lists. -/
theorem RefsOnly.of_setBlock {refCount : ℤ} {freeBlockIds : List BlockId}
    {usedBlockIds : Finset BlockId} :
    RefsOnly bm { bm.setBlock blockId { bm.blocks blockId with refCount := refCount } with
      freeBlockIds, usedBlockIds } := by
  refine ⟨fun other => ?_, fun other => ?_, rfl, rfl, rfl, rfl⟩
  all_goals
    by_cases same : other = blockId
    · subst same
      simp [setBlock]
    · simp [setBlock, same]

end SetBlock

/-! ## Releasing -/

namespace PoolValid

theorem releaseBlock (valid : PoolValid cfg bm refs) {blockId : BlockId}
    (referenced : 0 < refs blockId) :
    ∃ bm', bm.releaseBlock blockId = .ok bm' ∧ PoolValid cfg bm' (dropRefs refs [blockId]) ∧
      RefsOnly bm bm' := by
  have refCount := valid.refCount blockId
  have inRange := valid.lt_numBlocks blockId referenced
  have notFree : blockId ∉ bm.freeBlockIds := fun mem => by
    have := ((valid.mem_free blockId).mp mem).2
    omega
  have used : blockId ∈ bm.usedBlockIds := (valid.mem_used blockId).mpr referenced
  simp only [BlockManager.releaseBlock]
  split
  · next last =>
    rw [deallocateBlock, if_neg (by simp [last]), if_neg (by simpa using used)]
    refine ⟨_, rfl, valid.update inRange (fun other differ => dropRefs_singleton_of_ne differ)
      ?_ ?_ ?_ ?_ ?_ ?_ ?_, .of_setBlock⟩
    · exact List.nodup_append.mpr ⟨valid.freeNodup, List.nodup_singleton _,
        fun a mem b mem' same => notFree (by simp_all [setBlock])⟩
    · intro other differ
      simp [setBlock, differ]
    · rw [dropRefs_singleton_self]
      simp only [List.mem_append, List.mem_singleton, or_true, true_iff]
      omega
    · intro other differ
      simp [setBlock, differ]
    · rw [dropRefs_singleton_self]
      simp only [Finset.mem_erase, ne_eq, not_true_eq_false, false_and, false_iff]
      omega
    · intro other differ
      simp [setBlock, differ]
    · rw [dropRefs_singleton_self]
      simp only [setBlock_blocks_self]
      omega
  · next more =>
    refine ⟨_, rfl, valid.update inRange (fun other differ => dropRefs_singleton_of_ne differ)
      valid.freeNodup (fun _ _ => Iff.rfl) ?_ (fun _ _ => Iff.rfl) ?_ ?_ ?_, .of_setBlock⟩
    · rw [dropRefs_singleton_self]
      refine iff_of_false notFree ?_
      omega
    · rw [dropRefs_singleton_self]
      refine iff_of_true used ?_
      omega
    · intro other differ
      rw [setBlock_blocks_of_ne differ]
    · simp only [dropRefs_singleton_self, setBlock_blocks_self]
      omega

/-- Releasing referenced pages raises nothing. -/
theorem releaseBlocks (valid : PoolValid cfg bm refs) {blockIds : List BlockId}
    (referenced : ∀ blockId, blockIds.count blockId ≤ refs blockId) :
    ∃ bm', BlockManager.releaseBlocks blockIds bm = .ok bm' ∧
      PoolValid cfg bm' (dropRefs refs blockIds) ∧ RefsOnly bm bm' := by
  induction blockIds generalizing bm refs with
  | nil => exact ⟨bm, rfl, valid.congr fun _ => by simp [dropRefs], .refl bm⟩
  | cons blockId blockIds ih =>
    have first := referenced blockId
    rw [List.count_cons_self] at first
    obtain ⟨bm₁, released, valid₁, same₁⟩ :=
      valid.releaseBlock (show 0 < refs blockId by omega)
    obtain ⟨bm₂, releasedRest, valid₂, same₂⟩ := ih valid₁ fun other => by
      have := referenced other
      simp only [List.count_cons, dropRefs, List.count_nil] at this ⊢
      omega
    refine ⟨bm₂, ?_, dropRefs_cons blockId blockIds ▸ valid₂, same₁.trans same₂⟩
    rw [BlockManager.releaseBlocks, released, Py.ok_bind, releasedRest]

/-! ## Acquiring -/

theorem acquireBlock (valid : PoolValid cfg bm refs) {blockId : BlockId}
    (inRange : blockId < cfg.numBlocks) :
    ∃ bm', bm.acquireBlock blockId = .ok bm' ∧ PoolValid cfg bm' (addRefs refs [blockId]) ∧
      RefsOnly bm bm' := by
  have refCount := valid.refCount blockId
  simp only [BlockManager.acquireBlock]
  by_cases used : blockId ∈ bm.usedBlockIds
  · have referenced := (valid.mem_used blockId).mp used
    have notFree : blockId ∉ bm.freeBlockIds := fun mem => by
      have := ((valid.mem_free blockId).mp mem).2
      omega
    rw [if_pos used]
    refine ⟨_, rfl, valid.update inRange (fun other differ => addRefs_singleton_of_ne differ)
      valid.freeNodup (fun _ _ => Iff.rfl) ?_ (fun _ _ => Iff.rfl) ?_ ?_ ?_, .of_setBlock⟩
    · rw [addRefs_singleton_self]
      exact iff_of_false notFree (Nat.succ_ne_zero _)
    · rw [addRefs_singleton_self]
      exact iff_of_true used (Nat.succ_pos _)
    · intro other differ
      rw [setBlock_blocks_of_ne differ]
    · simp only [addRefs_singleton_self, setBlock_blocks_self]
      omega
  · have unreferenced : refs blockId = 0 := by
      rw [valid.mem_used] at used
      omega
    have free := (valid.mem_free blockId).mpr ⟨inRange, unreferenced⟩
    rw [if_neg used, if_neg (not_not.mpr free)]
    refine ⟨_, rfl, valid.update inRange (fun other differ => addRefs_singleton_of_ne differ)
      (valid.freeNodup.erase _) (fun other differ => List.mem_erase_of_ne differ) ?_
      (fun other differ => by simp [differ]) ?_ ?_ ?_, .of_setBlock⟩
    · rw [addRefs_singleton_self]
      exact iff_of_false (fun mem => (valid.freeNodup.mem_erase_iff.mp mem).1 rfl)
        (Nat.succ_ne_zero _)
    · rw [addRefs_singleton_self]
      exact iff_of_true (Finset.mem_insert_self _ _) (Nat.succ_pos _)
    · intro other differ
      rw [setBlock_blocks_of_ne differ]
    · simp only [addRefs_singleton_self, setBlock_blocks_self]
      omega

/-- Acquiring existing pages raises nothing. -/
theorem acquireBlocks (valid : PoolValid cfg bm refs) {blockIds : List BlockId}
    (inRange : ∀ blockId ∈ blockIds, blockId < cfg.numBlocks) :
    ∃ bm', BlockManager.acquireBlocks blockIds bm = .ok bm' ∧
      PoolValid cfg bm' (addRefs refs blockIds) ∧ RefsOnly bm bm' := by
  induction blockIds generalizing bm refs with
  | nil => exact ⟨bm, rfl, valid.congr fun _ => by simp [addRefs], .refl bm⟩
  | cons blockId blockIds ih =>
    obtain ⟨bm₁, acquired, valid₁, same₁⟩ := valid.acquireBlock (inRange blockId (.head _))
    obtain ⟨bm₂, acquiredRest, valid₂, same₂⟩ := ih valid₁ fun other mem =>
      inRange other (.tail _ mem)
    refine ⟨bm₂, ?_, addRefs_cons blockId blockIds ▸ valid₂, same₁.trans same₂⟩
    rw [BlockManager.acquireBlocks, acquired, Py.ok_bind, acquiredRest]

/-- Acquiring pages takes the unreferenced ones off the free list. -/
theorem length_free_addRefs (valid : PoolValid cfg bm refs) {blockIds : List BlockId}
    (valid' : PoolValid cfg bm' (addRefs refs blockIds)) (distinct : blockIds.Nodup) :
    bm'.freeBlockIds.length + blockIds.length =
      bm.freeBlockIds.length + blockIds.countP (0 < refs ·) := by
  have inRange : ∀ blockId ∈ blockIds, blockId < cfg.numBlocks := fun blockId mem =>
    valid'.lt_numBlocks blockId (by
      have := List.count_pos_iff.mpr mem
      simp only [addRefs]
      omega)
  have free' : (Finset.range cfg.numBlocks).filter (addRefs refs blockIds · = 0) =
      ((Finset.range cfg.numBlocks).filter (refs · = 0)) \
        (blockIds.filter (refs · = 0)).toFinset := by
    ext blockId
    simp only [addRefs, Finset.mem_filter, Finset.mem_sdiff, List.mem_toFinset, List.mem_filter,
      Nat.add_eq_zero_iff, List.count_eq_zero, decide_eq_true_eq]
    tauto
  have subset : (blockIds.filter (refs · = 0)).toFinset ⊆
      (Finset.range cfg.numBlocks).filter (refs · = 0) := fun blockId mem => by
    simp only [List.mem_toFinset, List.mem_filter, decide_eq_true_eq] at mem
    simp [inRange blockId mem.1, mem.2]
  have card := Finset.card_sdiff_add_card_eq_card subset
  rw [← free', ← valid'.length_free, ← valid.length_free,
    List.toFinset_card_of_nodup (distinct.filter _), ← List.countP_eq_length_filter] at card
  have split := List.length_eq_countP_add_countP (l := blockIds) fun blockId => refs blockId = 0
  have same : blockIds.countP (fun blockId => ¬decide (refs blockId = 0) = true) =
      blockIds.countP (0 < refs ·) := List.countP_congr fun blockId _ => by
    simp [Nat.pos_iff_ne_zero]
  omega

end PoolValid

/-! ## Allocating -/

/--
The allocation of fresh pages: they had no references and now have one each, they have left
the index, and entries through referenced pages stay.
-/
structure Allocates (cfg : Config) (bm : BlockManager) (refs : BlockId → ℕ) (bm' : BlockManager)
    (fresh : List BlockId) : Prop where
  pool : PoolValid cfg bm' (addRefs refs fresh)
  index : bm'.IndexValid cfg
  distinct : fresh.Nodup
  unreferenced : ∀ blockId ∈ fresh, refs blockId = 0
  unindexed : ∀ blockId ∈ fresh, bm'.Unindexed cfg blockId
  clean : ∀ blockId ∈ fresh, (bm'.blocks blockId).hash = none
  hash : ∀ blockId, blockId ∉ fresh → (bm'.blocks blockId).hash = (bm.blocks blockId).hash
  shrinks : ∀ path value, bm'.entry cfg path = some value → bm.entry cfg path = some value
  keeps : ∀ path value, bm.entry cfg path = some value →
    (∀ ancestor blockId, ancestor <+: path → bm.entry cfg ancestor = some blockId →
      0 < refs blockId) → bm'.entry cfg path = some value
  pendingMatches : bm'.pendingMatches = bm.pendingMatches
  pendingResumeMatches : bm'.pendingResumeMatches = bm.pendingResumeMatches

theorem pickFreeBlock_mem {blockId : BlockId} (picked : bm.pickFreeBlock cfg = some blockId) :
    blockId ∈ bm.freeBlockIds := by
  unfold pickFreeBlock at picked
  split at picked
  · exact List.mem_of_head? picked
  · simp only [Option.orElse_eq_orElse, Option.orElse_eq_or, Option.or_eq_some_iff] at picked
    rcases picked with unindexed | ⟨-, oldest | ⟨-, first⟩⟩
    · exact List.mem_of_find?_eq_some unindexed
    · simpa using RadixPrefixCache.lruLeafBlock_mem oldest
    · exact List.mem_of_head? first

theorem pickFreeBlock_isSome (cfg : Config) (nonempty : bm.freeBlockIds ≠ []) :
    ∃ blockId, bm.pickFreeBlock cfg = some blockId := by
  obtain ⟨first, rest, free⟩ := List.exists_cons_of_ne_nil nonempty
  unfold pickFreeBlock
  split
  · exact ⟨first, by rw [free, List.head?_cons]⟩
  · rw [free, List.head?_cons, ← Option.isSome_iff_exists]
    simp

theorem PoolValid.allocateBlock (pool : PoolValid cfg bm refs) (index : bm.IndexValid cfg)
    (nonempty : bm.freeBlockIds ≠ []) :
    ∃ bm' blockId, bm.allocateBlock cfg = .ok (bm', blockId) ∧
      Allocates cfg bm refs bm' [blockId] := by
  obtain ⟨blockId, picked⟩ := pickFreeBlock_isSome cfg nonempty
  have free := pickFreeBlock_mem picked
  obtain ⟨inRange, unreferenced⟩ := (pool.mem_free blockId).mp free
  have refCount := pool.refCount blockId
  have index₁ : IndexValid cfg { bm with freeBlockIds := bm.freeBlockIds.erase blockId } :=
    ⟨index.radix, index.hash⟩
  have evicts := evict_evicts index₁ blockId
  have index₂ := (evict_valid index₁ blockId).setBlock evicts.unindexed
    { refCount := 1, hash := none, tokenIds := [] }
  simp only [BlockManager.allocateBlock, picked]
  rw [if_neg (by simp [refCount, unreferenced])]
  refine ⟨_, _, rfl, pool.update inRange (fun other differ => addRefs_singleton_of_ne differ)
    ?_ ?_ ?_ ?_ ?_ ?_ ?_, ⟨index₂.radix, index₂.hash⟩, List.nodup_singleton _, ?_, ?_, ?_, ?_,
    evicts.shrinks, ?_, ?_, ?_⟩
  · simpa using pool.freeNodup.erase blockId
  · intro other differ
    simp [List.mem_erase_of_ne differ]
  · simp [addRefs_singleton_self, pool.freeNodup.mem_erase_iff]
  · intro other differ
    simp [differ]
  · simp [addRefs_singleton_self]
  · intro other differ
    simp [setBlock_blocks_of_ne differ]
  · simp [addRefs_singleton_self, unreferenced]
  · simp [unreferenced]
  · simp only [List.mem_singleton, forall_eq]
    exact evicts.unindexed
  · simp
  · intro other differ
    rw [List.mem_singleton] at differ
    simp [setBlock_blocks_of_ne differ]
  · intro path value found referenced
    refine evicts.keeps path value found fun ancestor isPrefix hit => ?_
    have := referenced ancestor blockId isPrefix hit
    omega
  · exact evict_pendingMatches blockId
  · exact evict_pendingResumeMatches blockId

/-- Allocating no more pages than are free raises nothing. -/
theorem PoolValid.allocateBlocks (pool : PoolValid cfg bm refs) (index : bm.IndexValid cfg)
    {count : ℕ} (enough : count ≤ bm.freeBlockIds.length) (blockTable : List BlockId) :
    ∃ bm' fresh, BlockManager.allocateBlocks cfg count bm blockTable =
        .ok (bm', blockTable ++ fresh) ∧ fresh.length = count ∧
      Allocates cfg bm refs bm' fresh := by
  induction count generalizing bm refs blockTable with
  | zero =>
    refine ⟨bm, [], by simp [BlockManager.allocateBlocks], rfl, ?_⟩
    exact ⟨pool.congr fun _ => by simp [addRefs], index, List.nodup_nil, by simp, by simp, by simp,
      fun _ _ => rfl, fun _ _ => id, fun _ _ found _ => found, rfl, rfl⟩
  | succ count ih =>
    obtain ⟨bm₁, blockId, allocated, first⟩ := pool.allocateBlock index (by
      rintro empty
      simp [empty] at enough)
    have free := pool.length_free_addRefs first.pool first.distinct
    have unreferenced := first.unreferenced blockId (.head _)
    simp only [List.length_singleton, List.countP_singleton, unreferenced, Nat.lt_irrefl,
      decide_false, Bool.false_eq_true, if_false] at free
    obtain ⟨bm₂, fresh, allocatedRest, length, rest⟩ :=
      ih first.pool first.index (by omega) (blockTable ++ [blockId])
    have notFresh : blockId ∉ fresh := fun mem => by
      have := rest.unreferenced blockId mem
      rw [addRefs_singleton_self] at this
      omega
    have unreferencedRest : ∀ other ∈ fresh, refs other = 0 := fun other mem => by
      have := rest.unreferenced other mem
      simp only [addRefs] at this
      omega
    refine ⟨bm₂, blockId :: fresh, ?_, by simp [length], ?_⟩
    · rw [BlockManager.allocateBlocks, allocated, Py.ok_bind]
      rw [List.append_assoc] at allocatedRest
      exact allocatedRest
    · refine ⟨addRefs_cons blockId fresh ▸ rest.pool, rest.index,
        List.nodup_cons.mpr ⟨notFresh, rest.distinct⟩, ?_, ?_, ?_, ?_, ?_, ?_, ?_, ?_⟩
      · simpa [unreferenced] using unreferencedRest
      · intro other mem path found
        rcases List.mem_cons.mp mem with rfl | mem
        · exact first.unindexed other (.head _) path (rest.shrinks path other found)
        · exact rest.unindexed other mem path found
      · intro other mem
        rcases List.mem_cons.mp mem with rfl | mem
        · rw [rest.hash other notFresh, first.clean other (.head _)]
        · exact rest.clean other mem
      · intro other absent
        rw [List.mem_cons, not_or] at absent
        rw [rest.hash other absent.2, first.hash other (by simpa using absent.1)]
      · exact fun path value found => first.shrinks path value (rest.shrinks path value found)
      · intro path value found referenced
        refine rest.keeps path value (first.keeps path value found referenced)
          fun ancestor other isPrefix hit => ?_
        have := referenced ancestor other isPrefix (first.shrinks ancestor other hit)
        simp only [addRefs]
        omega
      · rw [rest.pendingMatches, first.pendingMatches]
      · rw [rest.pendingResumeMatches, first.pendingResumeMatches]

/-- Every allocated page extends the block table. -/
theorem allocateBlocks_length {count : ℕ} {attached table : List BlockId}
    (allocated : bm.allocateBlocks cfg count attached = .ok (bm', table)) :
    table.length = attached.length + count := by
  induction count generalizing bm attached with
  | zero =>
    cases allocated
    rfl
  | succ count ih =>
    rcases Py.exists_of_bind allocated with ⟨⟨bm₁, blockId⟩, -, rest⟩
    have length := ih rest
    rw [List.length_append, List.length_singleton] at length
    omega

end BlockManager

end NanoVllm
