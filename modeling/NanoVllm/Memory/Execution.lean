import NanoVllm.Memory.Publication

/-!
# Executing a batch

A model run and a page import write slots of positions which are not cached yet. Such a slot
lies in a page of one request outside the prefix index, so the writes disturb nobody, and after
the run the scheduled tokens are in memory as well.
-/

namespace NanoVllm

open BlockManager ModelRunner

variable {cfg : Config} {ids : Finset SeqId} {seqs : SeqId → Sequence} {bm bm' : BlockManager}
  {kv kv' : KvStore} {computed : Sequence → ℕ} {i j : SeqId} {seq : Sequence}

/-! ## Slots -/

/-- The slot which holds a position of a request. -/
def SlotAt (cfg : Config) (seq : Sequence) (position slot : ℕ) : Prop :=
  ∃ blockId, (position / cfg.blockSize, blockId) ∈ seq.pages ∧
    slot = blockId * cfg.blockSize + position % cfg.blockSize

/-- A slot of a position which is not cached yet. -/
def Writable (cfg : Config) (seq : Sequence) (slot : ℕ) : Prop :=
  ∃ position, seq.numCachedTokens ≤ position ∧ SlotAt cfg seq position slot

/-- A slot determines its page and its offset. -/
theorem slot_injective {blockId blockId' offset offset' : ℕ} (inPage : offset < cfg.blockSize)
    (inPage' : offset' < cfg.blockSize)
    (same : blockId * cfg.blockSize + offset = blockId' * cfg.blockSize + offset') :
    blockId = blockId' ∧ offset = offset' := by
  have positive := cfg.blockSize_pos
  have page := congrArg (· / cfg.blockSize) same
  have inside := congrArg (· % cfg.blockSize) same
  simp only [Nat.mul_comm _ cfg.blockSize, Nat.mul_add_div positive, Nat.mul_add_mod,
    Nat.div_eq_of_lt inPage, Nat.div_eq_of_lt inPage', Nat.mod_eq_of_lt inPage,
    Nat.mod_eq_of_lt inPage', Nat.add_zero] at page inside
  exact ⟨page, inside⟩

theorem SlotAt.of_page {logical offset : ℕ} {blockId : BlockId}
    (mem : (logical, blockId) ∈ seq.pages) (inPage : offset < cfg.blockSize) :
    SlotAt cfg seq (logical * cfg.blockSize + offset) (blockId * cfg.blockSize + offset) := by
  have positive := cfg.blockSize_pos
  refine ⟨blockId, ?_, ?_⟩
  · rwa [Nat.mul_comm, Nat.mul_add_div positive, Nat.div_eq_of_lt inPage, Nat.add_zero]
  · rw [Nat.mul_comm logical, Nat.mul_add_mod, Nat.mod_eq_of_lt inPage]

namespace SeqMemory

variable {refs : BlockId → ℕ} {n : ℕ}

/-- The page of an uncached position belongs to its request alone and is unpublished. -/
theorem exclusive_of_uncached (memory : SeqMemory cfg bm kv refs n seq) {position : ℕ}
    {blockId : BlockId} (uncached : seq.numCachedTokens ≤ position)
    (mem : (position / cfg.blockSize, blockId) ∈ seq.pages) :
    refs blockId = 1 ∧ bm.Unindexed cfg blockId := by
  have positive := cfg.blockSize_pos
  have after : position < (position / cfg.blockSize + 1) * cfg.blockSize := by
    rw [Nat.mul_comm]
    exact Nat.lt_mul_div_succ position positive
  have exclusive := memory.exclusive _ blockId mem (uncached.trans_lt after)
  exact ⟨exclusive.1, exclusive.2.1⟩

/-- A page of a request is one of its logical pages. -/
theorem logical_unique (memory : SeqMemory cfg bm kv refs n seq) {logical logical' : ℕ}
    {blockId : BlockId} (mem : (logical, blockId) ∈ seq.pages)
    (mem' : (logical', blockId) ∈ seq.pages) : logical = logical' := by
  obtain ⟨k, get⟩ := List.mem_iff_getElem?.mp mem
  obtain ⟨k', get'⟩ := List.mem_iff_getElem?.mp mem'
  rw [Sequence.pages, List.getElem?_zip_eq_some] at get get'
  have same := (List.getElem?_inj (List.getElem?_eq_some_iff.mp get.2).1 memory.distinct).mp
    (get.2.trans get'.2.symm)
  subst same
  exact Option.some.inj (get.1.symm.trans get'.1)

/-- A position of a request has one slot. -/
theorem slotAt_unique (memory : SeqMemory cfg bm kv refs n seq) {position slot slot' : ℕ}
    (slotAt : SlotAt cfg seq position slot) (slotAt' : SlotAt cfg seq position slot') :
    slot = slot' := by
  obtain ⟨blockId, mem, rfl⟩ := slotAt
  obtain ⟨blockId', mem', rfl⟩ := slotAt'
  obtain ⟨k, get⟩ := List.mem_iff_getElem?.mp mem
  obtain ⟨k', get'⟩ := List.mem_iff_getElem?.mp mem'
  rw [Sequence.pages, List.getElem?_zip_eq_some] at get get'
  have nodup := memory.increasing.imp (S := (· ≠ ·)) fun less => less.ne
  have same := (List.getElem?_inj (List.getElem?_eq_some_iff.mp get.1).1 nodup).mp
    (get.1.trans get'.1.symm)
  subst same
  have page : blockId = blockId' := Option.some.inj (get.2.symm.trans get'.2)
  rw [page]

end SeqMemory

/-- Distinct uncached positions of any requests lie in distinct slots. -/
theorem MemoryValid.slot_unique (valid : MemoryValid cfg ids seqs bm kv computed)
    (known : i ∈ ids) (known' : j ∈ ids) {position position' slot : ℕ}
    (uncached : (seqs i).numCachedTokens ≤ position)
    (slotAt : SlotAt cfg (seqs i) position slot) (slotAt' : SlotAt cfg (seqs j) position' slot) :
    i = j ∧ position = position' := by
  have positive := cfg.blockSize_pos
  obtain ⟨blockId, mem, rfl⟩ := slotAt
  obtain ⟨blockId', mem', same⟩ := slotAt'
  obtain ⟨rfl, offset⟩ := slot_injective (Nat.mod_lt _ positive) (Nat.mod_lt _ positive) same
  have single := ((valid.request i known).exclusive_of_uncached uncached mem).1
  obtain rfl := eq_of_single single known (Sequence.mem_blockTable_of_mem_pages mem) known'
    (Sequence.mem_blockTable_of_mem_pages mem')
  have logical := (valid.request i known).logical_unique mem mem'
  refine ⟨rfl, ?_⟩
  rw [← Nat.div_add_mod position cfg.blockSize, ← Nat.div_add_mod position' cfg.blockSize,
    logical, offset]

/-- Writing slots of uncached positions keeps everything in memory. -/
theorem MemoryValid.overwrite (valid : MemoryValid cfg ids seqs bm kv Sequence.numCachedTokens)
    (changed : ∀ slot, kv' slot ≠ kv slot → ∃ i ∈ ids, Writable cfg (seqs i) slot) :
    MemoryValid cfg ids seqs bm kv' Sequence.numCachedTokens where
  pool := valid.pool
  index := valid.index
  cached path blockId found := by
    obtain ⟨inRange, holds⟩ := valid.cached path blockId found
    refine ⟨inRange, holds.path_ne, holds.full, fun offset inPage => ?_⟩
    rw [← holds.slots offset inPage]
    by_contra differs
    obtain ⟨i, known, position, uncached, blockId', mem, same⟩ := changed _ differs
    obtain ⟨rfl, -⟩ := slot_injective inPage (Nat.mod_lt _ cfg.blockSize_pos) same
    exact ((valid.request i known).exclusive_of_uncached uncached mem).2 path found
  request j known :=
    { valid.request j known with
      content := fun logical blockId offset mem inPage short => by
        have slotAt := SlotAt.of_page mem inPage
        rw [show kv' (blockId * cfg.blockSize + offset) =
          kv (blockId * cfg.blockSize + offset) from ?_]
        · exact (valid.request j known).content logical blockId offset mem inPage short
        · by_contra differs
          obtain ⟨i, known', position, uncached, slotAt'⟩ := changed _ differs
          obtain ⟨rfl, rfl⟩ := valid.slot_unique known' known uncached slotAt' slotAt
          omega }

/-- Once the slots of further positions hold their entries, these positions are in memory. -/
theorem MemoryValid.compute (valid : MemoryValid cfg ids seqs bm kv Sequence.numCachedTokens)
    (entries : ∀ i ∈ ids, ∀ position slot, SlotAt cfg (seqs i) position slot →
      (seqs i).numCachedTokens ≤ position → position < computed (seqs i) →
        kv slot = some (System.kvEntry (seqs i) position)) :
    MemoryValid cfg ids seqs bm kv computed where
  pool := valid.pool
  index := valid.index
  cached := valid.cached
  request i known :=
    { valid.request i known with
      content := fun logical blockId offset mem inPage short => by
        by_cases cached : logical * cfg.blockSize + offset < (seqs i).numCachedTokens
        · exact (valid.request i known).content logical blockId offset mem inPage cached
        · refine ⟨_, entries i known _ _ (SlotAt.of_page mem inPage) (by omega) short, ?_⟩
          cases (seqs i).kvCompressed with
          | false => exact .inl rfl
          | true => exact .inr ⟨rfl, rfl⟩ }

/-- Some content of the uncached slots makes any further positions computed. -/
theorem MemoryValid.filled (valid : MemoryValid cfg ids seqs bm kv Sequence.numCachedTokens)
    (computed : Sequence → ℕ) : ∃ kv', MemoryValid cfg ids seqs bm kv' computed := by
  classical
  let Entry := fun (slot : ℕ) (entry : KvSlot) => ∃ i ∈ ids, ∃ position,
    (seqs i).numCachedTokens ≤ position ∧ SlotAt cfg (seqs i) position slot ∧
      entry = System.kvEntry (seqs i) position
  let content : KvStore := fun slot =>
    if filled : ∃ entry, Entry slot entry then some filled.choose else kv slot
  refine ⟨content, (@MemoryValid.overwrite _ _ _ _ _ content valid ?_).compute ?_⟩
  · intro slot differs
    by_cases filled : ∃ entry, Entry slot entry
    · rcases filled with ⟨_, i, known, position, uncached, slotAt, -⟩
      exact ⟨i, known, position, uncached, slotAt⟩
    · exact absurd (dif_neg filled) differs
  · intro i known position slot slotAt uncached _
    have filled : ∃ entry, Entry slot entry := ⟨_, i, known, position, uncached, slotAt, rfl⟩
    rcases filled.choose_spec with ⟨j, known', position', _, slotAt', entry⟩
    rcases valid.slot_unique known known' uncached slotAt slotAt' with ⟨rfl, rfl⟩
    exact (dif_pos filled).trans (congrArg some entry)

/-! ## Writing a list of slots -/

namespace KvStore

variable {writes : List (ℕ × KvSlot)} {slot : ℕ} {entry : KvSlot}

theorem write_of_not_mem (absent : slot ∉ writes.map Prod.fst) :
    KvStore.write kv writes slot = kv slot := by
  induction writes generalizing kv with
  | nil => rfl
  | cons first writes ih =>
    rw [List.map_cons, List.mem_cons, not_or] at absent
    rw [write, ih absent.2, Function.update_of_ne absent.1]

theorem write_of_mem (distinct : (writes.map Prod.fst).Nodup) (mem : (slot, entry) ∈ writes) :
    KvStore.write kv writes slot = some entry := by
  induction writes generalizing kv with
  | nil => cases mem
  | cons first writes ih =>
    rw [List.map_cons, List.nodup_cons] at distinct
    rw [write]
    rcases List.mem_cons.mp mem with rfl | mem
    · rw [write_of_not_mem distinct.1, Function.update_self]
    · exact ih distinct.2 mem

end KvStore

end NanoVllm
