import NanoVllm.Memory.Execution
import NanoVllm.ModelRunner.Slots

/-!
# The model run

A run writes the KV of every scheduled position to the slot of that position. The slots of a
batch are distinct, so afterwards the scheduled tokens of every request are in memory.
-/

namespace NanoVllm

open BlockManager ModelRunner NanoVllm.System

variable {cfg : Config} {ids : Finset SeqId} {seqs : SeqId → Sequence} {bm bm' : BlockManager}
  {kv kv' : KvStore} {computed : Sequence → ℕ} {i j : SeqId} {seq : Sequence} {isPrefill : Bool}

/-- The number of tokens whose KV is in memory after a run. -/
def Sequence.computedTokens (seq : Sequence) : ℕ := seq.numCachedTokens + seq.numScheduledTokens

/--
What a run needs of a request: in a prefill batch a table without gaps which covers the chunk,
in a decode batch the last token and its page at the end of the table.
-/
structure RunReady (cfg : Config) (isPrefill : Bool) (seq : Sequence) : Prop where
  scheduled : 0 < seq.numScheduledTokens
  prefill : isPrefill = true → seq.kvCompressed = false ∧
    seq.computedTokens ≤ seq.blockTable.length * cfg.blockSize
  decode : isPrefill = false → seq.numScheduledTokens = 1 ∧ seq.computedTokens = seq.numTokens ∧
    seq.kvBlockLogicalIndices.getLast? = some ((seq.numTokens - 1) / cfg.blockSize)

/-- A position inside a table without gaps has its table slot. -/
theorem SeqMemory.slotAt_tableSlot {refs : BlockId → ℕ} {n position : ℕ}
    (memory : SeqMemory cfg bm kv refs n seq) (uncompressed : seq.kvCompressed = false)
    (owned : position < seq.blockTable.length * cfg.blockSize) :
    SlotAt cfg seq position (seq.tableSlot cfg position) := by
  have short := (Nat.div_lt_iff_lt_mul cfg.blockSize_pos).mpr owned
  refine ⟨seq.blockTable[position / cfg.blockSize], ?_, ?_⟩
  · rw [memory.mem_pages_iff uncompressed]
    exact List.getElem?_eq_getElem short
  · simp [Sequence.tableSlot, short]

/-- The last entries of the table and of the logical pages belong together. -/
theorem SeqMemory.getLast_page {refs : BlockId → ℕ} {n logical : ℕ}
    (memory : SeqMemory cfg bm kv refs n seq)
    (last : seq.kvBlockLogicalIndices.getLast? = some logical) :
    ∃ blockId, seq.blockTable.getLast? = some blockId ∧ (logical, blockId) ∈ seq.pages := by
  have sameLength := memory.sameLength
  rw [List.getLast?_eq_getElem?] at last
  have short := (List.getElem?_eq_some_iff.mp last).1
  rw [sameLength] at short last
  refine ⟨seq.blockTable[seq.blockTable.length - 1], ?_, ?_⟩
  · rw [List.getLast?_eq_getElem?, List.getElem?_eq_getElem short]
  · rw [Sequence.pages, List.mem_iff_getElem?]
    refine ⟨seq.blockTable.length - 1, ?_⟩
    rw [List.getElem?_zip_eq_some]
    exact ⟨last, List.getElem?_eq_getElem short⟩

/-- The writes of a request whose positions lie in the given slots. -/
def positionWrites (slotOf : ℕ → ℕ) (seq : Sequence) : List (ℕ × KvSlot) :=
  (prefillPositions seq).map fun position => (slotOf position, kvEntry seq position)

/-- A run writes the scheduled positions of a request to their slots. -/
theorem runWrites_spec {refs : BlockId → ℕ} {n : ℕ} (memory : SeqMemory cfg bm kv refs n seq)
    (ready : RunReady cfg isPrefill seq) :
    ∃ slotOf, (∀ position ∈ prefillPositions seq, SlotAt cfg seq position (slotOf position)) ∧
      runWrites cfg isPrefill seq = .ok (positionWrites slotOf seq) := by
  cases isPrefill with
  | true =>
    obtain ⟨uncompressed, owned⟩ := ready.prefill rfl
    refine ⟨seq.tableSlot cfg, fun position mem => ?_, ?_⟩
    · rw [prefillPositions, List.mem_range'_1] at mem
      exact memory.slotAt_tableSlot uncompressed (mem.2.trans_le owned)
    · simp only [runWrites, if_true, prefillSlots_eq ready.scheduled owned, Py.ok_bind,
        positionWrites, List.zip_map']
  | false =>
    obtain ⟨single, complete, last⟩ := ready.decode rfl
    obtain ⟨blockId, lastBlock, mem⟩ := memory.getLast_page last
    have nonempty : 0 < seq.numTokens := by
      have := ready.scheduled
      unfold Sequence.computedTokens at complete
      omega
    have position_eq : seq.numCachedTokens = seq.numTokens - 1 := by
      unfold Sequence.computedTokens at complete
      omega
    refine ⟨fun position => blockId * cfg.blockSize + position % cfg.blockSize,
      fun position mem' => ?_, ?_⟩
    · rw [prefillPositions, List.mem_range'_1, single] at mem'
      obtain rfl : position = seq.numTokens - 1 := by omega
      exact ⟨blockId, mem, rfl⟩
    · simp only [runWrites, Bool.false_eq_true, if_false, decodeSlot_eq lastBlock nonempty,
        Py.ok_bind, positionWrites, prefillPositions, single, position_eq]
      rfl

/-- A run writes the scheduled positions of a batch to their slots. -/
theorem batchWrites_spec (valid : MemoryValid cfg ids seqs bm kv computed) {batch : List SeqId}
    (ready : ∀ i ∈ batch, i ∈ ids ∧ RunReady cfg isPrefill (seqs i)) :
    ∃ slotOf : SeqId → ℕ → ℕ,
      (∀ i ∈ batch, ∀ position ∈ prefillPositions (seqs i),
        SlotAt cfg (seqs i) position (slotOf i position)) ∧
      batchWrites cfg isPrefill seqs batch =
        .ok (batch.flatMap fun i => positionWrites (slotOf i) (seqs i)) := by
  have slots : ∀ i, ∃ slotOf, i ∈ batch →
      (∀ position ∈ prefillPositions (seqs i), SlotAt cfg (seqs i) position (slotOf position)) ∧
        runWrites cfg isPrefill (seqs i) = .ok (positionWrites slotOf (seqs i)) := fun i => by
    by_cases mem : i ∈ batch
    · obtain ⟨known, ready⟩ := ready i mem
      obtain ⟨slotOf, spec⟩ := runWrites_spec (valid.request i known) ready
      exact ⟨slotOf, fun _ => spec⟩
    · exact ⟨fun _ => 0, fun mem' => absurd mem' mem⟩
  choose slotOf spec using slots
  refine ⟨slotOf, fun i mem => (spec i mem).1, ?_⟩
  clear ready
  induction batch with
  | nil => rfl
  | cons i batch ih =>
    rw [batchWrites, (spec i (.head _)).2, Py.ok_bind, ih fun j mem => spec j (.tail _ mem)]
    rfl

/-- The slots of a batch are distinct. -/
theorem MemoryValid.batchWrites_distinct (valid : MemoryValid cfg ids seqs bm kv computed)
    {batch : List SeqId} (distinct : batch.Nodup) (known : ∀ i ∈ batch, i ∈ ids)
    {slotOf : SeqId → ℕ → ℕ}
    (slots : ∀ i ∈ batch, ∀ position ∈ prefillPositions (seqs i),
      SlotAt cfg (seqs i) position (slotOf i position)) :
    ((batch.flatMap fun i => positionWrites (slotOf i) (seqs i)).map Prod.fst).Nodup := by
  have unique : ∀ i ∈ batch, ∀ j ∈ batch, ∀ position ∈ prefillPositions (seqs i),
      ∀ position' ∈ prefillPositions (seqs j), slotOf i position = slotOf j position' →
        i = j ∧ position = position' := fun i mem j mem' position inRun position' inRun' same =>
    valid.slot_unique (known i mem) (known j mem') (List.mem_range'_1.mp inRun).1
      (slots i mem position inRun) (same ▸ slots j mem' position' inRun')
  rw [List.map_flatMap, List.nodup_flatMap]
  constructor
  · intro i mem
    rw [positionWrites, List.map_map]
    refine List.Nodup.map_on (fun position inRun position' inRun' same => ?_)
      List.nodup_range'
    exact (unique i mem i mem position inRun position' inRun' same).2
  · refine distinct.imp_of_mem fun {i j} mem mem' differ => ?_
    simp only [Function.onFun, List.disjoint_left, positionWrites, List.map_map, List.mem_map,
      Function.comp_apply, not_exists, not_and]
    rintro slot ⟨position, inRun, rfl⟩ position' inRun' same
    exact differ (unique i mem j mem' position inRun position' inRun' same.symm).1

/-- After the run of a batch the scheduled tokens of every request are in memory. -/
theorem MemoryValid.run (valid : MemoryValid cfg ids seqs bm kv Sequence.numCachedTokens)
    {batch : List SeqId} (distinct : batch.Nodup)
    (ready : ∀ i ∈ batch, i ∈ ids ∧ RunReady cfg isPrefill (seqs i))
    (idle : ∀ i ∈ ids, i ∉ batch → (seqs i).numScheduledTokens = 0) :
    ∃ writes, batchWrites cfg isPrefill seqs batch = .ok writes ∧
      (∀ slot ∈ writes.map Prod.fst, ∃ i ∈ ids, Writable cfg (seqs i) slot) ∧
      MemoryValid cfg ids seqs bm (kv.write writes) Sequence.computedTokens := by
  obtain ⟨slotOf, slots, writes_eq⟩ := batchWrites_spec valid ready
  have known : ∀ i ∈ batch, i ∈ ids := fun i mem => (ready i mem).1
  have nodup := valid.batchWrites_distinct distinct known slots
  have writable : ∀ slot ∈ (batch.flatMap fun i => positionWrites (slotOf i) (seqs i)).map
      Prod.fst, ∃ i ∈ ids, Writable cfg (seqs i) slot := fun slot mem => by
    simp only [List.mem_map, List.mem_flatMap, positionWrites] at mem
    obtain ⟨_, ⟨i, mem, position, inRun, rfl⟩, rfl⟩ := mem
    exact ⟨i, known i mem, position, (List.mem_range'_1.mp inRun).1, slots i mem position inRun⟩
  refine ⟨_, writes_eq, writable, ?_⟩
  refine (valid.overwrite fun slot differs => ?_).compute
    fun i known' position slot slotAt uncached short => ?_
  · by_cases mem : slot ∈ (batch.flatMap fun i => positionWrites (slotOf i) (seqs i)).map Prod.fst
    · exact writable slot mem
    · exact absurd (KvStore.write_of_not_mem mem) differs
  · by_cases mem : i ∈ batch
    · have inRun : position ∈ prefillPositions (seqs i) := List.mem_range'_1.mpr ⟨uncached, short⟩
      have same := (valid.request i known').slotAt_unique (slots i mem position inRun) slotAt
      rw [← same]
      refine KvStore.write_of_mem nodup (List.mem_flatMap.mpr ⟨i, mem, ?_⟩)
      exact List.mem_map.mpr ⟨position, inRun, rfl⟩
    · have := idle i known' mem
      unfold Sequence.computedTokens at short
      omega

end NanoVllm
