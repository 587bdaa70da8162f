import NanoVllm.ModelRunner.Batches

/-!
# Write isolation

The slots which `prepare_prefill` and `prepare_decode` hand to the model are those of the scheduled
positions. They are distinct, and each lies in a page which one request owns alone and which the
prefix index does not reach, until the batch is postprocessed.
-/

namespace NanoVllm

open ModelRunner BlockManager

variable {cfg : Config} {ids : Finset SeqId} {kv : KvStore} {batch : List SeqId} {s : Scheduler}
  {isPrefill : Bool} {i : SeqId} {seqs : List Sequence}

theorem slotMappingLoop_eq {slots : Sequence → Py (List ℕ)} {slotsOf : Sequence → List ℕ}
    (same : ∀ seq ∈ seqs, slots seq = .ok (slotsOf seq)) :
    slotMappingLoop slots seqs = .ok (seqs.flatMap slotsOf) := by
  induction seqs with
  | nil => rfl
  | cons seq seqs ih =>
    have rest := ih fun other mem => same other (List.mem_cons_of_mem _ mem)
    rw [slotMappingLoop, same seq List.mem_cons_self, Py.ok_bind, rest]
    rfl

/-- The slot mapping with which the model runs a batch. -/
def slotMapping (cfg : Config) (isPrefill : Bool) (seqs : List Sequence) : Py (List ℕ) :=
  if isPrefill then do
    let inputs ← preparePrefill cfg seqs
    .ok inputs.slotMapping
  else do
    let inputs ← prepareDecode cfg seqs
    .ok inputs.slotMapping

/-- The slot of a scheduled position: in a decode batch it lies in the last page. -/
def Sequence.runSlot (cfg : Config) (isPrefill : Bool) (seq : Sequence) (position : ℕ) : ℕ :=
  if isPrefill then seq.tableSlot cfg position
  else seq.lastBlockId * cfg.blockSize + position % cfg.blockSize

namespace Scheduler.Returns

/-- A position of a prefill batch lies in the page of the table at its index. -/
theorem tableEntry (returns : Returns cfg ids kv s (.batch batch true)) (mem : i ∈ batch)
    {position : ℕ} (inRun : position ∈ prefillPositions (s.seqs i)) :
    ∃ blockId, (s.seqs i).blockTable[position / cfg.blockSize]? = some blockId ∧
      (s.seqs i).runSlot cfg true position =
        blockId * cfg.blockSize + position % cfg.blockSize := by
  have owned := ((returns.ready _ _ rfl i mem).prefill rfl).2
  have inside := (List.mem_range'_1.mp inRun).2.trans_le owned
  have short := (Nat.div_lt_iff_lt_mul cfg.blockSize_pos).mpr inside
  refine ⟨(s.seqs i).blockTable[position / cfg.blockSize], List.getElem?_eq_getElem short, ?_⟩
  simp [Sequence.runSlot, Sequence.tableSlot, short]

/-- A request of a decode batch runs its last token, which lies in the last page. -/
theorem lastEntry (returns : Returns cfg ids kv s (.batch batch false)) (mem : i ∈ batch) :
    prefillPositions (s.seqs i) = [(s.seqs i).numTokens - 1] ∧
      (s.seqs i).blockTable.getLast? = some (s.seqs i).lastBlockId := by
  rcases (returns.ready _ _ rfl i mem).decode rfl with ⟨single, complete, -⟩
  refine ⟨?_, (returns.decodable _ (List.mem_map_of_mem mem)).last⟩
  rw [Sequence.computedTokens, single] at complete
  rw [prefillPositions, single, ← complete]
  rfl

theorem slotMapping_eq (returns : Returns cfg ids kv s (.batch batch isPrefill)) :
    slotMapping cfg isPrefill (batch.map s.seqs) = .ok (batch.flatMap fun i =>
      (prefillPositions (s.seqs i)).map ((s.seqs i).runSlot cfg isPrefill)) := by
  cases isPrefill with
  | true =>
    have mapped : prefillSlotMapping cfg (batch.map s.seqs) = .ok ((batch.map s.seqs).flatMap
        fun seq => (prefillPositions seq).map (seq.runSlot cfg true)) := by
      apply slotMappingLoop_eq
      intro seq mem
      rcases List.mem_map.mp mem with ⟨i, scheduled, rfl⟩
      have ready := returns.ready _ _ rfl i scheduled
      exact prefillSlots_eq ready.scheduled (ready.prefill rfl).2
    rw [List.flatMap_map] at mapped
    simp only [slotMapping, if_true, ModelRunner.preparePrefill, mapped, Py.ok_bind]
  | false =>
    simp only [slotMapping, Bool.false_eq_true, if_false, prepareDecode,
      decodeSlotMapping_eq returns.decodable, Py.ok_bind, List.map_map]
    congr 1
    rw [List.map_eq_flatMap]
    apply List.flatMap_congr
    intro i mem
    rw [(returns.lastEntry mem).1]
    rfl

/-- The slot of a scheduled position holds that position. -/
theorem slotAt (returns : Returns cfg ids kv s (.batch batch isPrefill)) (mem : i ∈ batch)
    {position : ℕ} (inRun : position ∈ prefillPositions (s.seqs i)) :
    SlotAt cfg (s.seqs i) position ((s.seqs i).runSlot cfg isPrefill position) := by
  have memory := returns.valid.memory.request i (returns.known mem)
  have ready := returns.ready _ _ rfl i mem
  cases isPrefill with
  | true =>
    rcases ready.prefill rfl with ⟨uncompressed, owned⟩
    exact memory.slotAt_tableSlot uncompressed ((List.mem_range'_1.mp inRun).2.trans_le owned)
  | false =>
    rcases returns.lastEntry mem with ⟨positions, last⟩
    rcases memory.getLast_page (ready.decode rfl).2.2 with ⟨blockId, last', inPages⟩
    rw [last] at last'
    cases last'
    rw [positions, List.mem_singleton] at inRun
    rw [inRun]
    exact ⟨_, inPages, rfl⟩

end Scheduler.Returns

/-- A batch whose run writes pages which nobody else reads. -/
structure Isolated (cfg : Config) (known : List SeqId) (s : Scheduler) (batch : List SeqId)
    (isPrefill : Bool) (slots : List ℕ) : Prop where
  prefill : isPrefill = true → ∃ slotOf : SeqId → ℕ → ℕ,
    slots = batch.flatMap (fun i => (List.range' (s.seqs i).numCachedTokens
      (s.seqs i).numScheduledTokens).map (slotOf i)) ∧
    ∀ i ∈ batch, ∀ position, (s.seqs i).numCachedTokens ≤ position →
      position < (s.seqs i).numCachedTokens + (s.seqs i).numScheduledTokens →
      ∃ blockId, (s.seqs i).blockTable[position / cfg.blockSize]? = some blockId ∧
        slotOf i position = blockId * cfg.blockSize + position % cfg.blockSize
  decode : isPrefill = false → ∃ blockOf : SeqId → BlockId,
    slots = batch.map (fun i =>
      blockOf i * cfg.blockSize + ((s.seqs i).numTokens - 1) % cfg.blockSize) ∧
    ∀ i ∈ batch, (s.seqs i).blockTable.getLast? = some (blockOf i)
  distinct : slots.Nodup
  exclusive : ∀ slot ∈ slots, (s.blockManager.blocks (slot / cfg.blockSize)).refCount = 1 ∧
    s.blockManager.Unindexed cfg (slot / cfg.blockSize) ∧
    ∃ i ∈ batch, ∀ j ∈ known, slot / cfg.blockSize ∈ (s.seqs j).blockTable ↔ j = i

theorem Scheduler.Returns.isolated {known : List SeqId}
    (returns : Scheduler.Returns cfg known.toFinset kv s (.batch batch isPrefill)) :
    ∃ slots, slotMapping cfg isPrefill (batch.map s.seqs) = .ok slots ∧
      Isolated cfg known s batch isPrefill slots := by
  refine ⟨_, returns.slotMapping_eq, ?_, ?_, ?_, ?_⟩
  · rintro rfl
    refine ⟨fun i => (s.seqs i).runSlot cfg true, rfl, ?_⟩
    intro i mem position lower upper
    exact returns.tableEntry mem (List.mem_range'_1.mpr ⟨lower, upper⟩)
  · rintro rfl
    refine ⟨fun i => (s.seqs i).lastBlockId, ?_, fun i mem => (returns.lastEntry mem).2⟩
    rw [List.map_eq_flatMap]
    apply List.flatMap_congr
    intro i mem
    rw [(returns.lastEntry mem).1]
    rfl
  · have distinct := returns.valid.memory.batchWrites_distinct returns.valid.batch_distinct
      (fun i mem => returns.known mem)
      (fun i mem position inRun => returns.slotAt mem inRun)
    simp only [List.map_flatMap, positionWrites, List.map_map, Function.comp_def] at distinct
    exact distinct
  · intro slot mem
    rcases List.mem_flatMap.mp mem with ⟨i, scheduled, inSlots⟩
    rcases List.mem_map.mp inSlots with ⟨position, inRun, rfl⟩
    rcases returns.slotAt scheduled inRun with ⟨blockId, mem', slot⟩
    have page : (s.seqs i).runSlot cfg isPrefill position / cfg.blockSize = blockId := by
      rw [slot, Nat.mul_comm, Nat.mul_add_div cfg.blockSize_pos,
        Nat.div_eq_of_lt (Nat.mod_lt _ cfg.blockSize_pos), Nat.add_zero]
    have memory := returns.valid.memory
    have uncached := (List.mem_range'_1.mp inRun).1
    rcases (memory.request i (returns.known scheduled)).exclusive_of_uncached uncached mem' with
      ⟨single, unindexed⟩
    have owned := Sequence.mem_blockTable_of_mem_pages mem'
    rw [page]
    refine ⟨?_, unindexed, i, scheduled, ?_⟩
    · rw [memory.pool.refCount, single]
      rfl
    · intro j known
      constructor
      · intro owned'
        exact MemoryValid.eq_of_single single (List.mem_toFinset.mpr known) owned'
          (returns.known scheduled) owned
      · rintro rfl
        exact owned

namespace System

variable {sys : System}

/-- The batch in flight as `schedule()` has returned it. -/
theorem Valid.returns (valid : sys.Valid cfg) {inFlight : InFlight}
    (flying : sys.inFlight = some inFlight) :
    Scheduler.Returns cfg sys.known.toFinset sys.kv sys.scheduler
      (.batch inFlight.seqs inFlight.isPrefill) where
  valid := batch_of_some flying ▸ valid.scheduler
  ready := by
    intro seqs isPrefill same
    cases same
    exact valid.ready inFlight flying

/--
The run of a batch which `schedule()` returns writes the slots of its scheduled positions, and
nobody else reads the pages it writes, until the batch is postprocessed.
-/
theorem write_isolation (reachable : Reachable cfg sys) :
    (∀ env s' batch isPrefill, sys.inFlight = none →
      sys.scheduler.schedule cfg env = .ok (s', .batch batch isPrefill) →
      ∃ slots, slotMapping cfg isPrefill (batch.map s'.seqs) = .ok slots ∧
        Isolated cfg sys.known s' batch isPrefill slots) ∧
    ∀ inFlight, sys.inFlight = some inFlight →
      ∃ slots, slotMapping cfg inFlight.isPrefill (inFlight.seqs.map sys.scheduler.seqs) =
          .ok slots ∧
        Isolated cfg sys.known sys.scheduler inFlight.seqs inFlight.isPrefill slots := by
  constructor
  · intro env s' batch isPrefill idle scheduled
    exact (reachable.returns idle scheduled).2.isolated
  · intro inFlight flying
    exact (reachable.valid.returns flying).isolated

/-- A prompt of three tokens about to be run. -/
def oneChunkRun : System := (init (defaultConfig 2 2 2 two_le_two)).runOps
  (defaultConfig 2 2 2 two_le_two) [.add (plainRequest 0 3 8) 0, .schedule (idleEnv _)]

/-- The chunk fills the first page and begins the second one. -/
theorem write_isolation_oneChunk :
    Isolated (defaultConfig 2 2 2 (by decide)) [0] oneChunkRun.scheduler [0] true [0, 1, 2] := by
  have reachable : Reachable (defaultConfig 2 2 2 (by decide)) oneChunkRun :=
    ReachableBy.runOps .init (by decide +kernel)
  have flying : oneChunkRun.inFlight = some ⟨[0], true, false⟩ := by decide +kernel
  have known : oneChunkRun.known = [0] := by decide +kernel
  have mapped : slotMapping (defaultConfig 2 2 2 (by decide)) true
      ([0].map oneChunkRun.scheduler.seqs) = .ok [0, 1, 2] := by decide +kernel
  rcases (write_isolation reachable).2 _ flying with ⟨slots, mapped', isolated⟩
  cases mapped.symm.trans mapped'
  exact known ▸ isolated

end System

end NanoVllm
