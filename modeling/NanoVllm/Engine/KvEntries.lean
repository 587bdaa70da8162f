import NanoVllm.Engine.Refinement
import NanoVllm.Library.CachedModel

/-!
# The entries of the KV cache

A run reads the context of each request from the slots of its block table, once the whole batch has
written its slots, as the attention of a layer reads what the layer has stored. What a slot holds is
an entry of the cache of some model. Wherever a slot stands for the exact KV of a prefix, its entry
is the one which the model makes of the prefix, and an uncompressed request gets the token which the
model samples after its tokens.
-/

namespace NanoVllm

namespace ModelRunner

variable {K : Type}

/-- The slots to which the keys and values of a request are written. -/
def runSlots (cfg : Config) (isPrefill : Bool) (seq : Sequence) : Py (List ℕ) :=
  if isPrefill then prefillSlots cfg seq
  else do
    let slot ← decodeSlot cfg seq
    .ok [slot]

/-- The first of the `positions` of a request in `prepare_prefill` and in `prepare_decode`. -/
def firstPosition (isPrefill : Bool) (seq : Sequence) : ℕ :=
  if isPrefill then seq.numCachedTokens else seq.numTokens - 1

/-- The slots of the block table which a request attends to, without those it writes. -/
def contextSlots (cfg : Config) (isPrefill : Bool) (seq : Sequence) : List ℕ :=
  (List.range (contextLen isPrefill seq - (inputIds isPrefill seq).length)).map (seq.tableSlot cfg)

/-- What a model writes and samples for a request, with the entries after the run of its batch. -/
def RunsOn (model : CachedModel K Token) (cfg : Config) (isPrefill : Bool) (entryAt : ℕ → K)
    (seq : Sequence) (tokenId : Token) : Prop :=
  ∃ slots, runSlots cfg isPrefill seq = .ok slots ∧
    model.run ((contextSlots cfg isPrefill seq).map entryAt) (firstPosition isPrefill seq)
      (inputIds isPrefill seq) = (slots.map entryAt, tokenId)

/-- `run`: the entries after it, and the sampled tokens. -/
structure RunsBatchOn (model : CachedModel K Token) (cfg : Config) (isPrefill : Bool)
    (entryAt : ℕ → K) (seqs : List Sequence) (entryAt' : ℕ → K) (tokenIds : List Token) : Prop where
  sampled : tokenIds.length = seqs.length
  request : ∀ event ∈ seqs.zip tokenIds, RunsOn model cfg isPrefill entryAt' event.1 event.2
  others : ∃ slots, slotMapping cfg isPrefill seqs = .ok slots ∧
    ∀ slot, slot ∉ slots → entryAt' slot = entryAt slot

end ModelRunner

open ModelRunner

variable {cfg : Config} {ids : Finset SeqId} {kv : KvStore} {batch : List SeqId} {s : Scheduler}
  {isPrefill : Bool} {i : SeqId} {K : Type} {model : CachedModel K Token} {entryAt entryAt' : ℕ → K}

/-- The slots which stand for the exact KV of a prefix hold what the model makes of it. -/
def KvStore.Caches (kv : KvStore) (model : CachedModel K Token) (entryAt : ℕ → K) : Prop :=
  ∀ slot tokens, kv.Holds slot tokens → model.entry tokens = some (entryAt slot)

/-! ## One request -/

/-- The tokens of a run follow the cached ones. -/
theorem RunReady.inputs {seq : Sequence} (ready : RunReady cfg isPrefill seq)
    (short : seq.computedTokens ≤ seq.numTokens) :
    seq.tokenIds.take seq.numCachedTokens ++ inputIds isPrefill seq =
      seq.tokenIds.take seq.computedTokens ∧
    (inputIds isPrefill seq).length = seq.numScheduledTokens := by
  rcases Scheduler.inputIds_suffix ready with ⟨before, whole⟩
  have length : (inputIds isPrefill seq).length = seq.numScheduledTokens := by
    cases isPrefill with
    | true =>
      have inRun : seq.numCachedTokens + seq.numScheduledTokens ≤ seq.tokenIds.length := short
      rw [inputIds, if_pos rfl, List.length_drop, List.length_take_of_le inRun,
        Nat.add_sub_cancel_left]
    | false =>
      rw [(ready.decode rfl).1]
      rfl
  have lengths := congrArg List.length whole
  rw [List.length_append, List.length_take_of_le short, length, Sequence.computedTokens] at lengths
  have same : before = seq.tokenIds.take seq.numCachedTokens := by
    have first := congrArg (List.take seq.numCachedTokens) whole
    have cached : seq.numCachedTokens ≤ seq.computedTokens := Nat.le_add_right _ _
    rw [List.take_take, min_eq_left cached,
      List.take_append_of_le_length (Nat.add_right_cancel lengths).ge,
      List.take_of_length_le (Nat.add_right_cancel lengths).le] at first
    exact first
  exact ⟨same ▸ whole, length⟩

/-- A run starts at the first position which is not cached. -/
theorem RunReady.firstPosition {seq : Sequence} (ready : RunReady cfg isPrefill seq) :
    firstPosition isPrefill seq = seq.numCachedTokens := by
  cases isPrefill with
  | true => rfl
  | false =>
    rcases ready.decode rfl with ⟨single, complete, -⟩
    rw [Sequence.computedTokens, single] at complete
    exact Nat.sub_eq_of_eq_add complete.symm

namespace Scheduler.Returns

/-- The slots of a request are those of its scheduled positions. -/
theorem runSlots_eq (returns : Returns cfg ids kv s (.batch batch isPrefill)) (mem : i ∈ batch) :
    runSlots cfg isPrefill (s.seqs i) =
      .ok ((prefillPositions (s.seqs i)).map ((s.seqs i).runSlot cfg isPrefill)) := by
  have ready := returns.ready _ _ rfl i mem
  cases isPrefill with
  | true => exact prefillSlots_eq ready.scheduled (ready.prefill rfl).2
  | false =>
    rcases returns.lastEntry mem with ⟨positions, last⟩
    rw [positions, runSlots, if_neg Bool.false_ne_true,
      decodeSlot_eq last (returns.nonempty i mem), Py.ok_bind]
    rfl

/-- A cached position lies in a slot which no request of the batch writes. -/
theorem notMem_slots (returns : Returns cfg ids kv s (.batch batch isPrefill)) (known : i ∈ ids)
    {position slot : ℕ} (cached : position < (s.seqs i).numCachedTokens)
    (slotAt : SlotAt cfg (s.seqs i) position slot) :
    slot ∉ batch.flatMap fun j =>
      (prefillPositions (s.seqs j)).map ((s.seqs j).runSlot cfg isPrefill) := by
  intro mem
  rcases List.mem_flatMap.mp mem with ⟨j, scheduled, inSlots⟩
  rcases List.mem_map.mp inSlots with ⟨position', inRun, rfl⟩
  have uncached := (List.mem_range'_1.mp inRun).1
  rcases returns.valid.memory.slot_unique (returns.known scheduled) known uncached
    (returns.slotAt scheduled inRun) slotAt with ⟨rfl, rfl⟩
  exact absurd cached (not_lt.mpr uncached)

/-- The slot of a cached position is that of the table. -/
theorem cachedSlot (returns : Returns cfg ids kv s (.batch batch isPrefill)) (known : i ∈ ids)
    (uncompressed : (s.seqs i).kvCompressed = false) {position : ℕ}
    (cached : position < (s.seqs i).numCachedTokens) :
    SlotAt cfg (s.seqs i) position ((s.seqs i).tableSlot cfg position) ∧
      kv.Holds ((s.seqs i).tableSlot cfg position)
        ((s.seqs i).tokenIds.take (position + 1)) := by
  rcases returns.valid.cachedPage known uncompressed cached with ⟨blockId, entry, holds⟩
  have owned := cached.trans_le (returns.valid.covers known uncompressed)
  have slot : (s.seqs i).tableSlot cfg position =
      blockId * cfg.blockSize + position % cfg.blockSize := by
    rw [Sequence.tableSlot, List.getD_eq_getElem?_getD, entry]
    rfl
  constructor
  · exact (returns.valid.memory.request i known).slotAt_tableSlot uncompressed owned
  · rw [slot]
    exact holds

end Scheduler.Returns

/-- The entries after the run of a batch are those before in all other slots. -/
def WrittenBy (cfg : Config) (isPrefill : Bool) (s : Scheduler) (batch : List SeqId)
    (entryAt entryAt' : ℕ → K) : Prop :=
  ∀ slot, slot ∉ (batch.flatMap fun i =>
    (prefillPositions (s.seqs i)).map ((s.seqs i).runSlot cfg isPrefill)) →
      entryAt' slot = entryAt slot

namespace Scheduler.Returns

/-- The context of an uncompressed request is the cache of its tokens before the run. -/
theorem context (returns : Returns cfg ids kv s (.batch batch isPrefill)) (mem : i ∈ batch)
    (uncompressed : (s.seqs i).kvCompressed = false)
    (contextLen : ModelRunner.contextLen isPrefill (s.seqs i) = (s.seqs i).computedTokens)
    (short : (s.seqs i).computedTokens ≤ (s.seqs i).numTokens)
    (caches : kv.Caches model entryAt)
    (written : WrittenBy cfg isPrefill s batch entryAt entryAt') :
    (contextSlots cfg isPrefill (s.seqs i)).map entryAt' =
      model.entries ((s.seqs i).tokenIds.take (s.seqs i).numCachedTokens) := by
  have known := returns.known mem
  have ready := returns.ready _ _ rfl i mem
  have cached : (s.seqs i).numCachedTokens ≤ (s.seqs i).tokenIds.length :=
    (Nat.le_add_right _ _).trans short
  have positions : contextSlots cfg isPrefill (s.seqs i) =
      (List.range (s.seqs i).numCachedTokens).map ((s.seqs i).tableSlot cfg) := by
    rw [contextSlots, contextLen, (ready.inputs short).2, Sequence.computedTokens,
      Nat.add_sub_cancel]
  rw [positions, List.map_map]
  apply CachedModel.eq_entries
  · rw [List.length_map, List.length_range, List.length_take_of_le cached]
  · intro position inside
    rw [List.length_take_of_le cached] at inside
    rcases returns.cachedSlot known uncompressed inside with ⟨slotAt, holds⟩
    have before : entryAt' ((s.seqs i).tableSlot cfg position) =
        entryAt ((s.seqs i).tableSlot cfg position) :=
      written _ (returns.notMem_slots known inside slotAt)
    rw [List.getElem?_map, List.getElem?_range inside, List.take_take,
      min_eq_left (Nat.succ_le_of_lt inside), caches _ _ holds, ← before]
    rfl

/-- An uncompressed request gets the entries of its tokens and the token after them. -/
theorem runsOn (returns : Returns cfg ids kv s (.batch batch isPrefill)) (mem : i ∈ batch)
    (uncompressed : (s.seqs i).kvCompressed = false)
    (contextLen : ModelRunner.contextLen isPrefill (s.seqs i) = (s.seqs i).computedTokens)
    (short : (s.seqs i).computedTokens ≤ (s.seqs i).numTokens)
    (caches : kv.Caches model entryAt)
    (written : WrittenBy cfg isPrefill s batch entryAt entryAt') {tokenId : Token}
    (runs : RunsOn model cfg isPrefill entryAt' (s.seqs i) tokenId) :
    (∀ position ∈ prefillPositions (s.seqs i),
      model.entry ((s.seqs i).tokenIds.take (position + 1)) =
        some (entryAt' ((s.seqs i).runSlot cfg isPrefill position))) ∧
      tokenId = model.next ((s.seqs i).tokenIds.take (s.seqs i).computedTokens) := by
  have ready := returns.ready _ _ rfl i mem
  rcases ready.inputs short with ⟨tokens, count⟩
  have cached : (s.seqs i).numCachedTokens ≤ (s.seqs i).tokenIds.length :=
    (Nat.le_add_right _ _).trans short
  have more : inputIds isPrefill (s.seqs i) ≠ [] := by
    apply List.ne_nil_of_length_pos
    rw [count]
    exact ready.scheduled
  rcases runs with ⟨slots, mapped, ran⟩
  rw [returns.runSlots_eq mem] at mapped
  cases mapped
  have start : firstPosition isPrefill (s.seqs i) =
      ((s.seqs i).tokenIds.take (s.seqs i).numCachedTokens).length := by
    rw [List.length_take_of_le cached, ready.firstPosition]
  rw [returns.context mem uncompressed contextLen short caches written, start] at ran
  constructor
  · intro position inRun
    rcases List.mem_range'_1.mp inRun with ⟨lower, upper⟩
    rcases Nat.exists_eq_add_of_le lower with ⟨k, rfl⟩
    have inside : k < (inputIds isPrefill (s.seqs i)).length := by
      rw [count]
      exact Nat.add_lt_add_iff_left.mp upper
    have upTo : (s.seqs i).numCachedTokens + k + 1 ≤ (s.seqs i).computedTokens := upper
    have entry := model.getElem?_run ((s.seqs i).tokenIds.take (s.seqs i).numCachedTokens) more
      inside
    rw [ran, tokens, List.length_take_of_le cached, List.take_take, min_eq_left upTo] at entry
    rw [← entry, List.map_map, List.getElem?_map, prefillPositions,
      List.getElem?_range' (count ▸ inside), Nat.one_mul]
    rfl
  · have sampled := model.sampled_run ((s.seqs i).tokenIds.take (s.seqs i).numCachedTokens) more
    rw [ran, tokens] at sampled
    exact sampled

theorem map_fst_positionWrites (seqs : SeqId → Sequence) (slotOf : SeqId → ℕ → ℕ)
    (batch : List SeqId) :
    (batch.flatMap fun i => positionWrites (slotOf i) (seqs i)).map Prod.fst =
      batch.flatMap fun i => (prefillPositions (seqs i)).map (slotOf i) := by
  rw [List.map_flatMap]
  apply List.flatMap_congr
  intro i _
  rw [positionWrites, List.map_map]
  rfl

/-- The writes of a batch, at the slots of its slot mapping. -/
theorem batchWrites_eq (returns : Returns cfg ids kv s (.batch batch isPrefill)) :
    System.batchWrites cfg isPrefill s.seqs batch = .ok (batch.flatMap fun i =>
      positionWrites ((s.seqs i).runSlot cfg isPrefill) (s.seqs i)) := by
  have memory := returns.valid.memory
  rcases batchWrites_spec memory fun i mem =>
    ⟨returns.known mem, returns.ready _ _ rfl i mem⟩ with ⟨slotOf, slots, written⟩
  rw [written]
  congr 1
  apply List.flatMap_congr
  intro i mem
  apply List.map_congr_left
  intro position inRun
  rw [(memory.request i (returns.known mem)).slotAt_unique (slots i mem position inRun)
    (returns.slotAt mem inRun)]

end Scheduler.Returns

/-! ## A batch -/

namespace System

variable {sys sys' ran : System} {inFlight : InFlight} {tokenIds : List Token}

theorem kv_of_schedule {env : ScheduleEnv cfg}
    (stepped : sys.step cfg (.schedule env) = .ok sys') : sys'.kv = sys.kv := by
  rcases Py.exists_of_bind stepped with ⟨⟨scheduler, outcome⟩, -, returned⟩
  cases returned
  rfl

theorem kv_of_cancel {now : ℚ} (stepped : sys.step cfg (.cancel i now) = .ok sys') :
    sys'.kv = sys.kv := by
  rcases Py.exists_of_bind stepped with ⟨⟨scheduler, cancelled⟩, -, returned⟩
  cases returned
  rfl

/-- The postprocessing of a batch leaves what its run has written. -/
theorem kv_of_postprocess (flying : sys.inFlight = some inFlight) {elapsedMs now : ℚ}
    (stepped : sys.step cfg (.postprocess tokenIds elapsedMs now) = .ok sys') :
    ∃ ran, sys.run cfg inFlight = .ok ran ∧ sys'.kv = ran.kv := by
  rw [System.step, flying] at stepped
  rcases Py.exists_of_bind stepped with ⟨ran, result, stepped⟩
  rcases Py.exists_of_bind stepped with ⟨scheduler, -, returned⟩
  cases returned
  exact ⟨ran, result, rfl⟩

/-- What a run writes and samples for an uncompressed request of its batch. -/
theorem Valid.runsOn (valid : sys.Valid cfg) (flying : sys.inFlight = some inFlight)
    (caches : sys.kv.Caches model entryAt)
    (runs : RunsBatchOn model cfg inFlight.isPrefill entryAt
      (inFlight.seqs.map sys.scheduler.seqs) entryAt' tokenIds) {tokenId : Token}
    (event : (i, tokenId) ∈ inFlight.seqs.zip tokenIds)
    (uncompressed : (sys.scheduler.seqs i).kvCompressed = false) :
    (∀ position ∈ prefillPositions (sys.scheduler.seqs i),
      model.entry ((sys.scheduler.seqs i).tokenIds.take (position + 1)) =
        some (entryAt' ((sys.scheduler.seqs i).runSlot cfg inFlight.isPrefill position))) ∧
      tokenId = model.next
        ((sys.scheduler.seqs i).tokenIds.take (sys.scheduler.seqs i).computedTokens) := by
  have returns := valid.returns flying
  have mem := (List.of_mem_zip event).1
  rcases valid.ran flying with ⟨ran, -, same, -, computed⟩
  rw [same] at computed
  rcases runs.others with ⟨slots, mapped, others⟩
  rw [returns.slotMapping_eq] at mapped
  cases mapped
  have contextLen := computed.contextLen mem (valid.ready inFlight flying i mem) uncompressed
  apply returns.runsOn mem uncompressed contextLen (computed.computed_le mem).1 caches
    others
  apply runs.request (sys.scheduler.seqs i, tokenId)
  rw [List.zip_map_left]
  exact List.mem_map_of_mem event

/-- A run keeps the entries of all exact slots those of their prefixes. -/
theorem Valid.caches_run (valid : sys.Valid cfg) (flying : sys.inFlight = some inFlight)
    (result : sys.run cfg inFlight = .ok ran) (caches : sys.kv.Caches model entryAt)
    (runs : RunsBatchOn model cfg inFlight.isPrefill entryAt
      (inFlight.seqs.map sys.scheduler.seqs) entryAt' tokenIds) :
    ran.kv.Caches model entryAt' := by
  have returns := valid.returns flying
  have distinct := returns.valid.memory.batchWrites_distinct returns.valid.batch_distinct
    (fun i mem => returns.known mem) (fun i mem position inRun => returns.slotAt mem inRun)
  rcases Py.exists_of_bind result with ⟨writes, written, returned⟩
  rw [returns.batchWrites_eq] at written
  cases written
  cases returned
  have sampled : tokenIds.length = inFlight.seqs.length := by
    rw [runs.sampled, List.length_map]
  have requests : (inFlight.seqs.zip tokenIds).map Prod.fst = inFlight.seqs :=
    List.map_fst_zip sampled.ge
  intro slot tokens holds
  by_cases mem : slot ∈ (inFlight.seqs.flatMap fun i => positionWrites
      ((sys.scheduler.seqs i).runSlot cfg inFlight.isPrefill) (sys.scheduler.seqs i)).map Prod.fst
  · rcases List.mem_map.mp mem with ⟨write, inWrites, rfl⟩
    rcases List.mem_flatMap.mp inWrites with ⟨i, scheduled, inRequest⟩
    rcases List.mem_map.mp inRequest with ⟨position, inRun, rfl⟩
    have entry := (KvStore.write_of_mem distinct inWrites).symm.trans holds
    have uncompressed : (sys.scheduler.seqs i).kvCompressed = false := by
      rw [← Bool.not_eq_true]
      intro compressed
      simp [kvEntry, compressed] at entry
    rw [← requests] at scheduled
    rcases List.mem_map.mp scheduled with ⟨⟨_, tokenId⟩, event, rfl⟩
    simp only [kvEntry, uncompressed, Bool.false_eq_true, if_false, Option.some.injEq,
      KvSlot.mk.injEq, and_true] at entry
    rw [← entry]
    exact (valid.runsOn flying caches runs event uncompressed).1 position inRun
  · rcases runs.others with ⟨slots, mapped, others⟩
    rw [returns.slotMapping_eq] at mapped
    cases mapped
    have outside := mem
    rw [Scheduler.Returns.map_fst_positionWrites] at outside
    rw [others slot outside]
    apply caches
    exact (KvStore.write_of_not_mem mem).symm.trans holds

/-- A failed run leaves the entries of all slots which the batch does not write. -/
theorem Valid.caches_runFailed (valid : sys.Valid cfg) {garbage : KvStore} {slots : List ℕ}
    (flying : sys.inFlight = some inFlight) (caches : sys.kv.Caches model entryAt)
    (mapped : slotMapping cfg inFlight.isPrefill (inFlight.seqs.map sys.scheduler.seqs) =
      .ok slots)
    (others : ∀ slot, slot ∉ slots → entryAt' slot = entryAt slot)
    (none : ∀ slot, garbage slot = none)
    (stepped : sys.step cfg (.runFailed garbage) = .ok ran) : ran.kv.Caches model entryAt' := by
  have returns := valid.returns flying
  rw [returns.slotMapping_eq] at mapped
  cases mapped
  rw [System.step, flying] at stepped
  rcases Py.exists_of_bind stepped with ⟨kv, scrambled, returned⟩
  rcases Py.exists_of_bind scrambled with ⟨writes, written, isKv⟩
  rw [returns.batchWrites_eq] at written
  cases written
  cases isKv
  cases returned
  intro slot tokens holds
  rw [KvStore.Holds] at holds
  dsimp only at holds
  split at holds
  · rw [none] at holds
    cases holds
  · next outside =>
    rw [Scheduler.Returns.map_fst_positionWrites] at outside
    rw [others slot outside]
    exact caches slot tokens holds

/-- A batch whose requests get the tokens after theirs is sampled by the model. -/
theorem Valid.sampledBy (valid : sys.Valid cfg)
    (uncompressed : Scheduler.Uncompressed sys.known.toFinset sys.scheduler)
    (flying : sys.inFlight = some inFlight) {elapsedMs now : ℚ}
    (sampled : ∀ event ∈ inFlight.seqs.zip tokenIds,
      (sys.scheduler.seqs event.1).kvCompressed = false →
        event.2 = model.next ((sys.scheduler.seqs event.1).tokenIds.take
          (sys.scheduler.seqs event.1).computedTokens)) :
    SampledBy cfg model.next sys (@Op.postprocess cfg tokenIds elapsedMs now) := by
  intro inFlight' flying' ran result event mem history attends
  cases flying.symm.trans flying'
  have scheduled := (List.of_mem_zip mem).1
  have known := (valid.batch_mem flying scheduled).1
  have whole := uncompressed event.1 (List.mem_toFinset.mpr known)
  rcases valid.ran flying with ⟨ran', result', same, -, computed⟩
  cases result.symm.trans result'
  rw [same] at computed
  have ready := valid.ready inFlight flying event.1 scheduled
  rw [(computed.attends_iff scheduled ready whole).mp attends]
  exact sampled event mem whole

end System

end NanoVllm
