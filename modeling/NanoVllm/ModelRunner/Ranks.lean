import NanoVllm.ModelRunner.Batches

/-!
# Tensor-parallel ranks

Rank 0 sends the requests of a batch to the other ranks, which rebuild them from the pickled
state and prepare the batch themselves. `LLMEngine.__init__` assigns the configured page size to
the class attribute `Sequence.block_size` of its own process. A spawned rank imports the modules
again, so there the attribute keeps the value of the class body. Only `last_block_num_tokens`
reads it during batch preparation; everything else uses the page size of the runner.
-/

namespace NanoVllm

/-- The tuple of `Sequence.__getstate__`. -/
structure PickledState where
  numTokens : ℕ
  numPromptTokens : ℕ
  numCachedTokens : ℕ
  numPhysicalCachedTokens : ℕ
  numScheduledTokens : ℕ
  blockTable : List BlockId
  kvBlockLogicalIndices : List ℕ
  kvCompressed : Bool
  lastState : Token ⊕ List Token
  deriving DecidableEq, Repr

/-- The attributes of a request which a rank has rebuilt. -/
structure RankSequence where
  numTokens : ℕ
  numPromptTokens : ℕ
  numCachedTokens : ℕ
  numPhysicalCachedTokens : ℕ
  numScheduledTokens : ℕ
  blockTable : List BlockId
  kvBlockLogicalIndices : List ℕ
  kvCompressed : Bool
  tokenIds : List Token
  lastToken : Token
  deriving DecidableEq, Repr

/-- `Sequence.__getstate__`. -/
def Sequence.getState (seq : Sequence) : PickledState where
  numTokens := seq.numTokens
  numPromptTokens := seq.numPromptTokens
  numCachedTokens := seq.numCachedTokens
  numPhysicalCachedTokens := seq.numPhysicalCachedTokens
  numScheduledTokens := seq.numScheduledTokens
  blockTable := seq.blockTable
  kvBlockLogicalIndices := seq.kvBlockLogicalIndices
  kvCompressed := seq.kvCompressed
  lastState := if !seq.isPrefill then .inl (seq.tokenIds.getLastD 0) else .inr seq.tokenIds

namespace RankSequence

/-- `Sequence.__setstate__`. -/
def setState (state : PickledState) : Py RankSequence := do
  let (tokenIds, lastToken) ← match state.lastState with
    | .inr tokenIds =>
        match tokenIds.getLast? with
        | none => (.error (.indexError "token_ids") : Py (List Token × Token))
        | some lastToken => .ok (tokenIds, lastToken)
    | .inl lastToken => .ok ([], lastToken)
  .ok {
    numTokens := state.numTokens
    numPromptTokens := state.numPromptTokens
    numCachedTokens := state.numCachedTokens
    numPhysicalCachedTokens := state.numPhysicalCachedTokens
    numScheduledTokens := state.numScheduledTokens
    blockTable := state.blockTable
    kvBlockLogicalIndices := state.kvBlockLogicalIndices
    kvCompressed := state.kvCompressed
    tokenIds, lastToken }

/-- `Sequence.block_size` in a process which has only imported the module. -/
def classBlockSize : ℕ := 256

def numBlocks (seq : RankSequence) : ℕ :=
  (seq.numTokens + classBlockSize - 1) / classBlockSize

def lastBlockNumTokens (seq : RankSequence) : ℕ :=
  seq.numTokens - (seq.numBlocks - 1) * classBlockSize

def attentionContextTokens (seq : RankSequence) : ℕ := seq.numPhysicalCachedTokens + 1

/-- A request with the attributes which `prepare_prefill` and `prepare_block_tables` read. -/
def prefillView (seq : RankSequence) : Sequence :=
  { (default : Sequence) with
    tokenIds := seq.tokenIds
    numCachedTokens := seq.numCachedTokens
    numScheduledTokens := seq.numScheduledTokens
    blockTable := seq.blockTable }

/-- The slot mapping of one request of a decode batch. -/
def decodeSlot (cfg : Config) (seq : RankSequence) : Py ℕ :=
  match seq.blockTable.getLast? with
  | none => .error (.indexError "block_table")
  | some blockId => .ok (blockId * cfg.blockSize + seq.lastBlockNumTokens - 1)

/-- Rebuild the requests of a batch. -/
def rebuild : List Sequence → Py (List RankSequence)
  | [] => .ok []
  | seq :: seqs => do
      let first ← setState seq.getState
      let rest ← rebuild seqs
      .ok (first :: rest)

/-- The slot mapping of a decode batch. -/
def decodeSlotMapping (cfg : Config) : List RankSequence → Py (List ℕ)
  | [] => .ok []
  | seq :: seqs => do
      let slot ← decodeSlot cfg seq
      let rest ← decodeSlotMapping cfg seqs
      .ok (slot :: rest)

/-- `prepare_prefill` on a rank. -/
def preparePrefill (cfg : Config) (seqs : List RankSequence) : Py PrefillInputs :=
  ModelRunner.preparePrefill cfg (seqs.map prefillView)

/-- `prepare_decode` on a rank. -/
def prepareDecode (cfg : Config) (seqs : List RankSequence) : Py DecodeInputs := do
  let slotMapping ← decodeSlotMapping cfg seqs
  .ok {
    inputIds := seqs.map lastToken
    positions := seqs.map fun seq => seq.numTokens - 1
    slotMapping := slotMapping
    contextLens := seqs.map attentionContextTokens
    blockTables := ModelRunner.prepareBlockTables (seqs.map prefillView) }

end RankSequence

/-- What the two ways of preparing a batch return, without the token identifiers. -/
inductive BatchLayout where
  | prefill (inputs : PrefillInputs)
  | decode (inputs : DecodeInputs)
  deriving DecidableEq, Repr

/-- The memory layout of a prefill batch. -/
def PrefillInputs.layout (inputs : PrefillInputs) : BatchLayout :=
  .prefill { inputs with inputIds := [] }

/-- The memory layout of a decode batch. -/
def DecodeInputs.layout (inputs : DecodeInputs) : BatchLayout :=
  .decode { inputs with inputIds := [] }

/-- The memory layout which rank 0 computes for a batch. -/
def ownLayout (cfg : Config) (isPrefill : Bool) (seqs : List Sequence) : Py BatchLayout :=
  if isPrefill then do
    let inputs ← ModelRunner.preparePrefill cfg seqs
    .ok inputs.layout
  else do
    let inputs ← ModelRunner.prepareDecode cfg seqs
    .ok inputs.layout

/-- The memory layout which another rank computes for a batch. -/
def rankLayout (cfg : Config) (isPrefill : Bool) (seqs : List Sequence) : Py BatchLayout := do
  let rebuilt ← RankSequence.rebuild seqs
  if isPrefill then do
    let inputs ← RankSequence.preparePrefill cfg rebuilt
    .ok inputs.layout
  else do
    let inputs ← RankSequence.prepareDecode cfg rebuilt
    .ok inputs.layout

/-- The object a rank rebuilds for a request with tokens. -/
def Sequence.onRank (seq : Sequence) : RankSequence where
  numTokens := seq.numTokens
  numPromptTokens := seq.numPromptTokens
  numCachedTokens := seq.numCachedTokens
  numPhysicalCachedTokens := seq.numPhysicalCachedTokens
  numScheduledTokens := seq.numScheduledTokens
  blockTable := seq.blockTable
  kvBlockLogicalIndices := seq.kvBlockLogicalIndices
  kvCompressed := seq.kvCompressed
  tokenIds := if !seq.isPrefill then [] else seq.tokenIds
  lastToken := seq.tokenIds.getLastD 0

variable {cfg : Config} {seq : Sequence} {seqs : List Sequence}

namespace RankSequence

theorem setState_getState (nonempty : 0 < seq.numTokens) :
    setState seq.getState = .ok seq.onRank := by
  have tokens : seq.tokenIds ≠ [] := List.ne_nil_of_length_pos nonempty
  unfold setState Sequence.getState Sequence.onRank
  cases seq.isPrefill with
  | false => rfl
  | true =>
    simp only [Bool.not_true, Bool.false_eq_true, if_false, List.getLast?_eq_some_getLast tokens,
      Py.ok_bind, List.getLastD_eq_getLast?, Option.getD_some]

theorem rebuild_eq (nonempty : ∀ seq ∈ seqs, 0 < seq.numTokens) :
    rebuild seqs = .ok (seqs.map Sequence.onRank) := by
  induction seqs with
  | nil => rfl
  | cons seq seqs ih =>
    rw [rebuild, setState_getState (nonempty seq List.mem_cons_self),
      ih fun other mem => nonempty other (.tail _ mem)]
    rfl

/-! ## Prefill batches -/

theorem prefillSlots_view (seq : Sequence) :
    ModelRunner.prefillSlots cfg seq.onRank.prefillView = ModelRunner.prefillSlots cfg seq := by
  have pages : ∀ start stop indices,
      ModelRunner.pageSlotsLoop cfg seq.onRank.prefillView start stop indices =
        ModelRunner.pageSlotsLoop cfg seq start stop indices := by
    intro start stop indices
    induction indices with
    | nil => rfl
    | cons i indices ih =>
      rw [ModelRunner.pageSlotsLoop, ModelRunner.pageSlotsLoop, ih]
      rfl
  unfold ModelRunner.prefillSlots
  simp only [pages]
  rfl

theorem prefillSlotMapping_view (seqs : List Sequence) :
    ModelRunner.prefillSlotMapping cfg (seqs.map fun seq => seq.onRank.prefillView) =
      ModelRunner.prefillSlotMapping cfg seqs := by
  unfold ModelRunner.prefillSlotMapping
  induction seqs with
  | nil => rfl
  | cons seq seqs ih =>
    rw [List.map_cons, ModelRunner.slotMappingLoop, ModelRunner.slotMappingLoop, ih,
      prefillSlots_view]

theorem map_prefillView (seqs : List Sequence) : seqs.map (prefillView ∘ Sequence.onRank) =
    seqs.map fun seq => seq.onRank.prefillView := rfl

theorem prepareBlockTables_view (seqs : List Sequence) :
    ModelRunner.prepareBlockTables (seqs.map fun seq => seq.onRank.prefillView) =
      ModelRunner.prepareBlockTables seqs := by
  unfold ModelRunner.prepareBlockTables
  simp only [List.map_map]
  rfl

/-- A prefill batch has one layout on all ranks. -/
theorem rankLayout_prefill (nonempty : ∀ seq ∈ seqs, 0 < seq.numTokens) :
    rankLayout cfg true seqs = ownLayout cfg true seqs := by
  unfold rankLayout ownLayout preparePrefill ModelRunner.preparePrefill
  simp only [rebuild_eq nonempty, Py.ok_bind, if_true, List.map_map]
  change (ModelRunner.prefillSlotMapping cfg (seqs.map fun seq => seq.onRank.prefillView) >>= _)
    >>= _ = _
  rw [prefillSlotMapping_view]
  cases ModelRunner.prefillSlotMapping cfg seqs with
  | error error => rfl
  | ok slotMapping =>
    simp only [Py.ok_bind, PrefillInputs.layout]
    congr 3
    · rw [map_prefillView, List.flatMap_map]
      rfl
    · rw [map_prefillView, prepareBlockTables_view]
      rfl

/-! ## Decode batches -/

theorem lastBlockNumTokens_onRank (nonempty : 0 < seq.numTokens) :
    seq.onRank.lastBlockNumTokens = (seq.numTokens - 1) % classBlockSize + 1 := by
  unfold lastBlockNumTokens numBlocks classBlockSize
  change seq.numTokens - ((seq.numTokens + 256 - 1) / 256 - 1) * 256 =
    (seq.numTokens - 1) % 256 + 1
  omega

theorem decodeSlot_onRank {blockId : BlockId} (last : seq.blockTable.getLast? = some blockId)
    (nonempty : 0 < seq.numTokens) :
    decodeSlot cfg seq.onRank =
      .ok (blockId * cfg.blockSize + (seq.numTokens - 1) % classBlockSize) := by
  change (match seq.blockTable.getLast? with
    | none => (.error (.indexError "block_table") : Py ℕ)
    | some blockId => .ok (blockId * cfg.blockSize + seq.onRank.lastBlockNumTokens - 1)) = _
  simp only [last, lastBlockNumTokens_onRank nonempty]
  rfl

end RankSequence

namespace RankSequence

variable {blockIdOf : Sequence → BlockId}

theorem rankSlots_eq (decodable : ∀ seq ∈ seqs, seq.Decodable (blockIdOf seq)) :
    decodeSlotMapping cfg (seqs.map Sequence.onRank) = .ok (seqs.map fun seq =>
      blockIdOf seq * cfg.blockSize + (seq.numTokens - 1) % classBlockSize) := by
  induction seqs with
  | nil => rfl
  | cons seq seqs ih =>
    have first := decodable seq List.mem_cons_self
    simp only [List.map_cons, decodeSlotMapping, decodeSlot_onRank first.last first.nonempty,
      ih fun other mem => decodable other (.tail _ mem), Py.ok_bind]

/-- The layouts of a decode batch differ in the slots only. -/
theorem rankLayout_decode (decodable : ∀ seq ∈ seqs, seq.Decodable (blockIdOf seq)) :
    ∃ layout, ownLayout cfg false seqs = .ok layout ∧
      (rankLayout cfg false seqs = .ok layout ↔
        ∀ seq ∈ seqs, (seq.numTokens - 1) % cfg.blockSize =
          (seq.numTokens - 1) % classBlockSize) := by
  have nonempty : ∀ seq ∈ seqs, 0 < seq.numTokens := fun seq mem => (decodable seq mem).nonempty
  simp only [ownLayout, rankLayout, ModelRunner.prepareDecode, prepareDecode,
    decodeSlotMapping_eq decodable, rankSlots_eq decodable, rebuild_eq nonempty, Bool.false_eq_true,
    if_false, Py.ok_bind]
  refine ⟨_, rfl, ?_⟩
  simp only [Except.ok.injEq, DecodeInputs.layout, BatchLayout.decode.injEq,
    DecodeInputs.mk.injEq, List.map_map, true_and]
  rw [map_prefillView, prepareBlockTables_view]
  constructor
  · rintro ⟨-, slots, -⟩ seq mem
    have slot := List.map_inj_left.mp slots seq mem
    exact (Nat.add_left_cancel slot).symm
  · intro same
    refine ⟨rfl, List.map_congr_left fun seq mem => ?_, rfl, rfl⟩
    rw [same seq mem]

end RankSequence

/-! ## Reachable states -/

namespace System

variable {sys : System} {s' : Scheduler} {env : ScheduleEnv cfg} {batch : List SeqId}
  {isPrefill : Bool}

/--
A rank computes the layout of rank 0 exactly for prefill batches and for decode batches whose
requests end at the same offset of a configured page and of a page of the class body.
-/
theorem rankLayout_eq_iff (reachable : Reachable cfg sys) (idle : sys.inFlight = none)
    (scheduled : sys.scheduler.schedule cfg env = .ok (s', .batch batch isPrefill)) :
    ∃ layout, ownLayout cfg isPrefill (batch.map s'.seqs) = .ok layout ∧
      (rankLayout cfg isPrefill (batch.map s'.seqs) = .ok layout ↔
        isPrefill = true ∨ ∀ i ∈ batch, ((s'.seqs i).numTokens - 1) % cfg.blockSize =
          ((s'.seqs i).numTokens - 1) % RankSequence.classBlockSize) := by
  obtain ⟨-, returns⟩ := reachable.returns idle scheduled
  cases isPrefill with
  | true =>
    obtain ⟨inputs, prepared⟩ := returns.preparePrefill
    have own : ownLayout cfg true (batch.map s'.seqs) = .ok inputs.layout := by
      simp only [ownLayout, prepared, Py.ok_bind, if_true]
    refine ⟨inputs.layout, own, iff_of_true ?_ (.inl rfl)⟩
    rw [RankSequence.rankLayout_prefill, own]
    intro seq mem
    obtain ⟨i, scheduled, rfl⟩ := List.mem_map.mp mem
    exact returns.nonempty i scheduled
  | false =>
    obtain ⟨layout, own, agree⟩ := RankSequence.rankLayout_decode returns.decodable
    refine ⟨layout, own, agree.trans ?_⟩
    rw [or_iff_right Bool.false_ne_true]
    simp only [List.forall_mem_map]

/-- Pages of 512 tokens. -/
def widePages : Config := defaultConfig 512 2 4 (by decide)

/-- The state after the prefill of one request of 256 tokens. -/
def widePagesRun : System := (init widePages).runOps widePages
  [.add (plainRequest 0 256 8) 0, .schedule (idleEnv _), .postprocess [5] 1 1]

theorem widePagesRun_reachable : Reachable widePages widePagesRun :=
  ReachableBy.runOps .init (by decide +kernel)

theorem rankLayout_eq_iff_widePages :
    ∃ s' layout, widePagesRun.scheduler.schedule widePages (idleEnv widePages) =
        .ok (s', .batch [0] false) ∧
      ownLayout widePages false [s'.seqs 0] = .ok layout ∧
      (rankLayout widePages false [s'.seqs 0] = .ok layout ↔
        false = true ∨ ∀ i ∈ [0], ((s'.seqs i).numTokens - 1) % widePages.blockSize =
          ((s'.seqs i).numTokens - 1) % RankSequence.classBlockSize) := by
  have mapped : (widePagesRun.scheduler.schedule widePages (idleEnv widePages)).map Prod.snd =
      .ok (.batch [0] false) := by decide +kernel
  obtain ⟨⟨s', _⟩, scheduled, rfl⟩ := exists_of_map mapped
  obtain ⟨layout, own, agree⟩ := rankLayout_eq_iff widePagesRun_reachable (by decide +kernel) scheduled
  exact ⟨s', layout, scheduled, own, agree⟩

/-- The layout of a decode batch of one request with one page, page `0`. -/
def onePageLayout (position slot contextLen : ℕ) : BatchLayout :=
  .decode {
    inputIds := []
    positions := [position]
    slotMapping := [slot]
    contextLens := [contextLen]
    blockTables := [[0]] }

/-- With pages of 512 tokens a rank writes the KV of token 257 over that of the first token. -/
theorem rankLayout_ne_widePages : 256 ∣ widePages.blockSize ∧ Reachable widePages widePagesRun ∧
    ∃ s', widePagesRun.scheduler.schedule widePages (idleEnv widePages) =
        .ok (s', .batch [0] false) ∧
      ownLayout widePages false [s'.seqs 0] = .ok (onePageLayout 256 256 257) ∧
      rankLayout widePages false [s'.seqs 0] = .ok (onePageLayout 256 0 257) := by
  refine ⟨by decide, widePagesRun_reachable, ?_⟩
  have mapped : (widePagesRun.scheduler.schedule widePages (idleEnv widePages)).map
      (fun result => (result.2, ownLayout widePages false [result.1.seqs 0],
        rankLayout widePages false [result.1.seqs 0])) =
      .ok (.batch [0] false, .ok (onePageLayout 256 256 257), .ok (onePageLayout 256 0 257)) := by
    decide +kernel
  obtain ⟨⟨s', outcome⟩, scheduled, layouts⟩ := exists_of_map mapped
  obtain ⟨rfl, own, rank⟩ := (Prod.mk.inj layouts).imp_right Prod.mk.inj
  exact ⟨s', scheduled, own, rank⟩

end System

end NanoVllm
