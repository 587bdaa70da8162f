import NanoVllm.Scheduler.Basic

/-!
# Batch preparation

The index arithmetic of `ModelRunner.prepare_prefill` and `ModelRunner.prepare_decode`. A slot
is one token position of one physical page. The tensors these functions build are lists here.
-/

namespace NanoVllm

/-- What `prepare_prefill` hands to the model. -/
structure PrefillInputs where
  inputIds : List Token
  positions : List ℕ
  cuSeqlensQ : List ℕ
  cuSeqlensK : List ℕ
  maxSeqlenQ : ℕ
  maxSeqlenK : ℕ
  slotMapping : List ℕ
  blockTables : Option (List (List ℤ))
  deriving DecidableEq, Repr

/-- What `prepare_decode` hands to the model. -/
structure DecodeInputs where
  inputIds : List Token
  positions : List ℕ
  slotMapping : List ℕ
  contextLens : List ℕ
  blockTables : List (List ℤ)
  deriving DecidableEq, Repr

namespace ModelRunner

/-- `block_table[i]`. -/
def tableEntry (seq : Sequence) (i : ℕ) : Py BlockId :=
  match seq.blockTable[i]? with
  | none => .error (.indexError "block_table")
  | some blockId => .ok blockId

/-- The slots `prepare_prefill` maps for page `i` of the scheduled range `start, ..., stop - 1`. -/
def pageSlots (cfg : Config) (seq : Sequence) (start stop i : ℕ) : Py (List ℕ) := do
  let startBlock := start / cfg.blockSize
  let endBlock := (stop + cfg.blockSize - 1) / cfg.blockSize
  let blockId ← tableEntry seq i
  let pageStart := blockId * cfg.blockSize
  let slotStart := if i = startBlock then pageStart + start % cfg.blockSize else pageStart
  let slotEnd :=
    if i ≠ endBlock - 1 then pageStart + cfg.blockSize
    else pageStart + stop - i * cfg.blockSize
  .ok (List.range' slotStart (slotEnd - slotStart))

/-- The loop over the pages of one request. -/
def pageSlotsLoop (cfg : Config) (seq : Sequence) (start stop : ℕ) : List ℕ → Py (List ℕ)
  | [] => .ok []
  | i :: pages => do
      let slots ← pageSlots cfg seq start stop i
      let rest ← pageSlotsLoop cfg seq start stop pages
      .ok (slots ++ rest)

/-- The slot mapping of one request of a prefill batch. -/
def prefillSlots (cfg : Config) (seq : Sequence) : Py (List ℕ) :=
  let start := seq.numCachedTokens
  let stop := start + seq.numScheduledTokens
  if seq.blockTable = [] then .ok []
  else
    let startBlock := start / cfg.blockSize
    let endBlock := (stop + cfg.blockSize - 1) / cfg.blockSize
    pageSlotsLoop cfg seq start stop (List.range' startBlock (endBlock - startBlock))

/-- The positions scheduled for one request of a prefill batch. -/
def prefillPositions (seq : Sequence) : List ℕ :=
  List.range' seq.numCachedTokens seq.numScheduledTokens

/-- The slot mapping of one request of a decode batch. -/
def decodeSlot (cfg : Config) (seq : Sequence) : Py ℕ :=
  match seq.blockTable.getLast? with
  | none => .error (.indexError "block_table")
  | some blockId => .ok (blockId * cfg.blockSize + seq.lastBlockNumTokens cfg - 1)

/-- Concatenate the slot mappings of a batch. -/
def slotMappingLoop (slots : Sequence → Py (List ℕ)) : List Sequence → Py (List ℕ)
  | [] => .ok []
  | seq :: seqs => do
      let first ← slots seq
      let rest ← slotMappingLoop slots seqs
      .ok (first ++ rest)

/-- The slot mapping of a prefill batch. -/
def prefillSlotMapping (cfg : Config) (seqs : List Sequence) : Py (List ℕ) :=
  slotMappingLoop (prefillSlots cfg) seqs

/-- The slot mapping of a decode batch. -/
def decodeSlotMapping (cfg : Config) (seqs : List Sequence) : Py (List ℕ) :=
  slotMappingLoop (fun seq => do let slot ← decodeSlot cfg seq; .ok [slot]) seqs

/-- `prepare_block_tables`: pad every table to the longest one. -/
def prepareBlockTables (seqs : List Sequence) : List (List ℤ) :=
  let maxLen := (seqs.map fun seq => seq.blockTable.length).foldl max 0
  seqs.map fun seq =>
    seq.blockTable.map (Int.ofNat ·) ++ List.replicate (maxLen - seq.blockTable.length) (-1)

/-- Partial sums, starting with `0`. -/
def cumulativeLengths (lengths : List ℕ) : List ℕ :=
  lengths.foldl (fun sums length => sums ++ [sums.getLastD 0 + length]) [0]

/-- `prepare_prefill`. -/
def preparePrefill (cfg : Config) (seqs : List Sequence) : Py PrefillInputs := do
  let slotMapping ← prefillSlotMapping cfg seqs
  let seqlensQ := seqs.map fun seq => seq.numScheduledTokens
  let seqlensK := seqs.map fun seq => seq.numCachedTokens + seq.numScheduledTokens
  .ok {
    inputIds := seqs.flatMap fun seq =>
      (seq.tokenIds.take (seq.numCachedTokens + seq.numScheduledTokens)).drop seq.numCachedTokens
    positions := seqs.flatMap prefillPositions
    cuSeqlensQ := cumulativeLengths seqlensQ
    cuSeqlensK := cumulativeLengths seqlensK
    maxSeqlenQ := seqlensQ.foldl max 0
    maxSeqlenK := seqlensK.foldl max 0
    slotMapping := slotMapping
    blockTables :=
      if seqlensQ.sum < seqlensK.sum then some (prepareBlockTables seqs) else none }

/-- `prepare_decode`. -/
def prepareDecode (cfg : Config) (seqs : List Sequence) : Py DecodeInputs := do
  let slotMapping ← decodeSlotMapping cfg seqs
  .ok {
    inputIds := seqs.map fun seq => seq.tokenIds.getLastD 0
    positions := seqs.map fun seq => seq.numTokens - 1
    slotMapping := slotMapping
    contextLens := seqs.map Sequence.attentionContextTokens
    blockTables := prepareBlockTables seqs }

end ModelRunner

end NanoVllm
