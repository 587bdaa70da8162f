import NanoVllm.Basic

/-!
# Requests

`Sequence` is one request together with the KV pages it owns. `num_tokens` and `last_token`
are functions of `token_ids` on the rank which schedules, so they are not fields here. The
remaining operations mutate the request and return the new record.
-/

namespace NanoVllm

/-- The scheduling attributes of a request. -/
structure RequestQoS where
  priority : ℕ
  ttftSloMs : Option ℚ
  tpotSloMs : Option ℚ
  e2eSloMs : Option ℚ
  deriving DecidableEq, Repr, Inhabited

/-- `SequenceStatus`. -/
inductive SequenceStatus where
  | waiting
  | waitingForKv
  | running
  | finished
  | cancelled
  deriving DecidableEq, Repr, Inhabited

/-- One request. -/
structure Sequence where
  seqId : SeqId
  status : SequenceStatus
  tokenIds : List Token
  numPromptTokens : ℕ
  numCachedTokens : ℕ
  numPhysicalCachedTokens : ℕ
  numScheduledTokens : ℕ
  isPrefill : Bool
  blockTable : List BlockId
  kvBlockLogicalIndices : List ℕ
  maxTokens : ℕ
  ignoreEos : Bool
  qos : RequestQoS
  arrivalTime : Option ℚ
  arrivalStep : ℕ
  firstScheduledTime : Option ℚ
  firstTokenTime : Option ℚ
  finishedTime : Option ℚ
  preemptionCount : ℕ
  kvReclaimEvents : ℕ
  kvReclaimedBlocks : ℕ
  kvRetainedBlocks : ℕ
  kvInvalidatedTokens : ℕ
  kvRecomputedTokens : ℕ
  pendingPreemptionRecomputeTokens : ℕ
  kvCompressed : Bool
  kvCompressionEvents : ℕ
  kvCompressionDroppedBlocks : ℕ
  kvCompressionDroppedTokens : ℕ
  lastBudgetMs : Option ℚ
  remoteRestoreAttempted : Bool
  remoteRestoreStartedTime : Option ℚ
  remoteRestoreCompletedTime : Option ℚ
  remoteRestoreWaitMs : ℚ
  remoteRestoredTokens : ℕ
  remoteRestoreFailures : ℕ
  remoteRestoreError : Option String
  deriving DecidableEq, Repr, Inhabited

namespace Sequence

/-- `Sequence.__init__` for a non-empty prompt. -/
def new (seqId : SeqId) (tokenIds : List Token) (maxTokens : ℕ) (ignoreEos : Bool)
    (qos : RequestQoS) (arrivalTime : Option ℚ) : Sequence where
  seqId := seqId
  status := .waiting
  tokenIds := tokenIds
  numPromptTokens := tokenIds.length
  numCachedTokens := 0
  numPhysicalCachedTokens := 0
  numScheduledTokens := 0
  isPrefill := true
  blockTable := []
  kvBlockLogicalIndices := []
  maxTokens := maxTokens
  ignoreEos := ignoreEos
  qos := qos
  arrivalTime := arrivalTime
  arrivalStep := 0
  firstScheduledTime := none
  firstTokenTime := none
  finishedTime := none
  preemptionCount := 0
  kvReclaimEvents := 0
  kvReclaimedBlocks := 0
  kvRetainedBlocks := 0
  kvInvalidatedTokens := 0
  kvRecomputedTokens := 0
  pendingPreemptionRecomputeTokens := 0
  kvCompressed := false
  kvCompressionEvents := 0
  kvCompressionDroppedBlocks := 0
  kvCompressionDroppedTokens := 0
  lastBudgetMs := none
  remoteRestoreAttempted := false
  remoteRestoreStartedTime := none
  remoteRestoreCompletedTime := none
  remoteRestoreWaitMs := 0
  remoteRestoredTokens := 0
  remoteRestoreFailures := 0
  remoteRestoreError := none

/-- `num_tokens`, the number of prompt and completion tokens. -/
def numTokens (seq : Sequence) : ℕ := seq.tokenIds.length

/-- `num_completion_tokens`. -/
def numCompletionTokens (seq : Sequence) : ℕ := seq.numTokens - seq.numPromptTokens

/-- `prompt_token_ids`. -/
def promptTokenIds (seq : Sequence) : List Token := seq.tokenIds.take seq.numPromptTokens

/-- `completion_token_ids`. -/
def completionTokenIds (seq : Sequence) : List Token := seq.tokenIds.drop seq.numPromptTokens

/-- `is_terminal`. -/
def isTerminal (seq : Sequence) : Bool :=
  seq.status = .finished || seq.status = .cancelled

/-- `num_blocks`, the pages needed for every token of the request. -/
def numBlocks (cfg : Config) (seq : Sequence) : ℕ :=
  (seq.numTokens + cfg.blockSize - 1) / cfg.blockSize

/-- `last_block_num_tokens`. -/
def lastBlockNumTokens (cfg : Config) (seq : Sequence) : ℕ :=
  seq.numTokens - (seq.numBlocks cfg - 1) * cfg.blockSize

/-- `attention_context_tokens`. -/
def attentionContextTokens (seq : Sequence) : ℕ := seq.numPhysicalCachedTokens + 1

/-- `block(i)`, the tokens of logical page `i`. -/
def block (cfg : Config) (seq : Sequence) (i : ℕ) : BlockKey :=
  (seq.tokenIds.drop (i * cfg.blockSize)).take cfg.blockSize

/-- The keys of the first `n` logical pages. -/
def blockKeys (cfg : Config) (seq : Sequence) (n : ℕ) : List BlockKey :=
  (List.range n).map (seq.block cfg)

def markArrived (seq : Sequence) (step : ℕ) (now : ℚ) : Sequence :=
  { seq with
    arrivalStep := step
    arrivalTime := seq.arrivalTime <|> some now }

def markScheduled (seq : Sequence) (now : ℚ) : Sequence :=
  { seq with firstScheduledTime := seq.firstScheduledTime <|> some now }

def appendToken (seq : Sequence) (tokenId : Token) (now : ℚ) : Sequence :=
  { seq with
    tokenIds := seq.tokenIds ++ [tokenId]
    firstTokenTime := seq.firstTokenTime <|> some now }

def markFinished (seq : Sequence) (now : ℚ) : Sequence :=
  { seq with finishedTime := some now }

def recordKvReclaim (seq : Sequence) (reclaimedBlocks retainedBlocks invalidatedTokens : ℕ) :
    Sequence :=
  { seq with
    kvReclaimEvents := seq.kvReclaimEvents + 1
    kvReclaimedBlocks := seq.kvReclaimedBlocks + reclaimedBlocks
    kvRetainedBlocks := seq.kvRetainedBlocks + retainedBlocks
    kvInvalidatedTokens := seq.kvInvalidatedTokens + invalidatedTokens
    pendingPreemptionRecomputeTokens :=
      seq.pendingPreemptionRecomputeTokens + invalidatedTokens }

def recordRecomputedTokens (seq : Sequence) (scheduledTokens : ℕ) : Sequence :=
  let recomputed := min scheduledTokens seq.pendingPreemptionRecomputeTokens
  { seq with
    kvRecomputedTokens := seq.kvRecomputedTokens + recomputed
    pendingPreemptionRecomputeTokens := seq.pendingPreemptionRecomputeTokens - recomputed }

def recordReusedTokens (seq : Sequence) (reusedTokens : ℕ) : Sequence :=
  { seq with
    pendingPreemptionRecomputeTokens := seq.pendingPreemptionRecomputeTokens - reusedTokens }

def recordKvCompression (seq : Sequence) (droppedBlocks droppedTokens : ℕ) : Sequence :=
  { seq with
    kvCompressed := true
    kvCompressionEvents := seq.kvCompressionEvents + 1
    kvCompressionDroppedBlocks := seq.kvCompressionDroppedBlocks + droppedBlocks
    kvCompressionDroppedTokens := seq.kvCompressionDroppedTokens + droppedTokens }

/-- `cancel`, without effect on a terminal request. -/
def cancel (seq : Sequence) (now : ℚ) : Sequence :=
  if seq.isTerminal then seq
  else { seq with status := .cancelled, finishedTime := some now }

def beginRemoteRestore (seq : Sequence) (now : ℚ) : Py Sequence :=
  if seq.status ≠ .waiting then
    .error (.runtimeError "only waiting requests can begin KV restore")
  else
    .ok { seq with
      status := .waitingForKv
      remoteRestoreAttempted := true
      remoteRestoreStartedTime := some now
      remoteRestoreCompletedTime := none
      remoteRestoreError := none }

/-- The milliseconds since the restore started. -/
def remoteRestoreElapsedMs (seq : Sequence) (now : ℚ) : ℚ :=
  (now - seq.remoteRestoreStartedTime.getD now) * 1000

def finishRemoteRestore (seq : Sequence) (now : ℚ) (restoredTokens : ℕ) : Py Sequence :=
  if seq.status ≠ .waitingForKv then
    .error (.runtimeError "request is not waiting for KV restore")
  else if restoredTokens = 0 then
    .error (.valueError "restored_tokens must be positive")
  else
    .ok { seq with
      status := .waiting
      remoteRestoreCompletedTime := some now
      remoteRestoreWaitMs := seq.remoteRestoreWaitMs + seq.remoteRestoreElapsedMs now
      remoteRestoredTokens := seq.remoteRestoredTokens + restoredTokens }

def failRemoteRestore (seq : Sequence) (now : ℚ) (error : String) : Py Sequence :=
  if seq.status ≠ .waitingForKv then
    .error (.runtimeError "request is not waiting for KV restore")
  else
    .ok { seq with
      status := .waiting
      remoteRestoreCompletedTime := some now
      remoteRestoreWaitMs := seq.remoteRestoreWaitMs + seq.remoteRestoreElapsedMs now
      remoteRestoreFailures := seq.remoteRestoreFailures + 1
      remoteRestoreError := some error }

/-- The check of `metrics()`, which raises unless the three timestamps are known. -/
def checkMetrics (seq : Sequence) : Py Unit :=
  if seq.arrivalTime = none ∨ seq.firstTokenTime = none ∨ seq.finishedTime = none then
    .error (.runtimeError "request metrics are only available after completion")
  else .ok ()

end Sequence

end NanoVllm
