import NanoVllm.Sequence
import Mathlib.Data.List.MinMax
import Mathlib.Data.Prod.Lex
import Mathlib.Order.WithBot
import Mathlib.Algebra.Order.Ring.Rat

/-!
# Scheduling policies, KV reclaim plans and the admission reserve

The decisions the scheduler consults: the FCFS and PALS selection rules with the latency
budget of PALS, the reclaim plans of `kv_reclaim.py` and the page reserve of
`kv_admission.py`. `min` and `max` of Python return the first extremal element, as
`List.argmin` and `List.argmax` do.
-/

namespace NanoVllm

/-- `ExecutionTimeEstimator`; its smoothing factor is `Config.qosEwmaAlpha`. -/
structure ExecutionTimeEstimator where
  prefillMsPerToken : ℚ
  decodeMsPerToken : ℚ
  deriving DecidableEq, Repr

namespace ExecutionTimeEstimator

def observe (cfg : Config) (estimator : ExecutionTimeEstimator) (isPrefill : Bool)
    (numTokens : ℕ) (elapsedMs : ℚ) : ExecutionTimeEstimator :=
  if numTokens = 0 ∨ elapsedMs ≤ 0 then estimator
  else
    let sample := elapsedMs / numTokens
    if isPrefill then
      { estimator with
        prefillMsPerToken :=
          cfg.qosEwmaAlpha * sample + (1 - cfg.qosEwmaAlpha) * estimator.prefillMsPerToken }
    else
      { estimator with
        decodeMsPerToken :=
          cfg.qosEwmaAlpha * sample + (1 - cfg.qosEwmaAlpha) * estimator.decodeMsPerToken }

def remainingPrefillMs (estimator : ExecutionTimeEstimator) (seq : Sequence) : ℚ :=
  (seq.numTokens - seq.numCachedTokens : ℕ) * estimator.prefillMsPerToken

end ExecutionTimeEstimator

/-! ## Latency budgets -/

/-- `_remaining_to_finish_ms`. -/
def remainingToFinishMs (estimator : ExecutionTimeEstimator) (seq : Sequence) : ℚ :=
  let remainingDecodeTokens := seq.maxTokens - seq.numCompletionTokens
  if seq.isPrefill then
    estimator.remainingPrefillMs seq +
      (remainingDecodeTokens - 1 : ℕ) * estimator.decodeMsPerToken
  else remainingDecodeTokens * estimator.decodeMsPerToken

/-- The TTFT or TPOT candidate of `_raw_budget_ms`. -/
def tokenBudgetMs (estimator : ExecutionTimeEstimator) (seq : Sequence) (elapsedMs : ℚ) :
    Option ℚ :=
  match seq.firstTokenTime with
  | none =>
      seq.qos.ttftSloMs.map fun slo => slo - elapsedMs - estimator.remainingPrefillMs seq
  | some firstTokenTime =>
      seq.qos.tpotSloMs.map fun slo =>
        let actualTtftMs := (firstTokenTime - seq.arrivalTime.getD 0) * 1000
        let nextTokenTargetMs := actualTtftMs + seq.numCompletionTokens * slo
        let remainingToNextToken :=
          if seq.isPrefill then estimator.remainingPrefillMs seq
          else estimator.decodeMsPerToken
        nextTokenTargetMs - elapsedMs - remainingToNextToken

/-- `_raw_budget_ms`. -/
def rawBudgetMs (cfg : Config) (estimator : ExecutionTimeEstimator) (seq : Sequence)
    (elapsedMs : ℚ) : ℚ :=
  let e2eBudget :=
    seq.qos.e2eSloMs.map fun slo => slo - elapsedMs - remainingToFinishMs estimator seq
  match tokenBudgetMs estimator seq elapsedMs, e2eBudget with
  | some left, some right => min left right
  | some left, none => left
  | none, some right => right
  | none, none => cfg.qosBestEffortSloMs - elapsedMs - remainingToFinishMs estimator seq

/-- `PriorityAwareLatencyBudgetPolicy.budget_ms`. Queued requests have an arrival time. -/
def palsBudgetMs (cfg : Config) (estimator : ExecutionTimeEstimator) (seq : Sequence)
    (step : ℕ) (now : ℚ) : ℚ :=
  let elapsedMs := max 0 ((now - seq.arrivalTime.getD 0) * 1000)
  let priorityCredit := seq.qos.priority * cfg.qosPriorityBoostMs
  let agingCredit := (step - seq.arrivalStep : ℕ) * cfg.qosAgingMsPerStep
  rawBudgetMs cfg estimator seq elapsedMs - priorityCredit - agingCredit

/-- `policy.budget_ms`, which is `None` under FCFS. -/
def budgetMs (cfg : Config) (estimator : ExecutionTimeEstimator) (seq : Sequence)
    (step : ℕ) (now : ℚ) : Option ℚ :=
  match cfg.schedulingPolicy with
  | .fcfs => none
  | .pals => some (palsBudgetMs cfg estimator seq step now)

/-! ## Selections -/

/-- The selection key of PALS: budget, arrival step, request identifier. -/
def palsKey (cfg : Config) (estimator : ExecutionTimeEstimator) (seqs : SeqId → Sequence)
    (step : ℕ) (now : ℚ) (seqId : SeqId) : ℚ ×ₗ ℕ ×ₗ SeqId :=
  toLex (palsBudgetMs cfg estimator (seqs seqId) step now,
    toLex ((seqs seqId).arrivalStep, seqId))

/-- `select_waiting` and `select_running`: the head of the queue, or the least PALS key. -/
def selectNext (cfg : Config) (estimator : ExecutionTimeEstimator) (seqs : SeqId → Sequence)
    (step : ℕ) (now : ℚ) (queue : List SeqId) : Option SeqId :=
  match cfg.schedulingPolicy with
  | .fcfs => queue.head?
  | .pals => queue.argmin (palsKey cfg estimator seqs step now)

/-- `select_preemption_victim`: the tail of the queue, or the greatest PALS key. -/
def selectPreemptionVictim (cfg : Config) (estimator : ExecutionTimeEstimator)
    (seqs : SeqId → Sequence) (step : ℕ) (now : ℚ) (running : List SeqId) : Option SeqId :=
  match cfg.schedulingPolicy with
  | .fcfs => running.getLast?
  | .pals => running.argmax (palsKey cfg estimator seqs step now)

/-- `should_schedule_prefill`. -/
def shouldSchedulePrefill (cfg : Config) (estimator : ExecutionTimeEstimator)
    (seqs : SeqId → Sequence) (step : ℕ) (now : ℚ) (waiting running : List SeqId) : Bool :=
  match cfg.schedulingPolicy with
  | .fcfs => waiting ≠ []
  | .pals =>
      match selectNext cfg estimator seqs step now waiting,
          selectNext cfg estimator seqs step now running with
      | none, _ => false
      | some _, none => true
      | some waitingSeq, some runningSeq =>
          palsBudgetMs cfg estimator (seqs waitingSeq) step now ≤
            palsBudgetMs cfg estimator (seqs runningSeq) step now

/-- The order in which `_ensure_resume_capacity` reclaims: the greatest key goes first. -/
def reclaimOrder (cfg : Config) (estimator : ExecutionTimeEstimator)
    (seqs : SeqId → Sequence) (step : ℕ) (now : ℚ) (seqId : SeqId) :
    WithTop ℚ ×ₗ ℕ ×ₗ SeqId :=
  toLex ((budgetMs cfg estimator (seqs seqId) step now : WithTop ℚ),
    toLex ((seqs seqId).arrivalStep, seqId))

/-! ## Reclaim plans -/

/-- The fields of `KVReclaimDecision` which the scheduler reads. -/
structure KvReclaimDecision where
  keepBlocks : ℕ
  reclaimBlocks : ℕ
  invalidatedTokens : ℕ
  deriving DecidableEq, Repr

/-- `KVReclaimPolicy._decision`. -/
def kvReclaimDecision (cfg : Config) (seq : Sequence) (cachedBlocks : ℕ) (keepBlocks : ℤ) :
    KvReclaimDecision :=
  let ownedBlocks := seq.blockTable.length
  let keep := (max 0 (min keepBlocks (min cachedBlocks ownedBlocks))).toNat
  { keepBlocks := keep
    reclaimBlocks := ownedBlocks - keep
    invalidatedTokens := seq.numCachedTokens - keep * cfg.blockSize }

/-- `KVReclaimPolicy.plan`, which keeps nothing. -/
def recomputePlan (cfg : Config) (seq : Sequence) : KvReclaimDecision :=
  kvReclaimDecision cfg seq (seq.numCachedTokens / cfg.blockSize) 0

/-- The urgency of `SLOAwareKVReclaimPolicy.plan`. -/
def reclaimUrgency (cfg : Config) : Option ℚ → ℚ
  | none => 0
  | some budget => if budget ≤ 0 then 1 else 1 / (1 + budget / cfg.kvReclaimBudgetScaleMs)

/-- `SLOAwareKVReclaimPolicy.plan`. -/
def sloAwarePlan (cfg : Config) (seq : Sequence) (budget : Option ℚ) (minReclaimBlocks : ℕ) :
    KvReclaimDecision :=
  let ownedBlocks := seq.blockTable.length
  let cachedBlocks := seq.numCachedTokens / cfg.blockSize
  let keepRatio := cfg.kvReclaimMinKeepRatio +
    (cfg.kvReclaimMaxKeepRatio - cfg.kvReclaimMinKeepRatio) * reclaimUrgency cfg budget
  let desiredKeep := ⌊(cachedBlocks : ℚ) * keepRatio⌋
  let maxKeep := ownedBlocks - minReclaimBlocks
  kvReclaimDecision cfg seq cachedBlocks (min desiredKeep maxKeep)

/-- The plan of the configured `kv_reclaim_policy`. -/
def kvReclaimPlan (cfg : Config) (seq : Sequence) (budget : Option ℚ) (minReclaimBlocks : ℕ) :
    KvReclaimDecision :=
  match cfg.kvReclaimPolicy with
  | .recompute => recomputePlan cfg seq
  | .sloAware => sloAwarePlan cfg seq budget minReclaimBlocks

/-! ## The admission reserve -/

/-- `growth_pages`. -/
def growthPages (cachedTokens ownedPages futureTokens blockSize : ℕ) : ℕ :=
  (cachedTokens + futureTokens + blockSize - 1) / blockSize - ownedPages

/-- The pages `priority_reserve_pages` reserves for one running request. -/
def runningReservePages (cfg : Config) (candidate seq : Sequence) (horizon : ℕ) : ℕ :=
  if seq.qos.priority < candidate.qos.priority then 0
  else
    let pendingPrefill := if 0 < seq.numScheduledTokens then 1 else 0
    let remaining := seq.maxTokens - seq.numCompletionTokens - pendingPrefill
    growthPages (seq.numPhysicalCachedTokens + seq.numScheduledTokens) seq.blockTable.length
      (min horizon remaining) cfg.blockSize

/-- `priority_reserve_pages`. -/
def priorityReservePages (cfg : Config) (candidate : Sequence) (running : List Sequence)
    (horizon : ℕ) : ℕ :=
  let remaining := candidate.maxTokens - candidate.numCompletionTokens - 1
  (running.map fun seq => runningReservePages cfg candidate seq horizon).sum +
    growthPages candidate.numTokens (candidate.numBlocks cfg) (min horizon remaining)
      cfg.blockSize

end NanoVllm
