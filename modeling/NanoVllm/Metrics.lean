import NanoVllm.Engine.Conservation
import NanoVllm.Library.Quantile

/-!
# Request metrics

The metrics of a finished request, their summary, and the history which the scheduler keeps of
them. `postprocess` appends the metrics of a request when it finishes, and `metrics()` summarizes
the history, again on each call or only when it has grown.
-/

namespace NanoVllm

open Quantile

/-- `RequestMetrics`. -/
structure RequestMetrics where
  seqId : SeqId
  priority : ℕ
  promptTokens : ℕ
  completionTokens : ℕ
  queueMs : ℚ
  ttftMs : ℚ
  tpotMs : Option ℚ
  e2eMs : ℚ
  preemptions : ℕ
  kvReclaimEvents : ℕ
  kvReclaimedBlocks : ℕ
  kvRetainedBlocks : ℕ
  kvInvalidatedTokens : ℕ
  kvRecomputedTokens : ℕ
  kvCompressionEvents : ℕ
  kvCompressionDroppedBlocks : ℕ
  kvCompressionDroppedTokens : ℕ
  kvRestoreWaitMs : ℚ
  kvRestoredTokens : ℕ
  kvRestoreFailures : ℕ
  ttftSloMs : Option ℚ
  tpotSloMs : Option ℚ
  e2eSloMs : Option ℚ
  ttftSloMet : Option Bool
  tpotSloMet : Option Bool
  e2eSloMet : Option Bool
  deriving DecidableEq, Repr

/-- `(latency <= slo) if slo else None`: an objective of zero is none. -/
def sloMet (latency : ℚ) (slo : Option ℚ) : Option Bool :=
  match slo with
  | none => none
  | some slo => if slo = 0 then none else some (latency ≤ slo)

namespace Sequence

/-- `self.first_scheduled_time or self.first_token_time`: a time of zero counts as none. -/
def scheduledTime (seq : Sequence) (firstTokenTime : ℚ) : ℚ :=
  match seq.firstScheduledTime with
  | none => firstTokenTime
  | some time => if time = 0 then firstTokenTime else time

/-- The record of a request whose timestamps are known. -/
def metricsAt (seq : Sequence) (arrivalTime firstTokenTime finishedTime : ℚ) : RequestMetrics :=
  let queueMs := (seq.scheduledTime firstTokenTime - arrivalTime) * 1000
  let ttftMs := (firstTokenTime - arrivalTime) * 1000
  let e2eMs := (finishedTime - arrivalTime) * 1000
  let tpotMs :=
    if 1 < seq.numCompletionTokens then
      some ((e2eMs - ttftMs) / (seq.numCompletionTokens - 1 : ℕ))
    else none
  { seqId := seq.seqId
    priority := seq.qos.priority
    promptTokens := seq.numPromptTokens
    completionTokens := seq.numCompletionTokens
    queueMs
    ttftMs
    tpotMs
    e2eMs
    preemptions := seq.preemptionCount
    kvReclaimEvents := seq.kvReclaimEvents
    kvReclaimedBlocks := seq.kvReclaimedBlocks
    kvRetainedBlocks := seq.kvRetainedBlocks
    kvInvalidatedTokens := seq.kvInvalidatedTokens
    kvRecomputedTokens := seq.kvRecomputedTokens
    kvCompressionEvents := seq.kvCompressionEvents
    kvCompressionDroppedBlocks := seq.kvCompressionDroppedBlocks
    kvCompressionDroppedTokens := seq.kvCompressionDroppedTokens
    kvRestoreWaitMs := seq.remoteRestoreWaitMs
    kvRestoredTokens := seq.remoteRestoredTokens
    kvRestoreFailures := seq.remoteRestoreFailures
    ttftSloMs := seq.qos.ttftSloMs
    tpotSloMs := seq.qos.tpotSloMs
    e2eSloMs := seq.qos.e2eSloMs
    ttftSloMet := sloMet ttftMs seq.qos.ttftSloMs
    tpotSloMet := seq.qos.tpotSloMs.bind fun slo => tpotMs.map fun tpot => (tpot ≤ slo : Bool)
    e2eSloMet := sloMet e2eMs seq.qos.e2eSloMs }

/-- `metrics()`. -/
def metrics (seq : Sequence) : Py RequestMetrics :=
  match seq.arrivalTime, seq.firstTokenTime, seq.finishedTime with
  | some arrivalTime, some firstTokenTime, some finishedTime =>
      .ok (seq.metricsAt arrivalTime firstTokenTime finishedTime)
  | _, _, _ => .error (.runtimeError "request metrics are only available after completion")

end Sequence

/-! ## Summaries -/

/-- `percentile`. -/
abbrev percentile (values : List ℚ) (ratio : ℚ) : ℚ := quantile values ratio

/-- The result of `summarize_metrics`. -/
structure MetricsSummary where
  completedRequests : ℕ
  queueMsP50 : ℚ
  queueMsP95 : ℚ
  ttftMsP50 : ℚ
  ttftMsP95 : ℚ
  tpotMsP50 : ℚ
  tpotMsP95 : ℚ
  e2eMsP50 : ℚ
  e2eMsP95 : ℚ
  preemptions : ℕ
  kvReclaimEvents : ℕ
  kvReclaimedBlocks : ℕ
  kvRetainedBlocks : ℕ
  kvInvalidatedTokens : ℕ
  kvRecomputedTokens : ℕ
  kvCompressionEvents : ℕ
  kvCompressionDroppedBlocks : ℕ
  kvCompressionDroppedTokens : ℕ
  kvRestoreWaitMsP50 : ℚ
  kvRestoreWaitMsP95 : ℚ
  kvRestoredTokens : ℕ
  kvRestoreFailures : ℕ
  ttftSloAttainment : Option ℚ
  tpotSloAttainment : Option ℚ
  e2eSloAttainment : Option ℚ
  deriving DecidableEq, Repr

/-- The summary without requests. -/
def MetricsSummary.empty : MetricsSummary where
  completedRequests := 0
  queueMsP50 := 0
  queueMsP95 := 0
  ttftMsP50 := 0
  ttftMsP95 := 0
  tpotMsP50 := 0
  tpotMsP95 := 0
  e2eMsP50 := 0
  e2eMsP95 := 0
  preemptions := 0
  kvReclaimEvents := 0
  kvReclaimedBlocks := 0
  kvRetainedBlocks := 0
  kvInvalidatedTokens := 0
  kvRecomputedTokens := 0
  kvCompressionEvents := 0
  kvCompressionDroppedBlocks := 0
  kvCompressionDroppedTokens := 0
  kvRestoreWaitMsP50 := 0
  kvRestoreWaitMsP95 := 0
  kvRestoredTokens := 0
  kvRestoreFailures := 0
  ttftSloAttainment := none
  tpotSloAttainment := none
  e2eSloAttainment := none

/-- The share of the requests with an objective which have met it. -/
def attainment (met : List Bool) : Option ℚ :=
  if met = [] then none else some (met.count true / met.length)

/-- `summarize_metrics` of some requests. -/
def summarizeSome (metrics : List RequestMetrics) : MetricsSummary :=
  let queueValues := metrics.map RequestMetrics.queueMs
  let ttftValues := metrics.map RequestMetrics.ttftMs
  let tpotValues := metrics.filterMap RequestMetrics.tpotMs
  let e2eValues := metrics.map RequestMetrics.e2eMs
  let restoreWaitValues := metrics.map RequestMetrics.kvRestoreWaitMs
  { completedRequests := metrics.length
    queueMsP50 := median queueValues
    queueMsP95 := percentile queueValues (95 / 100)
    ttftMsP50 := median ttftValues
    ttftMsP95 := percentile ttftValues (95 / 100)
    tpotMsP50 := if tpotValues = [] then 0 else median tpotValues
    tpotMsP95 := percentile tpotValues (95 / 100)
    e2eMsP50 := median e2eValues
    e2eMsP95 := percentile e2eValues (95 / 100)
    preemptions := (metrics.map RequestMetrics.preemptions).sum
    kvReclaimEvents := (metrics.map RequestMetrics.kvReclaimEvents).sum
    kvReclaimedBlocks := (metrics.map RequestMetrics.kvReclaimedBlocks).sum
    kvRetainedBlocks := (metrics.map RequestMetrics.kvRetainedBlocks).sum
    kvInvalidatedTokens := (metrics.map RequestMetrics.kvInvalidatedTokens).sum
    kvRecomputedTokens := (metrics.map RequestMetrics.kvRecomputedTokens).sum
    kvCompressionEvents := (metrics.map RequestMetrics.kvCompressionEvents).sum
    kvCompressionDroppedBlocks := (metrics.map RequestMetrics.kvCompressionDroppedBlocks).sum
    kvCompressionDroppedTokens := (metrics.map RequestMetrics.kvCompressionDroppedTokens).sum
    kvRestoreWaitMsP50 := median restoreWaitValues
    kvRestoreWaitMsP95 := percentile restoreWaitValues (95 / 100)
    kvRestoredTokens := (metrics.map RequestMetrics.kvRestoredTokens).sum
    kvRestoreFailures := (metrics.map RequestMetrics.kvRestoreFailures).sum
    ttftSloAttainment := attainment (metrics.filterMap RequestMetrics.ttftSloMet)
    tpotSloAttainment := attainment (metrics.filterMap RequestMetrics.tpotSloMet)
    e2eSloAttainment := attainment (metrics.filterMap RequestMetrics.e2eSloMet) }

/-- `summarize_metrics`. -/
def summarizeMetrics (metrics : List RequestMetrics) : MetricsSummary :=
  if metrics = [] then .empty else summarizeSome metrics

/-! ## The history of the scheduler -/

/-- `completed_metrics` and `metrics_by_seq_id`. -/
structure MetricsHistory where
  completedMetrics : List RequestMetrics
  metricsBySeqId : SeqId → Option RequestMetrics

namespace MetricsHistory

def empty : MetricsHistory where
  completedMetrics := []
  metricsBySeqId := fun _ => none

/-- Append the metrics of a request. -/
def record (history : MetricsHistory) (seqId : SeqId) (metrics : RequestMetrics) :
    MetricsHistory where
  completedMetrics := history.completedMetrics ++ [metrics]
  metricsBySeqId := Function.update history.metricsBySeqId seqId (some metrics)

variable {history : MetricsHistory} {i j : SeqId} {metrics : RequestMetrics}

@[simp]
theorem record_completed : (history.record i metrics).completedMetrics =
    history.completedMetrics ++ [metrics] := rfl

@[simp]
theorem record_self : (history.record i metrics).metricsBySeqId i = some metrics :=
  Function.update_self _ _ _

theorem record_of_ne (differ : j ≠ i) :
    (history.record i metrics).metricsBySeqId j = history.metricsBySeqId j :=
  Function.update_of_ne differ _ _

end MetricsHistory

namespace Scheduler

/-- `postprocess` for one request of the batch, whose metrics are kept when it finishes. -/
def recordSeq (cfg : Config) (now : ℚ) (isPrefill : Bool) (s : Scheduler)
    (history : MetricsHistory) (i : SeqId) (tokenId : Token) : Py (Scheduler × MetricsHistory) := do
  let s ← s.postprocessSeq cfg now isPrefill i tokenId
  if (s.seqs i).status = .finished then do
    let metrics ← (s.seqs i).metrics
    .ok (s, history.record (s.seqs i).seqId metrics)
  else .ok (s, history)

/-- The loop of `postprocess` with the history of the metrics. -/
def recordLoop (cfg : Config) (now : ℚ) (isPrefill : Bool) :
    List (SeqId × Token) → Scheduler × MetricsHistory → Py (Scheduler × MetricsHistory)
  | [], state => .ok state
  | (i, tokenId) :: rest, (s, history) => do
      let state ← s.recordSeq cfg now isPrefill history i tokenId
      recordLoop cfg now isPrefill rest state

end Scheduler

/-- `metrics_summary_mode`. -/
inductive MetricsSummaryMode where
  | cached
  | full
  deriving DecidableEq, Repr

/-- The summary of the completed requests which `metrics()` keeps between its calls. -/
structure SummaryCache where
  completedSummary : Option MetricsSummary
  completedSummaryCount : ℤ
  summaryCalls : ℕ
  summaryRefreshes : ℕ
  deriving DecidableEq, Repr

namespace SummaryCache

/-- The cache of a new scheduler. -/
def init : SummaryCache where
  completedSummary := none
  completedSummaryCount := -1
  summaryCalls := 0
  summaryRefreshes := 0

/-- The cache after a call of `metrics()`. -/
def refresh (mode : MetricsSummaryMode) (cache : SummaryCache) (completed : List RequestMetrics) :
    SummaryCache :=
  if mode = .full ∨ (completed.length : ℤ) ≠ cache.completedSummaryCount then
    { completedSummary := some (summarizeMetrics completed)
      completedSummaryCount := completed.length
      summaryCalls := cache.summaryCalls + 1
      summaryRefreshes := cache.summaryRefreshes + 1 }
  else { cache with summaryCalls := cache.summaryCalls + 1 }

end SummaryCache

/-- The fields of `metrics()` about the completed requests, the queues and the cache itself. -/
structure SchedulerMetrics where
  summary : Option MetricsSummary
  summaryCalls : ℕ
  summaryRefreshes : ℕ
  remoteRestorePending : ℕ
  waitingRequests : ℕ
  runningRequests : ℕ
  deriving DecidableEq, Repr

/-- The engine with what its scheduler keeps for `metrics()`. -/
structure Monitor where
  system : System
  history : MetricsHistory
  cache : SummaryCache

/-- What a client of the engine calls. -/
inductive EngineCall (cfg : Config) where
  | engine (op : Op cfg)
  | metrics

namespace Monitor

def init (cfg : Config) : Monitor where
  system := .init cfg
  history := .empty
  cache := .init

/-- The history after an operation. Only `postprocess` appends to it. -/
def recorded {cfg : Config} (monitor : Monitor) : Op cfg → Py MetricsHistory
  | .postprocess tokenIds elapsedMs now =>
      match monitor.system.inFlight with
      | none => .error .assertionError
      | some batch => do
          let sys ← monitor.system.run cfg batch
          let observed := sys.scheduler.observeExecution cfg batch.isPrefill
            (System.observedTokens sys.scheduler.seqs batch) elapsedMs
          let (_, history) ← Scheduler.recordLoop cfg now batch.isPrefill
            (batch.seqs.zip tokenIds) (observed, monitor.history)
          .ok history
  | _ => .ok monitor.history

/-- `metrics()`. -/
def metrics (mode : MetricsSummaryMode) (monitor : Monitor) : SchedulerMetrics × Monitor :=
  let cache := monitor.cache.refresh mode monitor.history.completedMetrics
  let scheduler := monitor.system.scheduler
  ({ summary := cache.completedSummary
     summaryCalls := cache.summaryCalls
     summaryRefreshes := cache.summaryRefreshes
     remoteRestorePending := scheduler.pendingRestores.length
     waitingRequests := scheduler.waiting.length
     runningRequests := scheduler.running.length },
    { monitor with cache })

/-- One call. -/
def step (cfg : Config) (mode : MetricsSummaryMode) (monitor : Monitor) :
    EngineCall cfg → Py Monitor
  | .engine op => do
      let history ← monitor.recorded op
      let system ← monitor.system.step cfg op
      .ok { monitor with system, history }
  | .metrics => .ok (monitor.metrics mode).2

/-- When the callers make a call. -/
def Enabled {cfg : Config} (monitor : Monitor) : EngineCall cfg → Prop
  | .engine op => monitor.system.Enabled op
  | .metrics => True

/-- The states which calls in any order lead to. -/
inductive Reachable (cfg : Config) (mode : MetricsSummaryMode) : Monitor → Prop
  | init : Reachable cfg mode (init cfg)
  | step {monitor monitor' : Monitor} {call : EngineCall cfg}
      (reachable : Reachable cfg mode monitor) (enabled : monitor.Enabled call)
      (stepped : monitor.step cfg mode call = .ok monitor') : Reachable cfg mode monitor'

end Monitor

end NanoVllm
