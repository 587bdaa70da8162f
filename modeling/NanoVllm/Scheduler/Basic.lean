import NanoVllm.BlockManager.Basic
import NanoVllm.Qos
import Mathlib.Data.Finset.Card

/-!
# The scheduler

`Scheduler` owns the queues and drives the block manager. Requests are shared Python objects,
so the state holds them in a store indexed by request identifier and the queues hold
identifiers. A `while` loop is a function with a step bound, which the callers choose large
enough; running out of it is the error `loopLimit`.

The environment of a `schedule()` call supplies the clock readings and the remote restore
service. A missing service is one which plans no restore. Tracing and the write-only counters
of `metrics()` are left out.
-/

namespace NanoVllm

/--
A remote KV page. Its object key is a digest of the cache identity, the page index and the
tokens of the prefix which ends with the page; the tokens stand for the digest.
-/
structure RemotePageDescriptor where
  prefixTokenIds : List Token
  pageIndex : ℕ
  deriving DecidableEq, Repr

/--
The remote restore service as the scheduler sees it. A planned candidate extends the local
hit, leaves a writable tail, and lists the pages of the request's own prefix.
-/
structure RestoreService (cfg : Config) where
  planRestore : Sequence → ℕ → ℚ → Option (List RemotePageDescriptor)
  plan_valid : ∀ {seq localCachedBlocks prefillMsPerToken pages},
    planRestore seq localCachedBlocks prefillMsPerToken = some pages →
      localCachedBlocks < pages.length ∧ pages.length < seq.numBlocks cfg ∧
        ∀ page index, pages[index]? = some page →
          page.pageIndex = index ∧
            page.prefixTokenIds = seq.tokenIds.take ((index + 1) * cfg.blockSize)

/-- The service which plans no restore. -/
def RestoreService.absent (cfg : Config) : RestoreService cfg where
  planRestore := fun _ _ _ => none
  plan_valid := by
    intro _ _ _ _ planned
    exact absurd planned (by simp)

/-- What one call of `schedule()` reads from outside the scheduler. -/
structure ScheduleEnv (cfg : Config) where
  now : ℚ
  retryNow : ℚ
  preemptNow : SeqId → ℚ
  service : RestoreService cfg
  submitError : SeqId → Option String

/-- `PendingRestoreState` together with the vectors of its transfer. -/
structure PendingRestoreState where
  sequence : SeqId
  pages : List RemotePageDescriptor
  blockIds : List BlockId
  totalCachedBlocks : ℕ
  restoredBlocks : ℕ
  deriving DecidableEq, Repr

/-- The state of `Scheduler`. -/
structure Scheduler where
  seqs : SeqId → Sequence
  waiting : List SeqId
  running : List SeqId
  pendingRestores : List PendingRestoreState
  blockManager : BlockManager
  stepId : ℕ
  estimator : ExecutionTimeEstimator

/-- What `_schedule_once` returns: a batch, `None`, or an exception the caller survives. -/
inductive ScheduleOutcome where
  | batch (seqs : List SeqId) (isPrefill : Bool)
  | retry
  | noRunnable
  deriving DecidableEq, Repr

namespace Scheduler

/-- `Scheduler.__init__`. -/
def init (cfg : Config) : Scheduler where
  seqs := fun _ => default
  waiting := []
  running := []
  pendingRestores := []
  blockManager := .init cfg
  stepId := 0
  estimator :=
    { prefillMsPerToken := cfg.qosPrefillMsPerToken
      decodeMsPerToken := cfg.qosDecodeMsPerToken }

/-- Replace one request. -/
def setSeq (s : Scheduler) (i : SeqId) (seq : Sequence) : Scheduler :=
  { s with seqs := Function.update s.seqs i seq }

/-- Replace the block manager and one request. -/
def put (s : Scheduler) (i : SeqId) (bm : BlockManager) (seq : Sequence) : Scheduler :=
  { s with blockManager := bm, seqs := Function.update s.seqs i seq }

def isFinished (s : Scheduler) : Bool :=
  s.waiting = [] && s.running = [] && s.pendingRestores = []

/-- Whether a request owns pages. -/
def ownsBlocks (s : Scheduler) (i : SeqId) : Bool := (s.seqs i).blockTable ≠ []

def residentCount (s : Scheduler) : ℕ :=
  s.running.length + s.pendingRestores.length + s.waiting.countP s.ownsBlocks

def add (s : Scheduler) (seq : Sequence) (now : ℚ) : Scheduler :=
  { s.setSeq seq.seqId (seq.markArrived s.stepId now) with
    waiting := s.waiting ++ [seq.seqId] }

/-! ## Cancellation and remote restores -/

/-- The part of `cancel` after the request has left its queue. -/
def finishCancel (s : Scheduler) (i : SeqId) (now : ℚ) : Py Scheduler := do
  let bm := (s.blockManager.popPendingMatch i).popPendingResumeMatch i
  let (bm, seq) ←
    if (s.seqs i).blockTable ≠ [] then bm.deallocate (s.seqs i) else .ok (bm, s.seqs i)
  .ok (s.put i bm ({ seq with numScheduledTokens := 0 }.cancel now))

def cancel (s : Scheduler) (i : SeqId) (now : ℚ) : Py (Scheduler × Bool) :=
  if i ∈ s.waiting then do
    let s ← { s with waiting := s.waiting.erase i }.finishCancel i now
    .ok (s, true)
  else if i ∈ s.running then do
    let s ← { s with running := s.running.erase i }.finishCancel i now
    .ok (s, true)
  else if s.pendingRestores.any (·.sequence = i) then do
    let s ← { s with
      pendingRestores := s.pendingRestores.filter (·.sequence ≠ i) }.finishCancel i now
    .ok (s, true)
  else .ok (s, false)

/-- `_start_remote_restore`, returning whether a restore is now pending. -/
def startRemoteRestore (cfg : Config) (env : ScheduleEnv cfg) (s : Scheduler) (i : SeqId)
    (localCachedBlocks : ℕ) (now : ℚ) : Py (Scheduler × Bool) :=
  if (s.seqs i).remoteRestoreAttempted then .ok (s, false)
  else
    match env.service.planRestore (s.seqs i) localCachedBlocks s.estimator.prefillMsPerToken with
    | none => .ok (s, false)
    | some pages => do
        let (bm, seq, blockIds) ←
          s.blockManager.reserveRestore cfg (s.seqs i) localCachedBlocks pages.length
        let seq ← seq.beginRemoteRestore now
        match env.submitError i with
        | some error => do
            let (bm, seq) ← bm.abortRestore seq
            let seq ← seq.failRemoteRestore now error
            .ok (s.put i bm seq, false)
        | none =>
            .ok ({ s.put i bm seq with
              waiting := s.waiting.erase i
              pendingRestores := s.pendingRestores ++
                [{ sequence := i, pages := pages.drop localCachedBlocks, blockIds := blockIds,
                   totalCachedBlocks := pages.length,
                   restoredBlocks := pages.length - localCachedBlocks }] }, true)

/-- `pending_restores[seq_id]`. -/
def pendingRestore (s : Scheduler) (i : SeqId) : Py PendingRestoreState :=
  match s.pendingRestores.find? (·.sequence = i) with
  | none => .error (.keyError "pending_restores")
  | some state => .ok state

def completeRemoteRestore (cfg : Config) (s : Scheduler) (i : SeqId) (now : ℚ) :
    Py Scheduler := do
  let state ← s.pendingRestore i
  let (bm, seq) ←
    s.blockManager.commitRestoredPrefix cfg (s.seqs i) state.totalCachedBlocks
  let seq ← seq.finishRemoteRestore now (state.restoredBlocks * cfg.blockSize)
  .ok { s.put i bm seq with
    pendingRestores := s.pendingRestores.filter (·.sequence ≠ i)
    waiting := s.waiting ++ [i] }

def failRemoteRestore (s : Scheduler) (i : SeqId) (now : ℚ) (error : String) :
    Py Scheduler := do
  let _ ← s.pendingRestore i
  let (bm, seq) ← s.blockManager.abortRestore (s.seqs i)
  let seq ← seq.failRemoteRestore now error
  .ok { s.put i bm seq with
    pendingRestores := s.pendingRestores.filter (·.sequence ≠ i)
    waiting := i :: s.waiting }

/-! ## Reclaim, compression and preemption -/

/-- `_apply_kv_reclaim`. -/
def applyKvReclaim (cfg : Config) (s : Scheduler) (i : SeqId) (decision : KvReclaimDecision) :
    Py Scheduler := do
  let (bm, seq, freedBlocks) ←
    s.blockManager.reclaimSuffix cfg (s.seqs i) decision.keepBlocks
  .ok (s.put i bm
    (seq.recordKvReclaim freedBlocks decision.keepBlocks decision.invalidatedTokens))

/-- `_maybe_compress`. -/
def maybeCompress (cfg : Config) (s : Scheduler) (i : SeqId) : Py Scheduler :=
  let freeRatio : ℚ := s.blockManager.freeBlockIds.length / cfg.numBlocks
  if cfg.kvCompressionPolicy = .none then .ok s
  else if cfg.kvCompressionTriggerFreeRatio < freeRatio then .ok s
  else do
    let (bm, seq, dropped, _, droppedTokens) ←
      match cfg.kvCompressionPolicy with
      | .queryAware => s.blockManager.compressQueryAware cfg (s.seqs i)
      | _ => s.blockManager.compressSinkRecent cfg (s.seqs i)
    if dropped = 0 then .ok s
    else .ok (s.put i bm (seq.recordKvCompression dropped droppedTokens))

/-- `preempt`. -/
def preempt (cfg : Config) (env : ScheduleEnv cfg) (s : Scheduler) (i : SeqId) :
    Py Scheduler := do
  let s ←
    if (s.seqs i).kvCompressed then do
      let invalidatedTokens := (s.seqs i).numCachedTokens
      let freeBefore := s.blockManager.freeBlockIds.length
      let (bm, seq) ← s.blockManager.deallocate (s.seqs i)
      let freedBlocks := bm.freeBlockIds.length - freeBefore
      .ok (s.put i bm (seq.recordKvReclaim freedBlocks 0 invalidatedTokens))
    else
      let budget := budgetMs cfg s.estimator (s.seqs i) s.stepId (env.preemptNow i)
      let minReclaimBlocks :=
        max 1 (cfg.kvReclaimTargetFreeBlocks - s.blockManager.freeBlockIds.length)
      s.applyKvReclaim cfg i (kvReclaimPlan cfg (s.seqs i) budget minReclaimBlocks)
  let seq := s.seqs i
  .ok { s.setSeq i { seq with
      status := .waiting, isPrefill := true, preemptionCount := seq.preemptionCount + 1 } with
    waiting := i :: s.waiting }

/-! ## Forced reclaim of waiting prefixes -/

/-- `block_manager.can_resume` on a request of the store. -/
def canResume (cfg : Config) (s : Scheduler) (i : SeqId) : Py (Scheduler × Bool) := do
  let (bm, resumable) ← s.blockManager.canResume cfg (s.seqs i)
  .ok ({ s with blockManager := bm }, resumable)

/-- The other waiting request whose prefix is destroyed next. -/
def reclaimVictim (cfg : Config) (s : Scheduler) (i : SeqId) (now : ℚ) : Option SeqId :=
  (s.waiting.filter fun item => item ≠ i && s.ownsBlocks item).argmax
    (reclaimOrder cfg s.estimator s.seqs s.stepId now)

/-- The forced full reclaim of one request. -/
def reclaimFully (cfg : Config) (s : Scheduler) (i : SeqId) : Py Scheduler :=
  s.applyKvReclaim cfg i (recomputePlan cfg (s.seqs i))

/-- The loop of `_ensure_resume_capacity`. -/
def resumeCapacityLoop (cfg : Config) (i : SeqId) (now : ℚ) : ℕ → Scheduler →
    Py (Scheduler × Bool)
  | 0, _ => .error .loopLimit
  | fuel + 1, s =>
      if (s.seqs i).blockTable = [] then s.canResume cfg i
      else do
        let (s, resumable) ← s.canResume cfg i
        if resumable then s.canResume cfg i
        else
          match s.reclaimVictim cfg i now with
          | some victim => do
              let s ← s.reclaimFully cfg victim
              resumeCapacityLoop cfg i now fuel s
          | none =>
              if s.running ≠ [] then .ok (s, false)
              else do
                let s ← s.reclaimFully cfg i
                resumeCapacityLoop cfg i now fuel s

/-- `_ensure_resume_capacity`. Each round empties the table of one waiting request. -/
def ensureResumeCapacity (cfg : Config) (s : Scheduler) (i : SeqId) (now : ℚ) :
    Py (Scheduler × Bool) :=
  resumeCapacityLoop cfg i now (s.waiting.length + 2) s

/-! ## The prefill phase -/

/-- The local variables of the prefill phase. -/
structure PrefillState where
  scheduler : Scheduler
  scheduledSeqs : List SeqId
  numBatchedTokens : ℕ
  budgetDeferred : Finset SeqId
  residentProgressOnly : Bool

/-- How an iteration of the prefill loop ends. -/
inductive PrefillControl where
  | again (st : PrefillState)
  | leave (st : PrefillState)

namespace PrefillState

/-- `policy.should_schedule_prefill` on a list of eligible requests. -/
def prefersPrefill (cfg : Config) (st : PrefillState) (now : ℚ) (eligible : List SeqId) : Bool :=
  let s := st.scheduler
  shouldSchedulePrefill cfg s.estimator s.seqs s.stepId now eligible s.running

/-- The requests the iteration selects from, or `none` when it leaves the loop. -/
def eligible (cfg : Config) (st : PrefillState) (now : ℚ) : Option (List SeqId) :=
  let s := st.scheduler
  let resident := if st.residentProgressOnly then s.waiting.filter s.ownsBlocks else s.waiting
  if st.residentProgressOnly ∧ resident = [] then none
  else
    let kept :=
      if st.budgetDeferred = ∅ then resident
      else resident.filter (· ∉ st.budgetDeferred)
    if st.budgetDeferred ≠ ∅ ∧ (kept = [] ∨ st.prefersPrefill cfg now kept = false) then none
    else if ∃ limit ∈ cfg.maxNumActiveSeqs, limit ≤ s.residentCount then
      let owning := kept.filter s.ownsBlocks
      if st.prefersPrefill cfg now owning then some owning else none
    else some kept

/-- The end of an iteration which schedules tokens of a request with a complete table. -/
def schedulePrefill (st : PrefillState) (i : SeqId) (numTokens remaining : ℕ) (now : ℚ) :
    PrefillState :=
  let s := st.scheduler
  let scheduledTokens := min numTokens remaining
  let seq := { (s.seqs i).markScheduled now with numScheduledTokens := scheduledTokens }
  let s :=
    if seq.numCachedTokens + scheduledTokens = seq.numTokens then
      { s.setSeq i { seq with status := .running } with
        waiting := s.waiting.erase i
        running := s.running ++ [i] }
    else s.setSeq i seq
  { st with
    scheduler := s
    scheduledSeqs := st.scheduledSeqs ++ [i]
    numBatchedTokens := st.numBatchedTokens + scheduledTokens }

/-- Defer a request for the rest of the phase. -/
def deferBudget (cfg : Config) (st : PrefillState) (i : SeqId) : PrefillControl :=
  let st := { st with budgetDeferred := insert i st.budgetDeferred }
  if st.budgetDeferred.card < cfg.maxNumSeqs then .again st else .leave st

/-- The iteration when `can_allocate` finds too few pages. -/
def allocationBlocked (cfg : Config) (st : PrefillState) (i : SeqId) : PrefillControl :=
  let s := st.scheduler
  if s.running = [] ∧ s.waiting.any s.ownsBlocks then
    .again { st with residentProgressOnly := true }
  else if cfg.kvAdmissionLookahead ≠ 0 ∧ s.running ≠ [] then st.deferBudget cfg i
  else .leave st

/-- Whether the page reserve of more urgent running requests forbids the admission. -/
def reserveForbids (cfg : Config) (s : Scheduler) (i : SeqId) : Py Bool :=
  if cfg.kvAdmissionLookahead ≠ 0 ∧ s.running ≠ [] then do
    let required ← s.blockManager.plannedAllocationPages cfg (s.seqs i)
    let reserve := priorityReservePages cfg (s.seqs i) (s.running.map s.seqs)
      cfg.kvAdmissionLookahead
    .ok ((s.blockManager.freeBlockIds.length : ℤ) - required < reserve)
  else .ok false

/-- The iteration for a selected request without pages. -/
def admitFresh (cfg : Config) (env : ScheduleEnv cfg) (st : PrefillState) (i : SeqId)
    (remaining : ℕ) (now : ℚ) : Py PrefillControl := do
  let (bm, cached) := st.scheduler.blockManager.canAllocate cfg (st.scheduler.seqs i)
  let s := { st.scheduler with blockManager := bm }
  match cached with
  | none => .ok ({ st with scheduler := s }.allocationBlocked cfg i)
  | some numCachedBlocks => do
      let forbidden ← reserveForbids cfg s i
      if forbidden then
        let s := { s with blockManager := s.blockManager.popPendingMatch i }
        .ok ({ st with scheduler := s }.deferBudget cfg i)
      else do
        let (s, started) ← s.startRemoteRestore cfg env i numCachedBlocks now
        if started then .ok (.again { st with scheduler := s })
        else
          let numTokens := (s.seqs i).numTokens - numCachedBlocks * cfg.blockSize
          if remaining < numTokens ∧ st.scheduledSeqs ≠ [] then
            .ok (.leave { st with scheduler := s })
          else do
            let previousCachedTokens := (s.seqs i).numCachedTokens
            let (bm, seq) ← s.blockManager.allocate cfg (s.seqs i) numCachedBlocks
            let s := s.put i bm
              (seq.recordReusedTokens (seq.numCachedTokens - previousCachedTokens))
            .ok (.again
              ({ st with scheduler := s }.schedulePrefill i numTokens remaining now))

/-- The iteration for a selected request which owns pages and has the capacity to resume. -/
def admitResident (cfg : Config) (st : PrefillState) (i : SeqId) (remaining : ℕ) (now : ℚ) :
    Py PrefillControl := do
  let (bm, seq, reusedTokens) ←
    st.scheduler.blockManager.resume cfg (st.scheduler.seqs i)
  let s := st.scheduler.put i bm (seq.recordReusedTokens reusedTokens)
  let numTokens := (s.seqs i).numTokens - (s.seqs i).numCachedTokens
  if remaining < numTokens ∧ st.scheduledSeqs ≠ [] then
    .ok (.leave { st with scheduler := s })
  else .ok (.again ({ st with scheduler := s }.schedulePrefill i numTokens remaining now))

/-- One iteration of the prefill loop. -/
def iterate (cfg : Config) (env : ScheduleEnv cfg) (st : PrefillState) (now : ℚ) :
    Py PrefillControl :=
  match st.eligible cfg now with
  | none => .ok (.leave st)
  | some eligible =>
      let s := st.scheduler
      match selectNext cfg s.estimator s.seqs s.stepId now eligible with
      | none => .error (.indexError "waiting")
      | some i =>
          let s := s.setSeq i { s.seqs i with
            lastBudgetMs := budgetMs cfg s.estimator (s.seqs i) s.stepId now }
          let st := { st with scheduler := s }
          let remaining := cfg.maxNumBatchedTokens - st.numBatchedTokens
          if remaining = 0 then .ok (.leave st)
          else if (s.seqs i).blockTable = [] then st.admitFresh cfg env i remaining now
          else do
            let (s, ready) ← s.ensureResumeCapacity cfg i now
            let st := { st with scheduler := s }
            if !ready then .ok (.leave st)
            else if (s.seqs i).blockTable = [] then st.admitFresh cfg env i remaining now
            else st.admitResident cfg i remaining now

/-- The prefill loop. -/
def loop (cfg : Config) (env : ScheduleEnv cfg) (now : ℚ) : ℕ → PrefillState → Py PrefillState
  | 0, _ => .error .loopLimit
  | fuel + 1, st =>
      if st.scheduler.waiting = [] ∨ cfg.maxNumSeqs ≤ st.scheduledSeqs.length then .ok st
      else do
        match ← st.iterate cfg env now with
        | .again st => loop cfg env now fuel st
        | .leave st => .ok st

end PrefillState

/-- The prefill phase of `_schedule_once`. -/
def prefillPhase (cfg : Config) (env : ScheduleEnv cfg) (s : Scheduler) (now : ℚ) :
    Py (Scheduler × List SeqId) :=
  if shouldSchedulePrefill cfg s.estimator s.seqs s.stepId now s.waiting s.running then do
    let st ← PrefillState.loop cfg env now (2 * s.waiting.length + 3)
      { scheduler := s, scheduledSeqs := [], numBatchedTokens := 0, budgetDeferred := ∅,
        residentProgressOnly := false }
    .ok (st.scheduler, st.scheduledSeqs)
  else .ok (s, [])

/-! ## The decode phase -/

/-- The loop which makes room for the next token of a request; `false` after self-preemption. -/
def appendCapacityLoop (cfg : Config) (env : ScheduleEnv cfg) (i : SeqId) (now : ℚ) :
    ℕ → Scheduler → Py (Scheduler × Bool)
  | 0, _ => .error .loopLimit
  | fuel + 1, s =>
      if s.blockManager.canAppend cfg (s.seqs i) then .ok (s, true)
      else
        match selectPreemptionVictim cfg s.estimator s.seqs s.stepId now s.running with
        | some victim => do
            let s ← { s with running := s.running.erase victim }.preempt cfg env victim
            appendCapacityLoop cfg env i now fuel s
        | none => do
            let s ← s.preempt cfg env i
            .ok (s, false)

/-- Schedule the next token of a request taken out of the running queue. -/
def scheduleDecode (cfg : Config) (s : Scheduler) (i : SeqId) : Py Scheduler := do
  let seq := { s.seqs i with numScheduledTokens := 1, isPrefill := false }
  let (bm, seq) ← s.blockManager.mayAppend cfg seq
  .ok (s.put i bm seq)

/-- The decode loop, returning the scheduled requests and `retry_prefill`. -/
def decodeLoop (cfg : Config) (env : ScheduleEnv cfg) (now : ℚ) :
    ℕ → Scheduler → List SeqId → Bool → Py (Scheduler × List SeqId × Bool)
  | 0, _, _, _ => .error .loopLimit
  | fuel + 1, s, scheduledSeqs, retryPrefill =>
      if s.running = [] ∨ cfg.maxNumSeqs ≤ scheduledSeqs.length then
        .ok (s, scheduledSeqs, retryPrefill)
      else
        match selectNext cfg s.estimator s.seqs s.stepId now s.running with
        | none => .error (.indexError "running")
        | some i => do
            let s := { s.setSeq i { s.seqs i with
                lastBudgetMs := budgetMs cfg s.estimator (s.seqs i) s.stepId now } with
              running := s.running.erase i }
            let s ← s.maybeCompress cfg i
            let (s, scheduled) ← appendCapacityLoop cfg env i now (s.running.length + 1) s
            if scheduled then do
              let s ← s.scheduleDecode cfg i
              decodeLoop cfg env now fuel s (scheduledSeqs ++ [i]) retryPrefill
            else decodeLoop cfg env now fuel s scheduledSeqs true

/-- `_schedule_once`. -/
def scheduleOnce (cfg : Config) (env : ScheduleEnv cfg) (s : Scheduler) (now : ℚ) :
    Py (Scheduler × ScheduleOutcome) := do
  let (s, scheduledSeqs) ← { s with stepId := s.stepId + 1 }.prefillPhase cfg env now
  if scheduledSeqs ≠ [] then .ok (s, .batch scheduledSeqs true)
  else do
    let (s, scheduledSeqs, retryPrefill) ←
      decodeLoop cfg env now (s.running.length + 1) s [] false
    if s.pendingRestores ≠ [] ∧ scheduledSeqs = [] then .ok (s, .batch [] true)
    else if scheduledSeqs = [] then
      if retryPrefill then .ok (s, .retry) else .ok (s, .noRunnable)
    else .ok ({ s with running := scheduledSeqs ++ s.running }, .batch scheduledSeqs false)

/-- `schedule`: retry the prefill phase once after a self-preemption. -/
def schedule (cfg : Config) (env : ScheduleEnv cfg) (s : Scheduler) :
    Py (Scheduler × ScheduleOutcome) := do
  let (s, outcome) ← s.scheduleOnce cfg env env.now
  if outcome ≠ .retry then .ok (s, outcome)
  else do
    let (s, outcome) ← s.scheduleOnce cfg env env.retryNow
    if outcome ≠ .retry then .ok (s, outcome)
    else .error (.runtimeError "scheduler retry failed to make progress")

/-! ## Postprocessing -/

/-- `postprocess` for one request of the batch. -/
def postprocessSeq (cfg : Config) (now : ℚ) (isPrefill : Bool) (s : Scheduler) (i : SeqId)
    (tokenId : Token) : Py Scheduler := do
  let seq := s.seqs i
  let bm ← s.blockManager.hashBlocks cfg seq
  let seq := if isPrefill then seq.recordRecomputedTokens seq.numScheduledTokens else seq
  let seq := { seq with
    numCachedTokens := seq.numCachedTokens + seq.numScheduledTokens
    numPhysicalCachedTokens := seq.numPhysicalCachedTokens + seq.numScheduledTokens
    numScheduledTokens := 0 }
  if isPrefill ∧ seq.numCachedTokens < seq.numTokens then .ok (s.put i bm seq)
  else
    let seq := seq.appendToken tokenId now
    if (!seq.ignoreEos ∧ tokenId = cfg.eos) ∨ seq.numCompletionTokens = seq.maxTokens then do
      let (bm, seq) ← bm.deallocate ({ seq with status := .finished }.markFinished now)
      if i ∉ s.running then .error (.valueError "running")
      else do
        seq.checkMetrics
        .ok { s.put i bm seq with running := s.running.erase i }
    else .ok (s.put i bm seq)

/-- The loop of `postprocess` over the batch and its sampled tokens. -/
def postprocessLoop (cfg : Config) (now : ℚ) (isPrefill : Bool) :
    List (SeqId × Token) → Scheduler → Py Scheduler
  | [], s => .ok s
  | (i, tokenId) :: rest, s => do
      let s ← s.postprocessSeq cfg now isPrefill i tokenId
      postprocessLoop cfg now isPrefill rest s

/-- `postprocess`. -/
def postprocess (cfg : Config) (s : Scheduler) (seqs : List SeqId) (tokenIds : List Token)
    (isPrefill : Bool) (now : ℚ) : Py Scheduler :=
  postprocessLoop cfg now isPrefill (seqs.zip tokenIds) s

/-- `observe_execution`. -/
def observeExecution (cfg : Config) (s : Scheduler) (isPrefill : Bool) (numTokens : ℕ)
    (elapsedMs : ℚ) : Scheduler :=
  { s with estimator := s.estimator.observe cfg isPrefill numTokens elapsedMs }

end Scheduler

end NanoVllm
