import NanoVllm.Memory.Admission
import NanoVllm.Memory.Restore

/-!
# The scheduler invariant

The counters of a request satisfy a condition for each status, every live request is in the queue
of its status, and the memory invariant holds. While `_schedule_once` works, some running requests
are held outside the running queue and some requests already have scheduled tokens, so both lists
are parameters of the invariant.

An operation moves one request at a time. `Scheduler.Valid.move` reduces the invariant after such
an operation to facts about that request.
-/

namespace NanoVllm

open BlockManager

/-- The statuses of requests which are in a queue. -/
def SequenceStatus.Live : SequenceStatus → Prop
  | .waiting => True
  | .waitingForKv => True
  | .running => True
  | .finished => False
  | .cancelled => False

namespace Sequence

/-- A waiting request retains complete pages, or it owns all its pages and is partly prefilled. -/
structure Waiting (cfg : Config) (seq : Sequence) : Prop where
  uncompressed : seq.kvCompressed = false
  owned : seq.blockTable.length ≤ seq.numBlocks cfg
  retained : seq.blockTable.length < seq.numBlocks cfg →
    seq.numCachedTokens = seq.blockTable.length * cfg.blockSize ∧ seq.numScheduledTokens = 0
  short : seq.computedTokens < seq.numTokens
  physical : seq.numPhysicalCachedTokens = seq.numCachedTokens

/-- A request with a pending restore owns all its pages. -/
structure Restoring (cfg : Config) (seq : Sequence) : Prop where
  uncompressed : seq.kvCompressed = false
  full : seq.blockTable.length = seq.numBlocks cfg
  idle : seq.numScheduledTokens = 0
  physical : seq.numPhysicalCachedTokens = seq.numCachedTokens

/--
A running request lacks the KV of its last token only, and that token is scheduled or not. Its
table ends with the page of the last computed token; pages dropped by compressions are missing
from the table and from the physical token count alike.
-/
structure Running (cfg : Config) (seq : Sequence) : Prop where
  nonempty : 0 < seq.computedTokens
  last : seq.kvBlockLogicalIndices.getLast? = some ((seq.computedTokens - 1) / cfg.blockSize)
  complete : 0 < seq.numScheduledTokens → seq.computedTokens = seq.numTokens
  next : seq.numScheduledTokens = 0 → seq.numCachedTokens + 1 = seq.numTokens
  physical : seq.numCachedTokens + seq.blockTable.length * cfg.blockSize =
    seq.numPhysicalCachedTokens +
      ((seq.computedTokens - 1) / cfg.blockSize + 1) * cfg.blockSize

/-- A terminal request owns nothing. -/
structure Released (seq : Sequence) : Prop where
  uncompressed : seq.kvCompressed = false
  table : seq.blockTable = []
  logical : seq.kvBlockLogicalIndices = []
  uncached : seq.numCachedTokens = 0
  idle : seq.numScheduledTokens = 0

/-- The condition on the counters for the status of a request. -/
def Phase (cfg : Config) (seq : Sequence) : Prop :=
  match seq.status with
  | .waiting => seq.Waiting cfg
  | .waitingForKv => seq.Restoring cfg
  | .running => seq.Running cfg
  | .finished => seq.Released
  | .cancelled => seq.Released

variable {cfg : Config} {seq : Sequence}

theorem Phase.of_waiting (status : seq.status = .waiting) (waiting : seq.Waiting cfg) :
    seq.Phase cfg := by
  rw [Phase, status]
  exact waiting

theorem Phase.of_restoring (status : seq.status = .waitingForKv)
    (restoring : seq.Restoring cfg) : seq.Phase cfg := by
  rw [Phase, status]
  exact restoring

theorem Phase.of_running (status : seq.status = .running) (running : seq.Running cfg) :
    seq.Phase cfg := by
  rw [Phase, status]
  exact running

theorem Phase.of_released (status : ¬seq.status.Live) (released : seq.Released) :
    seq.Phase cfg := by
  unfold Phase
  unfold SequenceStatus.Live at status
  split at status <;> simp_all

/-- The invariant of one request. -/
structure WellFormed (cfg : Config) (i : SeqId) (seq : Sequence) : Prop where
  named : seq.seqId = i
  prompt : 0 < seq.numPromptTokens
  prompt_le : seq.numPromptTokens ≤ seq.numTokens
  arrived : seq.arrivalTime ≠ none
  budget : 1 ≤ seq.maxTokens → seq.isTerminal = false → seq.numCompletionTokens < seq.maxTokens
  phase : seq.Phase cfg

end Sequence

theorem Sequence.isTerminal_eq_false {seq : Sequence} :
    seq.isTerminal = false ↔ seq.status.Live := by
  unfold isTerminal SequenceStatus.Live
  cases seq.status <;> simp

namespace Scheduler

/-- The queue of a status; the running queue includes the requests held outside it. -/
def queue (s : Scheduler) (held : List SeqId) : SequenceStatus → List SeqId
  | .waiting => s.waiting
  | .waitingForKv => s.pendingRestores.map PendingRestoreState.sequence
  | .running => s.running ++ held
  | .finished => []
  | .cancelled => []

/--
The scheduler invariant. `held` are the running requests outside the running queue, `batch` the
requests with scheduled tokens, and `computed` counts the tokens in memory.
-/
structure Valid (cfg : Config) (ids : Finset SeqId) (kv : KvStore) (computed : Sequence → ℕ)
    (held batch : List SeqId) (s : Scheduler) : Prop where
  memory : MemoryValid cfg ids s.seqs s.blockManager kv computed
  request : ∀ i ∈ ids, (s.seqs i).WellFormed cfg i
  distinct : ∀ status, (s.queue held status).Nodup
  queued : ∀ status, status.Live → ∀ i,
    i ∈ s.queue held status ↔ i ∈ ids ∧ (s.seqs i).status = status
  pending : ∀ state ∈ s.pendingRestores, state.Valid cfg (s.seqs state.sequence)
  plans : ∀ i, s.blockManager.pendingMatches i ≠ none →
    i ∈ ids ∧ (s.seqs i).status = .waiting ∧ (s.seqs i).blockTable = []
  resumePlans : ∀ i, s.blockManager.pendingResumeMatches i ≠ none →
    i ∈ ids ∧ (s.seqs i).status.Live
  batch_distinct : batch.Nodup
  scheduled : ∀ i, i ∈ batch ↔ i ∈ ids ∧ 0 < (s.seqs i).numScheduledTokens

/-- The pending plans after an operation on one request. -/
structure PlansKept (i : SeqId) (seq : Sequence) (bm bm' : BlockManager) : Prop where
  plans : ∀ j, j ≠ i → bm'.pendingMatches j ≠ none → bm.pendingMatches j ≠ none
  resumePlans : ∀ j, j ≠ i → bm'.pendingResumeMatches j ≠ none →
    bm.pendingResumeMatches j ≠ none
  plan : bm'.pendingMatches i ≠ none → seq.status = .waiting ∧ seq.blockTable = []
  resumePlan : bm'.pendingResumeMatches i ≠ none → seq.status.Live

variable {cfg : Config} {ids : Finset SeqId} {kv : KvStore} {computed : Sequence → ℕ}
  {held held' batch batch' : List SeqId} {s s' : Scheduler} {i j : SeqId} {seq : Sequence}
  {bm' : BlockManager}

namespace Valid

/-! ## Reading the invariant -/

theorem mem_waiting (valid : Valid cfg ids kv computed held batch s) :
    i ∈ s.waiting ↔ i ∈ ids ∧ (s.seqs i).status = .waiting :=
  valid.queued .waiting trivial i

theorem mem_running (valid : Valid cfg ids kv computed held batch s) :
    i ∈ s.running ++ held ↔ i ∈ ids ∧ (s.seqs i).status = .running :=
  valid.queued .running trivial i

theorem mem_pending (valid : Valid cfg ids kv computed held batch s) :
    i ∈ s.pendingRestores.map PendingRestoreState.sequence ↔
      i ∈ ids ∧ (s.seqs i).status = .waitingForKv :=
  valid.queued .waitingForKv trivial i

theorem waiting (valid : Valid cfg ids kv computed held batch s) (mem : i ∈ s.waiting) :
    i ∈ ids ∧ (s.seqs i).status = .waiting ∧ (s.seqs i).Waiting cfg := by
  obtain ⟨known, status⟩ := valid.mem_waiting.mp mem
  have phase := (valid.request i known).phase
  rw [Sequence.Phase, status] at phase
  exact ⟨known, status, phase⟩

theorem running (valid : Valid cfg ids kv computed held batch s) (mem : i ∈ s.running ++ held) :
    i ∈ ids ∧ (s.seqs i).status = .running ∧ (s.seqs i).Running cfg := by
  obtain ⟨known, status⟩ := valid.mem_running.mp mem
  have phase := (valid.request i known).phase
  rw [Sequence.Phase, status] at phase
  exact ⟨known, status, phase⟩

theorem restoring (valid : Valid cfg ids kv computed held batch s) {state : PendingRestoreState}
    (mem : state ∈ s.pendingRestores) :
    state.sequence ∈ ids ∧ (s.seqs state.sequence).status = .waitingForKv ∧
      (s.seqs state.sequence).Restoring cfg ∧ state.Valid cfg (s.seqs state.sequence) := by
  obtain ⟨known, status⟩ := valid.mem_pending.mp (List.mem_map_of_mem mem)
  have phase := (valid.request state.sequence known).phase
  rw [Sequence.Phase, status] at phase
  exact ⟨known, status, phase, valid.pending state mem⟩

theorem idle (valid : Valid cfg ids kv computed held batch s) (known : i ∈ ids)
    (absent : i ∉ batch) : (s.seqs i).numScheduledTokens = 0 := by
  by_contra scheduled
  exact absent ((valid.scheduled i).mpr ⟨known, Nat.pos_of_ne_zero scheduled⟩)

/-! ## Moving one request -/

/--
An operation which replaces one request and moves it to the queue of its new status keeps the
invariant if it does so for that request.
-/
theorem move (valid : Valid cfg ids kv computed held batch s) (known : i ∈ ids)
    (seqs : s'.seqs = Function.update s.seqs i seq)
    (memory : MemoryValid cfg ids s'.seqs s'.blockManager kv computed)
    (request : seq.WellFormed cfg i)
    (others : ∀ status j, j ≠ i → (j ∈ s'.queue held' status ↔ j ∈ s.queue held status))
    (own : ∀ status, status.Live → (i ∈ s'.queue held' status ↔ seq.status = status))
    (distinct : ∀ status, (s'.queue held' status).Nodup)
    (pending : ∀ state ∈ s'.pendingRestores,
      (state ∈ s.pendingRestores ∧ state.sequence ≠ i) ∨
        (state.sequence = i ∧ state.Valid cfg seq))
    (plans : PlansKept i seq s.blockManager s'.blockManager)
    (batch_distinct : batch'.Nodup)
    (batchOthers : ∀ j, j ≠ i → (j ∈ batch' ↔ j ∈ batch))
    (batchOwn : i ∈ batch' ↔ 0 < seq.numScheduledTokens) :
    Valid cfg ids kv computed held' batch' s' where
  memory := memory
  request j known' := by
    by_cases same : j = i
    · subst same
      rw [seqs, Function.update_self]
      exact request
    · rw [seqs, Function.update_of_ne same]
      exact valid.request j known'
  distinct := distinct
  queued status live j := by
    by_cases same : j = i
    · subst same
      rw [seqs, Function.update_self, own status live]
      exact ⟨fun eq => ⟨known, eq⟩, And.right⟩
    · rw [seqs, Function.update_of_ne same, others status j same]
      exact valid.queued status live j
  pending state mem := by
    rcases pending state mem with ⟨old, differ⟩ | ⟨same, own⟩
    · rw [seqs, Function.update_of_ne differ]
      exact valid.pending state old
    · rw [same, seqs, Function.update_self]
      exact own
  plans j planned := by
    by_cases same : j = i
    · subst same
      rw [seqs, Function.update_self]
      exact ⟨known, plans.plan planned⟩
    · rw [seqs, Function.update_of_ne same]
      exact valid.plans j (plans.plans j same planned)
  resumePlans j planned := by
    by_cases same : j = i
    · subst same
      rw [seqs, Function.update_self]
      exact ⟨known, plans.resumePlan planned⟩
    · rw [seqs, Function.update_of_ne same]
      exact valid.resumePlans j (plans.resumePlans j same planned)
  batch_distinct := batch_distinct
  scheduled j := by
    by_cases same : j = i
    · subst same
      rw [seqs, Function.update_self, batchOwn]
      exact ⟨fun positive => ⟨known, positive⟩, And.right⟩
    · rw [seqs, Function.update_of_ne same, batchOthers j same]
      exact valid.scheduled j

/-- An operation which replaces the memory of one request and keeps its status. -/
theorem put (valid : Valid cfg ids kv computed held batch s) (known : i ∈ ids)
    (memory : MemoryValid cfg ids (Function.update s.seqs i seq) bm' kv computed)
    (request : seq.WellFormed cfg i) (status : seq.status = (s.seqs i).status)
    (notRestoring : seq.status ≠ .waitingForKv)
    (plans : PlansKept i seq s.blockManager bm')
    (scheduled : 0 < seq.numScheduledTokens ↔ 0 < (s.seqs i).numScheduledTokens) :
    Valid cfg ids kv computed held batch (s.put i bm' seq) := by
  refine valid.move known rfl memory request (fun _ _ _ => Iff.rfl) (fun status' live => ?_)
    valid.distinct (fun state mem => .inl ⟨mem, ?_⟩) plans valid.batch_distinct
    (fun _ _ => Iff.rfl) ?_
  · rw [status]
    exact (valid.queued status' live i).trans (and_iff_right known)
  · rintro rfl
    exact notRestoring (status.trans (valid.restoring mem).2.1)
  · rw [scheduled, valid.scheduled]
    exact and_iff_right known

/-- An operation on the block manager alone. -/
theorem look (valid : Valid cfg ids kv computed held batch s)
    (same : SameMemory cfg s.blockManager bm')
    (plans : ∀ j, bm'.pendingMatches j ≠ none → s.blockManager.pendingMatches j ≠ none ∨
      (j ∈ s.waiting ∧ (s.seqs j).blockTable = []))
    (resumePlans : ∀ j, bm'.pendingResumeMatches j ≠ none →
      s.blockManager.pendingResumeMatches j ≠ none ∨ j ∈ s.waiting) :
    Valid cfg ids kv computed held batch { s with blockManager := bm' } where
  memory := valid.memory.sameMemory same
  request := valid.request
  distinct := valid.distinct
  queued := valid.queued
  pending := valid.pending
  plans j planned := by
    rcases plans j planned with old | ⟨mem, table⟩
    · exact valid.plans j old
    · obtain ⟨known, status, -⟩ := valid.waiting mem
      exact ⟨known, status, table⟩
  resumePlans j planned := by
    rcases resumePlans j planned with old | mem
    · exact valid.resumePlans j old
    · obtain ⟨known, status, -⟩ := valid.waiting mem
      exact ⟨known, by rw [status]; exact trivial⟩
  batch_distinct := valid.batch_distinct
  scheduled := valid.scheduled

/-- Taking requests out of the running queue, or putting them back. -/
theorem reorder (valid : Valid cfg ids kv computed held batch s)
    (running : (s'.running ++ held').Perm (s.running ++ held)) (seqs : s'.seqs = s.seqs)
    (waiting : s'.waiting = s.waiting) (pending : s'.pendingRestores = s.pendingRestores)
    (blockManager : s'.blockManager = s.blockManager) :
    Valid cfg ids kv computed held' batch s' := by
  have queues : ∀ status, (s'.queue held' status).Perm (s.queue held status) := fun status => by
    cases status with
    | running => exact running
    | waiting => exact .of_eq waiting
    | waitingForKv => exact .of_eq (congrArg _ pending)
    | finished => exact .nil
    | cancelled => exact .nil
  refine ⟨?_, ?_, fun status => (queues status).nodup_iff.mpr (valid.distinct status),
    fun status live i => ?_, ?_, ?_, ?_, valid.batch_distinct, ?_⟩
  · rw [seqs, blockManager]
    exact valid.memory
  · rw [seqs]
    exact valid.request
  · rw [(queues status).mem_iff, seqs]
    exact valid.queued status live i
  · rw [pending, seqs]
    exact valid.pending
  · rw [seqs, blockManager]
    exact valid.plans
  · rw [seqs, blockManager]
    exact valid.resumePlans
  · rw [seqs]
    exact valid.scheduled

/-- Replacing fields of a request which the invariant does not read. -/
theorem setSeq (valid : Valid cfg ids kv computed held batch s) (known : i ∈ ids)
    (same : (s.seqs i).SameKv seq) (request : seq.WellFormed cfg i)
    (status : seq.status = (s.seqs i).status) (notRestoring : seq.status ≠ .waitingForKv)
    (scheduled : 0 < seq.numScheduledTokens ↔ 0 < (s.seqs i).numScheduledTokens)
    (le : computed seq ≤ computed (s.seqs i)) :
    Valid cfg ids kv computed held batch (s.setSeq i seq) := by
  refine valid.put known (valid.memory.agree same le) request status notRestoring
    ⟨fun _ _ => id, fun _ _ => id, fun planned => ?_, fun planned => ?_⟩ scheduled
  · rw [status, same.blockTable]
    exact (valid.plans i planned).2
  · rw [status]
    exact (valid.resumePlans i planned).2

end Valid

/-! ## What scheduling leaves alone -/

/-- What `schedule()` leaves alone of a request. -/
structure SameRequest (seq seq' : Sequence) : Prop where
  seqId : seq'.seqId = seq.seqId
  tokenIds : seq'.tokenIds = seq.tokenIds
  numPromptTokens : seq'.numPromptTokens = seq.numPromptTokens
  maxTokens : seq'.maxTokens = seq.maxTokens
  ignoreEos : seq'.ignoreEos = seq.ignoreEos
  qos : seq'.qos = seq.qos
  arrivalTime : seq'.arrivalTime = seq.arrivalTime
  arrivalStep : seq'.arrivalStep = seq.arrivalStep
  firstTokenTime : seq'.firstTokenTime = seq.firstTokenTime
  live : seq'.status.Live ↔ seq.status.Live
  attempted : seq.remoteRestoreAttempted = true → seq'.remoteRestoreAttempted = true

theorem SameRequest.refl (seq : Sequence) : SameRequest seq seq :=
  ⟨rfl, rfl, rfl, rfl, rfl, rfl, rfl, rfl, rfl, Iff.rfl, id⟩

theorem SameRequest.trans {seq seq' seq'' : Sequence} (first : SameRequest seq seq')
    (second : SameRequest seq' seq'') : SameRequest seq seq'' :=
  ⟨second.seqId.trans first.seqId, second.tokenIds.trans first.tokenIds,
    second.numPromptTokens.trans first.numPromptTokens, second.maxTokens.trans first.maxTokens,
    second.ignoreEos.trans first.ignoreEos, second.qos.trans first.qos,
    second.arrivalTime.trans first.arrivalTime, second.arrivalStep.trans first.arrivalStep,
    second.firstTokenTime.trans first.firstTokenTime, second.live.trans first.live,
    second.attempted ∘ first.attempted⟩

/-- A request which scheduling has changed is well formed if its counters fit its status. -/
theorem SameRequest.wellFormed (wellFormed : seq.WellFormed cfg i) {seq' : Sequence}
    (same : SameRequest seq seq') (phase : seq'.Phase cfg) : seq'.WellFormed cfg i where
  named := same.seqId.trans wellFormed.named
  prompt := same.numPromptTokens ▸ wellFormed.prompt
  prompt_le := by
    rw [same.numPromptTokens, Sequence.numTokens, same.tokenIds]
    exact wellFormed.prompt_le
  arrived := same.arrivalTime ▸ wellFormed.arrived
  budget positive live := by
    rw [Sequence.numCompletionTokens, Sequence.numTokens, same.tokenIds, same.numPromptTokens,
      same.maxTokens]
    rw [Sequence.isTerminal_eq_false, same.live] at live
    exact wellFormed.budget (same.maxTokens ▸ positive) (Sequence.isTerminal_eq_false.mpr live)
  phase := phase

/--
What holds between the states before and after a part of `_schedule_once`: tokens and statuses
of ended requests stay, and restores only start for requests which never attempted one.
-/
structure Follows (s s' : Scheduler) : Prop where
  request : ∀ i, SameRequest (s.seqs i) (s'.seqs i)
  ended : ∀ i, ¬(s.seqs i).status.Live → s'.seqs i = s.seqs i
  restores : ∀ state ∈ s.pendingRestores, state ∈ s'.pendingRestores
  started : ∀ state ∈ s'.pendingRestores, state ∈ s.pendingRestores ∨
    ((s.seqs state.sequence).remoteRestoreAttempted = false ∧
      (s'.seqs state.sequence).remoteRestoreAttempted = true)
  stepId : s'.stepId = s.stepId
  estimator : s'.estimator = s.estimator

namespace Follows

theorem refl (s : Scheduler) : Follows s s :=
  ⟨fun _ => .refl _, fun _ _ => rfl, fun _ => id, fun _ => .inl, rfl, rfl⟩

theorem trans {s'' : Scheduler} (first : Follows s s') (second : Follows s' s'') :
    Follows s s'' where
  request i := (first.request i).trans (second.request i)
  ended i dead := by
    have same := first.ended i dead
    rw [second.ended i (same ▸ dead), same]
  restores state mem := second.restores state (first.restores state mem)
  started state mem := by
    rcases second.started state mem with old | ⟨fresh, attempted⟩
    · refine (first.started state old).imp_right ?_
      rintro ⟨fresh, attempted⟩
      exact ⟨fresh, (second.request _).attempted attempted⟩
    · refine .inr ⟨?_, attempted⟩
      by_contra before
      rw [Bool.not_eq_false] at before
      exact absurd ((first.request _).attempted before) (by simp [fresh])
  stepId := second.stepId.trans first.stepId
  estimator := second.estimator.trans first.estimator

/-- Replacing one live request, which may start a restore. -/
theorem of_start (seqs : s'.seqs = Function.update s.seqs i seq) (live : (s.seqs i).status.Live)
    (request : SameRequest (s.seqs i) seq)
    (restores : ∀ state ∈ s.pendingRestores, state ∈ s'.pendingRestores)
    (started : ∀ state ∈ s'.pendingRestores, state ∈ s.pendingRestores ∨
      ((s.seqs state.sequence).remoteRestoreAttempted = false ∧
        (s'.seqs state.sequence).remoteRestoreAttempted = true))
    (stepId : s'.stepId = s.stepId) (estimator : s'.estimator = s.estimator) : Follows s s' where
  request j := by
    by_cases same : j = i
    · subst same
      rw [seqs, Function.update_self]
      exact request
    · rw [seqs, Function.update_of_ne same]
      exact .refl _
  ended j dead := by
    rw [seqs, Function.update_of_ne]
    rintro rfl
    exact dead live
  restores := restores
  started := started
  stepId := stepId
  estimator := estimator

/-- Replacing one live request. -/
theorem of_update (seqs : s'.seqs = Function.update s.seqs i seq) (live : (s.seqs i).status.Live)
    (request : SameRequest (s.seqs i) seq) (pending : s'.pendingRestores = s.pendingRestores)
    (stepId : s'.stepId = s.stepId) (estimator : s'.estimator = s.estimator) : Follows s s' :=
  .of_start seqs live request (fun _ mem => pending ▸ mem) (fun _ mem => .inl (pending ▸ mem))
    stepId estimator

/-- Changing the queues, the block manager or the step. -/
theorem of_seqs (seqs : s'.seqs = s.seqs) (pending : s'.pendingRestores = s.pendingRestores)
    (stepId : s'.stepId = s.stepId) (estimator : s'.estimator = s.estimator) : Follows s s' where
  request _ := by
    rw [seqs]
    exact .refl _
  ended _ _ := by rw [seqs]
  restores _ := by rw [pending]; exact id
  started _ mem := .inl (pending ▸ mem)
  stepId := stepId
  estimator := estimator

end Follows

end Scheduler

end NanoVllm
