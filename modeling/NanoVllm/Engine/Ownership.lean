import NanoVllm.Engine.Runs
import NanoVllm.Scheduler.Residents

/-!
# Page ownership

Between two operations the free list and the used pages divide the memory, and the reference count
of a page is the number of its occurrences in the tables of the requests in the queues. Requests
outside of the queues own no page, so a finished scheduler has all its pages back.
-/

namespace NanoVllm

namespace Scheduler

variable {cfg : Config} {ids : Finset SeqId} {kv : KvStore} {computed : Sequence → ℕ}
  {held batch : List SeqId} {s : Scheduler} {i : SeqId}

/-- The requests in the three queues. -/
def requests (s : Scheduler) : List SeqId :=
  s.waiting ++ s.running ++ s.pendingRestores.map PendingRestoreState.sequence

theorem Valid.mem_requests (valid : Valid cfg ids kv computed [] batch s) :
    i ∈ s.requests ↔ i ∈ ids ∧ (s.seqs i).status.Live := by
  have waiting := @Valid.mem_waiting cfg ids kv computed [] batch s i valid
  have running := @Valid.mem_running cfg ids kv computed [] batch s i valid
  have pending := @Valid.mem_pending cfg ids kv computed [] batch s i valid
  rw [List.append_nil] at running
  rw [requests, List.mem_append, List.mem_append, waiting, running, pending]
  cases (s.seqs i).status <;> simp [SequenceStatus.Live]

theorem Valid.requests_nodup (valid : Valid cfg ids kv computed [] batch s) : s.requests.Nodup := by
  have running := valid.distinct .running
  change (s.running ++ []).Nodup at running
  rw [List.append_nil] at running
  have apart : ∀ {status status' : SequenceStatus}, status.Live → status'.Live →
      status ≠ status' → ∀ i ∈ s.queue [] status, ∀ j ∈ s.queue [] status', i ≠ j := by
    rintro status status' live live' differ i mem _ mem' rfl
    apply differ
    rw [← ((valid.queued status live i).mp mem).2, ((valid.queued status' live' i).mp mem').2]
  rw [requests, List.nodup_append, List.nodup_append]
  refine ⟨⟨valid.distinct .waiting, running, ?_⟩, valid.distinct .waitingForKv, ?_⟩
  · intro i waits j runs
    have runs' : j ∈ s.queue [] .running := List.mem_append_left _ runs
    exact @apart .waiting .running trivial trivial nofun i waits j runs'
  · intro i mem j pending
    rcases List.mem_append.mp mem with waits | runs
    · exact @apart .waiting .waitingForKv trivial trivial nofun i waits j pending
    · have runs' : i ∈ s.queue [] .running := List.mem_append_left _ runs
      exact @apart .running .waitingForKv trivial trivial nofun i runs' j pending

/-- Terminal requests own no page. -/
theorem Valid.released (valid : Valid cfg ids kv computed held batch s) (known : i ∈ ids)
    (ended : ¬(s.seqs i).status.Live) : (s.seqs i).blockTable = [] := by
  have phase := (valid.request i known).phase
  unfold Sequence.Phase at phase
  unfold SequenceStatus.Live at ended
  split at phase
  · next status => simp [status] at ended
  · next status => simp [status] at ended
  · next status => simp [status] at ended
  · exact phase.table
  · exact phase.table

/-- How the pages of the memory are distributed. -/
structure PagesOwned (cfg : Config) (known : List SeqId) (s : Scheduler) : Prop where
  freeDistinct : s.blockManager.freeBlockIds.Nodup
  disjoint : ∀ b ∈ s.blockManager.freeBlockIds, b ∉ s.blockManager.usedBlockIds
  all : ∀ b, b < cfg.numBlocks ↔
    b ∈ s.blockManager.freeBlockIds ∨ b ∈ s.blockManager.usedBlockIds
  refCount : ∀ b, (s.blockManager.blocks b).refCount =
    (s.requests.flatMap fun i => (s.seqs i).blockTable).count b
  used : ∀ b, b ∈ s.blockManager.usedBlockIds ↔ 0 < (s.blockManager.blocks b).refCount
  tableDistinct : ∀ i ∈ known, (s.seqs i).blockTable.Nodup
  released : ∀ i ∈ known, (s.seqs i).status = .finished ∨ (s.seqs i).status = .cancelled →
    (s.seqs i).blockTable = []
  finished : s.isFinished = true → ∀ b < cfg.numBlocks, b ∈ s.blockManager.freeBlockIds

theorem Valid.tableRefs_eq (valid : Valid cfg ids kv computed [] batch s) (b : BlockId) :
    tableRefs ids s.seqs b = (s.requests.flatMap fun i => (s.seqs i).blockTable).count b := by
  apply References.count_eq_flatMap valid.requests_nodup
  · intro i mem
    exact (valid.mem_requests.mp mem).1
  · intro i known absent
    apply valid.released known
    intro live
    exact absent (valid.mem_requests.mpr ⟨known, live⟩)

end Scheduler

namespace System

open Scheduler

variable {cfg : Config} {sys : System}

/-- In every reachable state each page is free, or it is used by the requests which own it. -/
theorem pages_owned (reachable : Reachable cfg sys) : PagesOwned cfg sys.known sys.scheduler := by
  have valid := reachable.valid.scheduler
  have pool := valid.memory.pool
  have refCount : ∀ b, (sys.scheduler.blockManager.blocks b).refCount =
      (sys.scheduler.requests.flatMap fun i => (sys.scheduler.seqs i).blockTable).count b :=
    fun b => (pool.refCount b).trans (congrArg Nat.cast (valid.tableRefs_eq b))
  constructor
  · exact pool.freeNodup
  · intro b free used
    have unused := ((pool.mem_free b).mp free).2
    exact absurd unused ((pool.mem_used b).mp used).ne'
  · intro b
    rw [pool.mem_free, pool.mem_used]
    constructor
    · intro inside
      rcases Nat.eq_zero_or_pos (tableRefs sys.known.toFinset sys.scheduler.seqs b) with free | used
      · exact .inl ⟨inside, free⟩
      · exact .inr used
    · rintro (⟨inside, -⟩ | used)
      · exact inside
      · exact pool.lt_numBlocks b used
  · exact refCount
  · intro b
    rw [pool.mem_used, pool.refCount, Nat.cast_pos]
  · intro i known
    exact (valid.memory.request i (List.mem_toFinset.mpr known)).distinct
  · intro i known ended
    apply valid.released (List.mem_toFinset.mpr known)
    rcases ended with finished | cancelled
    · rw [finished]
      exact id
    · rw [cancelled]
      exact id
  · intro finished b inside
    rw [pool.mem_free, valid.tableRefs_eq]
    refine ⟨inside, ?_⟩
    have empty : sys.scheduler.requests = [] := by
      simpa [isFinished, requests, and_assoc] using finished
    rw [empty]
    rfl

/-- A request of three tokens which finishes with its first token. -/
def oneTokenRun : System := (init (defaultConfig 2 2 2 two_le_two)).runOps
  (defaultConfig 2 2 2 two_le_two)
  [.add (plainRequest 0 3 1) 0, .schedule (idleEnv _), .postprocess [1] 0 0]

/-- The finished request has given its two pages back. -/
theorem pages_owned_oneToken : oneTokenRun.scheduler.isFinished = true ∧
    ∀ b < 2, b ∈ oneTokenRun.scheduler.blockManager.freeBlockIds := by
  have reachable : Reachable (defaultConfig 2 2 2 (by decide)) oneTokenRun :=
    ReachableBy.runOps .init (by decide +kernel)
  have finished : oneTokenRun.scheduler.isFinished = true := by decide +kernel
  exact ⟨finished, (pages_owned reachable).finished finished⟩

end System

end NanoVllm
