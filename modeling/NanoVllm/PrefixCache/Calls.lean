import NanoVllm.PrefixCache.Entries
import NanoVllm.Scheduler.Postprocess

/-!
# Runs of the block manager

Any sequence of calls of the block manager on any requests, without the scheduler which issues
them. The state records the paths which have been published, so that a lookup can be compared
with them. Callers owe the manager little: a plan they pass on is what a lookup would return,
the published tokens are computed, and only requests without gaps lose or regain a suffix.
-/

namespace NanoVllm

open BlockManager

/--
A call of the block manager on a request. Publishing comes with the model run before it, which
schedules tokens and counts them as cached afterwards, and a decoded token is a call of its own.
-/
inductive BlockOp where
  | canAllocate
  | allocate (numCachedBlocks : ℕ)
  | hashBlocks (numScheduledTokens : ℕ)
  | deallocate
  | reclaimSuffix (keepBlocks : ℕ)
  | canResume
  | resume
  | commitRestoredPrefix (numCachedBlocks : ℕ)
  | compressSinkRecent
  | compressQueryAware
  | appendToken (tokenId : Token) (now : ℚ)
  | mayAppend
  deriving DecidableEq

/-- A usable resume plan of a request: none, or the suffix of the longest match of its pages. -/
def ResumePlanCurrent (cfg : Config) (bm : BlockManager) (seq : Sequence) : Prop :=
  ∀ plan, bm.pendingResumeMatches seq.seqId = some plan →
    ∀ matched, Matches cfg bm seq matched → plan = resumeSuffix cfg seq matched

namespace BlockOp

/-- The manager and the request after a call. -/
def perform (cfg : Config) (bm : BlockManager) (seq : Sequence) :
    BlockOp → Py (BlockManager × Sequence)
  | .canAllocate => .ok ((bm.canAllocate cfg seq).1, seq)
  | .allocate numCachedBlocks => bm.allocate cfg seq numCachedBlocks
  | .hashBlocks numScheduledTokens => do
      let seq := { seq with numScheduledTokens := numScheduledTokens }
      let bm ← bm.hashBlocks cfg seq
      .ok (bm, seq.advanced false)
  | .deallocate => bm.deallocate seq
  | .reclaimSuffix keepBlocks => do
      let (bm, seq, _) ← bm.reclaimSuffix cfg seq keepBlocks
      .ok (bm, seq)
  | .canResume => do
      let (bm, _) ← bm.canResume cfg seq
      .ok (bm, seq)
  | .resume => do
      let (bm, seq, _) ← bm.resume cfg seq
      .ok (bm, seq)
  | .commitRestoredPrefix numCachedBlocks => bm.commitRestoredPrefix cfg seq numCachedBlocks
  | .compressSinkRecent => do
      let (bm, seq, _) ← bm.compressSinkRecent cfg seq
      .ok (bm, seq)
  | .compressQueryAware => do
      let (bm, seq, _) ← bm.compressQueryAware cfg seq
      .ok (bm, seq)
  | .appendToken tokenId now => .ok (bm, seq.appendToken tokenId now)
  | .mayAppend => bm.mayAppend cfg seq

/-- What a caller has made sure of. -/
def Called (cfg : Config) (bm : BlockManager) (seq : Sequence) : BlockOp → Prop
  | .allocate _ => PlanCurrent cfg bm seq
  | .hashBlocks numScheduledTokens =>
      seq.numCachedTokens + numScheduledTokens ≤ seq.numTokens ∧
        (seq.kvCompressed = false →
          seq.numCachedTokens + numScheduledTokens ≤ seq.blockTable.length * cfg.blockSize)
  | .reclaimSuffix _ => seq.kvCompressed = false
  | .resume => seq.kvCompressed = false ∧ ResumePlanCurrent cfg bm seq
  | .commitRestoredPrefix _ => seq.kvCompressed = false ∧ cfg.blockSize ∣ seq.numCachedTokens
  | .appendToken .. => seq.numCachedTokens = seq.numTokens
  | .mayAppend => startsPage cfg seq = true →
      seq.numCachedTokens + 1 = seq.numTokens ∧
        ∀ logical ∈ seq.kvBlockLogicalIndices, logical < seq.numBlocks cfg - 1
  | _ => True

/-- The paths a call publishes. -/
def publishes (cfg : Config) (seq : Sequence) : BlockOp → List (List BlockKey)
  | .hashBlocks numScheduledTokens =>
      if seq.kvCompressed then []
      else pathsBetween cfg seq (seq.numCachedTokens / cfg.blockSize)
        ((seq.numCachedTokens + numScheduledTokens) / cfg.blockSize)
  | .commitRestoredPrefix numCachedBlocks =>
      pathsBetween cfg seq (seq.numCachedTokens / cfg.blockSize) numCachedBlocks
  | _ => []

/-- The pages a call has allocated anew, read off the request before and after. -/
def freshPages (cfg : Config) (seq seq' : Sequence) : BlockOp → List BlockId
  | .allocate numCachedBlocks => seq'.blockTable.drop numCachedBlocks
  | .resume =>
      seq'.blockTable.drop
        (max seq.blockTable.length (seq'.numCachedTokens / cfg.blockSize))
  | .mayAppend => seq'.blockTable.drop seq.blockTable.length
  | _ => []

end BlockOp

/-- A block manager, the requests it serves, and the paths published so far. -/
structure ManagedRequests where
  blockManager : BlockManager
  seqs : SeqId → Sequence
  published : List (List BlockKey)

namespace ManagedRequests

/-- A new block manager. -/
def start (cfg : Config) (seqs : SeqId → Sequence) : ManagedRequests where
  blockManager := .init cfg
  seqs := seqs
  published := []

/-- A call on one request. -/
def call (cfg : Config) (s : ManagedRequests) (i : SeqId) (op : BlockOp) : Py ManagedRequests := do
  let (bm, seq) ← op.perform cfg s.blockManager (s.seqs i)
  .ok { blockManager := bm
        seqs := Function.update s.seqs i seq
        published := s.published ++ op.publishes cfg (s.seqs i) }

/-- A call which returns and reallocates no page of a cached prefix. -/
structure Step (cfg : Config) (s : ManagedRequests) (i : SeqId) (op : BlockOp)
    (s' : ManagedRequests) : Prop where
  called : op.Called cfg s.blockManager (s.seqs i)
  returned : s.call cfg i op = .ok s'
  keepsCached : ∀ blockId ∈ op.freshPages cfg (s.seqs i) (s'.seqs i),
    s.blockManager.Unindexed cfg blockId

end ManagedRequests

/-- A request which owns no pages. -/
structure Sequence.Unserved (seq : Sequence) : Prop where
  blockTable : seq.blockTable = []
  kvBlockLogicalIndices : seq.kvBlockLogicalIndices = []
  numCachedTokens : seq.numCachedTokens = 0
  kvCompressed : seq.kvCompressed = false

/-- The calls on some requests which reallocate no cached page, and the state they lead to. -/
inductive ManagedRequests.Run (cfg : Config) (ids : Finset SeqId) (seqs : SeqId → Sequence) :
    List (SeqId × BlockOp) → ManagedRequests → Prop
  | start (unserved : ∀ i ∈ ids, (seqs i).Unserved) :
      Run cfg ids seqs [] (ManagedRequests.start cfg seqs)
  | step {calls : List (SeqId × BlockOp)} {s s' : ManagedRequests} {i : SeqId} {op : BlockOp}
      (run : Run cfg ids seqs calls s) (known : i ∈ ids) (step : s.Step cfg i op s') :
      Run cfg ids seqs (calls ++ [(i, op)]) s'

/-! ## The invariant -/

/-- What holds of a request between calls. -/
structure Sequence.Ready (cfg : Config) (seq : Sequence) : Prop where
  inRange : seq.numCachedTokens ≤ seq.numTokens
  idle : seq.blockTable = [] → seq.kvCompressed = false
  owned : seq.kvCompressed = false → seq.blockTable.length ≤ seq.numBlocks cfg
  covered : seq.kvCompressed = false →
    seq.numCachedTokens ≤ seq.blockTable.length * cfg.blockSize
  complete : seq.kvCompressed = false → seq.blockTable.length < seq.numBlocks cfg →
    seq.numCachedTokens = seq.blockTable.length * cfg.blockSize

/-- The paths of the complete cached pages of a request. -/
def Sequence.cachedPaths (cfg : Config) (seq : Sequence) : List (List BlockKey) :=
  pathsBetween cfg seq 0 (seq.numCachedTokens / cfg.blockSize)

/--
The invariant of a run: the memory invariant for some content of the pages, an index which knows
the published paths and no others, and the published pages of every uncompressed request.
-/
structure ManagedRequests.Valid (cfg : Config) (ids : Finset SeqId) (s : ManagedRequests) :
    Prop where
  memory : ∃ kv, MemoryValid cfg ids s.seqs s.blockManager kv Sequence.numCachedTokens
  ready : ∀ i ∈ ids, (s.seqs i).Ready cfg
  indexed : ∀ path, s.blockManager.entry cfg path ≠ none ↔ path ∈ s.published
  chained : ∀ i ∈ ids, (s.seqs i).kvCompressed = false →
    ∀ path ∈ (s.seqs i).cachedPaths cfg, path ∈ s.published

variable {cfg : Config} {ids : Finset SeqId} {seqs : SeqId → Sequence} {s s' : ManagedRequests}
  {bm bm' : BlockManager} {i : SeqId} {seq : Sequence} {op : BlockOp}

/-- What a call on a request guarantees. -/
structure BlockOp.Keeps (cfg : Config) (ids : Finset SeqId) (s : ManagedRequests) (i : SeqId)
    (op : BlockOp) (bm' : BlockManager) (seq' : Sequence) : Prop where
  memory : ∃ kv, MemoryValid cfg ids (Function.update s.seqs i seq') bm' kv
    Sequence.numCachedTokens
  ready : seq'.Ready cfg
  indexed : ∀ path, bm'.entry cfg path ≠ none ↔
    s.blockManager.entry cfg path ≠ none ∨ path ∈ op.publishes cfg (s.seqs i)
  chained : seq'.kvCompressed = false → ∀ path ∈ seq'.cachedPaths cfg,
    bm'.entry cfg path ≠ none

@[simp] theorem BlockManager.entry_init (path : List BlockKey) :
    (BlockManager.init cfg).entry cfg path = none := by
  cases backend : cfg.prefixCacheBackend with
  | hash => simp [entry_hash backend, BlockManager.init]
  | radix => simp [entry_radix backend, BlockManager.init, RadixPrefixCache.find,
      RadixPrefixCache.empty]

theorem Sequence.Ready.unserved (unserved : seq.Unserved) : seq.Ready cfg where
  inRange := by simp [unserved.numCachedTokens]
  idle _ := unserved.kvCompressed
  owned _ := by simp [unserved.blockTable]
  covered _ := by simp [unserved.numCachedTokens]
  complete _ _ := by simp [unserved.numCachedTokens, unserved.blockTable]

namespace ManagedRequests.Valid

theorem start (unserved : ∀ i ∈ ids, (seqs i).Unserved) :
    (ManagedRequests.start cfg seqs).Valid cfg ids where
  memory := by
    have unreferenced : tableRefs ids seqs = fun _ => 0 := by
      funext blockId
      apply Finset.sum_eq_zero
      intro i known
      simp [(unserved i known).blockTable]
    refine ⟨fun _ => none, ?_, .init, ?_, ?_⟩
    · simpa [ManagedRequests.start, unreferenced] using PoolValid.init cfg
    · intro path blockId found
      simp [ManagedRequests.start] at found
    · intro i known
      exact .of_empty (unserved i known).blockTable (unserved i known).kvBlockLogicalIndices
  ready i known := .unserved (unserved i known)
  indexed path := by simp [ManagedRequests.start]
  chained i known _ path mem := by
    simp [ManagedRequests.start, Sequence.cachedPaths, pathsBetween,
      (unserved i known).numCachedTokens] at mem

/-- A call which keeps its guarantees keeps the invariant. -/
theorem update (valid : s.Valid cfg ids) (known : i ∈ ids)
    (keeps : op.Keeps cfg ids s i bm' seq) :
    ManagedRequests.Valid cfg ids
      { blockManager := bm'
        seqs := Function.update s.seqs i seq
        published := s.published ++ op.publishes cfg (s.seqs i) } where
  memory := keeps.memory
  ready j known' := by
    by_cases same : j = i
    · subst same
      simpa using keeps.ready
    · simpa [same] using valid.ready j known'
  indexed path := by
    simp only [keeps.indexed, valid.indexed, List.mem_append]
  chained j known' := by
    by_cases same : j = i
    · subst same
      intro uncompressed path mem
      simp only [Function.update_self] at uncompressed mem
      have indexed := (keeps.indexed path).mp (keeps.chained uncompressed path mem)
      simpa [valid.indexed] using indexed
    · intro uncompressed path mem
      simp only [Function.update_of_ne same] at uncompressed mem
      exact List.mem_append_left _ (valid.chained j known' uncompressed path mem)

end ManagedRequests.Valid

end NanoVllm
