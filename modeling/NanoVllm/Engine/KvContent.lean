import NanoVllm.Engine.Phases
import NanoVllm.Engine.Writebacks

/-!
# The content of the KV cache

Wherever a run stops, the cached positions of an uncompressed request hold the KV of its own tokens,
the pages which a prefix lookup can find hold the KV of their path, and so do the pages which are
exported under the key of a prefix.
-/

namespace NanoVllm

open BlockManager StorageBackend

variable {cfg : Config} {ids : Finset SeqId} {kv : KvStore} {held batch known : List SeqId}
  {s : Scheduler} {i : SeqId}

/-- A slot holds the exact KV of the last of some tokens. -/
def KvStore.Holds (kv : KvStore) (slot : ℕ) (tokens : List Token) : Prop :=
  kv slot = some { prefixTokens := tokens, taint := none }

/-! ## Cached positions -/

/-- A computed position in a table without gaps has its KV in the page there. -/
theorem SeqMemory.holds {bm : BlockManager} {refs : BlockId → ℕ} {n position : ℕ} {seq : Sequence}
    (memory : SeqMemory cfg bm kv refs n seq) (uncompressed : seq.kvCompressed = false)
    (inside : position < seq.blockTable.length * cfg.blockSize) (computed : position < n) :
    ∃ blockId, seq.blockTable[position / cfg.blockSize]? = some blockId ∧
      kv.Holds (blockId * cfg.blockSize + position % cfg.blockSize)
        (seq.tokenIds.take (position + 1)) := by
  have short := (Nat.div_lt_iff_lt_mul cfg.blockSize_pos).mpr inside
  have entry := List.getElem?_eq_getElem short
  have mem := (memory.mem_pages_iff uncompressed).mpr entry
  have whole : position / cfg.blockSize * cfg.blockSize + position % cfg.blockSize = position := by
    rw [Nat.mul_comm]
    exact Nat.div_add_mod _ _
  rcases memory.content _ _ _ mem (Nat.mod_lt position cfg.blockSize_pos)
    (whole.symm ▸ computed) with ⟨taint, slot, exact | ⟨compressed, -⟩⟩
  · refine ⟨_, entry, ?_⟩
    rw [KvStore.Holds, slot, exact, whole]
  · rw [uncompressed] at compressed
    cases compressed

namespace Scheduler

/-- The table of an uncompressed request covers its cached tokens. -/
theorem Valid.covers (valid : Valid cfg ids kv Sequence.numCachedTokens held batch s)
    (inIds : i ∈ ids) (uncompressed : (s.seqs i).kvCompressed = false) :
    (s.seqs i).numCachedTokens ≤ (s.seqs i).blockTable.length * cfg.blockSize := by
  have memory := valid.memory.request i inIds
  have phase := (valid.request i inIds).phase
  unfold Sequence.Phase at phase
  split at phase
  · rcases Nat.lt_or_ge (s.seqs i).blockTable.length ((s.seqs i).numBlocks cfg) with short | full
    · exact (phase.retained short).1.le
    · have cached : (s.seqs i).numCachedTokens ≤ (s.seqs i).numTokens :=
        (Nat.le_add_right _ _).trans phase.short.le
      exact (cached.trans (Sequence.numTokens_le cfg _)).trans (Nat.mul_le_mul_right _ full)
  · next status =>
    rcases List.mem_map.mp (valid.mem_pending.mpr ⟨inIds, status⟩) with ⟨state, mem, rfl⟩
    have pending := valid.pending state mem
    rw [pending.aligned, phase.full]
    exact Nat.mul_le_mul_right _ (pending.extendsLocal.trans pending.tail).le
  · exact (Nat.le_add_right _ _).trans (phase.owned memory uncompressed)
  · simp [phase.uncached]
  · simp [phase.uncached]

/-- A cached position of an uncompressed request lies in a page of its table. -/
theorem Valid.cachedPage (valid : Valid cfg ids kv Sequence.numCachedTokens held batch s)
    (inIds : i ∈ ids) (uncompressed : (s.seqs i).kvCompressed = false) {position : ℕ}
    (cached : position < (s.seqs i).numCachedTokens) :
    ∃ blockId, (s.seqs i).blockTable[position / cfg.blockSize]? = some blockId ∧
      kv.Holds (blockId * cfg.blockSize + position % cfg.blockSize)
        ((s.seqs i).tokenIds.take (position + 1)) :=
  (valid.memory.request i inIds).holds uncompressed
    (cached.trans_le (valid.covers inIds uncompressed)) cached

/-- What the slots of a memory hold. -/
structure KvSound (cfg : Config) (known : List SeqId) (kv : KvStore) (s : Scheduler) : Prop where
  request : ∀ i ∈ known, (s.seqs i).status.Live → (s.seqs i).kvCompressed = false →
    ∀ position < (s.seqs i).numCachedTokens,
      ∃ blockId, (s.seqs i).blockTable[position / cfg.blockSize]? = some blockId ∧
        kv.Holds (blockId * cfg.blockSize + position % cfg.blockSize)
          ((s.seqs i).tokenIds.take (position + 1))
  index : ∀ path blockId, s.blockManager.entry cfg path = some blockId →
    PageHolds cfg kv blockId path

theorem Valid.kvSound
    (valid : Valid cfg known.toFinset kv Sequence.numCachedTokens held batch s) :
    KvSound cfg known kv s where
  request _ mem _ uncompressed _ cached :=
    valid.cachedPage (List.mem_toFinset.mpr mem) uncompressed cached
  index path blockId found := (valid.memory.cached path blockId found).2

end Scheduler

/-! ## Exported pages -/

/-- An exported page holds the KV of the prefix its key is made of. -/
def WritebackEnv.ExportSound (env : WritebackEnv) (cfg : Config) (kv : KvStore)
    (writeback : Writeback) : Prop :=
  ∀ index blockId, (index, blockId) ∈ writeback.pages →
    ∃ descriptor tokens, writeback.descriptors[index]? = some descriptor ∧
      makeKvPageKey env.blake2b env.kvCacheIdentity 0 index tokens = .ok descriptor.objectKey ∧
      tokens.length = (index + 1) * cfg.blockSize ∧
      (∀ tokens', makeKvPageKey env.blake2b env.kvCacheIdentity 0 index tokens' =
        .ok descriptor.objectKey → tokens' = tokens) ∧
      ∀ offset < cfg.blockSize, kv.Holds (blockId * cfg.blockSize + offset)
        (tokens.take (index * cfg.blockSize + offset + 1))

theorem PageHolds.holds {blockId : BlockId} {index : ℕ} {seq : Sequence}
    (page : PageHolds cfg kv blockId (seq.blockKeys cfg (index + 1))) {offset : ℕ}
    (inPage : offset < cfg.blockSize) :
    kv.Holds (blockId * cfg.blockSize + offset)
      ((seq.tokenIds.take ((index + 1) * cfg.blockSize)).take
        (index * cfg.blockSize + offset + 1)) := by
  have slot := page.slots offset inPage
  rwa [Sequence.blockKeys_eq, Paging.length_pages, Nat.add_sub_cancel, Paging.flatten_pages]
    at slot

namespace WritebackEnv

variable {env : WritebackEnv}

theorem Exports.sound {seq : Sequence} {refs : BlockId → ℕ} {bm : BlockManager}
    {writeback : Writeback} (exports : Exports env cfg seq writeback)
    (memory : SeqMemory cfg bm kv refs seq.computedTokens seq)
    (inRange : seq.computedTokens ≤ seq.numTokens) : env.ExportSound cfg kv writeback := by
  intro index blockId mem
  rcases exports.page index blockId mem with ⟨complete, entry, descriptor, get, made⟩
  have page := memory.pageHolds exports.uncompressed entry complete inRange
  refine ⟨descriptor, _, get, made, ?_, ?_, ?_⟩
  · rw [List.length_take]
    exact min_eq_left (complete.trans inRange)
  · intro tokens' made'
    exact ((makeKvPageKey_eq_iff made' made).mp rfl).2.2.2
  · intro offset inPage
    exact page.holds inPage

end WritebackEnv

namespace System

variable {sys : System}

/-- The memory after the run of the batch in flight. -/
theorem Valid.ran (valid : sys.Valid cfg) {inFlight : InFlight}
    (flying : sys.inFlight = some inFlight) :
    ∃ ran, sys.run cfg inFlight = .ok ran ∧ ran.scheduler = sys.scheduler ∧
      ran.known = sys.known ∧ ran.scheduler.Valid cfg sys.known.toFinset ran.kv
        Sequence.computedTokens [] inFlight.seqs := by
  have scheduler := valid.scheduler
  rw [batch_of_some flying] at scheduler
  rcases scheduler.run (valid.ready inFlight flying) with ⟨writes, written, -, ran⟩
  refine ⟨{ sys with kv := sys.kv.write writes }, ?_, rfl, rfl, ran⟩
  rw [run, written]
  rfl

end System

namespace Scheduler

/-- Fewer tokens may be claimed as computed. -/
theorem Valid.cachedOnly (valid : Valid cfg ids kv Sequence.computedTokens held batch s) :
    Valid cfg ids kv Sequence.numCachedTokens held batch s :=
  { valid with memory := valid.memory.mono fun _ _ => Nat.le_add_right _ _ }

/-- After the run of a batch its completed pages hold the KV of the keys they are exported under. -/
theorem Valid.exportSound {env : WritebackEnv}
    (valid : Valid cfg ids kv Sequence.computedTokens held batch s)
    (service : RemoteRestore.Service) :
    ∃ service' writebacks, env.enqueueRemoteWritebacks cfg service (batch.map s.seqs) =
        .ok (service', writebacks) ∧ ∀ writeback ∈ writebacks, env.ExportSound cfg kv writeback := by
  rcases WritebackEnv.enqueueRemoteWritebacks_exports env service (batch.map s.seqs) with
    ⟨service', writebacks, enqueued, exports⟩
  refine ⟨service', writebacks, enqueued, fun writeback mem => ?_⟩
  rcases exports writeback mem with ⟨seq, scheduled, exported⟩
  rcases List.mem_map.mp scheduled with ⟨i, mem, rfl⟩
  have known := ((valid.scheduled i).mp mem).1
  exact exported.sound (valid.memory.request i known) (valid.computed_le mem).1

end Scheduler

namespace System

open Scheduler

variable {sys : System}

/--
In every state which a run passes, and after the run of a batch, cached positions and indexed pages
hold the KV they stand for; so does every page which is exported after the run.
-/
theorem kv_sound (reachable : Reachable cfg sys) :
    (∀ s, Passes cfg sys s → KvSound cfg sys.known sys.kv s) ∧
    ∀ inFlight, sys.inFlight = some inFlight →
      ∃ ran, sys.run cfg inFlight = .ok ran ∧ KvSound cfg ran.known ran.kv ran.scheduler ∧
        ∀ (env : WritebackEnv) service, ∃ service' writebacks,
          env.enqueueRemoteWritebacks cfg service (inFlight.seqs.map ran.scheduler.seqs) =
            .ok (service', writebacks) ∧
          ∀ writeback ∈ writebacks, env.ExportSound cfg ran.kv writeback := by
  constructor
  · intro s passes
    rcases passes.valid reachable.valid with ⟨held, batch, valid⟩
    exact valid.kvSound
  · intro inFlight flying
    rcases reachable.valid.ran flying with ⟨ran, returned, -, known, valid⟩
    refine ⟨ran, returned, ?_, fun env service => valid.exportSound service⟩
    rw [known]
    exact valid.cachedOnly.kvSound

/-- A prompt of three tokens, and the first generated one. -/
def firstTokenRun : System :=
  oneChunkRun.runOps (defaultConfig 2 2 2 two_le_two) [.postprocess [7] 0 0]

/-- The last prompt token is the first one of the second page. -/
theorem kv_sound_firstToken : firstTokenRun.kv.Holds 2 [1, 1, 1] := by
  have reachable : Reachable (defaultConfig 2 2 2 (by decide)) firstTokenRun :=
    ReachableBy.runOps (ReachableBy.runOps .init (by decide +kernel)) (by decide +kernel)
  have known : 0 ∈ firstTokenRun.known := by decide +kernel
  have status : (firstTokenRun.scheduler.seqs 0).status = .running := by decide +kernel
  have uncompressed : (firstTokenRun.scheduler.seqs 0).kvCompressed = false := by decide +kernel
  have cached : 2 < (firstTokenRun.scheduler.seqs 0).numCachedTokens := by decide +kernel
  have table : (firstTokenRun.scheduler.seqs 0).blockTable = [0, 1] := by decide +kernel
  have tokens : (firstTokenRun.scheduler.seqs 0).tokenIds = [1, 1, 1, 7] := by decide +kernel
  have sound := (kv_sound reachable).1 _ .between
  rcases sound.request 0 known (status ▸ trivial) uncompressed 2 cached with ⟨blockId, entry, holds⟩
  rw [table] at entry
  cases entry
  rw [tokens] at holds
  exact holds

end System

end NanoVllm
