import NanoVllm.Engine.Phases
import NanoVllm.Library.Retained

/-!
# Tables after compressions

Compressions remove pages from the middle of a block table, decode steps append pages, and a
preempted request starts again with a table without gaps. Through all of this the table, the
logical indices and the two token counts of a running request stay in step, and the attention
of a decode step covers the retained tokens and the current one.
-/

namespace NanoVllm

open Paging

namespace Sequence

variable {cfg : Config} {seq : Sequence}

/-- `ceil(num_cached_tokens / block_size)`, the pages of the cached tokens. -/
def cachedPages (cfg : Config) (seq : Sequence) : ℕ :=
  (seq.numCachedTokens + cfg.blockSize - 1) / cfg.blockSize

/-- The table of an idle running request. -/
structure Aligned (cfg : Config) (seq : Sequence) : Prop where
  sameLength : seq.kvBlockLogicalIndices.length = seq.blockTable.length
  length : seq.blockTable.length =
    (seq.numPhysicalCachedTokens + cfg.blockSize - 1) / cfg.blockSize
  increasing : seq.kvBlockLogicalIndices.Pairwise (· < ·)
  last : seq.kvBlockLogicalIndices.getLast? = some (seq.cachedPages cfg - 1)
  dropped : seq.numCachedTokens = seq.numPhysicalCachedTokens +
    cfg.blockSize * absentPages (seq.cachedPages cfg) seq.kvBlockLogicalIndices

/-- The token position at a physical offset of the block table. -/
def tokenPosition (cfg : Config) (seq : Sequence) (offset : ℕ) : ℕ :=
  position cfg.blockSize seq.kvBlockLogicalIndices offset

/-- The last position in attention is the current token, whose slot the decode step writes. -/
structure DecodeAligned (cfg : Config) (seq : Sequence) : Prop where
  slot : ∃ blockId,
    seq.blockTable[(seq.attentionContextTokens - 1) / cfg.blockSize]? = some blockId ∧
      ModelRunner.decodeSlot cfg seq =
        .ok (blockId * cfg.blockSize + (seq.attentionContextTokens - 1) % cfg.blockSize)
  current : seq.tokenPosition cfg (seq.attentionContextTokens - 1) = seq.numTokens - 1
  covers : (List.range seq.attentionContextTokens).map (seq.tokenPosition cfg) =
    (List.range seq.numTokens).filter fun position =>
      position / cfg.blockSize ∈ seq.kvBlockLogicalIndices

theorem cachedPages_eq (cached : 0 < seq.numCachedTokens) :
    seq.cachedPages cfg = (seq.numCachedTokens - 1) / cfg.blockSize + 1 := by
  rw [cachedPages, show seq.numCachedTokens + cfg.blockSize - 1 =
    seq.numCachedTokens - 1 + cfg.blockSize by omega, Nat.add_div_right _ cfg.blockSize_pos]

/-- The physical tokens fill all pages of the table but the last. -/
theorem Running.physical_eq (running : seq.Running cfg)
    (sameLength : seq.kvBlockLogicalIndices.length = seq.blockTable.length) :
    0 < seq.blockTable.length ∧
      seq.numPhysicalCachedTokens +
          ((seq.computedTokens - 1) / cfg.blockSize) * cfg.blockSize =
        seq.numCachedTokens + (seq.blockTable.length - 1) * cfg.blockSize := by
  have nonempty : 0 < seq.blockTable.length := by
    rw [← sameLength]
    apply List.length_pos_iff.mpr
    intro empty
    have last := running.last
    simp [empty] at last
  refine ⟨nonempty, ?_⟩
  have physical := running.physical
  rw [Nat.add_mul, Nat.one_mul] at physical
  have length : seq.blockTable.length * cfg.blockSize =
      (seq.blockTable.length - 1) * cfg.blockSize + cfg.blockSize := by
    rw [← Nat.succ_mul, Nat.succ_eq_add_one, Nat.sub_add_cancel nonempty]
  omega

theorem Running.aligned {bm : BlockManager} {kv : KvStore} {refs : BlockId → ℕ} {n : ℕ}
    (running : seq.Running cfg) (memory : SeqMemory cfg bm kv refs n seq)
    (idle : seq.numScheduledTokens = 0) : seq.Aligned cfg := by
  have size := cfg.blockSize_pos
  have computed : seq.computedTokens = seq.numCachedTokens := by
    rw [computedTokens, idle, Nat.add_zero]
  have cached := running.nonempty
  have last := running.last
  rcases running.physical_eq memory.sameLength with ⟨nonempty, physical⟩
  rw [computed] at cached last physical
  have pages := @cachedPages_eq cfg _ cached
  have split := Nat.div_add_mod' (seq.numCachedTokens - 1) cfg.blockSize
  have inside := Nat.mod_lt (seq.numCachedTokens - 1) size
  have last' : seq.kvBlockLogicalIndices.getLast? = some (seq.cachedPages cfg - 1) := by
    rw [pages, Nat.add_sub_cancel]
    exact last
  refine ⟨memory.sameLength, ?_, memory.increasing, last', ?_⟩
  · have total : seq.numPhysicalCachedTokens + cfg.blockSize - 1 =
        seq.blockTable.length * cfg.blockSize + (seq.numCachedTokens - 1) % cfg.blockSize := by
      have : seq.blockTable.length * cfg.blockSize =
          (seq.blockTable.length - 1) * cfg.blockSize + cfg.blockSize := by
        rw [← Nat.succ_mul, Nat.succ_eq_add_one, Nat.sub_add_cancel nonempty]
      omega
    rw [total, Nat.mul_comm, Nat.mul_add_div size, Nat.div_eq_of_lt inside, Nat.add_zero]
  · have bounded : ∀ page ∈ seq.kvBlockLogicalIndices, page < seq.cachedPages cfg := by
      intro page mem
      have le := le_last_of_increasing memory.increasing last mem
      rw [pages]
      exact Nat.lt_succ_of_le le
    have count := length_add_absentPages memory.increasing bounded
    rw [memory.sameLength, pages] at count
    have absent : (seq.numCachedTokens - 1) / cfg.blockSize = (seq.blockTable.length - 1) +
        absentPages (seq.cachedPages cfg) seq.kvBlockLogicalIndices := by
      rw [pages]
      omega
    rw [absent, Nat.add_mul] at physical
    rw [Nat.mul_comm cfg.blockSize]
    omega

theorem Running.decodeAligned {bm : BlockManager} {kv : KvStore} {refs : BlockId → ℕ} {n : ℕ}
    (running : seq.Running cfg) (memory : SeqMemory cfg bm kv refs n seq)
    (ready : RunReady cfg false seq) : seq.DecodeAligned cfg := by
  have size := cfg.blockSize_pos
  rcases ready.decode rfl with ⟨single, complete, last⟩
  have tokens : seq.numTokens = seq.numCachedTokens + 1 := by
    rw [← complete, computedTokens, single]
  rcases running.physical_eq memory.sameLength with ⟨nonempty, physical⟩
  rw [complete, tokens, Nat.add_sub_cancel] at physical
  rw [tokens, Nat.add_sub_cancel] at last
  have split := Nat.div_add_mod' seq.numCachedTokens cfg.blockSize
  have inside := Nat.mod_lt seq.numCachedTokens size
  have offset : seq.numPhysicalCachedTokens =
      (seq.blockTable.length - 1) * cfg.blockSize + seq.numCachedTokens % cfg.blockSize := by
    omega
  have page : seq.numPhysicalCachedTokens / cfg.blockSize = seq.blockTable.length - 1 := by
    rw [offset, Nat.mul_comm, Nat.mul_add_div size, Nat.div_eq_of_lt inside, Nat.add_zero]
  have slot : seq.numPhysicalCachedTokens % cfg.blockSize =
      seq.numCachedTokens % cfg.blockSize := by
    rw [offset, Nat.mul_comm, Nat.mul_add_mod, Nat.mod_eq_of_lt inside]
  refine ⟨?_, ?_, ?_⟩
  · rcases memory.getLast_page last with ⟨blockId, lastBlock, -⟩
    refine ⟨blockId, ?_, ?_⟩
    · rw [attentionContextTokens, Nat.add_sub_cancel, page, ← List.getLast?_eq_getElem?]
      exact lastBlock
    · rw [decodeSlot_eq lastBlock (by omega), attentionContextTokens, Nat.add_sub_cancel, slot,
        tokens, Nat.add_sub_cancel]
  · rw [List.getLast?_eq_getElem?, memory.sameLength] at last
    rw [attentionContextTokens, Nat.add_sub_cancel, offset, tokenPosition, position_eq inside,
      List.getD_eq_getElem?_getD, last, Option.getD_some, tokens, Nat.add_sub_cancel]
    exact split
  · have covers := map_position_range size memory.increasing last
    rw [memory.sameLength, ← offset] at covers
    rw [attentionContextTokens, tokens]
    exact covers

end Sequence

namespace System

variable {cfg : Config} {Allowed : System → Op cfg → Prop} {sys : System}

/-- The requests whose next decode step may be scheduled. -/
def IdleRunning (sys : System) (s : Scheduler) (i : SeqId) : Prop :=
  i ∈ sys.known ∧ (s.seqs i).status = .running ∧ (s.seqs i).numScheduledTokens = 0

/--
Tables, logical indices and token counts of running requests stay in step in every state which a
run passes, and the attention of every decode batch covers the retained tokens and the current
one.
-/
theorem compression_aligned (reachable : ReachableBy cfg Allowed sys) :
    (∀ s, Passes cfg sys s → ∀ i, IdleRunning sys s i → (s.seqs i).Aligned cfg) ∧
      ∀ batch ∈ sys.inFlight, batch.isPrefill = false → ∀ i ∈ batch.seqs,
        (sys.scheduler.seqs i).DecodeAligned cfg := by
  constructor
  · rintro s passes i ⟨known, status, idle⟩
    rcases passes.valid reachable.valid with ⟨held, batch, valid⟩
    have known' := List.mem_toFinset.mpr known
    rcases valid.running (valid.mem_running.mpr ⟨known', status⟩) with ⟨-, -, running⟩
    exact running.aligned (valid.memory.request i known') idle
  · intro batch flying decodes i mem
    have valid := reachable.valid
    have ready := valid.ready batch flying i mem
    rw [decodes] at ready
    rcases valid.batch_mem flying mem with ⟨known, -⟩
    have scheduled : i ∈ sys.batch := by
      rw [batch_of_some flying]
      exact mem
    rcases valid.scheduler.scheduled_phase scheduled with ⟨-, -, ⟨-, waiting⟩ | ⟨-, running⟩⟩
    · have short := waiting.short
      have complete := (ready.decode rfl).2.1
      omega
    · exact running.decodeAligned
        (valid.scheduler.memory.request i (List.mem_toFinset.mpr known)) ready

/-- Every running request keeps its first and its last page. -/
def firstAndLast : Config :=
  { defaultConfig 2 6 2 two_le_two with
    kvCompressionPolicy := .sinkRecent
    kvCompressionRecentBlocks := 1
    kvCompressionTriggerFreeRatio := 1
    recentBlocks_pos := one_le_one }

/-- A decode step of a request of seven tokens, whose two middle pages are dropped. -/
def firstAndLastRun : System := (init firstAndLast).runOps firstAndLast
  [.add (plainRequest 0 7 4) 0, .schedule (idleEnv _), .postprocess [5] 1 1,
    .schedule (idleEnv _)]

theorem compression_aligned_firstAndLast :
    (firstAndLastRun.scheduler.seqs 0).kvBlockLogicalIndices = [0, 3] ∧
      (∀ s, Passes firstAndLast firstAndLastRun s → ∀ i, IdleRunning firstAndLastRun s i →
        (s.seqs i).Aligned firstAndLast) ∧
      (firstAndLastRun.scheduler.seqs 0).DecodeAligned firstAndLast := by
  have reachable : Reachable firstAndLast firstAndLastRun :=
    ReachableBy.runOps .init (by decide +kernel)
  have flying : firstAndLastRun.inFlight =
      some { seqs := [0], isPrefill := false, failed := false } := by decide +kernel
  rcases compression_aligned reachable with ⟨aligned, decodes⟩
  exact ⟨by decide +kernel, aligned, decodes _ flying rfl 0 List.mem_cons_self⟩

end System

end NanoVllm
