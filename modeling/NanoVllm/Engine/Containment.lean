import NanoVllm.Compression.Alignment
import NanoVllm.Engine.KvContent

/-!
# Where compressed KV goes

KV which a request computes after a compression is approximate, and its slots carry the request as
their taint. Wherever a run stops, such KV has not left its request: no page in the prefix index
holds any, no page with any is exported, no other request counts any as cached, and neither does
the request itself once it is uncompressed again.
-/

namespace NanoVllm

open BlockManager

variable {cfg : Config} {ids : Finset SeqId} {kv : KvStore} {held batch known : List SeqId}
  {s : Scheduler}

/-- The compressed request which has computed the entry of a slot. -/
def KvStore.taint (kv : KvStore) (slot : ℕ) : Option SeqId := (kv slot).bind KvSlot.taint

theorem KvStore.Holds.taint {slot : ℕ} {tokens : List Token} (holds : kv.Holds slot tokens) :
    kv.taint slot = none := by
  rw [KvStore.taint, holds]
  rfl

theorem PageHolds.taint {blockId : BlockId} {path : List BlockKey}
    (page : PageHolds cfg kv blockId path) {offset : ℕ} (inPage : offset < cfg.blockSize) :
    kv.taint (blockId * cfg.blockSize + offset) = none := by
  rw [KvStore.taint, page.slots offset inPage]
  rfl

/-- Only the compressed request which has computed a slot counts it as cached. -/
structure Scheduler.Contained (cfg : Config) (known : List SeqId) (kv : KvStore) (s : Scheduler) :
    Prop where
  index : ∀ path blockId, s.blockManager.entry cfg path = some blockId →
    ∀ offset < cfg.blockSize, kv.taint (blockId * cfg.blockSize + offset) = none
  others : ∀ i ∈ known, ∀ logical blockId, (logical, blockId) ∈ (s.seqs i).pages →
    ∀ offset < cfg.blockSize, logical * cfg.blockSize + offset < (s.seqs i).numCachedTokens →
      ∀ j, kv.taint (blockId * cfg.blockSize + offset) = some j →
        j = i ∧ (s.seqs i).kvCompressed = true
  uncompressed : ∀ i ∈ known, (s.seqs i).kvCompressed = false →
    ∀ position < (s.seqs i).numCachedTokens,
      ∃ blockId, (s.seqs i).blockTable[position / cfg.blockSize]? = some blockId ∧
        kv.taint (blockId * cfg.blockSize + position % cfg.blockSize) = none

theorem Scheduler.Valid.contained
    (valid : Valid cfg known.toFinset kv Sequence.numCachedTokens held batch s) :
    Contained cfg known kv s where
  index path blockId found offset inPage :=
    (valid.memory.cached path blockId found).2.taint inPage
  others i mem logical blockId page offset inPage cached j tainted := by
    have inIds := List.mem_toFinset.mpr mem
    rcases (valid.memory.request i inIds).content logical blockId offset page inPage cached with
      ⟨taint, slot, own⟩
    rw [KvStore.taint, slot, Option.bind_some] at tainted
    rcases own with exact | ⟨compressed, own⟩
    · rw [exact] at tainted
      cases tainted
    · rw [own, (valid.request i inIds).named] at tainted
      cases tainted
      exact ⟨rfl, compressed⟩
  uncompressed i mem exact position cached := by
    rcases valid.cachedPage (List.mem_toFinset.mpr mem) exact cached with ⟨blockId, entry, holds⟩
    exact ⟨blockId, entry, holds.taint⟩

namespace System

open Scheduler

variable {sys : System}

/-- KV which a compressed request has computed stays with this request. -/
theorem taint_contained (reachable : Reachable cfg sys) :
    (∀ s, Passes cfg sys s → Contained cfg sys.known sys.kv s) ∧
    ∀ inFlight, sys.inFlight = some inFlight →
      ∃ ran, sys.run cfg inFlight = .ok ran ∧ Contained cfg ran.known ran.kv ran.scheduler ∧
        ∀ (env : WritebackEnv) service, ∃ service' writebacks,
          env.enqueueRemoteWritebacks cfg service (inFlight.seqs.map ran.scheduler.seqs) =
            .ok (service', writebacks) ∧
          ∀ writeback ∈ writebacks, ∀ index blockId, (index, blockId) ∈ writeback.pages →
            ∀ offset < cfg.blockSize, ran.kv.taint (blockId * cfg.blockSize + offset) = none := by
  constructor
  · intro s passes
    rcases passes.valid reachable.valid with ⟨held, batch, valid⟩
    exact valid.contained
  · intro inFlight flying
    rcases reachable.valid.ran flying with ⟨ran, returned, -, known, valid⟩
    refine ⟨ran, returned, ?_, fun env service => ?_⟩
    · rw [known]
      exact valid.cachedOnly.contained
    · rcases @Valid.exportSound _ _ _ _ _ _ env valid service with
        ⟨service', writebacks, enqueued, sound⟩
      refine ⟨service', writebacks, enqueued, fun writeback mem index blockId page offset inPage => ?_⟩
      rcases sound writeback mem index blockId page with ⟨_, tokens, -, -, -, -, holds⟩
      exact (holds offset inPage).taint

/-- A token which has been computed with two of the four pages. -/
def approximateRun : System := firstAndLastRun.runOps firstAndLast [.postprocess [6] 1 1]

/-- The last slot of the last page is tainted, so no lookup finds this page. -/
theorem taint_contained_approximate : approximateRun.kv.taint 7 = some 0 ∧
    ∀ path, approximateRun.scheduler.blockManager.entry firstAndLast path ≠ some 3 := by
  have reachable : Reachable firstAndLast approximateRun :=
    ReachableBy.runOps (ReachableBy.runOps .init (by decide +kernel)) (by decide +kernel)
  have tainted : approximateRun.kv.taint 7 = some 0 := by decide +kernel
  refine ⟨tainted, fun path found => ?_⟩
  have contained := (taint_contained reachable).1 _ .between
  have exact : approximateRun.kv.taint 7 = none := contained.index path 3 found 1 (by decide)
  rw [exact] at tainted
  cases tainted

end System

end NanoVllm
