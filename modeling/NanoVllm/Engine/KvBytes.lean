import NanoVllm.Engine.KvEntries
import NanoVllm.ModelRunner.PageIo

/-!
# The bytes of the KV cache

A slot of the memory holds its bytes as the entry of a model. Wherever a slot stands for the exact
KV of a prefix, its bytes are those which the model makes of the prefix, and an uncompressed request
gets the token which the model samples after its tokens.
-/

namespace NanoVllm

/-- A model with the KV cache of some shape. -/
abbrev KvModel (shape : KvCacheShape) := CachedModel (SlotBytes shape) Token

namespace ModelRunner

variable {shape : KvCacheShape} {model : KvModel shape} {cfg : Config} {isPrefill : Bool}
  {memory memory' : KvMemory shape} {seqs : List Sequence} {tokenIds : List Token}

/-- What the model writes and samples for a request, in the memory after the run of its batch. -/
def RunsRequest (model : KvModel shape) (cfg : Config) (isPrefill : Bool) (memory : KvMemory shape)
    (seq : Sequence) (tokenId : Token) : Prop :=
  ∃ slots, runSlots cfg isPrefill seq = .ok slots ∧
    model.run ((contextSlots cfg isPrefill seq).map memory.slot) (firstPosition isPrefill seq)
      (inputIds isPrefill seq) = (slots.map memory.slot, tokenId)

/-- `run`: the memory after it, and the sampled tokens. -/
structure RunsBatch (model : KvModel shape) (cfg : Config) (isPrefill : Bool)
    (memory : KvMemory shape) (seqs : List Sequence) (memory' : KvMemory shape)
    (tokenIds : List Token) : Prop where
  sampled : tokenIds.length = seqs.length
  request : ∀ event ∈ seqs.zip tokenIds,
    RunsRequest model cfg isPrefill memory' event.1 event.2
  others : ∃ slots, slotMapping cfg isPrefill seqs = .ok slots ∧
    ∀ slot, slot ∉ slots → memory'.slot slot = memory.slot slot

theorem RunsBatch.on (runs : RunsBatch model cfg isPrefill memory seqs memory' tokenIds) :
    RunsBatchOn model cfg isPrefill memory.slot seqs memory'.slot tokenIds :=
  ⟨runs.sampled, runs.request, runs.others⟩

end ModelRunner

open ModelRunner

variable {cfg : Config} {i : SeqId} {shape : KvCacheShape} {model : KvModel shape}
  {memory memory' : KvMemory shape}

/-- The slots which stand for the exact KV of a prefix hold what the model makes of it. -/
def KvStore.Represents (kv : KvStore) (model : KvModel shape) (memory : KvMemory shape) : Prop :=
  ∀ slot tokens, kv.Holds slot tokens → model.entry tokens = some (memory.slot slot)

namespace System

variable {sys ran : System} {inFlight : InFlight} {tokenIds : List Token}

/-- What a run writes and samples for an uncompressed request of its batch. -/
theorem Valid.runsRequest (valid : sys.Valid cfg) (flying : sys.inFlight = some inFlight)
    (represents : sys.kv.Represents model memory)
    (runs : RunsBatch model cfg inFlight.isPrefill memory
      (inFlight.seqs.map sys.scheduler.seqs) memory' tokenIds) {tokenId : Token}
    (event : (i, tokenId) ∈ inFlight.seqs.zip tokenIds)
    (uncompressed : (sys.scheduler.seqs i).kvCompressed = false) :
    (∀ position ∈ prefillPositions (sys.scheduler.seqs i),
      model.entry ((sys.scheduler.seqs i).tokenIds.take (position + 1)) =
        some (memory'.slot ((sys.scheduler.seqs i).runSlot cfg inFlight.isPrefill position))) ∧
      tokenId = model.next
        ((sys.scheduler.seqs i).tokenIds.take (sys.scheduler.seqs i).computedTokens) :=
  valid.runsOn flying represents runs.on event uncompressed

/-- A run keeps the bytes of all exact slots those of their prefixes. -/
theorem Valid.represents_run (valid : sys.Valid cfg) (flying : sys.inFlight = some inFlight)
    (result : sys.run cfg inFlight = .ok ran) (represents : sys.kv.Represents model memory)
    (runs : RunsBatch model cfg inFlight.isPrefill memory
      (inFlight.seqs.map sys.scheduler.seqs) memory' tokenIds) :
    ran.kv.Represents model memory' :=
  valid.caches_run flying result represents runs.on

/-- A failed run leaves the bytes of all slots which the batch does not write. -/
theorem Valid.represents_runFailed (valid : sys.Valid cfg) {garbage : KvStore} {slots : List ℕ}
    (flying : sys.inFlight = some inFlight) (represents : sys.kv.Represents model memory)
    (mapped : slotMapping cfg inFlight.isPrefill (inFlight.seqs.map sys.scheduler.seqs) =
      .ok slots)
    (others : ∀ slot, slot ∉ slots → memory'.slot slot = memory.slot slot)
    (none : ∀ slot, garbage slot = none)
    (stepped : sys.step cfg (.runFailed garbage) = .ok ran) : ran.kv.Represents model memory' :=
  valid.caches_runFailed flying represents mapped others none stepped

end System

end NanoVllm
