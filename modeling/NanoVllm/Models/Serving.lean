import NanoVllm.Engine.CachedServing
import NanoVllm.Models.TensorParallel

/-!
# Serving the model

Several ranks serve the model without a storage backend, which `LLMEngine` refuses for them. A slot
of the KV cache holds the keys and values of all layers on all ranks. However the requests are
batched, chunked, preempted and recomputed, each of them gets the completion which one rank
generates for its prompt alone.
-/

namespace NanoVllm.Models

open Paging Sharding Layers ModelRunner

variable {R : Type} [Field R] {config : Qwen3Config R} {tpSize : ℕ}

/-- The tokens which have an embedding. -/
def Qwen3Config.InVocabulary (config : Qwen3Config R) (token : Token) : Prop :=
  0 ≤ token ∧ token < config.vocabSize

/-- `Sampler.forward` returns the index of a logit. -/
def Kernels.SamplesIndex (kernels : Kernels R config.headDim) : Prop :=
  ∀ logits, logits.length = config.vocabSize → config.InVocabulary (kernels.sampler logits)

namespace Weights

variable {weights : Weights R}

variable (config) in
/-- The model which some ranks run together. -/
def model (kernels : Kernels R config.headDim) (tpSize : ℕ) (weights : Weights R) :
    CachedModel (List (PerRank (KV R))) Token :=
  (weights.load config tpSize).cachedModel kernels tpSize

variable (config) in
/-- An engine on some ranks which answers as one rank for each request alone. -/
structure Serves (kernels : Kernels R config.headDim) (tpSize : ℕ) (weights : Weights R)
    (cfg : Config) (engine : CachedEngine (List (PerRank (KV R)))) : Prop where
  settled : engine.system.scheduler.pendingRestores = []
  caches : engine.computed = none → ∀ i ∈ engine.system.known,
    (engine.system.scheduler.seqs i).kvCompressed = false →
      ∀ position < (engine.system.scheduler.seqs i).numCachedTokens, ∃ blockId layers,
        (engine.system.scheduler.seqs i).blockTable[position / cfg.blockSize]? = some blockId ∧
        (weights.model config kernels 1).entry
          ((engine.system.scheduler.seqs i).tokenIds.take (position + 1)) = some layers ∧
        List.Forall₂ (Shards config tpSize)
          (engine.entryAt (blockId * cfg.blockSize + position % cfg.blockSize)) layers
  completes : cfg.kvCompressionPolicy = .none → ∀ i ∈ engine.system.known,
    (engine.system.scheduler.seqs i).status = .finished →
      (engine.system.scheduler.seqs i).completionTokenIds =
        completeAlone cfg (weights.model config kernels 1).next (engine.system.scheduler.seqs i)

/-- There is a logit for each token, also if the ranks do not agree. -/
theorem length_computeLogits (kernels : Kernels R config.headDim) (shaped : weights.Shaped config)
    (shardable : Shardable config tpSize) (x : PerRank (Hidden R)) :
    (Qwen3ForCausalLM.computeLogits kernels tpSize (weights.load config tpSize) x).length =
      config.vocabSize := by
  have long : weights.lmHead.length = tpSize * (config.vocabSize / tpSize) :=
    shaped.lmHead.trans (Nat.mul_div_cancel' shardable.vocab).symm
  have rows : ∀ rank < tpSize,
      (page (config.vocabSize / tpSize) weights.lmHead rank).length = config.vocabSize / tpSize :=
    fun rank inside => length_page long.ge inside
  unfold Qwen3ForCausalLM.computeLogits ParallelLMHead.forward
  dsimp only [load]
  split
  · rw [Full.length_flatten, List.length_map, List.length_range,
      Nat.mul_div_cancel' shardable.vocab]
    intro logits mem
    rcases List.mem_map.mp mem with ⟨rank, inside, rfl⟩
    rw [length_apply, rows rank (List.mem_range.mp inside)]
  · have only : tpSize = 1 := by
      have positive := shardable.positive
      omega
    subst only
    rw [length_apply, rows 0 Nat.one_pos, Nat.div_one]

/-- Whatever the ranks read and find in their caches, they sample a token of the vocabulary. -/
theorem inVocabulary_run {kernels : Kernels R config.headDim} (samples : kernels.SamplesIndex)
    (shaped : weights.Shaped config) (shardable : Shardable config tpSize)
    (cache : List (List (PerRank (KV R)))) (position : ℕ) (tokens : List Token) :
    config.InVocabulary ((weights.model config kernels tpSize).run cache position tokens).2 := by
  have zero : config.InVocabulary (0 : Token) := by
    have inside := samples (List.replicate config.vocabSize 0) List.length_replicate
    exact ⟨le_refl 0, inside.1.trans_lt inside.2⟩
  change config.InVocabulary (Qwen3ForCausalLM.sample kernels tpSize (weights.load config tpSize) _)
  cases (CausalLayer.runStack _ cache position _).2.getLast? with
  | none => exact zero
  | some x => exact samples _ (length_computeLogits kernels shaped shardable x)

/--
In every state of the serving loop on several ranks, each rank has cached for an uncompressed
request the keys and values of its heads which one rank computes from the request's own tokens, and
without compression a finished request has the completion which one rank generates for its prompt
alone.
-/
theorem serves {kernels : Kernels R config.headDim} (samples : kernels.SamplesIndex)
    (shaped : weights.Shaped config) (shardable : Shardable config tpSize) {cfg : Config}
    {engine : CachedEngine (List (PerRank (KV R)))}
    (reachable : CachedEngine.Reachable (weights.model config kernels tpSize) cfg
      config.InVocabulary engine) :
    weights.Serves config kernels tpSize cfg engine := by
  have sampled := inVocabulary_run samples shaped shardable
  have valid := reachable.valid sampled
  have known := valid.reachable.inVocabulary
  have isSimulated := simulates kernels shaped shardable
  refine ⟨valid.settled, ?_, ?_⟩
  · intro between i mem uncompressed position cached
    rcases valid.reachable.valid.scheduler.cachedPage (List.mem_toFinset.mpr mem) uncompressed
      cached with ⟨blockId, inTable, holds⟩
    have made := valid.between between _ _ holds
    have upTo : ∀ token ∈ (engine.system.scheduler.seqs i).tokenIds.take (position + 1),
        config.InVocabulary token := by
      intro token inTokens
      exact known i mem token (List.mem_of_mem_take inTokens)
    rcases isSimulated.entry upTo made with ⟨layers, made', related⟩
    exact ⟨blockId, layers, inTable, made', related⟩
  · intro policy i mem finished
    have generated := (valid.reachable.imp fun _ _ samples => samples.sampled policy).generates
      policy i mem
    rw [← generated.finished finished]
    apply Autoregression.complete_congr
    · intro history inVocabulary
      exact isSimulated.next inVocabulary
    · intro history
      exact sampled [] 0 history
    · intro token inPrompt
      exact known i mem token (List.mem_of_mem_take inPrompt)

end Weights

/-! ## Two ranks -/

theorem pairKernels_samplesIndex : @Kernels.SamplesIndex ℚ pairConfig pairKernels := by
  intro logits _
  change pairConfig.InVocabulary (if logits.headI < 2 then 1 else 0)
  split <;> exact ⟨by decide, by decide⟩

/-- Two ranks with a cache of two pages. -/
def pairCfg : Config := System.defaultConfig 2 2 2 System.two_le_two

def pairModel : CachedModel (List (PerRank (KV ℚ))) Token :=
  pairWeights.model pairConfig pairKernels 2

/-- Their engine before its request. -/
def pairStarted : CachedEngine (List (PerRank (KV ℚ))) := .start pairCfg fun _ => []

/-- A request of three tokens for one token. -/
def pairAdded : CachedEngine (List (PerRank (KV ℚ))) :=
  { pairStarted with
    system := pairStarted.system.next pairCfg (.add (System.plainRequest 0 3 1) 0) }

/-- Its prompt is scheduled as one chunk. -/
def pairScheduled : CachedEngine (List (PerRank (KV ℚ))) :=
  { pairAdded with system := pairAdded.system.next pairCfg (.schedule (System.idleEnv pairCfg)) }

/-- The ranks have run. -/
def pairRan : CachedEngine (List (PerRank (KV ℚ))) :=
  { pairScheduled with
    entryAt := fun slot => (pairModel.entries [1, 1, 1]).getD slot []
    computed := some [1] }

/-- The request has finished. -/
def pairServed : CachedEngine (List (PerRank (KV ℚ))) :=
  { pairRan with
    system := pairRan.system.next pairCfg (.postprocess [1] 0 0)
    computed := none }

theorem runsBatch_pairRan : RunsBatchOn pairModel pairCfg true pairScheduled.entryAt
    ([0].map pairScheduled.system.scheduler.seqs) pairRan.entryAt [1] where
  sampled := rfl
  request := by
    have slots : runSlots pairCfg true (pairScheduled.system.scheduler.seqs 0) =
        .ok [0, 1, 2] := by decide +kernel
    have context : contextSlots pairCfg true (pairScheduled.system.scheduler.seqs 0) =
        [] := by decide +kernel
    have inputs : inputIds true (pairScheduled.system.scheduler.seqs 0) = [1, 1, 1] := by
      decide +kernel
    have first : firstPosition true (pairScheduled.system.scheduler.seqs 0) = 0 := by
      decide +kernel
    have next : pairModel.next [1, 1, 1] = 1 := by decide +kernel
    have entries : [0, 1, 2].map pairRan.entryAt = pairModel.entries [1, 1, 1] := by
      rcases List.length_eq_three.mp (pairModel.length_entries [1, 1, 1]) with ⟨a, b, c, same⟩
      simp [pairRan, same]
    intro event mem
    cases List.mem_singleton.mp mem
    refine ⟨[0, 1, 2], slots, ?_⟩
    rw [context, inputs, first, entries]
    exact Prod.ext rfl next
  others := by
    have slots : slotMapping pairCfg true
        ([0].map pairScheduled.system.scheduler.seqs) = .ok [0, 1, 2] := by decide +kernel
    refine ⟨[0, 1, 2], slots, ?_⟩
    intro slot outside
    have long : (pairModel.entries [1, 1, 1]).length ≤ slot := by
      simp only [List.mem_cons, List.not_mem_nil, or_false] at outside
      rw [CachedModel.length_entries]
      change 3 ≤ slot
      omega
    change (pairModel.entries [1, 1, 1]).getD slot [] = []
    rw [List.getD_eq_getElem?_getD, List.getElem?_eq_none long]
    rfl

theorem reachable_pairServed :
    CachedEngine.Reachable pairModel pairCfg pairConfig.InVocabulary pairServed := by
  have steps : ∀ {engine : CachedEngine (List (PerRank (KV ℚ)))} {op : Op pairCfg},
      CachedEngine.Reachable pairModel pairCfg pairConfig.InVocabulary engine →
      engine.system.Enabled op →
        engine.system.step pairCfg op = .ok (engine.system.next pairCfg op) := by
    intro engine op reachable enabled
    have valid := reachable.valid (Weights.inVocabulary_run pairKernels_samplesIndex
      pairWeights_shaped pairConfig_shardable)
    exact valid.reachable.valid.step_next enabled
  have started : CachedEngine.Reachable pairModel pairCfg pairConfig.InVocabulary pairStarted :=
    .start _
  have added : CachedEngine.Reachable pairModel pairCfg pairConfig.InVocabulary pairAdded := by
    have enabled : pairStarted.system.Enabled (@Op.add pairCfg (System.plainRequest 0 3 1) 0) := by
      decide
    have known : ∀ token ∈ (System.plainRequest 0 3 1).prompt, pairConfig.InVocabulary token := by
      intro token mem
      cases List.eq_of_mem_replicate mem
      exact ⟨by decide, by decide⟩
    exact started.step (.add rfl enabled (le_refl 1) known (steps started enabled))
  have scheduled : CachedEngine.Reachable pairModel pairCfg pairConfig.InVocabulary
      pairScheduled := by
    have enabled : pairAdded.system.Enabled (Op.schedule (System.idleEnv pairCfg)) := by decide
    exact added.step (.schedule rfl enabled rfl (steps added enabled))
  have flying : pairScheduled.system.inFlight = some ⟨[0], true, false⟩ := by decide +kernel
  have ran : CachedEngine.Reachable pairModel pairCfg pairConfig.InVocabulary pairRan :=
    scheduled.step (.compute rfl flying rfl runsBatch_pairRan)
  have enabled : pairRan.system.Enabled (@Op.postprocess pairCfg [1] 0 0) :=
    ⟨_, flying, rfl, rfl⟩
  exact ran.step (.postprocess rfl (steps ran enabled))

theorem Weights.serves_pairServed :
    (pairServed.system.scheduler.seqs 0).completionTokenIds = [1] ∧
      pairWeights.Serves pairConfig pairKernels 2 pairCfg pairServed := by
  have completion : (pairServed.system.scheduler.seqs 0).completionTokenIds = [1] := by
    decide +kernel
  exact ⟨completion, Weights.serves pairKernels_samplesIndex pairWeights_shaped
    pairConfig_shardable reachable_pairServed⟩

end NanoVllm.Models
