import NanoVllm.Engine.KvEntries
import NanoVllm.Engine.Termination

/-!
# Serving a model with a cache

The serving loop over the entries which the slots of the KV cache hold, without a storage backend.
The model runs each batch between its scheduling and its postprocessing. Every slot which stands
for the exact KV of a prefix keeps the entry which the model makes of it, so each request is
completed as by the model alone.
-/

namespace NanoVllm

open ModelRunner

namespace System

variable {cfg : Config} {sys sys' : System} {op : Op cfg} {vocabulary : Token → Prop} {i : SeqId}
  {K : Type} {model : CachedModel K Token}

/-- The tokens which an operation brings are in the vocabulary. -/
def InVocabulary (vocabulary : Token → Prop) : Op cfg → Prop
  | .add request _ => ∀ token ∈ request.prompt, vocabulary token
  | .postprocess tokenIds _ _ => ∀ token ∈ tokenIds, vocabulary token
  | _ => True

theorem Valid.postprocess_inVocabulary (valid : sys.Valid cfg) {tokenIds : List Token}
    {elapsedMs now : ℚ} (steps : Steps cfg sys (.postprocess tokenIds elapsedMs now) sys')
    (sampled : ∀ token ∈ tokenIds, vocabulary token)
    (all : ∀ token ∈ (sys.scheduler.seqs i).tokenIds, vocabulary token) :
    ∀ token ∈ (sys'.scheduler.seqs i).tokenIds, vocabulary token := by
  cases steps with
  | @postprocess _ _ _ inFlight writes s' flying _ lengths processes =>
    rcases valid.processes_each flying lengths processes with ⟨others, each⟩
    change ∀ token ∈ (s'.seqs i).tokenIds, vocabulary token
    by_cases scheduled : i ∈ sys.batch
    · rcases each i scheduled with ⟨tokenId, event, processed⟩
      cases processed with
      | incomplete short same =>
        rw [same.tokenIds]
        exact all
      | appended complete tokenIds =>
        rw [tokenIds, List.forall_mem_append, List.forall_mem_singleton]
        exact ⟨all, sampled tokenId (List.of_mem_zip event).2⟩
    · rw [others i scheduled]
      exact all

/-- An operation keeps the tokens of all requests in the vocabulary. -/
theorem Valid.inVocabulary (valid : sys.Valid cfg) (enabled : sys.Enabled op)
    (steps : Steps cfg sys op sys') (brings : InVocabulary vocabulary op)
    (all : ∀ i ∈ sys.known, ∀ token ∈ (sys.scheduler.seqs i).tokenIds, vocabulary token) :
    ∀ i ∈ sys'.known, ∀ token ∈ (sys'.scheduler.seqs i).tokenIds, vocabulary token := by
  intro i known
  rcases steps.known_or_added known with old | ⟨request, now, rfl, self⟩
  · rcases postprocess_or_other op with ⟨tokenIds, elapsedMs, now, rfl⟩ | other
    · exact valid.postprocess_inVocabulary steps brings (all i old)
    · rw [(steps.tokenIds enabled old other).1]
      exact all i old
  · rw [self]
    exact brings

/--
Nothing is restored, the tokens of a run are in the vocabulary, and without compression the model
samples them.
-/
structure Samples (model : CachedModel K Token) (cfg : Config) (vocabulary : Token → Prop)
    (sys : System) (op : Op cfg) : Prop where
  unserved : Unserved op
  inVocabulary : InVocabulary vocabulary op
  sampled : cfg.kvCompressionPolicy = .none → SampledBy cfg model.next sys op

/-- In such a run the tokens of all requests are in the vocabulary. -/
theorem ReachableBy.inVocabulary (reachable : ReachableBy cfg (Samples model cfg vocabulary) sys) :
    ∀ i ∈ sys.known, ∀ token ∈ (sys.scheduler.seqs i).tokenIds, vocabulary token := by
  refine @ReachableBy.induction cfg sys _
    (fun sys => ∀ i ∈ sys.known, ∀ token ∈ (sys.scheduler.seqs i).tokenIds, vocabulary token)
    ?_ ?_ reachable
  · intro i known
    cases known
  · intro sys sys' op _ valid samples enabled steps ih
    exact valid.inVocabulary enabled steps samples.inVocabulary ih

end System

/-- The serving loop, with the entries which the slots hold. -/
structure CachedEngine (K : Type) where
  system : System
  entryAt : ℕ → K
  /-- The tokens of the batch in flight, once the model has run. -/
  computed : Option (List Token)

namespace CachedEngine

variable {K : Type}

def start (cfg : Config) (entryAt : ℕ → K) : CachedEngine K where
  system := .init cfg
  entryAt
  computed := none

/-- The steps of the loop. Without a storage backend there is no restore to complete. -/
inductive Steps (model : CachedModel K Token) (cfg : Config) (vocabulary : Token → Prop)
    (engine : CachedEngine K) : CachedEngine K → Prop
  | add {request : Request} {now : ℚ} {system : System} (between : engine.computed = none)
      (enabled : engine.system.Enabled (@Op.add cfg request now))
      (positive : 1 ≤ request.maxTokens) (known : ∀ token ∈ request.prompt, vocabulary token)
      (stepped : engine.system.step cfg (.add request now) = .ok system) :
      Steps model cfg vocabulary engine { engine with system }
  | schedule {env : ScheduleEnv cfg} {system : System} (between : engine.computed = none)
      (enabled : engine.system.Enabled (.schedule env)) (absent : env.service = .absent cfg)
      (stepped : engine.system.step cfg (.schedule env) = .ok system) :
      Steps model cfg vocabulary engine { engine with system }
  | cancel {i : SeqId} {now : ℚ} {system : System} (between : engine.computed = none)
      (enabled : engine.system.Enabled (@Op.cancel cfg i now))
      (stepped : engine.system.step cfg (.cancel i now) = .ok system) :
      Steps model cfg vocabulary engine { engine with system }
  | compute {inFlight : InFlight} {entryAt : ℕ → K} {tokenIds : List Token}
      (between : engine.computed = none) (flying : engine.system.inFlight = some inFlight)
      (running : inFlight.failed = false)
      (runs : RunsBatchOn model cfg inFlight.isPrefill engine.entryAt
        (inFlight.seqs.map engine.system.scheduler.seqs) entryAt tokenIds) :
      Steps model cfg vocabulary engine { engine with entryAt, computed := some tokenIds }
  | runFailed {inFlight : InFlight} {entryAt : ℕ → K} {slots : List ℕ} {system : System}
      (between : engine.computed = none) (flying : engine.system.inFlight = some inFlight)
      (mapped : slotMapping cfg inFlight.isPrefill
        (inFlight.seqs.map engine.system.scheduler.seqs) = .ok slots)
      (others : ∀ slot, slot ∉ slots → entryAt slot = engine.entryAt slot)
      (stepped : engine.system.step cfg (.runFailed fun _ => none) = .ok system) :
      Steps model cfg vocabulary engine { engine with system, entryAt }
  | postprocess {tokenIds : List Token} {elapsedMs now : ℚ} {system : System}
      (after : engine.computed = some tokenIds)
      (stepped : engine.system.step cfg (.postprocess tokenIds elapsedMs now) = .ok system) :
      Steps model cfg vocabulary engine { engine with system, computed := none }

/-- The states of a run from any entries. -/
inductive Reachable (model : CachedModel K Token) (cfg : Config) (vocabulary : Token → Prop) :
    CachedEngine K → Prop
  | start (entryAt : ℕ → K) : Reachable model cfg vocabulary (start cfg entryAt)
  | step {engine engine' : CachedEngine K} (reachable : Reachable model cfg vocabulary engine)
      (steps : Steps model cfg vocabulary engine engine') : Reachable model cfg vocabulary engine'

variable {model : CachedModel K Token} {cfg : Config} {vocabulary : Token → Prop}
  {engine engine' : CachedEngine K} {system : System} {entryAt : ℕ → K}

/-- The model has run the batch in flight. -/
structure Ran (model : CachedModel K Token) (cfg : Config) (vocabulary : Token → Prop)
    (engine : CachedEngine K) (inFlight : InFlight) (tokenIds : List Token) : Prop where
  flying : engine.system.inFlight = some inFlight
  running : inFlight.failed = false
  length : tokenIds.length = inFlight.seqs.length
  caches : ∀ ran, engine.system.run cfg inFlight = .ok ran → ran.kv.Caches model engine.entryAt
  inVocabulary : ∀ token ∈ tokenIds, vocabulary token
  sampled : ∀ event ∈ inFlight.seqs.zip tokenIds,
    (engine.system.scheduler.seqs event.1).kvCompressed = false →
      event.2 = model.next ((engine.system.scheduler.seqs event.1).tokenIds.take
        (engine.system.scheduler.seqs event.1).computedTokens)

/-- The invariant of the loop. -/
structure Valid (model : CachedModel K Token) (cfg : Config) (vocabulary : Token → Prop)
    (engine : CachedEngine K) : Prop where
  reachable : System.ReachableBy cfg (System.Samples model cfg vocabulary) engine.system
  between : engine.computed = none → engine.system.kv.Caches model engine.entryAt
  after : ∀ tokenIds, engine.computed = some tokenIds →
    ∃ inFlight, Ran model cfg vocabulary engine inFlight tokenIds

namespace Valid

/-- No restore is pending, so no operation on a restore is enabled. -/
theorem settled (valid : engine.Valid model cfg vocabulary) :
    engine.system.scheduler.pendingRestores = [] :=
  System.settled_of_unserved (valid.reachable.imp fun _ _ samples => samples.unserved)

/-- An operation of the serving loop. -/
theorem operation (valid : engine.Valid model cfg vocabulary) {op : Op cfg}
    (enabled : engine.system.Enabled op)
    (samples : System.Samples model cfg vocabulary engine.system op)
    (stepped : engine.system.step cfg op = .ok engine'.system) (idle : engine'.computed = none)
    (caches : engine'.system.kv.Caches model engine'.entryAt) :
    engine'.Valid model cfg vocabulary where
  reachable := valid.reachable.step enabled samples stepped
  between _ := caches
  after := by
    intro tokenIds computed
    rw [idle] at computed
    cases computed

theorem compute (valid : engine.Valid model cfg vocabulary)
    (samples : ∀ cache position tokens, vocabulary (model.run cache position tokens).2)
    {inFlight : InFlight} {tokenIds : List Token} (between : engine.computed = none)
    (flying : engine.system.inFlight = some inFlight) (running : inFlight.failed = false)
    (runs : RunsBatchOn model cfg inFlight.isPrefill engine.entryAt
      (inFlight.seqs.map engine.system.scheduler.seqs) entryAt tokenIds) :
    ({ engine with entryAt, computed := some tokenIds } : CachedEngine K).Valid model cfg
      vocabulary where
  reachable := valid.reachable
  between := by
    intro none
    cases none
  after := by
    rintro _ ⟨⟩
    have caches := valid.between between
    refine ⟨inFlight, flying, running, ?_, ?_, ?_, ?_⟩
    · rw [runs.sampled, List.length_map]
    · intro ran result
      exact valid.reachable.valid.caches_run flying result caches runs
    · intro token mem
      rw [← List.map_snd_zip runs.sampled.le] at mem
      rcases List.mem_map.mp mem with ⟨event, inBatch, rfl⟩
      rcases runs.request event inBatch with ⟨slots, -, ran⟩
      have sampled := congrArg Prod.snd ran
      dsimp only at sampled
      rw [← sampled]
      exact samples _ _ _
    · intro event mem uncompressed
      exact (valid.reachable.valid.runsOn flying caches runs mem uncompressed).2

theorem postprocess (valid : engine.Valid model cfg vocabulary) {tokenIds : List Token}
    {elapsedMs now : ℚ} (after : engine.computed = some tokenIds)
    (stepped : engine.system.step cfg (.postprocess tokenIds elapsedMs now) = .ok system) :
    ({ engine with system, computed := none } : CachedEngine K).Valid model cfg vocabulary := by
  rcases valid.after tokenIds after with ⟨inFlight, ran⟩
  have enabled : engine.system.Enabled (@Op.postprocess cfg tokenIds elapsedMs now) :=
    ⟨inFlight, ran.flying, ran.running, ran.length⟩
  refine valid.operation enabled ⟨trivial, ran.inVocabulary, ?_⟩ stepped rfl ?_
  · intro policy
    exact valid.reachable.valid.sampledBy (valid.reachable.uncompressed policy) ran.flying
      ran.sampled
  · rcases System.kv_of_postprocess ran.flying stepped with ⟨result, returned, same⟩
    rw [same]
    exact ran.caches result returned

/-- Every step keeps the invariant, if the model samples tokens of the vocabulary. -/
theorem step (valid : engine.Valid model cfg vocabulary)
    (samples : ∀ cache position tokens, vocabulary (model.run cache position tokens).2)
    (steps : Steps model cfg vocabulary engine engine') : engine'.Valid model cfg vocabulary := by
  cases steps with
  | add between enabled positive known stepped =>
    refine valid.operation enabled ⟨trivial, known, fun _ => positive⟩ stepped between ?_
    cases stepped
    exact valid.between between
  | schedule between enabled absent stepped =>
    refine valid.operation enabled ⟨absent, trivial, fun _ => trivial⟩ stepped between ?_
    rw [System.kv_of_schedule stepped]
    exact valid.between between
  | cancel between enabled stepped =>
    refine valid.operation enabled ⟨trivial, trivial, fun _ => trivial⟩ stepped between ?_
    rw [System.kv_of_cancel stepped]
    exact valid.between between
  | compute between flying running runs => exact valid.compute samples between flying running runs
  | runFailed between flying mapped others stepped =>
    have enabled : engine.system.Enabled (@Op.runFailed cfg fun _ => none) := by
      change engine.system.inFlight ≠ none
      rw [flying]
      exact Option.some_ne_none _
    refine valid.operation enabled ⟨trivial, trivial, fun _ => trivial⟩ stepped between ?_
    exact valid.reachable.valid.caches_runFailed flying (valid.between between) mapped others
      (fun _ => rfl) stepped
  | postprocess after stepped => exact valid.postprocess after stepped

end Valid

theorem Reachable.valid (reachable : Reachable model cfg vocabulary engine)
    (samples : ∀ cache position tokens, vocabulary (model.run cache position tokens).2) :
    engine.Valid model cfg vocabulary := by
  induction reachable with
  | start entryAt =>
    refine ⟨.init, ?_, ?_⟩
    · intro _ slot tokens holds
      cases holds
    · intro tokenIds none
      cases none
  | step _ steps ih => exact ih.step samples steps

end CachedEngine

end NanoVllm
