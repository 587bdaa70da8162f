import NanoVllm.LlmEngine

/-!
# What `generate` returns

A call of `generate` on an engine at rest returns, for each prompt in its place, the completion
which the model generates for that prompt alone in a memory of its own: the batches, the shared
pages, the preemptions and the recomputations do not show. The engine is at rest again afterwards.
-/

namespace NanoVllm

open Autoregression Scheduler

/-! ## What the model sees -/

/-- The tokens which a model generates for a request in a memory of its own. -/
def TokenModel.next (model : TokenModel) (i : SeqId) (history : List Token) : Token :=
  model i (ownEntries history)

/-- The entries which a request attends to are those of the history which they represent. -/
theorem Attends.entries {cfg : Config} {kv : KvStore} {isPrefill : Bool} {seq : Sequence}
    {history : List Token} (attends : Attends cfg kv isPrefill seq history) :
    ModelRunner.attendedEntries cfg kv isPrefill seq = ownEntries history := by
  rw [ModelRunner.attendedEntries, ownEntries, ← attends.length]
  apply List.map_congr_left
  intro position mem
  rcases attends.slots position (List.mem_range.mp mem) with ⟨blockId, entry, holds⟩
  rw [entry]
  exact holds

theorem zip_map_eq {α β : Type} (f : α → β) (list : List α) :
    list.zip (list.map f) = list.map fun a => (a, f a) := by
  induction list with
  | nil => rfl
  | cons a list ih => simp [ih]

namespace System

variable {cfg : Config} {sys sys' : System} {i : SeqId} {f : List Token → Token}

/-- A batch gives a request the next token of its own model. -/
theorem Valid.postprocess_generates_own (valid : sys.Valid cfg)
    (uncompressed : Uncompressed sys.known.toFinset sys.scheduler) {tokenIds : List Token}
    {elapsedMs now : ℚ} (steps : Steps cfg sys (.postprocess tokenIds elapsedMs now) sys')
    (sampled : ∀ inFlight ∈ sys.inFlight, ∀ ran, sys.run cfg inFlight = .ok ran →
      ∀ tokenId, (i, tokenId) ∈ inFlight.seqs.zip tokenIds → ∀ history,
        Attends cfg ran.kv inFlight.isPrefill (sys.scheduler.seqs i) history →
          tokenId = f history)
    (generates : Generates cfg f (sys.scheduler.seqs i)) :
    Generates cfg f (sys'.scheduler.seqs i) := by
  cases steps with
  | @postprocess _ _ _ inFlight writes s' flying _ lengths processes =>
    rcases valid.processes_each flying lengths processes with ⟨others, each⟩
    change Generates cfg f (s'.seqs i)
    by_cases scheduled : i ∈ sys.batch
    · rcases each i scheduled with ⟨tokenId, event, processed⟩
      rcases valid.batch_live scheduled with ⟨known, live⟩
      have known' := List.mem_toFinset.mpr known
      apply generates.processed processed live (valid.scheduler.request i known').prompt_le
      intro complete
      rw [batch_of_some flying] at scheduled
      rcases valid.ran flying with ⟨ran, result, same, -, validRan⟩
      rw [same] at validRan
      have attends := validRan.attends scheduled (valid.ready inFlight flying i scheduled)
        (uncompressed i known')
      have token := sampled inFlight flying ran result tokenId event _ attends
      rw [complete, Sequence.numTokens, List.take_length] at token
      exact token
    · rw [others i scheduled]
      exact generates

/-- Scheduling keeps what a request has generated. -/
theorem Steps.schedule_generates {env : ScheduleEnv cfg} (valid : sys.Valid cfg)
    (enabled : sys.Enabled (.schedule env)) (steps : Steps cfg sys (.schedule env) sys')
    (known : i ∈ sys.known) (generates : Generates cfg f (sys.scheduler.seqs i)) :
    Generates cfg f (sys'.scheduler.seqs i) := by
  have other : ∀ tokenIds elapsedMs now,
      (Op.schedule env : Op cfg) ≠ .postprocess tokenIds elapsedMs now := by
    intro tokenIds elapsedMs now same
    cases same
  apply generates.of_same (steps.settings enabled known) (steps.tokenIds enabled known other).1
  · intro alive
    by_contra dead
    rw [steps.ended valid enabled known dead] at alive
    exact dead alive
  · exact steps.not_finished valid enabled known other

/-- A scheduled batch is what `schedule()` has returned. -/
theorem schedule_outcome {env : ScheduleEnv cfg} {s' : Scheduler} {inFlight : InFlight}
    (stepped : sys.step cfg (.schedule env) =
      .ok { sys with scheduler := s', inFlight := some inFlight }) :
    ∃ j seqs, sys.scheduler.schedule cfg env = .ok (s', .batch (j :: seqs) inFlight.isPrefill) ∧
      inFlight = { seqs := j :: seqs, isPrefill := inFlight.isPrefill, failed := false } := by
  rcases Py.exists_of_bind stepped with ⟨⟨scheduler, outcome⟩, scheduled, returned⟩
  have fields := Except.ok.inj returned
  have same : scheduler = s' := congrArg System.scheduler fields
  have flying : launched outcome = some inFlight := congrArg System.inFlight fields
  subst same
  cases outcome with
  | batch seqs isPrefill =>
    cases seqs with
    | nil => cases flying
    | cons j seqs =>
      cases flying
      exact ⟨j, seqs, scheduled, rfl⟩
  | retry => cases flying
  | noRunnable => cases flying

end System

namespace LLMEngine

variable {cfg : Config} {mode : MetricsSummaryMode} {model : TokenModel} {tokenizer : Tokenizer}
  {engine engine' : LLMEngine} {i : SeqId}

/-- An engine between two calls, whose live requests fit into the memory when they are alone. -/
structure Resting (cfg : Config) (mode : MetricsSummaryMode) (engine : LLMEngine) : Prop where
  resting : engine.system.Resting cfg
  valid : engine.monitor.Valid cfg mode
  fresh : ∀ i ∈ engine.system.known, i < engine.nextSeqId

theorem Resting.init (nextSeqId : SeqId) : (init cfg nextSeqId).Resting cfg mode where
  resting := by
    refine ⟨.init, rfl, ?_⟩
    intro i known
    simp [LLMEngine.init, Monitor.init, System.init] at known
  valid := .init
  fresh := by
    intro i known
    cases known

/-! ## One step -/

/-- What a step does to the requests. -/
structure Steps (cfg : Config) (model : TokenModel) (sys sys' : System)
    (stepped : List (SeqId × List Token)) : Prop where
  known : sys'.known = sys.known
  later : Relation.ReflTransGen (System.MovesBy cfg fun _ op => System.Unserved op) sys sys'
  generates : ∀ i ∈ sys.known, Generates cfg (model.next i) (sys.scheduler.seqs i) →
    Generates cfg (model.next i) (sys'.scheduler.seqs i)
  outputs : stepped = (stepped.map Prod.fst).map fun i =>
    (i, (sys'.scheduler.seqs i).completionTokenIds)
  live : ∀ i ∈ sys.known, (sys.scheduler.seqs i).status.Live →
    (sys'.scheduler.seqs i).status.Live ∨
      (sys'.scheduler.seqs i).status = .finished ∧ i ∈ stepped.map Prod.fst
  ended : ∀ i ∈ sys.known, ¬(sys.scheduler.seqs i).status.Live →
    sys'.scheduler.seqs i = sys.scheduler.seqs i ∧ i ∉ stepped.map Prod.fst

theorem stepOutputs_fst (sys : System) (batch : List SeqId) :
    (Serve.stepOutputs sys batch).map Prod.fst =
      batch.filter fun i => (sys.scheduler.seqs i).status = .finished := by
  rw [Serve.stepOutputs, List.map_map]
  exact List.map_id' _

/-- A request of a batch is live afterwards, or it has finished. -/
theorem live_or_finished {seq seq' : Sequence} {tokenId : Token}
    (processed : Processed cfg seq tokenId seq') : seq'.status.Live ∨ seq'.status = .finished := by
  cases processed with
  | incomplete _ _ status =>
    rw [status]
    exact .inl trivial
  | appended _ _ _ _ _ _ _ _ status =>
    rw [status]
    split
    · exact .inr rfl
    · exact .inl trivial

/-- A batch which is scheduled and postprocessed with the tokens of the model. -/
theorem Steps.of_round {sys sys₁ sys' ran : System} {batch : InFlight} {env : ScheduleEnv cfg}
    {tokenIds : List Token} {elapsedMs now : ℚ} (valid : sys.Valid cfg)
    (idle : sys.Enabled (.schedule env)) (scheduled : System.Steps cfg sys (.schedule env) sys₁)
    (valid₁ : sys₁.Valid cfg) (flying : sys₁.inFlight = some batch)
    (uncompressed : Uncompressed sys₁.known.toFinset sys₁.scheduler)
    (result : sys₁.run cfg batch = .ok ran) (same : ran.scheduler = sys₁.scheduler)
    (sampled : tokenIds = batch.seqs.map fun i =>
      model i (ModelRunner.attendedEntries cfg ran.kv batch.isPrefill (ran.scheduler.seqs i)))
    (enabled : sys₁.Enabled (.postprocess tokenIds elapsedMs now : Op cfg))
    (processed : System.Steps cfg sys₁ (.postprocess tokenIds elapsedMs now) sys')
    (later : Relation.ReflTransGen (System.MovesBy cfg fun _ op => System.Unserved op) sys sys') :
    Steps cfg model sys sys' (Serve.stepOutputs sys' batch.seqs) := by
  have known₁ : sys₁.known = sys.known := by
    cases scheduled
    rfl
  have known' : sys'.known = sys₁.known := by
    cases processed
    rfl
  have inBatch : sys₁.batch = batch.seqs := System.batch_of_some flying
  have live₁ : ∀ i ∈ sys.known, ((sys₁.scheduler.seqs i).status.Live ↔
      (sys.scheduler.seqs i).status.Live) := by
    intro i known
    cases scheduled with
    | schedule _ schedules =>
      rcases schedules.follows with ⟨stepId, -, follows⟩
      exact (follows.request i).live
  have each : (∀ i, i ∉ sys₁.batch → sys'.scheduler.seqs i = sys₁.scheduler.seqs i) ∧
      ∀ i ∈ sys₁.batch, ∃ tokenId,
        Processed cfg (sys₁.scheduler.seqs i) tokenId (sys'.scheduler.seqs i) := by
    cases processed with
    | @postprocess _ _ _ inFlight _ s' flew _ lengths processes =>
      rcases valid₁.processes_each flew lengths processes with ⟨others, each⟩
      refine ⟨others, ?_⟩
      intro i mem
      rcases each i mem with ⟨tokenId, -, processed⟩
      exact ⟨tokenId, processed⟩
  constructor
  · exact known'.trans known₁
  · exact later
  · intro i known generates
    apply valid₁.postprocess_generates_own uncompressed processed
    · intro inFlight flew ran' result' tokenId event history attends
      cases flying.symm.trans flew
      cases result.symm.trans result'
      rw [sampled, zip_map_eq] at event
      rcases List.mem_map.mp event with ⟨j, -, paired⟩
      cases paired
      rw [same, attends.entries]
      rfl
    · exact scheduled.schedule_generates valid idle known generates
  · rw [stepOutputs_fst]
    rfl
  · intro i known live
    rw [stepOutputs_fst, List.mem_filter, decide_eq_true_eq, ← inBatch]
    by_cases mem : i ∈ sys₁.batch
    · rcases each.2 i mem with ⟨tokenId, processed⟩
      rcases live_or_finished processed with alive | finished
      · exact .inl alive
      · exact .inr ⟨finished, mem, finished⟩
    · rw [each.1 i mem]
      exact .inl ((live₁ i known).mpr live)
  · intro i known ended
    rw [stepOutputs_fst, List.mem_filter, ← inBatch]
    have ended₁ : ¬(sys₁.scheduler.seqs i).status.Live := by
      intro live
      exact ended ((live₁ i known).mp live)
    constructor
    · rw [processed.ended valid₁ enabled (known₁ ▸ known) ended₁]
      exact scheduled.ended valid idle known ended
    · rintro ⟨mem, -⟩
      exact ended₁ (valid₁.batch_live mem).2

/-- A step of a busy engine at rest returns, and the engine is at rest again with less work. -/
theorem Resting.step (resting : engine.Resting cfg mode)
    (busy : engine.system.scheduler.isFinished = false) (sequences : 1 ≤ cfg.maxNumSeqs)
    (tokens : 1 ≤ cfg.maxNumBatchedTokens) (policy : cfg.kvCompressionPolicy = .none)
    (input : StepInput cfg) :
    ∃ engine' stepped, engine.step cfg mode model input = .ok (engine', stepped) ∧
      engine'.Resting cfg mode ∧ engine'.nextSeqId = engine.nextSeqId ∧
      Approaches (engine'.system.work cfg) (engine.system.work cfg) ∧
      Steps cfg model engine.system engine'.system stepped := by
  set sys := engine.system with sys_def
  let silent : System.RoundInput cfg :=
    { env := input.env, closed := input.closed, sample := fun _ => 0,
      elapsedMs := input.elapsedMs, now := input.now }
  rcases resting.resting.schedule busy sequences tokens silent with
    ⟨s₁, ⟨_, isPrefill, _⟩, scheduled, -, -, -⟩
  rcases System.schedule_outcome scheduled with ⟨j, seqs, outcome, launched⟩
  cases launched
  set batch : InFlight := { seqs := j :: seqs, isPrefill, failed := false } with batch_def
  set sys₁ : System := { sys with scheduler := s₁, inFlight := some batch } with sys₁_def
  have idle : sys.Enabled (.schedule input.env) := resting.resting.idle
  have valid := resting.resting.reachable.valid
  have steps₁ := (Py.of_ok scheduled (valid.step idle)).2
  have reachable₁ : System.ReachableUnserved cfg sys₁ :=
    .step resting.resting.reachable idle input.closed scheduled
  have valid₁ := reachable₁.valid
  rcases @System.Valid.ran cfg sys₁ valid₁ batch rfl with ⟨ran, result, same, -, -⟩
  let sample : SeqId → Token := fun i =>
    model i (ModelRunner.attendedEntries cfg ran.kv isPrefill (ran.scheduler.seqs i))
  rcases resting.resting.round busy sequences tokens { silent with sample } with
    ⟨sys', rounded, resting', less⟩
  rw [System.round, scheduled, Py.ok_bind] at rounded
  set tokenIds := batch.seqs.map sample with tokenIds_def
  change sys₁.step cfg (.postprocess tokenIds input.elapsedMs input.now) = .ok sys' at rounded
  have enabled₁ : sys₁.Enabled (.postprocess tokenIds input.elapsedMs input.now : Op cfg) :=
    ⟨batch, rfl, rfl, List.length_map _⟩
  have steps' := (Py.of_ok rounded (valid₁.step enabled₁)).2
  have notPostprocess : ∀ tokenIds elapsedMs now,
      (Op.schedule input.env : Op cfg) ≠ .postprocess tokenIds elapsedMs now := by
    intro _ _ _ same
    cases same
  have monitored : Monitor.Valid cfg mode { engine.monitor with system := sys₁ } :=
    ⟨.step resting.valid.reachable idle trivial scheduled,
      steps₁.keepsMetrics valid idle notPostprocess resting.valid.has, resting.valid.fresh⟩
  rcases @Monitor.Valid.step cfg mode _
    (.engine (.postprocess tokenIds input.elapsedMs input.now)) monitored enabled₁ with
    ⟨monitor', recorded, valid'⟩
  have system' : monitor'.system = sys' := by
    rcases Py.exists_of_bind recorded with ⟨history, -, rest⟩
    rcases Py.exists_of_bind rest with ⟨system, stepped, returned⟩
    rw [show sys₁.step cfg _ = _ from rounded] at stepped
    cases stepped
    cases returned
    rfl
  have uncompressed : Uncompressed sys₁.known.toFinset sys₁.scheduler :=
    reachable₁.uncompressed policy
  have later : Relation.ReflTransGen (System.MovesBy cfg fun _ op => System.Unserved op) sys sys' :=
    .tail (.single ⟨.schedule input.env, input.closed, idle, scheduled⟩)
      ⟨.postprocess tokenIds input.elapsedMs input.now, trivial, enabled₁, rounded⟩
  have steps : Steps cfg model sys sys' (Serve.stepOutputs sys' batch.seqs) :=
    .of_round valid idle steps₁ valid₁ rfl uncompressed result same rfl enabled₁ steps' later
  refine ⟨{ engine with monitor := monitor' }, Serve.stepOutputs monitor'.system batch.seqs,
    ?_, ⟨?_, valid', ?_⟩, rfl, ?_, ?_⟩
  · rw [LLMEngine.step, outcome, Py.ok_bind]
    dsimp only
    rw [show System.run cfg _ _ = _ from result, Py.ok_bind]
    rw [show Monitor.step cfg mode _ _ = _ from recorded, Py.ok_bind]
  · rw [show LLMEngine.system _ = _ from system']
    exact resting'
  · rw [show LLMEngine.system _ = _ from system', steps.known]
    exact resting.fresh
  · rw [show LLMEngine.system { engine with monitor := monitor' } = _ from system']
    exact less
  · rw [show LLMEngine.system { engine with monitor := monitor' } = _ from system', system']
    exact steps

/-! ## The loop over the steps -/

/-- The outputs which the steps have collected of the requests which `generate` serves. -/
structure Collects (cfg : Config) (model : TokenModel) (seqIds : List SeqId) (sys : System)
    (outputs : SeqId → Option (List Token)) : Prop where
  known : ∀ i ∈ seqIds, i ∈ sys.known
  generates : ∀ i ∈ seqIds, Generates cfg (model.next i) (sys.scheduler.seqs i)
  served : ∀ i ∈ seqIds, (sys.scheduler.seqs i).status.Live ∨
    (sys.scheduler.seqs i).status = .finished ∧
      outputs i = some (sys.scheduler.seqs i).completionTokenIds

theorem collect_map (completion : SeqId → List Token) (keys : List SeqId)
    (outputs : SeqId → Option (List Token)) (i : SeqId) :
    collect outputs (keys.map fun j => (j, completion j)) i =
      if i ∈ keys then some (completion i) else outputs i := by
  induction keys generalizing outputs with
  | nil => rfl
  | cons key keys ih =>
    change collect (Function.update outputs key (some (completion key)))
      (keys.map fun j => (j, completion j)) i = _
    rw [ih]
    by_cases later : i ∈ keys
    · rw [if_pos later, if_pos (List.mem_cons_of_mem _ later)]
    · rw [if_neg later]
      by_cases self : i = key
      · subst self
        rw [Function.update_self, if_pos List.mem_cons_self]
      · rw [Function.update_of_ne self, if_neg (List.not_mem_cons_of_ne_of_not_mem self later)]

variable {seqIds : List SeqId} {sys sys' : System} {outputs : SeqId → Option (List Token)}
  {stepped : List (SeqId × List Token)}

theorem Collects.step (collects : Collects cfg model seqIds sys outputs)
    (steps : Steps cfg model sys sys' stepped) :
    Collects cfg model seqIds sys' (collect outputs stepped) where
  known i mem := by
    rw [steps.known]
    exact collects.known i mem
  generates i mem := steps.generates i (collects.known i mem) (collects.generates i mem)
  served i mem := by
    have known := collects.known i mem
    rw [steps.outputs, collect_map]
    by_cases live : (sys.scheduler.seqs i).status.Live
    · rcases steps.live i known live with alive | ⟨finished, output⟩
      · exact .inl alive
      · rw [if_pos output]
        exact .inr ⟨finished, rfl⟩
    · rcases steps.ended i known live with ⟨same, absent⟩
      rw [if_neg absent, same]
      exact collects.served i mem

/-- No request is live when the loop ends. -/
theorem not_live_of_finished (valid : sys.Valid cfg)
    (finished : sys.scheduler.isFinished = true) (known : i ∈ sys.known) :
    ¬(sys.scheduler.seqs i).status.Live := by
  intro live
  have mem := valid.scheduler.mem_requests.mpr ⟨List.mem_toFinset.mpr known, live⟩
  have empty : sys.scheduler.requests = [] := by
    simpa [Scheduler.isFinished, Scheduler.requests, and_assoc] using finished
  rw [empty] at mem
  cases mem

/-- The loop over the steps ends, and it has collected the outputs of all its requests. -/
theorem Resting.runSteps (resting : engine.Resting cfg mode) (sequences : 1 ≤ cfg.maxNumSeqs)
    (tokens : 1 ≤ cfg.maxNumBatchedTokens) (policy : cfg.kvCompressionPolicy = .none)
    (collects : Collects cfg model seqIds engine.system outputs) (inputs : ℕ → StepInput cfg) :
    ∃ fuel engine' outputs', runSteps cfg mode model fuel engine outputs inputs =
        .ok (engine', outputs') ∧ engine'.Resting cfg mode ∧
      engine'.nextSeqId = engine.nextSeqId ∧
      engine'.system.scheduler.isFinished = true ∧
      Relation.ReflTransGen (System.MovesBy cfg fun _ op => System.Unserved op) engine.system
        engine'.system ∧
      Collects cfg model seqIds engine'.system outputs' := by
  have wellFounded := InvImage.wf (fun engine : LLMEngine => engine.system.work cfg)
    approaches_wellFounded
  refine wellFounded.induction engine (C := fun engine => engine.Resting cfg mode →
    ∀ (outputs : SeqId → Option (List Token)) (inputs : ℕ → StepInput cfg),
      Collects cfg model seqIds engine.system outputs →
      ∃ fuel engine' outputs', LLMEngine.runSteps cfg mode model fuel engine outputs inputs =
          .ok (engine', outputs') ∧ engine'.Resting cfg mode ∧
        engine'.nextSeqId = engine.nextSeqId ∧
        engine'.system.scheduler.isFinished = true ∧
        Relation.ReflTransGen (System.MovesBy cfg fun _ op => System.Unserved op) engine.system
          engine'.system ∧
        Collects cfg model seqIds engine'.system outputs') ?_ resting outputs inputs collects
  intro engine ih resting outputs inputs collects
  cases busy : engine.system.scheduler.isFinished with
  | true =>
    refine ⟨1, engine, outputs, ?_, resting, rfl, busy, .refl, collects⟩
    rw [LLMEngine.runSteps, if_pos busy]
  | false =>
    rcases @Resting.step cfg mode model engine resting busy sequences tokens policy (inputs 0) with
      ⟨engine₁, stepped, returned, resting₁, next, less, steps⟩
    rcases ih engine₁ less resting₁ (collect outputs stepped) (fun n => inputs (n + 1))
        (collects.step steps) with
      ⟨fuel, engine', outputs', ran, resting', next', finished, later, collects'⟩
    refine ⟨fuel + 1, engine', outputs', ?_, resting', next'.trans next, finished,
      steps.later.trans later, collects'⟩
    rw [LLMEngine.runSteps, if_neg (Bool.not_eq_true _ ▸ busy), returned, Py.ok_bind]
    exact ran

/-! ## The loop over the prompts -/

/-- A prompt with its sampling parameters which fits into the memory when it is alone. -/
structure Admissible (cfg : Config) (tokenizer : Tokenizer) (prompt : Prompt)
    (params : SamplingParams) : Prop where
  nonempty : prompt.encode tokenizer ≠ []
  produces : 1 ≤ params.maxTokens
  window : (prompt.encode tokenizer).length + params.maxTokens ≤ cfg.numBlocks * cfg.blockSize

/-- A request which waits for its first token. -/
structure Added (cfg : Config) (model : TokenModel) (request : Request) (sys : System) : Prop where
  serves : System.Serves request sys
  generates : Generates cfg (model.next request.seqId) (sys.scheduler.seqs request.seqId)
  live : (sys.scheduler.seqs request.seqId).status.Live

variable {prompt : Prompt} {params : SamplingParams} {qos : RequestQoS}

/-- A request which is added later does not change one which waits. -/
theorem Added.of_same {request : Request} (added : Added cfg model request sys)
    (known : ∀ i ∈ sys.known, i ∈ sys'.known)
    (same : ∀ i ∈ sys.known, sys'.scheduler.seqs i = sys.scheduler.seqs i) :
    Added cfg model request sys' := by
  have mem := added.serves.known
  constructor
  · constructor
    · exact known _ mem
    · rw [same _ mem]
      exact added.serves.prompt
    · rw [same _ mem]
      exact added.serves.maxTokens
    · rw [same _ mem]
      exact added.serves.ignoreEos
  · rw [same _ mem]
    exact added.generates
  · rw [same _ mem]
    exact added.live

theorem Resting.addRequest (resting : engine.Resting cfg mode)
    (admissible : Admissible cfg tokenizer prompt params) (now : ℚ) :
    ∃ engine', engine.addRequest cfg mode tokenizer prompt params qos now =
        .ok (engine', engine.nextSeqId) ∧
      engine'.Resting cfg mode ∧ engine'.nextSeqId = engine.nextSeqId + 1 ∧
      Added cfg model (request tokenizer engine.nextSeqId prompt params qos) engine'.system ∧
      (∀ i ∈ engine.system.known, i ∈ engine'.system.known) ∧
      ∀ i ∈ engine.system.known,
        engine'.system.scheduler.seqs i = engine.system.scheduler.seqs i := by
  set added := request tokenizer engine.nextSeqId prompt params qos with added_def
  set sys := engine.system with sys_def
  have new : added.seqId ∉ sys.known := by
    intro known
    exact lt_irrefl _ (resting.fresh _ known)
  have enabled : sys.Enabled (.add added now : Op cfg) := ⟨admissible.nonempty, new⟩
  rcases @Monitor.Valid.step cfg mode engine.monitor (.engine (.add added now)) resting.valid
    enabled with ⟨monitor', recorded, valid'⟩
  have stepped : sys.step cfg (.add added now) = .ok monitor'.system := by
    rcases Py.exists_of_bind recorded with ⟨history, -, rest⟩
    rcases Py.exists_of_bind rest with ⟨system, stepped, returned⟩
    cases returned
    exact stepped
  have shape : monitor'.system = { sys with
      scheduler := sys.scheduler.add added.toSequence now
      known := sys.known ++ [added.seqId] } := (Except.ok.inj stepped).symm
  have self : monitor'.system.scheduler.seqs added.seqId =
      added.toSequence.markArrived sys.scheduler.stepId now := by
    rw [shape]
    exact Function.update_self _ _ _
  have others : ∀ i ∈ sys.known, monitor'.system.scheduler.seqs i = sys.scheduler.seqs i := by
    intro i known
    rw [shape]
    apply Function.update_of_ne
    rintro rfl
    exact new known
  have known : monitor'.system.known = sys.known ++ [added.seqId] := by
    rw [shape]
  have fits : (added.toSequence.markArrived sys.scheduler.stepId now).FitsAlone cfg :=
    ⟨admissible.produces, admissible.window⟩
  refine ⟨{ monitor := monitor', nextSeqId := engine.nextSeqId + 1 }, ?_,
    ⟨⟨?_, ?_, ?_⟩, valid', ?_⟩, rfl, ⟨.of_add stepped, ?_, ?_⟩, ?_, others⟩
  · have nonempty : added.prompt ≠ [] := admissible.nonempty
    rw [LLMEngine.addRequest, if_neg nonempty, recorded, Py.ok_bind]
  · exact .step resting.resting.reachable enabled trivial stepped
  · change monitor'.system.inFlight = none
    rw [shape]
    exact resting.resting.idle
  · intro i mem live
    change i ∈ monitor'.system.known.toFinset at mem
    rw [List.mem_toFinset, known, List.mem_append, List.mem_singleton] at mem
    change (monitor'.system.scheduler.seqs i).FitsAlone cfg
    change (monitor'.system.scheduler.seqs i).status.Live at live
    rcases mem with old | rfl
    · rw [others i old] at live ⊢
      exact resting.resting.fits i (List.mem_toFinset.mpr old) live
    · rw [self]
      exact fits
  · intro i mem
    change i ∈ monitor'.system.known at mem
    rw [known, List.mem_append, List.mem_singleton] at mem
    rcases mem with old | rfl
    · exact (resting.fresh i old).trans (Nat.lt_succ_self _)
    · exact Nat.lt_succ_self _
  · change Generates cfg _ (monitor'.system.scheduler.seqs added.seqId)
    rw [self]
    exact System.generates_new admissible.produces _ _
  · change (monitor'.system.scheduler.seqs added.seqId).status.Live
    rw [self]
    trivial
  · intro i old
    change i ∈ monitor'.system.known
    rw [known]
    exact List.mem_append_left _ old

/-- The loop over the prompts adds a request for each of them. -/
theorem Resting.addRequests (resting : engine.Resting cfg mode)
    {requests : List (Prompt × SamplingParams × RequestQoS)}
    (admissible : ∀ request ∈ requests, Admissible cfg tokenizer request.1 request.2.1)
    (arrivals : ℕ → ℚ) :
    ∃ engine', engine.addRequests cfg mode tokenizer requests arrivals =
        .ok (engine', List.range' engine.nextSeqId requests.length) ∧
      engine'.Resting cfg mode ∧
      (∀ i ∈ engine.system.known, i ∈ engine'.system.known) ∧
      (∀ i ∈ engine.system.known,
        engine'.system.scheduler.seqs i = engine.system.scheduler.seqs i) ∧
      ∀ k prompt params qos, requests[k]? = some (prompt, params, qos) →
        Added cfg model (request tokenizer (engine.nextSeqId + k) prompt params qos)
          engine'.system := by
  induction requests generalizing engine arrivals with
  | nil =>
    refine ⟨engine, rfl, resting, fun _ => id, fun _ _ => rfl, ?_⟩
    intro k prompt params qos found
    cases found
  | cons first rest ih =>
    rcases first with ⟨prompt, params, qos⟩
    rcases @Resting.addRequest cfg mode model tokenizer engine prompt params qos resting
      (admissible _ List.mem_cons_self) (arrivals 0) with
      ⟨engine₁, first, resting₁, next, added, known₁, same₁⟩
    rcases ih resting₁ (fun request mem => admissible request (List.mem_cons_of_mem _ mem))
      (fun n => arrivals (n + 1)) with ⟨engine', later, resting', known', same', addedLater⟩
    refine ⟨engine', ?_, resting', fun i mem => known' i (known₁ i mem), ?_, ?_⟩
    · rw [LLMEngine.addRequests, first, Py.ok_bind]
      dsimp only
      rw [later, Py.ok_bind, next]
      rfl
    · intro i mem
      rw [same' i (known₁ i mem), same₁ i mem]
    · intro k prompt' params' qos' found
      cases k with
      | zero =>
        cases found
        exact added.of_same known' same'
      | succ k =>
        have found' := addedLater k prompt' params' qos' found
        rw [next, Nat.add_right_comm] at found'
        exact found'

/-! ## The results -/

/-- A result is the completion which the model generates for one prompt alone. -/
structure Answers (cfg : Config) (model : TokenModel) (tokenizer : Tokenizer) (request : Request)
    (result : GenerationResult) : Prop where
  tokenIds : result.tokenIds = complete (model.next request.seqId)
    (stopsAt cfg.eos request.ignoreEos) request.maxTokens request.prompt
  text : result.text = tokenizer.decode result.tokenIds
  seqId : result.metrics.seqId = request.seqId
  promptTokens : result.metrics.promptTokens = request.prompt.length
  completionTokens : result.metrics.completionTokens = result.tokenIds.length

/-- The fields of the metrics which count tokens. -/
theorem metrics_counts {seq : Sequence} {metrics : RequestMetrics}
    (measured : seq.metrics = .ok metrics) : metrics.seqId = seq.seqId ∧
      metrics.promptTokens = seq.numPromptTokens ∧
      metrics.completionTokens = seq.completionTokenIds.length := by
  rw [Sequence.metrics] at measured
  split at measured
  · cases measured
    refine ⟨rfl, rfl, ?_⟩
    rw [Sequence.completionTokenIds, List.length_drop]
    rfl
  · cases measured

/-- The result of a request which has been served. -/
theorem Resting.result (resting : engine.Resting cfg mode)
    (finished : engine.system.scheduler.isFinished = true)
    (collects : Collects cfg model seqIds engine.system outputs) {request : Request}
    (serves : System.Serves request engine.system) (mem : request.seqId ∈ seqIds) :
    ∃ result, engine.result tokenizer outputs request.seqId = .ok result ∧
      Answers cfg model tokenizer request result := by
  have valid := resting.resting.reachable.valid
  have known := serves.known
  have dead := not_live_of_finished valid finished known
  rcases (collects.served _ mem).resolve_left dead with ⟨ended, output⟩
  have completion := (collects.generates _ mem).finished ended
  rw [completeAlone, serves.prompt, serves.maxTokens, serves.ignoreEos] at completion
  have has := resting.valid.has
  rcases Option.ne_none_iff_exists'.mp (has.measured _ known ended) with ⟨metrics, entry⟩
  rcases metrics_counts ((has.byId _ metrics).mp entry).2.2 with ⟨-, promptTokens, completionTokens⟩
  have wellFormed := valid.scheduler.request _ (List.mem_toFinset.mpr known)
  have promptLength : (engine.system.scheduler.seqs request.seqId).numPromptTokens =
      request.prompt.length := by
    rw [← serves.prompt, Sequence.promptTokenIds, List.length_take_of_le wellFormed.prompt_le]
  let tokenIds := (engine.system.scheduler.seqs request.seqId).completionTokenIds
  refine ⟨{ text := tokenizer.decode tokenIds, tokenIds, metrics }, ?_, completion.symm, rfl,
    has.named _ _ entry, promptTokens.trans promptLength, completionTokens⟩
  rw [LLMEngine.result, output, entry]

end LLMEngine

end NanoVllm
