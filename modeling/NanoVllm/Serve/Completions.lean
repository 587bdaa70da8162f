import NanoVllm.Engine.Refinement
import NanoVllm.Serve.Actions

/-!
# What a client of the worker receives

However clients submit and cancel requests and whatever fails in between, a request which finishes
has the completion which the model generates for its prompt alone.
-/

namespace NanoVllm.Serve

open Autoregression

variable {M : Type} {config : EngineConfig} {cfg : Config} {f : List Token → Token}
  {decode : List Token → String} {streams : HandleId → Bool} {s s' : State M}
  {sys sys' : System} {action : Action M}

/-- The arguments with which a handle is submitted, once its messages are tokens. -/
structure Submission where
  prompt : List Token
  maxTokens : ℕ
  ignoreEos : Bool
  qos : RequestQoS

/-- The request which `_admit` adds for a handle. -/
def Submission.request (submission : Submission) (seqId : SeqId) : Request where
  seqId := seqId
  prompt := submission.prompt
  maxTokens := submission.maxTokens
  ignoreEos := submission.ignoreEos
  qos := submission.qos
  arrivalTime := none

/--
The runs of the worker and its engine in which the model samples the tokens, and in which the
worker adds the request which a handle was submitted with.
-/
inductive SampledRun (config : EngineConfig) (cfg : Config) (f : List Token → Token)
    (decode : List Token → String) (streams : HandleId → Bool)
    (submissions : HandleId → Submission) : List (Action M) → State M → System → Prop
  | initial : SampledRun config cfg f decode streams submissions [] .initial (.init cfg)
  | step {actions : List (Action M)} {s s' : State M} {sys sys' : System} {action : Action M}
      (run : SampledRun config cfg f decode streams submissions actions s sys)
      (serves : Serves config cfg decode streams s sys action sys')
      (stepped : next config s action = some s')
      (sampled : Relation.ReflTransGen (System.MovesBy cfg (System.SampledBy cfg f)) sys sys')
      (submits : ∀ stream maxTokens, action = .submit stream maxTokens →
        maxTokens = (submissions s.submitted).maxTokens)
      (adds : ∀ queued promptTokens seqId, s.phase = .adding queued →
        action = .worker (.admitted (.ok promptTokens) (.ok seqId)) →
        ∃ now, sys.step cfg (.add ((submissions queued.handle).request seqId) now) = .ok sys') :
      SampledRun config cfg f decode streams submissions (actions ++ [action]) s' sys'

variable {submissions : HandleId → Submission}

theorem SampledRun.servingRun {actions : List (Action M)}
    (run : SampledRun config cfg f decode streams submissions actions s sys) :
    ServingRun config cfg decode streams actions s sys := by
  induction run with
  | initial => exact .initial
  | step _ serves stepped _ _ _ ih => exact .step ih serves stepped

theorem SampledRun.engine {actions : List (Action M)}
    (run : SampledRun config cfg f decode streams submissions actions s sys) :
    System.ReachableBy cfg (System.SampledBy cfg f) sys := by
  induction run with
  | initial => exact .init
  | step _ _ _ sampled _ _ ih => exact ih.later sampled

/-! ## The requests of the worker in the engine -/

/-- An active request is the one which its handle was submitted with. -/
structure Admitted (submissions : HandleId → Submission) (sys : System) (state : ActiveRequest) :
    Prop where
  serves : System.Serves ((submissions state.handle).request state.seqId) sys
  limit : state.queued.maxTokens = (submissions state.handle).maxTokens
  promptTokens : state.promptTokens = (submissions state.handle).prompt.length

/-- A request has finished with some tokens. -/
structure FinishedWith (sys : System) (seqId : SeqId) (tokenIds : List Token) : Prop where
  known : seqId ∈ sys.known
  status : (sys.scheduler.seqs seqId).status = .finished
  tokens : tokenIds = (sys.scheduler.seqs seqId).completionTokenIds

/-- The result of a request is the completion of its prompt. -/
structure Completes (config : EngineConfig) (cfg : Config) (f : List Token → Token)
    (decode : List Token → String) (submission : Submission) (text : String)
    (tokenIds : List Token) (promptTokens : ℕ) (reason : String) : Prop where
  completion : tokenIds = complete f (stopsAt cfg.eos submission.ignoreEos) submission.maxTokens
    submission.prompt
  text : text = decode tokenIds
  promptTokens : promptTokens = submission.prompt.length
  reason : reason = if tokenIds.getLast? = config.eos then "stop" else "length"

/-- Where the requests of the worker are. -/
structure Answered (config : EngineConfig) (cfg : Config) (f : List Token → Token)
    (decode : List Token → String) (submissions : HandleId → Submission) (s : State M)
    (sys : System) : Prop where
  waits : ∀ queued ∈ s.waiting, queued.maxTokens = (submissions queued.handle).maxTokens
  active : ∀ state ∈ s.active, Admitted submissions sys state
  outputs : ∀ output ∈ s.phase.outputsLeft, FinishedWith sys output.1 output.2
  finishing : ∀ state tokenIds, s.phase.finishedRequest = some (state, tokenIds) →
    Admitted submissions sys state ∧ FinishedWith sys state.seqId tokenIds
  text : ∀ state tokenIds text outputs, s.phase = .finishMetrics state tokenIds text outputs →
    text = decode tokenIds
  finished : ∀ handle text tokenIds promptTokens reason metrics,
    .finished text tokenIds promptTokens reason metrics ∈ s.events handle →
    Completes config cfg f decode (submissions handle) text tokenIds promptTokens reason

section Later

variable {Allowed : System → Op cfg → Prop} {state : ActiveRequest} {seqId : SeqId}
  {tokenIds : List Token}

theorem Admitted.later (admitted : Admitted submissions sys state)
    (reachable : System.ReachableBy cfg Allowed sys)
    (later : Relation.ReflTransGen (System.MovesBy cfg Allowed) sys sys') :
    Admitted submissions sys' state :=
  ⟨admitted.serves.later reachable later, admitted.limit, admitted.promptTokens⟩

theorem FinishedWith.moves (finished : FinishedWith sys seqId tokenIds) (valid : sys.Valid cfg)
    (moves : System.MovesBy cfg Allowed sys sys') : FinishedWith sys' seqId tokenIds := by
  rcases moves with ⟨op, -, enabled, stepped⟩
  rcases Py.of_ok stepped (valid.step enabled) with ⟨-, steps⟩
  have dead : ¬(sys.scheduler.seqs seqId).status.Live := by
    rw [finished.status]
    exact id
  have same := steps.ended valid enabled finished.known dead
  constructor
  · rcases steps.known with unchanged | ⟨request, now, -, more, -⟩
    · exact unchanged ▸ finished.known
    · exact more ▸ List.mem_append_left _ finished.known
  · rw [same]
    exact finished.status
  · rw [same]
    exact finished.tokens

theorem FinishedWith.later (finished : FinishedWith sys seqId tokenIds)
    (reachable : System.ReachableBy cfg Allowed sys)
    (later : Relation.ReflTransGen (System.MovesBy cfg Allowed) sys sys') :
    FinishedWith sys' seqId tokenIds := by
  induction later with
  | refl => exact finished
  | tail later moves ih => exact ih.moves (reachable.later later).valid moves

/-- The engine goes on without the worker. -/
theorem Answered.later (answered : Answered config cfg f decode submissions s sys)
    (reachable : System.ReachableBy cfg Allowed sys)
    (later : Relation.ReflTransGen (System.MovesBy cfg Allowed) sys sys') :
    Answered config cfg f decode submissions s sys' where
  waits := answered.waits
  active state mem := (answered.active state mem).later reachable later
  outputs output mem := (answered.outputs output mem).later reachable later
  finishing state tokenIds phase := by
    rcases answered.finishing state tokenIds phase with ⟨admitted, finished⟩
    exact ⟨admitted.later reachable later, finished.later reachable later⟩
  text := answered.text
  finished := answered.finished

end Later

/-- The outputs of a step are finished requests with their completions. -/
theorem EngineStep.outputs_finished {events : List (SeqId × Token)}
    {outputs : List (SeqId × List Token)}
    (stepped : EngineStep cfg sys (.ok (events, outputs)) sys')
    (reachable : System.Reachable cfg sys) :
    ∀ output ∈ outputs, FinishedWith sys' output.1 output.2 := by
  cases stepped with
  | @returns sys₁ sys₂ batch tokenIds elapsedMs now loops flying enabled stepped =>
    have valid₁ := (loops.reachable reachable).valid
    have known : sys'.known = sys₁.known := by
      cases (Py.of_ok stepped (valid₁.step enabled)).2
      rfl
    intro output mem
    rcases List.mem_map.mp mem with ⟨i, inside, rfl⟩
    rw [List.mem_filter, decide_eq_true_eq] at inside
    refine ⟨?_, inside.2, rfl⟩
    rw [known]
    exact (valid₁.batch_mem flying inside.1).1

/-! ## One action -/

/-- The result of a request which has finished with the tokens of the model. -/
theorem Admitted.completes {state : ActiveRequest} {tokenIds : List Token}
    (admitted : Admitted submissions sys state) (finished : FinishedWith sys state.seqId tokenIds)
    (generates : Generates cfg f (sys.scheduler.seqs state.seqId))
    (positive : 1 ≤ (sys.scheduler.seqs state.seqId).maxTokens)
    (eos : config.eos = some cfg.eos) : Completes config cfg f decode (submissions state.handle)
      (decode tokenIds) tokenIds state.promptTokens (finishReason config state tokenIds) := by
  have serves := admitted.serves
  have completion := generates.finished finished.status
  have maxTokens : (sys.scheduler.seqs state.seqId).maxTokens =
      (submissions state.handle).maxTokens := serves.maxTokens
  have ignoreEos : (sys.scheduler.seqs state.seqId).ignoreEos =
      (submissions state.handle).ignoreEos := serves.ignoreEos
  have prompt : (sys.scheduler.seqs state.seqId).promptTokenIds =
      (submissions state.handle).prompt := serves.prompt
  rw [completeAlone, maxTokens, ignoreEos, prompt, ← finished.tokens] at completion
  rw [maxTokens] at positive
  refine ⟨completion.symm, rfl, admitted.promptTokens, ?_⟩
  rcases @complete_ends _ f (stopsAt cfg.eos (submissions state.handle).ignoreEos) _
    (submissions state.handle).prompt positive with ⟨last, ends, either⟩
  rw [completion, Option.mem_def] at ends
  rw [completion] at either
  have nonempty : tokenIds ≠ [] := by
    rintro rfl
    cases ends
  rw [finishReason]
  by_cases stopped : tokenIds.getLast? = config.eos
  · rw [if_pos ⟨nonempty, stopped⟩, if_pos stopped]
  · rw [if_neg (stopped ·.2), if_neg stopped, if_pos]
    rw [admitted.limit]
    rcases either with stops | limit
    · rw [ends, eos] at stopped
      rw [stopsAt, Bool.and_eq_true, decide_eq_true_eq] at stops
      exact absurd (congrArg some stops.2) stopped
    · exact limit.ge

/-- An action of the worker once the engine has answered. -/
theorem Answered.does (answered : Answered config cfg f decode submissions s sys')
    (does : Does config s action s') (reachable : System.Reachable cfg sys)
    (serves : Serves config cfg decode streams s sys action sys')
    (submits : ∀ stream maxTokens, action = .submit stream maxTokens →
      maxTokens = (submissions s.submitted).maxTokens)
    (adds : ∀ queued promptTokens seqId, s.phase = .adding queued →
      action = .worker (.admitted (.ok promptTokens) (.ok seqId)) →
      ∃ now, sys.step cfg (.add ((submissions queued.handle).request seqId) now) = .ok sys')
    (generates : ∀ i ∈ sys'.known, Generates cfg f (sys'.scheduler.seqs i))
    (positive : ∀ i ∈ sys'.known, 1 ≤ (sys'.scheduler.seqs i).maxTokens)
    (eos : config.eos = some cfg.eos) :
    Answered config cfg f decode submissions s' sys' := by
  cases does with
  | shrinks shrinks =>
    constructor
    · exact fun queued mem => answered.waits queued (shrinks.waiting queued mem)
    · intro state mem
      rcases shrinks.active state mem with ⟨old, mem', queued, seqId, promptTokens⟩
      have admitted := answered.active old mem'
      have handle : state.handle = old.handle := congrArg QueuedRequest.handle queued
      refine ⟨?_, ?_, ?_⟩
      · rw [handle, seqId]
        exact admitted.serves
      · rw [handle, queued]
        exact admitted.limit
      · rw [handle, promptTokens]
        exact admitted.promptTokens
    · exact fun output mem => answered.outputs output (shrinks.outputs output mem)
    · intro state tokenIds phase
      rw [shrinks.finishes] at phase
      cases phase
    · intro state tokenIds text outputs phase
      have finishes := shrinks.finishes
      rw [phase] at finishes
      cases finishes
    · intro handle text tokenIds promptTokens reason metrics mem
      exact answered.finished _ _ _ _ _ _ (shrinks.finished _ _ mem rfl)
  | client waiting active phase events =>
    constructor
    · intro queued mem
      rcases waiting queued mem with old | ⟨stream, maxTokens, same, rfl⟩
      · exact answered.waits queued old
      · exact submits stream maxTokens same
    · rw [active]
      exact answered.active
    · rw [phase]
      exact answered.outputs
    · rw [phase]
      exact answered.finishing
    · rw [phase]
      exact answered.text
    · rw [events]
      exact answered.finished
  | @adds queued promptTokens seqId phase =>
    rcases adds queued promptTokens seqId phase rfl with ⟨now, stepped⟩
    have added := System.Serves.of_add stepped
    have waits := answered.waits queued (by simp [State.waiting, phase, Phase.queued])
    constructor
    · exact fun other mem => answered.waits other (mem_waiting mem rfl rfl)
    · intro state mem
      rcases List.mem_append.mp mem with old | new
      · exact answered.active state old
      · rw [List.mem_singleton.mp new]
        refine ⟨added, waits, ?_⟩
        cases serves with
        | quiet quiet => cases quiet
        | add phase' _ named prompt _ _ stepped' =>
          cases phase.symm.trans phase'
          subst named
          have other := System.Serves.of_add stepped'
          rw [← prompt, ← other.prompt]
          exact congrArg List.length added.prompt
        | client client => exact absurd rfl (client _)
    · intro output left
      cases left
    · intro state tokenIds phase'
      cases phase'
    · intro state tokenIds text outputs phase'
      cases phase'
    · exact answered.finished
  | @steps events outputs phase =>
    have left : ∀ output ∈ outputs, FinishedWith sys' output.1 output.2 := by
      cases serves with
      | quiet quiet => cases quiet
      | step stepped => exact stepped.outputs_finished reachable
      | client client => exact absurd rfl (client _)
    refine ⟨?_, answered.active, left, ?_, ?_, answered.finished⟩
    · exact fun other mem => answered.waits other (mem_waiting mem rfl rfl)
    · intro state tokenIds phase'
      cases phase'
    · intro state tokenIds text outputs phase'
      cases phase'
  | @takes seqId tokenIds outputs state phase found =>
    rcases getState_eq found with ⟨mem, rfl⟩
    have left := answered.outputs
    rw [phase] at left
    refine ⟨?_, ?_, ?_, ?_, ?_, answered.finished⟩
    · exact fun other mem => answered.waits other (mem_waiting mem rfl rfl)
    · exact fun other inside => answered.active other (dropState_sublist.subset inside)
    · exact fun output inside => left output (List.mem_cons_of_mem _ inside)
    · intro state' tokenIds' phase'
      cases phase'
      exact ⟨answered.active state mem, left _ List.mem_cons_self⟩
    · intro state' tokenIds' text outputs' phase'
      cases phase'
  | @decodes state tokenIds outputs text _ phase waiting active phase' finished =>
    have left := answered.outputs
    rw [phase] at left
    have text_eq : text = decode tokenIds := by
      cases serves with
      | quiet _ decodes => exact decodes state tokenIds outputs phase
      | client client => exact absurd rfl (client _)
    constructor
    · rw [waiting]
      exact answered.waits
    · rw [active]
      exact answered.active
    · rw [phase']
      exact left
    · rw [phase']
      intro state' tokenIds' same
      cases same
      exact answered.finishing state tokenIds (by rw [phase]; rfl)
    · rw [phase']
      intro state' tokenIds' text' outputs' same
      cases same
      exact text_eq
    · intro handle text' tokenIds' promptTokens reason metrics mem
      exact answered.finished _ _ _ _ _ _ (finished _ _ mem rfl)
  | @finishes state tokenIds text outputs metrics phase =>
    have left := answered.outputs
    rw [phase] at left
    rcases answered.finishing state tokenIds (by rw [phase]; rfl) with ⟨admitted, ended⟩
    have text_eq := answered.text state tokenIds text outputs phase
    refine ⟨?_, answered.active, left, ?_, ?_, ?_⟩
    · exact fun other mem => answered.waits other (mem_waiting mem rfl rfl)
    · intro state' tokenIds' phase'
      cases phase'
    · intro state' tokenIds' text' outputs' phase'
      cases phase'
    · intro handle text' tokenIds' promptTokens reason metrics' mem
      rcases State.mem_put.mp mem with old | ⟨rfl, same⟩
      · exact answered.finished _ _ _ _ _ _ old
      · cases same
        rw [text_eq]
        exact admitted.completes ended (generates _ ended.known) (positive _ ended.known) eos

/-! ## Every run -/

/-- Where the requests of the worker are, in every run in which the model samples the tokens. -/
theorem SampledRun.answered {actions : List (Action M)} (policy : cfg.kvCompressionPolicy = .none)
    (eos : config.eos = some cfg.eos)
    (run : SampledRun config cfg f decode streams submissions actions s sys) :
    Answered config cfg f decode submissions s sys := by
  induction run with
  | initial =>
    constructor
    · intro queued mem
      cases mem
    · intro state mem
      cases mem
    · intro output mem
      cases mem
    · intro state tokenIds phase
      cases phase
    · intro state tokenIds text outputs phase
      cases phase
    · intro handle text tokenIds promptTokens reason metrics mem
      cases mem
  | @step actions s s' sys sys' action run serves stepped sampled submits adds ih =>
    have reachable := run.engine
    have reachable' := reachable.later sampled
    have positive : ∀ i ∈ sys'.known, 1 ≤ (sys'.scheduler.seqs i).maxTokens := by
      refine @System.ReachableBy.settings cfg sys' _ (1 ≤ ·.maxTokens) reachable' ?_ ?_
      · intro sys request now allowed
        exact allowed
      · intro seq seq' same positive
        rw [same.maxTokens]
        exact positive
    exact (ih.later reachable sampled).does (next_does stepped) run.servingRun.engine serves submits
      adds (reachable'.generates policy) positive eos

/-- One prompt of one token for every handle. -/
def onePrompt (_ : HandleId) : Submission where
  prompt := [1]
  maxTokens := 2
  ignoreEos := false
  qos := { priority := 0, ttftSloMs := none, tpotSloMs := none, e2eSloMs := none }

/-- The token limit of an action which submits a request. -/
def limit? : Action M → Option ℕ
  | .submit _ maxTokens => some maxTokens
  | _ => none

theorem SampledRun.silently {before : List (Action M)} (actions : List (Action M))
    (run : SampledRun config cfg f decode (fun _ => true) onePrompt before s sys)
    (silent : ∀ action ∈ actions, action.silent = true)
    (limits : ∀ action ∈ actions, ∀ limit ∈ limit? action, limit = 2)
    (ran : runActions config s actions = some s') :
    SampledRun config cfg f decode (fun _ => true) onePrompt (before ++ actions) s' sys := by
  induction actions generalizing s before with
  | nil =>
    cases ran
    rwa [List.append_nil]
  | cons action actions ih =>
    rcases Option.bind_eq_some_iff.mp ran with ⟨middle, stepped, rest⟩
    have quiet := silent action List.mem_cons_self
    rw [List.append_cons]
    apply ih _ (fun other mem => silent other (List.mem_cons_of_mem _ mem))
      (fun other mem => limits other (List.mem_cons_of_mem _ mem)) rest
    apply run.step (.ofSilent quiet) stepped .refl
    · intro stream maxTokens same
      apply limits action List.mem_cons_self
      rw [same]
      rfl
    · rintro queued promptTokens seqId - rfl
      cases quiet

end NanoVllm.Serve
