import NanoVllm.Metrics.History
import NanoVllm.Serve.ServingStack

/-!
# The engine

`LLMEngine` without a storage backend: `add_request`, `step` and `generate`. The tokenizer is
third-party code and the transformer computes in floating point, so both are parameters. What the
model sees of a request are the KV entries of the slots which its block table maps; the temperature
and the random draws of a request enter through its identifier.
-/

namespace NanoVllm

/-- The tokenizer. -/
structure Tokenizer where
  encode : String → List Token
  decode : List Token → String

/-- A prompt: a text or its tokens. -/
inductive Prompt where
  | text (content : String)
  | tokens (tokenIds : List Token)
  deriving DecidableEq, Repr

/-- The tokens of a prompt. -/
def Prompt.encode (tokenizer : Tokenizer) : Prompt → List Token
  | .text content => tokenizer.encode content
  | .tokens tokenIds => tokenIds

/-- `SamplingParams`, whose constructor checks the temperature. -/
structure SamplingParams where
  temperature : ℚ
  maxTokens : ℕ
  ignoreEos : Bool
  temperature_gt : 1 / 10 ^ 10 < temperature

/-- `RequestQoS()`. -/
def RequestQoS.bestEffort : RequestQoS where
  priority := 0
  ttftSloMs := none
  tpotSloMs := none
  e2eSloMs := none

/-- An argument of `generate`: one value for all prompts, or a list with a value for each. -/
inductive OneOrMany (α : Type) where
  | one (value : α)
  | many (values : List α)

/-- The values for `n` prompts. -/
def OneOrMany.values {α : Type} (name : String) (n : ℕ) : OneOrMany α → Py (List α)
  | .one value => .ok (List.replicate n value)
  | .many values =>
      if values.length ≠ n then
        .error (.valueError (name ++ " must have the same length as prompts"))
      else .ok values

/-- The transformer with its sampler: the next token of a request from the entries it attends to. -/
abbrev TokenModel := SeqId → List (Option KvSlot) → Token

/-- The entries of the slots which a request attends to in a run, through its block table. -/
def ModelRunner.attendedEntries (cfg : Config) (kv : KvStore) (isPrefill : Bool)
    (seq : Sequence) : List (Option KvSlot) :=
  (List.range (ModelRunner.contextLen isPrefill seq)).map fun position =>
    match seq.blockTable[position / cfg.blockSize]? with
    | none => none
    | some blockId => kv (blockId * cfg.blockSize + position % cfg.blockSize)

/-- The entries of a history in a memory of its own. -/
def ownEntries (history : List Token) : List (Option KvSlot) :=
  (List.range history.length).map fun position =>
    some { prefixTokens := history.take (position + 1), taint := none }

/-- What `step` reads from outside when there is no storage backend. -/
structure StepInput (cfg : Config) where
  env : ScheduleEnv cfg
  closed : env.service = .absent cfg
  elapsedMs : ℚ
  now : ℚ

/-- `LLMEngine` with the counter of `Sequence`. -/
structure LLMEngine where
  monitor : Monitor
  nextSeqId : SeqId

/-- One result of `generate`. -/
structure GenerationResult where
  text : String
  tokenIds : List Token
  metrics : RequestMetrics
  deriving DecidableEq, Repr

namespace LLMEngine

/-- The system below the engine. -/
abbrev system (engine : LLMEngine) : System := engine.monitor.system

/-- An engine before its first request. -/
def init (cfg : Config) (nextSeqId : SeqId) : LLMEngine where
  monitor := .init cfg
  nextSeqId := nextSeqId

variable (cfg : Config) (mode : MetricsSummaryMode) (model : TokenModel) (tokenizer : Tokenizer)

/-- The request which `add_request` makes of its arguments. -/
def request (seqId : SeqId) (prompt : Prompt) (params : SamplingParams) (qos : RequestQoS) :
    Request where
  seqId := seqId
  prompt := prompt.encode tokenizer
  maxTokens := params.maxTokens
  ignoreEos := params.ignoreEos
  qos := qos
  arrivalTime := none

/-- `add_request`, whose `Sequence` reads the last token of the prompt. -/
def addRequest (engine : LLMEngine) (prompt : Prompt) (params : SamplingParams) (qos : RequestQoS)
    (now : ℚ) : Py (LLMEngine × SeqId) :=
  let request := request tokenizer engine.nextSeqId prompt params qos
  if request.prompt = [] then .error (.indexError "list index out of range")
  else do
    let monitor ← engine.monitor.step cfg mode (.engine (.add request now))
    .ok ({ monitor, nextSeqId := engine.nextSeqId + 1 }, engine.nextSeqId)

/-- `step`, returning its outputs. Without a storage backend no restore is pending. -/
def step (engine : LLMEngine) (input : StepInput cfg) :
    Py (LLMEngine × List (SeqId × List Token)) := do
  let (scheduler, outcome) ← engine.system.scheduler.schedule cfg input.env
  match outcome with
  | .batch (i :: seqs) isPrefill => do
      let batch : InFlight := { seqs := i :: seqs, isPrefill, failed := false }
      let launched := { engine.system with scheduler, inFlight := some batch }
      let ran ← launched.run cfg batch
      let tokenIds := batch.seqs.map fun j =>
        model j (ModelRunner.attendedEntries cfg ran.kv isPrefill (ran.scheduler.seqs j))
      let monitor ← { engine.monitor with system := launched }.step cfg mode
        (.engine (.postprocess tokenIds input.elapsedMs input.now))
      .ok ({ engine with monitor }, Serve.stepOutputs monitor.system batch.seqs)
  | .batch [] _ => .error (.runtimeError "scheduler produced no runnable requests")
  | .retry => .error (.runtimeError "scheduler retry failed to make progress")
  | .noRunnable => .error (.runtimeError "no runnable request fits in the available KV cache")

/-- The loop of `generate` which adds the requests. -/
def addRequests : LLMEngine → List (Prompt × SamplingParams × RequestQoS) → (ℕ → ℚ) →
    Py (LLMEngine × List SeqId)
  | engine, [], _ => .ok (engine, [])
  | engine, (prompt, params, qos) :: requests, arrivals => do
      let (engine, seqId) ← engine.addRequest cfg mode tokenizer prompt params qos (arrivals 0)
      let (engine, seqIds) ← addRequests engine requests fun n => arrivals (n + 1)
      .ok (engine, seqId :: seqIds)

/-- `outputs[seq_id] = token_ids` for the outputs of a step. -/
def collect (outputs : SeqId → Option (List Token)) (stepped : List (SeqId × List Token)) :
    SeqId → Option (List Token) :=
  stepped.foldl (fun outputs output => Function.update outputs output.1 (some output.2)) outputs

/-- The loop of `generate` which runs the steps. -/
def runSteps : ℕ → LLMEngine → (SeqId → Option (List Token)) → (ℕ → StepInput cfg) →
    Py (LLMEngine × (SeqId → Option (List Token)))
  | 0, _, _, _ => .error .loopLimit
  | fuel + 1, engine, outputs, inputs =>
      if engine.system.scheduler.isFinished then .ok (engine, outputs)
      else do
        let (engine, stepped) ← engine.step cfg mode model (inputs 0)
        runSteps fuel engine (collect outputs stepped) fun n => inputs (n + 1)

/-- The result of one request. -/
def result (engine : LLMEngine) (outputs : SeqId → Option (List Token)) (seqId : SeqId) :
    Py GenerationResult :=
  match outputs seqId, engine.monitor.history.metricsBySeqId seqId with
  | none, _ => .error (.keyError "outputs")
  -- an `AttributeError`, which no call reaches
  | some _, none => .error (.runtimeError "'NoneType' object has no attribute 'to_dict'")
  | some tokenIds, some metrics => .ok { text := tokenizer.decode tokenIds, tokenIds, metrics }

/-- The results of all requests, in the order of their identifiers. -/
def results (engine : LLMEngine) (outputs : SeqId → Option (List Token)) :
    List SeqId → Py (List GenerationResult)
  | [] => .ok []
  | seqId :: seqIds => do
      let first ← engine.result tokenizer outputs seqId
      let rest ← results engine outputs seqIds
      .ok (first :: rest)

/-- The arguments of `generate`, one for each prompt. -/
def arguments (prompts : List Prompt) (params : OneOrMany SamplingParams)
    (qos : Option (OneOrMany RequestQoS)) : Py (List (Prompt × SamplingParams × RequestQoS)) := do
  let params ← params.values "sampling_params" prompts.length
  let qos ← match qos with
    | none => .ok (List.replicate prompts.length .bestEffort)
    | some qos => qos.values "request_qos" prompts.length
  .ok (prompts.zip (params.zip qos))

/-- `generate`. -/
def generate (fuel : ℕ) (engine : LLMEngine) (prompts : List Prompt)
    (params : OneOrMany SamplingParams) (qos : Option (OneOrMany RequestQoS)) (arrivals : ℕ → ℚ)
    (inputs : ℕ → StepInput cfg) : Py (LLMEngine × List GenerationResult) := do
  let requests ← arguments prompts params qos
  let (engine, seqIds) ← engine.addRequests cfg mode tokenizer requests arrivals
  let (engine, outputs) ← runSteps cfg mode model fuel engine (fun _ => none) inputs
  let results ← engine.results tokenizer outputs seqIds
  .ok (engine, results)

end LLMEngine

end NanoVllm
