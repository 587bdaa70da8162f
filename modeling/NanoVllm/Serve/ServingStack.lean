import NanoVllm.Serve.TerminalEvents
import NanoVllm.Engine.TokenEvents

/-!
# The worker and its engine

The engine thread of `InferenceWorker` is the only caller of `LLMEngine`. Here the answers which
the worker gets are those of the engine: each call of the worker is a sequence of operations of
the serving loop, and the texts are those of the tokenizer.
-/

namespace NanoVllm.Serve

variable {M : Type}

/-! ## The calls of the engine -/

/-- The operations in the loop of `LLMEngine.step`. -/
def LoopOp {cfg : Config} : Op cfg → Prop
  | .schedule _ => True
  | .completeRemoteRestore _ _ => True
  | .failRemoteRestore _ _ _ _ => True
  | _ => False

/-- The loop of `LLMEngine.step`. -/
inductive Loops (cfg : Config) (sys : System) : System → Prop
  | start : Loops cfg sys sys
  | next {sys₁ sys₂ : System} {op : Op cfg} (loops : Loops cfg sys sys₁) (inLoop : LoopOp op)
      (enabled : sys₁.Enabled op) (stepped : sys₁.step cfg op = .ok sys₂) : Loops cfg sys sys₂

/-- The outputs of `step()`: the requests of the batch which have finished. -/
def stepOutputs (sys : System) (batch : List SeqId) : List (SeqId × List Token) :=
  (batch.filter fun i => (sys.scheduler.seqs i).status = .finished).map fun i =>
    (i, (sys.scheduler.seqs i).completionTokenIds)

/-- What `step()` and `take_step_token_events()` return. -/
abbrev StepResult := Except PyException (List (SeqId × Token) × List (SeqId × List Token))

/-- A call of `step()` and then of `take_step_token_events()`. -/
inductive EngineStep (cfg : Config) (sys : System) : StepResult → System → Prop
  | returns {sys₁ sys₂ : System} {batch : InFlight} {tokenIds : List Token} {elapsedMs now : ℚ}
      (loops : Loops cfg sys sys₁) (flying : sys₁.inFlight = some batch)
      (enabled : sys₁.Enabled (.postprocess tokenIds elapsedMs now : Op cfg))
      (stepped : sys₁.step cfg (.postprocess tokenIds elapsedMs now) = .ok sys₂) :
      EngineStep cfg sys
        (.ok (System.tokenEvents sys₁.scheduler.seqs sys₂.scheduler.seqs
          (batch.seqs.zip tokenIds), stepOutputs sys₂ batch.seqs)) sys₂
  /-- No request is runnable, or the loop raises. -/
  | loopRaises {sys₁ : System} {exc : PyException} (loops : Loops cfg sys sys₁)
      (idle : sys₁.inFlight = none) : EngineStep cfg sys (.error exc) sys₁
  | runRaises {sys₁ sys₂ : System} {garbage : KvStore} {exc : PyException}
      (loops : Loops cfg sys sys₁) (enabled : sys₁.Enabled (.runFailed garbage : Op cfg))
      (stepped : sys₁.step cfg (.runFailed garbage) = .ok sys₂) :
      EngineStep cfg sys (.error exc) sys₂
  /-- The batch has been postprocessed, but what follows raises. -/
  | endRaises {sys₁ sys₂ : System} {tokenIds : List Token} {elapsedMs now : ℚ}
      {exc : PyException} (loops : Loops cfg sys sys₁)
      (enabled : sys₁.Enabled (.postprocess tokenIds elapsedMs now : Op cfg))
      (stepped : sys₁.step cfg (.postprocess tokenIds elapsedMs now) = .ok sys₂) :
      EngineStep cfg sys (.error exc) sys₂

/-! ## The answers to the worker -/

/-- Whether a call leaves the engine alone. A call of `cancel_request` which raises does. -/
def Response.quiet : Response M → Bool
  | .admitted (.ok _) (.ok _) => false
  | .cancelRequest none => false
  | .step _ => false
  | _ => true

/-- The texts of an answer are those of the tokenizer. -/
def Response.Decodes (decode : List Token → String) (s : State M) : Response M → Prop
  | .decoded (.ok text) => ∀ seqId tokenId events outputs state,
      s.phase = .tokens ((seqId, tokenId) :: events) outputs →
      getState s.active seqId = some state → text = decode (state.tokenIds ++ [tokenId])
  | .finishDecoded (.ok text) => ∀ state tokenIds outputs,
      s.phase = .finishing state tokenIds outputs → text = decode tokenIds
  | _ => True

/-- The request which `cancel_request` is called for. -/
def Phase.cancels : Phase → Option ActiveRequest
  | .cancelRequest _ state _ => some state
  | .failing _ (state :: _) => some state
  | .closing (state :: _) => some state
  | _ => none

/--
What an action of the worker or of a client does to the engine. The handle with number `h` is
submitted with `stream=streams h`.
-/
inductive Serves (config : EngineConfig) (cfg : Config) (decode : List Token → String)
    (streams : HandleId → Bool) (s : State M) (sys : System) : Action M → System → Prop
  | client {action : Action M} (client : ∀ response, action ≠ .worker response)
      (submitted : ∀ stream maxTokens, action = .submit stream maxTokens →
        stream = streams s.submitted) : Serves config cfg decode streams s sys action sys
  | quiet {response : Response M} (quiet : response.quiet = true)
      (decodes : response.Decodes decode s) :
      Serves config cfg decode streams s sys (.worker response) sys
  | add {queued : QueuedRequest} {promptTokens : ℕ} {seqId : SeqId} {state : ActiveRequest}
      {request : Request} {now : ℚ} {sys' : System} (phase : s.phase = .adding queued)
      (admitted : admitRequest config queued (.ok promptTokens) (.ok seqId) = .ok state)
      (named : request.seqId = seqId) (prompt : request.prompt.length = promptTokens)
      (maxTokens : request.maxTokens = queued.maxTokens)
      (enabled : sys.Enabled (.add request now : Op cfg))
      (stepped : sys.step cfg (.add request now) = .ok sys') :
      Serves config cfg decode streams s sys (.worker (.admitted (.ok promptTokens) (.ok seqId)))
        sys'
  | cancel {state : ActiveRequest} {now : ℚ} {sys' : System}
      (called : s.phase.cancels = some state)
      (enabled : sys.Enabled (.cancel state.seqId now : Op cfg))
      (stepped : sys.step cfg (.cancel state.seqId now) = .ok sys') :
      Serves config cfg decode streams s sys (.worker (.cancelRequest none)) sys'
  | step {result : StepResult} {sys' : System} (stepped : EngineStep cfg sys result sys') :
      Serves config cfg decode streams s sys (.worker (.step result)) sys'

/-- The states of the worker and its engine which a sequence of actions leads to. -/
inductive ServingRun (config : EngineConfig) (cfg : Config) (decode : List Token → String)
    (streams : HandleId → Bool) : List (Action M) → State M → System → Prop
  | initial : ServingRun config cfg decode streams [] .initial (.init cfg)
  | step {actions : List (Action M)} {s s' : State M} {sys sys' : System} {action : Action M}
      (run : ServingRun config cfg decode streams actions s sys)
      (serves : Serves config cfg decode streams s sys action sys')
      (stepped : next config s action = some s') :
      ServingRun config cfg decode streams (actions ++ [action]) s' sys'

/-! ## What the engine has reported -/

variable {config : EngineConfig} {cfg : Config} {decode : List Token → String}
  {streams : HandleId → Bool} {s s' : State M} {sys sys' : System} {action : Action M}

theorem Loops.reachable (loops : Loops cfg sys sys') (reachable : System.Reachable cfg sys) :
    System.Reachable cfg sys' := by
  induction loops with
  | start => exact reachable
  | next _ _ enabled stepped ih => exact .step ih enabled trivial stepped

theorem Loops.events (loops : Loops cfg sys sys') : sys'.events = sys.events := by
  induction loops with
  | start => rfl
  | @next sys₁ sys₂ op _ inLoop _ stepped ih =>
    rw [← ih]
    cases op with
    | schedule =>
      rcases Py.exists_of_bind stepped with ⟨scheduled, -, returned⟩
      cases returned
      rfl
    | completeRemoteRestore =>
      rcases Py.exists_of_bind stepped with ⟨state, -, stepped⟩
      rcases Py.exists_of_bind stepped with ⟨completed, -, returned⟩
      cases returned
      rfl
    | failRemoteRestore =>
      rcases Py.exists_of_bind stepped with ⟨state, -, stepped⟩
      rcases Py.exists_of_bind stepped with ⟨failed, -, returned⟩
      cases returned
      rfl
    | add | postprocess | runFailed | cancel => cases inLoop

theorem EngineStep.reachable {result : StepResult} (stepped : EngineStep cfg sys result sys')
    (reachable : System.Reachable cfg sys) : System.Reachable cfg sys' := by
  cases stepped with
  | returns loops _ enabled stepped => exact .step (loops.reachable reachable) enabled trivial stepped
  | loopRaises loops => exact loops.reachable reachable
  | runRaises loops enabled stepped =>
    exact .step (loops.reachable reachable) enabled trivial stepped
  | endRaises loops enabled stepped =>
    exact .step (loops.reachable reachable) enabled trivial stepped

theorem Serves.reachable (serves : Serves config cfg decode streams s sys action sys')
    (reachable : System.Reachable cfg sys) : System.Reachable cfg sys' := by
  cases serves with
  | client => exact reachable
  | quiet => exact reachable
  | add _ _ _ _ _ enabled stepped => exact .step reachable enabled trivial stepped
  | cancel _ enabled stepped => exact .step reachable enabled trivial stepped
  | step stepped => exact stepped.reachable reachable

theorem ServingRun.engine {actions : List (Action M)}
    (run : ServingRun config cfg decode streams actions s sys) : System.Reachable cfg sys := by
  induction run with
  | initial => exact .init
  | step _ serves _ ih => exact serves.reachable ih

theorem ServingRun.worker {actions : List (Action M)}
    (run : ServingRun config cfg decode streams actions s sys) : Reachable config actions s := by
  induction run with
  | initial => exact .initial
  | step _ _ stepped ih => exact .step ih stepped

/-- A step which returns has reported its token events, and its outputs are completions. -/
theorem EngineStep.reports {events : List (SeqId × Token)} {outputs : List (SeqId × List Token)}
    (stepped : EngineStep cfg sys (.ok (events, outputs)) sys')
    (reachable : System.Reachable cfg sys) :
    sys'.events = sys.events ++ events ∧
      ∀ output ∈ outputs, output.2 = sys'.reported output.1 := by
  have reports := (stepped.reachable reachable).reports
  cases stepped with
  | @returns sys₁ sys₂ batch tokenIds elapsedMs now loops flying enabled stepped =>
    have valid₁ := (loops.reachable reachable).valid
    rcases valid₁.step enabled with ⟨sys₃, stepped', -, steps⟩
    cases stepped.symm.trans stepped'
    cases steps with
    | @postprocess _ _ _ inFlight writes s' flying' written sampled processes =>
      cases flying.symm.trans flying'
      constructor
      · rw [← loops.events]
      · intro output mem
        rcases List.mem_map.mp mem with ⟨i, finished, rfl⟩
        have known := (valid₁.batch_mem flying (List.mem_filter.mp finished).1).1
        exact ((reports i).known known).symm

/-- A call which is no step reports nothing. -/
theorem Serves.events (serves : Serves config cfg decode streams s sys action sys')
    (noStep : ∀ result, action ≠ .worker (.step result)) : sys'.events = sys.events := by
  cases serves with
  | client => rfl
  | quiet => rfl
  | add _ _ _ _ _ enabled stepped =>
    cases stepped
    rfl
  | cancel _ enabled stepped =>
    rcases Py.exists_of_bind stepped with ⟨cancelled, -, returned⟩
    cases returned
    rfl
  | step => exact absurd rfl (noStep _)

end NanoVllm.Serve
