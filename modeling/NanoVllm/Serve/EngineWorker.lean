import NanoVllm.Basic
import Mathlib.Logic.Function.Basic

/-!
# The serving worker

`InferenceWorker` owns one engine thread. Client threads put requests and a stop marker into its
queue and set cancellation flags; the thread admits requests, steps the engine and puts events
into the handles. Each action below touches one object which the threads share, so a sequence of
actions is an interleaving of the threads.

What the engine and the tokenizer return or raise is part of an action. They see the messages
and the QoS of a request; the worker only passes these on, so they are left out. A handle is
named by the number of requests submitted before it. The metrics of the worker are left out, but
not the calls which compute them.
-/

namespace NanoVllm.Serve

/-- The number of a `GenerationHandle`. -/
abbrev HandleId := ℕ

/-- `GenerationEvent`. Missing metrics are `none`. -/
inductive GenerationEvent (M : Type) where
  | textDelta (text : String)
  | finished (text : String) (tokenIds : List Token) (promptTokens : ℕ) (finishReason : String)
      (metrics : Option M)
  | failed (message : String)
  | cancelled
  deriving DecidableEq, Repr

/-- Whether an event ends a request. -/
def GenerationEvent.isTerminal {M : Type} : GenerationEvent M → Bool
  | .textDelta _ => false
  | .finished .. => true
  | .failed _ => true
  | .cancelled => true

/-- `_QueuedRequest`, with the fields of its handle which do not change. -/
structure QueuedRequest where
  handle : HandleId
  stream : Bool
  maxTokens : ℕ
  deriving DecidableEq, Repr

/-- `_ActiveRequest`. -/
structure ActiveRequest where
  queued : QueuedRequest
  seqId : SeqId
  promptTokens : ℕ
  tokenIds : List Token
  emittedText : String
  deriving DecidableEq, Repr

/-- What the incoming queue holds. -/
inductive Item where
  | request (queued : QueuedRequest)
  | stop
  deriving DecidableEq, Repr

/-- The fields of `engine.config` which the worker reads. -/
structure EngineConfig where
  maxModelLen : Option ℕ
  eos : Option Token

/-! ## Single requests -/

/-- The exception of `_admit` for a request which does not fit. -/
def contextLengthExceeded (promptTokens requestedTokens maxModelLen : ℕ) : PyException where
  typeName := "ValueError"
  text := "context length exceeded: prompt has " ++ toString promptTokens ++
    " tokens and max_tokens requests " ++ toString requestedTokens ++ ", but max_model_len is " ++
    toString maxModelLen ++ "; at most " ++ toString (maxModelLen - promptTokens) ++
    " completion tokens are available"

/--
The body of `_admit`, given the number of prompt tokens and the result of `add_request` if it is
called.
-/
def admitRequest (config : EngineConfig) (queued : QueuedRequest)
    (promptTokens : Except PyException ℕ) (seqId : Except PyException SeqId) :
    Except PyException ActiveRequest := do
  let promptTokens ← promptTokens
  match config.maxModelLen with
  | some maxModelLen =>
      if maxModelLen < promptTokens + queued.maxTokens then
        .error (contextLengthExceeded promptTokens queued.maxTokens maxModelLen)
      else do
        let seqId ← seqId
        .ok { queued, seqId, promptTokens, tokenIds := [], emittedText := "" }
  | none => do
      let seqId ← seqId
      .ok { queued, seqId, promptTokens, tokenIds := [], emittedText := "" }

/-- The rest of a text after the text which has been emitted, if it extends it. -/
def textAfter (emitted text : String) : Option String :=
  if emitted.toList.isPrefixOf text.toList then
    some (String.ofList (text.toList.drop emitted.toList.length))
  else none

/-- `_decode_stable_delta`, given the decoded text: stop before a replacement character. -/
def decodeStableDelta (state : ActiveRequest) (decoded : String) : ActiveRequest × String :=
  let stable := String.ofList (decoded.toList.takeWhile (· ≠ Char.ofNat 0xfffd))
  match textAfter state.emittedText stable with
  | none => (state, "")
  | some delta => ({ state with emittedText := stable }, delta)

/-- The tail which `_finish` still emits. -/
def finishTail (state : ActiveRequest) (text : String) : Option String :=
  if state.queued.stream then
    match textAfter state.emittedText text with
    | some tail => if tail = "" then none else some tail
    | none => none
  else none

/-- `finish_reason`. -/
def finishReason (config : EngineConfig) (state : ActiveRequest) (tokenIds : List Token) :
    String :=
  if tokenIds ≠ [] ∧ tokenIds.getLast? = config.eos then "stop"
  else if state.queued.maxTokens ≤ tokenIds.length then "length"
  else "stop"

/-! ## The threads -/

/-- Where the engine thread is. Loops over a snapshot of a container hold what is left of it. -/
inductive Phase where
  /-- At the call of `engine_factory`. -/
  | starting
  /-- At the first call of `get_scheduler_metrics`. -/
  | startMetrics
  /-- At a `get` of `_drain_incoming`. An empty queue ends both the waiting and the other one. -/
  | draining
  /-- At the start of `_admit`. -/
  | admitting (queued : QueuedRequest)
  /-- In the `try` block of `_admit`. -/
  | adding (queued : QueuedRequest)
  /-- In the loop of `_cancel_requests`; `stopping` is the result of `_drain_incoming`. -/
  | cancelling (stopping : Bool) (rest : List ActiveRequest)
  /-- At the call of `cancel_request` in that loop. -/
  | cancelRequest (stopping : Bool) (state : ActiveRequest) (rest : List ActiveRequest)
  /-- At the metrics of an iteration without active requests. -/
  | idle
  | stepping
  /-- In the loop over the token events of a step. -/
  | tokens (events : List (SeqId × Token)) (outputs : List (SeqId × List Token))
  /-- In the loop over the outputs of a step. -/
  | outputs (outputs : List (SeqId × List Token))
  /-- At the `decode` of `_finish`. -/
  | finishing (state : ActiveRequest) (tokenIds : List Token)
      (outputs : List (SeqId × List Token))
  /-- At the `get_request_metrics` of `_finish`. -/
  | finishMetrics (state : ActiveRequest) (tokenIds : List Token) (text : String)
      (outputs : List (SeqId × List Token))
  | stepMetrics
  /-- In the loop of `_fail_active`. -/
  | failing (exc : PyException) (rest : List ActiveRequest)
  | failMetrics
  /-- In the `finally` block. -/
  | closing (rest : List ActiveRequest)
  | exited
  deriving DecidableEq, Repr

/-- What the objects called by the engine thread return or raise. -/
inductive Response (M : Type) where
  /-- No call, or one which always returns. -/
  | proceed
  | factory (raised : Option PyException)
  | schedulerMetrics (raised : Option PyException)
  | admitted (promptTokens : Except PyException ℕ) (seqId : Except PyException SeqId)
  | cancelRequest (raised : Option PyException)
  | step (result : Except PyException (List (SeqId × Token) × List (SeqId × List Token)))
  | decoded (text : Except PyException String)
  | finishDecoded (text : Except PyException String)
  | requestMetrics (metrics : Except PyException (Option M))

/-- An action of a client thread or of the engine thread. -/
inductive Action (M : Type) where
  /-- `is_alive` in `submit`. -/
  | checkAlive
  /-- The rest of a `submit`: create the handle, put the request and return. -/
  | submit (stream : Bool) (maxTokens : ℕ)
  /-- `handle.cancel()`. -/
  | cancel (handle : HandleId)
  /-- The `put` of `stop`. -/
  | stop
  | worker (response : Response M)

/--
The state of a worker whose thread has been started. `events` are all events put into a handle,
read or not; `checked` counts the calls of `submit` between their check and their `put`.
-/
structure State (M : Type) where
  incoming : List Item
  events : HandleId → List (GenerationEvent M)
  cancelled : HandleId → Bool
  active : List ActiveRequest
  phase : Phase
  submitted : ℕ
  checked : ℕ

variable {M : Type}

/-- The thread has just been started. -/
def State.initial : State M where
  incoming := []
  events := fun _ => []
  cancelled := fun _ => false
  active := []
  phase := .starting
  submitted := 0
  checked := 0

/-- `events.put`. -/
def State.put (s : State M) (handle : HandleId) (event : GenerationEvent M) : State M :=
  { s with events := Function.update s.events handle (s.events handle ++ [event]) }

/-- `active.get(seq_id)`. -/
def getState (active : List ActiveRequest) (seqId : SeqId) : Option ActiveRequest :=
  active.find? fun state => state.seqId = seqId

/-- Replace an active request by a changed one. -/
def setState (active : List ActiveRequest) (state : ActiveRequest) : List ActiveRequest :=
  active.map fun other => if other.seqId = state.seqId then state else other

/-- `del active[seq_id]`. -/
def dropState (active : List ActiveRequest) (seqId : SeqId) : List ActiveRequest :=
  active.filter fun state => state.seqId ≠ seqId

/-- One token event of a step, given the text of the request's tokens. -/
def tokenEvent (s : State M) (seqId : SeqId) (tokenId : Token)
    (events : List (SeqId × Token)) (outputs : List (SeqId × List Token))
    (decoded : Except PyException String) : State M :=
  match getState s.active seqId with
  | none => { s with phase := .tokens events outputs }
  | some state =>
      let state := { state with tokenIds := state.tokenIds ++ [tokenId] }
      if state.queued.stream then
        match decoded with
        | .error exc =>
            { s with
              active := setState s.active state, phase := .failing exc (setState s.active state) }
        | .ok decoded =>
            let (state, delta) := decodeStableDelta state decoded
            let s := { s with active := setState s.active state, phase := .tokens events outputs }
            if delta = "" then s else s.put state.queued.handle (.textDelta delta)
      else { s with active := setState s.active state, phase := .tokens events outputs }

/-- One action of the engine thread. `add_request` returns identifiers from a counter. -/
def work (config : EngineConfig) (s : State M) (response : Response M) : Option (State M) :=
  match s.phase, response with
  | .starting, .factory none => some { s with phase := .startMetrics }
  | .starting, .factory (some _) => some { s with phase := .exited }
  | .startMetrics, .schedulerMetrics none => some { s with phase := .draining }
  | .startMetrics, .schedulerMetrics (some _) => some { s with phase := .exited }
  | .draining, .proceed =>
      match s.incoming with
      | [] => some { s with phase := .cancelling false s.active }
      | .stop :: incoming => some { s with incoming, phase := .cancelling true s.active }
      | .request queued :: incoming => some { s with incoming, phase := .admitting queued }
  | .admitting queued, .proceed =>
      if s.cancelled queued.handle then
        some ({ s with phase := .draining }.put queued.handle .cancelled)
      else some { s with phase := .adding queued }
  | .adding queued, .admitted promptTokens seqId =>
      match admitRequest config queued promptTokens seqId with
      | .error exc => some ({ s with phase := .draining }.put queued.handle (.failed exc.describe))
      | .ok state =>
          if state.seqId ∈ s.active.map ActiveRequest.seqId then none
          else some { s with active := s.active ++ [state], phase := .draining }
  | .cancelling stopping [], .proceed =>
      if stopping then some { s with phase := .closing s.active }
      else if s.active.isEmpty then some { s with phase := .idle }
      else some { s with phase := .stepping }
  | .cancelling stopping (state :: rest), .proceed =>
      if s.cancelled state.queued.handle then
        some { s with phase := .cancelRequest stopping state rest }
      else some { s with phase := .cancelling stopping rest }
  | .cancelRequest stopping state rest, .cancelRequest none =>
      some ({ s with
        active := dropState s.active state.seqId
        phase := .cancelling stopping rest }.put state.queued.handle .cancelled)
  | .cancelRequest _ _ _, .cancelRequest (some _) => some { s with phase := .closing s.active }
  | .idle, .schedulerMetrics none => some { s with phase := .draining }
  | .idle, .schedulerMetrics (some _) => some { s with phase := .closing s.active }
  | .stepping, .step (.ok (events, outputs)) => some { s with phase := .tokens events outputs }
  | .stepping, .step (.error exc) => some { s with phase := .failing exc s.active }
  | .tokens [] outputs, .proceed => some { s with phase := .outputs outputs }
  | .tokens ((seqId, tokenId) :: events) outputs, .decoded decoded =>
      some (tokenEvent s seqId tokenId events outputs decoded)
  | .outputs [], .proceed => some { s with phase := .stepMetrics }
  | .outputs ((seqId, tokenIds) :: outputs), .proceed =>
      match getState s.active seqId with
      | none => some { s with phase := .outputs outputs }
      | some state =>
          some { s with
            active := dropState s.active seqId, phase := .finishing state tokenIds outputs }
  | .finishing _ _ _, .finishDecoded (.error exc) =>
      some { s with phase := .failing exc s.active }
  | .finishing state tokenIds outputs, .finishDecoded (.ok text) =>
      let s := { s with phase := .finishMetrics state tokenIds text outputs }
      match finishTail state text with
      | some tail => some (s.put state.queued.handle (.textDelta tail))
      | none => some s
  | .finishMetrics _ _ _ _, .requestMetrics (.error exc) =>
      some { s with phase := .failing exc s.active }
  | .finishMetrics state tokenIds text outputs, .requestMetrics (.ok metrics) =>
      some ({ s with phase := .outputs outputs }.put state.queued.handle
        (.finished text tokenIds state.promptTokens (finishReason config state tokenIds) metrics))
  | .stepMetrics, .schedulerMetrics none => some { s with phase := .draining }
  | .stepMetrics, .schedulerMetrics (some exc) => some { s with phase := .failing exc s.active }
  | .failing _ [], .proceed => some { s with active := [], phase := .failMetrics }
  | .failing exc (state :: rest), .cancelRequest _ =>
      some ({ s with phase := .failing exc rest }.put state.queued.handle (.failed exc.describe))
  | .failMetrics, .schedulerMetrics none => some { s with phase := .draining }
  | .failMetrics, .schedulerMetrics (some _) => some { s with phase := .closing s.active }
  | .closing (state :: rest), .cancelRequest _ =>
      some ({ s with phase := .closing rest }.put state.queued.handle .cancelled)
  | .closing [], .proceed => some { s with phase := .exited }
  | _, _ => none

/-- One action. `submit` raises when its check finds the thread dead. -/
def next (config : EngineConfig) (s : State M) : Action M → Option (State M)
  | .checkAlive =>
      if s.phase = .exited then none else some { s with checked := s.checked + 1 }
  | .submit stream maxTokens =>
      match s.checked with
      | 0 => none
      | checked + 1 =>
          some { s with
            checked
            submitted := s.submitted + 1
            incoming := s.incoming ++ [.request { handle := s.submitted, stream, maxTokens }] }
  | .cancel handle => some { s with cancelled := Function.update s.cancelled handle true }
  | .stop => some { s with incoming := s.incoming ++ [.stop] }
  | .worker response => work config s response

/-- The states which a sequence of actions leads to. -/
inductive Reachable (config : EngineConfig) : List (Action M) → State M → Prop
  | initial : Reachable config [] .initial
  | step {actions : List (Action M)} {s s' : State M} {action : Action M}
      (reachable : Reachable config actions s) (stepped : next config s action = some s') :
      Reachable config (actions ++ [action]) s'

end NanoVllm.Serve
