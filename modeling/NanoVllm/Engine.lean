import NanoVllm.ModelRunner

/-!
# The serving loop

`System` is the scheduler together with the batch between `schedule()` and `postprocess()`,
the KV contents of every physical slot, the requests added so far and the token events
reported so far. The KV contents are a history variable: a slot records the token prefix its
entry was computed from and, for a run of a compressed request, that request.

`LLMEngine.step` runs `schedule`, the model and `postprocess` on one thread, so no second
`schedule()` happens while a batch is in flight, and `postprocess` receives one token for each
request of the batch. Only when the run fails does `InferenceWorker._fail_active` cancel
requests of the batch, and then that batch is never postprocessed.
-/

namespace NanoVllm

/-- The KV entry of one slot: the prefix it represents and the compressed request it is of. -/
structure KvSlot where
  prefixTokens : List Token
  taint : Option SeqId
  deriving DecidableEq, Repr

/-- The contents of the physical slots. -/
abbrev KvStore := ℕ → Option KvSlot

/-- Write slots in order. -/
def KvStore.write (kv : KvStore) : List (ℕ × KvSlot) → KvStore
  | [] => kv
  | (slot, entry) :: writes => KvStore.write (Function.update kv slot (some entry)) writes

/-- The batch between `schedule()` and `postprocess()`; `failed` once its run has failed. -/
structure InFlight where
  seqs : List SeqId
  isPrefill : Bool
  failed : Bool
  deriving DecidableEq, Repr

/-- The state of the serving loop. -/
structure System where
  scheduler : Scheduler
  inFlight : Option InFlight
  kv : KvStore
  known : List SeqId
  events : List (SeqId × Token)

/-- The arguments of `add_request`. -/
structure Request where
  seqId : SeqId
  prompt : List Token
  maxTokens : ℕ
  ignoreEos : Bool
  qos : RequestQoS
  arrivalTime : Option ℚ
  deriving DecidableEq, Repr

/-- The request object of an `add_request` call. -/
def Request.toSequence (request : Request) : Sequence :=
  .new request.seqId request.prompt request.maxTokens request.ignoreEos request.qos
    request.arrivalTime

/-- The operations of the serving loop. -/
inductive Op (cfg : Config) where
  | add (request : Request) (now : ℚ)
  | schedule (env : ScheduleEnv cfg)
  | postprocess (tokenIds : List Token) (elapsedMs now : ℚ)
  | runFailed (garbage : KvStore)
  | cancel (seqId : SeqId) (now : ℚ)
  | completeRemoteRestore (seqId : SeqId) (now : ℚ)
  | failRemoteRestore (seqId : SeqId) (now : ℚ) (error : String) (garbage : KvStore)

namespace System

/-- The system before the first request. -/
def init (cfg : Config) : System where
  scheduler := .init cfg
  inFlight := none
  kv := fun _ => none
  known := []
  events := []

/-- The KV entry a model run writes at a position of a request. -/
def kvEntry (seq : Sequence) (position : ℕ) : KvSlot where
  prefixTokens := seq.tokenIds.take (position + 1)
  taint := if seq.kvCompressed then some seq.seqId else none

/-- The slots written by a run for one request, with the entries written there. -/
def runWrites (cfg : Config) (isPrefill : Bool) (seq : Sequence) : Py (List (ℕ × KvSlot)) :=
  if isPrefill then do
    let slots ← ModelRunner.prefillSlots cfg seq
    .ok (slots.zip ((ModelRunner.prefillPositions seq).map (kvEntry seq)))
  else do
    let slot ← ModelRunner.decodeSlot cfg seq
    .ok [(slot, kvEntry seq (seq.numTokens - 1))]

/-- The slots written by a run of a batch. -/
def batchWrites (cfg : Config) (isPrefill : Bool) (seqs : SeqId → Sequence) :
    List SeqId → Py (List (ℕ × KvSlot))
  | [] => .ok []
  | i :: batch => do
      let first ← runWrites cfg isPrefill (seqs i)
      let rest ← batchWrites cfg isPrefill seqs batch
      .ok (first ++ rest)

/-- The model run of the batch in flight. -/
def run (cfg : Config) (sys : System) (batch : InFlight) : Py System := do
  let writes ← batchWrites cfg batch.isPrefill sys.scheduler.seqs batch.seqs
  .ok { sys with kv := sys.kv.write writes }

/-- The pages imported for a pending restore, with the entries of their descriptors' prefixes. -/
def importWrites (cfg : Config) (state : PendingRestoreState) : List (ℕ × KvSlot) :=
  (state.pages.zip state.blockIds).flatMap fun (page, blockId) =>
    (List.range cfg.blockSize).map fun offset =>
      (blockId * cfg.blockSize + offset,
        { prefixTokens :=
            page.prefixTokenIds.take (page.pageIndex * cfg.blockSize + offset + 1)
          taint := none })

/-- Overwrite the slots of some pages arbitrarily. -/
def scramblePages (cfg : Config) (kv garbage : KvStore) (blockIds : List BlockId) : KvStore :=
  fun slot => if slot / cfg.blockSize ∈ blockIds then garbage slot else kv slot

/-- The token events of `step()`: the requests whose completion grew. -/
def tokenEvents (before after : SeqId → Sequence) (batch : List (SeqId × Token)) :
    List (SeqId × Token) :=
  batch.filter fun event =>
    (before event.1).numCompletionTokens < (after event.1).numCompletionTokens

/-- The batch in flight after `schedule()`; the empty batch makes the engine wait. -/
def launched : ScheduleOutcome → Option InFlight
  | .batch [] _ => none
  | .batch (i :: seqs) isPrefill => some { seqs := i :: seqs, isPrefill, failed := false }
  | .retry => none
  | .noRunnable => none

/-- The number of tokens `step()` reports to the estimator. -/
def observedTokens (seqs : SeqId → Sequence) (batch : InFlight) : ℕ :=
  if batch.isPrefill then (batch.seqs.map fun i => (seqs i).numScheduledTokens).sum
  else batch.seqs.length

/-- The in-flight batch once a request has been cancelled. -/
def withoutCancelled (inFlight : Option InFlight) (i : SeqId) : Option InFlight :=
  match inFlight with
  | none => none
  | some batch =>
      let seqs := batch.seqs.erase i
      if seqs = [] then none else some { batch with seqs }

/-- When the callers of the scheduler perform an operation. -/
def Enabled {cfg : Config} (sys : System) : Op cfg → Prop
  | .add request _ => request.prompt ≠ [] ∧ request.seqId ∉ sys.known
  | .schedule _ => sys.inFlight = none
  | .postprocess tokenIds _ _ =>
      ∃ batch ∈ sys.inFlight, batch.failed = false ∧ tokenIds.length = batch.seqs.length
  | .runFailed _ => sys.inFlight ≠ none
  | .cancel i _ => ∀ batch ∈ sys.inFlight, i ∈ batch.seqs → batch.failed = true
  | .completeRemoteRestore i _ => ∃ state ∈ sys.scheduler.pendingRestores, state.sequence = i
  | .failRemoteRestore i _ _ _ => ∃ state ∈ sys.scheduler.pendingRestores, state.sequence = i

/-- The slots of a batch hold anything after a failed run. -/
def scrambleBatch (cfg : Config) (sys : System) (batch : InFlight) (garbage : KvStore) :
    Py KvStore := do
  let writes ← batchWrites cfg batch.isPrefill sys.scheduler.seqs batch.seqs
  .ok fun slot => if slot ∈ writes.map Prod.fst then garbage slot else sys.kv slot

/-- One operation of the serving loop. -/
def step (cfg : Config) (sys : System) : Op cfg → Py System
  | .add request now =>
      .ok { sys with
        scheduler := sys.scheduler.add request.toSequence now
        known := sys.known ++ [request.seqId] }
  | .schedule env => do
      let (scheduler, outcome) ← sys.scheduler.schedule cfg env
      .ok { sys with scheduler, inFlight := launched outcome }
  | .postprocess tokenIds elapsedMs now =>
      match sys.inFlight with
      | none => .error .assertionError
      | some batch => do
          let sys ← sys.run cfg batch
          let observed := sys.scheduler.observeExecution cfg batch.isPrefill
            (observedTokens sys.scheduler.seqs batch) elapsedMs
          let scheduler ← observed.postprocess cfg batch.seqs tokenIds batch.isPrefill now
          .ok { sys with
            scheduler
            inFlight := none
            events := sys.events ++
              tokenEvents sys.scheduler.seqs scheduler.seqs (batch.seqs.zip tokenIds) }
  | .runFailed garbage =>
      match sys.inFlight with
      | none => .error .assertionError
      | some batch => do
          let kv ← sys.scrambleBatch cfg batch garbage
          .ok { sys with kv, inFlight := some { batch with failed := true } }
  | .cancel i now => do
      let (scheduler, cancelled) ← sys.scheduler.cancel i now
      .ok { sys with
        scheduler
        inFlight := if cancelled then withoutCancelled sys.inFlight i else sys.inFlight }
  | .completeRemoteRestore i now => do
      let state ← sys.scheduler.pendingRestore i
      let scheduler ← sys.scheduler.completeRemoteRestore cfg i now
      .ok { sys with scheduler, kv := sys.kv.write (importWrites cfg state) }
  | .failRemoteRestore i now error garbage => do
      let state ← sys.scheduler.pendingRestore i
      let scheduler ← sys.scheduler.failRemoteRestore i now error
      .ok { sys with scheduler, kv := scramblePages cfg sys.kv garbage state.blockIds }

/-- The states reached by operations which satisfy a condition. -/
inductive ReachableBy (cfg : Config) (Allowed : System → Op cfg → Prop) : System → Prop where
  | init : ReachableBy cfg Allowed (init cfg)
  | step {sys sys' : System} {op : Op cfg} (reachable : ReachableBy cfg Allowed sys)
      (enabled : sys.Enabled op) (allowed : Allowed sys op)
      (stepped : sys.step cfg op = .ok sys') : ReachableBy cfg Allowed sys'

/-- The states reached by any operations of the serving loop. -/
abbrev Reachable (cfg : Config) : System → Prop := ReachableBy cfg fun _ _ => True

end System

end NanoVllm
