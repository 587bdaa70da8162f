import NanoVllm.Engine.Conservation
import NanoVllm.Engine.KvContent
import NanoVllm.Engine.Recomputed
import NanoVllm.Engine.TokenEvents
import NanoVllm.Engine.Uncompressed
import NanoVllm.Library.Autoregression

/-!
# The serving loop refines a model which serves one request

A model samples the next token of a request as a function of the history which the slots it attends
to represent. Without compression this history is the one of the request, however its pages were
cached, shared, reclaimed, computed again or restored. So every request which finishes gets the
completion which the model generates for its prompt alone.
-/

namespace NanoVllm

open Autoregression

namespace ModelRunner

/-- The `input_ids` of a request in `prepare_prefill` and in `prepare_decode`. -/
def inputIds (isPrefill : Bool) (seq : Sequence) : List Token :=
  if isPrefill then
    (seq.tokenIds.take (seq.numCachedTokens + seq.numScheduledTokens)).drop seq.numCachedTokens
  else [seq.tokenIds.getLastD 0]

/--
`seqlen_k` of a request in `prepare_prefill`, and its entry of `context_lens` in `prepare_decode`.
-/
def contextLen (isPrefill : Bool) (seq : Sequence) : ℕ :=
  if isPrefill then seq.numCachedTokens + seq.numScheduledTokens else seq.attentionContextTokens

end ModelRunner

/--
The slots which a request attends to in a run, through its block table, represent a history which
ends with its tokens in the run.
-/
structure Attends (cfg : Config) (kv : KvStore) (isPrefill : Bool) (seq : Sequence)
    (history : List Token) : Prop where
  length : history.length = ModelRunner.contextLen isPrefill seq
  slots : ∀ position < history.length,
    ∃ blockId, seq.blockTable[position / cfg.blockSize]? = some blockId ∧
      kv.Holds (blockId * cfg.blockSize + position % cfg.blockSize) (history.take (position + 1))
  inputs : ModelRunner.inputIds isPrefill seq <:+ history

/-- Whether a sampled token ends a request. -/
def stopsAt (eos : Token) (ignoreEos : Bool) (tokenId : Token) : Bool :=
  !ignoreEos && tokenId = eos

/-- The completion which a model generates for a request alone. -/
def completeAlone (cfg : Config) (f : List Token → Token) (seq : Sequence) : List Token :=
  complete f (stopsAt cfg.eos seq.ignoreEos) seq.maxTokens seq.promptTokenIds

/-- The completion of a live request begins that of the model, and of a finished one it is that. -/
structure Generates (cfg : Config) (f : List Token → Token) (seq : Sequence) : Prop where
  live : seq.status.Live → Begins f (stopsAt cfg.eos seq.ignoreEos) seq.maxTokens
    seq.promptTokenIds seq.completionTokenIds
  finished : seq.status = .finished → completeAlone cfg f seq = seq.completionTokenIds

/-- The slots which a request attends to determine the history. -/
theorem Attends.eq {cfg : Config} {kv : KvStore} {isPrefill : Bool} {seq : Sequence}
    {history history' : List Token} (attends : Attends cfg kv isPrefill seq history)
    (attends' : Attends cfg kv isPrefill seq history') : history = history' := by
  have length := attends.length.trans attends'.length.symm
  rcases history.length.eq_zero_or_pos with none | positive
  · have none' := length.symm.trans none
    rw [List.length_eq_zero_iff.mp none, List.length_eq_zero_iff.mp none']
  · rcases attends.slots (history.length - 1) (by omega) with ⟨blockId, entry, holds⟩
    rcases attends'.slots (history.length - 1) (by omega) with ⟨blockId', entry', holds'⟩
    rw [entry] at entry'
    cases entry'
    rw [KvStore.Holds] at holds holds'
    rw [holds, Nat.sub_add_cancel positive, List.take_length, length, List.take_length] at holds'
    cases holds'
    rfl

/-- The pages of an uncompressed running request hold all its cached tokens. -/
theorem Sequence.Running.physical_of_uncompressed {cfg : Config} {bm : BlockManager} {kv : KvStore}
    {refs : BlockId → ℕ} {n : ℕ} {seq : Sequence} (running : seq.Running cfg)
    (memory : SeqMemory cfg bm kv refs n seq) (uncompressed : seq.kvCompressed = false) :
    seq.numPhysicalCachedTokens = seq.numCachedTokens := by
  have last := running.last
  have physical := running.physical
  rw [memory.exact uncompressed, List.getLast?_range] at last
  split at last
  · cases last
  · have pages : seq.blockTable.length = (seq.computedTokens - 1) / cfg.blockSize + 1 := by
      have page := Option.some.inj last
      omega
    rw [pages] at physical
    exact (Nat.add_right_cancel physical).symm

namespace Scheduler

variable {cfg : Config} {ids : Finset SeqId} {kv : KvStore} {held batch : List SeqId}
  {s : Scheduler} {i : SeqId} {isPrefill : Bool}

/-- An uncompressed request of a batch attends to the slots of all its computed tokens. -/
theorem Valid.contextLen (valid : Valid cfg ids kv Sequence.computedTokens held batch s)
    (mem : i ∈ batch) (ready : RunReady cfg isPrefill (s.seqs i))
    (uncompressed : (s.seqs i).kvCompressed = false) :
    ModelRunner.contextLen isPrefill (s.seqs i) = (s.seqs i).computedTokens := by
  cases isPrefill with
  | true => rfl
  | false =>
    rcases ready.decode rfl with ⟨single, -, -⟩
    have physical : (s.seqs i).numPhysicalCachedTokens = (s.seqs i).numCachedTokens := by
      rcases valid.scheduled_phase mem with ⟨known, -, ⟨-, waiting⟩ | ⟨-, running⟩⟩
      · exact waiting.physical
      · exact running.physical_of_uncompressed (valid.memory.request i known) uncompressed
    rw [ModelRunner.contextLen, if_neg Bool.false_ne_true, Sequence.attentionContextTokens,
      Sequence.computedTokens, physical, single]

/-- The tokens of a run are the last ones of the computed tokens. -/
theorem inputIds_suffix {seq : Sequence} (ready : RunReady cfg isPrefill seq) :
    ModelRunner.inputIds isPrefill seq <:+ seq.tokenIds.take seq.computedTokens := by
  cases isPrefill with
  | true => exact List.drop_suffix _ _
  | false =>
    rcases ready.decode rfl with ⟨single, complete, -⟩
    have nonempty : seq.tokenIds ≠ [] := by
      apply List.ne_nil_of_length_pos
      change 0 < seq.numTokens
      rw [← complete, Sequence.computedTokens, single]
      exact Nat.succ_pos _
    have last : seq.tokenIds.getLastD 0 = seq.tokenIds.getLast nonempty := by
      rw [List.getLastD_eq_getLast?, List.getLast?_eq_getLast_of_ne_nil nonempty]
      rfl
    rw [complete, Sequence.numTokens, List.take_length, ModelRunner.inputIds,
      if_neg Bool.false_ne_true, last]
    exact ⟨seq.tokenIds.dropLast, List.dropLast_append_getLast nonempty⟩

/-- After its run an uncompressed request has attended to its own computed tokens. -/
theorem Valid.attends (valid : Valid cfg ids kv Sequence.computedTokens held batch s)
    (mem : i ∈ batch) (ready : RunReady cfg isPrefill (s.seqs i))
    (uncompressed : (s.seqs i).kvCompressed = false) :
    Attends cfg kv isPrefill (s.seqs i) ((s.seqs i).tokenIds.take (s.seqs i).computedTokens) := by
  rcases valid.computed_le mem with ⟨computed_le, -, inPages⟩
  have known := ((valid.scheduled i).mp mem).1
  have length : ((s.seqs i).tokenIds.take (s.seqs i).computedTokens).length =
      (s.seqs i).computedTokens := List.length_take_of_le computed_le
  constructor
  · rw [length, valid.contextLen mem ready uncompressed]
  · intro position short
    rw [length] at short
    rw [List.take_take, min_eq_left (Nat.succ_le_of_lt short)]
    exact (valid.memory.request i known).holds uncompressed
      (short.trans_le (inPages uncompressed)) short
  · exact inputIds_suffix ready

/-- The slots after a run represent the computed tokens and nothing else. -/
theorem Valid.attends_iff (valid : Valid cfg ids kv Sequence.computedTokens held batch s)
    (mem : i ∈ batch) (ready : RunReady cfg isPrefill (s.seqs i))
    (uncompressed : (s.seqs i).kvCompressed = false) {history : List Token} :
    Attends cfg kv isPrefill (s.seqs i) history ↔
      history = (s.seqs i).tokenIds.take (s.seqs i).computedTokens := by
  have own := valid.attends mem ready uncompressed
  constructor
  · intro attends
    exact attends.eq own
  · rintro rfl
    exact own

/-- The entries of a run are those of the history which the request attends to. -/
theorem Valid.kvEntry_attended (valid : Valid cfg ids kv Sequence.computedTokens held batch s)
    (mem : i ∈ batch) (ready : RunReady cfg isPrefill (s.seqs i))
    (uncompressed : (s.seqs i).kvCompressed = false) {history : List Token}
    (attends : Attends cfg kv isPrefill (s.seqs i) history) {position : ℕ}
    (inside : position < (s.seqs i).computedTokens) :
    (System.kvEntry (s.seqs i) position).prefixTokens = history.take (position + 1) := by
  rw [(valid.attends_iff mem ready uncompressed).mp attends, List.take_take,
    min_eq_left (Nat.succ_le_of_lt inside)]
  rfl

end Scheduler

/-- A request with the same tokens and settings which is live or finished as before. -/
theorem Generates.of_same {cfg : Config} {f : List Token → Token} {seq seq' : Sequence}
    (generates : Generates cfg f seq) (same : System.SameSettings seq seq')
    (tokenIds : seq'.tokenIds = seq.tokenIds) (live : seq'.status.Live → seq.status.Live)
    (finished : seq'.status = .finished → seq.status = .finished) : Generates cfg f seq' := by
  have prompt : seq'.promptTokenIds = seq.promptTokenIds := by
    rw [Sequence.promptTokenIds, Sequence.promptTokenIds, tokenIds, same.numPromptTokens]
  have completion : seq'.completionTokenIds = seq.completionTokenIds := by
    rw [Sequence.completionTokenIds, Sequence.completionTokenIds, tokenIds, same.numPromptTokens]
  constructor
  · intro alive
    rw [prompt, completion, same.maxTokens, same.ignoreEos]
    exact generates.live (live alive)
  · intro ended
    rw [completeAlone, prompt, completion, same.maxTokens, same.ignoreEos]
    exact generates.finished (finished ended)

/-- A sampled token leaves the prompt. -/
theorem Scheduler.Processed.prompt {cfg : Config} {seq seq' : Sequence} {tokenId : Token}
    (processed : Scheduler.Processed cfg seq tokenId seq')
    (prompt_le : seq.numPromptTokens ≤ seq.numTokens) :
    seq'.promptTokenIds = seq.promptTokenIds := by
  cases processed with
  | incomplete _ same _ =>
    rw [Sequence.promptTokenIds, Sequence.promptTokenIds, same.tokenIds, same.numPromptTokens]
  | appended _ tokenIds numPromptTokens =>
    rw [Sequence.promptTokenIds, tokenIds, numPromptTokens]
    exact List.take_append_of_le_length prompt_le

/-- A sampled token is the next one of the model. -/
theorem Generates.processed {cfg : Config} {f : List Token → Token} {seq seq' : Sequence}
    {tokenId : Token} (generates : Generates cfg f seq)
    (processed : Scheduler.Processed cfg seq tokenId seq') (live : seq.status.Live)
    (prompt_le : seq.numPromptTokens ≤ seq.numTokens)
    (sampled : seq.computedTokens = seq.numTokens → tokenId = f seq.tokenIds) :
    Generates cfg f seq' := by
  have prompt := processed.prompt prompt_le
  cases processed with
  | incomplete short same status =>
    apply generates.of_same (.of_request same) same.tokenIds
    · intro _
      exact live
    · intro ended
      rw [status] at ended
      cases ended
  | appended complete tokenIds numPromptTokens maxTokens ignoreEos _ _ _ status =>
    have begins := generates.live live
    have whole : seq.promptTokenIds ++ seq.completionTokenIds = seq.tokenIds :=
      List.take_append_drop _ _
    have completion : seq'.completionTokenIds = seq.completionTokenIds ++ [tokenId] := by
      rw [Sequence.completionTokenIds, tokenIds, numPromptTokens]
      exact List.drop_append_of_le_length prompt_le
    have next : f (seq.promptTokenIds ++ seq.completionTokenIds) = tokenId := by
      rw [whole, sampled complete]
    have length : seq'.numCompletionTokens = seq.completionTokenIds.length + 1 := by
      have same : seq'.numCompletionTokens = seq'.completionTokenIds.length :=
        List.length_drop.symm
      rw [same, completion, List.length_append, List.length_singleton]
    have stops : seq'.stops cfg tokenId = (stopsAt cfg.eos seq.ignoreEos tokenId ||
        (seq.completionTokenIds.length + 1 = seq.maxTokens : Bool)) := by
      rw [Sequence.stops, length, maxTokens, ignoreEos, stopsAt]
      simp
    rw [stops] at status
    split at status
    · next ends =>
      rw [Bool.or_eq_true, decide_eq_true_eq, ← next] at ends
      constructor
      · intro alive
        rw [status] at alive
        exact absurd alive id
      · intro _
        rw [completeAlone, prompt, completion, maxTokens, ignoreEos, begins.last ends, next]
    · next goesOn =>
      rw [Bool.or_eq_true, decide_eq_true_eq, not_or, Bool.not_eq_true, ← next] at goesOn
      constructor
      · intro _
        have extended := begins.extend goesOn.1 goesOn.2
        rw [next] at extended
        rw [prompt, completion, maxTokens, ignoreEos]
        exact extended
      · intro ended
        rw [status] at ended
        cases ended

namespace System

open Scheduler

variable {cfg : Config} {f : List Token → Token} {sys sys' sys₁ : System} {op : Op cfg} {i : SeqId}

/-- Only `postprocess` finishes a live request. -/
theorem Steps.not_finished (steps : Steps cfg sys op sys') (valid : sys.Valid cfg)
    (enabled : sys.Enabled op) (known : i ∈ sys.known)
    (notPostprocess : ∀ tokenIds elapsedMs now, op ≠ .postprocess tokenIds elapsedMs now)
    (finished : (sys'.scheduler.seqs i).status = .finished) :
    (sys.scheduler.seqs i).status = .finished := by
  by_cases live : (sys.scheduler.seqs i).status.Live
  · exfalso
    have kept : ∀ {seq : Sequence}, SameRequest (sys.scheduler.seqs i) seq →
        seq.status ≠ .finished := by
      intro seq same ended
      have alive := same.live.mpr live
      rw [ended] at alive
      exact alive
    have ended : ∀ {j : SeqId} {s' : Scheduler},
        EndsRestore sys.scheduler j (s'.seqs j) s' → (s'.seqs i).status ≠ .finished := by
      intro j s' ends
      by_cases same : i = j
      · subst same
        exact kept ends.request
      · rw [ends.seqs, Function.update_of_ne same]
        exact kept (.refl _)
    cases steps with
    | @add request now =>
      have other : (sys.scheduler.add request.toSequence now).seqs i = sys.scheduler.seqs i := by
        refine Function.update_of_ne ?_ _ _
        rintro rfl
        exact enabled.2 known
      change ((sys.scheduler.add request.toSequence now).seqs i).status = _ at finished
      rw [other] at finished
      exact kept (.refl _) finished
    | schedule idle schedules =>
      rcases schedules.follows with ⟨stepId, -, follows⟩
      exact kept (follows.request i) finished
    | postprocess => exact notPostprocess _ _ _ rfl
    | runFailed => exact kept (.refl _) finished
    | @cancel j now s' _ _ cancels =>
      change (s'.seqs i).status = _ at finished
      rw [cancels.seqs] at finished
      by_cases same : i = j
      · subst same
        rw [Function.update_self] at finished
        cases finished
      · rw [Function.update_of_ne same] at finished
        exact kept (.refl _) finished
    | cancelNothing => exact kept (.refl _) finished
    | completeRemoteRestore _ ends => exact ended ends finished
    | failRemoteRestore _ ends => exact ended ends finished
  · rw [steps.ended valid enabled known live] at finished
    exact finished

/--
Every request may generate a token, and the model samples the next token of a request as a function
of the history which the request attends to once the batch has written its slots.
-/
def SampledBy (cfg : Config) (f : List Token → Token) (sys : System) : Op cfg → Prop
  | .add request _ => 1 ≤ request.maxTokens
  | .postprocess tokenIds _ _ => ∀ inFlight ∈ sys.inFlight, ∀ ran,
      sys.run cfg inFlight = .ok ran → ∀ event ∈ inFlight.seqs.zip tokenIds, ∀ history,
        Attends cfg ran.kv inFlight.isPrefill (sys.scheduler.seqs event.1) history →
          event.2 = f history
  | _ => True

/-- A request which is added generates its first token next. -/
theorem generates_new {request : Request} (positive : 1 ≤ request.maxTokens) (step : ℕ) (now : ℚ) :
    Generates cfg f (request.toSequence.markArrived step now) where
  live _ := by
    have none : (request.toSequence.markArrived step now).completionTokenIds = [] :=
      List.drop_length
    rw [none]
    exact .start positive
  finished ended := by cases ended

/-- The tokens of a batch are the next ones of its requests. -/
theorem Valid.postprocess_generates (valid : sys.Valid cfg)
    (uncompressed : Uncompressed sys.known.toFinset sys.scheduler) {tokenIds : List Token}
    {elapsedMs now : ℚ} (steps : Steps cfg sys (.postprocess tokenIds elapsedMs now) sys')
    (sampled : SampledBy cfg f sys (@Op.postprocess cfg tokenIds elapsedMs now))
    (generates : Generates cfg f (sys.scheduler.seqs i)) :
    Generates cfg f (sys'.scheduler.seqs i) := by
  cases steps with
  | @postprocess _ _ _ inFlight writes s' flying _ lengths processes =>
    rcases valid.processes_each flying lengths processes with ⟨others, each⟩
    change Generates cfg f (s'.seqs i)
    by_cases scheduled : i ∈ sys.batch
    · rcases each i scheduled with ⟨tokenId, event, processed⟩
      rcases valid.batch_live scheduled with ⟨known, live⟩
      have known' := List.mem_toFinset.mpr known
      apply generates.processed processed live (valid.scheduler.request i known').prompt_le
      intro complete
      rw [batch_of_some flying] at scheduled
      rcases valid.ran flying with ⟨ran, result, same, -, validRan⟩
      rw [same] at validRan
      have attends := validRan.attends scheduled (valid.ready inFlight flying i scheduled)
        (uncompressed i known')
      have token := sampled inFlight flying ran result _ event _ attends
      rw [complete, Sequence.numTokens, List.take_length] at token
      exact token
    · rw [others i scheduled]
      exact generates

/-- An operation keeps the completions of all requests at those of the model. -/
theorem Valid.generates (valid : sys.Valid cfg)
    (uncompressed : Uncompressed sys.known.toFinset sys.scheduler) (enabled : sys.Enabled op)
    (steps : Steps cfg sys op sys') (sampled : SampledBy cfg f sys op)
    (generates : ∀ i ∈ sys.known, Generates cfg f (sys.scheduler.seqs i)) :
    ∀ i ∈ sys'.known, Generates cfg f (sys'.scheduler.seqs i) := by
  intro i known
  rcases steps.known_or_added known with old | ⟨request, now, rfl, self⟩
  · rcases postprocess_or_other op with ⟨tokenIds, elapsedMs, now, rfl⟩ | other
    · exact valid.postprocess_generates uncompressed steps sampled (generates i old)
    · apply (generates i old).of_same (steps.settings enabled old)
        (steps.tokenIds enabled old other).1
      · intro alive
        by_contra dead
        rw [steps.ended valid enabled old dead] at alive
        exact dead alive
      · exact steps.not_finished valid enabled old other
  · rw [self]
    exact generates_new sampled _ now

theorem ReachableBy.imp {Allowed Allowed' : System → Op cfg → Prop}
    (reachable : ReachableBy cfg Allowed sys)
    (weaker : ∀ sys op, Allowed sys op → Allowed' sys op) : ReachableBy cfg Allowed' sys := by
  induction reachable with
  | init => exact .init
  | step _ enabled allowed stepped ih => exact ih.step enabled (weaker _ _ allowed) stepped

/-- In every run in which the model samples the tokens, completions are those of the model. -/
theorem ReachableBy.generates (reachable : ReachableBy cfg (SampledBy cfg f) sys)
    (policy : cfg.kvCompressionPolicy = .none) :
    ∀ i ∈ sys.known, Generates cfg f (sys.scheduler.seqs i) := by
  refine @ReachableBy.induction cfg sys _
    (fun sys => ∀ i ∈ sys.known, Generates cfg f (sys.scheduler.seqs i)) ?_ ?_ reachable
  · intro i known
    cases known
  · intro sys sys' op reachable valid sampled enabled steps ih
    exact valid.generates (reachable.uncompressed policy) enabled steps sampled ih

/-! ## From the addition of a request to its completion -/

/-- No operation changes the prompt of a request. -/
theorem Valid.prompt (valid : sys.Valid cfg) (enabled : sys.Enabled op)
    (steps : Steps cfg sys op sys') (known : i ∈ sys.known) :
    (sys'.scheduler.seqs i).promptTokenIds = (sys.scheduler.seqs i).promptTokenIds := by
  rcases postprocess_or_other op with ⟨tokenIds, elapsedMs, now, rfl⟩ | other
  · cases steps with
    | @postprocess _ _ _ inFlight writes s' flying _ lengths processes =>
      rcases valid.processes_each flying lengths processes with ⟨others, each⟩
      by_cases scheduled : i ∈ sys.batch
      · rcases each i scheduled with ⟨tokenId, -, processed⟩
        exact processed.prompt (valid.scheduler.request i (List.mem_toFinset.mpr known)).prompt_le
      · exact congrArg Sequence.promptTokenIds (others i scheduled)
  · rw [Sequence.promptTokenIds, (steps.tokenIds enabled known other).1,
      (steps.settings enabled known).numPromptTokens]
    rfl

/-- A request is known with the arguments it was added with. -/
structure Serves (request : Request) (sys : System) : Prop where
  known : request.seqId ∈ sys.known
  prompt : (sys.scheduler.seqs request.seqId).promptTokenIds = request.prompt
  maxTokens : (sys.scheduler.seqs request.seqId).maxTokens = request.maxTokens
  ignoreEos : (sys.scheduler.seqs request.seqId).ignoreEos = request.ignoreEos

variable {request : Request} {Allowed : System → Op cfg → Prop}

theorem Serves.of_add {now : ℚ} (stepped : sys.step cfg (.add request now) = .ok sys') :
    Serves request sys' := by
  have self : (sys.scheduler.add request.toSequence now).seqs request.seqId =
      request.toSequence.markArrived sys.scheduler.stepId now := Function.update_self _ _ _
  cases stepped
  constructor
  · exact List.mem_append_right _ (List.mem_singleton_self _)
  · change Sequence.promptTokenIds ((sys.scheduler.add request.toSequence now).seqs _) = _
    rw [self]
    exact List.take_length
  · exact congrArg Sequence.maxTokens self
  · exact congrArg Sequence.ignoreEos self

theorem Serves.moves (serves : Serves request sys) (valid : sys.Valid cfg)
    (moves : MovesBy cfg Allowed sys sys') : Serves request sys' := by
  rcases moves with ⟨op, -, enabled, stepped⟩
  rcases Py.of_ok stepped (valid.step enabled) with ⟨-, steps⟩
  have settings := steps.settings enabled serves.known
  constructor
  · exact steps.known_subset serves.known
  · exact (valid.prompt enabled steps serves.known).trans serves.prompt
  · exact settings.maxTokens.trans serves.maxTokens
  · exact settings.ignoreEos.trans serves.ignoreEos

theorem Serves.later (serves : Serves request sys) (reachable : ReachableBy cfg Allowed sys)
    (later : Relation.ReflTransGen (MovesBy cfg Allowed) sys sys') : Serves request sys' := by
  induction later with
  | refl => exact serves
  | tail later moves ih => exact ih.moves (reachable.later later).valid moves

/--
However requests are added, scheduled, cancelled and restored, a request which finishes has the
completion which the model generates for its prompt alone, and the steps have reported just that.
-/
theorem serving_refines (policy : cfg.kvCompressionPolicy = .none)
    (reachable : ReachableBy cfg (SampledBy cfg f) sys) {now : ℚ}
    (enabled : sys.Enabled (@Op.add cfg request now)) (positive : 1 ≤ request.maxTokens)
    (added : sys.step cfg (.add request now) = .ok sys₁)
    (later : Relation.ReflTransGen (MovesBy cfg (SampledBy cfg f)) sys₁ sys')
    (finished : (sys'.scheduler.seqs request.seqId).status = .finished) :
    (sys'.scheduler.seqs request.seqId).completionTokenIds =
        complete f (stopsAt cfg.eos request.ignoreEos) request.maxTokens request.prompt ∧
      sys'.reported request.seqId =
        complete f (stopsAt cfg.eos request.ignoreEos) request.maxTokens request.prompt := by
  have reachable₁ := reachable.step enabled positive added
  have reachable' := reachable₁.later later
  have serves := (Serves.of_add added).later reachable₁ later
  have completion := (reachable'.generates policy _ serves.known).finished finished
  rw [completeAlone, serves.prompt, serves.maxTokens, serves.ignoreEos] at completion
  rw [(reachable'.reports request.seqId).known serves.known]
  exact ⟨completion.symm, completion.symm⟩

/-- A model which counts the tokens it attends to. -/
def countTokens (history : List Token) : Token := history.length

/-- Every request may generate a token, and the tokens of a batch count what it attends to. -/
def Counted (sys : System) : Op cfg → Prop
  | .add request _ => 1 ≤ request.maxTokens
  | .postprocess tokenIds _ _ => ∀ inFlight ∈ sys.inFlight,
      ∀ event ∈ inFlight.seqs.zip tokenIds,
        event.2 = ModelRunner.contextLen inFlight.isPrefill (sys.scheduler.seqs event.1)
  | _ => True

instance decidableCounted (sys : System) : ∀ op : Op cfg, Decidable (Counted sys op)
  | .add request _ => inferInstanceAs (Decidable (1 ≤ request.maxTokens))
  | .postprocess tokenIds _ _ => inferInstanceAs (Decidable (∀ inFlight ∈ sys.inFlight,
      ∀ event ∈ inFlight.seqs.zip tokenIds,
        event.2 = ModelRunner.contextLen inFlight.isPrefill (sys.scheduler.seqs event.1)))
  | .schedule _ | .runFailed _ | .cancel _ _ | .completeRemoteRestore _ _
  | .failRemoteRestore _ _ _ _ => .isTrue trivial

theorem SampledBy.of_counted (counted : Counted sys op) : SampledBy cfg countTokens sys op := by
  cases op with
  | postprocess tokenIds elapsedMs now =>
    intro inFlight flying ran _ event mem history attends
    rw [counted inFlight flying event mem, countTokens, attends.length]
  | add | schedule | runFailed | cancel | completeRemoteRestore | failRemoteRestore =>
    exact counted

/-- One request is in the memory when another one arrives. -/
def sharedRun : System :=
  (init smallPool).runOps smallPool [.add (repeatedRequest 0 1 3 3) 0]

/-- The other request loses its pages to the first one, and gets them back from a remote restore. -/
def servedOps : List (Op smallPool) :=
  [.schedule (idleEnv _), .postprocess [3, 4] 1 1, .schedule (idleEnv _), .postprocess [4] 1 1,
    .schedule (idleEnv _), .postprocess [5] 1 1, .schedule twoPagesEnv,
    .completeRemoteRestore 1 2, .schedule twoPagesEnv, .postprocess [5] 1 3]

/-- The state when the other request has arrived. -/
def arrivedRun : System := next smallPool sharedRun (.add (repeatedRequest 1 2 4 2) 0)

theorem serving_refines_servedOps :
    ((arrivedRun.runOps smallPool servedOps).scheduler.seqs 1).completionTokenIds =
        complete countTokens (stopsAt (-1) false) 2 [2, 2, 2, 2] ∧
      (arrivedRun.runOps smallPool servedOps).reported 1 =
        complete countTokens (stopsAt (-1) false) 2 [2, 2, 2, 2] := by
  have first : EnabledAll smallPool (SampledBy smallPool countTokens) (init smallPool)
      [.add (repeatedRequest 0 1 3 3) 0] := EnabledAll.imp SampledBy.of_counted (by decide +kernel)
  have reachable := ReachableBy.init.runOps first
  have enabled : sharedRun.Enabled (@Op.add smallPool (repeatedRequest 1 2 4 2) 0) := by
    decide +kernel
  have added := reachable.valid.step_next enabled
  have positive : 1 ≤ (repeatedRequest 1 2 4 2).maxTokens := by decide
  have counted : EnabledAll smallPool (SampledBy smallPool countTokens) arrivedRun servedOps :=
    EnabledAll.imp SampledBy.of_counted (by decide +kernel)
  exact serving_refines rfl reachable enabled positive added
    ((reachable.step enabled positive added).valid.later_runOps counted) (by decide +kernel)

end System

end NanoVllm
