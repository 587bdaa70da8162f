import NanoVllm.Engine.Invariant
import Mathlib.Logic.Equiv.List
import Mathlib.Tactic.NormNum

/-!
# Runs of the serving loop

What no operation changes: the arguments a request was added with. A run can also be computed
from a list of operations, which yields reachable states.
-/

namespace NanoVllm

namespace System

variable {cfg : Config} {sys sys' : System} {op : Op cfg} {i j : SeqId}

/-- The fields of a request that are set when it is added. -/
structure SameSettings (seq seq' : Sequence) : Prop where
  numPromptTokens : seq'.numPromptTokens = seq.numPromptTokens
  maxTokens : seq'.maxTokens = seq.maxTokens
  ignoreEos : seq'.ignoreEos = seq.ignoreEos
  qos : seq'.qos = seq.qos
  arrivalStep : seq'.arrivalStep = seq.arrivalStep

namespace SameSettings

variable {seq seq' seq'' : Sequence}

theorem refl (seq : Sequence) : SameSettings seq seq := ⟨rfl, rfl, rfl, rfl, rfl⟩

theorem trans (first : SameSettings seq seq') (second : SameSettings seq' seq'') :
    SameSettings seq seq'' where
  numPromptTokens := second.numPromptTokens.trans first.numPromptTokens
  maxTokens := second.maxTokens.trans first.maxTokens
  ignoreEos := second.ignoreEos.trans first.ignoreEos
  qos := second.qos.trans first.qos
  arrivalStep := second.arrivalStep.trans first.arrivalStep

theorem of_request (same : Scheduler.SameRequest seq seq') : SameSettings seq seq' :=
  ⟨same.numPromptTokens, same.maxTokens, same.ignoreEos, same.qos, same.arrivalStep⟩

theorem of_processed {tokenId : Token} (processed : Scheduler.Processed cfg seq tokenId seq') :
    SameSettings seq seq' := by
  cases processed with
  | incomplete _ same => exact .of_request same
  | appended _ _ numPromptTokens maxTokens ignoreEos qos arrivalStep =>
    exact ⟨numPromptTokens, maxTokens, ignoreEos, qos, arrivalStep⟩

theorem of_processesAll {events : List (SeqId × Token)} {s s' : Scheduler}
    (processes : Scheduler.ProcessesAll cfg events s s') (i : SeqId) :
    SameSettings (s.seqs i) (s'.seqs i) := by
  induction processes with
  | done s => exact .refl _
  | @next j tokenId rest s s₁ s' processes _ ih =>
    refine SameSettings.trans ?_ ih
    by_cases same : i = j
    · subst same
      exact .of_processed processes.self
    · rw [processes.others same]
      exact .refl _

end SameSettings

/-- No operation changes the settings of a request. -/
theorem Steps.settings (steps : Steps cfg sys op sys') (enabled : sys.Enabled op)
    (known : i ∈ sys.known) : SameSettings (sys.scheduler.seqs i) (sys'.scheduler.seqs i) := by
  cases steps with
  | @add request now =>
    have other : (sys.scheduler.add request.toSequence now).seqs i = sys.scheduler.seqs i := by
      refine Function.update_of_ne ?_ _ _
      rintro rfl
      exact enabled.2 known
    change SameSettings _ ((sys.scheduler.add request.toSequence now).seqs i)
    rw [other]
    exact .refl _
  | schedule idle schedules =>
    obtain ⟨stepId, -, follows⟩ := schedules.follows
    exact .of_request (follows.request i)
  | postprocess flying written sampled processes => exact .of_processesAll processes i
  | runFailed => exact .refl _
  | @cancel j now s' known live cancels =>
    change SameSettings _ (s'.seqs i)
    rw [cancels.seqs]
    by_cases same : i = j
    · subst same
      rw [Function.update_self]
      exact ⟨rfl, rfl, rfl, rfl, rfl⟩
    · rw [Function.update_of_ne same]
      exact .refl _
  | cancelNothing => exact .refl _
  | @completeRemoteRestore state now s' mem ends =>
    change SameSettings _ (s'.seqs i)
    rw [ends.seqs]
    by_cases same : i = state.sequence
    · subst same
      rw [Function.update_self]
      exact .of_request ends.request
    · rw [Function.update_of_ne same]
      exact .refl _
  | @failRemoteRestore state now error garbage s' mem ends =>
    change SameSettings _ (s'.seqs i)
    rw [ends.seqs]
    by_cases same : i = state.sequence
    · subst same
      rw [Function.update_self]
      exact .of_request ends.request
    · rw [Function.update_of_ne same]
      exact .refl _

theorem Steps.known (steps : Steps cfg sys op sys') :
    sys'.known = sys.known ∨
      ∃ request now, op = .add request now ∧ sys'.known = sys.known ++ [request.seqId] ∧
        sys'.scheduler.seqs request.seqId =
          request.toSequence.markArrived sys.scheduler.stepId now := by
  cases steps with
  | @add request now => exact .inr ⟨request, now, rfl, rfl, Function.update_self _ _ _⟩
  | schedule | postprocess | runFailed | cancel | cancelNothing | completeRemoteRestore
  | failRemoteRestore => exact .inl rfl

theorem Steps.known_subset (steps : Steps cfg sys op sys') : sys.known ⊆ sys'.known := by
  rcases steps.known with same | ⟨request, now, -, same, -⟩
  · rw [same]
    exact List.Subset.refl _
  · rw [same]
    exact List.subset_append_left _ _

/-- A request which is known after an operation was known before it, or it has been added. -/
theorem Steps.known_or_added (steps : Steps cfg sys op sys') (known : i ∈ sys'.known) :
    i ∈ sys.known ∨ ∃ request now, op = .add request now ∧
      sys'.scheduler.seqs i = request.toSequence.markArrived sys.scheduler.stepId now := by
  rcases steps.known with same | ⟨request, now, isAdd, more, self⟩
  · rw [same] at known
    exact .inl known
  · rw [more, List.mem_append, List.mem_singleton] at known
    rcases known with old | rfl
    · exact .inl old
    · exact .inr ⟨request, now, isAdd, self⟩

/-- An operation is a postprocessing or another one. -/
theorem postprocess_or_other (op : Op cfg) :
    (∃ tokenIds elapsedMs now, op = .postprocess tokenIds elapsedMs now) ∨
      ∀ tokenIds elapsedMs now, op ≠ .postprocess tokenIds elapsedMs now := by
  cases op with
  | postprocess tokenIds elapsedMs now => exact .inl ⟨tokenIds, elapsedMs, now, rfl⟩
  | add | schedule | runFailed | cancel | completeRemoteRestore | failRemoteRestore =>
    right
    intro tokenIds elapsedMs now same
    cases same

/-- A property of the settings which holds of every added request holds of every known one. -/
theorem ReachableBy.settings {Allowed : System → Op cfg → Prop} {Property : Sequence → Prop}
    (reachable : ReachableBy cfg Allowed sys)
    (added : ∀ sys request now, Allowed sys (.add request now) →
      Property (request.toSequence.markArrived sys.scheduler.stepId now))
    (kept : ∀ seq seq', SameSettings seq seq' → Property seq → Property seq') :
    ∀ i ∈ sys.known, Property (sys.scheduler.seqs i) := by
  refine @ReachableBy.induction cfg sys Allowed
    (fun sys => ∀ i ∈ sys.known, Property (sys.scheduler.seqs i)) ?_ ?_ reachable
  · intro i known
    cases known
  intro sys sys' op _ _ allowed enabled steps ih i known
  rcases steps.known_or_added known with old | ⟨request, now, rfl, self⟩
  · exact kept _ _ (steps.settings enabled old) (ih i old)
  · rw [self]
    exact added sys request now allowed

/-! ## Computed runs -/

/-- The state after an operation; an operation which raises is skipped. -/
def next (cfg : Config) (sys : System) (op : Op cfg) : System :=
  match sys.step cfg op with
  | .ok sys' => sys'
  | .error _ => sys

/-- The state after some operations. -/
def runOps (cfg : Config) (sys : System) (ops : List (Op cfg)) : System := ops.foldl (next cfg) sys

/-- Every operation is enabled and allowed when its turn comes. -/
def EnabledAll (cfg : Config) (Allowed : System → Op cfg → Prop) : System → List (Op cfg) → Prop
  | _, [] => True
  | sys, op :: ops => (sys.Enabled op ∧ Allowed sys op) ∧ EnabledAll cfg Allowed (next cfg sys op) ops

theorem EnabledAll.imp {Allowed Allowed' : System → Op cfg → Prop}
    (weaker : ∀ {sys : System} {op : Op cfg}, Allowed sys op → Allowed' sys op)
    {ops : List (Op cfg)} (enabled : EnabledAll cfg Allowed sys ops) :
    EnabledAll cfg Allowed' sys ops := by
  induction ops generalizing sys with
  | nil => trivial
  | cons op ops ih => exact ⟨⟨enabled.1.1, weaker enabled.1.2⟩, ih enabled.2⟩

instance decidableEnabled (sys : System) : ∀ op : Op cfg, Decidable (sys.Enabled op)
  | .add request _ => inferInstanceAs (Decidable (request.prompt ≠ [] ∧ request.seqId ∉ sys.known))
  | .schedule _ => inferInstanceAs (Decidable (sys.inFlight = none))
  | .postprocess tokenIds _ _ => inferInstanceAs (Decidable (∃ batch ∈ sys.inFlight,
      batch.failed = false ∧ tokenIds.length = batch.seqs.length))
  | .runFailed _ => inferInstanceAs (Decidable (sys.inFlight ≠ none))
  | .cancel i _ =>
      inferInstanceAs (Decidable (∀ batch ∈ sys.inFlight, i ∈ batch.seqs → batch.failed = true))
  | .completeRemoteRestore i _ =>
      inferInstanceAs (Decidable (∃ state ∈ sys.scheduler.pendingRestores, state.sequence = i))
  | .failRemoteRestore i _ _ _ =>
      inferInstanceAs (Decidable (∃ state ∈ sys.scheduler.pendingRestores, state.sequence = i))

instance decidableEnabledAll (Allowed : System → Op cfg → Prop)
    [∀ sys op, Decidable (Allowed sys op)] :
    ∀ sys ops, Decidable (EnabledAll cfg Allowed sys ops)
  | _, [] => .isTrue trivial
  | sys, op :: ops =>
      have := decidableEnabledAll Allowed (next cfg sys op) ops
      inferInstanceAs (Decidable ((sys.Enabled op ∧ Allowed sys op) ∧
        EnabledAll cfg Allowed (next cfg sys op) ops))

theorem Valid.step_next (valid : sys.Valid cfg) {op : Op cfg} (enabled : sys.Enabled op) :
    sys.step cfg op = .ok (next cfg sys op) := by
  rcases valid.step enabled with ⟨sys', stepped, -⟩
  rw [next, stepped]

theorem ReachableBy.runOps {Allowed : System → Op cfg → Prop}
    (reachable : ReachableBy cfg Allowed sys) {ops : List (Op cfg)}
    (enabled : EnabledAll cfg Allowed sys ops) : ReachableBy cfg Allowed (sys.runOps cfg ops) := by
  induction ops generalizing sys with
  | nil => exact reachable
  | cons op ops ih =>
    apply ih _ enabled.2
    exact .step reachable enabled.1.1 enabled.1.2 (reachable.valid.step_next enabled.1.1)

/-! ## Concrete runs -/

/-- An injective function as the page hash. -/
def encodeHash : PageHash where
  computeHash tokens prefixHash := Encodable.encode (tokens, prefixHash)
  collisionFree same := Prod.mk.inj (Encodable.encode_injective same)

/-- The defaults of `Config` with the radix cache, for a memory of the given size. -/
def defaultConfig (blockSize numBlocks maxNumSeqs : ℕ) (two_le : 2 ≤ blockSize) : Config where
  maxNumSeqs := maxNumSeqs
  maxNumActiveSeqs := none
  kvAdmissionLookahead := 0
  maxNumBatchedTokens := 16384
  eos := -1
  blockSize := blockSize
  numBlocks := numBlocks
  prefixCacheBackend := .radix
  pageHash := encodeHash
  schedulingPolicy := .fcfs
  qosBestEffortSloMs := 60000
  qosPriorityBoostMs := 50
  qosAgingMsPerStep := 1
  qosPrefillMsPerToken := 1 / 20
  qosDecodeMsPerToken := 5
  qosEwmaAlpha := 1 / 5
  kvReclaimPolicy := .sloAware
  kvReclaimMinKeepRatio := 0
  kvReclaimMaxKeepRatio := 3 / 4
  kvReclaimBudgetScaleMs := 1000
  kvReclaimTargetFreeBlocks := 2
  kvCompressionPolicy := .none
  kvCompressionSinkBlocks := 1
  kvCompressionRecentBlocks := 8
  kvCompressionImportanceBlocks := 2
  kvCompressionQueryTokens := 64
  kvCompressionTriggerFreeRatio := 3 / 20
  two_le_blockSize := two_le
  maxNumActiveSeqs_pos := nofun
  keepRatios := by norm_num
  budgetScale_pos := by norm_num
  sinkBlocks_pos := le_refl _
  recentBlocks_pos := by norm_num
  importanceBlocks_pos := by norm_num
  queryTokens_pos := by norm_num

theorem one_le_one : 1 ≤ 1 := le_rfl

theorem two_le_two : 2 ≤ 2 := le_rfl

theorem two_le_four : 2 ≤ 4 := by decide

/-- A `schedule()` call at time zero without a remote restore service. -/
def idleEnv (cfg : Config) : ScheduleEnv cfg where
  now := 0
  retryNow := 0
  preemptNow := fun _ => 0
  service := .absent cfg
  submitError := fun _ => none

/-- A request with the given prompt length. -/
def plainRequest (seqId promptLength maxTokens : ℕ) : Request where
  seqId := seqId
  prompt := List.replicate promptLength 1
  maxTokens := maxTokens
  ignoreEos := false
  qos := { priority := 0, ttftSloMs := none, tpotSloMs := none, e2eSloMs := none }
  arrivalTime := none

theorem exists_of_map {α β : Type} {result : Py α} {f : α → β} {b : β}
    (mapped : result.map f = .ok b) : ∃ a, result = .ok a ∧ f a = b := by
  cases result with
  | error error => cases mapped
  | ok a =>
    cases mapped
    exact ⟨a, rfl, rfl⟩

end System

end NanoVllm
