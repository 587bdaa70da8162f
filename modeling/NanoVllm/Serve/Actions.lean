import NanoVllm.Serve.StreamedText

/-!
# What an action of the worker does

Most actions only forget requests and outputs. The others submit a request, admit it, take the
outputs of a step, and finish a request in three parts.
-/

namespace NanoVllm.Serve

variable {M : Type} {config : EngineConfig} {s s' s₁ : State M}

/-- The request which `_finish` is called for, with the tokens of its output. -/
def Phase.finishedRequest : Phase → Option (ActiveRequest × List Token)
  | .finishing state tokenIds _ => some (state, tokenIds)
  | .finishMetrics state tokenIds _ _ => some (state, tokenIds)
  | _ => none

/-- The text which `_finish` has decoded. -/
def Phase.finishedText : Phase → Option String
  | .finishMetrics _ _ text _ => some text
  | _ => none

/-- Whether an event is the result of a request. -/
def GenerationEvent.isFinished : GenerationEvent M → Bool
  | .finished .. => true
  | _ => false

/-- Nothing but parts of texts has been added. -/
structure Shrinks (s s' : State M) : Prop where
  waiting : ∀ queued ∈ s'.waiting, queued ∈ s.waiting
  active : ∀ state ∈ s'.active, ∃ old ∈ s.active, state.queued = old.queued ∧
    state.seqId = old.seqId ∧ state.promptTokens = old.promptTokens
  outputs : ∀ output ∈ s'.phase.outputsLeft, output ∈ s.phase.outputsLeft
  finishes : s'.phase.finishedRequest = none
  finished : ∀ handle, ∀ event ∈ s'.events handle, event.isFinished = true →
    event ∈ s.events handle

/-- What an action does. -/
inductive Does (config : EngineConfig) (s : State M) : Action M → State M → Prop
  | shrinks {action : Action M} {s' : State M} (shrinks : Shrinks s s') : Does config s action s'
  | client {action : Action M} {s' : State M}
      (waiting : ∀ queued ∈ s'.waiting, queued ∈ s.waiting ∨
        ∃ stream maxTokens, action = .submit stream maxTokens ∧
          queued = ⟨s.submitted, stream, maxTokens⟩)
      (active : s'.active = s.active) (phase : s'.phase = s.phase) (events : s'.events = s.events) :
      Does config s action s'
  | adds {queued : QueuedRequest} {promptTokens : ℕ} {seqId : SeqId}
      (phase : s.phase = .adding queued) :
      Does config s (.worker (.admitted (.ok promptTokens) (.ok seqId)))
        { s with
          active := s.active ++
            [{ queued, seqId, promptTokens, tokenIds := [], emittedText := "" }]
          phase := .draining }
  | steps {events : List (SeqId × Token)} {outputs : List (SeqId × List Token)}
      (phase : s.phase = .stepping) :
      Does config s (.worker (.step (.ok (events, outputs))))
        { s with phase := .tokens events outputs }
  | takes {seqId : SeqId} {tokenIds : List Token} {outputs : List (SeqId × List Token)}
      {state : ActiveRequest} (phase : s.phase = .outputs ((seqId, tokenIds) :: outputs))
      (found : getState s.active seqId = some state) :
      Does config s (.worker .proceed)
        { s with
          active := dropState s.active seqId, phase := .finishing state tokenIds outputs }
  | decodes {state : ActiveRequest} {tokenIds : List Token}
      {outputs : List (SeqId × List Token)} {text : String} {s' : State M}
      (phase : s.phase = .finishing state tokenIds outputs) (waiting : s'.waiting = s.waiting)
      (active : s'.active = s.active)
      (phase' : s'.phase = .finishMetrics state tokenIds text outputs)
      (finished : ∀ handle, ∀ event ∈ s'.events handle, event.isFinished = true →
        event ∈ s.events handle) :
      Does config s (.worker (.finishDecoded (.ok text))) s'
  | finishes {state : ActiveRequest} {tokenIds : List Token} {text : String}
      {outputs : List (SeqId × List Token)} {metrics : Option M}
      (phase : s.phase = .finishMetrics state tokenIds text outputs) :
      Does config s (.worker (.requestMetrics (.ok metrics)))
        ({ s with phase := .outputs outputs }.put state.queued.handle
          (.finished text tokenIds state.promptTokens (finishReason config state tokenIds) metrics))

theorem State.mem_put {handle other : HandleId} {event event' : GenerationEvent M} :
    event' ∈ (s.put handle event).events other ↔
      event' ∈ s.events other ∨ other = handle ∧ event' = event := by
  change event' ∈ Function.update s.events handle (s.events handle ++ [event]) other ↔ _
  by_cases self : other = handle
  · subst self
    simp
  · simp [self]

/-- A thread which admits no request has no other requests waiting. -/
theorem mem_waiting {queued : QueuedRequest} (mem : queued ∈ s'.waiting)
    (incoming : s'.incoming = s.incoming) (none : s'.phase.queued = []) : queued ∈ s.waiting := by
  rw [State.waiting, none, List.append_nil, incoming] at mem
  exact List.mem_append_left _ mem

theorem Shrinks.goTo {incoming : List Item} {active : List ActiveRequest} {phase : Phase}
    (waiting : ∀ queued ∈ queuedRequests incoming ++ phase.queued, queued ∈ s.waiting)
    (subset : active ⊆ s.active) (outputs : phase.outputsLeft ⊆ s.phase.outputsLeft)
    (finishes : phase.finishedRequest = none) : Shrinks s { s with incoming, active, phase } where
  waiting := waiting
  active state mem := ⟨state, subset mem, rfl, rfl, rfl⟩
  outputs _ mem := outputs mem
  finishes := finishes
  finished _ _ mem _ := mem

/-- The thread goes on without a new request. -/
theorem Shrinks.turn (phase : Phase) (queued : phase.queued ⊆ s.phase.queued)
    (outputs : phase.outputsLeft ⊆ s.phase.outputsLeft)
    (finishes : phase.finishedRequest = none) : Shrinks s { s with phase } := by
  apply Shrinks.goTo _ (List.Subset.refl _) outputs finishes
  intro other mem
  rcases List.mem_append.mp mem with old | held
  · exact List.mem_append_left _ old
  · exact List.mem_append_right _ (queued held)

theorem Shrinks.put (shrinks : Shrinks s s₁) {handle : HandleId} {event : GenerationEvent M}
    (notFinished : event.isFinished = false) : Shrinks s (s₁.put handle event) where
  waiting := shrinks.waiting
  active := shrinks.active
  outputs := shrinks.outputs
  finishes := shrinks.finishes
  finished other event' mem isFinished := by
    rcases State.mem_put.mp mem with old | ⟨-, rfl⟩
    · exact shrinks.finished _ _ old isFinished
    · rw [notFinished] at isFinished
      cases isFinished

/-- The loop over the token events of a step. -/
theorem Shrinks.tokenEvent {seqId : SeqId} {tokenId : Token} {tokens : List (SeqId × Token)}
    {outputs : List (SeqId × List Token)} {decoded : Except PyException String}
    (phase : s.phase = .tokens ((seqId, tokenId) :: tokens) outputs) :
    Shrinks s (tokenEvent s seqId tokenId tokens outputs decoded) := by
  have waiting : ∀ phase' : Phase, phase'.queued = [] → ∀ active,
      ∀ queued ∈ State.waiting { s with active, phase := phase' }, queued ∈ s.waiting :=
    fun _ none _ _ mem => mem_waiting mem rfl none
  have outputs' : ∀ output ∈ outputs, output ∈ s.phase.outputsLeft := by
    intro output mem
    rw [phase]
    exact mem
  unfold Serve.tokenEvent
  split
  · exact ⟨waiting _ rfl _, fun state mem => ⟨state, mem, rfl, rfl, rfl⟩, outputs', rfl,
      fun _ _ mem _ => mem⟩
  · next state found =>
    rcases getState_eq found with ⟨mem, -⟩
    have replaced : ∀ changed : ActiveRequest, changed.queued = state.queued →
        changed.seqId = state.seqId → changed.promptTokens = state.promptTokens →
        ∀ other ∈ setState s.active changed, ∃ old ∈ s.active, other.queued = old.queued ∧
          other.seqId = old.seqId ∧ other.promptTokens = old.promptTokens := by
      intro changed queued seqId' promptTokens other inside
      rcases mem_setState inside with rfl | ⟨old, -⟩
      · exact ⟨state, mem, queued, seqId', promptTokens⟩
      · exact ⟨other, old, rfl, rfl, rfl⟩
    dsimp only
    split
    · split
      · refine ⟨waiting _ rfl _, replaced _ rfl rfl rfl, ?_, rfl, fun _ _ mem _ => mem⟩
        intro output left
        cases left
      · next text =>
        have stable : ∀ changed : ActiveRequest, ∀ text,
            (decodeStableDelta changed text).1.queued = changed.queued ∧
            (decodeStableDelta changed text).1.seqId = changed.seqId ∧
            (decodeStableDelta changed text).1.promptTokens = changed.promptTokens := by
          intro changed text
          rw [decodeStableDelta]
          split <;> exact ⟨rfl, rfl, rfl⟩
        rcases stable { state with tokenIds := state.tokenIds ++ [tokenId] } text with
          ⟨queued, seqId', promptTokens⟩
        have advanced := replaced _ queued seqId' promptTokens
        split
        · exact ⟨waiting _ rfl _, advanced, outputs', rfl, fun _ _ mem _ => mem⟩
        · apply Shrinks.put _ rfl
          exact ⟨waiting _ rfl _, advanced, outputs', rfl, fun _ _ mem _ => mem⟩
    · exact ⟨waiting _ rfl _, replaced _ rfl rfl rfl, outputs', rfl, fun _ _ mem _ => mem⟩

/-- What an action of the engine thread does. -/
theorem work_does {response : Response M} (stepped : work config s response = some s') :
    Does config s (.worker response) s' := by
  have nothing : ∀ phase : Phase, phase.queued = [] → phase.outputsLeft = [] →
      phase.finishedRequest = none → Shrinks s { s with phase } := by
    intro phase queued outputs finishes
    apply Shrinks.turn phase _ _ finishes
    · rw [queued]
      exact List.nil_subset _
    · rw [outputs]
      exact List.nil_subset _
  rcases s with ⟨incoming, events, cancelled, active, phase, submitted, checked⟩
  cases phase with
  | starting =>
    cases response with
    | factory raised =>
      cases raised <;> cases stepped <;> exact .shrinks (nothing _ rfl rfl rfl)
    | _ => cases stepped
  | startMetrics =>
    cases response with
    | schedulerMetrics raised =>
      cases raised <;> cases stepped <;> exact .shrinks (nothing _ rfl rfl rfl)
    | _ => cases stepped
  | draining =>
    cases response with
    | proceed =>
      cases incoming with
      | nil =>
        cases stepped
        exact .shrinks (nothing _ rfl rfl rfl)
      | cons item incoming =>
        cases item with
        | stop =>
          cases stepped
          exact .shrinks (.goTo (fun _ mem => mem) (List.Subset.refl _) (List.nil_subset _) rfl)
        | request queued =>
          cases stepped
          refine .shrinks (.goTo ?_ (List.Subset.refl _) (List.nil_subset _) rfl)
          intro other mem
          rcases List.mem_append.mp mem with old | new
          · exact List.mem_append_left _ (List.mem_cons_of_mem _ old)
          · rw [List.mem_singleton.mp new]
            exact List.mem_append_left _ List.mem_cons_self
    | _ => cases stepped
  | admitting queued =>
    cases response with
    | proceed =>
      simp only [work] at stepped
      split at stepped
      · cases stepped
        exact .shrinks ((nothing .draining rfl rfl rfl).put rfl)
      · cases stepped
        exact .shrinks (.turn _ (List.Subset.refl _) (List.nil_subset _) rfl)
    | _ => cases stepped
  | adding queued =>
    cases response with
    | admitted promptTokens seqId =>
      simp only [work] at stepped
      split at stepped
      · cases stepped
        exact .shrinks ((nothing .draining rfl rfl rfl).put rfl)
      · next state admitted =>
        split at stepped
        · cases stepped
        · cases stepped
          rcases admitRequest_ok admitted with ⟨n, i, rfl, rfl, rfl⟩
          exact .adds rfl
    | _ => cases stepped
  | cancelling stopping rest =>
    cases rest with
    | nil =>
      cases response with
      | proceed =>
        simp only [work] at stepped
        split at stepped
        · cases stepped
          exact .shrinks (nothing _ rfl rfl rfl)
        · split at stepped <;> cases stepped <;> exact .shrinks (nothing _ rfl rfl rfl)
      | _ => cases stepped
    | cons state rest =>
      cases response with
      | proceed =>
        simp only [work] at stepped
        split at stepped <;> cases stepped <;> exact .shrinks (nothing _ rfl rfl rfl)
      | _ => cases stepped
  | cancelRequest stopping state rest =>
    cases response with
    | cancelRequest raised =>
      cases raised with
      | none =>
        cases stepped
        have kept : dropState active state.seqId ⊆ active := dropState_sublist.subset
        have moved := @Shrinks.goTo M
          ⟨incoming, events, cancelled, active, .cancelRequest stopping state rest, submitted,
            checked⟩ incoming _ (.cancelling stopping rest) (fun _ mem => mem) kept
          (List.nil_subset _) rfl
        exact .shrinks (moved.put rfl)
      | some exc =>
        cases stepped
        exact .shrinks (nothing _ rfl rfl rfl)
    | _ => cases stepped
  | idle =>
    cases response with
    | schedulerMetrics raised =>
      cases raised <;> cases stepped <;> exact .shrinks (nothing _ rfl rfl rfl)
    | _ => cases stepped
  | stepping =>
    cases response with
    | step result =>
      cases result with
      | error exc =>
        cases stepped
        exact .shrinks (nothing _ rfl rfl rfl)
      | ok result =>
        cases stepped
        exact .steps rfl
    | _ => cases stepped
  | tokens tokens outputs =>
    cases tokens with
    | nil =>
      cases response with
      | proceed =>
        cases stepped
        exact .shrinks (.turn _ (List.nil_subset _) (List.Subset.refl _) rfl)
      | _ => cases stepped
    | cons token tokens =>
      cases response with
      | decoded text =>
        cases stepped
        exact .shrinks (.tokenEvent rfl)
      | _ => cases stepped
  | outputs outputs =>
    cases outputs with
    | nil =>
      cases response with
      | proceed =>
        cases stepped
        exact .shrinks (nothing _ rfl rfl rfl)
      | _ => cases stepped
    | cons output outputs =>
      cases response with
      | proceed =>
        simp only [work] at stepped
        split at stepped
        · cases stepped
          exact .shrinks (.turn _ (List.nil_subset _) (List.subset_cons_self _ _) rfl)
        · next state found =>
          cases stepped
          exact .takes rfl found
      | _ => cases stepped
  | finishing state tokenIds outputs =>
    cases response with
    | finishDecoded text =>
      cases text with
      | error exc =>
        cases stepped
        exact .shrinks (nothing _ rfl rfl rfl)
      | ok text =>
        simp only [work] at stepped
        split at stepped
        · next tail found =>
          cases stepped
          refine .decodes rfl ?_ rfl rfl ?_
          · rfl
          · intro handle event mem isFinished
            rcases State.mem_put.mp mem with old | ⟨-, rfl⟩
            · exact old
            · cases isFinished
        · cases stepped
          exact .decodes rfl rfl rfl rfl fun _ _ mem _ => mem
    | _ => cases stepped
  | finishMetrics state tokenIds text outputs =>
    cases response with
    | requestMetrics metrics =>
      cases metrics with
      | error exc =>
        cases stepped
        exact .shrinks (nothing _ rfl rfl rfl)
      | ok metrics =>
        cases stepped
        exact .finishes rfl
    | _ => cases stepped
  | stepMetrics =>
    cases response with
    | schedulerMetrics raised =>
      cases raised <;> cases stepped <;> exact .shrinks (nothing _ rfl rfl rfl)
    | _ => cases stepped
  | failing exc rest =>
    cases rest with
    | nil =>
      cases response with
      | proceed =>
        cases stepped
        exact .shrinks (.goTo (fun _ mem => mem) (List.nil_subset _) (List.nil_subset _) rfl)
      | _ => cases stepped
    | cons state rest =>
      cases response with
      | cancelRequest raised =>
        cases stepped
        exact .shrinks ((nothing (.failing exc rest) rfl rfl rfl).put rfl)
      | _ => cases stepped
  | failMetrics =>
    cases response with
    | schedulerMetrics raised =>
      cases raised <;> cases stepped <;> exact .shrinks (nothing _ rfl rfl rfl)
    | _ => cases stepped
  | closing rest =>
    cases rest with
    | nil =>
      cases response with
      | proceed =>
        cases stepped
        exact .shrinks (nothing _ rfl rfl rfl)
      | _ => cases stepped
    | cons state rest =>
      cases response with
      | cancelRequest raised =>
        cases stepped
        exact .shrinks ((nothing (.closing rest) rfl rfl rfl).put rfl)
      | _ => cases stepped
  | exited => cases stepped

/-- What an action of any thread does. -/
theorem next_does {action : Action M} (stepped : next config s action = some s') :
    Does config s action s' := by
  cases action with
  | checkAlive =>
    simp only [next] at stepped
    split at stepped
    · cases stepped
    · cases stepped
      exact .client (fun _ => .inl) rfl rfl rfl
  | submit stream maxTokens =>
    simp only [next] at stepped
    split at stepped
    · cases stepped
    · cases stepped
      refine .client ?_ rfl rfl rfl
      intro queued mem
      simp only [State.waiting, queuedRequests, List.filterMap_append, List.mem_append] at mem ⊢
      rcases mem with (old | new) | held
      · exact .inl (.inl old)
      · exact .inr ⟨stream, maxTokens, rfl, by simpa using new⟩
      · exact .inl (.inr held)
  | cancel handle =>
    cases stepped
    exact .client (fun _ => .inl) rfl rfl rfl
  | stop =>
    cases stepped
    refine .client ?_ rfl rfl rfl
    intro queued mem
    left
    simpa [State.waiting, queuedRequests] using mem
  | worker response => exact work_does stepped

end NanoVllm.Serve
