import NanoVllm.Serve.ServingStack
import NanoVllm.Serve.TextDeltas

/-!
# Streamed text

In every run the text parts of an active request are the start of its text, and the tokens which
it has received are those which the engine has reported. The engine reports every token of an
output before the output, so the text parts of a request which finishes are the pieces of its
final text.
-/

namespace NanoVllm.Serve

open NanoVllm.System (tokensOf tokensOf_cons_self)

variable {M : Type} {config : EngineConfig} {decode : List Token → String}
  {streams : HandleId → Bool} {reported : SeqId → List Token} {s s' : State M}

/-! ## The requests of a worker -/

/-- The requests in the incoming queue. -/
def queuedRequests (incoming : List Item) : List QueuedRequest :=
  incoming.filterMap fun
    | .request queued => some queued
    | .stop => none

namespace Phase

/-- The request which is being admitted. -/
def queued : Phase → List QueuedRequest
  | .admitting queued => [queued]
  | .adding queued => [queued]
  | _ => []

/-- The token events which the loop over them has left. -/
def tokenEvents : Phase → List (SeqId × Token)
  | .tokens events _ => events
  | _ => []

/-- The outputs which the loop over them has left. -/
def outputsLeft : Phase → List (SeqId × List Token)
  | .tokens _ left => left
  | .outputs left => left
  | .finishing _ _ left => left
  | .finishMetrics _ _ _ left => left
  | _ => []

/-- Whether the thread is in `_finish`. -/
def finishes : Phase → Bool
  | .finishing .. => true
  | .finishMetrics .. => true
  | _ => false

/-- Whether no active request receives text any more. -/
def fails : Phase → Bool
  | .failing .. => true
  | .closing _ => true
  | .exited => true
  | _ => false

end Phase

/-- The requests which have not been admitted. -/
def State.waiting (s : State M) : List QueuedRequest := queuedRequests s.incoming ++ s.phase.queued

/-- The handles which can still receive their terminal event have received none. -/
structure State.Open (s : State M) : Prop where
  distinct : s.pending.Nodup
  submitted : ∀ handle ∈ s.pending, handle < s.submitted
  opened : ∀ handle ∈ s.pending, ∀ event ∈ s.events handle, event.isTerminal = false

theorem Accounts.isOpen {lost done : List HandleId} (accounts : Accounts s lost done) : s.Open where
  distinct := by
    have distinct := accounts.perm.nodup_iff.mp List.nodup_range
    rw [List.append_assoc] at distinct
    exact (List.nodup_append.mp distinct).1
  submitted := by
    intro handle mem
    apply List.mem_range.mp
    rw [accounts.perm.mem_iff, List.append_assoc]
    exact List.mem_append_left _ mem
  opened := fun handle mem => accounts.opened handle (accounts.not_mem_done mem)

theorem queuedHandles_eq (incoming : List Item) :
    queuedHandles incoming = (queuedRequests incoming).map QueuedRequest.handle := by
  rw [queuedHandles, queuedRequests, List.map_filterMap]
  congr 1
  funext item
  cases item <;> rfl

theorem waiting_pending {queued : QueuedRequest} (mem : queued ∈ s.waiting) :
    queued.handle ∈ s.pending := by
  rw [State.pending, queuedHandles_eq]
  apply List.mem_append_left
  rcases List.mem_append.mp mem with old | new
  · exact List.mem_append_left _ (List.mem_map_of_mem old)
  · apply List.mem_append_right
    revert new
    cases s.phase <;> simp +contextual [Phase.queued, Phase.held]

theorem active_pending (fails : s.phase.fails = false) {state : ActiveRequest}
    (mem : state ∈ s.active) : state.handle ∈ s.pending := by
  apply List.mem_append_right
  have owed : s.phase.owed s.active = s.active := by
    revert fails
    cases s.phase <;> simp [Phase.fails, Phase.owed]
  rw [owed]
  exact List.mem_map_of_mem mem

/-- An active request with the tokens which have been reported for it. -/
structure Tracked (decode : List Token → String) (streams : HandleId → Bool)
    (reported : SeqId → List Token) (events : HandleId → List (GenerationEvent M))
    (later : List Token) (state : ActiveRequest) : Prop where
  tokens : reported state.seqId = state.tokenIds ++ later
  emits : Emits decode (events state.handle) state
  stream : state.queued.stream = streams state.handle

/-- The handles which receive no events any more or none yet. -/
structure Ends (streams : HandleId → Bool) (events : HandleId → List (GenerationEvent M))
    (submitted : ℕ) : Prop where
  unsubmitted : ∀ handle, submitted ≤ handle → events handle = []
  finished : ∀ handle text tokenIds promptTokens reason metrics, streams handle = true →
    .finished text tokenIds promptTokens reason metrics ∈ events handle →
    ∃ texts, events handle = texts ++ [.finished text tokenIds promptTokens reason metrics] ∧
      StreamedAs texts text

/-- Where the text of every streamed request is. -/
structure Streaming (decode : List Token → String) (streams : HandleId → Bool)
    (reported : SeqId → List Token) (s : State M) : Prop where
  waits : ∀ queued ∈ s.waiting,
    s.events queued.handle = [] ∧ queued.stream = streams queued.handle
  active : s.phase.fails = false → ∀ state ∈ s.active, Tracked decode streams reported s.events
    (tokensOf s.phase.tokenEvents state.seqId) state
  outputs : ∀ output ∈ s.phase.outputsLeft, output.2 = reported output.1
  finishing : ∀ state tokenIds outputs, s.phase = .finishing state tokenIds outputs →
    Tracked decode streams reported s.events [] state ∧ tokenIds = reported state.seqId
  finishMetrics : ∀ state tokenIds text outputs,
    s.phase = .finishMetrics state tokenIds text outputs → streams state.handle = true →
    StreamedAs (s.events state.handle) text
  ends : Ends streams s.events s.submitted

theorem Ends.put {events : HandleId → List (GenerationEvent M)} {submitted : ℕ}
    (ends : Ends streams events submitted) {handle : HandleId} {event : GenerationEvent M}
    (below : handle < submitted) (opened : ∀ event ∈ events handle, event.isTerminal = false)
    (closes : ∀ text tokenIds promptTokens reason metrics, streams handle = true →
      event = .finished text tokenIds promptTokens reason metrics →
      StreamedAs (events handle) text) :
    Ends streams (Function.update events handle (events handle ++ [event])) submitted where
  unsubmitted := by
    intro other beyond
    have differ : other ≠ handle := (below.trans_le beyond).ne'
    rw [Function.update_of_ne differ]
    exact ends.unsubmitted other beyond
  finished := by
    intro other text tokenIds promptTokens reason metrics stream mem
    by_cases same : other = handle
    · subst same
      rw [Function.update_self] at mem ⊢
      rcases List.mem_append.mp mem with old | new
      · cases opened _ old
      · have last := (List.mem_singleton.mp new).symm
        subst last
        exact ⟨_, rfl, closes _ _ _ _ _ stream rfl⟩
    · rw [Function.update_of_ne same] at mem ⊢
      exact ends.finished other text tokenIds promptTokens reason metrics stream mem

namespace Streaming

/-- A step without an event, after which no request is in `_finish`. -/
theorem goTo (streaming : Streaming decode streams reported s) {incoming : List Item}
    {active : List ActiveRequest} {phase : Phase}
    (waits : ∀ queued ∈ queuedRequests incoming ++ phase.queued, queued ∈ s.waiting)
    (kept : phase.fails = false → ∀ state ∈ active, s.phase.fails = false ∧ state ∈ s.active ∧
      tokensOf phase.tokenEvents state.seqId = tokensOf s.phase.tokenEvents state.seqId)
    (outputs : phase.outputsLeft ⊆ s.phase.outputsLeft) (finishes : phase.finishes = false) :
    Streaming decode streams reported { s with incoming, active, phase } where
  waits := fun queued mem => streaming.waits queued (waits queued mem)
  active := by
    intro works state mem
    rcases kept works state mem with ⟨worked, old, tokens⟩
    rw [tokens]
    exact streaming.active worked state old
  outputs := fun output mem => streaming.outputs output (outputs mem)
  finishing := by
    rintro state tokenIds outputs rfl
    cases finishes
  finishMetrics := by
    rintro state tokenIds text outputs rfl
    cases finishes
  ends := streaming.ends

/-- A step which only changes the phase. -/
theorem turn (streaming : Streaming decode streams reported s) (phase : Phase)
    (queued : phase.queued ⊆ s.phase.queued) (kept : phase.fails = false → s.phase.fails = false)
    (tokens : phase.tokenEvents = s.phase.tokenEvents)
    (outputs : phase.outputsLeft ⊆ s.phase.outputsLeft) (finishes : phase.finishes = false) :
    Streaming decode streams reported { s with phase } := by
  refine streaming.goTo ?_ ?_ outputs finishes
  · intro other mem
    rcases List.mem_append.mp mem with old | new
    · exact List.mem_append_left _ old
    · exact List.mem_append_right _ (queued new)
  · intro works state mem
    rw [tokens]
    exact ⟨kept works, mem, rfl⟩

/-- An event of a request which is in no container any more. -/
theorem put (streaming : Streaming decode streams reported s) {handle : HandleId}
    {event : GenerationEvent M} (gone : handle ∉ s.pending)
    (ends : Ends streams (s.put handle event).events s.submitted) :
    Streaming decode streams reported (s.put handle event) where
  waits := by
    intro queued mem
    have waiting : queued ∈ s.waiting := mem
    have other : queued.handle ≠ handle := by
      rintro rfl
      exact gone (waiting_pending waiting)
    rw [show (s.put handle event).events queued.handle = s.events queued.handle from
      Function.update_of_ne other _ _]
    exact streaming.waits queued waiting
  active := by
    intro works state mem
    have other : state.handle ≠ handle := by
      rintro rfl
      exact gone (active_pending works mem)
    have tracked := streaming.active works state mem
    refine ⟨tracked.tokens, ?_, tracked.stream⟩
    rw [show (s.put handle event).events state.handle = s.events state.handle from
      Function.update_of_ne other _ _]
    exact tracked.emits
  outputs := streaming.outputs
  finishing := by
    intro state tokenIds outputs phase
    have other : state.handle ≠ handle := by
      rintro rfl
      apply gone
      rw [State.pending, show s.phase = .finishing state tokenIds outputs from phase]
      simp [Phase.held, ActiveRequest.handle]
    rcases streaming.finishing state tokenIds outputs phase with ⟨tracked, output⟩
    refine ⟨⟨tracked.tokens, ?_, tracked.stream⟩, output⟩
    rw [show (s.put handle event).events state.handle = s.events state.handle from
      Function.update_of_ne other _ _]
    exact tracked.emits
  finishMetrics := by
    intro state tokenIds text outputs phase stream
    have other : state.handle ≠ handle := by
      rintro rfl
      apply gone
      rw [State.pending, show s.phase = .finishMetrics state tokenIds text outputs from phase]
      simp [Phase.held, ActiveRequest.handle]
    rw [show (s.put handle event).events state.handle = s.events state.handle from
      Function.update_of_ne other _ _]
    exact streaming.finishMetrics state tokenIds text outputs phase stream
  ends := ends

/-- The terminal event of a request which can still receive it. -/
theorem deliver (isOpen : s.Open) {handle : HandleId} {event : GenerationEvent M} {s₁ : State M}
    (moved : Streaming decode streams reported s₁) (events : s₁.events = s.events)
    (submitted : s₁.submitted = s.submitted) (waits : handle ∈ s.pending)
    (terminal : event.isTerminal = true) (isOpen' : (s₁.put handle event).Open)
    (closes : ∀ text tokenIds promptTokens reason metrics, streams handle = true →
      event = .finished text tokenIds promptTokens reason metrics →
      StreamedAs (s.events handle) text) :
    Streaming decode streams reported (s₁.put handle event) := by
  apply moved.put
  · intro pending
    have text : event.isTerminal = false := by
      apply isOpen'.opened handle pending event
      rw [show (s₁.put handle event).events handle = s₁.events handle ++ [event] from
        Function.update_self _ _ _]
      exact List.mem_append_right _ List.mem_cons_self
    rw [terminal] at text
    cases text
  · apply moved.ends.put
    · rw [submitted]
      exact isOpen.submitted handle waits
    · rw [events]
      exact isOpen.opened handle waits
    · rw [events]
      exact closes

end Streaming

theorem mem_setState {active : List ActiveRequest} {changed state : ActiveRequest}
    (mem : state ∈ setState active changed) :
    state = changed ∨ state ∈ active ∧ state.seqId ≠ changed.seqId := by
  rcases List.mem_map.mp mem with ⟨other, old, equal⟩
  by_cases same : other.seqId = changed.seqId
  · rw [if_pos same] at equal
    exact .inl equal.symm
  · rw [if_neg same] at equal
    subst equal
    exact .inr ⟨old, same⟩

/-- Two active requests have different handles. -/
theorem State.Open.handle_ne (isOpen : s.Open) (fails : s.phase.fails = false)
    {state other : ActiveRequest} (mem : state ∈ s.active) (otherMem : other ∈ s.active)
    (differ : other.seqId ≠ state.seqId) : other.handle ≠ state.handle := by
  have distinct : (s.active.map ActiveRequest.handle).Nodup := by
    have owed : s.phase.owed s.active = s.active := by
      revert fails
      cases s.phase <;> simp [Phase.fails, Phase.owed]
    rw [← owed]
    exact (List.nodup_append.mp isOpen.distinct).2.1
  intro same
  exact differ (congrArg ActiveRequest.seqId (List.inj_on_of_nodup_map distinct otherMem mem same))

/-- A waiting request and one which has been admitted have different handles. -/
theorem State.Open.waiting_ne (isOpen : s.Open) (none : s.phase.queued = [])
    {queued : QueuedRequest} (waits : queued ∈ s.waiting) {handle : HandleId}
    (admitted : handle ∈ s.phase.held ++ (s.phase.owed s.active).map ActiveRequest.handle) :
    queued.handle ≠ handle := by
  rw [State.waiting, none, List.append_nil] at waits
  have inside : queued.handle ∈ queuedHandles s.incoming := by
    rw [queuedHandles_eq]
    exact List.mem_map_of_mem waits
  have distinct := isOpen.distinct
  rw [State.pending, List.append_assoc] at distinct
  exact (List.nodup_append.mp distinct).2.2 _ inside _ admitted

namespace Streaming

/-- A token event of an active request. -/
theorem advance (streaming : Streaming decode streams reported s) (isOpen : s.Open)
    {seqId : SeqId} {tokenId : Token} {tokens : List (SeqId × Token)}
    {outputs : List (SeqId × List Token)}
    (phase : s.phase = .tokens ((seqId, tokenId) :: tokens) outputs) {state changed : ActiveRequest}
    (found : getState s.active seqId = some state) (queued : changed.queued = state.queued)
    (seqId' : changed.seqId = state.seqId)
    (tokenIds : changed.tokenIds = state.tokenIds ++ [tokenId])
    {events : HandleId → List (GenerationEvent M)}
    (others : ∀ handle ≠ state.handle, events handle = s.events handle)
    (emits : Emits decode (events state.handle) changed) (ends : Ends streams events s.submitted) :
    Streaming decode streams reported
      { s with events, active := setState s.active changed, phase := .tokens tokens outputs } := by
  rcases getState_eq found with ⟨mem, rfl⟩
  have works : s.phase.fails = false := by rw [phase]; rfl
  have tracked := streaming.active works
  simp only [phase, Phase.tokenEvents] at tracked
  constructor
  · intro other waiting
    have waits : other ∈ s.waiting := by
      simpa only [State.waiting, phase, Phase.queued] using waiting
    have differ : other.handle ≠ state.handle := by
      apply isOpen.waiting_ne (by rw [phase]; rfl) waits
      simp only [phase, Phase.held, Phase.owed, List.nil_append]
      exact List.mem_map_of_mem mem
    have before := streaming.waits other waits
    rw [← others _ differ] at before
    exact before
  · intro _ other inside
    rcases mem_setState inside with rfl | ⟨old, differ⟩
    · have before := tracked state mem
      have handle : other.handle = state.handle := congrArg QueuedRequest.handle queued
      refine ⟨?_, ?_, ?_⟩
      · rw [seqId', before.tokens, tokensOf_cons_self, tokenIds, List.append_assoc]
        rfl
      · rw [handle]
        exact emits
      · rw [handle, queued]
        exact before.stream
    · rw [seqId'] at differ
      have before := tracked other old
      refine ⟨?_, ?_, before.stream⟩
      · rw [before.tokens, System.tokensOf_cons_of_ne differ.symm]
        rfl
      · have emits := before.emits
        rw [← others _ (isOpen.handle_ne works mem old differ)] at emits
        exact emits
  · have left := streaming.outputs
    rw [phase] at left
    exact left
  · intro _ _ _ equal
    cases equal
  · intro _ _ _ _ equal
    cases equal
  · exact ends

/-- The loop over the token events of a step. -/
theorem tokenEvent (stable : StableDecode decode)
    (streaming : Streaming decode streams reported s) (isOpen : s.Open) {seqId : SeqId}
    {tokenId : Token} {tokens : List (SeqId × Token)} {outputs : List (SeqId × List Token)}
    {decoded : Except PyException String}
    (phase : s.phase = .tokens ((seqId, tokenId) :: tokens) outputs)
    (decodes : (Response.decoded decoded).Decodes decode s) :
    Streaming decode streams reported (tokenEvent s seqId tokenId tokens outputs decoded) := by
  have works : s.phase.fails = false := by rw [phase]; rfl
  have waiting : ∀ other ∈ queuedRequests s.incoming, other ∈ s.waiting :=
    fun other mem => List.mem_append_left _ mem
  unfold Serve.tokenEvent
  split
  · next absent =>
    refine streaming.goTo ?_ ?_ ?_ rfl
    · intro other mem
      exact waiting other (by simpa [Phase.queued] using mem)
    · intro _ state mem
      have differ : seqId ≠ state.seqId := by
        intro same
        rw [getState, List.find?_eq_none] at absent
        exact absent state mem (by simp [same])
      refine ⟨works, mem, ?_⟩
      rw [phase]
      exact (System.tokensOf_cons_of_ne differ _ _).symm
    · rw [phase]
      exact List.Subset.refl _
  · next state found =>
    rcases getState_eq found with ⟨mem, named⟩
    have tracked := streaming.active works state mem
    have handleOpen : state.handle ∈ s.pending := active_pending works mem
    dsimp only
    split
    · next stream =>
      cases decoded with
      | error exc =>
        refine streaming.goTo ?_ nofun (List.nil_subset _) rfl
        intro other mem
        exact waiting other (by simpa [Phase.queued] using mem)
      | ok text =>
        have text_eq : text = decode (state.tokenIds ++ [tokenId]) :=
          decodes seqId tokenId tokens outputs state phase found
        subst text_eq
        have step := tracked.emits.decodeStableDelta stable tokenId
        dsimp only at step ⊢
        rcases step with ⟨queued, seqId', tokenIds, emits⟩
        split
        · next empty =>
          rw [if_pos empty] at emits
          exact streaming.advance isOpen phase found queued seqId' tokenIds (fun _ _ => rfl) emits
            streaming.ends
        · next nonempty =>
          rw [if_neg nonempty] at emits
          have handle : (decodeStableDelta { state with tokenIds := state.tokenIds ++ [tokenId] }
              (decode (state.tokenIds ++ [tokenId]))).1.queued.handle = state.handle := by
            rw [queued]
            rfl
          rw [handle]
          apply streaming.advance isOpen phase found queued seqId' tokenIds
          · intro other differ
            exact Function.update_of_ne differ _ _
          · rw [Function.update_self]
            exact emits
          · apply streaming.ends.put (isOpen.submitted _ handleOpen) (isOpen.opened _ handleOpen)
            intro _ _ _ _ _ _ equal
            cases equal
    · have emits : Emits decode (s.events state.handle)
          { state with tokenIds := state.tokenIds ++ [tokenId] } :=
        ⟨tracked.emits.texts, tracked.emits.emitted.grow (List.prefix_append _ _)⟩
      refine streaming.advance isOpen phase found ?_ ?_ ?_ (fun _ _ => rfl) emits streaming.ends
      · rfl
      · rfl
      · rfl

/-- An output of a step: its tokens are those which have been reported. -/
theorem output (streaming : Streaming decode streams reported s) {seqId : SeqId}
    {tokenIds : List Token} {outputs : List (SeqId × List Token)}
    (phase : s.phase = .outputs ((seqId, tokenIds) :: outputs)) {state : ActiveRequest}
    (found : getState s.active seqId = some state) :
    Streaming decode streams reported { s with
      active := dropState s.active seqId, phase := .finishing state tokenIds outputs } := by
  rcases getState_eq found with ⟨mem, rfl⟩
  have works : s.phase.fails = false := by rw [phase]; rfl
  have tracked := streaming.active works
  have left := streaming.outputs
  simp only [phase, Phase.tokenEvents, Phase.outputsLeft] at tracked left
  constructor
  · intro other waiting
    apply streaming.waits other
    simpa only [State.waiting, phase, Phase.queued] using waiting
  · intro _ other inside
    exact tracked other (dropState_sublist.subset inside)
  · intro other mem
    exact left other (List.mem_cons_of_mem _ mem)
  · intro _ _ _ equal
    cases equal
    exact ⟨tracked state mem, left _ List.mem_cons_self⟩
  · intro _ _ _ _ equal
    cases equal
  · exact streaming.ends

/-- The tail which `_finish` puts. -/
theorem finishTail (streaming : Streaming decode streams reported s) (isOpen : s.Open)
    {state : ActiveRequest} {tokenIds : List Token} {outputs : List (SeqId × List Token)}
    (phase : s.phase = .finishing state tokenIds outputs)
    {events : HandleId → List (GenerationEvent M)}
    (others : ∀ handle ≠ state.handle, events handle = s.events handle)
    (own : events state.handle = s.events state.handle ++
      (Serve.finishTail state (decode tokenIds)).toList.map .textDelta)
    (ends : Ends streams events s.submitted) :
    Streaming decode streams reported
      { s with events, phase := .finishMetrics state tokenIds (decode tokenIds) outputs } := by
  have works : s.phase.fails = false := by rw [phase]; rfl
  have held : state.handle ∈ s.phase.held := by
    rw [phase]
    exact List.mem_cons_self
  have left := streaming.outputs
  have active := streaming.active works
  rcases streaming.finishing state tokenIds outputs phase with ⟨tracked, output⟩
  have tokens := tracked.tokens
  rw [List.append_nil] at tokens
  simp only [phase, Phase.tokenEvents, Phase.outputsLeft] at active left
  constructor
  · intro other waiting
    have waits : other ∈ s.waiting := by
      simpa only [State.waiting, phase, Phase.queued] using waiting
    have differ : other.handle ≠ state.handle := by
      apply isOpen.waiting_ne (by rw [phase]; rfl) waits
      exact List.mem_append_left _ held
    have before := streaming.waits other waits
    rw [← others _ differ] at before
    exact before
  · intro _ other mem
    have differ : other.handle ≠ state.handle := by
      have owed : s.phase.owed s.active = s.active := by rw [phase]; rfl
      have distinct := isOpen.distinct
      rw [State.pending, List.append_assoc, owed] at distinct
      have apart := (List.nodup_append.mp (List.nodup_append.mp distinct).2.1).2.2
      exact (apart _ held _ (List.mem_map_of_mem mem)).symm
    have before := active other mem
    refine ⟨before.tokens, ?_, before.stream⟩
    have emits := before.emits
    rw [← others _ differ] at emits
    exact emits
  · exact left
  · intro _ _ _ equal
    cases equal
  · intro _ _ _ _ equal stream
    cases equal
    rw [← tracked.stream] at stream
    have streamed := tracked.emits.finishTail stream
    rw [output, tokens] at own ⊢
    rw [← own] at streamed
    exact streamed
  · exact ends

/-- A request which has been admitted. -/
theorem add (streaming : Streaming decode streams reported s) {queued : QueuedRequest}
    {promptTokens : ℕ} {seqId : SeqId} (phase : s.phase = .adding queued)
    (fresh : reported seqId = []) : Streaming decode streams reported { s with
      active := s.active ++ [⟨queued, seqId, promptTokens, [], ""⟩], phase := .draining } := by
  have works : s.phase.fails = false := by rw [phase]; rfl
  have active := streaming.active works
  simp only [phase, Phase.tokenEvents] at active
  have waits : queued ∈ s.waiting := by
    rw [State.waiting, phase]
    exact List.mem_append_right _ List.mem_cons_self
  rcases streaming.waits queued waits with ⟨none, stream⟩
  constructor
  · intro other waiting
    apply streaming.waits other
    apply List.mem_append_left
    simpa only [State.waiting, Phase.queued, List.append_nil] using waiting
  · intro _ other inside
    rcases List.mem_append.mp inside with old | new
    · exact active other old
    · rw [List.mem_singleton.mp new]
      refine ⟨fresh, ⟨⟨[], none, rfl, nofun⟩, .nil []⟩, stream⟩
  · nofun
  · intro _ _ _ equal
    cases equal
  · intro _ _ _ _ equal
    cases equal
  · exact streaming.ends

/-- An action of the engine thread which is no step. -/
theorem work (stable : StableDecode decode) (streaming : Streaming decode streams reported s)
    (wellFormed : s.WellFormed) (isOpen : s.Open) (isOpen' : s'.Open) {response : Response M}
    (noStep : ∀ result, response ≠ .step result) (decodes : response.Decodes decode s)
    (fresh : ∀ promptTokens seqId, response = .admitted (.ok promptTokens) (.ok seqId) →
      reported seqId = [])
    (stepped : Serve.work config s response = some s') :
    Streaming decode streams reported s' := by
  have waits : ∀ handle ∈ s.phase.held ++ (s.phase.owed s.active).map ActiveRequest.handle,
      handle ∈ s.pending := by
    intro handle mem
    rw [State.pending, List.append_assoc]
    exact List.mem_append_right _ mem
  rcases s with ⟨incoming, events, cancelled, active, phase, submitted, checked⟩
  cases phase with
  | starting =>
    cases response with
    | factory raised =>
      cases raised with
      | none =>
        cases stepped
        exact streaming.turn _ (List.nil_subset _) (fun _ => rfl) rfl (List.nil_subset _) rfl
      | some exc =>
        cases stepped
        exact streaming.turn _ (List.nil_subset _) (fun works => by cases works) rfl (List.nil_subset _) rfl
    | _ => cases stepped
  | startMetrics =>
    cases response with
    | schedulerMetrics raised =>
      cases raised with
      | none =>
        cases stepped
        exact streaming.turn _ (List.nil_subset _) (fun _ => rfl) rfl (List.nil_subset _) rfl
      | some exc =>
        cases stepped
        exact streaming.turn _ (List.nil_subset _) (fun works => by cases works) rfl (List.nil_subset _) rfl
    | _ => cases stepped
  | draining =>
    cases response with
    | proceed =>
      cases incoming with
      | nil =>
        cases stepped
        exact streaming.turn _ (List.nil_subset _) (fun _ => rfl) rfl (List.nil_subset _) rfl
      | cons item incoming =>
        cases item with
        | stop =>
          cases stepped
          exact streaming.goTo (fun _ mem => mem) (fun _ _ mem => ⟨rfl, mem, rfl⟩)
            (List.nil_subset _) rfl
        | request queued =>
          cases stepped
          refine streaming.goTo ?_ (fun _ _ mem => ⟨rfl, mem, rfl⟩) (List.nil_subset _) rfl
          intro other mem
          rcases List.mem_append.mp mem with old | new
          · exact List.mem_append_left _ (List.mem_cons_of_mem _ old)
          · rw [List.mem_singleton.mp new]
            exact List.mem_append_left _ List.mem_cons_self
    | _ => cases stepped
  | admitting queued =>
    cases response with
    | proceed =>
      simp only [Serve.work] at stepped
      split at stepped
      · cases stepped
        have moved := streaming.turn .draining (List.nil_subset _) (fun _ => rfl) rfl
          (List.nil_subset _) rfl
        exact deliver isOpen moved rfl rfl (waits _ List.mem_cons_self) rfl isOpen' (by simp)
      · cases stepped
        exact streaming.turn _ (List.Subset.refl _) (fun _ => rfl) rfl (List.nil_subset _)
          rfl
    | _ => cases stepped
  | adding queued =>
    cases response with
    | admitted promptTokens seqId =>
      simp only [Serve.work] at stepped
      split at stepped
      · cases stepped
        have moved := streaming.turn .draining (List.nil_subset _) (fun _ => rfl) rfl
          (List.nil_subset _) rfl
        exact deliver isOpen moved rfl rfl (waits _ List.mem_cons_self) rfl isOpen' (by simp)
      · next state admitted =>
        split at stepped
        · cases stepped
        · cases stepped
          rcases admitRequest_ok admitted with ⟨n, i, rfl, rfl, rfl⟩
          exact streaming.add rfl (fresh n i rfl)
    | _ => cases stepped
  | cancelling stopping rest =>
    cases rest with
    | nil =>
      cases response with
      | proceed =>
        simp only [Serve.work] at stepped
        split at stepped
        · cases stepped
          exact streaming.turn _ (List.nil_subset _) (fun works => by cases works) rfl (List.nil_subset _) rfl
        · split at stepped
          · cases stepped
            exact streaming.turn _ (List.nil_subset _) (fun _ => rfl) rfl
              (List.nil_subset _) rfl
          · cases stepped
            exact streaming.turn _ (List.nil_subset _) (fun _ => rfl) rfl
              (List.nil_subset _) rfl
      | _ => cases stepped
    | cons state rest =>
      cases response with
      | proceed =>
        simp only [Serve.work] at stepped
        split at stepped
        · cases stepped
          exact streaming.turn _ (List.nil_subset _) (fun _ => rfl) rfl (List.nil_subset _)
            rfl
        · cases stepped
          exact streaming.turn _ (List.nil_subset _) (fun _ => rfl) rfl (List.nil_subset _)
            rfl
      | _ => cases stepped
  | cancelRequest stopping state rest =>
    cases response with
    | cancelRequest raised =>
      cases raised with
      | none =>
        cases stepped
        have kept : ∀ other ∈ dropState active state.seqId, other ∈ active :=
          fun other mem => dropState_sublist.subset mem
        have moved : Streaming decode streams reported ⟨incoming, events, cancelled,
            dropState active state.seqId, .cancelling stopping rest, submitted, checked⟩ :=
          streaming.goTo (fun _ mem => mem) (fun _ other mem => ⟨rfl, kept other mem, rfl⟩)
            (List.nil_subset _) rfl
        have mem : state ∈ active := wellFormed.snapshot.subset List.mem_cons_self
        exact deliver isOpen moved rfl rfl (waits _ (List.mem_map_of_mem mem)) rfl isOpen' (by simp)
      | some exc =>
        cases stepped
        exact streaming.turn _ (List.nil_subset _) (fun works => by cases works) rfl (List.nil_subset _) rfl
    | _ => cases stepped
  | idle =>
    cases response with
    | schedulerMetrics raised =>
      cases raised with
      | none =>
        cases stepped
        exact streaming.turn _ (List.nil_subset _) (fun _ => rfl) rfl (List.nil_subset _) rfl
      | some exc =>
        cases stepped
        exact streaming.turn _ (List.nil_subset _) (fun works => by cases works) rfl (List.nil_subset _) rfl
    | _ => cases stepped
  | stepping =>
    cases response with
    | step result => exact absurd rfl (noStep result)
    | _ => cases stepped
  | tokens tokens outputs =>
    cases tokens with
    | nil =>
      cases response with
      | proceed =>
        cases stepped
        exact streaming.turn _ (List.nil_subset _) (fun _ => rfl) rfl (List.Subset.refl _)
          rfl
      | _ => cases stepped
    | cons token tokens =>
      cases response with
      | decoded text =>
        cases stepped
        exact streaming.tokenEvent stable isOpen rfl decodes
      | _ => cases stepped
  | outputs outputs =>
    cases outputs with
    | nil =>
      cases response with
      | proceed =>
        cases stepped
        exact streaming.turn _ (List.nil_subset _) (fun _ => rfl) rfl (List.nil_subset _) rfl
      | _ => cases stepped
    | cons output outputs =>
      cases response with
      | proceed =>
        simp only [Serve.work] at stepped
        split at stepped
        · cases stepped
          exact streaming.turn _ (List.nil_subset _) (fun _ => rfl) rfl
            (List.subset_cons_self _ _) rfl
        · next state found =>
          cases stepped
          exact streaming.output rfl found
      | _ => cases stepped
  | finishing state tokenIds outputs =>
    cases response with
    | finishDecoded text =>
      cases text with
      | error exc =>
        cases stepped
        exact streaming.turn _ (List.nil_subset _) (fun works => by cases works) rfl (List.nil_subset _) rfl
      | ok text =>
        have text_eq : text = decode tokenIds := decodes state tokenIds outputs rfl
        subst text_eq
        have below := waits state.handle List.mem_cons_self
        simp only [Serve.work] at stepped
        split at stepped
        · next tail found =>
          cases stepped
          apply streaming.finishTail isOpen rfl
          · intro other differ
            exact Function.update_of_ne differ _ _
          · rw [found]
            exact Function.update_self _ _ _
          · apply streaming.ends.put (isOpen.submitted _ below) (isOpen.opened _ below)
            intro _ _ _ _ _ _ equal
            cases equal
        · next found =>
          cases stepped
          apply streaming.finishTail isOpen rfl (fun _ _ => rfl) _ streaming.ends
          rw [found]
          exact (List.append_nil _).symm
    | _ => cases stepped
  | finishMetrics state tokenIds text outputs =>
    cases response with
    | requestMetrics metrics =>
      cases metrics with
      | error exc =>
        cases stepped
        exact streaming.turn _ (List.nil_subset _) (fun works => by cases works) rfl (List.nil_subset _) rfl
      | ok metrics =>
        cases stepped
        have moved := streaming.turn (.outputs outputs) (List.nil_subset _) (fun _ => rfl)
          rfl (List.Subset.refl _) rfl
        apply deliver isOpen moved rfl rfl (waits _ List.mem_cons_self) rfl isOpen'
        intro _ _ _ _ _ stream equal
        cases equal
        exact streaming.finishMetrics state tokenIds text outputs rfl stream
    | _ => cases stepped
  | stepMetrics =>
    cases response with
    | schedulerMetrics raised =>
      cases raised with
      | none =>
        cases stepped
        exact streaming.turn _ (List.nil_subset _) (fun _ => rfl) rfl (List.nil_subset _) rfl
      | some exc =>
        cases stepped
        exact streaming.turn _ (List.nil_subset _) (fun works => by cases works) rfl (List.nil_subset _) rfl
    | _ => cases stepped
  | failing exc rest =>
    cases rest with
    | nil =>
      cases response with
      | proceed =>
        cases stepped
        exact streaming.goTo (fun _ mem => mem) (fun _ _ mem => absurd mem List.not_mem_nil) (List.nil_subset _) rfl
      | _ => cases stepped
    | cons state rest =>
      cases response with
      | cancelRequest raised =>
        cases stepped
        have moved := streaming.turn (.failing exc rest) (List.nil_subset _) (fun works => by cases works) rfl
          (List.nil_subset _) rfl
        exact deliver isOpen moved rfl rfl (waits _ List.mem_cons_self) rfl isOpen' (by simp)
      | _ => cases stepped
  | failMetrics =>
    cases response with
    | schedulerMetrics raised =>
      cases raised with
      | none =>
        cases stepped
        exact streaming.turn _ (List.nil_subset _) (fun _ => rfl) rfl (List.nil_subset _) rfl
      | some exc =>
        cases stepped
        exact streaming.turn _ (List.nil_subset _) (fun works => by cases works) rfl (List.nil_subset _) rfl
    | _ => cases stepped
  | closing rest =>
    cases rest with
    | nil =>
      cases response with
      | proceed =>
        cases stepped
        exact streaming.turn _ (List.nil_subset _) (fun works => by cases works) rfl (List.nil_subset _) rfl
      | _ => cases stepped
    | cons state rest =>
      cases response with
      | cancelRequest raised =>
        cases stepped
        have moved := streaming.turn (.closing rest) (List.nil_subset _) (fun works => by cases works) rfl
          (List.nil_subset _) rfl
        exact deliver isOpen moved rfl rfl (waits _ List.mem_cons_self) rfl isOpen' (by simp)
      | _ => cases stepped
  | exited => cases stepped

end Streaming

/-! ## Every run -/

variable {cfg : Config} {sys sys' : System}

/-- A step of the engine. -/
theorem Streaming.step (streaming : Streaming decode streams sys.reported s) {result : StepResult}
    (answers : EngineStep cfg sys result sys') (reachable : System.Reachable cfg sys)
    (stepped : Serve.work config s (.step result) = some s') :
    Streaming decode streams sys'.reported s' := by
  rcases s with ⟨incoming, events, cancelled, active, phase, submitted, checked⟩
  cases phase with
  | stepping =>
    cases result with
    | error exc =>
      cases stepped
      exact ⟨streaming.waits, nofun, nofun, nofun, nofun, streaming.ends⟩
    | ok result =>
      rcases result with ⟨tokens, outputs⟩
      rcases answers.reports reachable with ⟨more, outputs'⟩
      cases stepped
      refine ⟨streaming.waits, ?_, outputs', nofun, nofun, streaming.ends⟩
      intro _ state mem
      have tracked := streaming.active rfl state mem
      refine ⟨?_, tracked.emits, tracked.stream⟩
      have before := tracked.tokens
      rw [show tokensOf Phase.stepping.tokenEvents state.seqId = [] from rfl, List.append_nil]
        at before
      rw [System.reported, more, System.tokensOf_append, ← before]
      rfl
  | cancelling _ rest => cases rest <;> cases stepped
  | tokens tokens => cases tokens <;> cases stepped
  | outputs left => cases left <;> cases stepped
  | failing _ rest => cases rest <;> cases stepped
  | closing rest => cases rest <;> cases stepped
  | _ => cases stepped

/-- An action of a client. -/
theorem Streaming.client (streaming : Streaming decode streams reported s) {action : Action M}
    (client : ∀ response, action ≠ .worker response)
    (given : ∀ stream maxTokens, action = .submit stream maxTokens → stream = streams s.submitted)
    (stepped : next config s action = some s') : Streaming decode streams reported s' := by
  cases action with
  | worker response => exact absurd rfl (client response)
  | checkAlive =>
    simp only [next] at stepped
    split at stepped
    · cases stepped
    · cases stepped
      exact ⟨streaming.waits, streaming.active, streaming.outputs, streaming.finishing,
        streaming.finishMetrics, streaming.ends⟩
  | cancel handle =>
    cases stepped
    exact ⟨streaming.waits, streaming.active, streaming.outputs, streaming.finishing,
      streaming.finishMetrics, streaming.ends⟩
  | stop =>
    cases stepped
    refine ⟨?_, streaming.active, streaming.outputs, streaming.finishing, streaming.finishMetrics,
      streaming.ends⟩
    intro queued mem
    apply streaming.waits queued
    simpa [State.waiting, queuedRequests] using mem
  | submit stream maxTokens =>
    simp only [next] at stepped
    split at stepped
    · cases stepped
    · cases stepped
      refine ⟨?_, streaming.active, streaming.outputs, streaming.finishing,
        streaming.finishMetrics, ⟨?_, streaming.ends.finished⟩⟩
      · intro queued mem
        have either : queued ∈ s.waiting ∨ queued = ⟨s.submitted, stream, maxTokens⟩ := by
          simp only [State.waiting, queuedRequests, List.filterMap_append, List.mem_append] at mem ⊢
          rcases mem with (old | new) | held
          · exact .inl (.inl old)
          · exact .inr (by simpa using new)
          · exact .inl (.inr held)
        rcases either with old | rfl
        · exact streaming.waits queued old
        · exact ⟨streaming.ends.unsubmitted _ (le_refl _), given stream maxTokens rfl⟩
      · intro handle beyond
        exact streaming.ends.unsubmitted handle (Nat.le_of_succ_le beyond)

/-- Where the text of every streamed request is, in every run. -/
theorem ServingRun.streaming {actions : List (Action M)} (stable : StableDecode decode)
    (run : ServingRun config cfg decode streams actions s sys) :
    Streaming decode streams sys.reported s := by
  induction run with
  | initial =>
    exact ⟨nofun, fun _ => nofun, nofun, nofun, nofun, ⟨fun _ _ => rfl, nofun⟩⟩
  | @step actions s s' sys sys' action run serves stepped ih =>
    have reachable := run.worker
    rcases reachable.accounts with ⟨wellFormed, _, _, accounts, -⟩
    rcases (Reachable.step reachable stepped).accounts with ⟨-, _, _, accounts', -⟩
    have same : (∀ result, action ≠ .worker (.step result)) → sys'.reported = sys.reported := by
      intro noStep
      funext i
      rw [System.reported, serves.events noStep]
      rfl
    cases serves with
    | client client given => exact ih.client client given stepped
    | @quiet response quiet decodes =>
      refine ih.work stable wellFormed accounts.isOpen accounts'.isOpen ?_ decodes ?_ stepped
      · rintro result rfl
        cases quiet
      · rintro n i rfl
        cases quiet
    | @add queued promptTokens seqId state request now _ phase admitted named _ _ enabled _ =>
      rw [same (by rintro result equal; cases equal)]
      refine ih.work stable wellFormed accounts.isOpen accounts'.isOpen ?_ ?_ ?_ stepped
      · intro result equal
        cases equal
      · exact trivial
      · intro n i equal
        cases equal
        rw [← named]
        exact (run.engine.reports request.seqId).unknown enabled.2
    | cancel =>
      rw [same (by rintro result equal; cases equal)]
      refine ih.work stable wellFormed accounts.isOpen accounts'.isOpen ?_ ?_ ?_ stepped
      · intro result equal
        cases equal
      · exact trivial
      · intro n i equal
        cases equal
    | step answers => exact ih.step answers run.engine stepped

/--
With a tokenizer which is stable up to replacement characters, no text part of an active request
contains one. When a streamed request has finished, its text parts are its final text, none of
them is empty, and only the last one can contain a replacement character.
-/
theorem streamed_text {actions : List (Action M)} (stable : StableDecode decode)
    (run : ServingRun config cfg decode streams actions s sys) :
    (s.phase.fails = false → ∀ state ∈ s.active, ∀ delta,
      .textDelta delta ∈ s.events state.handle → Char.ofNat 0xfffd ∉ delta.toList) ∧
    ∀ handle text tokenIds promptTokens reason metrics, streams handle = true →
      .finished text tokenIds promptTokens reason metrics ∈ s.events handle →
      ∃ deltas : List String, s.events handle =
          deltas.map .textDelta ++ [.finished text tokenIds promptTokens reason metrics] ∧
        String.join deltas = text ∧ (∀ delta ∈ deltas, delta ≠ "") ∧
        ∀ delta ∈ deltas.dropLast, Char.ofNat 0xfffd ∉ delta.toList := by
  have streaming := run.streaming stable
  constructor
  · intro works state mem delta inside
    exact (streaming.active works state mem).emits.clean inside
  · intro handle text tokenIds promptTokens reason metrics stream finished
    rcases streaming.ends.finished _ _ _ _ _ _ stream finished with
      ⟨texts, events, deltas, rfl, streamed⟩
    exact ⟨deltas, events, streamed⟩

/-! ## A run -/

/-- Whether an action leaves the engine and the tokenizer alone, where every request streams. -/
def Action.silent : Action M → Bool
  | .submit stream _ => stream
  | .worker (.decoded _) => false
  | .worker (.finishDecoded _) => false
  | .worker response => response.quiet
  | _ => true

theorem Serves.ofSilent {action : Action M} (silent : action.silent = true) :
    Serves config cfg decode (fun _ => true) s sys action sys := by
  cases action with
  | checkAlive => exact .client nofun nofun
  | submit stream maxTokens =>
    refine .client nofun fun _ _ equal => ?_
    cases equal
    exact silent
  | cancel => exact .client nofun nofun
  | stop => exact .client nofun nofun
  | worker response =>
    cases response with
    | decoded => cases silent
    | finishDecoded => cases silent
    | _ => exact .quiet silent trivial

theorem ServingRun.silently {before actions : List (Action M)}
    (run : ServingRun config cfg decode (fun _ => true) before s sys)
    (silent : ∀ action ∈ actions, action.silent = true)
    (ran : runActions config s actions = some s') :
    ServingRun config cfg decode (fun _ => true) (before ++ actions) s' sys := by
  induction actions generalizing s before with
  | nil =>
    cases ran
    rwa [List.append_nil]
  | cons action actions ih =>
    rcases Option.bind_eq_some_iff.mp ran with ⟨middle, stepped, rest⟩
    rw [List.append_cons]
    apply ih (run.step (.ofSilent (silent action List.mem_cons_self)) stepped) _ rest
    exact fun other mem => silent other (List.mem_cons_of_mem _ mem)

/-- A step of the engine which schedules once. -/
theorem EngineStep.ofRound (reachable : System.Reachable cfg sys) {env : ScheduleEnv cfg}
    {tokenIds : List Token} {events : List (SeqId × Token)} {outputs : List (SeqId × List Token)}
    (enabled : System.EnabledAll cfg (fun _ _ => True) sys
      [.schedule env, .postprocess tokenIds 0 0]) (batch : InFlight)
    (flying : (System.next cfg sys (.schedule env)).inFlight = some batch)
    (results : (System.tokenEvents (System.next cfg sys (.schedule env)).scheduler.seqs
        (sys.runOps cfg [.schedule env, .postprocess tokenIds 0 0]).scheduler.seqs
        (batch.seqs.zip tokenIds),
      stepOutputs (sys.runOps cfg [.schedule env, .postprocess tokenIds 0 0]) batch.seqs) =
        (events, outputs)) :
    EngineStep cfg sys (.ok (events, outputs))
      (sys.runOps cfg [.schedule env, .postprocess tokenIds 0 0]) := by
  rcases enabled with ⟨⟨idle, -⟩, ⟨sampled, -⟩, -⟩
  have scheduled := reachable.valid.step_next idle
  have reachable' := System.ReachableBy.step reachable idle trivial scheduled
  rw [← results]
  have inLoop : LoopOp (.schedule env) := trivial
  exact .returns (.next .start inLoop idle scheduled) flying sampled
    (reachable'.valid.step_next sampled)

/-- A tokenizer with one letter and incomplete characters. -/
def decodeLetters (tokenIds : List Token) : String :=
  String.ofList (tokenIds.map fun tokenId => if tokenId = 0 then Char.ofNat 0xfffd else 'a')

theorem stableDecode_letters : StableDecode decodeLetters := by
  intro tokenIds longer grows
  have decoded : decodeChars decodeLetters tokenIds <+: decodeChars decodeLetters longer := by
    rw [decodeChars, decodeChars, decodeLetters, decodeLetters, String.toList_ofList,
      String.toList_ofList]
    exact grows.map _
  exact (StableDecoding.cut_prefix _ _).trans decoded

/-- A memory of four pages. -/
def lettersConfig : Config := System.defaultConfig 2 4 2 System.two_le_two

/-- The engine with one request of two tokens. -/
def lettersAdded : System :=
  (System.init lettersConfig).runOps lettersConfig [.add (System.plainRequest 0 1 2) 0]

/-- The engine after the prefill. -/
def lettersFirst : System := lettersAdded.runOps lettersConfig
  [.schedule (System.idleEnv _), .postprocess [7] 0 0]

/-- The engine after the second token, which is an incomplete character. -/
def lettersSecond : System := lettersFirst.runOps lettersConfig
  [.schedule (System.idleEnv _), .postprocess [0] 0 0]

theorem streamed_text_letters : ∃ (actions : List (Action Unit)) (s : State Unit),
    ServingRun ⟨none, none⟩ lettersConfig decodeLetters (fun _ => true) actions s lettersSecond ∧
    ∃ deltas : List String, s.events 0 = deltas.map .textDelta ++
        [.finished (decodeLetters [7, 0]) [7, 0] 1 "length" none] ∧
      String.join deltas = decodeLetters [7, 0] ∧ (∀ delta ∈ deltas, delta ≠ "") ∧
      ∀ delta ∈ deltas.dropLast, Char.ofNat 0xfffd ∉ delta.toList := by
  have run := @ServingRun.initial Unit ⟨none, none⟩ lettersConfig decodeLetters (fun _ => true)
  have started := @ServingRun.silently _ _ _ _ _ _ _ _
    (startActions ++ [.checkAlive, .submit true 2, .worker .proceed, .worker .proceed])
    run (by decide) rfl
  have added := started.step (@Serves.add _ _ _ _ _ _ _ _ 1 0 _ (System.plainRequest 0 1 2) 0
    lettersAdded rfl rfl rfl rfl rfl (by decide +kernel) rfl) rfl
  have stepping := @ServingRun.silently _ _ _ _ _ _ _ _
    [.worker .proceed, .worker .proceed, .worker .proceed] added (by decide) rfl
  have first : EngineStep lettersConfig lettersAdded (.ok ([(0, 7)], [])) lettersFirst :=
    .ofRound added.engine (by decide +kernel) ⟨[0], true, false⟩ (by decide +kernel)
      (by decide +kernel)
  have stepped := stepping.step (.step first) rfl
  have decoded := stepped.step (@Serves.quiet _ _ _ _ _ _ _ (.decoded (.ok "a")) rfl (by
    rintro _ _ _ _ _ phase found
    cases phase
    cases found
    decide)) rfl
  have stepping := @ServingRun.silently _ _ _ _ _ _ _ _
    [.worker .proceed, .worker .proceed, .worker (.schedulerMetrics none), .worker .proceed,
      .worker .proceed, .worker .proceed] decoded (by decide) rfl
  have second : EngineStep lettersConfig lettersFirst (.ok ([(0, 0)], [(0, [7, 0])]))
      lettersSecond :=
    .ofRound stepping.engine (by decide +kernel) ⟨[0], false, false⟩ (by decide +kernel)
      (by decide +kernel)
  have stepped := stepping.step (.step second) rfl
  have decoded := stepped.step (@Serves.quiet _ _ _ _ _ _ _
    (.decoded (.ok (decodeLetters [7, 0]))) rfl (by
      rintro _ _ _ _ _ phase found
      cases phase
      cases found
      rfl)) rfl
  have finishing := @ServingRun.silently _ _ _ _ _ _ _ _
    [.worker .proceed, .worker .proceed] decoded (by decide) rfl
  have finished := finishing.step (@Serves.quiet _ _ _ _ _ _ _
    (.finishDecoded (.ok (decodeLetters [7, 0]))) rfl (by
      rintro _ _ _ phase
      cases phase
      rfl)) rfl
  have ended := @ServingRun.silently _ _ _ _ _ _ _ _
    [.worker (.requestMetrics (.ok none))] finished (by decide) rfl
  exact ⟨_, _, ended, (streamed_text stableDecode_letters ended).2 0 _ _ _ _ _ rfl (by decide)⟩

end NanoVllm.Serve
