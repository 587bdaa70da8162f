import NanoVllm.Serve.EngineWorker
import Mathlib.Data.List.Perm.Basic
import Mathlib.Data.List.Nodup

/-!
# Terminal events

Every submitted request is queued, held by the engine thread, active, delivered or lost. One
action of the engine thread moves a request between these, puts an event which is not the last
one, delivers the last one, or loses a request; it loses one exactly when `_finish` raises.
-/

namespace NanoVllm.Serve

variable {M : Type} {config : EngineConfig} {s s' : State M}

/-- The handle of a queued request. -/
def Item.handle? : Item → Option HandleId
  | .request queued => some queued.handle
  | .stop => none

/-- The handles in the incoming queue. -/
def queuedHandles (incoming : List Item) : List HandleId := incoming.filterMap Item.handle?

namespace Phase

/-- The handle of a request which is in no container. -/
def held : Phase → List HandleId
  | .admitting queued => [queued.handle]
  | .adding queued => [queued.handle]
  | .finishing state _ _ => [state.queued.handle]
  | .finishMetrics state _ _ _ => [state.queued.handle]
  | _ => []

/-- The active requests which still wait for their terminal event. -/
def owed (active : List ActiveRequest) : Phase → List ActiveRequest
  | .failing _ rest => rest
  | .closing rest => rest
  | .exited => []
  | _ => active

/-- What is left of the snapshot of `_cancel_requests`. -/
def snapshot : Phase → List ActiveRequest
  | .cancelling _ rest => rest
  | .cancelRequest _ state rest => state :: rest
  | _ => []

/-- Whether the thread has not reached its loop. -/
def unstarted : Phase → Bool
  | .starting => true
  | .startMetrics => true
  | _ => false

end Phase

/-- Whether a call in `_finish` raises. -/
def Response.finishRaises : Response M → Bool
  | .finishDecoded (.error _) => true
  | .requestMetrics (.error _) => true
  | _ => false

/-- Whether an action is a call in `_finish` which raises. -/
def Action.finishRaises : Action M → Bool
  | .worker response => response.finishRaises
  | _ => false

/-- The handle of an active request. -/
def ActiveRequest.handle (state : ActiveRequest) : HandleId := state.queued.handle

namespace State

/-- The handles which have not received their terminal event and still can. -/
def pending (s : State M) : List HandleId :=
  queuedHandles s.incoming ++ s.phase.held ++ (s.phase.owed s.active).map ActiveRequest.handle

/-- What holds of the dictionary of active requests. -/
structure WellFormed (s : State M) : Prop where
  distinct : (s.active.map ActiveRequest.seqId).Nodup
  snapshot : s.phase.snapshot.Sublist s.active
  unstarted : s.phase.unstarted = true → s.active = []

end State

/-! ## The dictionary of active requests -/

section Dictionary

variable {active : List ActiveRequest} {state : ActiveRequest} {seqId : SeqId}

theorem getState_eq (found : getState active seqId = some state) :
    state ∈ active ∧ state.seqId = seqId :=
  ⟨List.mem_of_find?_eq_some found, by simpa using List.find?_some found⟩

theorem eq_of_seqId (distinct : (active.map ActiveRequest.seqId).Nodup)
    {other : ActiveRequest} (mem : state ∈ active) (mem' : other ∈ active)
    (same : other.seqId = state.seqId) : other = state :=
  List.inj_on_of_nodup_map distinct mem' mem same

/-- Removing an active request removes its handle once. -/
theorem dropState_perm (distinct : (active.map ActiveRequest.seqId).Nodup) (mem : state ∈ active) :
    (active.map ActiveRequest.handle).Perm
      (state.handle :: (dropState active state.seqId).map ActiveRequest.handle) := by
  induction active with
  | nil => cases mem
  | cons first active ih =>
    rw [List.map_cons, List.nodup_cons] at distinct
    by_cases same : first = state
    · subst same
      have rest : dropState (first :: active) first.seqId = active := by
        have kept : dropState active first.seqId = active := by
          refine List.filter_eq_self.mpr fun other otherMem => decide_eq_true ?_
          intro equal
          exact distinct.1 (List.mem_map.mpr ⟨other, otherMem, equal⟩)
        rw [← kept]
        simp [dropState]
      rw [rest]
      exact List.Perm.refl _
    · have inside : state ∈ active := (List.mem_cons.mp mem).resolve_left (Ne.symm same)
      have differ : first.seqId ≠ state.seqId := by
        intro equal
        exact distinct.1 (List.mem_map.mpr ⟨state, inside, equal.symm⟩)
      have kept : dropState (first :: active) state.seqId =
          first :: dropState active state.seqId := by
        simp [dropState, differ]
      rw [kept, List.map_cons, List.map_cons]
      exact ((ih distinct.2 inside).cons _).trans (List.Perm.swap _ _ _)

theorem dropState_sublist : (dropState active seqId).Sublist active := List.filter_sublist

theorem setState_handles (distinct : (active.map ActiveRequest.seqId).Nodup)
    {changed : ActiveRequest} (mem : state ∈ active) (seqId : changed.seqId = state.seqId)
    (queued : changed.queued = state.queued) :
    (setState active changed).map ActiveRequest.handle = active.map ActiveRequest.handle := by
  rw [setState, List.map_map]
  refine List.map_congr_left fun other otherMem => ?_
  simp only [Function.comp_apply]
  split
  · next same =>
    rw [eq_of_seqId distinct mem otherMem (same.trans seqId), ActiveRequest.handle, queued,
      ActiveRequest.handle]
  · rfl

theorem setState_seqIds {changed : ActiveRequest} :
    (setState active changed).map ActiveRequest.seqId = active.map ActiveRequest.seqId := by
  rw [setState, List.map_map]
  refine List.map_congr_left fun other _ => ?_
  simp only [Function.comp_apply]
  split
  · next same => exact same.symm
  · rfl

end Dictionary

/-! ## What one action does -/

/-- What an action of the engine thread does to the handles. -/
inductive Effect (s s' : State M) : Bool → Prop
  /-- No event. -/
  | moves (events : s'.events = s.events) (pending : s'.pending.Perm s.pending) :
      Effect s s' false
  /-- Part of the text of a request which still waits. -/
  | delta {handle : HandleId} {event : GenerationEvent M}
      (events : s'.events = Function.update s.events handle (s.events handle ++ [event]))
      (text : event.isTerminal = false) (waits : handle ∈ s.pending)
      (pending : s'.pending.Perm s.pending) : Effect s s' false
  /-- The terminal event of a request. -/
  | delivers {handle : HandleId} {event : GenerationEvent M}
      (events : s'.events = Function.update s.events handle (s.events handle ++ [event]))
      (terminal : event.isTerminal = true) (pending : s.pending.Perm (handle :: s'.pending)) :
      Effect s s' false
  /-- A request is dropped. -/
  | loses {handle : HandleId} (events : s'.events = s.events)
      (pending : s.pending.Perm (handle :: s'.pending)) : Effect s s' true

/-- An action of the engine thread keeps the dictionary well formed and has one effect. -/
structure WorkStep (s s' : State M) (lost : Bool) : Prop where
  submitted : s'.submitted = s.submitted
  wellFormed : s'.WellFormed
  effect : Effect s s' lost

namespace WorkStep

variable {incoming : List Item} {active : List ActiveRequest} {phase : Phase} {handle : HandleId}
  {event : GenerationEvent M}

/-- A change of the phase which holds and owes the same requests. -/
theorem goTo (wellFormed : s.WellFormed) (phase : Phase)
    (snapshot : phase.snapshot.Sublist s.active)
    (unstarted : phase.unstarted = true → s.active = [])
    (held : phase.held = s.phase.held) (owed : phase.owed s.active = s.phase.owed s.active) :
    WorkStep s { s with phase } false where
  submitted := rfl
  wellFormed := ⟨wellFormed.distinct, snapshot, unstarted⟩
  effect := by
    refine .moves rfl ?_
    change (queuedHandles s.incoming ++ phase.held ++
      (phase.owed s.active).map ActiveRequest.handle).Perm _
    rw [held, owed]
    exact .refl _

/-- A step in which a request changes its container. -/
theorem move (distinct : (active.map ActiveRequest.seqId).Nodup)
    (snapshot : phase.snapshot.Sublist active) (started : phase.unstarted = false)
    (pending : (queuedHandles incoming ++ phase.held ++
      (phase.owed active).map ActiveRequest.handle).Perm s.pending) :
    WorkStep s { s with incoming, active, phase } false where
  submitted := rfl
  wellFormed := by
    refine ⟨distinct, snapshot, fun unstarted => ?_⟩
    change phase.unstarted = true at unstarted
    rw [started] at unstarted
    cases unstarted
  effect := .moves rfl pending

/-- A step with the terminal event of a request which was held or owed. -/
theorem deliver (distinct : (active.map ActiveRequest.seqId).Nodup)
    (snapshot : phase.snapshot.Sublist active) (started : phase.unstarted = false)
    (terminal : event.isTerminal = true)
    (pending : (s.phase.held ++ (s.phase.owed s.active).map ActiveRequest.handle).Perm
      (handle :: (phase.held ++ (phase.owed active).map ActiveRequest.handle))) :
    WorkStep s ({ s with active, phase }.put handle event) false where
  submitted := rfl
  wellFormed := by
    refine ⟨distinct, snapshot, fun unstarted => ?_⟩
    change phase.unstarted = true at unstarted
    rw [started] at unstarted
    cases unstarted
  effect := by
    refine .delivers rfl terminal ?_
    change (queuedHandles s.incoming ++ s.phase.held ++
      (s.phase.owed s.active).map ActiveRequest.handle).Perm
      (handle :: (queuedHandles s.incoming ++ phase.held ++
        (phase.owed active).map ActiveRequest.handle))
    rw [List.append_assoc, List.append_assoc]
    exact (pending.append_left _).trans List.perm_middle

/-- A step with a part of the text of a request which is held or active. -/
theorem delta (distinct : (active.map ActiveRequest.seqId).Nodup)
    (snapshot : phase.snapshot = []) (started : phase.unstarted = false)
    (text : event.isTerminal = false) (held : phase.held = s.phase.held)
    (owed : (phase.owed active).map ActiveRequest.handle =
      (s.phase.owed s.active).map ActiveRequest.handle)
    (waits : handle ∈ s.phase.held ++ (s.phase.owed s.active).map ActiveRequest.handle) :
    WorkStep s ({ s with active, phase }.put handle event) false where
  submitted := rfl
  wellFormed := by
    refine ⟨distinct, ?_, fun unstarted => ?_⟩
    · change phase.snapshot.Sublist active
      rw [snapshot]
      exact List.nil_sublist _
    · change phase.unstarted = true at unstarted
      rw [started] at unstarted
      cases unstarted
  effect := by
    refine .delta rfl text ?_ ?_
    · rw [State.pending, List.append_assoc]
      exact List.mem_append_right _ waits
    · change (queuedHandles s.incoming ++ phase.held ++
        (phase.owed active).map ActiveRequest.handle).Perm _
      rw [held, owed]
      exact .refl _

/-- A step which fails the active requests and forgets the one which was held. -/
theorem lose (wellFormed : s.WellFormed) {exc : PyException} (held : s.phase.held = [handle])
    (owed : s.phase.owed s.active = s.active) :
    WorkStep s { s with phase := .failing exc s.active } true where
  submitted := rfl
  wellFormed := ⟨wellFormed.distinct, List.nil_sublist _, nofun⟩
  effect := by
    refine @Effect.loses _ _ _ handle rfl ?_
    change (queuedHandles s.incoming ++ s.phase.held ++
      (s.phase.owed s.active).map ActiveRequest.handle).Perm
      (handle :: (queuedHandles s.incoming ++ [] ++ s.active.map ActiveRequest.handle))
    rw [held, owed, List.append_nil, List.append_assoc]
    exact List.perm_middle

end WorkStep

theorem rest_sublist {active rest : List ActiveRequest} {state : ActiveRequest}
    (distinct : (active.map ActiveRequest.seqId).Nodup)
    (sublist : (state :: rest).Sublist active) : rest.Sublist (dropState active state.seqId) := by
  have kept := sublist.filter fun other => decide (other.seqId ≠ state.seqId)
  have distinct' := distinct.sublist (sublist.map ActiveRequest.seqId)
  rw [List.map_cons, List.nodup_cons] at distinct'
  have unchanged : (state :: rest).filter (fun other => decide (other.seqId ≠ state.seqId)) =
      rest := by
    have first : decide (state.seqId ≠ state.seqId) = false := by simp
    rw [List.filter_cons_of_neg (by rw [first]; exact nofun)]
    refine List.filter_eq_self.mpr fun other mem => decide_eq_true ?_
    intro same
    exact distinct'.1 (List.mem_map.mpr ⟨other, mem, same⟩)
  rw [unchanged] at kept
  exact kept

theorem tokenEvent_step (wellFormed : s.WellFormed) {seqId : SeqId} {tokenId : Token}
    {tokens : List (SeqId × Token)} {outputs : List (SeqId × List Token)}
    {decoded : Except PyException String}
    (phase : s.phase = .tokens ((seqId, tokenId) :: tokens) outputs) :
    WorkStep s (tokenEvent s seqId tokenId tokens outputs decoded) false := by
  have held : s.phase.held = [] := by rw [phase]; rfl
  have owed : s.phase.owed s.active = s.active := by rw [phase]; rfl
  unfold tokenEvent
  split
  · exact .goTo wellFormed _ (List.nil_sublist _) nofun held.symm owed.symm
  · next state found =>
    rcases getState_eq found with ⟨mem, -⟩
    have changed : ∀ state' : ActiveRequest, state'.seqId = state.seqId →
        state'.queued = state.queued →
        ((setState s.active state').map ActiveRequest.seqId).Nodup ∧
          (setState s.active state').map ActiveRequest.handle =
            s.active.map ActiveRequest.handle := by
      intro state' seqId queued
      rw [setState_seqIds]
      exact ⟨wellFormed.distinct, setState_handles wellFormed.distinct mem seqId queued⟩
    have moved : ∀ (state' : ActiveRequest) (phase' : Phase), state'.seqId = state.seqId →
        state'.queued = state.queued → phase'.snapshot = [] → phase'.unstarted = false →
        phase'.held = [] → phase'.owed (setState s.active state') = setState s.active state' →
        WorkStep s { s with active := setState s.active state', phase := phase' } false := by
      intro state' phase' seqId queued snapshot started held' owed'
      rcases changed state' seqId queued with ⟨distinct, handles⟩
      refine .move distinct (by rw [snapshot]; exact List.nil_sublist _) started ?_
      rw [State.pending, held, owed, held', owed', handles]
    dsimp only
    split
    · cases decoded with
      | error exc => exact moved _ _ rfl rfl rfl rfl rfl rfl
      | ok text =>
        dsimp only
        have kept : ∀ state' : ActiveRequest, (decodeStableDelta state' text).1.seqId = state'.seqId ∧
            (decodeStableDelta state' text).1.queued = state'.queued := by
          intro state'
          unfold decodeStableDelta
          dsimp only
          split <;> exact ⟨rfl, rfl⟩
        rcases kept { state with tokenIds := state.tokenIds ++ [tokenId] } with ⟨seqId, queued⟩
        split
        · exact moved _ _ seqId queued rfl rfl rfl rfl
        · rcases changed _ seqId queued with ⟨distinct, handles⟩
          refine .delta distinct rfl rfl rfl held.symm ?_ ?_
          · rw [owed]
            exact handles
          · rw [held, owed, List.nil_append, queued]
            exact List.mem_map.mpr ⟨state, mem, rfl⟩
    · exact moved _ _ rfl rfl rfl rfl rfl rfl

/-- An admitted request has no tokens yet. -/
theorem admitRequest_ok {queued : QueuedRequest} {promptTokens : Except PyException ℕ}
    {seqId : Except PyException SeqId} {state : ActiveRequest}
    (admitted : admitRequest config queued promptTokens seqId = .ok state) :
    ∃ n i, promptTokens = .ok n ∧ seqId = .ok i ∧ state = ⟨queued, i, n, [], ""⟩ := by
  cases promptTokens with
  | error exc => cases admitted
  | ok n =>
    have added : (seqId >>= fun i => Except.ok (⟨queued, i, n, [], ""⟩ : ActiveRequest)) =
        .ok state := by
      have ok_bind (f : ℕ → Except PyException ActiveRequest) : (Except.ok n >>= f) = f n := rfl
      rw [admitRequest, ok_bind] at admitted
      split at admitted
      · split at admitted
        · cases admitted
        · exact admitted
      · exact admitted
    cases seqId with
    | error exc => cases added
    | ok i =>
      cases added
      exact ⟨n, i, rfl, rfl, rfl⟩

theorem work_step (wellFormed : s.WellFormed) {response : Response M}
    (stepped : work config s response = some s') : WorkStep s s' response.finishRaises := by
  rcases s with ⟨incoming, events, cancelled, active, phase, submitted, checked⟩
  have distinct : (active.map ActiveRequest.seqId).Nodup := wellFormed.distinct
  cases phase with
  | starting =>
    have empty : active = [] := wellFormed.unstarted rfl
    cases response with
    | factory raised =>
      cases raised with
      | none =>
        cases stepped
        exact .goTo wellFormed _ (List.nil_sublist _) (fun _ => empty) rfl rfl
      | some exc =>
        cases stepped
        exact .goTo wellFormed _ (List.nil_sublist _) nofun rfl empty.symm
    | _ => cases stepped
  | startMetrics =>
    have empty : active = [] := wellFormed.unstarted rfl
    cases response with
    | schedulerMetrics raised =>
      cases raised with
      | none =>
        cases stepped
        exact .goTo wellFormed _ (List.nil_sublist _) nofun rfl rfl
      | some exc =>
        cases stepped
        exact .goTo wellFormed _ (List.nil_sublist _) nofun rfl empty.symm
    | _ => cases stepped
  | draining =>
    cases response with
    | proceed =>
      cases incoming with
      | nil =>
        cases stepped
        exact .goTo wellFormed _ (List.Sublist.refl _) nofun rfl rfl
      | cons item incoming =>
        cases item with
        | stop =>
          cases stepped
          exact .move distinct (List.Sublist.refl _) rfl (.refl _)
        | request queued =>
          cases stepped
          refine .move distinct (List.nil_sublist _) rfl ?_
          change (queuedHandles incoming ++ [queued.handle] ++ active.map _).Perm
            (queued.handle :: (queuedHandles incoming ++ [] ++ active.map _))
          rw [List.append_nil, List.append_assoc]
          exact List.perm_middle
    | _ => cases stepped
  | admitting queued =>
    cases response with
    | proceed =>
      simp only [work] at stepped
      split at stepped
      · cases stepped
        exact .deliver distinct (List.nil_sublist _) rfl rfl (.refl _)
      · cases stepped
        exact .goTo wellFormed _ (List.nil_sublist _) nofun rfl rfl
    | _ => cases stepped
  | adding queued =>
    cases response with
    | admitted promptTokens seqId =>
      simp only [work] at stepped
      split at stepped
      · cases stepped
        exact .deliver distinct (List.nil_sublist _) rfl rfl (.refl _)
      · next state admitted =>
        split at stepped
        · cases stepped
        · next fresh =>
          cases stepped
          refine .move ?_ (List.nil_sublist _) rfl ?_
          · rw [List.map_append, List.map_singleton, List.nodup_append]
            refine ⟨distinct, List.nodup_singleton _, ?_⟩
            rintro _ mem _ mem' rfl
            rw [List.mem_singleton.mp mem'] at mem
            exact fresh mem
          · change (queuedHandles incoming ++ [] ++ (active ++ [state]).map _).Perm
              (queuedHandles incoming ++ [queued.handle] ++ active.map _)
            rcases admitRequest_ok admitted with ⟨n, i, -, -, rfl⟩
            rw [List.append_nil, List.append_assoc, List.map_append, List.map_singleton]
            exact (List.perm_append_comm).append_left _
    | _ => cases stepped
  | cancelling stopping rest =>
    cases rest with
    | nil =>
      cases response with
      | proceed =>
        simp only [work] at stepped
        split at stepped
        · cases stepped
          exact .goTo wellFormed _ (List.nil_sublist _) nofun rfl rfl
        · split at stepped
          · cases stepped
            exact .goTo wellFormed _ (List.nil_sublist _) nofun rfl rfl
          · cases stepped
            exact .goTo wellFormed _ (List.nil_sublist _) nofun rfl rfl
      | _ => cases stepped
    | cons state rest =>
      cases response with
      | proceed =>
        simp only [work] at stepped
        split at stepped
        · cases stepped
          exact .goTo wellFormed _ wellFormed.snapshot nofun rfl rfl
        · cases stepped
          exact .goTo wellFormed _ ((List.sublist_cons_self _ _).trans wellFormed.snapshot) nofun
            rfl rfl
      | _ => cases stepped
  | cancelRequest stopping state rest =>
    have snapshot : (state :: rest).Sublist active := wellFormed.snapshot
    cases response with
    | cancelRequest raised =>
      cases raised with
      | none =>
        cases stepped
        refine .deliver (distinct.sublist (dropState_sublist.map _))
          (rest_sublist distinct snapshot) rfl rfl ?_
        exact dropState_perm distinct (snapshot.subset List.mem_cons_self)
      | some exc =>
        cases stepped
        exact .goTo wellFormed _ (List.nil_sublist _) nofun rfl rfl
    | _ => cases stepped
  | idle =>
    cases response with
    | schedulerMetrics raised =>
      cases raised with
      | none =>
        cases stepped
        exact .goTo wellFormed _ (List.nil_sublist _) nofun rfl rfl
      | some exc =>
        cases stepped
        exact .goTo wellFormed _ (List.nil_sublist _) nofun rfl rfl
    | _ => cases stepped
  | stepping =>
    cases response with
    | step result =>
      cases result with
      | ok result =>
        cases stepped
        exact .goTo wellFormed _ (List.nil_sublist _) nofun rfl rfl
      | error exc =>
        cases stepped
        exact .goTo wellFormed _ (List.nil_sublist _) nofun rfl rfl
    | _ => cases stepped
  | tokens tokens outputs =>
    cases tokens with
    | nil =>
      cases response with
      | proceed =>
        cases stepped
        exact .goTo wellFormed _ (List.nil_sublist _) nofun rfl rfl
      | _ => cases stepped
    | cons token tokens =>
      cases response with
      | decoded text =>
        cases stepped
        exact tokenEvent_step wellFormed rfl
      | _ => cases stepped
  | outputs outputs =>
    cases outputs with
    | nil =>
      cases response with
      | proceed =>
        cases stepped
        exact .goTo wellFormed _ (List.nil_sublist _) nofun rfl rfl
      | _ => cases stepped
    | cons output outputs =>
      cases response with
      | proceed =>
        simp only [work] at stepped
        split at stepped
        · cases stepped
          exact .goTo wellFormed _ (List.nil_sublist _) nofun rfl rfl
        · next state found =>
          rcases getState_eq found with ⟨mem, same⟩
          cases stepped
          rw [← same]
          refine .move (distinct.sublist (dropState_sublist.map _)) (List.nil_sublist _) rfl ?_
          change (queuedHandles incoming ++ [state.handle] ++
            (dropState active state.seqId).map _).Perm
              (queuedHandles incoming ++ [] ++ active.map _)
          rw [List.append_nil, List.append_assoc]
          exact (dropState_perm distinct mem).symm.append_left _
      | _ => cases stepped
  | finishing state tokenIds outputs =>
    cases response with
    | finishDecoded text =>
      cases text with
      | error exc =>
        cases stepped
        exact .lose wellFormed rfl rfl
      | ok text =>
        simp only [work] at stepped
        split at stepped
        · cases stepped
          exact .delta distinct rfl rfl rfl rfl rfl List.mem_cons_self
        · cases stepped
          exact .goTo wellFormed _ (List.nil_sublist _) nofun rfl rfl
    | _ => cases stepped
  | finishMetrics state tokenIds text outputs =>
    cases response with
    | requestMetrics metrics =>
      cases metrics with
      | error exc =>
        cases stepped
        exact .lose wellFormed rfl rfl
      | ok metrics =>
        cases stepped
        exact .deliver distinct (List.nil_sublist _) rfl rfl (.refl _)
    | _ => cases stepped
  | stepMetrics =>
    cases response with
    | schedulerMetrics raised =>
      cases raised with
      | none =>
        cases stepped
        exact .goTo wellFormed _ (List.nil_sublist _) nofun rfl rfl
      | some exc =>
        cases stepped
        exact .goTo wellFormed _ (List.nil_sublist _) nofun rfl rfl
    | _ => cases stepped
  | failing exc rest =>
    cases rest with
    | nil =>
      cases response with
      | proceed =>
        cases stepped
        exact .move List.nodup_nil (List.nil_sublist _) rfl (.refl _)
      | _ => cases stepped
    | cons state rest =>
      cases response with
      | cancelRequest raised =>
        cases stepped
        exact .deliver distinct (List.nil_sublist _) rfl rfl (.refl _)
      | _ => cases stepped
  | failMetrics =>
    cases response with
    | schedulerMetrics raised =>
      cases raised with
      | none =>
        cases stepped
        exact .goTo wellFormed _ (List.nil_sublist _) nofun rfl rfl
      | some exc =>
        cases stepped
        exact .goTo wellFormed _ (List.nil_sublist _) nofun rfl rfl
    | _ => cases stepped
  | closing rest =>
    cases rest with
    | nil =>
      cases response with
      | proceed =>
        cases stepped
        exact .goTo wellFormed _ (List.nil_sublist _) nofun rfl rfl
      | _ => cases stepped
    | cons state rest =>
      cases response with
      | cancelRequest raised =>
        cases stepped
        exact .deliver distinct (List.nil_sublist _) rfl rfl (.refl _)
      | _ => cases stepped
  | exited => cases stepped

/-! ## Every run -/

/-- The events of a finished request: parts of its text and one terminal event. -/
def EndsOnce (events : List (GenerationEvent M)) : Prop :=
  ∃ texts terminal, events = texts ++ [terminal] ∧
    (∀ event ∈ texts, event.isTerminal = false) ∧ terminal.isTerminal = true

/-- Every handle which `submit` returned has received its terminal event and nothing after it. -/
def State.Delivered (s : State M) : Prop := ∀ handle < s.submitted, EndsOnce (s.events handle)

/-- The submitted handles, sorted by what has become of them. -/
structure Accounts (s : State M) (lost done : List HandleId) : Prop where
  perm : (List.range s.submitted).Perm (s.pending ++ lost ++ done)
  opened : ∀ handle ∉ done, ∀ event ∈ s.events handle, event.isTerminal = false
  closed : ∀ handle ∈ done, EndsOnce (s.events handle)

namespace Accounts

variable {lost done : List HandleId}

theorem not_mem_done (accounts : Accounts s lost done) {handle : HandleId}
    (waits : handle ∈ s.pending) : handle ∉ done := by
  have distinct := accounts.perm.nodup_iff.mp List.nodup_range
  rw [List.append_assoc, List.nodup_append] at distinct
  intro isDone
  exact distinct.2.2 handle waits handle (List.mem_append_right _ isDone) rfl

/-- A step which changes neither the handles nor what has become of them. -/
theorem move (accounts : Accounts s lost done) (submitted : s'.submitted = s.submitted)
    (events : s'.events = s.events) (pending : s'.pending.Perm s.pending) :
    Accounts s' lost done where
  perm := by
    rw [submitted]
    exact accounts.perm.trans ((pending.symm.append_right lost).append_right done)
  opened := by
    rw [events]
    exact accounts.opened
  closed := by
    rw [events]
    exact accounts.closed

/-- The accounts after an action of the engine thread. -/
theorem work (accounts : Accounts s lost done) {raises : Bool} (step : WorkStep s s' raises) :
    ∃ lost' done', Accounts s' lost' done' ∧ (lost' = [] ↔ lost = [] ∧ raises = false) := by
  have submitted := step.submitted
  cases step.effect with
  | moves events pending =>
    exact ⟨lost, done, accounts.move submitted events pending, by simp⟩
  | @delta handle event events text waits pending =>
    have notDone := accounts.not_mem_done waits
    refine ⟨lost, done, ⟨?_, ?_, ?_⟩, by simp⟩
    · rw [submitted]
      exact accounts.perm.trans ((pending.symm.append_right lost).append_right done)
    · intro other otherNotDone other' mem
      rw [events] at mem
      by_cases same : other = handle
      · subst same
        rw [Function.update_self, List.mem_append, List.mem_singleton] at mem
        rcases mem with old | rfl
        · exact accounts.opened other notDone other' old
        · exact text
      · rw [Function.update_of_ne same] at mem
        exact accounts.opened other otherNotDone other' mem
    · intro other isDone
      have differ : other ≠ handle := by
        rintro rfl
        exact notDone isDone
      rw [events, Function.update_of_ne differ]
      exact accounts.closed other isDone
  | @delivers handle event events terminal pending =>
    have waits : handle ∈ s.pending := pending.mem_iff.mpr List.mem_cons_self
    have notDone := accounts.not_mem_done waits
    refine ⟨lost, handle :: done, ⟨?_, ?_, ?_⟩, by simp⟩
    · rw [submitted]
      refine accounts.perm.trans (((pending.append_right lost).append_right done).trans ?_)
      exact List.perm_middle.symm
    · intro other otherNotDone other' mem
      rw [List.mem_cons, not_or] at otherNotDone
      rw [events, Function.update_of_ne otherNotDone.1] at mem
      exact accounts.opened other otherNotDone.2 other' mem
    · intro other isDone
      by_cases same : other = handle
      · subst same
        rw [events, Function.update_self]
        exact ⟨_, event, rfl, accounts.opened other notDone, terminal⟩
      · rw [events, Function.update_of_ne same]
        exact accounts.closed other ((List.mem_cons.mp isDone).resolve_left same)
  | @loses handle events pending =>
    refine ⟨handle :: lost, done, ⟨?_, ?_, ?_⟩, by simp⟩
    · rw [submitted]
      refine accounts.perm.trans (((pending.append_right lost).append_right done).trans ?_)
      exact List.perm_middle.symm.append_right done
    · rw [events]
      exact accounts.opened
    · rw [events]
      exact accounts.closed

/-- A request which has been put into the queue waits. -/
theorem submit (accounts : Accounts s lost done) (submitted : s'.submitted = s.submitted + 1)
    (events : s'.events = s.events) (pending : s'.pending.Perm (s.submitted :: s.pending)) :
    Accounts s' lost done where
  perm := by
    rw [submitted, List.range_succ]
    refine (List.perm_append_singleton _ _).trans ((accounts.perm.cons _).trans ?_)
    exact ((pending.symm.append_right lost).append_right done)
  opened := by
    rw [events]
    exact accounts.opened
  closed := by
    rw [events]
    exact accounts.closed

end Accounts

theorem queuedHandles_append (incoming : List Item) (item : Item) :
    queuedHandles (incoming ++ [item]) = queuedHandles incoming ++ item.handle?.toList := by
  rw [queuedHandles, List.filterMap_append]
  cases item <;> rfl

/-- Where every submitted request is, in every reachable state. -/
theorem Reachable.accounts {actions : List (Action M)} (reachable : Reachable config actions s) :
    s.WellFormed ∧ ∃ lost done, Accounts s lost done ∧
      (lost = [] ↔ ∀ action ∈ actions, action.finishRaises = false) := by
  induction reachable with
  | initial =>
    refine ⟨⟨List.nodup_nil, List.nil_sublist _, fun _ => rfl⟩, [], [], ⟨.refl _, ?_, ?_⟩, ?_⟩
    · intro handle _ event mem
      cases mem
    · intro handle mem
      cases mem
    · simp
  | @step actions s s' action reachable stepped ih =>
    rcases ih with ⟨wellFormed, lost, done, accounts, raised⟩
    have keeps : action.finishRaises = false →
        (lost = [] ↔ ∀ action' ∈ actions ++ [action], action'.finishRaises = false) := by
      intro quiet
      simp [raised, or_imp, forall_and, quiet]
    cases action with
    | checkAlive =>
      simp only [next] at stepped
      split at stepped
      · cases stepped
      · cases stepped
        exact ⟨⟨wellFormed.distinct, wellFormed.snapshot, wellFormed.unstarted⟩, lost, done,
          accounts.move rfl rfl (.refl _), keeps rfl⟩
    | submit stream maxTokens =>
      simp only [next] at stepped
      split at stepped
      · cases stepped
      · cases stepped
        refine ⟨⟨wellFormed.distinct, wellFormed.snapshot, wellFormed.unstarted⟩, lost, done,
          accounts.submit rfl rfl ?_, keeps rfl⟩
        simp only [State.pending, queuedHandles_append, Item.handle?, Option.toList_some,
          List.append_assoc]
        exact List.perm_middle
    | cancel handle =>
      cases stepped
      exact ⟨⟨wellFormed.distinct, wellFormed.snapshot, wellFormed.unstarted⟩, lost, done,
        accounts.move rfl rfl (.refl _), keeps rfl⟩
    | stop =>
      cases stepped
      refine ⟨⟨wellFormed.distinct, wellFormed.snapshot, wellFormed.unstarted⟩, lost, done,
        accounts.move rfl rfl ?_, keeps rfl⟩
      simp only [State.pending, queuedHandles_append, Item.handle?, Option.toList_none,
        List.append_nil]
      exact .refl _
    | worker response =>
      have step := work_step wellFormed stepped
      rcases accounts.work step with ⟨lost', done', accounts', lost'_nil⟩
      refine ⟨step.wellFormed, lost', done', accounts', lost'_nil.trans ?_⟩
      simp [raised, or_imp, forall_and, Action.finishRaises]

/--
A handle never receives an event after its terminal event. Once the thread has exited, every
submitted handle has received its terminal event if and only if no call in `_finish` has raised
and no request is left in the incoming queue.
-/
theorem delivered_iff {actions : List (Action M)} (reachable : Reachable config actions s) :
    (∀ handle, (∀ event ∈ s.events handle, event.isTerminal = false) ∨
      EndsOnce (s.events handle)) ∧
    (s.phase = .exited → (s.Delivered ↔
      (∀ action ∈ actions, action.finishRaises = false) ∧ queuedHandles s.incoming = [])) := by
  rcases reachable.accounts with ⟨-, lost, done, accounts, raised⟩
  constructor
  · intro handle
    by_cases isDone : handle ∈ done
    · exact .inr (accounts.closed handle isDone)
    · exact .inl (accounts.opened handle isDone)
  · intro exited
    have pending : s.pending = queuedHandles s.incoming := by
      rw [State.pending, exited]
      change queuedHandles s.incoming ++ [] ++ [] = _
      rw [List.append_nil, List.append_nil]
    have perm := accounts.perm
    rw [pending] at perm
    rw [← raised]
    constructor
    · intro delivered
      have distinct := perm.nodup_iff.mp List.nodup_range
      rw [List.nodup_append] at distinct
      have none : queuedHandles s.incoming ++ lost = [] := by
        rw [List.eq_nil_iff_forall_not_mem]
        intro handle mem
        have notDone : handle ∉ done := fun isDone => distinct.2.2 handle mem handle isDone rfl
        have submitted := List.mem_range.mp (perm.mem_iff.mpr (List.mem_append_left _ mem))
        rcases delivered handle submitted with ⟨texts, terminal, events, -, isTerminal⟩
        have open' := accounts.opened handle notDone terminal (by simp [events])
        rw [isTerminal] at open'
        cases open'
      rw [List.append_eq_nil_iff] at none
      exact ⟨none.2, none.1⟩
    · rintro ⟨rfl, empty⟩ handle submitted
      rw [empty] at perm
      exact accounts.closed handle (perm.mem_iff.mp (List.mem_range.mpr submitted))

/-! ## Runs -/

/-- The state after a sequence of actions. -/
def runActions (config : EngineConfig) (s : State M) : List (Action M) → Option (State M)
  | [] => some s
  | action :: actions => next config s action >>= fun s' => runActions config s' actions

theorem Reachable.runActions {before : List (Action M)} (reachable : Reachable config before s)
    {actions : List (Action M)} (run : runActions config s actions = some s') :
    Reachable config (before ++ actions) s' := by
  induction actions generalizing s before with
  | nil =>
    cases run
    rwa [List.append_nil]
  | cons action actions ih =>
    rcases Option.bind_eq_some_iff.mp run with ⟨middle, stepped, rest⟩
    rw [List.append_cons]
    exact ih (.step reachable stepped) rest

/-- Start the engine. -/
def startActions : List (Action Unit) :=
  [.worker (.factory none), .worker (.schedulerMetrics none)]

/-- A request of one token is submitted, admitted and finished, and the worker is stopped. -/
def servedActions : List (Action Unit) := startActions ++ [
  .checkAlive, .submit true 1, .worker .proceed, .worker .proceed,
  .worker (.admitted (.ok 3) (.ok 0)), .worker .proceed, .worker .proceed, .worker .proceed,
  .worker (.step (.ok ([(0, 7)], [(0, [7])]))), .worker (.decoded (.ok "a")), .worker .proceed,
  .worker .proceed, .worker (.finishDecoded (.ok "a")), .worker (.requestMetrics (.ok none)),
  .worker .proceed, .worker (.schedulerMetrics none), .stop, .worker .proceed, .worker .proceed,
  .worker .proceed]

/-- A request passes the check of `submit` before the stop marker and is put behind it. -/
def lateActions : List (Action Unit) := startActions ++ [
  .checkAlive, .stop, .submit true 1, .worker .proceed, .worker .proceed, .worker .proceed]

/-- The decoding of the output of a finished request raises. -/
def raisedActions : List (Action Unit) := startActions ++ [
  .checkAlive, .submit true 1, .worker .proceed, .worker .proceed,
  .worker (.admitted (.ok 3) (.ok 0)), .worker .proceed, .worker .proceed, .worker .proceed,
  .worker (.step (.ok ([], [(0, [7])]))), .worker .proceed, .worker .proceed,
  .worker (.finishDecoded (.error ⟨"ValueError", "decode"⟩)), .worker .proceed,
  .worker (.schedulerMetrics none), .stop, .worker .proceed, .worker .proceed, .worker .proceed]

theorem delivered_iff_served : ∃ s : State Unit,
    Reachable ⟨none, none⟩ servedActions s ∧ s.phase = .exited ∧ s.Delivered := by
  have run : (runActions ⟨none, none⟩ .initial servedActions).map
      (fun s => (s.phase, s.incoming)) = some (.exited, []) := by rfl
  rcases Option.map_eq_some_iff.mp run with ⟨s, reached, state⟩
  rcases Prod.ext_iff.mp state with ⟨exited, incoming⟩
  have reachable : Reachable ⟨none, none⟩ servedActions s := Reachable.initial.runActions reached
  refine ⟨s, reachable, exited, ((delivered_iff reachable).2 exited).mpr ⟨?_, ?_⟩⟩
  · decide
  · change s.incoming = [] at incoming
    rw [incoming]
    rfl

/-- A handle without events has no terminal event. -/
theorem not_delivered_of_run {actions : List (Action Unit)}
    (run : (runActions ⟨none, none⟩ .initial actions).map
      (fun s => (s.phase, s.submitted, s.events 0)) = some (.exited, 1, [])) :
    ∃ s : State Unit, Reachable ⟨none, none⟩ actions s ∧ s.phase = .exited ∧ ¬s.Delivered := by
  rcases Option.map_eq_some_iff.mp run with ⟨s, reached, state⟩
  rcases Prod.ext_iff.mp state with ⟨exited, rest⟩
  rcases Prod.ext_iff.mp rest with ⟨submitted, events⟩
  refine ⟨s, Reachable.initial.runActions reached, exited, fun delivered => ?_⟩
  change s.submitted = 1 at submitted
  change s.events 0 = [] at events
  rcases delivered 0 (by omega) with ⟨texts, terminal, equal, -⟩
  rw [events] at equal
  exact absurd equal (by simp)

/-- Requests are lost behind the stop marker and when `_finish` raises. -/
theorem not_delivered_late_raised :
    (∃ s : State Unit, Reachable ⟨none, none⟩ lateActions s ∧ s.phase = .exited ∧
      ¬s.Delivered) ∧
    ∃ s : State Unit, Reachable ⟨none, none⟩ raisedActions s ∧ s.phase = .exited ∧
      ¬s.Delivered :=
  ⟨not_delivered_of_run rfl, not_delivered_of_run rfl⟩

end NanoVllm.Serve
