import NanoVllm.Serve.EventQueue
import Mathlib.Tactic.Common

/-!
# No lost wakeup

A call registers before it finds the queue empty, and `put` enqueues before it takes its
snapshot. So the snapshot of a `put` whose item has arrived after the look into the queue has
the waiter of a suspended call. Items leave the queue in the order of their arrival, each at most
once, and a cancelled call takes none and leaves no waiter.
-/

namespace NanoVllm.Serve.EventQueue

variable {α : Type}

/-! ## Steps -/

namespace CallPhase

/-- The waiter a call has registered and not yet deregistered. -/
def waiter? : CallPhase α → Option Waiter
  | .registered waiter => some waiter
  | .suspended waiter => some waiter
  | .woken waiter => some waiter
  | .cancelling waiter => some waiter
  | .leaving waiter _ => some waiter
  | _ => none

/-- The items a call has taken. -/
def taken : CallPhase α → List α
  | .leaving _ (.returned item) => [item]
  | .returned item => [item]
  | _ => []

/-- Whether a call makes no more actions. -/
def ended : CallPhase α → Bool
  | .returned _ => true
  | .cancelled => true
  | .abandoned => true
  | _ => false

theorem waiter?_abandon {phase : CallPhase α} {waiter : Waiter} (quiet : phase.running = false) :
    phase.abandon.waiter? ≠ some waiter := by
  cases phase <;> simp_all [abandon, waiter?, running]

theorem ended_abandon {phase : CallPhase α} (quiet : phase.running = false) :
    phase.abandon.ended = true := by
  cases phase <;> simp_all [abandon, ended, running]

theorem abandon_of_waiter? {phase : CallPhase α} {waiter : Waiter}
    (quiet : phase.running = false) (holds : phase.waiter? = some waiter) :
    phase.abandon = .abandoned := by
  cases phase <;> simp_all [abandon, waiter?, running]

theorem taken_abandon {phase : CallPhase α} : phase.abandon.taken = phase.taken := by
  cases phase <;> rfl

theorem ended_of_waiter? {phase : CallPhase α} {waiter : Waiter}
    (holds : phase.waiter? = some waiter) : phase.ended = false := by
  cases phase <;> simp_all [ended, waiter?]

end CallPhase

/-- What an action can do. -/
inductive Step (s : State α) : State α → Prop
  | enqueue {p : ProducerId} {item : α} (idle : s.producers p = .idle) :
      Step s ({ s with
        queue := s.queue ++ [item]
        enqueued := s.enqueued ++ [item] }.setProducer p .enqueued)
  | snapshot {p : ProducerId} {waiters : List Waiter} (enqueued : s.producers p = .enqueued)
      (all : waiters.toFinset = s.waiters) : Step s (s.setProducer p (.waking waiters))
  | returns {p : ProducerId} (done : s.producers p = .waking []) : Step s (s.setProducer p .idle)
  | schedule {p : ProducerId} {waiter : Waiter} {rest : List Waiter}
      (waking : s.producers p = .waking (waiter :: rest)) :
      Step s ({ s with scheduled := s.scheduled ++ [waiter] }.setProducer p (.waking rest))
  | refuse {p : ProducerId} {waiter : Waiter} {rest : List Waiter}
      (waking : s.producers p = .waking (waiter :: rest)) (closed : s.closed waiter.loop = true) :
      Step s (s.setProducer p (.discarding waiter rest))
  | discard {p : ProducerId} {waiter : Waiter} {rest : List Waiter}
      (discarding : s.producers p = .discarding waiter rest) :
      Step s ({ s with waiters := s.waiters.erase waiter }.setProducer p (.waking rest))
  | call {loop : LoopId} (opened : s.closed loop = false) :
      Step s { s with calls := s.calls + 1, loop := Function.update s.loop s.calls loop }
  | register {c : CallId} {round : ℕ} (known : c < s.calls)
      (start : s.phase c = .created ∨ s.phase c = .looping round) :
      Step s (s.registerWaiter c round)
  | take {c : CallId} {waiter : Waiter} {item : α} {queue : List α}
      (registered : s.phase c = .registered waiter) (nonempty : s.queue = item :: queue) :
      Step s ({ s with
        queue
        delivered := s.delivered ++ [(c, item)] }.setPhase c (.leaving waiter (.returned item)))
  | suspend {c : CallId} {waiter : Waiter} (registered : s.phase c = .registered waiter)
      (empty : s.queue = []) : Step s (s.setPhase c (.suspended waiter))
  | resume {c : CallId} {waiter : Waiter} {outcome : Outcome α}
      (awaited : s.phase c = .woken waiter ∧ outcome = .retry ∨
        s.phase c = .cancelling waiter ∧ outcome = .cancelled) :
      Step s (s.setPhase c (.leaving waiter outcome))
  | deregister {c : CallId} {waiter : Waiter} {outcome : Outcome α}
      (leaving : s.phase c = .leaving waiter outcome) :
      Step s ({ s with waiters := s.waiters.erase waiter }.setPhase c
        (State.afterLeaving waiter outcome))
  | cancelCreated {c : CallId} (known : c < s.calls) (created : s.phase c = .created) :
      Step s (s.setPhase c .cancelled)
  | cancel {c : CallId} {waiter : Waiter}
      (awaited : s.phase c = .suspended waiter ∨ s.phase c = .woken waiter) :
      Step s (s.setPhase c (.cancelling waiter))
  | wake {waiter : Waiter} (suspended : s.phase waiter.call = .suspended waiter) :
      Step s ({ s with scheduled := s.scheduled.erase waiter }.setPhase waiter.call
        (.woken waiter))
  | wakeDone {waiter : Waiter} (done : s.phase waiter.call ≠ .suspended waiter) :
      Step s { s with scheduled := s.scheduled.erase waiter }
  | close {loop : LoopId}
      (quiet : ∀ c < s.calls, s.loop c = loop → (s.phase c).running = false) :
      Step s { s with
        phase := fun c => if c < s.calls ∧ s.loop c = loop then (s.phase c).abandon else s.phase c
        scheduled := s.scheduled.filter fun waiter => waiter.loop ≠ loop
        closed := Function.update s.closed loop true }

variable {s s' : State α} {action : Action α} {p : ProducerId} {c : CallId} {w : Waiter}

theorem step_of_next (stepped : s.next action = some s') : Step s s' := by
  cases action with
  | enqueue p item =>
    simp only [State.next] at stepped
    split at stepped
    · next idle =>
      cases stepped
      exact .enqueue idle
    · cases stepped
  | snapshot p waiters =>
    simp only [State.next] at stepped
    split at stepped
    · next enqueued =>
      split at stepped
      · next all =>
        cases stepped
        exact .snapshot enqueued all.2
      · cases stepped
    · cases stepped
  | wakeNext p =>
    simp only [State.next] at stepped
    split at stepped
    · next done =>
      cases stepped
      exact .returns done
    · next waking =>
      split at stepped
      · next closed =>
        cases stepped
        exact .refuse waking closed
      · cases stepped
        exact .schedule waking
    · cases stepped
  | discard p =>
    simp only [State.next] at stepped
    split at stepped
    · next discarding =>
      cases stepped
      exact .discard discarding
    · cases stepped
  | call loop =>
    simp only [State.next] at stepped
    split at stepped
    · cases stepped
    · next opened =>
      cases stepped
      exact .call (Bool.not_eq_true _ ▸ opened)
  | register c =>
    simp only [State.next] at stepped
    split at stepped
    · next known =>
      split at stepped
      · next created =>
        cases stepped
        exact .register known (.inl created)
      · next looping =>
        cases stepped
        exact .register known (.inr looping)
      · cases stepped
    · cases stepped
  | getNowait c =>
    simp only [State.next] at stepped
    split at stepped
    · next registered =>
      split at stepped
      · next empty =>
        cases stepped
        exact .suspend registered empty
      · next nonempty =>
        cases stepped
        exact .take registered nonempty
    · cases stepped
  | resume c =>
    simp only [State.next] at stepped
    split at stepped
    · next woken =>
      cases stepped
      exact .resume (.inl ⟨woken, rfl⟩)
    · next cancelling =>
      cases stepped
      exact .resume (.inr ⟨cancelling, rfl⟩)
    · cases stepped
  | deregister c =>
    simp only [State.next] at stepped
    split at stepped
    · next leaving =>
      cases stepped
      exact .deregister leaving
    · cases stepped
  | cancel c =>
    simp only [State.next] at stepped
    split at stepped
    · next known =>
      split at stepped
      · next created =>
        cases stepped
        exact .cancelCreated known created
      · next suspended =>
        cases stepped
        exact .cancel (.inl suspended)
      · next woken =>
        cases stepped
        exact .cancel (.inr woken)
      · cases stepped
    · cases stepped
  | wake waiter =>
    simp only [State.next] at stepped
    split at stepped
    · split at stepped
      · next future suspended =>
        split at stepped
        · next same =>
          cases stepped
          exact .wake (same ▸ suspended)
        · next differ =>
          cases stepped
          apply Step.wakeDone
          rw [suspended]
          intro equal
          exact differ (CallPhase.suspended.inj equal)
      · next other =>
        cases stepped
        exact .wakeDone (other waiter)
    · cases stepped
  | close loop =>
    simp only [State.next] at stepped
    split at stepped
    · next quiet =>
      cases stepped
      exact .close quiet
    · cases stepped

/-! ## The invariant -/

/-- A `put` in progress will schedule a wake of the waiter. -/
def State.WillWake (s : State α) (p : ProducerId) (w : Waiter) : Prop :=
  match s.producers p with
  | .idle => False
  | .enqueued => w ∈ s.waiters
  | .waking rest => w ∈ rest
  | .discarding _ rest => w ∈ rest

/-- A wake of the waiter is scheduled, or a `put` in progress will schedule one. -/
def State.WakePending (s : State α) (w : Waiter) : Prop :=
  w ∈ s.scheduled ∨ ∃ p, s.WillWake p w

/-- The waiter of a call is its own and is registered. -/
def State.Owns (s : State α) (c : CallId) (phase : CallPhase α) : Prop :=
  ∀ w, phase.waiter? = some w → c < s.calls ∧ w.call = c ∧ w.loop = s.loop c ∧ w ∈ s.waiters

/-- The calls of a closed event loop have ended. -/
def State.Closes (s : State α) (c : CallId) (phase : CallPhase α) : Prop :=
  c < s.calls → s.closed (s.loop c) = true → phase.ended = true

/-- A suspended call will be woken when there is an item. -/
def State.Wakes (s : State α) (phase : CallPhase α) : Prop :=
  ∀ w, phase = .suspended w → s.queue ≠ [] → s.WakePending w

/-- The items delivered to a call are those it has taken. -/
def State.Takes (s : State α) (c : CallId) (phase : CallPhase α) : Prop :=
  (s.delivered.filter fun entry => entry.1 = c).map Prod.snd = phase.taken

structure Valid (s : State α) : Prop where
  owns : ∀ c, s.Owns c (s.phase c)
  held : ∀ w ∈ s.waiters, (s.phase w.call).waiter? = some w ∨ s.phase w.call = .abandoned
  closes : ∀ c, s.Closes c (s.phase c)
  refused : ∀ p w rest, s.producers p = .discarding w rest → s.closed w.loop = true
  wakes : ∀ c, s.Wakes (s.phase c)
  fifo : s.enqueued = s.delivered.map Prod.snd ++ s.queue
  takes : ∀ c, s.Takes c (s.phase c)

theorem valid_initial : Valid (State.initial : State α) where
  owns := by
    rintro c w ⟨⟩
  held := by
    intro w member
    simp [State.initial] at member
  closes := by
    intro c known
    simp [State.initial] at known
  refused := by
    rintro p w rest ⟨⟩
  wakes := by
    rintro c w ⟨⟩
  fifo := rfl
  takes := by
    intro c
    rfl

theorem forall_setPhase {P : CallId → CallPhase α → Prop} {phase : CallPhase α}
    (self : P c phase) (others : ∀ c', c' ≠ c → P c' (s.phase c')) :
    ∀ c', P c' ((s.setPhase c phase).phase c') :=
  (Function.forall_update_iff s.phase P).mpr ⟨self, others⟩

namespace Valid

theorem owns_step (valid : Valid s) (step : Step s s') : ∀ c, s'.Owns c (s'.phase c) := by
  have owns := valid.owns
  -- A call which keeps its waiter.
  have keep : ∀ {c w} {phase : CallPhase α}, (s.phase c).waiter? = some w →
      phase.waiter? = some w → s.Owns c phase := by
    intro c w phase before after w' holds
    cases after.symm.trans holds
    exact owns c w before
  cases step with
  | enqueue => exact owns
  | snapshot => exact owns
  | returns => exact owns
  | schedule => exact owns
  | refuse => exact owns
  | @discard p waiter rest discarding =>
    intro c w holds
    rcases owns c w holds with ⟨known, call, loop, member⟩
    refine ⟨known, call, loop, Finset.mem_erase.mpr ⟨?_, member⟩⟩
    rintro rfl
    have ended := valid.closes c known (loop ▸ valid.refused p w rest discarding)
    cases ended.symm.trans (CallPhase.ended_of_waiter? holds)
  | call =>
    intro c w holds
    rcases owns c w holds with ⟨known, call, loop, member⟩
    refine ⟨Nat.lt_succ_of_lt known, call, ?_, member⟩
    simp only [Function.update_of_ne known.ne, loop]
  | @register c round known =>
    apply forall_setPhase
    · rintro w ⟨⟩
      exact ⟨known, rfl, rfl, Finset.mem_insert_self _ _⟩
    · intro c' differ w holds
      rcases owns c' w holds with ⟨known', call, loop, member⟩
      exact ⟨known', call, loop, Finset.mem_insert_of_mem member⟩
  | take registered =>
    apply forall_setPhase _ fun c' _ => owns c'
    exact keep (by rw [registered]; rfl) rfl
  | suspend registered =>
    apply forall_setPhase _ fun c' _ => owns c'
    exact keep (by rw [registered]; rfl) rfl
  | resume awaited =>
    apply forall_setPhase _ fun c' _ => owns c'
    rcases awaited with ⟨woken, -⟩ | ⟨cancelling, -⟩
    · exact keep (by rw [woken]; rfl) rfl
    · exact keep (by rw [cancelling]; rfl) rfl
  | @deregister c waiter outcome leaving =>
    have self := owns c waiter (by rw [leaving]; rfl)
    apply forall_setPhase
    · intro w holds
      cases outcome <;> cases holds
    · intro c' differ w holds
      rcases owns c' w holds with ⟨known, call, loop, member⟩
      refine ⟨known, call, loop, Finset.mem_erase.mpr ⟨?_, member⟩⟩
      rintro rfl
      exact differ (call.symm.trans self.2.1)
  | cancelCreated =>
    apply forall_setPhase _ fun c' _ => owns c'
    rintro w ⟨⟩
  | cancel awaited =>
    apply forall_setPhase _ fun c' _ => owns c'
    rcases awaited with suspended | woken
    · exact keep (by rw [suspended]; rfl) rfl
    · exact keep (by rw [woken]; rfl) rfl
  | wake suspended =>
    apply forall_setPhase _ fun c' _ => owns c'
    exact keep (by rw [suspended]; rfl) rfl
  | wakeDone => exact owns
  | close quiet =>
    intro c w holds
    simp only at holds
    split at holds
    · next closing =>
      exact absurd holds (CallPhase.waiter?_abandon (quiet c closing.1 closing.2))
    · exact owns c w holds

theorem held_step (valid : Valid s) (step : Step s s') : ∀ w ∈ s'.waiters,
    (s'.phase w.call).waiter? = some w ∨ s'.phase w.call = .abandoned := by
  have held := valid.held
  -- A call which keeps its waiter.
  have keep : ∀ {c w} {phase : CallPhase α}, (s.phase c).waiter? = some w →
      phase.waiter? = some w → ∀ w' ∈ s.waiters,
        ((s.setPhase c phase).phase w'.call).waiter? = some w' ∨
          (s.setPhase c phase).phase w'.call = .abandoned := by
    intro c w phase before after w' member
    by_cases self : w'.call = c
    · left
      rcases held w' member with holds | abandoned
      · rw [self, before] at holds
        rw [self, State.setPhase]
        simp only [Function.update_self]
        rw [after, holds]
      · rw [self] at abandoned
        rw [abandoned] at before
        cases before
    · simp only [State.setPhase, Function.update_of_ne self]
      exact held w' member
  cases step with
  | enqueue => exact held
  | snapshot => exact held
  | returns => exact held
  | schedule => exact held
  | refuse => exact held
  | discard =>
    intro w member
    exact held w (Finset.mem_of_mem_erase member)
  | call => exact held
  | @register c round known start =>
    intro w member
    rcases Finset.mem_insert.mp member with rfl | member
    · left
      simp [State.registerWaiter, State.setPhase, CallPhase.waiter?]
    · have differ : w.call ≠ c := by
        intro self
        rcases held w member with holds | abandoned
        · rcases start with created | looping
          · rw [self, created] at holds
            cases holds
          · rw [self, looping] at holds
            cases holds
        · rcases start with created | looping
          · rw [self, created] at abandoned
            cases abandoned
          · rw [self, looping] at abandoned
            cases abandoned
      simp only [State.registerWaiter, State.setPhase, Function.update_of_ne differ]
      exact held w member
  | take registered => exact keep (by rw [registered]; rfl) rfl
  | suspend registered => exact keep (by rw [registered]; rfl) rfl
  | resume awaited =>
    rcases awaited with ⟨woken, -⟩ | ⟨cancelling, -⟩
    · exact keep (by rw [woken]; rfl) rfl
    · exact keep (by rw [cancelling]; rfl) rfl
  | @deregister c waiter outcome leaving =>
    intro w member
    rcases Finset.mem_erase.mp member with ⟨differ, member⟩
    have other : w.call ≠ c := by
      intro self
      rcases held w member with holds | abandoned
      · rw [self, leaving] at holds
        exact differ (Option.some.inj holds).symm
      · rw [self, leaving] at abandoned
        cases abandoned
    simp only [State.setPhase, Function.update_of_ne other]
    exact held w member
  | @cancelCreated c known created =>
    intro w member
    have other : w.call ≠ c := by
      intro self
      rcases held w member with holds | abandoned
      · rw [self, created] at holds
        cases holds
      · rw [self, created] at abandoned
        cases abandoned
    simp only [State.setPhase, Function.update_of_ne other]
    exact held w member
  | cancel awaited =>
    rcases awaited with suspended | woken
    · exact keep (by rw [suspended]; rfl) rfl
    · exact keep (by rw [woken]; rfl) rfl
  | wake suspended => exact keep (by rw [suspended]; rfl) rfl
  | wakeDone => exact held
  | close quiet =>
    intro w member
    simp only
    split
    · next closing =>
      rcases held w member with holds | abandoned
      · exact .inr (CallPhase.abandon_of_waiter? (quiet _ closing.1 closing.2) holds)
      · rw [abandoned]
        exact .inr rfl
    · exact held w member

theorem closes_step (valid : Valid s) (step : Step s s') : ∀ c, s'.Closes c (s'.phase c) := by
  have closes := valid.closes
  -- The event loop of a call which has not ended is open.
  have live : ∀ {c} {phase : CallPhase α}, (s.phase c).ended = false → s.Closes c phase := by
    intro c phase live known closed
    cases (closes c known closed).symm.trans live
  cases step with
  | enqueue => exact closes
  | snapshot => exact closes
  | returns => exact closes
  | schedule => exact closes
  | refuse => exact closes
  | discard => exact closes
  | @call loop opened =>
    intro c known closed
    by_cases self : c = s.calls
    · simp only [self, Function.update_self, opened] at closed
      cases closed
    · simp only [Function.update_of_ne self] at closed
      exact closes c (Nat.lt_of_le_of_ne (Nat.le_of_lt_succ known) self) closed
  | register known start =>
    apply forall_setPhase _ fun c' _ => closes c'
    rcases start with created | looping
    · exact live (by rw [created]; rfl)
    · exact live (by rw [looping]; rfl)
  | take registered =>
    apply forall_setPhase _ fun c' _ => closes c'
    exact live (by rw [registered]; rfl)
  | suspend registered =>
    apply forall_setPhase _ fun c' _ => closes c'
    exact live (by rw [registered]; rfl)
  | resume awaited =>
    apply forall_setPhase _ fun c' _ => closes c'
    rcases awaited with ⟨woken, -⟩ | ⟨cancelling, -⟩
    · exact live (by rw [woken]; rfl)
    · exact live (by rw [cancelling]; rfl)
  | deregister leaving =>
    apply forall_setPhase _ fun c' _ => closes c'
    exact live (by rw [leaving]; rfl)
  | cancelCreated known created =>
    apply forall_setPhase _ fun c' _ => closes c'
    exact live (by rw [created]; rfl)
  | cancel awaited =>
    apply forall_setPhase _ fun c' _ => closes c'
    rcases awaited with suspended | woken
    · exact live (by rw [suspended]; rfl)
    · exact live (by rw [woken]; rfl)
  | wake suspended =>
    apply forall_setPhase _ fun c' _ => closes c'
    exact live (by rw [suspended]; rfl)
  | wakeDone => exact closes
  | @close loop quiet =>
    intro c known closed
    simp only
    split
    · next closing => exact CallPhase.ended_abandon (quiet c closing.1 closing.2)
    · next other =>
      have differ : s.loop c ≠ loop := fun same => other ⟨known, same⟩
      simp only [Function.update_of_ne differ] at closed
      exact closes c known closed

theorem refused_step (valid : Valid s) (step : Step s s') : ∀ p w rest,
    s'.producers p = .discarding w rest → s'.closed w.loop = true := by
  have refused := valid.refused
  -- A producer which does not come to a `discard`.
  have advance : ∀ {p phase}, (∀ w rest, phase ≠ .discarding w rest) → ∀ q w rest,
      (s.setProducer p phase).producers q = .discarding w rest → s.closed w.loop = true := by
    intro p phase other q w rest discarding
    by_cases self : q = p
    · rw [self, State.setProducer] at discarding
      simp only [Function.update_self] at discarding
      exact absurd discarding (other w rest)
    · simp only [State.setProducer, Function.update_of_ne self] at discarding
      exact refused q w rest discarding
  cases step with
  | enqueue => exact advance nofun
  | snapshot => exact advance nofun
  | returns => exact advance nofun
  | schedule => exact advance nofun
  | @refuse p waiter rest waking closed =>
    intro q w rest' discarding
    by_cases self : q = p
    · rw [self, State.setProducer] at discarding
      simp only [Function.update_self] at discarding
      cases discarding
      exact closed
    · simp only [State.setProducer, Function.update_of_ne self] at discarding
      exact refused q w rest' discarding
  | discard => exact advance nofun
  | call => exact refused
  | register => exact refused
  | take => exact refused
  | suspend => exact refused
  | resume => exact refused
  | deregister => exact refused
  | cancelCreated => exact refused
  | cancel => exact refused
  | wake => exact refused
  | wakeDone => exact refused
  | @close loop =>
    intro p w rest discarding
    by_cases same : w.loop = loop
    · simp [same]
    · simp only [Function.update_of_ne same]
      exact refused p w rest discarding

theorem fifo_step (valid : Valid s) (step : Step s s') :
    s'.enqueued = s'.delivered.map Prod.snd ++ s'.queue := by
  have fifo := valid.fifo
  cases step with
  | enqueue =>
    simp only [State.setProducer]
    rw [fifo, List.append_assoc]
  | take registered nonempty =>
    simp only [State.setPhase]
    rw [fifo, nonempty]
    simp
  | snapshot => exact fifo
  | returns => exact fifo
  | schedule => exact fifo
  | refuse => exact fifo
  | discard => exact fifo
  | call => exact fifo
  | register => exact fifo
  | suspend => exact fifo
  | resume => exact fifo
  | deregister => exact fifo
  | cancelCreated => exact fifo
  | cancel => exact fifo
  | wake => exact fifo
  | wakeDone => exact fifo
  | close => exact fifo

theorem takes_step (valid : Valid s) (step : Step s s') : ∀ c, s'.Takes c (s'.phase c) := by
  have takes := valid.takes
  -- A call which takes nothing.
  have keep : ∀ {c} {phase : CallPhase α}, (s.phase c).taken = phase.taken → s.Takes c phase := by
    intro c phase same
    exact (takes c).trans same
  cases step with
  | enqueue => exact takes
  | snapshot => exact takes
  | returns => exact takes
  | schedule => exact takes
  | refuse => exact takes
  | discard => exact takes
  | call => exact takes
  | register known start =>
    apply forall_setPhase _ fun c' _ => takes c'
    rcases start with created | looping
    · exact keep (by rw [created]; rfl)
    · exact keep (by rw [looping]; rfl)
  | @take c waiter item queue registered nonempty =>
    apply forall_setPhase
    · have before := takes c
      rw [registered] at before
      change ((s.delivered ++ [(c, item)]).filter fun entry => entry.1 = c).map Prod.snd = [item]
      rw [List.filter_append, List.map_append, show _ = [] from before]
      simp
    · intro c' differ
      change ((s.delivered ++ [(c, item)]).filter fun entry => entry.1 = c').map Prod.snd = _
      rw [List.filter_append, List.map_append, show _ = (s.phase c').taken from takes c']
      simp [Ne.symm differ]
  | suspend registered =>
    apply forall_setPhase _ fun c' _ => takes c'
    exact keep (by rw [registered]; rfl)
  | resume awaited =>
    apply forall_setPhase _ fun c' _ => takes c'
    rcases awaited with ⟨woken, rfl⟩ | ⟨cancelling, rfl⟩
    · exact keep (by rw [woken]; rfl)
    · exact keep (by rw [cancelling]; rfl)
  | @deregister c waiter outcome leaving =>
    apply forall_setPhase _ fun c' _ => takes c'
    apply keep
    rw [leaving]
    cases outcome <;> rfl
  | cancelCreated known created =>
    apply forall_setPhase _ fun c' _ => takes c'
    exact keep (by rw [created]; rfl)
  | cancel awaited =>
    apply forall_setPhase _ fun c' _ => takes c'
    rcases awaited with suspended | woken
    · exact keep (by rw [suspended]; rfl)
    · exact keep (by rw [woken]; rfl)
  | wake suspended =>
    apply forall_setPhase _ fun c' _ => takes c'
    exact keep (by rw [suspended]; rfl)
  | wakeDone => exact takes
  | close =>
    intro c
    simp only
    split
    · exact (takes c).trans CallPhase.taken_abandon.symm
    · exact takes c

end Valid

/-- A pending wake stays pending while the producers do nothing. -/
theorem State.WakePending.frame (pending : s.WakePending w)
    (scheduled : w ∈ s.scheduled → w ∈ s'.scheduled) (member : w ∈ s'.waiters)
    (same : s'.producers = s.producers) : s'.WakePending w := by
  rcases pending with mem | ⟨p, wakes⟩
  · exact .inl (scheduled mem)
  · refine .inr ⟨p, ?_⟩
    simp only [State.WillWake, same] at wakes ⊢
    split at wakes
    · exact wakes
    · exact member
    · exact wakes
    · exact wakes

/-- A pending wake stays pending when one producer makes an action. -/
theorem State.WakePending.producer (pending : s.WakePending w)
    (scheduled : w ∈ s.scheduled → w ∈ s'.scheduled) (member : w ∈ s'.waiters)
    (self : s.WillWake p w → s'.WakePending w)
    (others : ∀ q, q ≠ p → s'.producers q = s.producers q) : s'.WakePending w := by
  rcases pending with mem | ⟨q, wakes⟩
  · exact .inl (scheduled mem)
  · by_cases same : q = p
    · exact self (same ▸ wakes)
    · refine .inr ⟨q, ?_⟩
      simp only [State.WillWake, others q same] at wakes ⊢
      split at wakes
      · exact wakes
      · exact member
      · exact wakes
      · exact wakes

theorem State.willWake_setProducer {phase : ProducerPhase}
    (wakes : match phase with
      | .idle => False
      | .enqueued => w ∈ s.waiters
      | .waking rest => w ∈ rest
      | .discarding _ rest => w ∈ rest) : (s.setProducer p phase).WillWake p w := by
  simp only [State.WillWake, State.setProducer, Function.update_self]
  exact wakes

namespace Valid

theorem wakes_step (valid : Valid s) (step : Step s s') : ∀ c, s'.Wakes (s'.phase c) := by
  have wakes := valid.wakes
  have owns' := valid.owns_step step
  -- A suspended call is registered after the step, too.
  have member : ∀ {c w}, s'.phase c = .suspended w → w ∈ s'.waiters := by
    intro c w suspended
    exact (owns' c w (by rw [suspended]; rfl)).2.2.2
  -- Another call, while the producers do nothing.
  have others : ∀ {c}, s'.phase c = s.phase c → s'.producers = s.producers →
      (s'.queue ≠ [] → s.queue ≠ []) →
      (∀ w, s.phase c = .suspended w → w ∈ s.scheduled → w ∈ s'.scheduled) →
        s'.Wakes (s'.phase c) := by
    intro c same producers queue scheduled w suspended nonempty
    have before := same.symm.trans suspended
    exact (wakes c w before (queue nonempty)).frame (scheduled w before) (member suspended)
      producers
  -- A call which is not suspended after the step.
  have awake : ∀ {c} {phase : CallPhase α},
      s'.phase = (s.setPhase c phase).phase → s'.producers = s.producers →
      (s'.queue ≠ [] → s.queue ≠ []) →
      (∀ c' w, c' ≠ c → s.phase c' = .suspended w → w ∈ s.scheduled → w ∈ s'.scheduled) →
      (∀ w, phase ≠ .suspended w) → ∀ c, s'.Wakes (s'.phase c) := by
    intro c phase phases producers queue scheduled notSuspended c'
    by_cases self : c' = c
    · intro w suspended
      rw [phases, self, State.setPhase] at suspended
      simp only [Function.update_self] at suspended
      exact absurd suspended (notSuspended w)
    · apply others _ producers queue
      · intro w suspended
        exact scheduled c' w self suspended
      · rw [phases, State.setPhase]
        exact Function.update_of_ne self _ _
  cases step with
  | enqueue =>
    intro c w suspended nonempty
    exact .inr ⟨_, State.willWake_setProducer (member suspended)⟩
  | @snapshot p waiters enqueued all =>
    intro c w suspended nonempty
    refine (wakes c w suspended nonempty).producer id (member suspended) ?_ ?_ (p := p)
    · intro wake
      rw [State.WillWake, enqueued] at wake
      refine .inr ⟨p, State.willWake_setProducer ?_⟩
      rw [← all] at wake
      exact List.mem_toFinset.mp wake
    · intro q other
      exact Function.update_of_ne other _ _
  | @returns p done =>
    intro c w suspended nonempty
    refine (wakes c w suspended nonempty).producer id (member suspended) ?_ ?_ (p := p)
    · intro wake
      rw [State.WillWake, done] at wake
      cases wake
    · intro q other
      exact Function.update_of_ne other _ _
  | @schedule p waiter rest waking =>
    intro c w suspended nonempty
    refine (wakes c w suspended nonempty).producer ?_ (member suspended) ?_ ?_ (p := p)
    · exact List.mem_append_left _
    · intro wake
      rw [State.WillWake, waking] at wake
      rcases List.mem_cons.mp wake with rfl | later
      · exact .inl (List.mem_append_right _ List.mem_cons_self)
      · exact .inr ⟨p, State.willWake_setProducer later⟩
    · intro q other
      exact Function.update_of_ne other _ _
  | @refuse p waiter rest waking closed =>
    intro c w suspended nonempty
    refine (wakes c w suspended nonempty).producer id (member suspended) ?_ ?_ (p := p)
    · intro wake
      rw [State.WillWake, waking] at wake
      rcases List.mem_cons.mp wake with rfl | later
      · -- The event loop of a suspended call is open.
        rcases owns' c w (by rw [suspended]; rfl) with ⟨known, -, loop, -⟩
        have ended := valid.closes_step (.refuse waking closed) c known (loop ▸ closed)
        rw [suspended] at ended
        cases ended
      · exact .inr ⟨p, State.willWake_setProducer later⟩
    · intro q other
      exact Function.update_of_ne other _ _
  | @discard p waiter rest discarding =>
    intro c w suspended nonempty
    refine (wakes c w suspended nonempty).producer id (member suspended) ?_ ?_ (p := p)
    · intro wake
      rw [State.WillWake, discarding] at wake
      exact .inr ⟨p, State.willWake_setProducer wake⟩
    · intro q other
      exact Function.update_of_ne other _ _
  | call =>
    intro c
    exact others rfl rfl id fun _ _ => id
  | register =>
    exact awake rfl rfl id (fun _ _ _ _ => id) fun _ => nofun
  | take registered nonempty =>
    refine awake rfl rfl ?_ (fun _ _ _ _ => id) fun _ => nofun
    intro _ empty
    rw [nonempty] at empty
    cases empty
  | @suspend c waiter registered empty =>
    apply forall_setPhase
    · intro w _ nonempty
      exact absurd empty nonempty
    · intro c' other w suspended nonempty
      exact absurd empty nonempty
  | resume =>
    exact awake rfl rfl id (fun _ _ _ _ => id) fun _ => nofun
  | @deregister c waiter outcome leaving =>
    apply awake rfl rfl id fun _ _ _ _ => id
    intro w suspended
    cases outcome <;> cases suspended
  | cancelCreated =>
    exact awake rfl rfl id (fun _ _ _ _ => id) fun _ => nofun
  | cancel =>
    exact awake rfl rfl id (fun _ _ _ _ => id) fun _ => nofun
  | @wake waiter suspended =>
    refine awake rfl rfl id ?_ fun _ => nofun
    intro c' w other suspended' scheduled
    refine (List.mem_erase_of_ne ?_).mpr scheduled
    rintro rfl
    exact other (valid.owns c' w (by rw [suspended']; rfl)).2.1.symm
  | @wakeDone waiter done =>
    intro c
    apply others rfl rfl id
    intro w suspended scheduled
    refine (List.mem_erase_of_ne ?_).mpr scheduled
    rintro rfl
    have call := (valid.owns c w (by rw [suspended]; rfl)).2.1
    exact done (call ▸ suspended)
  | @close loop quiet =>
    intro c w suspended nonempty
    simp only at suspended
    split at suspended
    · next closing =>
      have gone := CallPhase.ended_abandon (quiet c closing.1 closing.2)
      rw [suspended] at gone
      cases gone
    · next other =>
      rcases valid.owns c w (by rw [suspended]; rfl) with ⟨known, -, ownLoop, registered⟩
      refine (wakes c w suspended nonempty).frame ?_ registered rfl
      intro scheduled
      refine List.mem_filter.mpr ⟨scheduled, ?_⟩
      have differ : w.loop ≠ loop := fun same => other ⟨known, ownLoop.symm.trans same⟩
      simp [differ]

theorem step (valid : Valid s) (stepped : s.next action = some s') : Valid s' :=
  have step := step_of_next stepped
  ⟨valid.owns_step step, valid.held_step step, valid.closes_step step, valid.refused_step step,
    valid.wakes_step step, valid.fifo_step step, valid.takes_step step⟩

end Valid

theorem Reachable.valid (reachable : Reachable s) : Valid s := by
  induction reachable with
  | initial => exact valid_initial
  | step _ stepped ih => exact ih.step stepped

/-! ## Results -/

/-- Whether a call has been cancelled, even if it has not ended yet. -/
def CallPhase.isCancelled : CallPhase α → Bool
  | .cancelling _ => true
  | .leaving _ .cancelled => true
  | .cancelled => true
  | _ => false

theorem CallPhase.taken_of_isCancelled {phase : CallPhase α} (cancelled : phase.isCancelled = true) :
    phase.taken = [] := by
  cases phase with
  | leaving waiter outcome => cases outcome <;> simp_all [isCancelled, taken]
  | _ => simp_all [isCancelled, taken]

theorem CallPhase.length_taken_le (phase : CallPhase α) : phase.taken.length ≤ 1 := by
  cases phase with
  | leaving waiter outcome => cases outcome <;> simp [taken]
  | _ => simp [taken]

namespace Valid

theorem length_delivered_le (valid : Valid s) (c : CallId) :
    (s.delivered.filter fun entry => entry.1 = c).length ≤ 1 := by
  have taken := CallPhase.length_taken_le (s.phase c)
  rw [← show _ = (s.phase c).taken from valid.takes c, List.length_map] at taken
  exact taken

theorem not_delivered (valid : Valid s) (cancelled : (s.phase c).isCancelled = true) :
    ∀ entry ∈ s.delivered, entry.1 ≠ c := by
  intro entry delivered self
  have none : (s.delivered.filter fun entry => entry.1 = c).map Prod.snd = [] :=
    (valid.takes c).trans (CallPhase.taken_of_isCancelled cancelled)
  have member : entry ∈ s.delivered.filter fun entry => entry.1 = c :=
    List.mem_filter.mpr ⟨delivered, by simp [self]⟩
  rw [List.map_eq_nil_iff.mp none] at member
  cases member

theorem not_registered (valid : Valid s) (cancelled : s.phase c = .cancelled) :
    ∀ w ∈ s.waiters, w.call ≠ c := by
  rintro w registered rfl
  rcases valid.held w registered with holds | abandoned
  · rw [cancelled] at holds
    cases holds
  · rw [cancelled] at abandoned
    cases abandoned

/-- Once nothing is on its way, a suspended call waits for an empty queue. -/
theorem queue_eq_nil (valid : Valid s) (suspended : s.phase c = .suspended w)
    (idle : ∀ p, s.producers p = .idle) (unscheduled : s.scheduled = []) : s.queue = [] := by
  by_contra nonempty
  rcases valid.wakes c w suspended nonempty with scheduled | ⟨p, wakes⟩
  · rw [unscheduled] at scheduled
    cases scheduled
  · rw [State.WillWake, idle p] at wakes
    exact wakes

end Valid

/--
In every interleaving, a suspended call has a wake on its way while there is an item, items are
delivered in the order of their arrival and at most once, and a cancelled call takes no item and
leaves no waiter behind.
-/
theorem no_lost_wakeup (reachable : Reachable s) :
    (∀ c w, s.phase c = .suspended w → s.queue ≠ [] → s.WakePending w) ∧
    s.enqueued = s.delivered.map Prod.snd ++ s.queue ∧
    (∀ c, (s.delivered.filter fun entry => entry.1 = c).length ≤ 1) ∧
    (∀ c, (s.phase c).isCancelled = true → ∀ entry ∈ s.delivered, entry.1 ≠ c) ∧
    ∀ c, s.phase c = .cancelled → ∀ w ∈ s.waiters, w.call ≠ c := by
  have valid := reachable.valid
  refine ⟨?_, valid.fifo, valid.length_delivered_le, ?_, ?_⟩
  · intro c w suspended nonempty
    exact valid.wakes c w suspended nonempty
  · intro c cancelled
    exact valid.not_delivered cancelled
  · intro c cancelled
    exact valid.not_registered cancelled

theorem Reachable.actions {actions : List (Action α)} (reachable : Reachable s)
    (ran : actions.foldlM State.next s = some s') : Reachable s' := by
  induction actions generalizing s with
  | nil =>
    cases ran
    exact reachable
  | cons action actions ih =>
    rw [List.foldlM_cons] at ran
    rcases Option.bind_eq_some_iff.mp ran with ⟨middle, first, rest⟩
    exact ih (.step reachable first) rest

/-- Two calls suspend, the first is cancelled, and an item arrives. -/
def cancelledActions : List (Action ℕ) :=
  [.call 0, .register 0, .getNowait 0, .call 1, .register 1, .getNowait 1, .cancel 0, .resume 0,
    .deregister 0, .enqueue 0 7]

theorem no_lost_wakeup_cancelled : ∃ s : State ℕ, Reachable s ∧ s.queue = [7] ∧
    s.phase 0 = .cancelled ∧ (∀ w ∈ s.waiters, w.call ≠ 0) ∧
    s.phase 1 = .suspended ⟨1, 1, 0⟩ ∧ s.WakePending ⟨1, 1, 0⟩ := by
  have ran : cancelledActions.foldlM State.next (.initial : State ℕ) = some _ := rfl
  have reachable := Reachable.initial.actions ran
  rcases no_lost_wakeup reachable with ⟨wakes, -, -, -, cancelled⟩
  exact ⟨_, reachable, rfl, rfl, cancelled 0 rfl, rfl, wakes 1 _ rfl (List.cons_ne_nil _ _)⟩

end NanoVllm.Serve.EventQueue
