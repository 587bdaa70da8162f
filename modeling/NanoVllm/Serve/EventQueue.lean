import Mathlib.Data.Finset.Basic
import Mathlib.Logic.Function.Basic

/-!
# The event queue of a handle

`GenerationEventQueue` delivers the events of a request to coroutines of any event loop. `put`
enqueues, snapshots the registered waiters and schedules a wake for each of them; `get_async`
registers a new future before it looks into the queue, and suspends when the queue is empty.

Each action below is one critical section or one call of a thread-safe method, so a sequence of
actions is an interleaving of the producers and the event loops. A call of `get_async` is named
by the number of calls before it. The history of the queue is kept in `enqueued` and `delivered`.
The blocking `get` of the base class, which the server does not call, is left out.
-/

namespace NanoVllm.Serve.EventQueue

/-- The number of a call of `get_async`, which runs in a task of its own. -/
abbrev CallId := ℕ

/-- A thread which puts items. -/
abbrev ProducerId := ℕ

/-- An asyncio event loop. -/
abbrev LoopId := ℕ

/-- A waiter `(loop, future)`; a call creates one future in each round of its loop. -/
structure Waiter where
  loop : LoopId
  call : CallId
  round : ℕ
  deriving DecidableEq, Repr

/-- How a round of `get_async` leaves its `try` block. -/
inductive Outcome (α : Type) where
  | returned (item : α)
  | retry
  | cancelled
  deriving DecidableEq, Repr

/-- Where a call of `get_async` is. -/
inductive CallPhase (α : Type) where
  /-- The task of the call has not run yet. -/
  | created
  /-- At the head of the loop. -/
  | looping (round : ℕ)
  /-- Before `get_nowait`. -/
  | registered (waiter : Waiter)
  /-- At the `await` of a future which is not done. -/
  | suspended (waiter : Waiter)
  /-- The future has a result, and the task will go on. -/
  | woken (waiter : Waiter)
  /-- The task has been cancelled at the `await`, and will raise there. -/
  | cancelling (waiter : Waiter)
  /-- In the `finally` block. -/
  | leaving (waiter : Waiter) (outcome : Outcome α)
  | returned (item : α)
  | cancelled
  /-- The event loop was closed before the call has ended. -/
  | abandoned
  deriving DecidableEq, Repr

/-- Where a producer is. -/
inductive ProducerPhase where
  | idle
  /-- After the `put` of the base class. -/
  | enqueued
  /-- In the loop over the snapshot. -/
  | waking (waiters : List Waiter)
  /-- At the `discard` of a waiter whose event loop is closed. -/
  | discarding (waiter : Waiter) (waiters : List Waiter)
  deriving DecidableEq, Repr

/-- The queue, the calls of `get_async`, the producers and the callbacks of the event loops. -/
structure State (α : Type) where
  queue : List α
  waiters : Finset Waiter
  calls : ℕ
  loop : CallId → LoopId
  phase : CallId → CallPhase α
  producers : ProducerId → ProducerPhase
  /-- The calls of `_wake` which the event loops will make. -/
  scheduled : List Waiter
  closed : LoopId → Bool
  enqueued : List α
  delivered : List (CallId × α)

variable {α : Type}

/-- `GenerationEventQueue()`. -/
def State.initial : State α where
  queue := []
  waiters := ∅
  calls := 0
  loop := fun _ => 0
  phase := fun _ => .created
  producers := fun _ => .idle
  scheduled := []
  closed := fun _ => false
  enqueued := []
  delivered := []

/-- An action of a producer or of an event loop. -/
inductive Action (α : Type) where
  /-- The `put` of the base class. -/
  | enqueue (p : ProducerId) (item : α)
  /-- `tuple(self._waiters)`, in the order of the set. -/
  | snapshot (p : ProducerId) (waiters : List Waiter)
  /-- The next `call_soon_threadsafe`, or the end of `put`. -/
  | wakeNext (p : ProducerId)
  | discard (p : ProducerId)
  /-- A task for `get_async()` is created in an event loop. -/
  | call (loop : LoopId)
  | register (c : CallId)
  | getNowait (c : CallId)
  /-- The task goes on at its `await`. -/
  | resume (c : CallId)
  | deregister (c : CallId)
  /-- `task.cancel()`. -/
  | cancel (c : CallId)
  /-- The callback `_wake`. -/
  | wake (waiter : Waiter)
  | close (loop : LoopId)

/--
Whether a call is inside a callback of its event loop. The loop is not closed then, and runs no
other callback.
-/
def CallPhase.running : CallPhase α → Bool
  | .looping _ => true
  | .registered _ => true
  | .leaving _ _ => true
  | _ => false

/-- The phase of a call after its event loop has been closed. -/
def CallPhase.abandon : CallPhase α → CallPhase α
  | .created => .abandoned
  | .suspended _ => .abandoned
  | .woken _ => .abandoned
  | .cancelling _ => .abandoned
  | phase => phase

namespace State

def setPhase (s : State α) (c : CallId) (phase : CallPhase α) : State α :=
  { s with phase := Function.update s.phase c phase }

def setProducer (s : State α) (p : ProducerId) (phase : ProducerPhase) : State α :=
  { s with producers := Function.update s.producers p phase }

/-- `loop.create_future()` and the registration of the waiter. -/
def registerWaiter (s : State α) (c : CallId) (round : ℕ) : State α :=
  let waiter := { loop := s.loop c, call := c, round }
  { s with waiters := insert waiter s.waiters }.setPhase c (.registered waiter)

/-- The phase of a call after its `finally` block. -/
def afterLeaving (waiter : Waiter) : Outcome α → CallPhase α
  | .returned item => .returned item
  | .retry => .looping (waiter.round + 1)
  | .cancelled => .cancelled

/-- One action. -/
def next (s : State α) : Action α → Option (State α)
  | .enqueue p item =>
      match s.producers p with
      | .idle =>
          some ({ s with
            queue := s.queue ++ [item]
            enqueued := s.enqueued ++ [item] }.setProducer p .enqueued)
      | _ => none
  | .snapshot p waiters =>
      match s.producers p with
      | .enqueued =>
          if waiters.Nodup ∧ waiters.toFinset = s.waiters then
            some (s.setProducer p (.waking waiters))
          else none
      | _ => none
  | .wakeNext p =>
      match s.producers p with
      | .waking [] => some (s.setProducer p .idle)
      | .waking (waiter :: rest) =>
          if s.closed waiter.loop then some (s.setProducer p (.discarding waiter rest))
          else
            some ({ s with scheduled := s.scheduled ++ [waiter] }.setProducer p (.waking rest))
      | _ => none
  | .discard p =>
      match s.producers p with
      | .discarding waiter rest =>
          some ({ s with waiters := s.waiters.erase waiter }.setProducer p (.waking rest))
      | _ => none
  | .call loop =>
      if s.closed loop then none
      else some { s with calls := s.calls + 1, loop := Function.update s.loop s.calls loop }
  | .register c =>
      if c < s.calls then
        match s.phase c with
        | .created => some (s.registerWaiter c 0)
        | .looping round => some (s.registerWaiter c round)
        | _ => none
      else none
  | .getNowait c =>
      match s.phase c with
      | .registered waiter =>
          match s.queue with
          | [] => some (s.setPhase c (.suspended waiter))
          | item :: queue =>
              some ({ s with
                queue
                delivered := s.delivered ++ [(c, item)] }.setPhase c
                  (.leaving waiter (.returned item)))
      | _ => none
  | .resume c =>
      match s.phase c with
      | .woken waiter => some (s.setPhase c (.leaving waiter .retry))
      | .cancelling waiter => some (s.setPhase c (.leaving waiter .cancelled))
      | _ => none
  | .deregister c =>
      match s.phase c with
      | .leaving waiter outcome =>
          some ({ s with waiters := s.waiters.erase waiter }.setPhase c
            (afterLeaving waiter outcome))
      | _ => none
  | .cancel c =>
      if c < s.calls then
        match s.phase c with
        | .created => some (s.setPhase c .cancelled)
        | .suspended waiter => some (s.setPhase c (.cancelling waiter))
        | .woken waiter => some (s.setPhase c (.cancelling waiter))
        | _ => none
      else none
  | .wake waiter =>
      if waiter ∈ s.scheduled ∧ (s.phase waiter.call).running = false then
        let s := { s with scheduled := s.scheduled.erase waiter }
        match s.phase waiter.call with
        | .suspended future =>
            if future = waiter then some (s.setPhase waiter.call (.woken waiter)) else some s
        | _ => some s
      else none
  | .close loop =>
      if ∀ c < s.calls, s.loop c = loop → (s.phase c).running = false then
        some { s with
          phase := fun c => if c < s.calls ∧ s.loop c = loop then (s.phase c).abandon else s.phase c
          scheduled := s.scheduled.filter fun waiter => waiter.loop ≠ loop
          closed := Function.update s.closed loop true }
      else none

end State

/-- The states which any interleaving leads to. -/
inductive Reachable : State α → Prop
  | initial : Reachable .initial
  | step {s s' : State α} {action : Action α} (reachable : Reachable s)
      (stepped : s.next action = some s') : Reachable s'

end NanoVllm.Serve.EventQueue
