import NanoVllm.Basic
import Mathlib.Logic.Function.Basic

/-!
# The KV transfer coordinator

`AsyncKVTransferCoordinator` registers an operation on an object key under its lock and runs it
as a task which waits for the previous task of the key, calls the backend in a thread, and then
publishes the outcome under the lock. No critical section awaits anything, so each of them is
one action below, and a sequence of actions is an interleaving of the callers, the tasks and the
backend.

A key has its own entry and its own object, so its state is a `Slot`. The tasks of a slot are
kept in the order in which they were registered. The callers of `put` and `evict` only wait for
their shielded task and are left out, as are the metrics, `snapshot`, `wait_idle` and `close`.
-/

namespace NanoVllm.Transfer

/-- The bytes of an object. -/
abbrev Payload := List UInt8

/-- The position of a task among the tasks registered for its key. -/
abbrev TaskId := ℕ

/-- The number of a `get` call of a key. -/
abbrev CallerId := ℕ

/-- `KVTransferState`. -/
inductive KVTransferState where
  | absent
  | fetching
  | resident
  | writing
  | evicting
  | failed
  deriving DecidableEq, Repr

/-- The value of a member of `KVTransferState`. -/
def KVTransferState.value : KVTransferState → String
  | .absent => "absent"
  | .fetching => "fetching"
  | .resident => "resident"
  | .writing => "writing"
  | .evicting => "evicting"
  | .failed => "failed"

/-- `_Entry`. -/
structure Entry where
  state : KVTransferState := .absent
  generation : ℕ := 0
  payload : Option Payload := none
  task : Option TaskId := none
  ioTail : Option TaskId := none
  waiters : ℕ := 0
  error : Option String := none
  deriving DecidableEq, Repr

/-- The coroutines a task can run, with their arguments. -/
inductive Operation where
  | fetch
  | put (payload : Payload) (overwrite : Bool)
  | evict
  deriving DecidableEq, Repr

/-- What a call of the backend, of a task or of `get` returns or raises. -/
abbrev Outcome := Except PyException (Option Payload)

/-- Where a task is. -/
inductive TaskStatus where
  /-- In `_wait_for_previous`. -/
  | waiting
  /-- In the call of the backend. -/
  | calling
  /-- The backend has returned or raised, and the event loop has not yet resumed the task. -/
  | returned (outcome : Outcome)
  /-- Done; `current` tells whether its generation was the generation of the entry. -/
  | finished (outcome : Outcome) (current : Bool)
  deriving DecidableEq

/-- A task created by `get`, `put` or `evict`. -/
structure Task where
  operation : Operation
  generation : ℕ
  previous : Option TaskId
  status : TaskStatus
  deriving DecidableEq

/-- A `get` call which awaits a task. -/
structure Waiter where
  caller : CallerId
  task : TaskId
  joined : Bool
  retryAfterWait : Bool
  deriving DecidableEq, Repr

/-- One key: the backend's object, the entry, its tasks and the `get` calls. -/
structure Slot where
  object : Option Payload
  entry : Entry := {}
  tasks : List Task := []
  /-- The number of `get` calls so far. -/
  calls : ℕ := 0
  waiting : List Waiter := []
  results : List (CallerId × Outcome) := []
  deriving DecidableEq

/-! ## The backend -/

/-- What the backend's `get` returns; its other methods return nothing. -/
def Operation.read (object : Option Payload) : Operation → Option Payload
  | .fetch => object
  | .put _ _ => none
  | .evict => none

/-- The object after a call of the backend. `put` and `upsert` both replace it. -/
def Operation.apply (object : Option Payload) : Operation → Option Payload
  | .fetch => object
  | .put payload _ => some payload
  | .evict => none

/-! ## Tasks -/

/-- `_finish_success`. -/
def Entry.finishSuccess (entry : Entry) (generation : ℕ) (state : KVTransferState)
    (payload : Option Payload) : Entry :=
  if entry.generation ≠ generation then entry
  else { entry with state, payload, task := none, error := none }

/-- `_finish_failure`. -/
def Entry.finishFailure (entry : Entry) (generation : ℕ) (exc : PyException) : Entry :=
  if entry.generation = generation then
    { entry with
      state := .failed
      payload := none
      task := none
      error := some exc.describe }
  else entry

/-- What `_fetch`, `_put` and `_evict` do with the outcome of their backend call. -/
def Task.publish (task : Task) (outcome : Outcome) (entry : Entry) : Entry :=
  match outcome with
  | .error exc => entry.finishFailure task.generation exc
  | .ok fetched =>
      match task.operation with
      | .fetch =>
          entry.finishSuccess task.generation
            (if fetched.isSome then .resident else .absent) fetched
      | .put payload _ => entry.finishSuccess task.generation .resident (some payload)
      | .evict => entry.finishSuccess task.generation .absent none

/-- What `_fetch`, `_put` and `_evict` return or raise. -/
def Operation.result (operation : Operation) (outcome : Outcome) (current : Bool) : Outcome :=
  match outcome with
  | .error exc => .error exc
  | .ok fetched =>
      match operation with
      | .fetch => .ok (if current then fetched else none)
      | .put payload _ => .ok (if current then some payload else none)
      | .evict => .ok none

/-- The result of a task which is done. -/
def Task.result? (task : Task) : Option Outcome :=
  match task.status with
  | .finished outcome current => some (task.operation.result outcome current)
  | _ => none

/-! ## Callers -/

namespace Slot

/-- The critical section of `get`, `put` and `evict` which creates a task. -/
def register (slot : Slot) (operation : Operation) (state : KVTransferState) : Slot :=
  { slot with
    entry := { slot.entry with
      state
      generation := slot.entry.generation + 1
      payload := none
      task := some slot.tasks.length
      ioTail := some slot.tasks.length
      error := none }
    tasks := slot.tasks ++ [{
      operation
      generation := slot.entry.generation + 1
      previous := slot.entry.ioTail
      status := .waiting }] }

/-- A `get` call returns or raises. -/
def answer (slot : Slot) (caller : CallerId) (outcome : Outcome) : Slot :=
  { slot with results := slot.results ++ [(caller, outcome)] }

/-- The exception for an entry in flight without a task. -/
def missingTask (state : KVTransferState) : PyException where
  typeName := "RuntimeError"
  text := state.value ++ " entry is missing its I/O task"

/-- A `get` call joins the task of the entry. -/
def join (slot : Slot) (caller : CallerId) : Slot :=
  match slot.entry.task with
  | none => slot.answer caller (.error (missingTask slot.entry.state))
  | some task =>
      { slot with
        entry := { slot.entry with waiters := slot.entry.waiters + 1 }
        waiting := slot.waiting ++ [{
          caller
          task
          joined := true
          retryAfterWait := slot.entry.state = .evicting }] }

/-- One round of the loop of `get`, up to the `await`. -/
def enter (slot : Slot) (caller : CallerId) : Slot :=
  match slot.entry.state with
  | .resident => slot.answer caller (.ok slot.entry.payload)
  | .fetching => slot.join caller
  | .writing => slot.join caller
  | .evicting => slot.join caller
  | .absent | .failed =>
      let registered := slot.register .fetch .fetching
      { registered with
        waiting := slot.waiting ++ [{
          caller
          task := slot.tasks.length
          joined := false
          retryAfterWait := false }] }

/-- A new call of `get`. -/
def get (slot : Slot) : Slot :=
  { slot with calls := slot.calls + 1 }.enter slot.calls

/-- A call of `put`. -/
def put (slot : Slot) (payload : Payload) (overwrite : Bool) : Slot :=
  slot.register (.put payload overwrite) .writing

/-- A call of `evict`. -/
def evict (slot : Slot) : Slot := slot.register .evict .evicting

/-- The `finally` block of `get`: the call no longer awaits its task. -/
def leave (slot : Slot) (waiter : Waiter) : Slot :=
  { slot with
    entry := { slot.entry with
      waiters := if waiter.joined then slot.entry.waiters - 1 else slot.entry.waiters }
    waiting := slot.waiting.erase waiter }

/-! ## Actions -/

/-- Whether the task `_wait_for_previous` waits for is done. -/
def previousDone (slot : Slot) (task : Task) : Bool :=
  match task.previous with
  | none => true
  | some previous =>
      match slot.tasks[previous]? with
      | some task => task.result?.isSome
      | none => false

def setStatus (slot : Slot) (i : TaskId) (task : Task) (status : TaskStatus) : Slot :=
  { slot with tasks := slot.tasks.set i { task with status } }

end Slot

inductive Action where
  | get
  | put (payload : Payload) (overwrite : Bool)
  | evict
  /-- A task calls the backend. -/
  | call (i : TaskId)
  /-- The backend's call takes effect and returns. -/
  | returns (i : TaskId)
  /-- The backend's call raises, with or without having taken effect. -/
  | fails (i : TaskId) (exc : PyException) (tookEffect : Bool)
  /-- A task publishes the outcome of its call. -/
  | finish (i : TaskId)
  /-- A `get` call sees that its task is done. -/
  | resume (caller : CallerId)
  /-- A `get` call is cancelled. -/
  | cancel (caller : CallerId)
  deriving DecidableEq

namespace Slot

/-- A `get` call goes on with the result of its task. -/
def proceed (slot : Slot) (waiter : Waiter) (result : Outcome) : Slot :=
  match result with
  | .error exc => (slot.leave waiter).answer waiter.caller (.error exc)
  | .ok payload =>
      if waiter.retryAfterWait then (slot.leave waiter).enter waiter.caller
      else (slot.leave waiter).answer waiter.caller (.ok payload)

/-- One action on a key, if it is possible. -/
def step (slot : Slot) : Action → Option Slot
  | .get => some slot.get
  | .put payload overwrite => some (slot.put payload overwrite)
  | .evict => some slot.evict
  | .call i =>
      match slot.tasks[i]? with
      | some task =>
          if task.status = .waiting ∧ slot.previousDone task then
            some (slot.setStatus i task .calling)
          else none
      | none => none
  | .returns i =>
      match slot.tasks[i]? with
      | some task =>
          if task.status = .calling then
            some { slot.setStatus i task (.returned (.ok (task.operation.read slot.object))) with
              object := task.operation.apply slot.object }
          else none
      | none => none
  | .fails i exc tookEffect =>
      match slot.tasks[i]? with
      | some task =>
          if task.status = .calling then
            some { slot.setStatus i task (.returned (.error exc)) with
              object := if tookEffect then task.operation.apply slot.object else slot.object }
          else none
      | none => none
  | .finish i =>
      match slot.tasks[i]? with
      | some task =>
          match task.status with
          | .returned outcome =>
              some { slot.setStatus i task
                  (.finished outcome (slot.entry.generation = task.generation)) with
                entry := task.publish outcome slot.entry }
          | _ => none
      | none => none
  | .resume caller =>
      match slot.waiting.find? (·.caller = caller) with
      | some waiter =>
          match slot.tasks[waiter.task]?.bind Task.result? with
          | some result => some (slot.proceed waiter result)
          | none => none
      | none => none
  | .cancel caller =>
      match slot.waiting.find? (·.caller = caller) with
      | some waiter => some (slot.leave waiter)
      | none => none

/-- A key with nothing in flight. -/
def initial (object : Option Payload) : Slot where
  object := object

end Slot

/-! ## All keys -/

/-- The slots of all keys. A key without an entry has a new one. -/
abbrev Coordinator := String → Slot

/-- Whether an action is a call of a method of the coordinator. -/
def Action.isMethod : Action → Bool
  | .get => true
  | .put _ _ => true
  | .evict => true
  | _ => false

/-- One action on one key. Methods raise for an empty key before they touch its entry. -/
def Coordinator.step (coordinator : Coordinator) (key : String) (action : Action) :
    Option Coordinator :=
  if key = "" ∧ action.isMethod then some coordinator
  else (coordinator key).step action |>.map (Function.update coordinator key)

/-- A coordinator over a backend with the given objects. -/
def Coordinator.initial (objects : String → Option Payload) : Coordinator :=
  fun key => .initial (objects key)

/-- The coordinators reachable by any interleaving. -/
inductive Coordinator.Reachable : Coordinator → Prop where
  | initial (objects : String → Option Payload) : Reachable (.initial objects)
  | step {coordinator coordinator' : Coordinator} {key : String} {action : Action}
      (reachable : Reachable coordinator)
      (stepped : coordinator.step key action = some coordinator') : Reachable coordinator'

end NanoVllm.Transfer
