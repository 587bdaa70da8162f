import NanoVllm.Transfer

/-!
# What an action can do

`Steps` lists the actions with the conditions under which they are possible, and `Valid` is the
invariant of a slot: the tasks form a chain along `previous`, only the first unfinished task has
started, and the entry describes the last task.
-/

namespace NanoVllm.Transfer

/-- The state an operation puts its entry into when it is registered. -/
def Operation.state : Operation → KVTransferState
  | .fetch => .fetching
  | .put _ _ => .writing
  | .evict => .evicting

/-- The object once a call has returned the given value, for as long as nothing else runs. -/
def Operation.objectAfter (fetched : Option Payload) : Operation → Option Payload
  | .fetch => fetched
  | .put payload _ => some payload
  | .evict => none

theorem Operation.objectAfter_read (operation : Operation) (object : Option Payload) :
    operation.objectAfter (operation.read object) = operation.apply object := by
  cases operation <;> rfl

/-- Whether the call of the backend has begun. -/
def Task.Started (task : Task) : Prop := task.status ≠ .waiting

/-- Whether the task is done. -/
def Task.Done (task : Task) : Prop := task.result?.isSome = true

theorem Task.done_iff {task : Task} :
    task.Done ↔ ∃ outcome current, task.status = .finished outcome current := by
  unfold Done result?
  cases task.status <;> simp

theorem Task.Done.started {task : Task} (done : task.Done) : task.Started := by
  rcases Task.done_iff.mp done with ⟨outcome, current, finished⟩
  intro waiting
  rw [finished] at waiting
  cases waiting

/-- The task registered before the task at a position. -/
def preceding : ℕ → Option TaskId
  | 0 => none
  | n + 1 => some n

namespace Slot

/-- The actions with their conditions. -/
inductive Steps (slot : Slot) : Action → Slot → Prop where
  | get : Steps slot .get slot.get
  | put {payload : Payload} {overwrite : Bool} :
      Steps slot (.put payload overwrite) (slot.put payload overwrite)
  | evict : Steps slot .evict slot.evict
  | call {i : TaskId} {task : Task} (found : slot.tasks[i]? = some task)
      (waiting : task.status = .waiting) (previousDone : slot.previousDone task = true) :
      Steps slot (.call i) (slot.setStatus i task .calling)
  | returns {i : TaskId} {task : Task} (found : slot.tasks[i]? = some task)
      (calling : task.status = .calling) :
      Steps slot (.returns i)
        { slot.setStatus i task (.returned (.ok (task.operation.read slot.object))) with
          object := task.operation.apply slot.object }
  | fails {i : TaskId} {task : Task} {exc : PyException} {tookEffect : Bool}
      (found : slot.tasks[i]? = some task) (calling : task.status = .calling) :
      Steps slot (.fails i exc tookEffect)
        { slot.setStatus i task (.returned (.error exc)) with
          object := if tookEffect then task.operation.apply slot.object else slot.object }
  | finish {i : TaskId} {task : Task} {outcome : Outcome}
      (found : slot.tasks[i]? = some task) (returned : task.status = .returned outcome) :
      Steps slot (.finish i)
        { slot.setStatus i task
            (.finished outcome (slot.entry.generation = task.generation)) with
          entry := task.publish outcome slot.entry }
  | resume {caller : CallerId} {waiter : Waiter} {task : Task} {result : Outcome}
      (waits : waiter ∈ slot.waiting) (named : waiter.caller = caller)
      (found : slot.tasks[waiter.task]? = some task) (done : task.result? = some result) :
      Steps slot (.resume caller) (slot.proceed waiter result)
  | cancel {caller : CallerId} {waiter : Waiter}
      (waits : waiter ∈ slot.waiting) (named : waiter.caller = caller) :
      Steps slot (.cancel caller) (slot.leave waiter)

theorem find?_caller {waiting : List Waiter} {caller : CallerId} {waiter : Waiter}
    (found : waiting.find? (·.caller = caller) = some waiter) :
    waiter ∈ waiting ∧ waiter.caller = caller := by
  refine ⟨List.mem_of_find?_eq_some found, ?_⟩
  have named := List.find?_some found
  simpa using named

theorem steps {slot slot' : Slot} {action : Action} (stepped : slot.step action = some slot') :
    slot.Steps action slot' := by
  cases action with
  | get =>
    cases stepped
    exact .get
  | put payload overwrite =>
    cases stepped
    exact .put
  | evict =>
    cases stepped
    exact .evict
  | call i =>
    dsimp only [step] at stepped
    cases found : slot.tasks[i]? with
    | none => simp [found] at stepped
    | some task =>
      simp only [found, Option.ite_none_right_eq_some, Option.some.injEq] at stepped
      rcases stepped with ⟨⟨waiting, previousDone⟩, rfl⟩
      exact .call found waiting previousDone
  | returns i =>
    dsimp only [step] at stepped
    cases found : slot.tasks[i]? with
    | none => simp [found] at stepped
    | some task =>
      simp only [found, Option.ite_none_right_eq_some, Option.some.injEq] at stepped
      rcases stepped with ⟨calling, rfl⟩
      exact .returns found calling
  | fails i exc tookEffect =>
    dsimp only [step] at stepped
    cases found : slot.tasks[i]? with
    | none => simp [found] at stepped
    | some task =>
      simp only [found, Option.ite_none_right_eq_some, Option.some.injEq] at stepped
      rcases stepped with ⟨calling, rfl⟩
      exact .fails found calling
  | finish i =>
    dsimp only [step] at stepped
    cases found : slot.tasks[i]? with
    | none => simp [found] at stepped
    | some task =>
      cases returned : task.status with
      | returned outcome =>
        simp only [found, returned, Option.some.injEq] at stepped
        subst stepped
        exact .finish found returned
      | waiting => simp [found, returned] at stepped
      | calling => simp [found, returned] at stepped
      | finished outcome current => simp [found, returned] at stepped
  | resume caller =>
    dsimp only [step] at stepped
    cases waits : slot.waiting.find? (·.caller = caller) with
    | none => simp [waits] at stepped
    | some waiter =>
      cases done : slot.tasks[waiter.task]?.bind Task.result? with
      | none => simp [waits, done] at stepped
      | some result =>
        simp only [waits, done, Option.some.injEq] at stepped
        rcases find?_caller waits with ⟨mem, named⟩
        rcases Option.bind_eq_some_iff.mp done with ⟨task, found, done⟩
        subst stepped
        exact .resume mem named found done
  | cancel caller =>
    dsimp only [step] at stepped
    cases waits : slot.waiting.find? (·.caller = caller) with
    | none => simp [waits] at stepped
    | some waiter =>
      simp only [waits, Option.some.injEq] at stepped
      rcases find?_caller waits with ⟨mem, named⟩
      subst stepped
      exact .cancel mem named

end Slot

end NanoVllm.Transfer
