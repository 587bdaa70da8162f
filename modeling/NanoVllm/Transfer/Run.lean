import NanoVllm.Transfer.Invariant

/-!
# Runs of one key

What one action of a backend whose calls succeed does to the tasks, the object and the `get`
calls of a key.
-/

namespace NanoVllm.Transfer

/-- The object after the first operations. -/
def valueAfter (object : Option Payload) (operations : List Operation) (k : ℕ) :
    Option Payload :=
  (operations.take k).foldl (fun object operation => operation.apply object) object

theorem valueAfter_of_isPrefix {object : Option Payload} {operations operations' : List Operation}
    {k : ℕ} (starts : operations <+: operations') (inside : k ≤ operations.length) :
    valueAfter object operations' k = valueAfter object operations k := by
  rcases starts with ⟨rest, rfl⟩
  rw [valueAfter, List.take_append_of_le_length inside, valueAfter]

theorem valueAfter_succ {object : Option Payload} {operations : List Operation} {k : ℕ}
    {operation : Operation} (found : operations[k]? = some operation) :
    valueAfter object operations (k + 1) = operation.apply (valueAfter object operations k) := by
  rw [valueAfter, List.take_add_one, found, Option.toList_some, List.foldl_append,
    List.foldl_cons, List.foldl_nil, valueAfter]

/-- Whether the call of the backend has taken effect and returned. -/
def Task.Returned (task : Task) : Prop := task.status ≠ .waiting ∧ task.status ≠ .calling

theorem Task.Done.returned {task : Task} (done : task.Done) : task.Returned := by
  rcases Task.done_iff.mp done with ⟨outcome, current, finished⟩
  simp [Returned, finished]

/-- Whether no call of the backend raises. -/
def Action.succeeds : Action → Bool
  | .fails _ _ _ => false
  | _ => true

namespace Slot

variable {slot slot' : Slot} {i : ℕ} {task : Task} {caller : CallerId}

/-- The operations of a key in the order of their registration. -/
def operations (slot : Slot) : List Operation := slot.tasks.map (·.operation)

/-- What an action does to the tasks and the object. -/
inductive Changes (slot slot' : Slot) : Prop where
  | nothing (tasks : slot'.tasks = slot.tasks) (object : slot'.object = slot.object)
  | registers {task : Task} (waiting : task.status = .waiting)
      (tasks : slot'.tasks = slot.tasks ++ [task]) (object : slot'.object = slot.object)
  | moves {i : ℕ} {task : Task} {status : TaskStatus} (advances : slot.Advances i task)
      (tasks : slot'.tasks = slot.tasks.set i { task with status })
      (same : ({ task with status } : Task).Returned ↔ task.Returned)
      (publishes : ∀ outcome, status = .finished outcome true →
        task.status = .returned outcome ∧ slot.tasks.length = i + 1)
      (object : slot'.object = slot.object)
  | returns {i : ℕ} {task : Task} {status : TaskStatus} (advances : slot.Advances i task)
      (tasks : slot'.tasks = slot.tasks.set i { task with status })
      (before : ¬ task.Returned) (after : ({ task with status } : Task).Returned)
      (unfinished : ¬ ({ task with status } : Task).Done)
      (object : slot'.object = task.operation.apply slot.object)

theorem operations_set (found : slot.tasks[i]? = some task) {status : TaskStatus} :
    (slot.tasks.set i { task with status }).map (·.operation) = slot.operations := by
  rcases List.getElem?_eq_some_iff.mp found with ⟨inside, rfl⟩
  rw [List.map_set, operations]
  have unchanged := @List.set_getElem_self _ (slot.tasks.map (·.operation)) i
    (by rwa [List.length_map])
  rwa [List.getElem_map] at unchanged

namespace Changes

theorem of_eq (changes : Changes slot slot') {slot'' : Slot} (tasks : slot''.tasks = slot'.tasks)
    (object : slot''.object = slot'.object) : Changes slot slot'' := by
  cases changes with
  | nothing tasks' object' => exact .nothing (tasks.trans tasks') (object.trans object')
  | registers waiting tasks' object' =>
    exact .registers waiting (tasks.trans tasks') (object.trans object')
  | moves advances tasks' same publishes object' =>
    exact .moves advances (tasks.trans tasks') same publishes (object.trans object')
  | returns advances tasks' before after unfinished object' =>
    exact .returns advances (tasks.trans tasks') before after unfinished (object.trans object')

theorem operations (changes : Changes slot slot') : slot.operations <+: slot'.operations := by
  have same {tasks : List Task} (isTasks : slot'.tasks = tasks)
      (unchanged : tasks.map (·.operation) = slot.operations) :
      slot.operations <+: slot'.operations :=
    ⟨[], by rw [List.append_nil, Slot.operations.eq_def slot', isTasks, unchanged]⟩
  cases changes with
  | nothing tasks => exact same tasks rfl
  | @registers task waiting tasks =>
    exact ⟨[task.operation], by
      rw [Slot.operations.eq_def slot', tasks, List.map_append, List.map_singleton, Slot.operations]⟩
  | moves advances tasks => exact same tasks (operations_set advances.found)
  | returns advances tasks => exact same tasks (operations_set advances.found)

/-- What is done stays as it is. -/
theorem done (changes : Changes slot slot') (found : slot.tasks[i]? = some task)
    (done : task.Done) : slot'.tasks[i]? = some task := by
  have other {j : ℕ} {moving : Task} (advances : slot.Advances j moving) {status : TaskStatus}
      (tasks : slot'.tasks = slot.tasks.set j { moving with status }) :
      slot'.tasks[i]? = some task := by
    rw [tasks, List.getElem?_set_ne, found]
    rintro rfl
    cases advances.found.symm.trans found
    exact advances.unfinished done
  cases changes with
  | nothing tasks => rw [tasks, found]
  | registers waiting tasks =>
    rw [tasks, List.getElem?_append_left (List.getElem?_eq_some_iff.mp found).1, found]
  | moves advances tasks => exact other advances tasks
  | returns advances tasks => exact other advances tasks

/-- A task keeps its operation. -/
theorem operation (changes : Changes slot slot') (found : slot.tasks[i]? = some task) :
    ∃ task', slot'.tasks[i]? = some task' ∧ task'.operation = task.operation := by
  have before : slot.operations[i]? = some task.operation := by
    rw [Slot.operations, List.getElem?_map, found, Option.map_some]
  have inside := (List.getElem?_eq_some_iff.mp before).1
  rcases changes.operations with ⟨rest, operations⟩
  rw [← List.getElem?_append_left inside, operations, Slot.operations, List.getElem?_map] at before
  rcases Option.map_eq_some_iff.mp before with ⟨task', found', same⟩
  exact ⟨task', found', same⟩

end Changes

/-- What a round of the loop of `get` does. -/
inductive Enters (slot : Slot) (caller : CallerId) (slot' : Slot) : Prop where
  | answers {payload : Option Payload} (done : slot.AllDone) (stored : slot.object = payload)
      (answered : slot' = slot.answer caller (.ok payload))
  | waits {waiter : Waiter} {task : Task} (named : waiter.caller = caller)
      (found : slot'.tasks[waiter.task]? = some task) (unfinished : ¬ task.Done)
      (retries : waiter.retryAfterWait = true ↔ task.operation = .evict)
      (waiting : slot'.waiting = slot.waiting ++ [waiter]) (results : slot'.results = slot.results)
      (calls : slot'.calls = slot.calls) (changes : Changes slot slot')

theorem Valid.enters_join (valid : slot.Valid) (caller : CallerId)
    (state : slot.entry.state = .fetching ∨ slot.entry.state = .writing ∨
      slot.entry.state = .evicting) : Enters slot caller (slot.join caller) := by
  cases valid.describes with
  | @inFlight n task last found unfinished isState awaited =>
    rw [Slot.join, awaited]
    refine .waits rfl found unfinished ?_ rfl rfl rfl (.nothing rfl rfl)
    rw [isState]
    cases task.operation <;> simp [Operation.state]
  | resident done isState => simp [isState] at state
  | idle done isState => rcases isState with isState | isState <;> simp [isState] at state

theorem enters_fetch (caller : CallerId)
    (state : slot.entry.state = .absent ∨ slot.entry.state = .failed) :
    Enters slot caller (slot.enter caller) := by
  have found : (slot.enter caller).tasks[slot.tasks.length]? = some {
      operation := .fetch
      generation := slot.entry.generation + 1
      previous := slot.entry.ioTail
      status := .waiting } := by
    rcases state with state | state <;> rw [enter, state] <;> exact List.getElem?_concat_length ..
  have unfinished : ¬ ({
      operation := .fetch
      generation := slot.entry.generation + 1
      previous := slot.entry.ioTail
      status := .waiting } : Task).Done := by simp [Task.Done, Task.result?]
  rcases state with state | state <;> rw [enter, state] at found ⊢
  · exact .waits rfl found unfinished (by simp) rfl rfl rfl (.registers rfl rfl rfl)
  · exact .waits rfl found unfinished (by simp) rfl rfl rfl (.registers rfl rfl rfl)

theorem Valid.enters (valid : slot.Valid) (caller : CallerId) :
    Enters slot caller (slot.enter caller) := by
  cases state : slot.entry.state with
  | resident =>
    rw [Slot.enter, state]
    cases valid.describes with
    | @inFlight n task last found unfinished isState awaited =>
      rw [isState] at state
      cases operation : task.operation <;> simp [operation, Operation.state] at state
    | resident done isState held stored => exact .answers done stored (by rw [held])
    | idle done isState => simp [state] at isState
  | fetching =>
    rw [Slot.enter, state]
    exact valid.enters_join caller (.inl state)
  | writing =>
    rw [Slot.enter, state]
    exact valid.enters_join caller (.inr (.inl state))
  | evicting =>
    rw [Slot.enter, state]
    exact valid.enters_join caller (.inr (.inr state))
  | absent => exact enters_fetch caller (.inl state)
  | failed => exact enters_fetch caller (.inr state)

theorem Enters.changes (enters : Enters slot caller slot') : Changes slot slot' := by
  cases enters with
  | answers done stored answered =>
    subst answered
    exact .nothing rfl rfl
  | waits named found unfinished retries waiting results calls changes => exact changes

theorem Advances.of_tasks (advances : slot.Advances i task) (tasks : slot.tasks = slot'.tasks) :
    slot'.Advances i task where
  found := tasks ▸ advances.found
  unfinished := advances.unfinished
  before := fun before found => advances.before before (tasks ▸ found)

theorem Changes.of_source {source : Slot} (changes : Changes source slot')
    (tasks : source.tasks = slot.tasks) (object : source.object = slot.object) :
    Changes slot slot' := by
  cases changes with
  | nothing tasks' object' => exact .nothing (tasks'.trans tasks) (object'.trans object)
  | registers waiting tasks' object' =>
    exact .registers waiting (tasks ▸ tasks') (object'.trans object)
  | moves advances tasks' same publishes object' =>
    exact .moves (advances.of_tasks tasks) (tasks ▸ tasks') same (tasks ▸ publishes) (object'.trans object)
  | returns advances tasks' before after unfinished object' =>
    exact .returns (advances.of_tasks tasks) (tasks ▸ tasks') before after unfinished
      (object ▸ object')

theorem Valid.changes_proceed (valid : slot.Valid) (waiter : Waiter) (result : Outcome) :
    Changes slot (slot.proceed waiter result) := by
  unfold Slot.proceed
  split
  · exact .nothing rfl rfl
  · split
    · exact ((valid.leave waiter).enters _).changes.of_source rfl rfl
    · exact .nothing rfl rfl

theorem Valid.changes {action : Action} (valid : slot.Valid) (steps : slot.Steps action slot')
    (succeeds : action.succeeds = true) : Changes slot slot' := by
  cases steps with
  | get =>
    have opened : ({ slot with calls := slot.calls + 1 } : Slot).Valid :=
      valid.of_eq rfl rfl rfl
    exact (opened.enters slot.calls).changes.of_source rfl rfl
  | put => exact .registers rfl rfl rfl
  | evict => exact .registers rfl rfl rfl
  | @call i task found waiting previousDone =>
    have unfinished : ¬ task.Done := by simp [Task.Done, Task.result?, waiting]
    have advances := valid.advances_of_previousDone found unfinished previousDone
    exact .moves advances rfl (by simp [Task.Returned, waiting]) (by simp) rfl
  | returns found calling =>
    have advances := valid.advances_of_started found (by simp [Task.Started, calling])
      (by simp [Task.Done, Task.result?, calling])
    exact .returns advances rfl (by simp [Task.Returned, calling]) (by simp [Task.Returned])
      (by simp [Task.Done, Task.result?]) rfl
  | fails => cases succeeds
  | finish found returned =>
    have advances := valid.advances_of_started found (by simp [Task.Started, returned])
      (by simp [Task.Done, Task.result?, returned])
    refine .moves advances rfl (by simp [Task.Returned, returned]) ?_ rfl
    intro outcome finished
    simp only [TaskStatus.finished.injEq, decide_eq_true_eq] at finished
    exact ⟨finished.1 ▸ returned, valid.last_of_current found finished.2⟩
  | resume => exact valid.changes_proceed _ _
  | cancel => exact .nothing rfl rfl

/-! ## The object -/

/-- The object is what the operations which have returned have made of it. -/
def Replays (object : Option Payload) (slot : Slot) : Prop :=
  ∃ m, slot.object = valueAfter object slot.operations m ∧ m ≤ slot.tasks.length ∧
    ∀ {i : ℕ} {task : Task}, slot.tasks[i]? = some task → (i < m ↔ task.Returned)

theorem getElem?_operations (found : slot.tasks[i]? = some task) :
    slot.operations[i]? = some task.operation := by
  rw [operations, List.getElem?_map, found, Option.map_some]

theorem length_operations : slot.operations.length = slot.tasks.length := by
  rw [operations, List.length_map]

theorem replays_initial (object : Option Payload) : (initial object).Replays object :=
  ⟨0, rfl, Nat.zero_le _, by simp [initial]⟩

theorem Replays.changes {object : Option Payload} (replays : slot.Replays object)
    (changes : Changes slot slot') : slot'.Replays object := by
  rcases replays with ⟨m, replayed, inside, returned⟩
  have sameValue : valueAfter object slot'.operations m = valueAfter object slot.operations m :=
    valueAfter_of_isPrefix changes.operations (length_operations ▸ inside)
  cases changes with
  | nothing tasks sameObject =>
    refine ⟨m, by rw [sameObject, sameValue, replayed], tasks ▸ inside, ?_⟩
    rwa [tasks]
  | registers waiting tasks sameObject =>
    refine ⟨m, by rw [sameObject, sameValue, replayed], ?_, ?_⟩
    · rw [tasks, List.length_append]
      omega
    · intro i task found
      rw [tasks, List.getElem?_append] at found
      split at found
      · exact returned found
      · rename_i past
        rcases List.getElem?_eq_some_iff.mp found with ⟨_, isNew⟩
        rw [List.getElem_singleton] at isNew
        subst isNew
        have notReturned : ¬ Task.Returned _ := fun both => both.1 waiting
        exact ⟨fun early => absurd early (by omega), fun late => absurd late notReturned⟩
  | moves advances tasks same publishes sameObject =>
    refine ⟨m, by rw [sameObject, sameValue, replayed], ?_, ?_⟩
    · rwa [tasks, List.length_set]
    · intro i task found
      rw [tasks] at found
      rcases getElem?_set_cases advances.inside found with ⟨rfl, rfl⟩ | ⟨-, old⟩
      · rw [returned advances.found, same]
      · exact returned old
  | @returns j moving status advances tasks before after unfinished applied =>
    have isNext : m = j := by
      have notBefore : ¬ j < m := fun early => before ((returned advances.found).mp early)
      have inside' := advances.inside
      rcases Nat.lt_or_ge m j with early | late
      · have found := List.getElem?_eq_getElem (by omega : m < slot.tasks.length)
        have done := advances.before early found
        have := (returned found).mpr done.returned
        omega
      · omega
    subst isNext
    refine ⟨m + 1, ?_, ?_, ?_⟩
    · have moved : slot'.operations = slot.operations := by
        rw [Slot.operations.eq_def slot', tasks, operations_set advances.found]
      rw [applied, moved, valueAfter_succ (getElem?_operations advances.found), replayed]
    · rw [tasks, List.length_set]
      exact advances.inside
    · intro i task found
      rw [tasks] at found
      rcases getElem?_set_cases advances.inside found with ⟨rfl, rfl⟩ | ⟨different, old⟩
      · exact ⟨fun _ => after, fun _ => by omega⟩
      · rw [← returned old]
        omega

/-- When nothing is in flight, the object is what all operations have made of it. -/
theorem Replays.object_eq {object : Option Payload} (replays : slot.Replays object)
    (done : slot.AllDone) : slot.object = valueAfter object slot.operations slot.tasks.length := by
  rcases replays with ⟨m, replayed, inside, returned⟩
  have all : slot.tasks.length ≤ m := by
    by_contra short
    have found := List.getElem?_eq_getElem (by omega : m < slot.tasks.length)
    have := (returned found).mpr (done _ (List.mem_of_getElem? found)).returned
    omega
  rw [replayed, Nat.le_antisymm inside all]

end Slot

end NanoVllm.Transfer
