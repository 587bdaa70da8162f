import NanoVllm.Transfer.Invariant

/-!
# What a key keeps

Without `evict` a stored object stays stored, and a `put` which has returned has stored one. A
predicate which holds of the first object and of all payloads which are put holds of every
payload in the slot, and so of every payload a `get` returns.
-/

namespace NanoVllm.Transfer

/-- What the call of the backend has returned or raised. -/
def Task.outcome? (task : Task) : Option Outcome :=
  match task.status with
  | .returned outcome => some outcome
  | .finished outcome _ => some outcome
  | _ => none

theorem Task.outcome?_of_result? {task : Task} {payload : Option Payload}
    (result : task.result? = some (.ok payload)) :
    ∃ fetched current, task.outcome? = some (.ok fetched) ∧
      task.operation.result (.ok fetched) current = .ok payload := by
  unfold result? at result
  split at result
  · rename_i outcome current finished
    cases outcome with
    | error exc => cases result
    | ok fetched =>
      refine ⟨fetched, current, ?_, Option.some.inj result⟩
      rw [outcome?, finished]
  · cases result

namespace Slot

variable {slot slot' : Slot} {i : ℕ} {task : Task} {action : Action} {P Q : Payload → Prop}

/-! ## Stored objects -/

/-- Nothing removes the object, and a `put` which has returned has stored it. -/
structure Persists (slot : Slot) : Prop where
  noEvict : ∀ task ∈ slot.tasks, task.operation ≠ .evict
  put : ∀ task ∈ slot.tasks, ∀ payload overwrite fetched, task.operation = .put payload overwrite →
    task.outcome? = some (.ok fetched) → slot.object ≠ none

theorem persists_initial (object : Option Payload) : (initial object).Persists where
  noEvict := nofun
  put := nofun

theorem Persists.register (persists : slot.Persists) {operation : Operation}
    {state : KVTransferState} (notEvict : operation ≠ .evict) :
    (slot.register operation state).Persists where
  noEvict := by
    intro task mem
    rcases List.mem_append.mp mem with old | new
    · exact persists.noEvict task old
    · cases List.mem_singleton.mp new
      exact notEvict
  put := by
    intro task mem payload overwrite fetched isPut outcome
    rcases List.mem_append.mp mem with old | new
    · exact persists.put task old payload overwrite fetched isPut outcome
    · cases List.mem_singleton.mp new
      cases outcome

theorem Persists.of_eq (persists : slot.Persists) (tasks : slot'.tasks = slot.tasks)
    (object : slot'.object = slot.object) : slot'.Persists where
  noEvict := tasks ▸ persists.noEvict
  put := by
    rw [tasks, object]
    exact persists.put

theorem Persists.enter (persists : slot.Persists) (caller : CallerId) :
    (slot.enter caller).Persists := by
  have joined : (slot.join caller).Persists := by
    unfold Slot.join
    split
    · exact persists.of_eq rfl rfl
    · exact persists.of_eq rfl rfl
  have registered : (slot.register .fetch .fetching).Persists := persists.register (by simp)
  unfold Slot.enter
  split
  · exact persists.of_eq rfl rfl
  · exact joined
  · exact joined
  · exact joined
  · exact registered.of_eq rfl rfl
  · exact registered.of_eq rfl rfl

theorem Persists.proceed (persists : slot.Persists) (waiter : Waiter) (result : Outcome) :
    (slot.proceed waiter result).Persists := by
  have left : (slot.leave waiter).Persists := persists.of_eq rfl rfl
  unfold Slot.proceed
  split
  · exact left.of_eq rfl rfl
  · split
    · exact left.enter _
    · exact left.of_eq rfl rfl

/-- A task moves on, and the object stays if there is one. -/
theorem Persists.setStatus (persists : slot.Persists) (found : slot.tasks[i]? = some task)
    {status : TaskStatus} (tasks : slot'.tasks = slot.tasks.set i { task with status })
    (kept : slot.object ≠ none → slot'.object ≠ none)
    (put : ∀ payload overwrite fetched, task.operation = .put payload overwrite →
      ({ task with status } : Task).outcome? = some (.ok fetched) → slot'.object ≠ none) :
    slot'.Persists where
  noEvict := by
    intro other mem
    rw [tasks] at mem
    rcases List.mem_or_eq_of_mem_set mem with old | rfl
    · exact persists.noEvict other old
    · exact persists.noEvict task (List.mem_of_getElem? found)
  put := by
    intro other mem payload overwrite fetched isPut outcome
    rw [tasks] at mem
    rcases List.mem_or_eq_of_mem_set mem with old | rfl
    · exact kept (persists.put other old payload overwrite fetched isPut outcome)
    · exact put payload overwrite fetched isPut outcome

theorem Persists.apply_ne_none (persists : slot.Persists) (found : slot.tasks[i]? = some task)
    (stored : slot.object ≠ none) : task.operation.apply slot.object ≠ none := by
  have notEvict := persists.noEvict task (List.mem_of_getElem? found)
  cases operation : task.operation with
  | fetch => exact stored
  | put payload overwrite => exact Option.some_ne_none payload
  | evict => exact absurd operation notEvict

theorem object_enter (caller : CallerId) : (slot.enter caller).object = slot.object := by
  unfold enter join
  cases slot.entry.state <;> cases slot.entry.task <;> rfl

theorem object_proceed (waiter : Waiter) (result : Outcome) :
    (slot.proceed waiter result).object = slot.object := by
  unfold proceed
  split
  · rfl
  · split
    · rw [object_enter]
      rfl
    · rfl

/-- What is stored stays stored. -/
theorem Persists.stored_steps (persists : slot.Persists) (steps : slot.Steps action slot')
    (stored : slot.object ≠ none) : slot'.object ≠ none := by
  cases steps with
  | get =>
    rw [Slot.get, object_enter]
    exact stored
  | put => exact stored
  | evict => exact stored
  | call => exact stored
  | returns found => exact persists.apply_ne_none found stored
  | @fails i task exc tookEffect found =>
    cases tookEffect with
    | true => exact persists.apply_ne_none found stored
    | false => exact stored
  | finish => exact stored
  | resume =>
    rw [object_proceed]
    exact stored
  | cancel => exact stored

theorem Persists.steps (persists : slot.Persists) (steps : slot.Steps action slot')
    (notEvict : action ≠ .evict) : slot'.Persists := by
  have kept := persists.stored_steps steps
  cases steps with
  | get =>
    have opened : ({ slot with calls := slot.calls + 1 } : Slot).Persists :=
      persists.of_eq rfl rfl
    exact opened.enter slot.calls
  | put => exact persists.register (by simp)
  | evict => exact absurd rfl notEvict
  | call found => exact persists.setStatus found rfl kept (by simp [Task.outcome?])
  | returns found =>
    refine persists.setStatus found rfl kept ?_
    intro payload overwrite fetched isPut _
    simp [isPut, Operation.apply]
  | fails found => exact persists.setStatus found rfl kept (by simp [Task.outcome?])
  | @finish i task outcome found returned =>
    refine persists.setStatus found rfl kept ?_
    intro payload overwrite fetched isPut published
    refine persists.put task (List.mem_of_getElem? found) payload overwrite fetched isPut ?_
    rw [Task.outcome?, returned]
    exact published
  | resume => exact persists.proceed _ _
  | cancel => exact persists.of_eq rfl rfl

theorem task_enter (caller : CallerId) (found : slot.tasks[i]? = some task) :
    (slot.enter caller).tasks[i]? = some task := by
  have joined : (slot.join caller).tasks[i]? = some task := by
    unfold join
    split
    · exact found
    · exact found
  have registered : (slot.register .fetch .fetching).tasks[i]? = some task :=
    (List.getElem?_append_left (List.getElem?_eq_some_iff.mp found).1).trans found
  unfold enter
  split
  · exact found
  · exact joined
  · exact joined
  · exact joined
  · exact registered
  · exact registered

/-- A task keeps its operation. -/
theorem Steps.task_kept (steps : slot.Steps action slot') (found : slot.tasks[i]? = some task) :
    ∃ task' : Task, slot'.tasks[i]? = some task' ∧ task'.operation = task.operation := by
  have registered {operation : Operation} {state : KVTransferState} :
      (slot.register operation state).tasks[i]? = some task :=
    (List.getElem?_append_left (List.getElem?_eq_some_iff.mp found).1).trans found
  have moved {j : ℕ} {moving : Task} (foundMoving : slot.tasks[j]? = some moving)
      (status : TaskStatus) : ∃ task' : Task,
        (slot.tasks.set j { moving with status })[i]? = some task' ∧
          task'.operation = task.operation := by
    by_cases same : j = i
    · subst same
      cases foundMoving.symm.trans found
      exact ⟨_, List.getElem?_set_self (List.getElem?_eq_some_iff.mp found).1, rfl⟩
    · exact ⟨task, (List.getElem?_set_ne same).trans found, rfl⟩
  cases steps with
  | get => exact ⟨task, task_enter slot.calls found, rfl⟩
  | put => exact ⟨task, registered, rfl⟩
  | evict => exact ⟨task, registered, rfl⟩
  | call foundMoving => exact moved foundMoving _
  | returns foundMoving => exact moved foundMoving _
  | fails foundMoving => exact moved foundMoving _
  | finish foundMoving => exact moved foundMoving _
  | resume =>
    refine ⟨task, ?_, rfl⟩
    unfold proceed
    split
    · exact found
    · split
      · exact task_enter _ found
      · exact found
  | cancel => exact ⟨task, found, rfl⟩

/-! ## Payloads -/

/-- Every payload of the slot satisfies a predicate. -/
structure Carries (P : Payload → Prop) (slot : Slot) : Prop where
  object : ∀ payload, slot.object = some payload → P payload
  held : ∀ payload, slot.entry.payload = some payload → P payload
  puts : ∀ task ∈ slot.tasks, ∀ payload overwrite, task.operation = .put payload overwrite →
    P payload
  fetched : ∀ task ∈ slot.tasks, ∀ payload, task.outcome? = some (.ok (some payload)) → P payload
  results : ∀ caller payload, (caller, .ok (some payload)) ∈ slot.results → P payload

theorem Carries.mono (carries : slot.Carries P) (weaker : ∀ payload, P payload → Q payload) :
    slot.Carries Q where
  object payload held := weaker payload (carries.object payload held)
  held payload held := weaker payload (carries.held payload held)
  puts task mem payload overwrite isPut :=
    weaker payload (carries.puts task mem payload overwrite isPut)
  fetched task mem payload outcome := weaker payload (carries.fetched task mem payload outcome)
  results caller payload mem := weaker payload (carries.results caller payload mem)

theorem carries_initial {object : Option Payload}
    (first : ∀ payload, object = some payload → P payload) : (initial object).Carries P where
  object := first
  held := nofun
  puts := nofun
  fetched := nofun
  results := nofun

theorem Carries.register (carries : slot.Carries P) {operation : Operation}
    {state : KVTransferState}
    (put : ∀ payload overwrite, operation = .put payload overwrite → P payload) :
    (slot.register operation state).Carries P where
  object := carries.object
  held := nofun
  puts := by
    intro task mem payload overwrite isPut
    rcases List.mem_append.mp mem with old | new
    · exact carries.puts task old payload overwrite isPut
    · cases List.mem_singleton.mp new
      exact put payload overwrite isPut
  fetched := by
    intro task mem payload outcome
    rcases List.mem_append.mp mem with old | new
    · exact carries.fetched task old payload outcome
    · cases List.mem_singleton.mp new
      cases outcome
  results := carries.results

theorem Carries.answer (carries : slot.Carries P) {caller : CallerId} {outcome : Outcome}
    (holds : ∀ payload, outcome = .ok (some payload) → P payload) :
    (slot.answer caller outcome).Carries P where
  __ := carries
  results := by
    intro other payload mem
    rcases List.mem_append.mp mem with old | new
    · exact carries.results other payload old
    · cases List.mem_singleton.mp new
      exact holds payload rfl

/-- The payloads do not depend on the callers which wait. -/
theorem Carries.of_eq (carries : slot.Carries P) (object : slot'.object = slot.object)
    (held : slot'.entry.payload = slot.entry.payload) (tasks : slot'.tasks = slot.tasks)
    (results : slot'.results = slot.results) : slot'.Carries P where
  object := object ▸ carries.object
  held := held ▸ carries.held
  puts := tasks ▸ carries.puts
  fetched := tasks ▸ carries.fetched
  results := results ▸ carries.results

theorem Carries.enter (carries : slot.Carries P) (caller : CallerId) :
    (slot.enter caller).Carries P := by
  have joined : (slot.join caller).Carries P := by
    unfold Slot.join
    split
    · exact carries.answer (by simp)
    · exact carries.of_eq rfl rfl rfl rfl
  have registered : (slot.register .fetch .fetching).Carries P := carries.register (by simp)
  unfold Slot.enter
  split
  · refine carries.answer ?_
    intro payload same
    exact carries.held payload (Except.ok.inj same)
  · exact joined
  · exact joined
  · exact joined
  · exact registered.of_eq rfl rfl rfl rfl
  · exact registered.of_eq rfl rfl rfl rfl

theorem Carries.proceed (carries : slot.Carries P) (waiter : Waiter) {result : Outcome}
    (holds : ∀ payload, result = .ok (some payload) → P payload) :
    (slot.proceed waiter result).Carries P := by
  have left : (slot.leave waiter).Carries P := carries.of_eq rfl rfl rfl rfl
  unfold Slot.proceed
  split
  · exact left.answer (by simp)
  · split
    · exact left.enter _
    · exact left.answer holds

theorem Carries.setStatus (carries : slot.Carries P) (found : slot.tasks[i]? = some task)
    {status : TaskStatus} (tasks : slot'.tasks = slot.tasks.set i { task with status })
    (object : ∀ payload, slot'.object = some payload → P payload)
    (held : ∀ payload, slot'.entry.payload = some payload → P payload)
    (outcome : ∀ payload, ({ task with status } : Task).outcome? = some (.ok (some payload)) →
      P payload)
    (results : slot'.results = slot.results) : slot'.Carries P where
  object := object
  held := held
  puts := by
    intro other mem payload overwrite isPut
    rw [tasks] at mem
    rcases List.mem_or_eq_of_mem_set mem with old | rfl
    · exact carries.puts other old payload overwrite isPut
    · exact carries.puts task (List.mem_of_getElem? found) payload overwrite isPut
  fetched := by
    intro other mem payload isOutcome
    rw [tasks] at mem
    rcases List.mem_or_eq_of_mem_set mem with old | rfl
    · exact carries.fetched other old payload isOutcome
    · exact outcome payload isOutcome
  results := results ▸ carries.results

theorem Carries.apply (carries : slot.Carries P) (mem : task ∈ slot.tasks) :
    ∀ payload, task.operation.apply slot.object = some payload → P payload := by
  intro payload applied
  cases operation : task.operation with
  | fetch =>
    rw [operation] at applied
    exact carries.object payload applied
  | put written overwrite =>
    rw [operation] at applied
    cases applied
    exact carries.puts task mem payload overwrite operation
  | evict =>
    rw [operation] at applied
    cases applied

/-- The payload which a task publishes in the entry. -/
theorem Carries.publish (carries : slot.Carries P) (mem : task ∈ slot.tasks) {outcome : Outcome}
    (isOutcome : task.outcome? = some outcome) :
    ∀ payload, (task.publish outcome slot.entry).payload = some payload → P payload := by
  intro payload published
  by_cases current : slot.entry.generation = task.generation
  · cases outcome with
    | error exc => simp [Task.publish, Entry.finishFailure, current] at published
    | ok fetched =>
      cases operation : task.operation with
      | fetch =>
        simp only [Task.publish, operation, Entry.finishSuccess, current, ne_eq, not_true_eq_false,
          if_false] at published
        exact carries.fetched task mem payload (published ▸ isOutcome)
      | put written overwrite =>
        simp only [Task.publish, operation, Entry.finishSuccess, current, ne_eq, not_true_eq_false,
          if_false, Option.some.injEq] at published
        exact carries.puts task mem payload overwrite (published ▸ operation)
      | evict => simp [Task.publish, operation, Entry.finishSuccess, current] at published
  · rw [publish_of_superseded current] at published
    exact carries.held payload published

/-- The payload which a finished task returns. -/
theorem Carries.result (carries : slot.Carries P) (mem : task ∈ slot.tasks) {payload : Payload}
    (result : task.result? = some (.ok (some payload))) : P payload := by
  rcases Task.outcome?_of_result? result with ⟨fetched, current, outcome, returned⟩
  cases operation : task.operation with
  | fetch =>
    cases current with
    | false => simp [operation, Operation.result] at returned
    | true =>
      simp only [operation, Operation.result, if_true, Except.ok.injEq] at returned
      exact carries.fetched task mem payload (returned ▸ outcome)
  | put written overwrite =>
    cases current with
    | false => simp [operation, Operation.result] at returned
    | true =>
      simp only [operation, Operation.result, if_true, Except.ok.injEq, Option.some.injEq]
        at returned
      exact carries.puts task mem payload overwrite (returned ▸ operation)
  | evict => simp [operation, Operation.result] at returned

theorem Carries.steps (carries : slot.Carries P) (steps : slot.Steps action slot')
    (put : ∀ payload overwrite, action = .put payload overwrite → P payload) :
    slot'.Carries P := by
  cases steps with
  | get =>
    have opened : ({ slot with calls := slot.calls + 1 } : Slot).Carries P :=
      carries.of_eq rfl rfl rfl rfl
    exact opened.enter slot.calls
  | @put payload overwrite =>
    refine carries.register ?_
    intro payload' overwrite' same
    cases same
    exact put payload overwrite rfl
  | evict => exact carries.register (by simp)
  | call found =>
    exact carries.setStatus found rfl carries.object carries.held (by simp [Task.outcome?]) rfl
  | @returns i task found =>
    have mem := List.mem_of_getElem? found
    refine carries.setStatus found rfl (carries.apply mem) carries.held ?_ rfl
    intro payload outcome
    cases operation : task.operation with
    | fetch =>
      simp only [Task.outcome?, operation, Operation.read, Option.some.injEq, Except.ok.injEq]
        at outcome
      exact carries.object payload outcome
    | put written overwrite => simp [Task.outcome?, operation, Operation.read] at outcome
    | evict => simp [Task.outcome?, operation, Operation.read] at outcome
  | @fails i task exc tookEffect found =>
    have mem := List.mem_of_getElem? found
    refine carries.setStatus found rfl ?_ carries.held (by simp [Task.outcome?]) rfl
    cases tookEffect with
    | true => exact carries.apply mem
    | false => exact carries.object
  | @finish i task outcome found returned =>
    have mem := List.mem_of_getElem? found
    have isOutcome : task.outcome? = some outcome := by rw [Task.outcome?, returned]
    refine carries.setStatus found rfl carries.object (carries.publish mem isOutcome) ?_ rfl
    intro payload published
    exact carries.fetched task mem payload (isOutcome.trans published)
  | resume waits named found done =>
    refine carries.proceed _ ?_
    rintro payload rfl
    exact carries.result (List.mem_of_getElem? found) done
  | cancel => exact carries.of_eq rfl rfl rfl rfl

end Slot

end NanoVllm.Transfer
