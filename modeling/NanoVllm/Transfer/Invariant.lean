import NanoVllm.Transfer.Steps

/-!
# The invariant of a slot

The tasks of a key form a chain along `previous`, only the first unfinished task has started,
and the entry describes the last task.
-/

namespace NanoVllm.Transfer

namespace Slot

variable {slot : Slot} {i : ℕ} {task : Task}

/-- Nothing is in flight. -/
def AllDone (slot : Slot) : Prop := ∀ task ∈ slot.tasks, task.Done

/-- What the entry says about the last task and the object. -/
inductive Describes (slot : Slot) : Prop where
  | inFlight {n : ℕ} {task : Task} (last : slot.tasks.length = n + 1)
      (found : slot.tasks[n]? = some task) (unfinished : ¬ task.Done)
      (state : slot.entry.state = task.operation.state) (awaited : slot.entry.task = some n)
  | resident {payload : Payload} (done : slot.AllDone) (state : slot.entry.state = .resident)
      (held : slot.entry.payload = some payload) (stored : slot.object = some payload)
  | idle (done : slot.AllDone)
      (state : slot.entry.state = .absent ∨ slot.entry.state = .failed)

/-- The invariant. -/
structure Valid (slot : Slot) : Prop where
  generation : slot.entry.generation = slot.tasks.length
  ioTail : slot.entry.ioTail = preceding slot.tasks.length
  generations : ∀ {i : ℕ} {task : Task}, slot.tasks[i]? = some task → task.generation = i + 1
  chained : ∀ {i : ℕ} {task : Task}, slot.tasks[i]? = some task → task.previous = preceding i
  ordered : ∀ {i j : ℕ} {task task' : Task}, i < j → slot.tasks[i]? = some task →
    slot.tasks[j]? = some task' → task'.Started → task.Done
  returned : ∀ {i : ℕ} {task : Task} {fetched : Option Payload}, slot.tasks[i]? = some task →
    task.status = .returned (.ok fetched) → slot.object = task.operation.objectAfter fetched
  describes : slot.Describes

theorem valid_initial (object : Option Payload) : (initial object).Valid where
  generation := rfl
  ioTail := rfl
  generations := by simp [initial]
  chained := by simp [initial]
  ordered := by simp [initial]
  returned := by simp [initial]
  describes := .idle (by simp [AllDone, initial]) (.inl rfl)

/-! ## Callers -/

theorem getElem?_register {operation : Operation} {state : KVTransferState}
    (found : (slot.register operation state).tasks[i]? = some task) :
    slot.tasks[i]? = some task ∨ i = slot.tasks.length ∧ task.operation = operation ∧
      task.generation = slot.entry.generation + 1 ∧ task.previous = slot.entry.ioTail ∧
      task.status = .waiting := by
  simp only [register, List.getElem?_append] at found
  split at found
  · exact .inl found
  · rename_i past
    rw [List.getElem?_singleton] at found
    split at found
    · cases found
      exact .inr ⟨by omega, rfl, rfl, rfl, rfl⟩
    · cases found

theorem Valid.register {operation : Operation} {state : KVTransferState} (valid : slot.Valid)
    (isState : state = operation.state) : (slot.register operation state).Valid where
  generation := by simp [Slot.register, valid.generation]
  ioTail := by simp [Slot.register, preceding]
  generations := by
    intro i task found
    rcases getElem?_register found with old | ⟨rfl, -, generation, -, -⟩
    · exact valid.generations old
    · rw [generation, valid.generation]
  chained := by
    intro i task found
    rcases getElem?_register found with old | ⟨rfl, -, -, previous, -⟩
    · exact valid.chained old
    · rw [previous, valid.ioTail]
  ordered := by
    intro i j task task' before found found' started
    rcases getElem?_register found' with old' | ⟨rfl, -, -, -, waiting⟩
    · rcases getElem?_register found with old | ⟨rfl, -, -, -, -⟩
      · exact valid.ordered before old old' started
      · have := (List.getElem?_eq_some_iff.mp old').1
        omega
    · exact absurd waiting started
  returned := by
    intro i task fetched found returned
    rcases getElem?_register found with old | ⟨-, -, -, -, waiting⟩
    · exact valid.returned old returned
    · rw [waiting] at returned
      cases returned
  describes := by
    have found : (slot.register operation state).tasks[slot.tasks.length]? = some {
        operation
        generation := slot.entry.generation + 1
        previous := slot.entry.ioTail
        status := .waiting } := List.getElem?_concat_length ..
    refine .inFlight (by simp [Slot.register]) found ?_ isState rfl
    simp [Task.Done, Task.result?]

/-- The invariant does not see the callers. -/
theorem Valid.of_eq {slot' : Slot} (valid : slot.Valid) (object : slot'.object = slot.object)
    (tasks : slot'.tasks = slot.tasks)
    (entry : { slot'.entry with waiters := slot.entry.waiters } = slot.entry) :
    slot'.Valid := by
  rcases slot with ⟨_, ⟨⟩, _⟩
  rcases slot' with ⟨_, ⟨⟩, _⟩
  cases object
  cases tasks
  cases entry
  exact {
    generation := valid.generation
    ioTail := valid.ioTail
    generations := valid.generations
    chained := valid.chained
    ordered := valid.ordered
    returned := valid.returned
    describes := by
      cases valid.describes with
      | inFlight last found unfinished state awaited =>
        exact .inFlight last found unfinished state awaited
      | resident done state held stored => exact .resident done state held stored
      | idle done state => exact .idle done state }

theorem Valid.answer (valid : slot.Valid) (caller : CallerId) (outcome : Outcome) :
    (slot.answer caller outcome).Valid :=
  valid.of_eq rfl rfl rfl

theorem Valid.leave (valid : slot.Valid) (waiter : Waiter) : (slot.leave waiter).Valid :=
  valid.of_eq rfl rfl rfl

theorem Valid.join (valid : slot.Valid) (caller : CallerId) : (slot.join caller).Valid := by
  unfold Slot.join
  split
  · exact valid.answer caller _
  · exact valid.of_eq rfl rfl rfl

theorem Valid.enter (valid : slot.Valid) (caller : CallerId) : (slot.enter caller).Valid := by
  have fetches : (slot.register .fetch .fetching).Valid := valid.register rfl
  unfold Slot.enter
  split
  · exact valid.answer caller _
  · exact valid.join caller
  · exact valid.join caller
  · exact valid.join caller
  · exact fetches.of_eq rfl rfl rfl
  · exact fetches.of_eq rfl rfl rfl

theorem Valid.proceed (valid : slot.Valid) (waiter : Waiter) (result : Outcome) :
    (slot.proceed waiter result).Valid := by
  unfold Slot.proceed
  split
  · exact (valid.leave waiter).answer _ _
  · split
    · exact (valid.leave waiter).enter _
    · exact (valid.leave waiter).answer _ _

/-! ## Tasks -/

theorem getElem?_set_cases {tasks : List Task} {j : ℕ} {changed found : Task}
    (inside : i < tasks.length) (atJ : (tasks.set i changed)[j]? = some found) :
    j = i ∧ found = changed ∨ j ≠ i ∧ tasks[j]? = some found := by
  rw [List.getElem?_set] at atJ
  split at atJ
  · rename_i same
    cases atJ
    exact .inl ⟨same.symm, rfl⟩
  · rename_i other
    exact .inr ⟨Ne.symm other, atJ⟩

/-- A task which may move on: all tasks before it are done, and it is not. -/
structure Advances (slot : Slot) (i : ℕ) (task : Task) : Prop where
  found : slot.tasks[i]? = some task
  unfinished : ¬ task.Done
  before : ∀ {j : ℕ} {earlier : Task}, j < i → slot.tasks[j]? = some earlier → earlier.Done

namespace Advances

theorem inside (advances : slot.Advances i task) : i < slot.tasks.length :=
  (List.getElem?_eq_some_iff.mp advances.found).1

theorem not_allDone (advances : slot.Advances i task) : ¬ slot.AllDone :=
  fun done => advances.unfinished (done task (List.mem_of_getElem? advances.found))

/-- No other task is between its start and its end. -/
theorem done_of_started (advances : slot.Advances i task) (valid : slot.Valid) {j : ℕ}
    {other : Task} (found : slot.tasks[j]? = some other) (different : j ≠ i)
    (started : other.Started) : other.Done := by
  rcases Nat.lt_or_gt_of_ne different with before | after
  · exact advances.before before found
  · exact absurd (valid.ordered after advances.found found started) advances.unfinished

/-- Nothing is in flight once the last task is done. -/
theorem allDone (advances : slot.Advances i task) (last : slot.tasks.length = i + 1)
    {status : TaskStatus} {slot' : Slot}
    (tasks : slot'.tasks = slot.tasks.set i { task with status })
    (done : ({ task with status } : Task).Done) : slot'.AllDone := by
  intro other mem
  rcases List.mem_iff_getElem?.mp mem with ⟨j, found⟩
  rw [tasks] at found
  rcases getElem?_set_cases advances.inside found with ⟨rfl, rfl⟩ | ⟨different, old⟩
  · exact done
  · have := (List.getElem?_eq_some_iff.mp old).1
    exact advances.before (by omega) old

end Advances

/-- The only task with the generation of the entry is the last one. -/
theorem Valid.last_of_current (valid : slot.Valid) (found : slot.tasks[i]? = some task)
    (current : slot.entry.generation = task.generation) : slot.tasks.length = i + 1 := by
  rw [← valid.generation, current, valid.generations found]

/-- A task which has called the backend. -/
theorem Valid.advances_of_started (valid : slot.Valid) (found : slot.tasks[i]? = some task)
    (started : task.Started) (unfinished : ¬ task.Done) : slot.Advances i task where
  found := found
  unfinished := unfinished
  before := fun before foundEarlier => valid.ordered before foundEarlier found started

/-- A task which is about to call the backend. -/
theorem Valid.advances_of_previousDone (valid : slot.Valid)
    (found : slot.tasks[i]? = some task) (unfinished : ¬ task.Done)
    (previousDone : slot.previousDone task = true) : slot.Advances i task where
  found := found
  unfinished := unfinished
  before := by
    intro j earlier before foundEarlier
    cases i with
    | zero => omega
    | succ n =>
      unfold Slot.previousDone at previousDone
      rw [valid.chained found, preceding] at previousDone
      dsimp only at previousDone
      cases foundPrevious : slot.tasks[n]? with
      | none => simp [foundPrevious] at previousDone
      | some previous =>
        have done : previous.Done := by simpa [foundPrevious, Task.Done] using previousDone
        rcases Nat.lt_succ_iff_lt_or_eq.mp before with earlierStill | rfl
        · exact valid.ordered earlierStill foundEarlier foundPrevious done.started
        · cases foundPrevious.symm.trans foundEarlier
          exact done

/-- A task moves on: what is left to show is what the entry says. -/
theorem Valid.advance (valid : slot.Valid) (advances : slot.Advances i task)
    {status : TaskStatus} {slot' : Slot}
    (tasks : slot'.tasks = slot.tasks.set i { task with status })
    (generation : slot'.entry.generation = slot.entry.generation)
    (ioTail : slot'.entry.ioTail = slot.entry.ioTail)
    (returned : ∀ fetched, status = .returned (.ok fetched) →
      slot'.object = task.operation.objectAfter fetched)
    (describes : slot'.Describes) : slot'.Valid where
  generation := by rw [generation, valid.generation, tasks, List.length_set]
  ioTail := by rw [ioTail, valid.ioTail, tasks, List.length_set]
  generations := by
    intro j other found
    rw [tasks] at found
    rcases getElem?_set_cases advances.inside found with ⟨rfl, rfl⟩ | ⟨-, old⟩
    · exact (valid.generations advances.found :)
    · exact valid.generations old
  chained := by
    intro j other found
    rw [tasks] at found
    rcases getElem?_set_cases advances.inside found with ⟨rfl, rfl⟩ | ⟨-, old⟩
    · exact (valid.chained advances.found :)
    · exact valid.chained old
  ordered := by
    intro j k earlier later before foundEarlier foundLater started
    rw [tasks] at foundEarlier foundLater
    rcases getElem?_set_cases advances.inside foundLater with ⟨rfl, rfl⟩ | ⟨different, old⟩
    · rcases getElem?_set_cases advances.inside foundEarlier with ⟨rfl, -⟩ | ⟨-, oldEarlier⟩
      · omega
      · exact advances.before before oldEarlier
    · have laterDone := advances.done_of_started valid old different started
      rcases getElem?_set_cases advances.inside foundEarlier with ⟨rfl, rfl⟩ | ⟨-, oldEarlier⟩
      · exact absurd (valid.ordered before advances.found old started) advances.unfinished
      · exact valid.ordered before oldEarlier old laterDone.started
  returned := by
    intro j other fetched found isReturned
    rw [tasks] at found
    rcases getElem?_set_cases advances.inside found with ⟨rfl, rfl⟩ | ⟨different, old⟩
    · exact returned fetched isReturned
    · have started : other.Started := by simp [Task.Started, isReturned]
      have done := advances.done_of_started valid old different started
      simp [Task.Done, Task.result?, isReturned] at done
  describes := describes

/-- A task which moves on without finishing changes nothing the entry says. -/
theorem Describes.advance (describes : slot.Describes) (advances : slot.Advances i task)
    {status : TaskStatus} {slot' : Slot} (unfinished : ¬ ({ task with status } : Task).Done)
    (tasks : slot'.tasks = slot.tasks.set i { task with status })
    (entry : slot'.entry = slot.entry) : slot'.Describes := by
  cases describes with
  | @inFlight n last length found lastUnfinished state awaited =>
    have length' : slot'.tasks.length = n + 1 := by rw [tasks, List.length_set, length]
    by_cases same : n = i
    · subst same
      cases advances.found.symm.trans found
      refine .inFlight length' ?_ unfinished (entry ▸ state) (entry ▸ awaited)
      rw [tasks, List.getElem?_set_self advances.inside]
    · refine .inFlight length' ?_ lastUnfinished (entry ▸ state) (entry ▸ awaited)
      rw [tasks, List.getElem?_set_ne (Ne.symm same), found]
  | resident done => exact absurd done advances.not_allDone
  | idle done => exact absurd done advances.not_allDone

/-- The entry a task publishes: nothing if it is superseded. -/
theorem publish_of_superseded {entry : Entry} {outcome : Outcome}
    (superseded : entry.generation ≠ task.generation) : task.publish outcome entry = entry := by
  unfold Task.publish
  split
  · exact if_neg superseded
  · split
    · exact if_pos superseded
    · exact if_pos superseded
    · exact if_pos superseded

theorem publish_generation {entry : Entry} {outcome : Outcome} :
    (task.publish outcome entry).generation = entry.generation ∧
      (task.publish outcome entry).ioTail = entry.ioTail := by
  by_cases current : entry.generation = task.generation
  · unfold Task.publish Entry.finishSuccess Entry.finishFailure
    split
    · simp [current]
    · split <;> simp [current]
  · rw [publish_of_superseded current]
    exact ⟨rfl, rfl⟩

/-- The last task finishes. -/
theorem Valid.describes_finish (valid : slot.Valid) (advances : slot.Advances i task)
    {outcome : Outcome} {slot' : Slot} (returned : task.status = .returned outcome)
    (tasks : slot'.tasks = slot.tasks.set i
      { task with status := .finished outcome (slot.entry.generation = task.generation) })
    (entry : slot'.entry = task.publish outcome slot.entry)
    (object : slot'.object = slot.object) : slot'.Describes := by
  by_cases current : slot.entry.generation = task.generation
  · have last := valid.last_of_current advances.found current
    have done := advances.allDone last tasks (by simp [Task.Done, Task.result?])
    cases outcome with
    | error exc =>
      refine .idle done (.inr ?_)
      rw [entry, Task.publish, Entry.finishFailure, if_pos current]
    | ok fetched =>
      have stored := valid.returned advances.found returned
      cases operation : task.operation with
      | fetch =>
        rw [operation, Operation.objectAfter] at stored
        cases fetched with
        | none =>
          refine .idle done (.inl ?_)
          simp [entry, Task.publish, operation, Entry.finishSuccess, current]
        | some payload =>
          refine .resident done ?_ ?_ (object.trans stored)
          · simp [entry, Task.publish, operation, Entry.finishSuccess, current]
          · simp [entry, Task.publish, operation, Entry.finishSuccess, current]
      | put payload overwrite =>
        rw [operation, Operation.objectAfter] at stored
        refine .resident done ?_ ?_ (object.trans stored)
        · simp [entry, Task.publish, operation, Entry.finishSuccess, current]
        · simp [entry, Task.publish, operation, Entry.finishSuccess, current]
      | evict =>
        refine .idle done (.inl ?_)
        simp [entry, Task.publish, operation, Entry.finishSuccess, current]
  · rw [publish_of_superseded current] at entry
    cases valid.describes with
    | @inFlight n last length found unfinished state awaited =>
      have different : i ≠ n := by
        rintro rfl
        rw [valid.generation, length, valid.generations advances.found] at current
        exact current rfl
      refine .inFlight ?_ ?_ unfinished (entry ▸ state) (entry ▸ awaited)
      · rw [tasks, List.length_set, length]
      · rw [tasks, List.getElem?_set_ne different, found]
    | resident done => exact absurd done advances.not_allDone
    | idle done => exact absurd done advances.not_allDone

/-! ## Every action -/

theorem Valid.steps {slot' : Slot} {action : Action} (valid : slot.Valid)
    (steps : slot.Steps action slot') : slot'.Valid := by
  cases steps with
  | get =>
    have opened : ({ slot with calls := slot.calls + 1 } : Slot).Valid :=
      valid.of_eq rfl rfl rfl
    exact opened.enter slot.calls
  | put => exact valid.register rfl
  | evict => exact valid.register rfl
  | @call i task found waiting previousDone =>
    have unfinished : ¬ task.Done := by simp [Task.Done, Task.result?, waiting]
    have advances := valid.advances_of_previousDone found unfinished previousDone
    refine valid.advance advances rfl rfl rfl (by simp) ?_
    exact valid.describes.advance advances (by simp [Task.Done, Task.result?]) rfl rfl
  | returns found calling =>
    have advances := valid.advances_of_started found (by simp [Task.Started, calling])
      (by simp [Task.Done, Task.result?, calling])
    refine valid.advance advances rfl rfl rfl ?_ ?_
    · rintro fetched ⟨⟩
      exact (Operation.objectAfter_read _ _).symm
    · exact valid.describes.advance advances (by simp [Task.Done, Task.result?]) rfl rfl
  | fails found calling =>
    have advances := valid.advances_of_started found (by simp [Task.Started, calling])
      (by simp [Task.Done, Task.result?, calling])
    refine valid.advance advances rfl rfl rfl (by simp) ?_
    exact valid.describes.advance advances (by simp [Task.Done, Task.result?]) rfl rfl
  | finish found returned =>
    have advances := valid.advances_of_started found (by simp [Task.Started, returned])
      (by simp [Task.Done, Task.result?, returned])
    refine valid.advance advances rfl publish_generation.1 publish_generation.2
      (by simp) ?_
    exact valid.describes_finish advances returned rfl rfl rfl
  | resume => exact valid.proceed _ _
  | cancel => exact valid.leave _

end Slot

/-! ## All keys -/

namespace Coordinator

/-- What an action does to the slot of one key. -/
theorem step_cases {coordinator coordinator' : Coordinator} {key : String} {action : Action}
    (stepped : coordinator.step key action = some coordinator') :
    coordinator' = coordinator ∨ ∃ slot, (coordinator key).Steps action slot ∧
      coordinator' = Function.update coordinator key slot := by
  unfold step at stepped
  split at stepped
  · cases stepped
    exact .inl rfl
  · rcases Option.map_eq_some_iff.mp stepped with ⟨slot, moved, rfl⟩
    exact .inr ⟨slot, Slot.steps moved, rfl⟩

theorem Reachable.valid {coordinator : Coordinator} (reachable : Reachable coordinator)
    (key : String) : (coordinator key).Valid := by
  induction reachable with
  | initial objects => exact Slot.valid_initial _
  | @step coordinator coordinator' stepKey action reachable stepped valid =>
    rcases step_cases stepped with rfl | ⟨slot, steps, rfl⟩
    · exact valid
    · by_cases same : key = stepKey
      · subst same
        rw [Function.update_self]
        exact valid.steps steps
      · rw [Function.update_of_ne same]
        exact valid

end Coordinator

end NanoVllm.Transfer
