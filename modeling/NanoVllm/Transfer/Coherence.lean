import NanoVllm.Transfer.Invariant

/-!
# Coherence of the transfer coordinator

Under every interleaving of calls, cancellations and completions on any keys, the backend calls
of a key run one at a time in the order of their registration, superseded tasks leave the entry
alone, and a resident entry holds the backend's object.
-/

namespace NanoVllm.Transfer

/-- The task which an action is a step of. -/
def Action.task? : Action → Option TaskId
  | .call i => some i
  | .returns i => some i
  | .fails i _ _ => some i
  | .finish i => some i
  | _ => none

namespace Slot

/-- The guarantees for one key. -/
structure Coherent (slot : Slot) : Prop where
  exclusive : ∀ {i j : ℕ} {task task' : Task}, slot.tasks[i]? = some task →
    slot.tasks[j]? = some task' → task.status = .calling → task'.status = .calling → i = j
  ordered : ∀ {i j : ℕ} {task task' : Task}, i < j → slot.tasks[i]? = some task →
    slot.tasks[j]? = some task' → task'.Started → task.Done
  superseded_iff : ∀ {i : ℕ} {task : Task}, slot.tasks[i]? = some task →
    (slot.entry.generation ≠ task.generation ↔ i + 1 < slot.tasks.length)
  superseded : ∀ {i : ℕ} {task : Task} {action : Action} {slot' : Slot},
    slot.tasks[i]? = some task → slot.entry.generation ≠ task.generation →
      action.task? = some i → slot.step action = some slot' → slot'.entry = slot.entry
  resident : slot.entry.state = .resident → slot.entry.payload = slot.object
  served : slot.entry.state = .resident →
    ∀ caller, slot.enter caller = slot.answer caller (.ok slot.object)

variable {slot slot' : Slot} {i j : ℕ} {task task' : Task} {action : Action}

theorem Valid.exclusive (valid : slot.Valid) (found : slot.tasks[i]? = some task)
    (found' : slot.tasks[j]? = some task') (calling : task.status = .calling)
    (calling' : task'.status = .calling) : i = j := by
  have advances := valid.advances_of_started found (by simp [Task.Started, calling])
    (by simp [Task.Done, Task.result?, calling])
  by_contra different
  have done := advances.done_of_started valid found' (Ne.symm different)
    (by simp [Task.Started, calling'])
  simp [Task.Done, Task.result?, calling'] at done

theorem Valid.superseded_iff (valid : slot.Valid) (found : slot.tasks[i]? = some task) :
    slot.entry.generation ≠ task.generation ↔ i + 1 < slot.tasks.length := by
  have inside := (List.getElem?_eq_some_iff.mp found).1
  rw [valid.generation, valid.generations found]
  omega

/-- The steps of a task change the entry only where it publishes its outcome. -/
theorem Steps.entry_of_superseded (steps : slot.Steps action slot')
    (found : slot.tasks[i]? = some task) (superseded : slot.entry.generation ≠ task.generation)
    (ofTask : action.task? = some i) : slot'.entry = slot.entry := by
  cases steps with
  | get => cases ofTask
  | put => cases ofTask
  | evict => cases ofTask
  | call => rfl
  | returns => rfl
  | fails => rfl
  | finish foundFinished returned =>
    cases ofTask
    cases foundFinished.symm.trans found
    exact publish_of_superseded superseded
  | resume => cases ofTask
  | cancel => cases ofTask

theorem Valid.payload_eq (valid : slot.Valid) (resident : slot.entry.state = .resident) :
    slot.entry.payload = slot.object := by
  cases valid.describes with
  | inFlight last found unfinished state awaited =>
    rw [resident] at state
    rename_i n task
    cases operation : task.operation <;> simp [operation, Operation.state] at state
  | resident done state held stored => rw [held, stored]
  | idle done state =>
    rw [resident] at state
    simp at state

theorem Valid.toCoherent (valid : slot.Valid) : slot.Coherent where
  exclusive := valid.exclusive
  ordered := valid.ordered
  superseded_iff := valid.superseded_iff
  superseded found superseded ofTask stepped :=
    (Slot.steps stepped).entry_of_superseded found superseded ofTask
  resident := valid.payload_eq
  served := by
    intro resident caller
    rw [Slot.enter, resident, valid.payload_eq resident]

end Slot

/-- Every reachable coordinator is coherent at every key. -/
theorem Coordinator.coherent {coordinator : Coordinator} (reachable : Reachable coordinator)
    (key : String) : (coordinator key).Coherent :=
  (reachable.valid key).toCoherent

/-- A `put` has been called and an `evict` registered behind it. -/
theorem Coordinator.coherent_putEvict :
    ∃ coordinator, Reachable coordinator ∧ (coordinator "page").tasks.length = 2 ∧
      (coordinator "page").Coherent := by
  have put := @Reachable.step _ _ "page" (.put [1] false) (.initial fun _ => none) rfl
  have call := @Reachable.step _ _ "page" (.call 0) put rfl
  have evict := @Reachable.step _ _ "page" .evict call rfl
  exact ⟨_, evict, rfl, coherent evict "page"⟩

end NanoVllm.Transfer
