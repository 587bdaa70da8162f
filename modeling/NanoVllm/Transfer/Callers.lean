import NanoVllm.Transfer.Run
import Mathlib.Data.List.Nodup

/-!
# The calls of `get`

Every waiting call has a number of its own and awaits a task of its slot, and every call answers
at most once.
-/

namespace NanoVllm.Transfer

namespace Slot

variable {slot slot' : Slot} {i : ℕ} {task : Task} {caller : CallerId} {action : Action}

/-- The bookkeeping of the `get` calls. -/
structure Callers (slot : Slot) : Prop where
  distinct : (slot.waiting.map Waiter.caller).Nodup
  begun : ∀ waiter ∈ slot.waiting, waiter.caller < slot.calls
  answered : ∀ result ∈ slot.results, result.1 < slot.calls ∧
    ∀ waiter ∈ slot.waiting, waiter.caller ≠ result.1
  awaited : ∀ waiter ∈ slot.waiting, ∃ task, slot.tasks[waiter.task]? = some task ∧
    (waiter.retryAfterWait = true ↔ task.operation = .evict)

theorem callers_initial (object : Option Payload) : (initial object).Callers where
  distinct := List.nodup_nil
  begun := by simp [initial]
  answered := by simp [initial]
  awaited := by simp [initial]

/-- A call which is in progress and awaits nothing. -/
structure Active (slot : Slot) (caller : CallerId) : Prop where
  begun : caller < slot.calls
  alone : ∀ waiter ∈ slot.waiting, waiter.caller ≠ caller
  unanswered : ∀ result ∈ slot.results, result.1 ≠ caller

theorem Callers.answer (callers : slot.Callers) (active : slot.Active caller)
    (outcome : Outcome) : (slot.answer caller outcome).Callers where
  distinct := callers.distinct
  begun := callers.begun
  answered := by
    intro result mem
    rcases List.mem_append.mp mem with old | new
    · exact callers.answered result old
    · cases List.mem_singleton.mp new
      exact ⟨active.begun, active.alone⟩
  awaited := callers.awaited

theorem Callers.enters (callers : slot.Callers) (active : slot.Active caller)
    (enters : Enters slot caller slot') : slot'.Callers := by
  cases enters with
  | answers done stored answered =>
    rw [answered]
    exact callers.answer active _
  | @waits waiter task named found unfinished retries waiting results calls changes =>
    have cases' : ∀ other ∈ slot'.waiting, other ∈ slot.waiting ∨ other = waiter := by
      intro other mem
      rw [waiting] at mem
      simpa using mem
    constructor
    · rw [waiting, List.map_append, List.map_singleton]
      refine List.nodup_append.mpr ⟨callers.distinct, by simp, ?_⟩
      intro number mem number' mem' same
      rcases List.mem_map.mp mem with ⟨other, memOther, rfl⟩
      apply active.alone other memOther
      rw [same, List.mem_singleton.mp mem', named]
    · intro other mem
      rw [calls]
      rcases cases' other mem with old | rfl
      · exact callers.begun other old
      · exact named ▸ active.begun
    · intro result mem
      rw [results] at mem
      rw [calls]
      refine ⟨(callers.answered result mem).1, ?_⟩
      intro other memOther
      rcases cases' other memOther with old | rfl
      · exact (callers.answered result mem).2 other old
      · exact fun same => active.unanswered result mem (same.symm.trans named)
    · intro other mem
      rcases cases' other mem with old | rfl
      · rcases callers.awaited other old with ⟨task', found', retries'⟩
        rcases changes.operation found' with ⟨task'', found'', same⟩
        exact ⟨task'', found'', same ▸ retries'⟩
      · exact ⟨task, found, retries⟩

/-- The call which stops waiting becomes active. -/
theorem Callers.leave (callers : slot.Callers) {waiter : Waiter} (waits : waiter ∈ slot.waiting) :
    (slot.leave waiter).Callers ∧ (slot.leave waiter).Active waiter.caller := by
  have remains : ∀ other ∈ (slot.leave waiter).waiting, other ∈ slot.waiting :=
    fun other mem => List.mem_of_mem_erase mem
  refine ⟨⟨?_, ?_, ?_, ?_⟩, ?_, ?_, ?_⟩
  · exact callers.distinct.sublist (List.erase_sublist.map _)
  · exact fun other mem => callers.begun other (remains other mem)
  · intro result mem
    refine ⟨(callers.answered result mem).1, ?_⟩
    exact fun other memOther => (callers.answered result mem).2 other (remains other memOther)
  · exact fun other mem => callers.awaited other (remains other mem)
  · exact callers.begun waiter waits
  · intro other mem same
    have distinct : slot.waiting.Nodup := List.Nodup.of_map _ callers.distinct
    have different : other ≠ waiter := by
      rintro rfl
      exact (distinct.not_mem_erase) mem
    exact different (List.inj_on_of_nodup_map callers.distinct (remains other mem) waits same)
  · exact fun result mem same => (callers.answered result mem).2 waiter waits same.symm

/-- A new call. -/
theorem Callers.opened (callers : slot.Callers) :
    ({ slot with calls := slot.calls + 1 } : Slot).Callers ∧
      ({ slot with calls := slot.calls + 1 } : Slot).Active slot.calls := by
  refine ⟨⟨callers.distinct, ?_, ?_, callers.awaited⟩, Nat.lt_succ_self _, ?_, ?_⟩
  · exact fun waiter mem => Nat.lt_succ_of_lt (callers.begun waiter mem)
  · intro result mem
    exact ⟨Nat.lt_succ_of_lt (callers.answered result mem).1, (callers.answered result mem).2⟩
  · exact fun waiter mem => Nat.ne_of_lt (callers.begun waiter mem)
  · exact fun result mem => Nat.ne_of_lt (callers.answered result mem).1

/-- The bookkeeping survives what leaves the calls alone. -/
theorem Callers.changes (callers : slot.Callers) (changes : Changes slot slot')
    (waiting : slot'.waiting = slot.waiting) (calls : slot'.calls = slot.calls)
    (results : slot'.results = slot.results) : slot'.Callers where
  distinct := waiting ▸ callers.distinct
  begun := by
    rw [waiting, calls]
    exact callers.begun
  answered := by
    rw [waiting, calls, results]
    exact callers.answered
  awaited := by
    intro waiter mem
    rw [waiting] at mem
    rcases callers.awaited waiter mem with ⟨task, found, retries⟩
    rcases changes.operation found with ⟨task', found', same⟩
    exact ⟨task', found', same ▸ retries⟩

theorem Callers.proceed (callers : slot.Callers) (valid : slot.Valid) {waiter : Waiter}
    (waits : waiter ∈ slot.waiting) (result : Outcome) :
    (slot.proceed waiter result).Callers := by
  rcases callers.leave waits with ⟨left, active⟩
  unfold Slot.proceed
  split
  · exact left.answer active _
  · split
    · exact left.enters active ((valid.leave waiter).enters _)
    · exact left.answer active _

theorem Callers.steps (callers : slot.Callers) (valid : slot.Valid)
    (steps : slot.Steps action slot') (succeeds : action.succeeds = true) : slot'.Callers := by
  have changes := valid.changes steps succeeds
  cases steps with
  | get =>
    rcases callers.opened with ⟨opened, active⟩
    have validOpened : ({ slot with calls := slot.calls + 1 } : Slot).Valid :=
      valid.of_eq rfl rfl rfl
    exact opened.enters active (validOpened.enters slot.calls)
  | put => exact callers.changes changes rfl rfl rfl
  | evict => exact callers.changes changes rfl rfl rfl
  | call => exact callers.changes changes rfl rfl rfl
  | returns => exact callers.changes changes rfl rfl rfl
  | fails => cases succeeds
  | finish => exact callers.changes changes rfl rfl rfl
  | resume waits => exact callers.proceed valid waits _
  | cancel waits => exact (callers.leave waits).1

/-! ## What a step adds -/

/-- Calls are only opened, and results only added. -/
structure Grows (slot slot' : Slot) : Prop where
  calls : slot.calls ≤ slot'.calls
  results : slot.results ⊆ slot'.results

/-- A result is old, or the answer of the call which resumes, enters or is new. -/
inductive Answered (slot : Slot) (action : Action) (slot' : Slot) (caller : CallerId)
    (payload : Option Payload) : Prop where
  | before (mem : (caller, .ok payload) ∈ slot.results)
  | resident (begun : caller < slot'.calls) (fresh : ∀ result ∈ slot.results, result.1 ≠ caller)
      (done : slot.AllDone) (stored : slot.object = payload)
  | resumed {waiter : Waiter} {task : Task} (waits : waiter ∈ slot.waiting)
      (named : waiter.caller = caller) (isResume : action = .resume caller)
      (returns : waiter.retryAfterWait = false) (found : slot.tasks[waiter.task]? = some task)
      (result : task.result? = some (.ok payload))

theorem Enters.grows (enters : Enters slot caller slot') : Grows slot slot' := by
  cases enters with
  | answers done stored answered =>
    subst answered
    exact ⟨Nat.le_refl _, List.subset_append_left _ _⟩
  | waits named found unfinished retries waiting results calls changes =>
    exact ⟨calls.ge, results ▸ List.Subset.refl _⟩

theorem Enters.answered (enters : Enters slot caller slot') {other : CallerId}
    {payload : Option Payload} (mem : (other, .ok payload) ∈ slot'.results) :
    (other, .ok payload) ∈ slot.results ∨
      other = caller ∧ slot.AllDone ∧ slot.object = payload := by
  cases enters with
  | answers done stored answered =>
    rw [answered] at mem
    rcases List.mem_append.mp mem with old | new
    · exact .inl old
    · cases List.mem_singleton.mp new
      exact .inr ⟨rfl, done, stored⟩
  | waits named found unfinished retries waiting results calls changes =>
    exact .inl (results ▸ mem)

/-- A waiting call is old, or awaits a task which is not done. -/
theorem Enters.waiting (enters : Enters slot caller slot') {waiter : Waiter}
    (mem : waiter ∈ slot'.waiting) : waiter ∈ slot.waiting ∨
      ∃ task, slot'.tasks[waiter.task]? = some task ∧ ¬ task.Done := by
  cases enters with
  | answers done stored answered =>
    rw [answered] at mem
    exact .inl mem
  | waits named found unfinished retries waiting results calls changes =>
    rw [waiting] at mem
    rcases List.mem_append.mp mem with old | new
    · exact .inl old
    · cases List.mem_singleton.mp new
      exact .inr ⟨_, found, unfinished⟩

theorem Valid.grows (valid : slot.Valid) (steps : slot.Steps action slot') :
    Grows slot slot' := by
  have same {slot'' : Slot} (calls : slot''.calls = slot.calls)
      (results : slot''.results = slot.results) : Grows slot slot'' :=
    ⟨calls.ge, results ▸ List.Subset.refl _⟩
  cases steps with
  | get =>
    have opened : ({ slot with calls := slot.calls + 1 } : Slot).Valid :=
      valid.of_eq rfl rfl rfl
    have grows := (opened.enters slot.calls).grows
    exact ⟨Nat.le_of_succ_le grows.calls, grows.results⟩
  | put => exact same rfl rfl
  | evict => exact same rfl rfl
  | call => exact same rfl rfl
  | returns => exact same rfl rfl
  | fails => exact same rfl rfl
  | finish => exact same rfl rfl
  | @resume caller waiter task result waits =>
    unfold Slot.proceed
    split
    · exact ⟨Nat.le_refl _, List.subset_append_left _ _⟩
    · split
      · have grows := ((valid.leave waiter).enters waiter.caller).grows
        exact ⟨grows.calls, grows.results⟩
      · exact ⟨Nat.le_refl _, List.subset_append_left _ _⟩
  | cancel => exact same rfl rfl

theorem Callers.answered_steps (callers : slot.Callers) (valid : slot.Valid)
    (steps : slot.Steps action slot') {payload : Option Payload}
    (mem : (caller, .ok payload) ∈ slot'.results) :
    Answered slot action slot' caller payload := by
  have grows := valid.grows steps
  cases steps with
  | get =>
    rcases callers.opened with ⟨opened, active⟩
    have validOpened : ({ slot with calls := slot.calls + 1 } : Slot).Valid :=
      valid.of_eq rfl rfl rfl
    have enters := validOpened.enters slot.calls
    rcases enters.answered mem with old | ⟨rfl, done, stored⟩
    · exact .before old
    · exact .resident (Nat.lt_of_lt_of_le active.begun enters.grows.calls) active.unanswered done
        stored
  | put => exact .before mem
  | evict => exact .before mem
  | call => exact .before mem
  | returns => exact .before mem
  | fails => exact .before mem
  | finish => exact .before mem
  | @resume _ waiter task result waits named found done =>
    rcases callers.leave waits with ⟨-, active⟩
    subst named
    unfold Slot.proceed at mem
    split at mem
    · rcases List.mem_append.mp mem with old | new
      · exact .before old
      · cases List.mem_singleton.mp new
    · split at mem
      · have enters := (valid.leave waiter).enters waiter.caller
        rcases enters.answered mem with old | ⟨rfl, idle, stored⟩
        · exact .before old
        · exact .resident (Nat.lt_of_lt_of_le active.begun grows.calls) active.unanswered idle
            stored
      · rename_i returns
        rcases List.mem_append.mp mem with old | new
        · exact .before old
        · cases List.mem_singleton.mp new
          exact .resumed waits rfl rfl (by simpa using returns) found done
  | cancel => exact .before mem

theorem Valid.waiting_steps (valid : slot.Valid) (steps : slot.Steps action slot')
    {waiter : Waiter} (mem : waiter ∈ slot'.waiting) : waiter ∈ slot.waiting ∨
      ∃ task, slot'.tasks[waiter.task]? = some task ∧ ¬ task.Done := by
  cases steps with
  | get =>
    have opened : ({ slot with calls := slot.calls + 1 } : Slot).Valid :=
      valid.of_eq rfl rfl rfl
    exact (opened.enters slot.calls).waiting mem
  | put => exact .inl mem
  | evict => exact .inl mem
  | call => exact .inl mem
  | returns => exact .inl mem
  | fails => exact .inl mem
  | finish => exact .inl mem
  | @resume _ left task result waits =>
    unfold Slot.proceed at mem ⊢
    split at mem
    · exact .inl (List.mem_of_mem_erase mem)
    · split at mem
      · rename_i retries
        rcases ((valid.leave left).enters left.caller).waiting mem with old | new
        · exact .inl (List.mem_of_mem_erase old)
        · right
          simpa [retries] using new
      · exact .inl (List.mem_of_mem_erase mem)
  | cancel => exact .inl (List.mem_of_mem_erase mem)

/-- A task whose outcome is the entry's was so before, or has just finished as the last one. -/
theorem Changes.finished (changes : Changes slot slot') (valid : slot.Valid)
    {fetched : Option Payload} (found : slot'.tasks[i]? = some task)
    (finished : task.status = .finished (.ok fetched) true) :
    slot.tasks[i]? = some task ∨
      slot'.AllDone ∧ slot'.object = task.operation.objectAfter fetched := by
  cases changes with
  | nothing tasks => exact .inl (tasks ▸ found)
  | @registers new waiting tasks =>
    rw [tasks, List.getElem?_append] at found
    split at found
    · exact .inl found
    · rcases List.getElem?_eq_some_iff.mp found with ⟨_, isNew⟩
      rw [List.getElem_singleton] at isNew
      rw [← isNew, waiting] at finished
      cases finished
  | moves advances tasks same publishes object =>
    rw [tasks] at found
    rcases getElem?_set_cases advances.inside found with ⟨rfl, rfl⟩ | ⟨-, old⟩
    · rcases publishes _ finished with ⟨returned, last⟩
      refine .inr ⟨advances.allDone last tasks (Task.done_iff.mpr ⟨_, _, finished⟩), ?_⟩
      rw [object, valid.returned advances.found returned]
    · exact .inl old
  | returns advances tasks before after unfinished object =>
    rw [tasks] at found
    rcases getElem?_set_cases advances.inside found with ⟨rfl, rfl⟩ | ⟨-, old⟩
    · exact absurd (Task.done_iff.mpr ⟨_, _, finished⟩) unfinished
    · exact .inl old

end Slot

end NanoVllm.Transfer
