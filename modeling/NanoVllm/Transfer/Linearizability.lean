import NanoVllm.Library.Windows
import NanoVllm.Transfer.Callers

/-!
# Linearizability of reads

Operations take effect in the order of their registration, each between its registration and its
completion. A `get` call should return a value which the key held during the call. A call which
awaits a fetch or a write that was superseded returns `None`, which only an absent key justifies.
-/

namespace NanoVllm.Transfer

/-- A run of one key in which all calls of the backend succeed. -/
structure Run (object : Option Payload) (n : ℕ) where
  slots : ℕ → Slot
  actions : ℕ → Action
  starts : slots 0 = .initial object
  steps : ∀ t < n, (slots t).step (actions t) = some (slots (t + 1))
  succeeds : ∀ t < n, (actions t).succeeds = true

namespace Slot

variable {slot : Slot} {i k : ℕ} {task : Task}

/-- The number of tasks which are done. -/
def completed (slot : Slot) : ℕ := slot.tasks.countP (·.result?.isSome)

theorem completed_le (slot : Slot) : slot.completed ≤ slot.tasks.length := List.countP_le_length

/-- The tasks which are done come first. -/
theorem Valid.lt_completed (valid : slot.Valid) (found : slot.tasks[i]? = some task)
    (done : task.Done) : i < slot.completed := by
  have inside := (List.getElem?_eq_some_iff.mp found).1
  have all : (slot.tasks.take (i + 1)).countP (·.result?.isSome) = i + 1 := by
    have length : (slot.tasks.take (i + 1)).length = i + 1 := by
      rw [List.length_take]
      omega
    refine (List.countP_eq_length.mpr ?_).trans length
    intro other mem
    rcases List.mem_iff_getElem?.mp mem with ⟨j, foundOther⟩
    rw [List.getElem?_take] at foundOther
    split at foundOther
    · rcases Nat.lt_succ_iff_lt_or_eq.mp ‹j < i + 1› with before | rfl
      · exact valid.ordered before foundOther found done.started
      · cases found.symm.trans foundOther
        exact done
    · cases foundOther
  rw [← Nat.succ_le_iff, ← Nat.add_one, ← all]
  exact (List.take_sublist (i + 1) slot.tasks).countP_le

theorem completed_le_of_forall
    (bound : ∀ {i : ℕ} {task : Task}, slot.tasks[i]? = some task → task.Done → i < k) :
    slot.completed ≤ k := by
  have rest : (slot.tasks.drop k).countP (·.result?.isSome) = 0 := by
    rw [List.countP_eq_zero]
    intro task mem done
    rcases List.mem_iff_getElem?.mp mem with ⟨j, found⟩
    rw [List.getElem?_drop] at found
    have := bound found done
    omega
  rw [completed, ← List.take_append_drop k slot.tasks, List.countP_append, rest, Nat.add_zero]
  exact List.countP_le_length.trans (List.length_take_le _ _)

end Slot

namespace Run

variable {object : Option Payload} {n : ℕ} (run : Run object n)

/-- A `get` call is in progress around step `t`: it has begun by its end and not returned before. -/
def DuringCall (caller : CallerId) (t : ℕ) : Prop :=
  caller < (run.slots (t + 1)).calls ∧ ∀ result ∈ (run.slots t).results, result.1 ≠ caller

/-- How many operations have taken effect at each time. -/
structure Linearization where
  effects : ℕ → ℕ
  mono : ∀ t < n, effects t ≤ effects (t + 1)
  registered : ∀ t ≤ n, effects t ≤ (run.slots t).tasks.length
  completed : ∀ t ≤ n, ∀ {i : ℕ} {task : Task}, (run.slots t).tasks[i]? = some task →
    task.Done → i < effects t

variable {run}

/-- The value of the key. -/
def Linearization.value (linearization : run.Linearization) (t : ℕ) : Option Payload :=
  valueAfter object (run.slots t).operations (linearization.effects t)

variable (run)

/-- Every value which a `get` call returned was held during the call. -/
def Linearizable : Prop :=
  ∃ linearization : run.Linearization, ∀ caller payload,
    (caller, .ok payload) ∈ (run.slots n).results →
      ∃ t < n, run.DuringCall caller t ∧ linearization.value t = payload

/-- The key has no value after the completed operations and some of the registered ones. -/
def MayBeAbsent (t : ℕ) : Prop :=
  ∃ k ≤ (run.slots t).tasks.length,
    (∀ {i : ℕ} {task : Task}, (run.slots t).tasks[i]? = some task → task.Done → i < k) ∧
    valueAfter object (run.slots t).operations k = none

/-- In step `t` a call resumes from a fetch or a write which was superseded before it finished. -/
def ResumesSuperseded (t : ℕ) (waiter : Waiter) : Prop :=
  run.actions t = .resume waiter.caller ∧ waiter ∈ (run.slots t).waiting ∧
    ∃ task fetched, (run.slots t).tasks[waiter.task]? = some task ∧
      task.operation ≠ .evict ∧ task.status = .finished (.ok fetched) false

variable {run} {t t' : ℕ} {caller : CallerId} {payload : Option Payload}

/-! ## Along a run -/

/-- What holds of every state of a run. -/
structure StateValid (object : Option Payload) (slot : Slot) : Prop where
  valid : slot.Valid
  replays : slot.Replays object
  callers : slot.Callers

theorem changes (valid : (run.slots t).Valid) (inside : t < n) :
    (run.slots t).Changes (run.slots (t + 1)) :=
  valid.changes (Slot.steps (run.steps t inside)) (run.succeeds t inside)

theorem stateValid (run : Run object n) (inside : t ≤ n) : StateValid object (run.slots t) := by
  induction t with
  | zero =>
    rw [run.starts]
    exact ⟨Slot.valid_initial object, Slot.replays_initial object, Slot.callers_initial object⟩
  | succ t ih =>
    have earlier := ih (by omega)
    have steps := Slot.steps (run.steps t inside)
    exact ⟨earlier.valid.steps steps, earlier.replays.changes (changes earlier.valid inside),
      earlier.callers.steps earlier.valid steps (run.succeeds t inside)⟩

/-- What a later state has kept. -/
structure Later (slot slot' : Slot) : Prop where
  grows : slot.Grows slot'
  operations : slot.operations <+: slot'.operations
  done : ∀ {i : ℕ} {task : Task}, slot.tasks[i]? = some task → task.Done →
    slot'.tasks[i]? = some task

theorem later (run : Run object n) (order : t ≤ t') (inside : t' ≤ n) : Later (run.slots t) (run.slots t') := by
  induction t', order using Nat.le_induction with
  | base => exact ⟨⟨Nat.le_refl _, List.Subset.refl _⟩, List.prefix_refl _, fun found _ => found⟩
  | succ t' order ih =>
    have earlier := ih (by omega)
    have valid := (run.stateValid (by omega : t' ≤ n)).valid
    have grows := valid.grows (Slot.steps (run.steps t' inside))
    have changes := changes valid inside
    exact {
      grows := ⟨earlier.grows.calls.trans grows.calls,
        List.Subset.trans earlier.grows.results grows.results⟩
      operations := earlier.operations.trans changes.operations
      done := fun found done => changes.done (earlier.done found done) done }

/-- The end of a call comes after its time. -/
theorem DuringCall.lt {outcome : Outcome} (during : run.DuringCall caller t)
    (inside : t ≤ n) (mem : (caller, outcome) ∈ (run.slots t').results) : t < t' := by
  by_contra late
  have kept := (run.later (Nat.not_lt.mp late) inside).grows.results mem
  exact during.2 _ kept rfl

/-! ## Why a call returns a value -/

/-- A waiting call whose task has published its outcome has seen the object it published. -/
theorem published (inside : t ≤ n) {waiter : Waiter} {task : Task} {fetched : Option Payload}
    (waits : waiter ∈ (run.slots t).waiting)
    (found : (run.slots t).tasks[waiter.task]? = some task)
    (finished : task.status = .finished (.ok fetched) true) :
    ∃ t' ≤ t, waiter.caller < (run.slots t').calls ∧ (run.slots t').AllDone ∧
      (run.slots t').object = task.operation.objectAfter fetched := by
  induction t with
  | zero =>
    rw [run.starts] at waits
    cases waits
  | succ t ih =>
    have now := (run.stateValid inside).callers.begun waiter waits
    have valid := (run.stateValid (by omega : t ≤ n)).valid
    have steps := Slot.steps (run.steps t inside)
    rcases (changes valid inside).finished valid found finished with old | ⟨done, stored⟩
    · rcases valid.waiting_steps steps waits with waited | ⟨unfinishedTask, found', unfinished⟩
      · rcases ih (by omega) waited old with ⟨t', earlier, seen⟩
        exact ⟨t', by omega, seen⟩
      · cases found.symm.trans found'
        exact absurd (Task.done_iff.mpr ⟨_, _, finished⟩) unfinished
    · exact ⟨t + 1, Nat.le_refl _, now, done, stored⟩

/-- Why a call returned a value: the key held it with nothing in flight, or the call resumed from
a superseded task. -/
inductive Justified (run : Run object n) (t : ℕ) (caller : CallerId)
    (payload : Option Payload) : Prop where
  | held {t' : ℕ} (earlier : t' < t) (during : run.DuringCall caller t')
      (done : (run.slots t').AllDone) (stored : (run.slots t').object = payload)
  | superseded {t' : ℕ} {waiter : Waiter} (earlier : t' < t) (named : waiter.caller = caller)
      (resumes : run.ResumesSuperseded t' waiter) (missing : payload = none)

/-- The call which resumes from a finished task. -/
theorem justified_resumed (inside : t < n) {waiter : Waiter} {task : Task}
    (waits : waiter ∈ (run.slots t).waiting) (isResume : run.actions t = .resume waiter.caller)
    (returns : waiter.retryAfterWait = false)
    (found : (run.slots t).tasks[waiter.task]? = some task)
    (result : task.result? = some (.ok payload)) :
    Justified run (t + 1) waiter.caller payload := by
  have state := run.stateValid inside.le
  have fetchOrWrite : task.operation ≠ .evict := by
    intro evict
    rcases state.callers.awaited waiter waits with ⟨task', found', retries⟩
    cases found.symm.trans found'
    exact absurd (retries.mpr evict) (by simp [returns])
  rcases Task.done_iff.mp (by rw [Task.Done, result]; rfl) with ⟨outcome, current, finished⟩
  rw [Task.result?, finished, Option.some.injEq] at result
  cases outcome with
  | error exc => cases result
  | ok fetched =>
    cases current with
    | true =>
      rcases published inside.le waits found finished with ⟨t', order, begun, done, stored⟩
      have isPayload : task.operation.objectAfter fetched = payload := by
        cases operation : task.operation with
        | fetch =>
          rw [operation] at result
          cases result
          rfl
        | put written overwrite =>
          rw [operation] at result
          cases result
          rfl
        | evict => exact absurd operation fetchOrWrite
      refine .held (Nat.lt_succ_of_le order) ⟨?_, ?_⟩ done (stored.trans isPayload)
      · exact Nat.lt_of_lt_of_le begun (run.later (by omega) (by omega : t' + 1 ≤ n)).grows.calls
      · intro answer mem same
        have kept := (run.later order inside.le).grows.results mem
        exact (state.callers.answered answer kept).2 waiter waits same.symm
    | false =>
      have missing : payload = none := by
        cases operation : task.operation <;> rw [operation] at result <;> cases result <;> rfl
      exact .superseded (Nat.lt_succ_self t) rfl
        ⟨isResume, waits, task, fetched, found, fetchOrWrite, finished⟩ missing

theorem justified (inside : t ≤ n) (mem : (caller, .ok payload) ∈ (run.slots t).results) :
    Justified run t caller payload := by
  induction t with
  | zero =>
    rw [run.starts] at mem
    cases mem
  | succ t ih =>
    have state := run.stateValid (by omega : t ≤ n)
    have steps := Slot.steps (run.steps t inside)
    cases state.callers.answered_steps state.valid steps mem with
    | before old =>
      cases ih (by omega) old with
      | held earlier during done stored =>
        exact .held (Nat.lt_succ_of_lt earlier) during done stored
      | superseded earlier named resumes missing =>
        exact .superseded (Nat.lt_succ_of_lt earlier) named resumes missing
    | resident begun fresh done stored =>
      exact .held (Nat.lt_succ_self t) ⟨begun, fresh⟩ done stored
    | resumed waits named isResume returns found result =>
      subst named
      exact justified_resumed inside waits isResume returns found result

/-! ## Linearizations -/

/-- With nothing in flight, the key holds the object. -/
theorem Linearization.value_eq (linearization : run.Linearization) (inside : t ≤ n)
    (done : (run.slots t).AllDone) : linearization.value t = (run.slots t).object := by
  have all : (run.slots t).tasks.length ≤ linearization.effects t := by
    rcases Nat.eq_zero_or_pos (run.slots t).tasks.length with none | some
    · omega
    · have found := List.getElem?_eq_getElem
        (by omega : (run.slots t).tasks.length - 1 < (run.slots t).tasks.length)
      have := linearization.completed t inside found (done _ (List.mem_of_getElem? found))
      omega
  rw [(run.stateValid inside).replays.object_eq done, Linearization.value,
    Nat.le_antisymm (linearization.registered t inside) all]

theorem Linearization.mayBeAbsent (linearization : run.Linearization) (inside : t ≤ n)
    (absent : linearization.value t = none) : run.MayBeAbsent t :=
  ⟨linearization.effects t, linearization.registered t inside,
    linearization.completed t inside, absent⟩

/-- The value after some operations is the same in all later states. -/
theorem valueAfter_eq (inside : t ≤ n) {k : ℕ} (registered : k ≤ (run.slots t).tasks.length) :
    valueAfter object (run.slots n).operations k = valueAfter object (run.slots t).operations k :=
  valueAfter_of_isPrefix (run.later inside (Nat.le_refl n)).operations
    (Slot.length_operations ▸ registered)

variable (run)

/-- Operations take effect so that the key is absent whenever it may be. -/
def absentWhenPossible : run.Linearization where
  effects t := Windows.latest (fun k => valueAfter object (run.slots n).operations k = none)
    (run.slots t).completed (run.slots t).tasks.length
  mono := by
    intro t inside
    have later := run.later (Nat.le_succ t) inside
    apply Windows.latest_mono
    · apply Slot.completed_le_of_forall
      intro i task found done
      exact (run.stateValid inside).valid.lt_completed (later.done found done) done
    · rw [← Slot.length_operations, ← Slot.length_operations]
      exact later.operations.length_le
  registered := fun t _ => Windows.latest_le (run.slots t).completed_le
  completed := by
    intro t inside i task found done
    exact Nat.lt_of_lt_of_le ((run.stateValid inside).valid.lt_completed found done) Windows.le_latest

variable {run}

theorem absentWhenPossible_value (inside : t ≤ n) (mayBeAbsent : run.MayBeAbsent t) :
    run.absentWhenPossible.value t = none := by
  rcases mayBeAbsent with ⟨k, registered, bound, absent⟩
  have holds : valueAfter object (run.slots n).operations k = none :=
    (valueAfter_eq inside registered).trans absent
  have chosen : valueAfter object (run.slots n).operations (run.absentWhenPossible.effects t) =
      none :=
    Windows.latest_spec (P := fun k => valueAfter object (run.slots n).operations k = none)
      ⟨Slot.completed_le_of_forall bound, registered⟩ holds
  rw [valueAfter_eq inside (run.absentWhenPossible.registered t inside)] at chosen
  exact chosen

/-- A call which resumes from a superseded task returns `None`. -/
theorem ResumesSuperseded.answered {waiter : Waiter} (resumes : run.ResumesSuperseded t waiter)
    (inside : t < n) : (waiter.caller, .ok none) ∈ (run.slots (t + 1)).results := by
  rcases resumes with ⟨isResume, waits, task, fetched, found, fetchOrWrite, finished⟩
  have state := run.stateValid inside.le
  have steps := Slot.steps (run.steps t inside)
  rw [isResume] at steps
  generalize run.slots (t + 1) = next at steps ⊢
  cases steps with
  | @resume _ waiter' task' result waits' named found' done =>
    cases List.inj_on_of_nodup_map state.callers.distinct waits' waits named
    cases found.symm.trans found'
    rcases state.callers.awaited _ waits with ⟨task', found', retries⟩
    cases found.symm.trans found'
    have returns : ¬ waiter.retryAfterWait = true := fun retry => fetchOrWrite (retries.mp retry)
    have isNone : result = .ok none := by
      rw [Task.result?, finished, Option.some.injEq] at done
      rw [← done]
      cases operation : task.operation <;> rfl
    rw [isNone, Slot.proceed, if_neg returns]
    exact List.mem_append_right _ (List.mem_singleton_self _)

/-- Reads are linearizable exactly if a call which resumes from a superseded fetch or write has
seen a state in which the key may be absent. -/
theorem linearizable_iff (run : Run object n) : run.Linearizable ↔
    ∀ t < n, ∀ waiter, run.ResumesSuperseded t waiter →
      ∃ t' ≤ t, run.DuringCall waiter.caller t' ∧ run.MayBeAbsent t' := by
  constructor
  · rintro ⟨linearization, linearized⟩ t inside waiter resumes
    have answered := resumes.answered inside
    have kept := (run.later (by omega : t + 1 ≤ n) (Nat.le_refl n)).grows.results answered
    rcases linearized _ _ kept with ⟨t', inside', during, value⟩
    have earlier := during.lt inside'.le answered
    exact ⟨t', by omega, during, linearization.mayBeAbsent inside'.le value⟩
  · intro condition
    refine ⟨run.absentWhenPossible, ?_⟩
    intro caller payload mem
    cases justified (Nat.le_refl n) mem with
    | @held t' earlier during done stored =>
      refine ⟨t', earlier, during, ?_⟩
      rw [Linearization.value_eq _ earlier.le done, stored]
    | @superseded t' waiter earlier named resumes missing =>
      subst named missing
      rcases condition t' earlier waiter resumes with ⟨t'', order, during, mayBeAbsent⟩
      have inside : t'' < n := by omega
      exact ⟨t'', inside, during, absentWhenPossible_value inside.le mayBeAbsent⟩

/-- Without an `evict`, a key which has a value keeps one. -/
theorem valueAfter_ne_none {operations : List Operation} {k : ℕ} (present : object ≠ none)
    (noEvict : .evict ∉ operations) : valueAfter object operations k ≠ none := by
  induction k with
  | zero => exact present
  | succ k ih =>
    cases found : operations[k]? with
    | none =>
      rw [List.getElem?_eq_none_iff] at found
      rw [valueAfter, List.take_of_length_le (by omega)]
      rwa [valueAfter, List.take_of_length_le found] at ih
    | some operation =>
      rw [valueAfter_succ found]
      cases operation with
      | fetch => exact ih
      | put payload overwrite => exact Option.some_ne_none payload
      | evict => exact absurd (List.mem_of_getElem? found) noEvict

/-- A `put` is registered while a `get` awaits its fetch. -/
def overwrittenFetch : Run (some [97]) 6 where
  slots t := (([.get, .put [98] false, .call 0, .returns 0, .finish 0, .resume 0].take t).foldlM
    Slot.step (.initial (some [97]))).getD (.initial none)
  actions t := [.get, .put [98] false, .call 0, .returns 0, .finish 0, .resume 0].getD t .get
  starts := rfl
  steps := by decide
  succeeds := by decide

/-- The call returns `None`, and the key has a value all the time. -/
theorem not_linearizable_overwrittenFetch :
    (0, .ok none) ∈ (overwrittenFetch.slots 6).results ∧ ¬ overwrittenFetch.Linearizable := by
  have answered : (0, .ok none) ∈ (overwrittenFetch.slots 6).results := by decide
  refine ⟨answered, ?_⟩
  rintro ⟨linearization, linearized⟩
  rcases linearized 0 none answered with ⟨t, inside, -, absent⟩
  have noEvict : ∀ t < 6, .evict ∉ (overwrittenFetch.slots t).operations := by decide
  exact valueAfter_ne_none (by simp) (noEvict t inside) absent

end Run

end NanoVllm.Transfer
