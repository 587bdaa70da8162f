import NanoVllm.Scheduler.Decode
import NanoVllm.Memory.Run

/-!
# The schedule call

The outcomes of `_schedule_once` and of `schedule()`. From a valid state `schedule()` raises
nothing: a second retry cannot happen, because the first one leaves no running request. The batch
it returns is ready to run.
-/

namespace NanoVllm

open BlockManager

/-- A waiting request with scheduled tokens owns all its pages. -/
theorem Sequence.Waiting.full {seq : Sequence} {cfg : Config} (waiting : seq.Waiting cfg)
    (scheduled : 0 < seq.numScheduledTokens) : seq.blockTable.length = seq.numBlocks cfg := by
  have owned := waiting.owned
  by_contra short
  have idle := (waiting.retained (by omega)).2
  omega

/-- The pages of an uncompressed running request cover its computed tokens. -/
theorem Sequence.Running.owned {seq : Sequence} {cfg : Config} {bm : BlockManager} {kv : KvStore}
    {refs : BlockId → ℕ} {n : ℕ} (running : seq.Running cfg)
    (memory : SeqMemory cfg bm kv refs n seq) (uncompressed : seq.kvCompressed = false) :
    seq.computedTokens ≤ seq.blockTable.length * cfg.blockSize := by
  have last := running.last
  rw [memory.exact uncompressed, List.getLast?_range] at last
  split at last
  · cases last
  · next owned =>
    rw [Option.some.injEq] at last
    have covered := Nat.lt_div_mul_add (a := seq.computedTokens - 1) cfg.blockSize_pos
    rw [← last] at covered
    have split : seq.blockTable.length * cfg.blockSize =
        (seq.blockTable.length - 1) * cfg.blockSize + cfg.blockSize := by
      rw [← Nat.succ_mul, Nat.succ_eq_add_one, Nat.sub_add_cancel (Nat.pos_of_ne_zero owned)]
    omega

/-- The requests of the batch which `schedule()` returns. -/
def ScheduleOutcome.seqs : ScheduleOutcome → List SeqId
  | .batch seqs _ => seqs
  | .retry => []
  | .noRunnable => []

namespace Scheduler

variable {cfg : Config} {ids : Finset SeqId} {kv : KvStore} {env : ScheduleEnv cfg} {now : ℚ}
  {s s' : Scheduler} {i j : SeqId} {outcome : ScheduleOutcome} {batch held : List SeqId}
  {computed : Sequence → ℕ}

/-- The first step of `_schedule_once`. -/
def nextStep (s : Scheduler) : Scheduler := { s with stepId := s.stepId + 1 }

/-- The prefill phase of `_schedule_once`: it is skipped, or it runs its loop. -/
def Prefills (cfg : Config) (ids : Finset SeqId) (kv : KvStore) (env : ScheduleEnv cfg) (now : ℚ)
    (s : Scheduler) (st : PrefillState) : Prop :=
  (shouldSchedulePrefill cfg s.estimator s.seqs s.stepId now s.waiting s.running = true ∧
      PrefillState.Loops cfg ids kv env now (.start s) st) ∨
    (shouldSchedulePrefill cfg s.estimator s.seqs s.stepId now s.waiting s.running = false ∧
      st = .start s)

/-- The outcomes of `_schedule_once`. -/
inductive SchedulesOnce (cfg : Config) (ids : Finset SeqId) (kv : KvStore) (env : ScheduleEnv cfg)
    (now : ℚ) (s : Scheduler) : Scheduler → ScheduleOutcome → Prop
  | prefill {st : PrefillState} (prefills : Prefills cfg ids kv env now s.nextStep st)
      (batched : st.scheduledSeqs ≠ []) :
      SchedulesOnce cfg ids kv env now s st.scheduler (.batch st.scheduledSeqs true)
  | decode {st : PrefillState} {s' : Scheduler} {sched : List SeqId} {retry : Bool}
      (prefills : Prefills cfg ids kv env now s.nextStep st) (none : st.scheduledSeqs = [])
      (decodes : Decodes cfg ids kv now st.scheduler [] false s' sched retry)
      (batched : sched ≠ []) :
      SchedulesOnce cfg ids kv env now s { s' with running := sched ++ s'.running }
        (.batch sched false)
  | waits {st : PrefillState} {s' : Scheduler} {retry : Bool}
      (prefills : Prefills cfg ids kv env now s.nextStep st) (none : st.scheduledSeqs = [])
      (decodes : Decodes cfg ids kv now st.scheduler [] false s' [] retry)
      (pending : s'.pendingRestores ≠ []) :
      SchedulesOnce cfg ids kv env now s s' (.batch [] true)
  | retry {st : PrefillState} {s' : Scheduler}
      (prefills : Prefills cfg ids kv env now s.nextStep st) (none : st.scheduledSeqs = [])
      (decodes : Decodes cfg ids kv now st.scheduler [] false s' [] true)
      (idle : s'.pendingRestores = []) : SchedulesOnce cfg ids kv env now s s' .retry
  | noRunnable {st : PrefillState} {s' : Scheduler}
      (prefills : Prefills cfg ids kv env now s.nextStep st) (none : st.scheduledSeqs = [])
      (decodes : Decodes cfg ids kv now st.scheduler [] false s' [] false)
      (idle : s'.pendingRestores = []) : SchedulesOnce cfg ids kv env now s s' .noRunnable

theorem Prefills.valid {st : PrefillState} (prefills : Prefills cfg ids kv env now s st)
    (valid : Valid cfg ids kv Sequence.numCachedTokens [] [] s) : st.Valid cfg ids kv := by
  rcases prefills with ⟨-, loops⟩ | ⟨-, rfl⟩
  · exact loops.valid
  · exact PrefillState.start_valid valid

/-- The run of a prefill phase which has returned. -/
theorem Valid.prefills {sched : List SeqId}
    (valid : Valid cfg ids kv Sequence.numCachedTokens [] [] s)
    (prefilled : s.prefillPhase cfg env now = .ok (s', sched)) :
    ∃ st, Prefills cfg ids kv env now s st ∧ s' = st.scheduler ∧ sched = st.scheduledSeqs := by
  rcases valid.prefillPhase env now with ⟨st, prefilled', prefills⟩
  rw [prefilled] at prefilled'
  cases prefilled'
  exact ⟨st, prefills, rfl, rfl⟩

theorem Prefills.follows {st : PrefillState} (prefills : Prefills cfg ids kv env now s st) :
    Follows s st.scheduler := by
  rcases prefills with ⟨-, loops⟩ | ⟨-, rfl⟩
  · exact loops.follows
  · exact .refl s

theorem Valid.nextStep (valid : Valid cfg ids kv computed held batch s) :
    Valid cfg ids kv computed held batch s.nextStep :=
  valid.reorder (List.Perm.refl _) rfl rfl rfl rfl

/-- A prefill phase which schedules nothing leaves a state in which decoding may start. -/
theorem PrefillState.Valid.decodeValid {st : PrefillState} (valid : st.Valid cfg ids kv)
    (none : st.scheduledSeqs = []) : DecodeValid cfg ids kv [] st.scheduler where
  scheduler := none ▸ valid.scheduler
  single _ mem := absurd mem List.not_mem_nil

/-- `_schedule_once` raises nothing. -/
theorem Valid.scheduleOnce (valid : Valid cfg ids kv Sequence.numCachedTokens [] [] s)
    (env : ScheduleEnv cfg) (now : ℚ) :
    ∃ s' outcome, s.scheduleOnce cfg env now = .ok (s', outcome) ∧
      SchedulesOnce cfg ids kv env now s s' outcome := by
  obtain ⟨st, phase, prefills⟩ := valid.nextStep.prefillPhase env now
  have valid' := Prefills.valid prefills valid.nextStep
  unfold Scheduler.scheduleOnce
  change ∃ s' outcome, (s.nextStep.prefillPhase cfg env now >>= _) = _ ∧ _
  rw [phase, Py.ok_bind]
  by_cases batched : st.scheduledSeqs = []
  · obtain ⟨s', sched, retry, looped, decodes⟩ :=
      decodeLoop_spec env now (st.scheduler.running.length + 1) st.scheduler [] false
        (valid'.decodeValid batched) (Nat.lt_succ_self _)
    simp only [batched, ne_eq, not_true_eq_false, if_false, looped, Py.ok_bind]
    by_cases none : sched = []
    · subst none
      by_cases pending : s'.pendingRestores = []
      · cases retry with
        | true =>
          simp only [pending, not_true_eq_false, false_and, if_false, if_true]
          exact ⟨s', .retry, rfl, .retry prefills batched decodes pending⟩
        | false =>
          simp only [pending, not_true_eq_false, false_and, if_false, if_true,
            Bool.false_eq_true]
          exact ⟨s', .noRunnable, rfl, .noRunnable prefills batched decodes pending⟩
      · simp only [pending, not_false_eq_true, and_self, if_true]
        exact ⟨s', .batch [] true, rfl, .waits prefills batched decodes pending⟩
    · simp only [none, and_false, if_false]
      exact ⟨_, _, rfl, .decode prefills batched decodes none⟩
  · simp only [ne_eq, batched, not_false_eq_true, if_true]
    exact ⟨_, _, rfl, .prefill prefills batched⟩

/-! ## The batch -/

/-- The requests of a batch may run. -/
def BatchReady (cfg : Config) (isPrefill : Bool) (seqs : SeqId → Sequence) (batch : List SeqId) :
    Prop :=
  ∀ i ∈ batch, RunReady cfg isPrefill (seqs i)

/-- A request with scheduled tokens is waiting or running. -/
theorem Valid.scheduled_phase (valid : Valid cfg ids kv computed held batch s) (mem : i ∈ batch) :
    i ∈ ids ∧ 0 < (s.seqs i).numScheduledTokens ∧
      (((s.seqs i).status = .waiting ∧ (s.seqs i).Waiting cfg) ∨
        ((s.seqs i).status = .running ∧ (s.seqs i).Running cfg)) := by
  obtain ⟨known, scheduled⟩ := (valid.scheduled i).mp mem
  refine ⟨known, scheduled, ?_⟩
  have phase := (valid.request i known).phase
  unfold Sequence.Phase at phase
  split at phase
  · next status => exact .inl ⟨status, phase⟩
  · exact absurd phase.idle scheduled.ne'
  · next status => exact .inr ⟨status, phase⟩
  · exact absurd phase.idle scheduled.ne'
  · exact absurd phase.idle scheduled.ne'

/-- The requests of a prefill batch may run. -/
theorem PrefillState.Valid.runReady {st : PrefillState} (valid : st.Valid cfg ids kv)
    (mem : i ∈ st.scheduledSeqs) : RunReady cfg true (st.scheduler.seqs i) := by
  obtain ⟨known, scheduled, phase⟩ := valid.scheduler.scheduled_phase mem
  have uncompressed := valid.uncompressed i mem
  refine ⟨scheduled, fun _ => ⟨uncompressed, ?_⟩, nofun⟩
  rcases phase with ⟨-, waiting⟩ | ⟨-, running⟩
  · rw [waiting.full scheduled]
    exact waiting.short.le.trans (Sequence.numTokens_le cfg _)
  · exact running.owned (valid.scheduler.memory.request i known) uncompressed

/-- The requests of a decode batch may run. -/
theorem DecodeValid.runReady (valid : DecodeValid cfg ids kv batch s) (mem : i ∈ batch) :
    (s.seqs i).status = .running ∧ RunReady cfg false (s.seqs i) := by
  obtain ⟨known, status, running⟩ :=
    valid.scheduler.running (List.mem_append_right s.running mem)
  have single := valid.single i mem
  have complete := running.complete (by omega)
  have last := running.last
  rw [complete] at last
  exact ⟨status, by omega, nofun, fun _ => ⟨single, complete, last⟩⟩

/-- What holds after a call of `_schedule_once`. -/
structure Returns (cfg : Config) (ids : Finset SeqId) (kv : KvStore) (s' : Scheduler)
    (outcome : ScheduleOutcome) : Prop where
  valid : Valid cfg ids kv Sequence.numCachedTokens [] outcome.seqs s'
  ready : ∀ seqs isPrefill, outcome = .batch seqs isPrefill →
    BatchReady cfg isPrefill s'.seqs seqs

theorem SchedulesOnce.returns (schedules : SchedulesOnce cfg ids kv env now s s' outcome)
    (valid : Valid cfg ids kv Sequence.numCachedTokens [] [] s) :
    Returns cfg ids kv s' outcome := by
  cases schedules with
  | prefill prefills batched =>
    have valid' := prefills.valid valid.nextStep
    refine ⟨valid'.scheduler, ?_⟩
    rintro seqs isPrefill same i mem
    cases same
    exact valid'.runReady mem
  | @decode st s' sched retry prefills none decodes batched =>
    have valid' := decodes.valid
    refine ⟨valid'.scheduler.reorder ?_ rfl rfl rfl rfl, ?_⟩
    · rw [List.append_nil]
      exact List.perm_append_comm
    · rintro seqs isPrefill same i mem
      cases same
      exact (valid'.runReady mem).2
  | waits prefills none decodes pending =>
    refine ⟨decodes.valid.scheduler, ?_⟩
    rintro seqs isPrefill same i mem
    cases same
    exact absurd mem List.not_mem_nil
  | retry prefills none decodes idle => exact ⟨decodes.valid.scheduler, nofun⟩
  | noRunnable prefills none decodes idle => exact ⟨decodes.valid.scheduler, nofun⟩

theorem SchedulesOnce.follows (schedules : SchedulesOnce cfg ids kv env now s s' outcome) :
    Follows s.nextStep s' := by
  cases schedules with
  | prefill prefills _ => exact prefills.follows
  | decode prefills _ decodes _ =>
    exact (prefills.follows.trans decodes.follows).trans (.of_seqs rfl rfl rfl rfl)
  | waits prefills _ decodes _ => exact prefills.follows.trans decodes.follows
  | retry prefills _ decodes _ => exact prefills.follows.trans decodes.follows
  | noRunnable prefills _ decodes _ => exact prefills.follows.trans decodes.follows

/-! ## The retry -/

namespace PrefillState

variable {st st' : PrefillState} {control : PrefillControl}

theorem deferBudget_state_eq (st : PrefillState) :
    (st.deferBudget cfg i).state.scheduler = st.scheduler ∧
      (st.deferBudget cfg i).state.scheduledSeqs = st.scheduledSeqs := by
  rw [deferBudget_state]
  exact ⟨rfl, rfl⟩

/-- An iteration after which nothing is scheduled leaves the running requests alone. -/
theorem Iterates.unscheduled (iterates : Iterates cfg env now st control)
    (none : control.state.scheduledSeqs = []) :
    st.scheduledSeqs = [] ∧ control.state.scheduler.running = st.scheduler.running := by
  cases iterates with
  | ineligible _ => exact ⟨none, rfl⟩
  | exhausted _ _ => exact ⟨none, rfl⟩
  | stuck _ _ _ _ reclaims _ => exact ⟨none, reclaims.running⟩
  | @admits i s' _ selects budget prepares admits =>
    rw [← prepares.running]
    cases admits with
    | blocked same table longest lacking =>
      obtain ⟨scheduler, scheduledSeqs, -⟩ := allocationBlocked_state _
      rw [scheduledSeqs] at none
      exact ⟨none, by rw [scheduler]⟩
    | forbidden same table busy =>
      obtain ⟨scheduler, scheduledSeqs⟩ := deferBudget_state_eq _
      rw [scheduledSeqs] at none
      exact ⟨none, by rw [scheduler]⟩
    | restored started => exact ⟨none, started.running⟩
    | postponed batched _ _ => exact absurd none batched
    | @scheduled st' schedules =>
      change st'.scheduledSeqs = [] at none
      rw [schedules.scheduledSeqs] at none
      simp at none

/-- A prefill phase which schedules nothing leaves the running requests alone. -/
theorem Loops.unscheduled (loops : Loops cfg ids kv env now st st')
    (none : st'.scheduledSeqs = []) :
    st.scheduledSeqs = [] ∧ st'.scheduler.running = st.scheduler.running := by
  induction loops with
  | stop _ _ => exact ⟨none, rfl⟩
  | leave _ _ iterates _ => exact iterates.unscheduled none
  | again _ _ iterates _ _ ih =>
    obtain ⟨none', running⟩ := ih none
    obtain ⟨none'', running'⟩ := iterates.unscheduled none'
    exact ⟨none'', running.trans running'⟩

end PrefillState

theorem Prefills.running {st : PrefillState} (prefills : Prefills cfg ids kv env now s st)
    (none : st.scheduledSeqs = []) : st.scheduler.running = s.running := by
  rcases prefills with ⟨-, loops⟩ | ⟨-, rfl⟩
  · exact (loops.unscheduled none).2
  · rfl

/-- A retry leaves no running request. -/
theorem SchedulesOnce.running_of_retry (schedules : SchedulesOnce cfg ids kv env now s s' .retry) :
    s'.running = [] := by
  cases schedules with
  | retry _ _ decodes _ => exact (decodes.progress decodes.positive rfl).1

/-- Without running requests `_schedule_once` does not ask for a retry. -/
theorem SchedulesOnce.ne_retry (schedules : SchedulesOnce cfg ids kv env now s s' outcome)
    (alone : s.running = []) : outcome ≠ .retry := by
  rintro rfl
  cases schedules with
  | retry prefills none decodes _ =>
    have running := (prefills.running none).trans alone
    generalize before : false = first at decodes
    generalize after : true = last at decodes
    cases decodes with
    | stop _ _ => exact absurd (before.trans after.symm) (by decide)
    | scheduled _ _ selected _ _ _ _ =>
      have mem := selectNext_mem selected
      rw [running] at mem
      cases mem
    | preempted _ _ selected _ _ _ =>
      have mem := selectNext_mem selected
      rw [running] at mem
      cases mem

/-- The runs of `schedule()`, which retries the prefill phase at most once. -/
inductive SchedulesAll (cfg : Config) (ids : Finset SeqId) (kv : KvStore) (env : ScheduleEnv cfg)
    (s : Scheduler) : Scheduler → ScheduleOutcome → Prop
  | once {s' : Scheduler} {outcome : ScheduleOutcome}
      (schedules : SchedulesOnce cfg ids kv env env.now s s' outcome) (done : outcome ≠ .retry) :
      SchedulesAll cfg ids kv env s s' outcome
  | again {s₁ s' : Scheduler} {outcome : ScheduleOutcome}
      (first : SchedulesOnce cfg ids kv env env.now s s₁ .retry)
      (schedules : SchedulesOnce cfg ids kv env env.retryNow s₁ s' outcome)
      (done : outcome ≠ .retry) : SchedulesAll cfg ids kv env s s' outcome

/-- `schedule()` raises nothing: the second attempt of a retry needs no third. -/
theorem Valid.schedule (valid : Valid cfg ids kv Sequence.numCachedTokens [] [] s)
    (env : ScheduleEnv cfg) :
    ∃ s' outcome, s.schedule cfg env = .ok (s', outcome) ∧
      SchedulesAll cfg ids kv env s s' outcome := by
  obtain ⟨s₁, outcome, scheduled, first⟩ := valid.scheduleOnce env env.now
  unfold Scheduler.schedule
  rw [scheduled, Py.ok_bind]
  by_cases retries : outcome = .retry
  · subst retries
    have valid' : Valid cfg ids kv Sequence.numCachedTokens [] [] s₁ :=
      (first.returns valid).valid
    obtain ⟨s', outcome', scheduled', schedules⟩ := valid'.scheduleOnce env env.retryNow
    have done := schedules.ne_retry first.running_of_retry
    simp only [ne_eq, not_true_eq_false, if_false, scheduled', Py.ok_bind, done,
      not_false_eq_true, if_true]
    exact ⟨s', outcome', rfl, .again first schedules done⟩
  · simp only [ne_eq, retries, not_false_eq_true, if_true]
    exact ⟨s₁, outcome, rfl, .once first retries⟩

theorem SchedulesAll.returns (schedules : SchedulesAll cfg ids kv env s s' outcome)
    (valid : Valid cfg ids kv Sequence.numCachedTokens [] [] s) :
    Returns cfg ids kv s' outcome := by
  cases schedules with
  | once schedules _ => exact schedules.returns valid
  | again first schedules _ => exact schedules.returns (first.returns valid).valid

/-- `schedule()` advances the step and otherwise only schedules. -/
theorem SchedulesAll.follows (schedules : SchedulesAll cfg ids kv env s s' outcome) :
    ∃ stepId, s.stepId < stepId ∧ Follows { s with stepId } s' := by
  cases schedules with
  | once schedules _ => exact ⟨s.stepId + 1, Nat.lt_succ_self _, schedules.follows⟩
  | @again s₁ _ _ first schedules _ =>
    have before := first.follows
    have joined : Follows { s with stepId := s₁.nextStep.stepId } s₁.nextStep :=
      ⟨before.request, before.ended, before.restores, before.started, rfl, before.estimator⟩
    refine ⟨s₁.nextStep.stepId, ?_, joined.trans schedules.follows⟩
    have step := before.stepId
    change s₁.stepId = s.stepId + 1 at step
    change s.stepId < s₁.stepId + 1
    omega

end Scheduler

end NanoVllm
