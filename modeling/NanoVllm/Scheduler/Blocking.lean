import NanoVllm.Scheduler.Progress
import NanoVllm.Scheduler.Urgency

/-!
# Blocked prefill phases

When no request is running and no waiting one owns pages, nothing but the queue, the limits and
the free pages decide whether the prefill phase finds work. A phase which has found none leaves a
scheduler in which the next phase finds none either: the waiting requests age alike, so the same
one is selected, and it still lacks pages.
-/

namespace NanoVllm

open BlockManager

namespace Scheduler

variable {cfg : Config} {env : ScheduleEnv cfg} {now : ℚ} {ids : Finset SeqId} {kv : KvStore}
  {sched sched' : List SeqId} {retry retry' isPrefill : Bool} {s s' : Scheduler} {i : SeqId}

/-! ## Selections of a later step -/

/-- One step later the budget of a request which has arrived has aged by one step. -/
theorem palsBudgetMs_succ (estimator : ExecutionTimeEstimator) {seq : Sequence} {step : ℕ}
    (arrived : seq.arrivalStep ≤ step) (now : ℚ) :
    palsBudgetMs cfg estimator seq (step + 1) now =
      palsBudgetMs cfg estimator seq step now - cfg.qosAgingMsPerStep := by
  have later : step + 1 - seq.arrivalStep = step - seq.arrivalStep + 1 := by omega
  simp only [palsBudgetMs, later, Nat.cast_add, Nat.cast_one, add_mul, one_mul]
  ring

/-- The selection does not change when all budgets change by the same amount. -/
theorem selectNext_congr {estimator : ExecutionTimeEstimator} {seqs seqs' : SeqId → Sequence}
    {step step' : ℕ} {queue : List SeqId} (shift : ℚ)
    (budgets : ∀ i ∈ queue, palsBudgetMs cfg estimator (seqs' i) step' now =
      palsBudgetMs cfg estimator (seqs i) step now - shift)
    (arrivals : ∀ i ∈ queue, (seqs' i).arrivalStep = (seqs i).arrivalStep) :
    selectNext cfg estimator seqs' step' now queue = selectNext cfg estimator seqs step now queue := by
  by_cases empty : queue = []
  · subst empty
    unfold selectNext
    split
    · rfl
    · rfl
  rcases selectNext_isSome cfg estimator seqs step now empty with ⟨i, selected⟩
  rcases selectNext_isSome cfg estimator seqs' step' now empty with ⟨j, selected'⟩
  have least := selectNext_mem selected
  have least' := selectNext_mem selected'
  rw [selected, selected']
  unfold selectNext at selected selected'
  split at selected
  · next fcfs =>
    simp only [fcfs] at selected'
    exact selected'.symm.trans selected
  · next pals =>
    simp only [pals] at selected'
    have before := List.le_of_mem_argmin least' selected
    have after := List.le_of_mem_argmin least selected'
    have kept : palsKey cfg estimator seqs step now j ≤ palsKey cfg estimator seqs step now i := by
      simpa [palsKey, Prod.Lex.toLex_le_toLex, budgets i least, budgets j least', arrivals i least,
        arrivals j least'] using after
    rw [palsKey_injective cfg estimator seqs step now (le_antisymm before kept)]

/-! ## Blocked schedulers -/

/-- No request can lose pages: none is running, and no waiting one owns any. -/
structure Unowned (s : Scheduler) : Prop where
  alone : s.running = []
  fresh : s.owners = ∅

/-- What keeps a prefill phase from scheduling waiting requests without pages. -/
inductive Blocked (cfg : Config) (now : ℚ) (s : Scheduler) : Prop
  | unqueued (waiting : s.waiting = []) : Blocked cfg now s
  | unbatched (none : cfg.maxNumSeqs = 0) : Blocked cfg now s
  | spent (none : cfg.maxNumBatchedTokens = 0) : Blocked cfg now s
  | limited {limit : ℕ} (configured : cfg.maxNumActiveSeqs = some limit)
      (reached : limit ≤ s.residentCount) : Blocked cfg now s
  | lacking {i : SeqId} {matched : List BlockId}
      (selected : selectNext cfg s.estimator s.seqs s.stepId now s.waiting = some i)
      (longest : Matches cfg s.blockManager (s.seqs i) matched)
      (lacking : ¬Fits cfg s.blockManager (s.seqs i) matched) : Blocked cfg now s

theorem Unowned.table (unowned : s.Unowned) (mem : i ∈ s.waiting) : (s.seqs i).blockTable = [] := by
  by_contra owns
  have owner := mem_owners.mpr ⟨mem, owns⟩
  rw [unowned.fresh] at owner
  exact Finset.notMem_empty i owner

theorem Unowned.of_table (alone : s.running = [])
    (table : ∀ i ∈ s.waiting, (s.seqs i).blockTable = []) : s.Unowned := by
  refine ⟨alone, Finset.eq_empty_of_forall_notMem ?_⟩
  intro i owner
  rcases mem_owners.mp owner with ⟨mem, owns⟩
  exact owns (table i mem)

theorem Unowned.withBudget (unowned : s.Unowned) (budget : Option ℚ) :
    (s.withBudget i budget).Unowned := by
  refine .of_table unowned.alone ?_
  intro j mem
  have table := unowned.table mem
  by_cases same : j = i
  · subst same
    simpa [Scheduler.withBudget, Scheduler.setSeq] using table
  · simpa [Scheduler.withBudget, Scheduler.setSeq, same] using table

/-- A blocked scheduler stays so in the next step. -/
theorem Blocked.nextStep (blocked : s.Blocked cfg now)
    (arrived : ∀ i ∈ s.waiting, (s.seqs i).arrivalStep ≤ s.stepId) :
    s.nextStep.Blocked cfg now := by
  cases blocked with
  | unqueued waiting => exact .unqueued waiting
  | unbatched none => exact .unbatched none
  | spent none => exact .spent none
  | limited configured reached => exact .limited configured reached
  | lacking selected longest lacking =>
    refine .lacking ?_ longest lacking
    rw [← selected]
    apply selectNext_congr cfg.qosAgingMsPerStep
    · intro i mem
      exact palsBudgetMs_succ s.estimator (arrived i mem) now
    · intro i _
      rfl

namespace PrefillState

variable {st st' : PrefillState} {control : PrefillControl}

/-- A state in which the loop has skipped no request and nobody can lose pages. -/
structure Skips (st : PrefillState) : Prop where
  unowned : st.scheduler.Unowned
  undeferred : st.budgetDeferred = ∅
  unrestricted : st.residentProgressOnly = false

/-- Without owners every waiting request is eligible, or the limit of active requests is reached. -/
theorem Skips.eligible (skips : st.Skips) : st.eligible cfg now =
    if ∃ limit ∈ cfg.maxNumActiveSeqs, limit ≤ st.scheduler.residentCount then none
    else some st.scheduler.waiting := by
  have kept : st.kept = st.scheduler.waiting := by
    rw [PrefillState.kept, if_pos skips.undeferred, candidates]
    simp [skips.unrestricted]
  have owning : st.kept.filter st.scheduler.ownsBlocks = [] := by
    apply List.filter_eq_nil_iff.mpr
    intro i mem
    rw [kept] at mem
    simp [ownsBlocks, skips.unowned.table mem]
  rw [eligible_eq, owning, prefersPrefill_nil, kept]
  simp [skips.unrestricted, skips.undeferred]

/-- An iteration which blocks a request leaves the loop. -/
theorem Skips.allocationBlocked (skips : st.Skips) : st.allocationBlocked cfg i = .leave st := by
  have nobody : st.scheduler.waiting.any st.scheduler.ownsBlocks = false := by
    apply List.any_eq_false.mpr
    intro j mem
    simp [ownsBlocks, skips.unowned.table mem]
  simp [PrefillState.allocationBlocked, nobody, skips.unowned.alone]

/-- The selection does not read the recorded budgets. -/
theorem selectNext_withBudget (s : Scheduler) (i : SeqId) (budget : Option ℚ) (queue : List SeqId) :
    selectNext cfg s.estimator (s.withBudget i budget).seqs s.stepId now queue =
      selectNext cfg s.estimator s.seqs s.stepId now queue := by
  have same : ∀ j, (s.withBudget i budget).seqs j = s.seqs j ∨
      (s.withBudget i budget).seqs j = { s.seqs j with lastBudgetMs := budget } := by
    intro j
    by_cases differ : j = i
    · subst differ
      exact .inr (Function.update_self _ _ _)
    · exact .inl (Function.update_of_ne differ _ _)
  apply selectNext_congr 0
  · intro j _
    rw [sub_zero]
    rcases same j with unchanged | marked
    · rw [unchanged]
    · rw [marked]
      rfl
  · intro j _
    rcases same j with unchanged | marked
    · rw [unchanged]
    · rw [marked]

/-- Marking a request with its budget and looking for its pages. -/
theorem Skips.marked (skips : st.Skips) (i : SeqId) (budget : Option ℚ) (bm : BlockManager) :
    ({ st with scheduler := { st.scheduler.withBudget i budget with blockManager := bm } } :
      PrefillState).Skips :=
  ⟨.of_table skips.unowned.alone fun _ mem => (skips.unowned.withBudget budget).table mem,
    skips.undeferred, skips.unrestricted⟩

/-- Why an iteration leaves the loop when it has scheduled nothing. -/
theorem Skips.leave (skips : st.Skips) (valid : st.Valid cfg ids kv)
    (iterates : Iterates cfg env now st (.leave st')) (none : st'.scheduledSeqs = []) :
    st'.scheduler.Blocked cfg now ∧ st'.scheduler.Unowned := by
  generalize outcome : PrefillControl.leave st' = control at iterates
  cases iterates with
  | ineligible none_eligible =>
    cases outcome
    refine ⟨?_, skips.unowned⟩
    rw [skips.eligible] at none_eligible
    split at none_eligible
    · next limited =>
      rcases limited with ⟨limit, configured, reached⟩
      exact .limited configured reached
    · cases none_eligible
  | @exhausted i budget selects spent =>
    cases outcome
    rw [valid.unbatched none, Nat.le_zero] at spent
    exact ⟨.spent spent, skips.unowned.withBudget budget⟩
  | stuck selects _ table _ _ _ => exact absurd (skips.unowned.table selects.mem.1) table
  | @admits i s' _ selects budget prepares admits =>
    rcases prepares.fresh (skips.unowned.table selects.mem.1) with ⟨marked, rfl⟩
    cases admits with
    | @blocked bm' matched same fresh longest lacking =>
      have skips' := skips.marked i marked bm'
      rw [skips'.allocationBlocked] at outcome
      cases outcome
      refine ⟨.lacking ?_ longest lacking, skips'.unowned⟩
      rcases selects with ⟨eligible, found, selected⟩
      rw [skips.eligible] at found
      split at found
      · cases found
      · cases found
        exact (selectNext_withBudget st.scheduler i marked _).trans selected
    | forbidden _ _ busy => exact absurd skips.unowned.alone busy
    | restored _ => cases outcome
    | postponed batched _ _ =>
      cases outcome
      exact absurd none batched
    | scheduled _ => cases outcome

/-- An iteration which goes on without scheduling anything has started a restore. -/
theorem Skips.again (skips : st.Skips) (valid : st.Valid cfg ids kv)
    (iterates : Iterates cfg env now st (.again st')) (none : st'.scheduledSeqs = []) :
    st'.Skips := by
  generalize outcome : PrefillControl.again st' = control at iterates
  cases iterates with
  | ineligible _ => cases outcome
  | exhausted _ _ => cases outcome
  | stuck _ _ _ _ _ _ => cases outcome
  | @admits i s' _ selects budget prepares admits =>
    rcases prepares.fresh (skips.unowned.table selects.mem.1) with ⟨marked, rfl⟩
    cases admits with
    | @blocked bm' matched same fresh longest lacking =>
      rw [(skips.marked i marked bm').allocationBlocked] at outcome
      cases outcome
    | forbidden _ _ busy => exact absurd skips.unowned.alone busy
    | restored started =>
      cases outcome
      refine ⟨.of_table (started.running.trans skips.unowned.alone) ?_, skips.undeferred,
        skips.unrestricted⟩
      intro j mem
      rw [started.waiting] at mem
      rcases (valid.scheduler.distinct .waiting).mem_erase_iff.mp mem with ⟨differ, mem'⟩
      rcases started.seqs with ⟨seq, seqs⟩
      rw [seqs, Function.update_of_ne differ]
      exact (skips.unowned.withBudget marked).table mem'
    | postponed _ _ _ => cases outcome
    | scheduled schedules =>
      cases outcome
      simp [schedules.scheduledSeqs] at none

/-- A loop which schedules nothing ends in a blocked scheduler. -/
theorem Loops.blocked (loops : Loops cfg ids kv env now st st') (skips : st.Skips)
    (none : st'.scheduledSeqs = []) :
    st'.scheduler.Blocked cfg now ∧ st'.scheduler.Unowned := by
  induction loops with
  | @stop st _ stops =>
    refine ⟨?_, skips.unowned⟩
    by_cases waiting : st.scheduler.waiting = []
    · exact .unqueued waiting
    · apply Blocked.unbatched
      rw [Continues, not_and, none, List.length_nil, Nat.not_lt, Nat.le_zero] at stops
      exact stops waiting
  | leave valid _ iterates _ => exact skips.leave valid iterates none
  | again valid _ iterates _ rest ih =>
    apply ih _ none
    exact skips.again valid iterates (rest.unscheduled none).1

/-- A request which lacks pages is blocked and leaves the loop. -/
theorem Skips.admitFresh (skips : st.Skips) (index : st.scheduler.blockManager.IndexValid cfg)
    {matched : List BlockId}
    (longest : Matches cfg st.scheduler.blockManager (st.scheduler.seqs i) matched)
    (lacking : ¬Fits cfg st.scheduler.blockManager (st.scheduler.seqs i) matched)
    (env : ScheduleEnv cfg) (remaining : ℕ) :
    ∃ bm', st.admitFresh cfg env i remaining now =
      .ok (.leave { st with scheduler := { st.scheduler with blockManager := bm' } }) := by
  rcases canAllocate_spec index (st.scheduler.seqs i) with
    ⟨bm', matched', longest', -, -, ⟨fits, -⟩ | ⟨-, checked, -⟩⟩
  · rw [longest'.unique longest] at fits
    exact absurd fits lacking
  · refine ⟨bm', ?_⟩
    have skips' : ({ st with scheduler := { st.scheduler with blockManager := bm' } } :
        PrefillState).Skips :=
      ⟨.of_table skips.unowned.alone fun _ mem => skips.unowned.table mem, skips.undeferred,
        skips.unrestricted⟩
    unfold PrefillState.admitFresh
    rw [checked]
    exact congrArg Except.ok skips'.allocationBlocked

/-- A blocked iteration leaves the loop. -/
theorem iterate_blocked (blocked : s.Blocked cfg now) (unowned : s.Unowned)
    (index : s.blockManager.IndexValid cfg) (env : ScheduleEnv cfg) (waiting : s.waiting ≠ [])
    (sequences : cfg.maxNumSeqs ≠ 0) :
    ∃ s', (start s).iterate cfg env now = .ok (.leave { start s with scheduler := s' }) ∧
      s'.running = [] ∧ s'.pendingRestores = s.pendingRestores := by
  have skips : (start s).Skips := ⟨unowned, rfl, rfl⟩
  have eligible := @Skips.eligible cfg now (start s) skips
  by_cases limited : ∃ limit ∈ cfg.maxNumActiveSeqs, limit ≤ s.residentCount
  · have ineligible := eligible.trans (if_pos limited)
    unfold PrefillState.iterate
    rw [ineligible]
    exact ⟨s, rfl, unowned.alone, rfl⟩
  · rcases selectNext_isSome cfg s.estimator s.seqs s.stepId now waiting with ⟨i, selected⟩
    have selects : Selects cfg now (start s) i := ⟨_, eligible.trans (if_neg limited), selected⟩
    have table : (((start s).scheduler.selectPrefill cfg i now).seqs i).blockTable = [] :=
      (selectPrefill_table cfg s i now i).trans (unowned.table (selectNext_mem selected))
    rw [iterate_of_selects selects env]
    by_cases remaining : cfg.maxNumBatchedTokens - (start s).numBatchedTokens = 0
    · rw [if_pos remaining]
      exact ⟨_, rfl, unowned.alone, rfl⟩
    · rw [if_neg remaining, if_pos table]
      cases blocked with
      | unqueued none => exact absurd none waiting
      | unbatched none => exact absurd none sequences
      | spent none => exact absurd (by rw [none, Nat.zero_sub]) remaining
      | limited configured reached => exact absurd ⟨_, configured, reached⟩ limited
      | @lacking j matched selected' longest lacking =>
        cases selected.symm.trans selected'
        have self : (s.selectPrefill cfg i now).seqs i = { s.seqs i with
          lastBudgetMs := budgetMs cfg s.estimator (s.seqs i) s.stepId now } :=
            Function.update_self _ _ _
        have marked : ({ start s with scheduler := s.selectPrefill cfg i now } :
          PrefillState).Skips := ⟨unowned.withBudget _, rfl, rfl⟩
        have longest' : Matches cfg s.blockManager ((s.selectPrefill cfg i now).seqs i) matched := by
          rw [self]
          exact longest
        have lacking' : ¬Fits cfg s.blockManager ((s.selectPrefill cfg i now).seqs i) matched := by
          rw [self]
          exact lacking
        rcases marked.admitFresh index longest' lacking' env
          (cfg.maxNumBatchedTokens - (start s).numBatchedTokens) with ⟨bm', admitted⟩
        exact ⟨_, admitted, unowned.alone, rfl⟩

end PrefillState

/-- The prefill phase of a blocked scheduler schedules nothing. -/
theorem Blocked.prefillPhase (blocked : s.Blocked cfg now) (unowned : s.Unowned)
    (index : s.blockManager.IndexValid cfg) (env : ScheduleEnv cfg) :
    ∃ s', s.prefillPhase cfg env now = .ok (s', []) ∧ s'.running = [] ∧
      s'.pendingRestores = s.pendingRestores := by
  unfold Scheduler.prefillPhase
  split
  · change ∃ s', (PrefillState.loop cfg env now _ (.start s) >>= _) = _ ∧ _
    rw [PrefillState.loop]
    split
    · exact ⟨s, rfl, unowned.alone, rfl⟩
    · next continues =>
      rw [not_or, Nat.not_le] at continues
      rcases PrefillState.iterate_blocked blocked unowned index env continues.1
        (Nat.ne_of_gt continues.2) with ⟨s', iterated, alone, pending⟩
      rw [iterated]
      exact ⟨s', rfl, alone, pending⟩
  · exact ⟨s, rfl, unowned.alone, rfl⟩

/-- A pass of a blocked scheduler with pending restores waits for them. -/
theorem Blocked.scheduleOnce (blocked : s.nextStep.Blocked cfg now) (unowned : s.Unowned)
    (index : s.blockManager.IndexValid cfg) (pending : s.pendingRestores ≠ [])
    (env : ScheduleEnv cfg) :
    ∃ s', s.scheduleOnce cfg env now = .ok (s', .batch [] true) := by
  rcases blocked.prefillPhase ⟨unowned.alone, unowned.fresh⟩ index env with
    ⟨s', phase, alone, pending'⟩
  have pending'' : s'.pendingRestores ≠ [] := by
    rw [pending']
    exact pending
  have looped : decodeLoop cfg env now (s'.running.length + 1) s' [] false =
      .ok (s', [], false) := by
    rw [decodeLoop, if_pos (.inl alone)]
  refine ⟨s', ?_⟩
  unfold Scheduler.scheduleOnce
  change (s.nextStep.prefillPhase cfg env now >>= _) = _
  rw [phase, Py.ok_bind]
  simp [looped, Py.ok_bind, pending'']

/-! ## Passes which schedule nothing -/

namespace PrefillState

variable {st st' : PrefillState} {control : PrefillControl}

theorem owners_eq_empty (table : ∀ i ∈ s.waiting, s.ownsBlocks i = false) : s.owners = ∅ := by
  apply Finset.eq_empty_of_forall_notMem
  intro i owner
  rcases mem_owners.mp owner with ⟨mem, owns⟩
  exact owns (by simpa [ownsBlocks] using table i mem)

/-- Without running requests only the lack of owners makes all requests ineligible. -/
theorem owners_of_ineligible (alone : st.scheduler.running = [])
    (undeferred : st.budgetDeferred = ∅) (ineligible : st.eligible cfg now = none) :
    st.scheduler.owners = ∅ := by
  have kept : st.kept = st.candidates := if_pos undeferred
  have candidates : st.candidates.filter st.scheduler.ownsBlocks = [] := by
    rw [eligible_eq] at ineligible
    split at ineligible
    · next restricted => rw [restricted.2, List.filter_nil]
    · split at ineligible
      · next deferred => exact absurd undeferred deferred.1
      · split at ineligible
        · split at ineligible
          · cases ineligible
          · next refused =>
            by_contra owning
            rw [kept] at refused
            exact refused (prefersPrefill_alone alone owning)
        · cases ineligible
  apply owners_eq_empty
  intro i mem
  by_contra owns
  rw [Bool.not_eq_false] at owns
  have candidate : i ∈ st.candidates := by
    apply mem_candidates.mpr
    exact ⟨mem, fun _ => by simpa [ownsBlocks] using owns⟩
  have inside := List.mem_filter.mpr ⟨candidate, owns⟩
  rw [candidates] at inside
  cases inside

/-- An iteration without running requests leaves the loop when nobody owns pages. -/
theorem Iterates.owners_of_leave (iterates : Iterates cfg env now st (.leave st'))
    (valid : st.Valid cfg ids kv) (tokens : 1 ≤ cfg.maxNumBatchedTokens)
    (alone : st.scheduler.running = []) (undeferred : st.budgetDeferred = ∅)
    (none : st'.scheduledSeqs = []) : st'.scheduler.owners = ∅ := by
  have unscheduled := (iterates.unscheduled none).1
  generalize outcome : PrefillControl.leave st' = control at iterates
  cases iterates with
  | ineligible ineligible =>
    cases outcome
    exact owners_of_ineligible alone undeferred ineligible
  | exhausted _ spent =>
    rw [valid.unbatched unscheduled] at spent
    omega
  | stuck _ _ _ _ _ lacking =>
    cases outcome
    exact (lacking.resolve_left fun busy => busy alone).1
  | @admits i s' _ _ _ prepares admits =>
    cases admits with
    | @blocked bm' _ _ _ _ _ =>
      have alone' : s'.running = [] := prepares.running.trans alone
      unfold PrefillState.allocationBlocked at outcome
      dsimp only at outcome
      split at outcome
      · cases outcome
      · next unowned =>
        rw [if_neg fun busy => busy.2 alone'] at outcome
        cases outcome
        apply owners_eq_empty
        intro j mem
        by_contra owns
        rw [Bool.not_eq_false] at owns
        exact unowned ⟨alone', List.any_eq_true.mpr ⟨j, mem, owns⟩⟩
    | forbidden _ _ busy => exact absurd (prepares.running.trans alone) busy
    | restored _ => cases outcome
    | postponed batched _ _ => exact absurd unscheduled batched
    | scheduled _ => cases outcome

/-- An iteration without running requests defers none. -/
theorem Iterates.undeferred (iterates : Iterates cfg env now st (.again st'))
    (alone : st.scheduler.running = []) (undeferred : st.budgetDeferred = ∅)
    (none : st'.scheduledSeqs = []) : st'.budgetDeferred = ∅ := by
  generalize outcome : PrefillControl.again st' = control at iterates
  cases iterates with
  | ineligible _ => cases outcome
  | exhausted _ _ => cases outcome
  | stuck _ _ _ _ _ _ => cases outcome
  | @admits i s' _ _ _ prepares admits =>
    cases admits with
    | @blocked bm' _ _ _ _ _ =>
      have alone' : s'.running = [] := prepares.running.trans alone
      unfold PrefillState.allocationBlocked at outcome
      dsimp only at outcome
      split at outcome
      · cases outcome
        exact undeferred
      · rw [if_neg fun busy => busy.2 alone'] at outcome
        cases outcome
    | forbidden _ _ busy => exact absurd (prepares.running.trans alone) busy
    | restored _ =>
      cases outcome
      exact undeferred
    | postponed _ _ _ => cases outcome
    | scheduled schedules =>
      cases outcome
      simp [schedules.scheduledSeqs] at none

/-- A loop without running requests which schedules nothing has reclaimed all pages. -/
theorem Loops.owners (loops : Loops cfg ids kv env now st st')
    (tokens : 1 ≤ cfg.maxNumBatchedTokens) (sequences : 1 ≤ cfg.maxNumSeqs)
    (alone : st.scheduler.running = []) (undeferred : st.budgetDeferred = ∅)
    (none : st'.scheduledSeqs = []) : st'.scheduler.owners = ∅ := by
  induction loops with
  | @stop st _ stops =>
    rw [Continues, not_and, none, List.length_nil, not_lt, Nat.le_zero] at stops
    have waiting : st.scheduler.waiting = [] := by
      by_contra waiting
      have := stops waiting
      omega
    apply owners_eq_empty
    intro i mem
    rw [waiting] at mem
    cases mem
  | leave valid _ iterates _ => exact iterates.owners_of_leave valid tokens alone undeferred none
  | again _ _ iterates _ rest ih =>
    have unscheduled := (rest.unscheduled none).1
    have running := (iterates.unscheduled unscheduled).2
    exact ih (running.trans alone) (iterates.undeferred alone undeferred unscheduled) none

end PrefillState

theorem Prefills.blocked {st : PrefillState} (prefills : Prefills cfg ids kv env now s st)
    (unowned : s.Unowned) (none : st.scheduledSeqs = []) :
    st.scheduler.Blocked cfg now ∧ st.scheduler.Unowned := by
  rcases prefills with ⟨-, loops⟩ | ⟨skips, rfl⟩
  · exact loops.blocked ⟨unowned, rfl, rfl⟩ none
  · refine ⟨.unqueued ?_, unowned⟩
    by_contra waiting
    have prefers := @PrefillState.prefersPrefill_alone cfg now (.start s) unowned.alone _ waiting
    exact Bool.false_ne_true (skips.symm.trans prefers)

/-- Without running requests the decode loop does nothing. -/
theorem Decodes.of_alone (decodes : Decodes cfg ids kv now s sched retry s' sched' retry')
    (alone : s.running = []) : s' = s := by
  cases decodes with
  | stop _ _ => rfl
  | scheduled _ _ selected _ _ _ _ =>
    have mem := selectNext_mem selected
    rw [alone] at mem
    cases mem
  | preempted _ _ selected _ _ _ =>
    have mem := selectNext_mem selected
    rw [alone] at mem
    cases mem

/-- A pass which returns no request has scheduled none, and a restore is pending. -/
theorem SchedulesOnce.of_empty
    (schedules : SchedulesOnce cfg ids kv env now s s' (.batch [] isPrefill)) :
    ∃ st retry, Prefills cfg ids kv env now s.nextStep st ∧ st.scheduledSeqs = [] ∧
      Decodes cfg ids kv now st.scheduler [] false s' [] retry ∧ s'.pendingRestores ≠ [] := by
  generalize outcome : ScheduleOutcome.batch [] isPrefill = result at schedules
  cases schedules with
  | prefill _ batched => exact absurd (ScheduleOutcome.batch.inj outcome).1.symm batched
  | decode _ _ _ batched => exact absurd (ScheduleOutcome.batch.inj outcome).1.symm batched
  | waits prefills none decodes pending => exact ⟨_, _, prefills, none, decodes, pending⟩
  | retry _ _ _ _ => cases outcome
  | noRunnable _ _ _ _ => cases outcome

/-- A pass without owners which returns no request leaves a blocked scheduler. -/
theorem SchedulesOnce.blocked
    (schedules : SchedulesOnce cfg ids kv env now s s' (.batch [] isPrefill))
    (unowned : s.Unowned) :
    s'.Blocked cfg now ∧ s'.Unowned ∧ s'.pendingRestores ≠ [] := by
  rcases schedules.of_empty with ⟨st, retry, prefills, none, decodes, pending⟩
  rcases prefills.blocked ⟨unowned.alone, unowned.fresh⟩ none with ⟨blocked, unowned'⟩
  cases decodes.of_alone unowned'.alone
  exact ⟨blocked, unowned', pending⟩

end Scheduler

end NanoVllm
