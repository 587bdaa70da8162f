import NanoVllm.Scheduler.Prefill

/-!
# The prefill loop

The outcomes of a whole iteration, the measure which every iteration that stays in the loop
decreases, and the invariant of the loop.
-/

namespace NanoVllm

open BlockManager

namespace Scheduler

variable {cfg : Config} {env : ScheduleEnv cfg} {ids : Finset SeqId} {kv : KvStore} {i j : SeqId} {st st' : PrefillState}
  {s s' : Scheduler} {bm' : BlockManager} {now : ℚ} {matched : List BlockId}
  {control : PrefillControl} {held batch : List SeqId}

/-- A selected request records the budget it was selected with. -/
def withBudget (s : Scheduler) (i : SeqId) (budget : Option ℚ) : Scheduler :=
  s.setSeq i { s.seqs i with lastBudgetMs := budget }

theorem withBudget_sameRequest (seq : Sequence) (budget : Option ℚ) :
    SameRequest seq { seq with lastBudgetMs := budget } :=
  ⟨rfl, rfl, rfl, rfl, rfl, rfl, rfl, rfl, rfl, Iff.rfl, id⟩

theorem withBudget_follows (budget : Option ℚ) (live : (s.seqs i).status.Live) :
    Follows s (s.withBudget i budget) :=
  .of_update rfl live (withBudget_sameRequest _ _) rfl rfl rfl

theorem phase_withBudget {seq : Sequence} (phase : seq.Phase cfg) (budget : Option ℚ) :
    ({ seq with lastBudgetMs := budget } : Sequence).Phase cfg := by
  unfold Sequence.Phase at *
  dsimp only
  split <;> rename_i status <;> rw [status] at phase
  · exact ⟨phase.uncompressed, phase.owned, phase.retained, phase.short, phase.physical⟩
  · exact ⟨phase.uncompressed, phase.full, phase.idle, phase.physical⟩
  · exact ⟨phase.nonempty, phase.last, phase.complete, phase.next, phase.physical⟩
  · exact ⟨phase.uncompressed, phase.table, phase.logical, phase.uncached, phase.idle⟩
  · exact ⟨phase.uncompressed, phase.table, phase.logical, phase.uncached, phase.idle⟩

theorem Valid.withBudget (valid : Valid cfg ids kv Sequence.numCachedTokens held batch s)
    (known : i ∈ ids) (notRestoring : (s.seqs i).status ≠ .waitingForKv) (budget : Option ℚ) :
    Valid cfg ids kv Sequence.numCachedTokens held batch (s.withBudget i budget) :=
  valid.setSeq known ⟨rfl, rfl, rfl, rfl, rfl, rfl⟩
    ((withBudget_sameRequest _ _).wellFormed (valid.request i known)
      (phase_withBudget (valid.request i known).phase budget)) rfl notRestoring Iff.rfl (le_refl _)

/-- The request which an iteration of the prefill loop selects, marked with its budget. -/
def selectPrefill (cfg : Config) (s : Scheduler) (i : SeqId) (now : ℚ) : Scheduler :=
  s.withBudget i (budgetMs cfg s.estimator (s.seqs i) s.stepId now)

theorem selectPrefill_table (cfg : Config) (s : Scheduler) (i : SeqId) (now : ℚ) (j : SeqId) :
    ((s.selectPrefill cfg i now).seqs j).blockTable = (s.seqs j).blockTable := by
  by_cases same : j = i
  · subst same
    simp [selectPrefill, withBudget, setSeq]
  · simp [selectPrefill, withBudget, setSeq, same]

namespace PrefillState

/-- An iteration which has selected a request. -/
theorem iterate_of_selects (selects : Selects cfg now st i) (env : ScheduleEnv cfg) :
    st.iterate cfg env now =
      if cfg.maxNumBatchedTokens - st.numBatchedTokens = 0 then
        .ok (.leave { st with scheduler := st.scheduler.selectPrefill cfg i now })
      else if ((st.scheduler.selectPrefill cfg i now).seqs i).blockTable = [] then
        ({ st with scheduler := st.scheduler.selectPrefill cfg i now } :
          PrefillState).admitFresh cfg env i (cfg.maxNumBatchedTokens - st.numBatchedTokens) now
      else (st.scheduler.selectPrefill cfg i now).ensureResumeCapacity cfg i now >>=
        fun (ensured : Scheduler × Bool) =>
          let st' : PrefillState := { st with scheduler := ensured.1 }
          if !ensured.2 then .ok (.leave st')
          else if (ensured.1.seqs i).blockTable = [] then
            st'.admitFresh cfg env i (cfg.maxNumBatchedTokens - st.numBatchedTokens) now
          else st'.admitResident cfg i (cfg.maxNumBatchedTokens - st.numBatchedTokens) now := by
  rcases selects with ⟨eligible, found, selected⟩
  simp only [PrefillState.iterate, found, selected]
  rfl

/-- What happens to the scheduler between the selection of a request and its admission. -/
structure Prepares (cfg : Config) (s : Scheduler) (i : SeqId) (s' : Scheduler) : Prop where
  waiting : s'.waiting = s.waiting
  running : s'.running = s.running
  pendingRestores : s'.pendingRestores = s.pendingRestores
  fresh : (s.seqs i).blockTable = [] → ∃ budget, s' = s.withBudget i budget
  unchanged : (s.seqs i).blockTable = [] ∨
    (s.seqs i).blockTable.length = (s.seqs i).numBlocks cfg →
      ∃ budget, s'.seqs = (s.withBudget i budget).seqs
  others : ∀ j, j ≠ i → s'.seqs j = s.seqs j ∨ (j ∈ s.waiting ∧ (s.seqs j).blockTable ≠ [] ∧
    ∃ freed invalidated, s'.seqs j = (s.seqs j).reclaimed cfg 0 freed invalidated)
  emptied : (s.seqs i).blockTable ≠ [] → (s'.seqs i).blockTable = [] → s.running = [] ∧
    ∃ matched, Matches cfg s'.blockManager (s'.seqs i) matched ∧
      Fits cfg s'.blockManager (s'.seqs i) matched

/-- The ways in which an iteration of the prefill loop ends. -/
inductive Iterates (cfg : Config) (env : ScheduleEnv cfg) (now : ℚ) (st : PrefillState) : PrefillControl → Prop
  | ineligible (none_eligible : st.eligible cfg now = none) : Iterates cfg env now st (.leave st)
  | exhausted {i : SeqId} {budget : Option ℚ} (selects : Selects cfg now st i)
      (spent : cfg.maxNumBatchedTokens ≤ st.numBatchedTokens) :
      Iterates cfg env now st (.leave { st with scheduler := st.scheduler.withBudget i budget })
  | stuck {i : SeqId} {budget : Option ℚ} {s' : Scheduler} (selects : Selects cfg now st i)
      (unspent : st.numBatchedTokens < cfg.maxNumBatchedTokens)
      (table : (st.scheduler.seqs i).blockTable ≠ [])
      (retained : (st.scheduler.seqs i).blockTable.length ≠ (st.scheduler.seqs i).numBlocks cfg)
      (reclaims : Reclaims cfg (st.scheduler.withBudget i budget) s')
      (lacking : st.scheduler.running ≠ [] ∨ (s'.owners = ∅ ∧
        ∃ matched, Matches cfg s'.blockManager (s'.seqs i) matched ∧
          ¬ResumeFits cfg s'.blockManager (s'.seqs i) matched)) :
      Iterates cfg env now st (.leave { st with scheduler := s' })
  | admits {i : SeqId} {s' : Scheduler} {control : PrefillControl}
      (selects : Selects cfg now st i) (budget : st.numBatchedTokens < cfg.maxNumBatchedTokens)
      (prepares : Prepares cfg st.scheduler i s')
      (admits : Admits cfg env { st with scheduler := s' } i control) : Iterates cfg env now st control

/-- Marking the selected request with its budget keeps the invariant. -/
theorem Valid.withBudget (valid : st.Valid cfg ids kv) (mem : i ∈ st.scheduler.waiting)
    (budget : Option ℚ) :
    ({ st with scheduler := st.scheduler.withBudget i budget } : PrefillState).Valid cfg ids kv := by
  rcases valid.scheduler.waiting mem with ⟨known, status, -⟩
  refine valid.withScheduler (valid.scheduler.withBudget known (by rw [status]; nofun) _) ?_
  intro j _
  by_cases same : j = i
  · subst same
    simp only [Scheduler.withBudget, Scheduler.setSeq, Function.update_self, and_self]
  · simp only [Scheduler.withBudget, Scheduler.setSeq, Function.update_of_ne same, and_self]

/-- An iteration raises nothing and keeps the invariant. -/
theorem Valid.iterate (valid : st.Valid cfg ids kv) (env : ScheduleEnv cfg) (now : ℚ)
    (nonempty : st.scheduler.waiting ≠ []) :
    ∃ control, st.iterate cfg env now = .ok control ∧ Iterates cfg env now st control ∧
      Sound cfg ids kv st control := by
  unfold PrefillState.iterate
  cases found : st.eligible cfg now with
  | none => exact ⟨_, rfl, .ineligible found, valid, .refl _⟩
  | some eligible =>
    obtain ⟨i, selected⟩ := selectNext_isSome cfg st.scheduler.estimator st.scheduler.seqs
      st.scheduler.stepId now (eligible_ne_nil found nonempty)
    have selects : Selects cfg now st i := ⟨eligible, found, selected⟩
    obtain ⟨mem, -, -⟩ := selects.mem
    obtain ⟨known, status, -⟩ := valid.scheduler.waiting mem
    set budgetMs := budgetMs cfg st.scheduler.estimator (st.scheduler.seqs i)
      st.scheduler.stepId now with budgetMs_def
    have live : (st.scheduler.seqs i).status.Live := by rw [status]; trivial
    have self : (st.scheduler.withBudget i budgetMs).seqs i =
        { st.scheduler.seqs i with lastBudgetMs := budgetMs } := Function.update_self _ _ _
    have follows := withBudget_follows (s := st.scheduler) budgetMs live
    have marked := valid.withBudget mem budgetMs
    simp only [selected, ← budgetMs_def]
    change ∃ control, (if cfg.maxNumBatchedTokens - st.numBatchedTokens = 0 then
      Except.ok (.leave { st with scheduler := st.scheduler.withBudget i budgetMs })
      else if ((st.scheduler.withBudget i budgetMs).seqs i).blockTable = [] then
        ({ st with scheduler := st.scheduler.withBudget i budgetMs } :
          PrefillState).admitFresh cfg env i (cfg.maxNumBatchedTokens - st.numBatchedTokens) now
      else (st.scheduler.withBudget i budgetMs).ensureResumeCapacity cfg i now >>=
        fun (ensured : Scheduler × Bool) =>
          let st : PrefillState := { st with scheduler := ensured.1 }
          if !ensured.2 then .ok (.leave st)
          else if (ensured.1.seqs i).blockTable = [] then
            st.admitFresh cfg env i (cfg.maxNumBatchedTokens - st.numBatchedTokens) now
          else st.admitResident cfg i (cfg.maxNumBatchedTokens - st.numBatchedTokens) now) = _ ∧ _
    split
    · next spent =>
      exact ⟨_, rfl, .exhausted selects (by omega), marked, follows⟩
    next remaining =>
    have budget : st.numBatchedTokens < cfg.maxNumBatchedTokens := by omega
    rw [self]
    split
    · next table =>
      obtain ⟨control, admitted, admits, sound⟩ :=
        marked.admitFresh env budget mem (by rw [self]; exact table) now
      have prepares : Prepares cfg st.scheduler i (st.scheduler.withBudget i budgetMs) :=
        ⟨rfl, rfl, rfl, fun _ => ⟨_, rfl⟩, fun _ => ⟨_, rfl⟩,
          fun j differ => .inl (Function.update_of_ne differ _ _), fun owned => absurd table owned⟩
      exact ⟨control, admitted, .admits selects budget prepares admits, sound.valid,
        follows.trans sound.follows⟩
    · next table =>
      obtain ⟨s', ready, ensured, valid', reclaims, able, stuck, same, emptied⟩ :=
        marked.scheduler.ensureResumeCapacity mem (fun j mem' => marked.idle budget mem')
          (by rw [self]; exact table) now
      dsimp only at ensured
      have kept : ∀ j ∈ st.scheduledSeqs, s'.seqs j = (st.scheduler.withBudget i budgetMs).seqs j :=
        fun j scheduled => (reclaims.seqs j).resolve_right fun reclaimed =>
          marked.notScheduled budget reclaimed.1 scheduled
      have prepared := marked.withScheduler valid' fun j scheduled => by
        rw [kept j scheduled]
        exact ⟨rfl, rfl⟩
      have follows' := follows.trans reclaims.follows
      rw [ensured, Py.ok_bind]
      dsimp only
      cases ready with
      | false =>
        refine ⟨_, rfl, .stuck selects budget table (fun full => ?_) reclaims (stuck rfl), prepared,
          follows'⟩
        exact Bool.false_ne_true (same (by rw [self]; exact full)).2
      | true =>
        obtain ⟨matched, resumable⟩ := able rfl
        have mem' : i ∈ s'.waiting := reclaims.waiting ▸ mem
        have prepares : Prepares cfg st.scheduler i s' := by
          refine ⟨reclaims.waiting, reclaims.running, reclaims.pendingRestores,
            fun fresh => absurd fresh table, fun complete => ⟨budgetMs, ?_⟩, fun j differ => ?_,
            fun _ empty => ⟨emptied empty, matched, resumable.longest,
              (resumable.longest.resumeFits_iff empty).mp resumable.fits⟩⟩
          · exact (same (by rw [self]; exact complete.resolve_left table)).1
          · have unmarked : (st.scheduler.withBudget i budgetMs).seqs j = st.scheduler.seqs j :=
              Function.update_of_ne differ _ _
            rcases reclaims.seqs j with unchanged | ⟨waits, owned, freed, invalidated, reclaimed⟩
            · exact .inl (unchanged.trans unmarked)
            · rw [unmarked] at owned reclaimed
              exact .inr ⟨waits, owned, freed, invalidated, reclaimed⟩
        simp only [Bool.not_true, Bool.false_eq_true, if_false]
        split
        · next empty =>
          obtain ⟨control, admitted, admits, sound⟩ :=
            prepared.admitFresh env budget mem' empty now
          exact ⟨control, admitted, .admits selects budget prepares admits, sound.valid,
            follows'.trans sound.follows⟩
        · next owned =>
          obtain ⟨control, admitted, admits, sound⟩ :=
            prepared.admitResident budget mem' owned resumable now
          exact ⟨control, admitted, .admits selects budget prepares admits, sound.valid,
            follows'.trans sound.follows⟩

/-! ## The measure -/

/-- The waiting requests which have not been deferred. -/
def undeferred (st : PrefillState) : List SeqId :=
  st.scheduler.waiting.filter (· ∉ st.budgetDeferred)

/-- What an iteration which stays in the loop uses up. -/
def measure (cfg : Config) (st : PrefillState) : ℕ :=
  st.scheduler.waiting.length + st.undeferred.length +
    (if st.residentProgressOnly then 0 else 1) +
    if cfg.maxNumBatchedTokens ≤ st.numBatchedTokens then 0 else 1

theorem spent_le (cfg : Config) (st : PrefillState) :
    (if cfg.maxNumBatchedTokens ≤ st.numBatchedTokens then 0 else 1) ≤ 1 := by
  split <;> simp

theorem undeferred_erase_length_le (st : PrefillState) (i : SeqId) :
    ((st.scheduler.waiting.erase i).filter (· ∉ st.budgetDeferred)).length ≤
      st.undeferred.length :=
  (List.erase_sublist.filter _).length_le

/-- Deferring one more request. -/
theorem undeferred_insert_length_lt (mem : i ∈ st.scheduler.waiting)
    (notDeferred : i ∉ st.budgetDeferred) :
    (st.scheduler.waiting.filter (· ∉ insert i st.budgetDeferred)).length <
      st.undeferred.length := by
  have sublist : (st.scheduler.waiting.filter (· ∉ insert i st.budgetDeferred)).Sublist
      st.undeferred := by
    refine List.monotone_filter_right _ fun j kept => ?_
    simp only [Finset.mem_insert, not_or, decide_eq_true_eq] at kept
    exact decide_eq_true kept.2
  refine Nat.lt_of_le_of_ne sublist.length_le fun same => ?_
  have mem' : i ∈ st.undeferred := List.mem_filter.mpr ⟨mem, decide_eq_true notDeferred⟩
  rw [← sublist.eq_of_length same] at mem'
  simp at mem'

/-- Deferring the selected request decreases the measure. -/
theorem measure_deferBudget (again : st.deferBudget cfg i = .again st')
    (mem : i ∈ st.scheduler.waiting) (notDeferred : i ∉ st.budgetDeferred) : measure cfg st' < measure cfg st := by
  unfold deferBudget at again
  dsimp only at again
  split at again
  · rw [← PrefillControl.again.inj again]
    have := undeferred_insert_length_lt mem notDeferred
    simp only [measure, undeferred] at this ⊢
    omega
  · cases again

/-- An iteration which stays in the loop decreases the measure. -/
theorem Iterates.measure_lt (iterates : Iterates cfg env now st (.again st')) :
    measure cfg st' < measure cfg st := by
  generalize outcome : PrefillControl.again st' = control at iterates
  cases iterates with
  | ineligible _ => cases outcome
  | exhausted _ _ => cases outcome
  | stuck _ _ _ _ _ _ => cases outcome
  | @admits i s' _ selects budget prepares admits =>
    obtain ⟨mem, notDeferred, resident⟩ := selects.mem
    have same : measure cfg { st with scheduler := s' } = measure cfg st := by
      simp only [measure, undeferred, prepares.waiting]
    cases admits with
    | @blocked bm' matched sameMemory table longest lacking =>
      unfold allocationBlocked at outcome
      dsimp only at outcome
      split at outcome
      · have fresh : st.residentProgressOnly = false := by
          by_contra only
          rw [Bool.not_eq_false] at only
          obtain ⟨-, matched', longest', fits⟩ := prepares.emptied (resident only) table
          have longest'' := longest'.of_sameMemory sameMemory
          rw [longest''.unique longest] at fits
          exact lacking (sameMemory.fits.mpr fits)
        rw [PrefillControl.again.inj outcome]
        simp only [measure, undeferred, fresh, prepares.waiting]
        simp
      · split at outcome
        · refine (measure_deferBudget outcome.symm ?_ notDeferred).trans_eq same
          exact prepares.waiting ▸ mem
        · cases outcome
    | forbidden _ _ _ =>
      refine (measure_deferBudget outcome.symm ?_ notDeferred).trans_eq same
      exact prepares.waiting ▸ mem
    | restored started =>
      rw [PrefillControl.again.inj outcome]
      have erased := undeferred_erase_length_le st i
      have shorter := List.length_erase_of_mem mem
      have positive := List.length_pos_of_mem mem
      simp only [measure, undeferred, started.waiting, prepares.waiting] at erased ⊢
      omega
    | postponed _ _ _ => cases outcome
    | @scheduled st₁ schedules =>
      rw [PrefillControl.again.inj outcome, ← same]
      have deferred := schedules.budgetDeferred
      rcases schedules.moved with ⟨-, waiting, -⟩ | ⟨-, waiting, -, spent⟩
      · have erased := undeferred_erase_length_le { st with scheduler := s' } i
        have mem' : i ∈ s'.waiting := prepares.waiting ▸ mem
        have shorter := List.length_erase_of_mem mem'
        have positive := List.length_pos_of_mem mem'
        simp only [measure, undeferred, waiting, deferred, schedules.residentProgressOnly,
          if_neg (Nat.not_le.mpr budget)] at erased ⊢
        have := spent_le cfg st₁
        omega
      · simp only [measure, undeferred, waiting, deferred, schedules.residentProgressOnly,
          if_pos spent, if_neg (Nat.not_le.mpr budget)]
        omega

/-! ## The loop -/

/-- The guard of the loop. -/
def Continues (cfg : Config) (st : PrefillState) : Prop :=
  st.scheduler.waiting ≠ [] ∧ st.scheduledSeqs.length < cfg.maxNumSeqs

/-- A run of the loop: iterations which stay in it, and how it ends. -/
inductive Loops (cfg : Config) (ids : Finset SeqId) (kv : KvStore) (env : ScheduleEnv cfg)
    (now : ℚ) :
    PrefillState → PrefillState → Prop
  | stop {st : PrefillState} (valid : st.Valid cfg ids kv) (stops : ¬st.Continues cfg) :
      Loops cfg ids kv env now st st
  | leave {st st' : PrefillState} (valid : st.Valid cfg ids kv) (continues : st.Continues cfg)
      (iterates : Iterates cfg env now st (.leave st')) (sound : Sound cfg ids kv st (.leave st')) :
      Loops cfg ids kv env now st st'
  | again {st st₁ st' : PrefillState} (valid : st.Valid cfg ids kv)
      (continues : st.Continues cfg) (iterates : Iterates cfg env now st (.again st₁))
      (sound : Sound cfg ids kv st (.again st₁)) (rest : Loops cfg ids kv env now st₁ st') :
      Loops cfg ids kv env now st st'

theorem Loops.valid (loops : Loops cfg ids kv env now st st') : st'.Valid cfg ids kv := by
  induction loops with
  | stop valid _ => exact valid
  | leave _ _ _ sound => exact sound.valid
  | again _ _ _ _ _ ih => exact ih

theorem Loops.follows (loops : Loops cfg ids kv env now st st') :
    Follows st.scheduler st'.scheduler := by
  induction loops with
  | stop _ _ => exact .refl _
  | leave _ _ _ sound => exact sound.follows
  | again _ _ _ sound _ ih => exact sound.follows.trans ih

/-- The prefill loop ends within its bound and raises nothing. -/
theorem loop_spec (env : ScheduleEnv cfg) (now : ℚ) (fuel : ℕ) :
    ∀ st : PrefillState, st.Valid cfg ids kv → measure cfg st < fuel →
      ∃ st', loop cfg env now fuel st = .ok st' ∧ Loops cfg ids kv env now st st' := by
  induction fuel with
  | zero => exact fun st _ enough => absurd enough (Nat.not_lt_zero _)
  | succ fuel ih =>
    intro st valid enough
    rw [loop]
    split
    · next stops =>
      refine ⟨st, rfl, .stop valid fun continues => ?_⟩
      exact stops.elim continues.1 (Nat.not_le.mpr continues.2)
    · next continues =>
      rw [not_or, Nat.not_le] at continues
      obtain ⟨control, iterated, iterates, sound⟩ := valid.iterate env now continues.1
      rw [iterated, Py.ok_bind]
      cases control with
      | leave st' => exact ⟨st', rfl, .leave valid continues iterates sound⟩
      | again st₁ =>
        obtain ⟨st', looped, loops⟩ := ih st₁ sound.valid
          (iterates.measure_lt.trans_le (Nat.le_of_lt_succ enough))
        exact ⟨st', looped, .again valid continues iterates sound loops⟩

/-- The state in which the prefill phase begins. -/
def start (s : Scheduler) : PrefillState where
  scheduler := s
  scheduledSeqs := []
  numBatchedTokens := 0
  budgetDeferred := ∅
  residentProgressOnly := false

theorem start_valid (valid : Scheduler.Valid cfg ids kv Sequence.numCachedTokens [] [] s) :
    (start s).Valid cfg ids kv where
  scheduler := valid
  uncompressed _ mem := absurd mem List.not_mem_nil
  progress := .inr fun _ mem => absurd mem List.not_mem_nil
  unbatched _ := rfl

end PrefillState

/-- The prefill phase is skipped, or it is a run of the loop. -/
theorem Valid.prefillPhase
    (valid : Valid cfg ids kv Sequence.numCachedTokens [] [] s) (env : ScheduleEnv cfg) (now : ℚ) :
    ∃ st, s.prefillPhase cfg env now = .ok (st.scheduler, st.scheduledSeqs) ∧
      ((shouldSchedulePrefill cfg s.estimator s.seqs s.stepId now s.waiting s.running = true ∧
          PrefillState.Loops cfg ids kv env now (.start s) st) ∨
        (shouldSchedulePrefill cfg s.estimator s.seqs s.stepId now s.waiting s.running = false ∧
          st = .start s)) := by
  unfold Scheduler.prefillPhase
  split
  · next prefers =>
    have enough : PrefillState.measure cfg (.start s) < 2 * s.waiting.length + 3 := by
      have filtered : (PrefillState.undeferred (.start s)).length ≤ s.waiting.length :=
        List.length_filter_le _ _
      have spent := PrefillState.spent_le cfg (.start s)
      simp only [PrefillState.measure, PrefillState.start, Bool.false_eq_true, if_false]
        at filtered spent ⊢
      omega
    obtain ⟨st, looped, loops⟩ :=
      PrefillState.loop_spec env now _ (.start s) (PrefillState.start_valid valid) enough
    refine ⟨st, ?_, .inl ⟨prefers, loops⟩⟩
    change PrefillState.loop cfg env now _ (.start s) >>= _ = _
    rw [looped]
    rfl
  · next skips => exact ⟨.start s, rfl, .inr ⟨Bool.not_eq_true _ ▸ skips, rfl⟩⟩

end Scheduler

end NanoVllm
