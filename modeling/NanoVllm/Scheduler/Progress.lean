import NanoVllm.Scheduler.Schedule

/-!
# Progress of the schedule call

While no request is running and no remote restore is pending, only waiting requests own pages.
The prefill phase may take all of them away, so that a request which fits into the empty memory is
admitted. With requests of this kind only, `schedule()` finds a batch or a restore is pending.
-/

namespace NanoVllm

open BlockManager

namespace Sequence

variable {cfg : Config} {seq seq' : Sequence} {i : SeqId}

/-- The tokens of a request fit into the memory when it is alone. -/
structure FitsAlone (cfg : Config) (seq : Sequence) : Prop where
  produces : 1 ≤ seq.maxTokens
  window : seq.numPromptTokens + seq.maxTokens ≤ cfg.numBlocks * cfg.blockSize

/-- The pages of a live request which fits alone are at most all pages. -/
theorem FitsAlone.numBlocks_le (fits : seq.FitsAlone cfg) (wellFormed : seq.WellFormed cfg i)
    (live : seq.status.Live) : seq.numBlocks cfg ≤ cfg.numBlocks := by
  have unfinished := wellFormed.budget fits.produces (isTerminal_eq_false.mpr live)
  have window := fits.window
  have prompt_le := wellFormed.prompt_le
  rw [numCompletionTokens] at unfinished
  rw [numBlocks, Nat.div_le_iff_le_mul_add_pred cfg.blockSize_pos, Nat.mul_comm]
  omega

end Sequence

namespace Scheduler

variable {cfg : Config} {env : ScheduleEnv cfg} {now : ℚ} {ids : Finset SeqId} {kv : KvStore}
  {computed : Sequence → ℕ} {batch sched : List SeqId} {s s' : Scheduler} {i : SeqId}
  {outcome : ScheduleOutcome}

theorem SameRequest.fitsAlone {seq seq' : Sequence} (same : SameRequest seq seq')
    (fits : seq.FitsAlone cfg) : seq'.FitsAlone cfg := by
  constructor
  · rw [same.maxTokens]
    exact fits.produces
  · rw [same.maxTokens, same.numPromptTokens]
    exact fits.window

/-- Every page is free when no request owns one. -/
theorem Valid.all_free (valid : Valid cfg ids kv computed [] batch s) (alone : s.running = [])
    (settled : s.pendingRestores = []) (nobody : s.owners = ∅) :
    s.blockManager.freeBlockIds.length = cfg.numBlocks := by
  have tables : ∀ i ∈ ids, (s.seqs i).blockTable = [] := by
    intro i known
    by_contra owns
    have phase := (valid.request i known).phase
    unfold Sequence.Phase at phase
    split at phase
    · next status =>
      have owner := mem_owners.mpr ⟨valid.mem_waiting.mpr ⟨known, status⟩, owns⟩
      rw [nobody] at owner
      exact Finset.notMem_empty i owner
    · next status =>
      have pending := valid.mem_pending.mpr ⟨known, status⟩
      rw [settled] at pending
      cases pending
    · next status =>
      have running := valid.mem_running.mpr ⟨known, status⟩
      rw [alone] at running
      cases running
    · exact owns phase.table
    · exact owns phase.table
  have unreferenced : ∀ blockId, tableRefs ids s.seqs blockId = 0 := by
    intro blockId
    by_contra referenced
    rcases References.count_pos_iff.mp (Nat.pos_of_ne_zero referenced) with ⟨i, known, mem⟩
    rw [tables i known] at mem
    cases mem
  have all : s.blockManager.freeBlockIds.Perm (List.range cfg.numBlocks) := by
    apply (List.perm_ext_iff_of_nodup valid.memory.pool.freeNodup List.nodup_range).mpr
    intro blockId
    rw [valid.memory.pool.mem_free, List.mem_range]
    exact and_iff_left (unreferenced blockId)
  rw [all.length_eq, List.length_range]

namespace PrefillState

variable {st st' : PrefillState} {control : PrefillControl}

/-- The loop has scheduled a request or started a remote restore. -/
def Found (st : PrefillState) : Prop :=
  st.scheduledSeqs ≠ [] ∨ st.scheduler.pendingRestores ≠ []

/-- The loop has nothing yet, while no request is running and each waiting one fits alone. -/
structure Seeks (cfg : Config) (st : PrefillState) : Prop where
  waiting : st.scheduler.waiting ≠ []
  alone : st.scheduler.running = []
  settled : st.scheduler.pendingRestores = []
  unscheduled : st.scheduledSeqs = []
  undeferred : st.budgetDeferred = ∅
  resident : st.residentProgressOnly = true → st.scheduler.owners ≠ ∅
  fits : ∀ i ∈ st.scheduler.waiting, (st.scheduler.seqs i).FitsAlone cfg

/-- Without running requests the policies prefer to prefill. -/
theorem prefersPrefill_alone (alone : st.scheduler.running = []) {queue : List SeqId}
    (nonempty : queue ≠ []) : st.prefersPrefill cfg now queue = true := by
  rcases selectNext_isSome cfg st.scheduler.estimator st.scheduler.seqs st.scheduler.stepId now
    nonempty with ⟨i, selected⟩
  have idle : selectNext cfg st.scheduler.estimator st.scheduler.seqs st.scheduler.stepId now
      [] = none := by
    unfold selectNext
    split
    · rfl
    · rfl
  unfold prefersPrefill shouldSchedulePrefill
  split
  · simp [nonempty]
  · simp only [selected, alone, idle]

/-- A seeking loop has eligible requests. -/
theorem Seeks.eligible (seeks : st.Seeks cfg) : st.eligible cfg now ≠ none := by
  have candidates : st.candidates ≠ [] := by
    rw [PrefillState.candidates]
    split
    · next only =>
      rcases Finset.nonempty_iff_ne_empty.mpr (seeks.resident only) with ⟨i, owner⟩
      rcases mem_owners.mp owner with ⟨mem, owns⟩
      apply List.ne_nil_of_mem (a := i)
      simp [mem, owns, ownsBlocks]
    · exact seeks.waiting
  have kept : st.kept = st.candidates := by
    rw [PrefillState.kept, if_pos seeks.undeferred]
  rw [eligible_eq]
  simp only [candidates, and_false, if_false, seeks.undeferred, ne_eq, not_true_eq_false,
    false_and]
  split
  · next limited =>
    rcases limited with ⟨limit, configured, reached⟩
    have positive := cfg.maxNumActiveSeqs_pos limit configured
    rw [residentCount, seeks.alone, seeks.settled, List.length_nil, List.length_nil] at reached
    have some_owner : 0 < st.scheduler.waiting.countP st.scheduler.ownsBlocks := by omega
    rcases List.countP_pos_iff.mp some_owner with ⟨i, mem, owns⟩
    have owning : st.kept.filter st.scheduler.ownsBlocks ≠ [] := by
      apply List.ne_nil_of_mem (a := i)
      rw [kept, List.mem_filter, mem_candidates]
      exact ⟨⟨mem, fun _ => by simpa [ownsBlocks] using owns⟩, owns⟩
    rw [if_pos (prefersPrefill_alone seeks.alone owning)]
    exact Option.some_ne_none _
  · exact Option.some_ne_none _

/-- A waiting request fits into the memory which a seeking loop has emptied. -/
theorem Seeks.fits_emptied (seeks : st.Seeks cfg) (follows : Follows st.scheduler s')
    (valid : s'.Valid cfg ids kv computed [] batch) (waiting : s'.waiting = st.scheduler.waiting)
    (running : s'.running = st.scheduler.running)
    (pendingRestores : s'.pendingRestores = st.scheduler.pendingRestores)
    (nobody : s'.owners = ∅) (mem : i ∈ st.scheduler.waiting) :
    (s'.seqs i).numBlocks cfg ≤ s'.blockManager.freeBlockIds.length := by
  have mem' : i ∈ s'.waiting := waiting ▸ mem
  rcases valid.waiting mem' with ⟨known, status, -⟩
  have live : (s'.seqs i).status.Live := by
    rw [status]
    trivial
  rw [valid.all_free (running.trans seeks.alone) (pendingRestores.trans seeks.settled) nobody]
  apply Sequence.FitsAlone.numBlocks_le _ (valid.request i known) live
  exact (follows.request i).fitsAlone (seeks.fits i mem)

/-- A seeking loop goes on to seek, or it has found something. -/
theorem Seeks.iterate (seeks : st.Seeks cfg) (positive : 1 ≤ cfg.maxNumBatchedTokens)
    (valid : st.Valid cfg ids kv) (iterates : Iterates cfg env now st control)
    (sound : Sound cfg ids kv st control) :
    ∃ st', control = .again st' ∧ (st'.Seeks cfg ∨ st'.Found) := by
  cases iterates with
  | ineligible none_eligible => exact absurd none_eligible seeks.eligible
  | exhausted selects spent =>
    have unbatched := valid.unbatched seeks.unscheduled
    omega
  | @stuck i budget s' selects unspent table retained reclaims lacking =>
    rcases lacking.resolve_left (fun busy => busy seeks.alone) with ⟨nobody, matched, -, lacking⟩
    have fits := seeks.fits_emptied sound.follows sound.valid.scheduler reclaims.waiting
      reclaims.running reclaims.pendingRestores nobody selects.mem.1
    apply absurd _ lacking
    exact (Nat.sub_le _ _).trans (fits.trans (Nat.le_add_right _ _))
  | @admits i s' _ selects budget prepares admits =>
    cases admits with
    | @blocked bm' matched same table longest lacking =>
      rcases @allocationBlocked_state cfg i
        { st with scheduler := { s' with blockManager := bm' } } with ⟨scheduler, scheduledSeqs, -⟩
      have follows := sound.follows
      have valid' := sound.valid.scheduler
      rw [scheduler] at follows valid'
      have owned : ({ s' with blockManager := bm' } : Scheduler).owners ≠ ∅ := by
        intro nobody
        apply lacking
        exact (seeks.fits_emptied follows valid' prepares.waiting prepares.running
          prepares.pendingRestores nobody selects.mem.1).trans (Nat.le_add_right _ _)
      have resident : s'.waiting.any s'.ownsBlocks = true := by
        rcases Finset.nonempty_iff_ne_empty.mpr owned with ⟨j, owner⟩
        rcases mem_owners.mp owner with ⟨mem, owns⟩
        apply List.any_eq_true.mpr
        exact ⟨j, mem, by simpa [ownsBlocks] using owns⟩
      refine ⟨{ st with
        scheduler := { s' with blockManager := bm' }
        residentProgressOnly := true }, ?_, .inl ⟨?_, ?_, ?_, ?_, ?_, ?_, ?_⟩⟩
      · unfold allocationBlocked
        exact if_pos ⟨prepares.running.trans seeks.alone, resident⟩
      · exact prepares.waiting ▸ seeks.waiting
      · exact prepares.running.trans seeks.alone
      · exact prepares.pendingRestores.trans seeks.settled
      · exact seeks.unscheduled
      · exact seeks.undeferred
      · intro _
        exact owned
      · intro j mem
        exact (follows.request j).fitsAlone (seeks.fits j (prepares.waiting ▸ mem))
    | forbidden same table busy => exact absurd (prepares.running.trans seeks.alone) busy
    | restored started =>
      refine ⟨_, rfl, .inr (.inr ?_)⟩
      rcases started.pendingRestores with ⟨state, -, appended⟩
      simp [appended]
    | postponed batched _ _ => exact absurd seeks.unscheduled batched
    | scheduled schedules =>
      refine ⟨_, rfl, .inr (.inl ?_)⟩
      simp [schedules.scheduledSeqs]

/-- What a loop has found it keeps. -/
theorem Loops.found (loops : Loops cfg ids kv env now st st') (found : st.Found) : st'.Found := by
  rcases found with batched | pending
  · left
    intro none
    exact batched (loops.unscheduled none).1
  · right
    rcases List.exists_mem_of_ne_nil _ pending with ⟨state, mem⟩
    exact List.ne_nil_of_mem (loops.follows.restores state mem)

/-- A seeking loop finds something. -/
theorem Loops.progress (loops : Loops cfg ids kv env now st st')
    (positive : 1 ≤ cfg.maxNumBatchedTokens) (sequences : 1 ≤ cfg.maxNumSeqs)
    (seeks : st.Seeks cfg) : st'.Found := by
  induction loops with
  | stop _ stops =>
    apply absurd _ stops
    refine ⟨seeks.waiting, ?_⟩
    rw [seeks.unscheduled]
    exact sequences
  | leave valid _ iterates sound =>
    rcases seeks.iterate positive valid iterates sound with ⟨st₁, left, -⟩
    cases left
  | again valid _ iterates sound rest ih =>
    rcases seeks.iterate positive valid iterates sound with ⟨st₁, again, seeks' | found⟩
    · cases again
      exact ih seeks'
    · cases again
      exact rest.found found

end PrefillState

/-! ## The schedule call -/

/-- Every request in a queue fits into the memory when it is alone. -/
def FitAlone (cfg : Config) (ids : Finset SeqId) (s : Scheduler) : Prop :=
  ∀ i ∈ ids, (s.seqs i).status.Live → (s.seqs i).FitsAlone cfg

theorem Follows.settled (follows : Follows s s') (settled : s'.pendingRestores = []) :
    s.pendingRestores = [] := by
  by_contra pending
  rcases List.exists_mem_of_ne_nil _ pending with ⟨state, mem⟩
  have kept := follows.restores state mem
  rw [settled] at kept
  cases kept

theorem Follows.fitAlone (follows : Follows s s') (fits : s.FitAlone cfg ids) :
    s'.FitAlone cfg ids := by
  intro i known live
  apply (follows.request i).fitsAlone
  exact fits i known ((follows.request i).live.mp live)

/-- A prefill phase without running requests and pending restores finds something. -/
theorem Prefills.progress {st : PrefillState} (prefills : Prefills cfg ids kv env now s st)
    (valid : s.Valid cfg ids kv Sequence.numCachedTokens [] [])
    (positive : 1 ≤ cfg.maxNumBatchedTokens) (sequences : 1 ≤ cfg.maxNumSeqs)
    (fits : s.FitAlone cfg ids) (waiting : s.waiting ≠ []) (alone : s.running = [])
    (settled : s.pendingRestores = []) : st.Found := by
  have prefers := @PrefillState.prefersPrefill_alone cfg now (.start s) alone _ waiting
  rcases prefills with ⟨-, loops⟩ | ⟨skips, -⟩
  · apply loops.progress positive sequences
    refine ⟨waiting, alone, settled, rfl, rfl, ?_, ?_⟩
    · intro only
      cases only
    intro i mem
    rcases valid.waiting mem with ⟨known, status, -⟩
    apply fits i known
    rw [status]
    trivial
  · rw [PrefillState.prefersPrefill] at prefers
    exact absurd (skips.symm.trans prefers) Bool.false_ne_true

/-- A pass returns a batch or asks for a retry, unless a restore is pending. -/
theorem SchedulesOnce.progress (schedules : SchedulesOnce cfg ids kv env now s s' outcome)
    (valid : s.Valid cfg ids kv Sequence.numCachedTokens [] [])
    (positive : 1 ≤ cfg.maxNumBatchedTokens) (sequences : 1 ≤ cfg.maxNumSeqs)
    (fits : s.FitAlone cfg ids) (busy : s.waiting ≠ [] ∨ s.running ≠ [])
    (settled : s'.pendingRestores = []) : outcome = .retry ∨ outcome.seqs ≠ [] := by
  cases schedules with
  | prefill _ batched => exact .inr batched
  | decode _ _ _ batched => exact .inr batched
  | waits _ _ _ pending => exact absurd settled pending
  | retry _ _ _ _ => exact .inl rfl
  | @noRunnable st _ prefills none decodes idle =>
    rcases decodes.progress sequences rfl with ⟨-, retries⟩
    have alone : st.scheduler.running = [] := by
      by_contra running
      exact absurd (retries (.inl running)) Bool.false_ne_true
    have alone' := (prefills.running none).symm.trans alone
    have settled' := (prefills.follows.trans decodes.follows).settled settled
    rcases prefills.progress valid.nextStep positive sequences fits
      (busy.resolve_right fun running => running alone') alone' settled' with batched | pending
    · exact absurd none batched
    · rw [decodes.pendingRestores] at settled
      exact absurd settled pending

/-- A pass keeps the requests which are in a queue. -/
theorem Follows.busy (follows : Follows s s')
    (valid : s.Valid cfg ids kv Sequence.numCachedTokens [] [])
    (valid' : s'.Valid cfg ids kv Sequence.numCachedTokens [] batch)
    (busy : s.isFinished = false) : s'.isFinished = false := by
  have known : ∃ i ∈ ids, (s.seqs i).status.Live := by
    by_contra nobody
    push Not at nobody
    have empty : ∀ status, status.Live → s.queue [] status = [] := by
      intro status live
      apply List.eq_nil_iff_forall_not_mem.mpr
      intro i mem
      rcases (valid.queued status live i).mp mem with ⟨known, rfl⟩
      exact nobody i known live
    have waiting : s.waiting = [] := empty .waiting trivial
    have running : s.running ++ [] = [] := empty .running trivial
    have pending : s.pendingRestores.map PendingRestoreState.sequence = [] :=
      empty .waitingForKv trivial
    rw [List.append_nil] at running
    rw [List.map_eq_nil_iff] at pending
    simp [isFinished, waiting, running, pending] at busy
  rcases known with ⟨i, known, live⟩
  have live' := (follows.request i).live.mpr live
  have mem := (valid'.queued _ live' i).mpr ⟨known, rfl⟩
  by_contra finished
  rw [Bool.not_eq_false] at finished
  simp only [isFinished, Bool.and_eq_true, decide_eq_true_eq] at finished
  rcases finished with ⟨⟨waiting, running⟩, pending⟩
  generalize (s'.seqs i).status = status at mem
  cases status with
  | waiting => simp [queue, waiting] at mem
  | waitingForKv => simp [queue, pending] at mem
  | running => simp [queue, running] at mem
  | finished => simp [queue] at mem
  | cancelled => simp [queue] at mem

/-- A pass which asks for no retry returns a batch. -/
theorem SchedulesOnce.returns_batch (schedules : SchedulesOnce cfg ids kv env now s s' outcome)
    (valid : s.Valid cfg ids kv Sequence.numCachedTokens [] [])
    (positive : 1 ≤ cfg.maxNumBatchedTokens) (sequences : 1 ≤ cfg.maxNumSeqs)
    (fits : s.FitAlone cfg ids) (busy : s.isFinished = false) (done : outcome ≠ .retry) :
    ∃ seqs isPrefill, outcome = .batch seqs isPrefill ∧ (s'.pendingRestores = [] → seqs ≠ []) := by
  have found : s'.pendingRestores = [] → outcome.seqs ≠ [] := by
    intro settled
    have settled' : s.pendingRestores = [] := schedules.follows.settled settled
    have queued : s.waiting ≠ [] ∨ s.running ≠ [] := by
      by_contra idle
      push Not at idle
      simp [isFinished, idle.1, idle.2, settled'] at busy
    exact (schedules.progress valid positive sequences fits queued settled).resolve_left done
  cases outcome with
  | batch seqs isPrefill => exact ⟨seqs, isPrefill, rfl, found⟩
  | retry => exact absurd rfl done
  | noRunnable =>
    cases schedules with
    | noRunnable _ _ _ settled => exact absurd rfl (found settled)

/-- `schedule()` returns a batch, which is only empty while a restore is pending. -/
theorem SchedulesAll.progress (schedules : SchedulesAll cfg ids kv env s s' outcome)
    (valid : s.Valid cfg ids kv Sequence.numCachedTokens [] [])
    (positive : 1 ≤ cfg.maxNumBatchedTokens) (sequences : 1 ≤ cfg.maxNumSeqs)
    (fits : s.FitAlone cfg ids) (busy : s.isFinished = false) :
    ∃ seqs isPrefill, outcome = .batch seqs isPrefill ∧ (s'.pendingRestores = [] → seqs ≠ []) := by
  cases schedules with
  | once schedules done => exact schedules.returns_batch valid positive sequences fits busy done
  | @again s₁ _ _ first schedules done =>
    have valid₁ : s₁.Valid cfg ids kv Sequence.numCachedTokens [] [] := (first.returns valid).valid
    have busy₁ := first.follows.busy valid.nextStep valid₁ busy
    exact schedules.returns_batch valid₁ positive sequences (first.follows.fitAlone fits) busy₁ done

end Scheduler

end NanoVllm
