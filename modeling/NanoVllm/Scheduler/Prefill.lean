import NanoVllm.Scheduler.Admission

/-!
# The prefill phase

An iteration of the prefill loop ends in one of finitely many ways. `Admits` lists them for a
selected request which may be admitted, `Iterates` for the whole iteration. Every iteration keeps
the invariant and raises nothing, and each which stays in the loop uses something up: a waiting
request, a request which was not deferred yet, the token budget, or the one fallback to requests
with pages. So the loop ends.
-/

namespace NanoVllm

open BlockManager

namespace Scheduler

variable {cfg : Config} {ids : Finset SeqId} {kv : KvStore} {i j : SeqId} {st st' : PrefillState}
  {s s' : Scheduler} {bm' : BlockManager} {now : ℚ} {matched : List BlockId}

/-- The state with which an iteration ends. -/
def PrefillControl.state : PrefillControl → PrefillState
  | .again st => st
  | .leave st => st

namespace PrefillState

/-- The invariant of the prefill loop: a partly scheduled request has used up the budget. -/
structure Valid (cfg : Config) (ids : Finset SeqId) (kv : KvStore) (st : PrefillState) :
    Prop where
  scheduler : st.scheduler.Valid cfg ids kv Sequence.numCachedTokens [] st.scheduledSeqs
  uncompressed : ∀ i ∈ st.scheduledSeqs, (st.scheduler.seqs i).kvCompressed = false
  progress : cfg.maxNumBatchedTokens ≤ st.numBatchedTokens ∨
    ∀ i ∈ st.scheduledSeqs, (st.scheduler.seqs i).status = .running
  unbatched : st.scheduledSeqs = [] → st.numBatchedTokens = 0

namespace Valid

/-- While budget remains, no waiting request has scheduled tokens. -/
theorem notScheduled (valid : st.Valid cfg ids kv)
    (budget : st.numBatchedTokens < cfg.maxNumBatchedTokens) (mem : i ∈ st.scheduler.waiting) :
    i ∉ st.scheduledSeqs := fun scheduled => by
  have running := valid.progress.resolve_left (Nat.not_le.mpr budget) i scheduled
  simp [(valid.scheduler.waiting mem).2.1] at running

theorem idle (valid : st.Valid cfg ids kv)
    (budget : st.numBatchedTokens < cfg.maxNumBatchedTokens) (mem : i ∈ st.scheduler.waiting) :
    (st.scheduler.seqs i).numScheduledTokens = 0 :=
  valid.scheduler.idle (valid.scheduler.waiting mem).1 (valid.notScheduled budget mem)

/-- Parts of an iteration which leave the scheduled requests alone keep the invariant. -/
theorem withScheduler (valid : st.Valid cfg ids kv)
    (scheduler : s'.Valid cfg ids kv Sequence.numCachedTokens [] st.scheduledSeqs)
    (kept : ∀ i ∈ st.scheduledSeqs,
      (s'.seqs i).kvCompressed = (st.scheduler.seqs i).kvCompressed ∧
        (s'.seqs i).status = (st.scheduler.seqs i).status) :
    ({ st with scheduler := s' } : PrefillState).Valid cfg ids kv where
  scheduler := scheduler
  uncompressed i mem := (kept i mem).1.trans (valid.uncompressed i mem)
  progress := valid.progress.imp_right fun running i mem => (kept i mem).2.trans (running i mem)
  unbatched := valid.unbatched

/-- Replacing the selected request while budget remains. -/
theorem withRequest (valid : st.Valid cfg ids kv)
    (budget : st.numBatchedTokens < cfg.maxNumBatchedTokens) (mem : i ∈ st.scheduler.waiting)
    {seq : Sequence} (seqs : s'.seqs = Function.update st.scheduler.seqs i seq)
    (scheduler : s'.Valid cfg ids kv Sequence.numCachedTokens [] st.scheduledSeqs) :
    ({ st with scheduler := s' } : PrefillState).Valid cfg ids kv := by
  refine valid.withScheduler scheduler fun j scheduled => ?_
  rw [seqs, Function.update_of_ne]
  · exact ⟨rfl, rfl⟩
  · rintro rfl
    exact valid.notScheduled budget mem scheduled

end Valid

/-! ## Scheduling the selected request -/

/-- An iteration has scheduled tokens of a request. -/
structure Schedules (cfg : Config) (st : PrefillState) (i : SeqId) (st' : PrefillState) :
    Prop where
  scheduledSeqs : st'.scheduledSeqs = st.scheduledSeqs ++ [i]
  budgetDeferred : st'.budgetDeferred = st.budgetDeferred
  residentProgressOnly : st'.residentProgressOnly = st.residentProgressOnly
  batched : st.numBatchedTokens ≤ st'.numBatchedTokens
  seqs : ∃ seq, st'.scheduler.seqs = Function.update st.scheduler.seqs i seq
  full : (st'.scheduler.seqs i).blockTable.length = (st'.scheduler.seqs i).numBlocks cfg
  advances : (st.scheduler.seqs i).computedTokens < (st'.scheduler.seqs i).computedTokens
  pendingRestores : st'.scheduler.pendingRestores = st.scheduler.pendingRestores
  moved : ((st'.scheduler.seqs i).status = .running ∧
      st'.scheduler.waiting = st.scheduler.waiting.erase i ∧
      st'.scheduler.running = st.scheduler.running ++ [i]) ∨
    ((st'.scheduler.seqs i).status = .waiting ∧
      st'.scheduler.waiting = st.scheduler.waiting ∧
      st'.scheduler.running = st.scheduler.running ∧
      cfg.maxNumBatchedTokens ≤ st'.numBatchedTokens)

/-- Scheduling tokens of a request with a complete table. -/
theorem Valid.schedulePrefill (valid : st.Valid cfg ids kv)
    (budget : st.numBatchedTokens < cfg.maxNumBatchedTokens) (mem : i ∈ st.scheduler.waiting)
    (full : (st.scheduler.seqs i).blockTable.length = (st.scheduler.seqs i).numBlocks cfg)
    {numTokens : ℕ} (missing : numTokens =
      (st.scheduler.seqs i).numTokens - (st.scheduler.seqs i).numCachedTokens) (now : ℚ) :
    (st.schedulePrefill i numTokens (cfg.maxNumBatchedTokens - st.numBatchedTokens) now).Valid
        cfg ids kv ∧
      Follows st.scheduler (st.schedulePrefill i numTokens
        (cfg.maxNumBatchedTokens - st.numBatchedTokens) now).scheduler ∧
      Schedules cfg st i (st.schedulePrefill i numTokens
        (cfg.maxNumBatchedTokens - st.numBatchedTokens) now) := by
  obtain ⟨known, status, phase⟩ := valid.scheduler.waiting mem
  have notScheduled := valid.notScheduled budget mem
  have idle := valid.idle budget mem
  have short := phase.short
  have live : (st.scheduler.seqs i).status.Live := by rw [status]; trivial
  rw [Sequence.computedTokens, idle, Nat.add_zero] at short
  set count := min numTokens (cfg.maxNumBatchedTokens - st.numBatchedTokens) with count_def
  have positive : 0 < count := by omega
  have others : ∀ {seq : Sequence}, ∀ j ∈ st.scheduledSeqs,
      Function.update st.scheduler.seqs i seq j = st.scheduler.seqs j := fun j scheduled =>
    Function.update_of_ne (by rintro rfl; exact notScheduled scheduled) _ _
  have advances : (st.scheduler.seqs i).computedTokens <
      (st.scheduler.seqs i).numCachedTokens + count := by
    rw [Sequence.computedTokens]
    omega
  unfold PrefillState.schedulePrefill
  simp only [← count_def]
  split
  · next complete =>
    refine ⟨⟨valid.scheduler.scheduleAll mem notScheduled full positive now complete,
      fun j scheduled => ?_, ?_, fun empty => by simp at empty⟩,
      .of_update rfl live ⟨rfl, rfl, rfl, rfl, rfl, rfl, rfl, rfl, rfl,
        by rw [status]; exact Iff.rfl, id⟩ rfl rfl rfl,
      rfl, rfl, rfl, Nat.le_add_right _ _, ⟨_, rfl⟩, ?_, ?_, rfl, .inl ⟨?_, rfl, rfl⟩⟩
    · rcases List.mem_append.mp scheduled with old | new
      · change (Function.update st.scheduler.seqs i _ j).kvCompressed = false
        rw [others j old]
        exact valid.uncompressed j old
      · rw [List.mem_singleton.mp new]
        change (Function.update st.scheduler.seqs i _ i).kvCompressed = false
        rw [Function.update_self]
        exact phase.uncompressed
    · rcases valid.progress with exhausted | running
      · omega
      · refine .inr fun j scheduled => ?_
        rcases List.mem_append.mp scheduled with old | new
        · change (Function.update st.scheduler.seqs i _ j).status = _
          rw [others j old]
          exact running j old
        · rw [List.mem_singleton.mp new]
          change (Function.update st.scheduler.seqs i _ i).status = _
          rw [Function.update_self]
    · change (Function.update st.scheduler.seqs i _ i).blockTable.length =
        (Function.update st.scheduler.seqs i _ i).numBlocks cfg
      rw [Function.update_self]
      exact full
    · change _ < (Function.update st.scheduler.seqs i _ i).computedTokens
      rw [Function.update_self]
      exact advances
    · change (Function.update st.scheduler.seqs i _ i).status = _
      rw [Function.update_self]
  · next incomplete =>
    have partly : (st.scheduler.seqs i).numCachedTokens + count <
        (st.scheduler.seqs i).numTokens :=
      Nat.lt_of_le_of_ne (by omega) incomplete
    have exhausted : cfg.maxNumBatchedTokens ≤ st.numBatchedTokens + count := by omega
    refine ⟨⟨valid.scheduler.schedulePart mem notScheduled full positive now partly,
      fun j scheduled => ?_, .inl exhausted, fun empty => by simp at empty⟩,
      .of_update rfl live ⟨rfl, rfl, rfl, rfl, rfl, rfl, rfl, rfl, rfl, Iff.rfl, id⟩ rfl rfl rfl,
      rfl, rfl, rfl, Nat.le_add_right _ _, ⟨_, rfl⟩, ?_, ?_, rfl, .inr ⟨?_, rfl, rfl, exhausted⟩⟩
    · rcases List.mem_append.mp scheduled with old | new
      · change (Function.update st.scheduler.seqs i _ j).kvCompressed = false
        rw [others j old]
        exact valid.uncompressed j old
      · rw [List.mem_singleton.mp new]
        change (Function.update st.scheduler.seqs i _ i).kvCompressed = false
        rw [Function.update_self]
        exact phase.uncompressed
    · change (Function.update st.scheduler.seqs i _ i).blockTable.length =
        (Function.update st.scheduler.seqs i _ i).numBlocks cfg
      rw [Function.update_self]
      exact full
    · change _ < (Function.update st.scheduler.seqs i _ i).computedTokens
      rw [Function.update_self]
      exact advances
    · change (Function.update st.scheduler.seqs i _ i).status = _
      rw [Function.update_self]
      exact status

/-- Changing the selected request before its tokens are scheduled. -/
theorem Schedules.of_update {prepared : PrefillState} (schedules : Schedules cfg prepared i st')
    (scheduledSeqs : prepared.scheduledSeqs = st.scheduledSeqs)
    (budgetDeferred : prepared.budgetDeferred = st.budgetDeferred)
    (residentProgressOnly : prepared.residentProgressOnly = st.residentProgressOnly)
    (batched : st.numBatchedTokens ≤ prepared.numBatchedTokens)
    (seqs : ∃ seq, prepared.scheduler.seqs = Function.update st.scheduler.seqs i seq)
    (computed : (st.scheduler.seqs i).computedTokens ≤
      (prepared.scheduler.seqs i).computedTokens)
    (pendingRestores : prepared.scheduler.pendingRestores = st.scheduler.pendingRestores)
    (waiting : prepared.scheduler.waiting = st.scheduler.waiting)
    (running : prepared.scheduler.running = st.scheduler.running) : Schedules cfg st i st' where
  scheduledSeqs := scheduledSeqs ▸ schedules.scheduledSeqs
  budgetDeferred := schedules.budgetDeferred.trans budgetDeferred
  residentProgressOnly := schedules.residentProgressOnly.trans residentProgressOnly
  batched := batched.trans schedules.batched
  seqs := by
    obtain ⟨seq, before⟩ := seqs
    obtain ⟨seq', after⟩ := schedules.seqs
    exact ⟨seq', by rw [after, before, Function.update_idem]⟩
  full := schedules.full
  advances := computed.trans_lt schedules.advances
  pendingRestores := schedules.pendingRestores.trans pendingRestores
  moved := by
    rw [← waiting, ← running]
    exact schedules.moved

/-! ## Admitting the selected request -/

/-- The ways in which the admission of a selected request ends. -/
inductive Admits (cfg : Config) (env : ScheduleEnv cfg) (st : PrefillState) (i : SeqId) : PrefillControl → Prop
  | blocked {bm' : BlockManager} {matched : List BlockId}
      (same : SameMemory cfg st.scheduler.blockManager bm')
      (table : (st.scheduler.seqs i).blockTable = [])
      (longest : Matches cfg bm' (st.scheduler.seqs i) matched)
      (lacking : ¬Fits cfg bm' (st.scheduler.seqs i) matched) :
      Admits cfg env st i (({ st with
        scheduler := { st.scheduler with blockManager := bm' } } :
          PrefillState).allocationBlocked cfg i)
  | forbidden {bm' : BlockManager} (same : SameMemory cfg st.scheduler.blockManager bm')
      (table : (st.scheduler.seqs i).blockTable = []) (busy : st.scheduler.running ≠ []) :
      Admits cfg env st i (({ st with
        scheduler := { st.scheduler with blockManager := bm' } } : PrefillState).deferBudget cfg i)
  | restored {s' : Scheduler} (started : RestoreStarted env st.scheduler i s') :
      Admits cfg env st i (.again { st with scheduler := s' })
  | postponed {s' : Scheduler} (batched : st.scheduledSeqs ≠ [])
      (seqs : ∃ seq, s'.seqs = Function.update st.scheduler.seqs i seq)
      (pendingRestores : s'.pendingRestores = st.scheduler.pendingRestores) :
      Admits cfg env st i (.leave { st with scheduler := s' })
  | scheduled {st' : PrefillState} (schedules : Schedules cfg st i st') :
      Admits cfg env st i (.again st')

theorem Valid.congr (valid : st.Valid cfg ids kv) (scheduler : st'.scheduler = st.scheduler)
    (scheduledSeqs : st'.scheduledSeqs = st.scheduledSeqs)
    (numBatchedTokens : st'.numBatchedTokens = st.numBatchedTokens) : st'.Valid cfg ids kv := by
  refine ⟨?_, ?_, ?_, ?_⟩
  · rw [scheduler, scheduledSeqs]
    exact valid.scheduler
  · rw [scheduler, scheduledSeqs]
    exact valid.uncompressed
  · rw [scheduler, scheduledSeqs, numBatchedTokens]
    exact valid.progress
  · rw [scheduledSeqs, numBatchedTokens]
    exact valid.unbatched

theorem deferBudget_state (st : PrefillState) :
    (st.deferBudget cfg i).state = { st with budgetDeferred := insert i st.budgetDeferred } := by
  unfold deferBudget
  dsimp only
  split <;> rfl

theorem allocationBlocked_state (st : PrefillState) :
    (st.allocationBlocked cfg i).state.scheduler = st.scheduler ∧
      (st.allocationBlocked cfg i).state.scheduledSeqs = st.scheduledSeqs ∧
      (st.allocationBlocked cfg i).state.numBatchedTokens = st.numBatchedTokens := by
  unfold allocationBlocked
  dsimp only
  split
  · exact ⟨rfl, rfl, rfl⟩
  · split
    · rw [deferBudget_state]
      exact ⟨rfl, rfl, rfl⟩
    · exact ⟨rfl, rfl, rfl⟩

/-- What an iteration guarantees beyond its outcome. -/
structure Sound (cfg : Config) (ids : Finset SeqId) (kv : KvStore) (st : PrefillState)
    (control : PrefillControl) : Prop where
  valid : control.state.Valid cfg ids kv
  follows : Follows st.scheduler control.state.scheduler

/-- A request whose pages have just been attached schedules its tokens. -/
theorem Valid.scheduleAttached (valid : st.Valid cfg ids kv)
    (budget : st.numBatchedTokens < cfg.maxNumBatchedTokens) (mem : i ∈ st.scheduler.waiting)
    {attached : Sequence} (valid' : (st.scheduler.put i bm' attached).Valid cfg ids kv
      Sequence.numCachedTokens [] st.scheduledSeqs)
    (sameRequest : SameRequest (st.scheduler.seqs i) attached)
    (computed : (st.scheduler.seqs i).computedTokens ≤ attached.computedTokens)
    (full : attached.blockTable.length = attached.numBlocks cfg) (now : ℚ) :
    ∃ st', ({ st with scheduler := st.scheduler.put i bm' attached } :
        PrefillState).schedulePrefill i (attached.numTokens - attached.numCachedTokens)
          (cfg.maxNumBatchedTokens - st.numBatchedTokens) now = st' ∧
      Schedules cfg st i st' ∧ Sound cfg ids kv st (.again st') := by
  obtain ⟨known, status, -⟩ := valid.scheduler.waiting mem
  have self : (st.scheduler.put i bm' attached).seqs i = attached := Function.update_self _ _ _
  have prepared := valid.withRequest budget mem rfl valid'
  obtain ⟨valid'', follows, schedules⟩ := prepared.schedulePrefill budget mem
    (by rw [self]; exact full)
    (show attached.numTokens - attached.numCachedTokens = _ by rw [self]) now
  have attaches : Follows st.scheduler (st.scheduler.put i bm' attached) :=
    .of_update rfl (by rw [status]; trivial) sameRequest rfl rfl rfl
  exact ⟨_, rfl, schedules.of_update rfl rfl rfl (le_refl _) ⟨attached, rfl⟩ (by rw [self]; exact computed) rfl
    rfl rfl, valid'', attaches.trans follows⟩

/-- A request whose capacity has been checked is admitted, or postponed behind the batch. -/
theorem Valid.admitChecked (valid : st.Valid cfg ids kv)
    (budget : st.numBatchedTokens < cfg.maxNumBatchedTokens) (mem : i ∈ st.scheduler.waiting)
    (table : (st.scheduler.seqs i).blockTable = [])
    (longest : Matches cfg st.scheduler.blockManager (st.scheduler.seqs i) matched)
    (current : PlanCurrent cfg st.scheduler.blockManager (st.scheduler.seqs i))
    (fits : Fits cfg st.scheduler.blockManager (st.scheduler.seqs i) matched) (now : ℚ) :
    ∃ control, (do
      let numTokens := (st.scheduler.seqs i).numTokens - matched.length * cfg.blockSize
      if cfg.maxNumBatchedTokens - st.numBatchedTokens < numTokens ∧ st.scheduledSeqs ≠ [] then
        .ok (.leave st)
      else do
        let previousCachedTokens := (st.scheduler.seqs i).numCachedTokens
        let (bm, seq) ←
          st.scheduler.blockManager.allocate cfg (st.scheduler.seqs i) matched.length
        let s := st.scheduler.put i bm
          (seq.recordReusedTokens (seq.numCachedTokens - previousCachedTokens))
        .ok (.again (({ st with scheduler := s } : PrefillState).schedulePrefill i numTokens
          (cfg.maxNumBatchedTokens - st.numBatchedTokens) now))) = Except.ok control ∧
      ((st.scheduledSeqs ≠ [] ∧ control = .leave st) ∨
        ∃ st', control = .again st' ∧ Schedules cfg st i st') ∧
      Sound cfg ids kv st control := by
  dsimp only
  split
  · next postponed => exact ⟨_, rfl, .inl ⟨postponed.2, rfl⟩, valid, .refl _⟩
  · have idle := valid.idle budget mem
    obtain ⟨known, status, phase⟩ := valid.scheduler.waiting mem
    have nonempty : 0 < (st.scheduler.seqs i).numTokens := (Nat.zero_le _).trans_lt phase.short
    have pages := @Sequence.numBlocks_pos cfg _ nonempty
    obtain ⟨bm', fresh, allocated, length, valid', -, -, -⟩ :=
      valid.scheduler.allocate mem table idle longest current fits
    let admitted := (st.scheduler.seqs i).admitted cfg (matched ++ fresh) matched.length
    let attached := admitted.recordReusedTokens
      (admitted.numCachedTokens - (st.scheduler.seqs i).numCachedTokens)
    have self : (st.scheduler.put i bm' admitted).seqs i = admitted := Function.update_self _ _ _
    have sameRequest : SameRequest (st.scheduler.seqs i) attached :=
      ⟨rfl, rfl, rfl, rfl, rfl, rfl, rfl, rfl, rfl, Iff.rfl, id⟩
    have waits : admitted.Waiting cfg := phase.admitted idle nonempty longest.length_le length
    have twice : (st.scheduler.put i bm' admitted).setSeq i attached =
        st.scheduler.put i bm' attached := by
      simp only [Scheduler.put, Scheduler.setSeq, Function.update_idem]
    have valid'' := @Valid.setSeq _ _ _ _ _ _ _ _ attached valid' known
      (by rw [self]; exact ⟨rfl, rfl, rfl, rfl, rfl, rfl⟩)
      (sameRequest.wellFormed (valid.scheduler.request i known) (.of_waiting status
        ⟨waits.uncompressed, waits.owned, waits.retained, waits.short, waits.physical⟩))
      (by rw [self]; rfl) (by change (st.scheduler.seqs i).status ≠ _; rw [status]; simp)
      (by rw [self]; exact Iff.rfl) (by rw [self]; exact le_refl _)
    rw [twice] at valid''
    have full : (matched ++ fresh).length = (st.scheduler.seqs i).numBlocks cfg := by
      have bound := longest.length_le
      rw [List.length_append]
      omega
    have computed : (st.scheduler.seqs i).computedTokens ≤ attached.computedTokens := by
      rw [Sequence.computedTokens, idle, (phase.retained (by rw [table]; exact pages)).1, table]
      exact (Nat.zero_mul _).le.trans (Nat.zero_le _)
    obtain ⟨st', scheduled, schedules, sound⟩ :=
      valid.scheduleAttached budget mem valid'' sameRequest computed full now
    refine ⟨.again st', ?_, .inr ⟨st', rfl, schedules⟩, sound⟩
    rw [allocated, Py.ok_bind, ← scheduled]
    rfl

/-- A capacity check may plan the admission of a request without pages. -/
theorem Valid.withPlan (valid : st.Valid cfg ids kv) (mem : i ∈ st.scheduler.waiting)
    (table : (st.scheduler.seqs i).blockTable = [])
    (same : SameMemory cfg st.scheduler.blockManager bm')
    (plans : ∀ j, j ≠ i → bm'.pendingMatches j = st.scheduler.blockManager.pendingMatches j)
    (resumePlans :
      bm'.pendingResumeMatches = st.scheduler.blockManager.pendingResumeMatches) :
    ({ st with scheduler := { st.scheduler with blockManager := bm' } } :
      PrefillState).Valid cfg ids kv := by
  refine valid.withScheduler (valid.scheduler.look same (fun j planned => ?_) fun j planned => ?_)
    fun _ _ => ⟨rfl, rfl⟩
  · by_cases self : j = i
    · subst self
      exact .inr ⟨mem, table⟩
    · rw [plans j self] at planned
      exact .inl planned
  · rw [resumePlans] at planned
    exact .inl planned

/-- A capacity check which succeeds has planned the longest match. -/
theorem Valid.canAllocate (valid : st.Valid cfg ids kv) (mem : i ∈ st.scheduler.waiting)
    (table : (st.scheduler.seqs i).blockTable = []) {n : ℕ}
    (checked : st.scheduler.blockManager.canAllocate cfg (st.scheduler.seqs i) = (bm', some n)) :
    ∃ matched, n = matched.length ∧ Matches cfg bm' (st.scheduler.seqs i) matched ∧
      PlanCurrent cfg bm' (st.scheduler.seqs i) ∧ Fits cfg bm' (st.scheduler.seqs i) matched ∧
      bm'.pendingMatches (st.scheduler.seqs i).seqId = some matched ∧
      ({ st with scheduler := { st.scheduler with blockManager := bm' } } :
        PrefillState).Valid cfg ids kv := by
  obtain ⟨known, -, -⟩ := valid.scheduler.waiting mem
  have named := (valid.scheduler.request i known).named
  obtain ⟨bm₁, matched, longest, same, resumePlans, ⟨fits, checked', plans⟩ | ⟨-, checked', -⟩⟩ :=
    canAllocate_spec valid.scheduler.memory.index (st.scheduler.seqs i)
  · rw [checked] at checked'
    cases checked'
    have longest' := longest.of_sameMemory same
    have planned : bm'.pendingMatches (st.scheduler.seqs i).seqId = some matched := by
      rw [plans, Function.update_self]
    refine ⟨matched, rfl, longest', fun plan found => ?_, same.fits.mpr fits, planned,
      valid.withPlan mem table same (fun j differ => ?_) resumePlans⟩
    · rw [planned, Option.some.injEq] at found
      exact found ▸ longest'
    · rw [plans, named, Function.update_of_ne differ]
  · rw [checked] at checked'
    cases checked'

/-- The admission of a selected request without pages raises nothing. -/
theorem Valid.admitFresh (valid : st.Valid cfg ids kv) (env : ScheduleEnv cfg)
    (budget : st.numBatchedTokens < cfg.maxNumBatchedTokens) (mem : i ∈ st.scheduler.waiting)
    (table : (st.scheduler.seqs i).blockTable = []) (now : ℚ) :
    ∃ control, st.admitFresh cfg env i (cfg.maxNumBatchedTokens - st.numBatchedTokens) now =
        .ok control ∧ Admits cfg env st i control ∧ Sound cfg ids kv st control := by
  obtain ⟨known, status, phase⟩ := valid.scheduler.waiting mem
  have named := (valid.scheduler.request i known).named
  obtain ⟨bm', matched, longest, same, resumePlans, outcome⟩ :=
    canAllocate_spec valid.scheduler.memory.index (st.scheduler.seqs i)
  have longest' := longest.of_sameMemory same
  have looked : Follows st.scheduler { st.scheduler with blockManager := bm' } :=
    .of_seqs rfl rfl rfl rfl
  unfold PrefillState.admitFresh
  rcases outcome with ⟨fits, checked, plans⟩ | ⟨lacking, checked, plans⟩
  · have fits' := same.fits.mpr fits
    have valid' := valid.withPlan mem table same (fun j differ => by
      rw [plans, named, Function.update_of_ne differ]) resumePlans
    have planned : bm'.pendingMatches (st.scheduler.seqs i).seqId = some matched := by
      rw [plans, Function.update_self]
    have current : PlanCurrent cfg bm' (st.scheduler.seqs i) := fun plan found => by
      rw [planned, Option.some.injEq] at found
      exact found ▸ longest'
    have forbids : ∃ forbidden, reserveForbids cfg
        { st.scheduler with blockManager := bm' } i = .ok forbidden ∧
          (forbidden = true → st.scheduler.running ≠ []) := by
      unfold reserveForbids
      split
      · next busy =>
        rw [plannedAllocationPages, planned]
        exact ⟨_, rfl, fun _ => busy.2⟩
      · exact ⟨false, rfl, nofun⟩
    obtain ⟨forbidden, checkedReserve, busy⟩ := forbids
    rw [checked]
    dsimp only
    rw [checkedReserve, Py.ok_bind]
    cases forbidden with
    | true =>
      have popped : SameMemory cfg bm' (bm'.popPendingMatch i) := .of_plans _ _
      refine ⟨_, rfl, .forbidden (same.trans popped) table (busy rfl), ?_, ?_⟩
      · rw [deferBudget_state]
        exact (valid.withPlan mem table (same.trans popped) (fun j differ => by
          simp [popPendingMatch, plans, named, differ]) resumePlans).congr rfl rfl rfl
      · rw [deferBudget_state]
        exact .of_seqs rfl rfl rfl rfl
    | false =>
      obtain ⟨s', started, result, valid'', follows, outcome⟩ :=
        valid'.scheduler.startRemoteRestore env now mem table (valid.idle budget mem) longest'
          current fits'
      dsimp only at result
      simp only [Bool.false_eq_true, if_false]
      rw [result, Py.ok_bind]
      rcases outcome with ⟨rfl, started⟩ | ⟨rfl, unchanged | refused⟩
      · obtain ⟨seq, seqs⟩ := started.seqs
        refine ⟨_, rfl, .restored ⟨⟨seq, seqs⟩, started.waiting, started.running,
          started.pendingRestores, started.attempted, started.offered⟩,
          valid'.withRequest budget mem seqs valid'', looked.trans follows⟩
      · subst unchanged
        simp only [Bool.false_eq_true, if_false]
        obtain ⟨control, admitted, admits, sound⟩ :=
          valid'.admitChecked budget mem table longest' current fits' now
        refine ⟨control, admitted, ?_, sound.valid, looked.trans sound.follows⟩
        rcases admits with ⟨batched, rfl⟩ | ⟨st', rfl, schedules⟩
        · exact .postponed batched ⟨_, (Function.update_eq_self i _).symm⟩ rfl
        · exact .scheduled (schedules.of_update rfl rfl rfl (le_refl _)
            ⟨_, (Function.update_eq_self i _).symm⟩
            (le_refl _) rfl rfl rfl)
      · simp only [Bool.false_eq_true, if_false]
        obtain ⟨seq, seqs⟩ := refused.seqs
        have refusedValid := valid'.withRequest budget mem seqs valid''
        have current' : PlanCurrent cfg s'.blockManager (s'.seqs i) := fun plan found => by
          rw [(valid''.request i known).named, refused.noPlan] at found
          cases found
        obtain ⟨control, admitted, admits, sound⟩ := refusedValid.admitChecked budget
          (refused.waiting ▸ mem) refused.table refused.longest current' refused.fits now
        refine ⟨control, admitted, ?_, sound.valid, looked.trans (follows.trans sound.follows)⟩
        rcases admits with ⟨batched, rfl⟩ | ⟨st', rfl, schedules⟩
        · exact .postponed batched ⟨seq, seqs⟩ refused.pendingRestores
        · refine .scheduled (schedules.of_update rfl rfl rfl (le_refl _) ⟨seq, seqs⟩ ?_
            refused.pendingRestores
            refused.waiting refused.running)
          have pages := @Sequence.numBlocks_pos cfg _ ((Nat.zero_le _).trans_lt phase.short)
          rw [Sequence.computedTokens, valid.idle budget mem,
            (phase.retained (by rw [table]; exact pages)).1, table]
          exact (Nat.zero_mul _).le.trans (Nat.zero_le _)
  · rw [checked]
    have valid' := valid.withPlan mem table same (fun j differ => by
      rw [plans, named, Function.update_of_ne differ]) resumePlans
    obtain ⟨scheduler, scheduledSeqs, batched⟩ := @allocationBlocked_state cfg i
      { st with scheduler := { st.scheduler with blockManager := bm' } }
    refine ⟨_, rfl, .blocked same table longest' fun fits => lacking (same.fits.mp fits), ?_, ?_⟩
    · exact valid'.congr scheduler scheduledSeqs batched
    · rw [scheduler]
      exact looked

/-- A request which can resume is admitted, or postponed behind the batch. -/
theorem Valid.admitResident (valid : st.Valid cfg ids kv)
    (budget : st.numBatchedTokens < cfg.maxNumBatchedTokens) (mem : i ∈ st.scheduler.waiting)
    (table : (st.scheduler.seqs i).blockTable ≠ [])
    (resumable : Resumable cfg st.scheduler i matched) (now : ℚ) :
    ∃ control, st.admitResident cfg i (cfg.maxNumBatchedTokens - st.numBatchedTokens) now =
        .ok control ∧ Admits cfg env st i control ∧ Sound cfg ids kv st control := by
  obtain ⟨known, status, phase⟩ := valid.scheduler.waiting mem
  have idle := valid.idle budget mem
  obtain ⟨bm', fresh, reused, resumed, length, valid'⟩ :=
    valid.scheduler.resume mem table idle resumable
  let attached := ((st.scheduler.seqs i).resumed cfg
    (resumeSuffix cfg (st.scheduler.seqs i) matched) fresh).recordReusedTokens reused
  have self : (st.scheduler.put i bm' attached).seqs i = attached := Function.update_self _ _ _
  have sameRequest : SameRequest (st.scheduler.seqs i) attached :=
    ⟨rfl, rfl, rfl, rfl, rfl, rfl, rfl, rfl, rfl, Iff.rfl, id⟩
  have owned := phase.owned
  have full : ((st.scheduler.seqs i).blockTable ++ resumeSuffix cfg (st.scheduler.seqs i) matched ++
      fresh).length = (st.scheduler.seqs i).numBlocks cfg := by
    simp only [List.length_append]
    omega
  have computed : (st.scheduler.seqs i).computedTokens ≤ attached.computedTokens :=
    Nat.add_le_add_right (Nat.le_add_right _ _) _
  unfold PrefillState.admitResident
  rw [resumed, Py.ok_bind]
  dsimp only
  split
  · next postponed =>
    exact ⟨_, rfl, .postponed postponed.2 ⟨attached, rfl⟩ rfl,
      valid.withRequest budget mem rfl valid',
      .of_update rfl (by rw [status]; trivial) sameRequest rfl rfl rfl⟩
  · obtain ⟨st', scheduled, schedules, sound⟩ :=
      valid.scheduleAttached budget mem valid' sameRequest computed full now
    refine ⟨.again st', ?_, .scheduled schedules, sound⟩
    rw [← scheduled, self]

/-! ## Selecting a request -/

/-- The request an iteration selects. -/
def Selects (cfg : Config) (now : ℚ) (st : PrefillState) (i : SeqId) : Prop :=
  ∃ eligible, st.eligible cfg now = some eligible ∧
    selectNext cfg st.scheduler.estimator st.scheduler.seqs st.scheduler.stepId now eligible =
      some i

end PrefillState

theorem selectNext_mem {estimator : ExecutionTimeEstimator} {seqs : SeqId → Sequence} {step : ℕ}
    {queue : List SeqId} (selected : selectNext cfg estimator seqs step now queue = some i) :
    i ∈ queue := by
  unfold selectNext at selected
  split at selected
  · exact List.mem_of_head? selected
  · exact List.argmin_mem selected

theorem selectNext_isSome (cfg : Config) (estimator : ExecutionTimeEstimator)
    (seqs : SeqId → Sequence) (step : ℕ) (now : ℚ) {queue : List SeqId} (nonempty : queue ≠ []) :
    ∃ i, selectNext cfg estimator seqs step now queue = some i := by
  cases selected : selectNext cfg estimator seqs step now queue with
  | some i => exact ⟨i, rfl⟩
  | none =>
    unfold selectNext at selected
    split at selected
    · exact absurd (List.head?_eq_none_iff.mp selected) nonempty
    · exact absurd (List.argmin_eq_none.mp selected) nonempty

namespace PrefillState

theorem prefersPrefill_nil (st : PrefillState) : st.prefersPrefill cfg now [] = false := by
  unfold prefersPrefill shouldSchedulePrefill selectNext
  split
  · rfl
  · simp

/-- The waiting requests an iteration considers. -/
def candidates (st : PrefillState) : List SeqId :=
  if st.residentProgressOnly then st.scheduler.waiting.filter st.scheduler.ownsBlocks
  else st.scheduler.waiting

/-- The considered requests which are not deferred. -/
def kept (st : PrefillState) : List SeqId :=
  if st.budgetDeferred = ∅ then st.candidates
  else st.candidates.filter (· ∉ st.budgetDeferred)

theorem eligible_eq (st : PrefillState) : st.eligible cfg now =
    if st.residentProgressOnly ∧ st.candidates = [] then none
    else if st.budgetDeferred ≠ ∅ ∧ (st.kept = [] ∨ st.prefersPrefill cfg now st.kept = false) then
      none
    else if ∃ limit ∈ cfg.maxNumActiveSeqs, limit ≤ st.scheduler.residentCount then
      if st.prefersPrefill cfg now (st.kept.filter st.scheduler.ownsBlocks) then
        some (st.kept.filter st.scheduler.ownsBlocks)
      else none
    else some st.kept := rfl

theorem mem_candidates : i ∈ st.candidates ↔ i ∈ st.scheduler.waiting ∧
    (st.residentProgressOnly = true → (st.scheduler.seqs i).blockTable ≠ []) := by
  unfold candidates
  cases st.residentProgressOnly <;> simp [ownsBlocks]

theorem mem_kept : i ∈ st.kept ↔ i ∈ st.candidates ∧ i ∉ st.budgetDeferred := by
  unfold kept
  split
  · next none_deferred => simp [none_deferred]
  · simp

/-- The eligible requests are some of the kept ones. -/
theorem mem_kept_of_eligible {eligible : List SeqId} (found : st.eligible cfg now = some eligible)
    (mem : i ∈ eligible) : i ∈ st.kept := by
  rw [eligible_eq] at found
  split at found
  · cases found
  split at found
  · cases found
  split at found
  · split at found
    · rw [← Option.some.inj found] at mem
      exact List.mem_of_mem_filter mem
    · cases found
  · rwa [← Option.some.inj found] at mem

theorem eligible_ne_nil {eligible : List SeqId} (found : st.eligible cfg now = some eligible)
    (nonempty : st.scheduler.waiting ≠ []) : eligible ≠ [] := by
  rw [eligible_eq] at found
  split at found
  · cases found
  next someCandidate =>
  split at found
  · cases found
  next someKept =>
  split at found
  · split at found
    · next prefers =>
      rw [← Option.some.inj found]
      rintro empty
      rw [empty, prefersPrefill_nil] at prefers
      cases prefers
    · cases found
  · rw [← Option.some.inj found]
    intro empty
    by_cases deferred : st.budgetDeferred = ∅
    · rw [kept, if_pos deferred] at empty
      by_cases only : st.residentProgressOnly = true
      · exact someCandidate ⟨only, empty⟩
      · rw [candidates, if_neg only] at empty
        exact nonempty empty
    · exact someKept ⟨deferred, .inl empty⟩

theorem Selects.mem (selects : Selects cfg now st i) : i ∈ st.scheduler.waiting ∧
    i ∉ st.budgetDeferred ∧
      (st.residentProgressOnly = true → (st.scheduler.seqs i).blockTable ≠ []) := by
  obtain ⟨eligible, found, selected⟩ := selects
  obtain ⟨candidate, notDeferred⟩ := mem_kept.mp (mem_kept_of_eligible found
    (selectNext_mem selected))
  obtain ⟨mem, resident⟩ := mem_candidates.mp candidate
  exact ⟨mem, notDeferred, resident⟩

end PrefillState

end Scheduler

end NanoVllm
