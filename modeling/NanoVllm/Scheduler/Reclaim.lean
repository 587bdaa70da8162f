import NanoVllm.Scheduler.Invariant

/-!
# Reclaim, compression and preemption

The operations by which a request gives up pages during `schedule()`. Each of them keeps the
invariant and raises nothing. `_ensure_resume_capacity` empties the tables of waiting requests
until the selected one can resume.
-/

namespace NanoVllm

open BlockManager

variable {cfg : Config} {ids : Finset SeqId} {kv : KvStore} {held batch : List SeqId}
  {s s' : Scheduler} {i j : SeqId} {seq : Sequence} {bm' : BlockManager}

namespace Sequence

/-- A request after `_apply_kv_reclaim`. -/
def reclaimed (cfg : Config) (seq : Sequence) (keep freed invalidated : ℕ) : Sequence :=
  (seq.withPrefix cfg keep).recordKvReclaim freed keep invalidated

/-- A compressed request after `deallocate` in `preempt`. -/
def reclaimedAll (seq : Sequence) (freed : ℕ) : Sequence :=
  seq.withoutPages.recordKvReclaim freed 0 seq.numCachedTokens

/-- A request at the end of `preempt`. -/
def preempted (seq : Sequence) : Sequence :=
  { seq with status := .waiting, isPrefill := true, preemptionCount := seq.preemptionCount + 1 }

theorem reclaimed_sameKv (keep freed invalidated : ℕ) :
    (seq.withPrefix cfg keep).SameKv (seq.reclaimed cfg keep freed invalidated) :=
  ⟨rfl, rfl, rfl, rfl, rfl, rfl⟩

theorem numBlocks_pos (nonempty : 0 < seq.numTokens) : 0 < seq.numBlocks cfg :=
  Nat.div_pos (by omega) cfg.blockSize_pos

theorem numTokens_le (cfg : Config) (seq : Sequence) :
    seq.numTokens ≤ seq.numBlocks cfg * cfg.blockSize := by
  have := Nat.lt_mul_of_div_lt (Nat.lt_succ_self
    ((seq.numTokens + cfg.blockSize - 1) / cfg.blockSize)) cfg.blockSize_pos
  rw [Nat.succ_mul] at this
  unfold numBlocks
  omega

/-- The complete cached pages of a request are at most its pages. -/
theorem le_numBlocks_of_mul_lt {n : ℕ} (short : n * cfg.blockSize < seq.numTokens) :
    n ≤ seq.numBlocks cfg :=
  (Nat.lt_of_mul_lt_mul_right (short.trans_le (numTokens_le cfg seq))).le

end Sequence

namespace Scheduler

/-! ## Reclaim plans -/

/-- A reclaim plan keeps owned pages with cached tokens only. -/
structure Admissible (cfg : Config) (seq : Sequence) (decision : KvReclaimDecision) : Prop where
  owned : decision.keepBlocks ≤ seq.blockTable.length
  complete : decision.keepBlocks * cfg.blockSize ≤ seq.numCachedTokens

theorem kvReclaimDecision_admissible (cfg : Config) (seq : Sequence) (keepBlocks : ℤ) :
    Admissible cfg seq
      (kvReclaimDecision cfg seq (seq.numCachedTokens / cfg.blockSize) keepBlocks) := by
  have bounds : (kvReclaimDecision cfg seq (seq.numCachedTokens / cfg.blockSize)
      keepBlocks).keepBlocks ≤ min (seq.numCachedTokens / cfg.blockSize)
        seq.blockTable.length := by
    simp only [kvReclaimDecision]
    generalize seq.numCachedTokens / cfg.blockSize = cached
    omega
  refine ⟨bounds.trans (Nat.min_le_right _ _), ?_⟩
  exact (Nat.le_div_iff_mul_le cfg.blockSize_pos).mp (bounds.trans (Nat.min_le_left _ _))

theorem kvReclaimPlan_admissible (cfg : Config) (seq : Sequence) (budget : Option ℚ)
    (minReclaimBlocks : ℕ) :
    Admissible cfg seq (kvReclaimPlan cfg seq budget minReclaimBlocks) := by
  unfold kvReclaimPlan
  split <;> exact kvReclaimDecision_admissible cfg seq _

/-- Every reclaim plan gives up a page when at least one is asked for. -/
theorem kvReclaimPlan_gives_up (cfg : Config) {seq : Sequence} (owned : seq.blockTable ≠ [])
    (budget : Option ℚ) {minReclaimBlocks : ℕ} (positive : 1 ≤ minReclaimBlocks) :
    (kvReclaimPlan cfg seq budget minReclaimBlocks).keepBlocks < seq.blockTable.length := by
  have length := List.length_pos_iff.mpr owned
  unfold kvReclaimPlan
  split
  · simp only [recomputePlan, kvReclaimDecision]
    omega
  · simp only [sloAwarePlan, kvReclaimDecision]
    omega

theorem recomputePlan_keepBlocks (cfg : Config) (seq : Sequence) :
    (recomputePlan cfg seq).keepBlocks = 0 := by
  simp only [recomputePlan, kvReclaimDecision]
  omega

/-- `_apply_kv_reclaim` with an admissible plan. -/
theorem applyKvReclaim_spec
    (memory : MemoryValid cfg ids s.seqs s.blockManager kv Sequence.numCachedTokens)
    (known : i ∈ ids) (uncompressed : (s.seqs i).kvCompressed = false)
    {decision : KvReclaimDecision} (admissible : Admissible cfg (s.seqs i) decision) :
    ∃ bm' freed, s.applyKvReclaim cfg i decision = .ok (s.put i bm' ((s.seqs i).reclaimed cfg
        decision.keepBlocks freed decision.invalidatedTokens)) ∧
      MemoryValid cfg ids (Function.update s.seqs i ((s.seqs i).reclaimed cfg
        decision.keepBlocks freed decision.invalidatedTokens)) bm' kv
          Sequence.numCachedTokens ∧
      RefsOnly (s.blockManager.popPendingResumeMatch (s.seqs i).seqId) bm' := by
  obtain ⟨bm', freed, reclaimed, memory', same⟩ :=
    memory.reclaimSuffix known uncompressed admissible.owned admissible.complete
  refine ⟨bm', freed, ?_, memory'.replace (Sequence.reclaimed_sameKv _ _ _) (le_refl _), same⟩
  rw [applyKvReclaim, reclaimed, Py.ok_bind]
  rfl

/-- The plans after pages have been released. -/
theorem PlansKept.of_release (named : (s.seqs i).seqId = i)
    (same : RefsOnly (s.blockManager.popPendingResumeMatch (s.seqs i).seqId) bm')
    (plan : s.blockManager.pendingMatches i ≠ none →
      seq.status = .waiting ∧ seq.blockTable = []) : PlansKept i seq s.blockManager bm' := by
  rw [named] at same
  refine ⟨fun j _ => ?_, fun j differ => ?_, ?_, ?_⟩
  · rw [same.pendingMatches]
    exact id
  · rw [same.pendingResumeMatches]
    simp [popPendingResumeMatch, differ]
  · rw [same.pendingMatches]
    exact plan
  · rw [same.pendingResumeMatches]
    simp [popPendingResumeMatch]

theorem reclaimed_sameRequest (seq : Sequence) (keep freed invalidated : ℕ) :
    SameRequest seq (seq.reclaimed cfg keep freed invalidated) :=
  ⟨rfl, rfl, rfl, rfl, rfl, rfl, rfl, rfl, rfl, Iff.rfl, id⟩

/-- A waiting request whose pages are all reclaimed keeps waiting. -/
theorem Valid.reclaimFully
    (valid : Valid cfg ids kv Sequence.numCachedTokens held batch s) (mem : i ∈ s.waiting)
    (idle : (s.seqs i).numScheduledTokens = 0) :
    ∃ bm' freed invalidated, s.reclaimFully cfg i =
        .ok (s.put i bm' ((s.seqs i).reclaimed cfg 0 freed invalidated)) ∧
      Valid cfg ids kv Sequence.numCachedTokens held batch
        (s.put i bm' ((s.seqs i).reclaimed cfg 0 freed invalidated)) := by
  obtain ⟨known, status, phase⟩ := valid.waiting mem
  have wellFormed := valid.request i known
  have admissible : Admissible cfg (s.seqs i) (recomputePlan cfg (s.seqs i)) :=
    kvReclaimDecision_admissible cfg _ _
  obtain ⟨bm', freed, reclaimed, memory, same⟩ :=
    applyKvReclaim_spec valid.memory known phase.uncompressed admissible
  rw [recomputePlan_keepBlocks] at reclaimed memory
  refine ⟨bm', freed, _, reclaimed, valid.put known memory ?_ rfl ?_ ?_ Iff.rfl⟩
  · have := wellFormed.prompt.trans_le wellFormed.prompt_le
    refine (reclaimed_sameRequest _ _ _ _).wellFormed wellFormed (.of_waiting status ?_)
    refine ⟨phase.uncompressed, Nat.zero_le _, fun _ => ⟨rfl, idle⟩, ?_, rfl⟩
    change 0 * cfg.blockSize + (s.seqs i).numScheduledTokens < (s.seqs i).numTokens
    omega
  · rw [show ((s.seqs i).reclaimed cfg 0 freed _).status = (s.seqs i).status from rfl, status]
    simp
  · exact .of_release wellFormed.named same fun _ => ⟨status, rfl⟩

/-! ## Preemption -/

theorem preempted_waiting_of_reclaimed {keep freed invalidated : ℕ}
    (uncompressed : (s.seqs i).kvCompressed = false)
    (owned : keep ≤ (s.seqs i).blockTable.length)
    (short : keep * cfg.blockSize < (s.seqs i).numTokens)
    (idle : (s.seqs i).numScheduledTokens = 0) :
    ((s.seqs i).reclaimed cfg keep freed invalidated).preempted.Waiting cfg := by
  have length : ((s.seqs i).blockTable.take keep).length = keep := by
    rw [List.length_take, Nat.min_eq_left owned]
  refine ⟨uncompressed, ?_, fun _ => ⟨?_, idle⟩, ?_, rfl⟩
  · exact length.le.trans (Sequence.le_numBlocks_of_mul_lt short)
  · change keep * cfg.blockSize = _ * cfg.blockSize
    exact congrArg (· * cfg.blockSize) length.symm
  · change keep * cfg.blockSize + (s.seqs i).numScheduledTokens < (s.seqs i).numTokens
    omega

/-- A running request owns at least the page of its last computed token. -/
theorem Valid.owns_of_running {computed : Sequence → ℕ}
    (valid : Valid cfg ids kv computed held batch s)
    (mem : i ∈ s.running ++ held) : (s.seqs i).blockTable ≠ [] := by
  intro empty
  rcases valid.running mem with ⟨known, -, phase⟩
  have sameLength := (valid.memory.request i known).sameLength
  have last := phase.last
  rw [empty, List.length_nil, List.length_eq_zero_iff] at sameLength
  simp [sameLength] at last

/-- A request with a pending restore owns all its pages. -/
theorem Valid.owns_of_restoring {computed : Sequence → ℕ}
    (valid : Valid cfg ids kv computed held batch s)
    {state : PendingRestoreState} (mem : state ∈ s.pendingRestores) :
    (s.seqs state.sequence).blockTable ≠ [] := by
  intro empty
  rcases valid.restoring mem with ⟨known, -, phase, -⟩
  have wellFormed := valid.request _ known
  have pages := @Sequence.numBlocks_pos cfg _ (wellFormed.prompt.trans_le wellFormed.prompt_le)
  have full := phase.full
  rw [empty, List.length_nil] at full
  exact pages.ne full

/-- A request which gave up pages and waits again. -/
structure Preempts (s : Scheduler) (i : SeqId) (s' : Scheduler) : Prop where
  seqs : ∃ seq keep, s'.seqs = Function.update s.seqs i seq ∧
    keep < (s.seqs i).blockTable.length ∧ seq.blockTable = (s.seqs i).blockTable.take keep
  waiting : s'.waiting = i :: s.waiting
  running : s'.running = s.running
  pendingRestores : s'.pendingRestores = s.pendingRestores
  follows : Follows s s'

/-- A held running request which is idle after a release of pages enters the waiting queue. -/
theorem Valid.requeue
    (valid : Valid cfg ids kv Sequence.numCachedTokens (i :: held) batch s)
    (notScheduled : i ∉ batch) (released : Sequence)
    (same : SameRequest (s.seqs i) released.preempted)
    (waiting : released.preempted.Waiting cfg) (idle : released.numScheduledTokens = 0)
    {keep : ℕ} (gives_up : keep < (s.seqs i).blockTable.length)
    (table : released.blockTable = (s.seqs i).blockTable.take keep)
    (memory : MemoryValid cfg ids (Function.update s.seqs i released) bm' kv
      Sequence.numCachedTokens)
    (refsOnly : RefsOnly (s.blockManager.popPendingResumeMatch (s.seqs i).seqId) bm') :
    Valid cfg ids kv Sequence.numCachedTokens held batch
        { s.put i bm' released.preempted with waiting := i :: s.waiting } ∧
      Preempts s i { s.put i bm' released.preempted with waiting := i :: s.waiting } := by
  obtain ⟨known, status, phase⟩ := valid.running (i := i) (by simp)
  have wellFormed := valid.request i known
  have notWaiting : i ∉ s.waiting := fun mem => by
    simp [(valid.waiting mem).2.1] at status
  have notPending : i ∉ s.pendingRestores.map PendingRestoreState.sequence := fun mem => by
    simp [(valid.mem_pending.mp mem).2] at status
  have noPlan : s.blockManager.pendingMatches i = none := by
    by_contra planned
    simp [(valid.plans i planned).2.1] at status
  have split : (s.running ++ i :: held).Perm (i :: (s.running ++ held)) := List.perm_middle
  obtain ⟨notRunning, distinct⟩ :=
    List.nodup_cons.mp (split.nodup_iff.mp (valid.distinct .running))
  refine ⟨valid.move known rfl (memory.replace ⟨rfl, rfl, rfl, rfl, rfl, rfl⟩ (le_refl _))
    (same.wellFormed wellFormed (.of_waiting rfl waiting)) (fun status' j differ => ?_)
    (fun status' live => ?_) (fun status' => ?_) (fun state mem => .inl ⟨mem, ?_⟩)
    (.of_release wellFormed.named refsOnly fun planned => absurd noPlan planned)
    valid.batch_distinct (fun _ _ => Iff.rfl) ?_, ⟨_, keep, rfl, gives_up, table⟩, rfl, rfl, rfl,
    .of_update rfl (by rw [status]; trivial) same rfl rfl rfl⟩
  · cases status' with
    | waiting => simp [queue, differ]
    | running => simp [queue, Scheduler.put, differ]
    | _ => exact Iff.rfl
  · cases status' with
    | waiting => simp [queue, Sequence.preempted]
    | waitingForKv => exact iff_of_false notPending nofun
    | running => exact iff_of_false notRunning nofun
    | finished => exact live.elim
    | cancelled => exact live.elim
  · cases status' with
    | waiting => exact List.nodup_cons.mpr ⟨notWaiting, valid.distinct .waiting⟩
    | waitingForKv => exact valid.distinct .waitingForKv
    | running => exact distinct
    | finished => exact List.nodup_nil
    | cancelled => exact List.nodup_nil
  · rintro rfl
    exact notPending (List.mem_map_of_mem mem)
  · exact iff_of_false notScheduled (Nat.not_lt.mpr idle.le)

/-- `preempt` of a held running request without scheduled tokens raises nothing. -/
theorem Valid.preempt (valid : Valid cfg ids kv Sequence.numCachedTokens (i :: held) batch s)
    (env : ScheduleEnv cfg) (notScheduled : i ∉ batch) :
    ∃ s', s.preempt cfg env i = .ok s' ∧
      Valid cfg ids kv Sequence.numCachedTokens held batch s' ∧ Preempts s i s' := by
  obtain ⟨known, status, phase⟩ := valid.running (i := i) (by simp)
  have wellFormed := valid.request i known
  have idle := valid.idle known notScheduled
  have nonempty : 0 < (s.seqs i).numTokens := wellFormed.prompt.trans_le wellFormed.prompt_le
  have inside : i ∈ s.running ++ i :: held := List.mem_append_right _ List.mem_cons_self
  have owned := valid.owns_of_running inside
  cases compressed : (s.seqs i).kvCompressed with
  | true =>
    obtain ⟨bm', deallocated, memory, same⟩ := @MemoryValid.deallocate _ _ _ _ _ _ _ (s.seqs i)
      valid.memory known rfl
    have result := valid.requeue notScheduled
      ((s.seqs i).reclaimedAll
        (bm'.freeBlockIds.length - s.blockManager.freeBlockIds.length))
      ⟨rfl, rfl, rfl, rfl, rfl, rfl, rfl, rfl, rfl, by rw [status]; exact Iff.rfl, id⟩
      ⟨rfl, Nat.zero_le _, fun _ => ⟨(Nat.zero_mul _).symm, idle⟩, ?_, rfl⟩ idle
      (List.length_pos_iff.mpr owned) rfl (memory.replace ⟨rfl, rfl, rfl, rfl, rfl, rfl⟩ (le_refl _)) same
    · refine ⟨_, ?_, result⟩
      simp only [Scheduler.preempt, compressed, if_true, deallocated, Py.ok_bind, Scheduler.put,
        Scheduler.setSeq, Function.update_self, Function.update_idem]
      rfl
    · change 0 + (s.seqs i).numScheduledTokens < (s.seqs i).numTokens
      omega
  | false =>
    let budget := budgetMs cfg s.estimator (s.seqs i) s.stepId (env.preemptNow i)
    let plan := kvReclaimPlan cfg (s.seqs i) budget
      (max 1 (cfg.kvReclaimTargetFreeBlocks - s.blockManager.freeBlockIds.length))
    have admissible : Admissible cfg (s.seqs i) plan := kvReclaimPlan_admissible _ _ _ _
    obtain ⟨bm', freed, reclaimed, memory, same⟩ :=
      applyKvReclaim_spec valid.memory known compressed admissible
    have cached : (s.seqs i).numCachedTokens < (s.seqs i).numTokens := by
      have := phase.next idle
      omega
    have result := valid.requeue notScheduled
      ((s.seqs i).reclaimed cfg plan.keepBlocks freed plan.invalidatedTokens)
      ⟨rfl, rfl, rfl, rfl, rfl, rfl, rfl, rfl, rfl, by rw [status]; exact Iff.rfl, id⟩
      (preempted_waiting_of_reclaimed compressed admissible.owned
        (admissible.complete.trans_lt cached) idle) idle
      (kvReclaimPlan_gives_up cfg owned budget (Nat.le_max_left _ _)) rfl memory same
    refine ⟨_, ?_, result⟩
    simp only [Scheduler.preempt, compressed, Bool.false_eq_true, if_false]
    rw [reclaimed]
    simp only [Py.ok_bind, Scheduler.put, Scheduler.setSeq, Function.update_self,
      Function.update_idem]
    rfl

/-! ## Compression -/

/-- Compression keeps the last page and counts the dropped pages out of the physical tokens. -/
theorem compressed_running {keep : ℕ → Bool} {refs : BlockId → ℕ} {n dropped droppedTokens : ℕ}
    (memory : SeqMemory cfg s.blockManager kv refs n seq) (running : seq.Running cfg)
    (idle : seq.numScheduledTokens = 0) (kept : keep (seq.blockTable.length - 1) = true) :
    ((seq.compressed cfg keep).recordKvCompression dropped droppedTokens).Running cfg := by
  have keptLast : (keepPositions keep seq.kvBlockLogicalIndices).getLast? = _ :=
    (keepPositions_getLast? (memory.sameLength ▸ kept)).trans running.last
  refine ⟨running.nonempty, keptLast, running.complete, running.next, ?_⟩
  have length := (@keepPositions_perm _ keep seq.blockTable).length_eq
  have some_kept : 0 < (keepPositions keep seq.blockTable).length := by
    rw [keepPositions_length memory.sameLength.symm, List.length_pos_iff]
    rintro empty
    simp [empty] at keptLast
  have pages := Nat.div_mul_le_self (seq.computedTokens - 1) cfg.blockSize
  have positive := running.nonempty
  have physical := running.physical
  have bound := Nat.mul_le_mul_right cfg.blockSize some_kept
  rw [List.length_append] at length
  rw [length, Nat.add_mul, Nat.add_mul] at physical
  change seq.numCachedTokens + (keepPositions keep seq.blockTable).length * cfg.blockSize =
    seq.numPhysicalCachedTokens - min ((keepPositions (fun index => !keep index)
      seq.blockTable).length * cfg.blockSize) seq.numPhysicalCachedTokens +
        ((seq.computedTokens - 1) / cfg.blockSize + 1) * cfg.blockSize
  rw [Nat.add_mul _ 1]
  unfold Sequence.computedTokens at *
  omega

/-- The plans after an operation on a running request which leaves them alone. -/
theorem Valid.plansKept {computed : Sequence → ℕ}
    (valid : Valid cfg ids kv computed held batch s) (status : (s.seqs i).status = .running)
    (plans : bm'.pendingMatches = s.blockManager.pendingMatches)
    (resumePlans : bm'.pendingResumeMatches = s.blockManager.pendingResumeMatches)
    (status' : seq.status = .running) : PlansKept i seq s.blockManager bm' where
  plans _ _ := by rw [plans]; exact id
  resumePlans _ _ := by rw [resumePlans]; exact id
  plan planned := by
    rw [plans] at planned
    simp [(valid.plans i planned).2.1] at status
  resumePlan _ := by
    rw [status']
    trivial

/-- What a part of `schedule()` which only works on one request leaves alone. -/
structure Touches (s : Scheduler) (i : SeqId) (s' : Scheduler) : Prop where
  seqs : ∃ seq, s'.seqs = Function.update s.seqs i seq ∧ seq.status = (s.seqs i).status
  waiting : s'.waiting = s.waiting
  running : s'.running = s.running
  pendingRestores : s'.pendingRestores = s.pendingRestores
  follows : Follows s s'

theorem Touches.refl (s : Scheduler) (i : SeqId) : Touches s i s :=
  ⟨⟨s.seqs i, (Function.update_eq_self i s.seqs).symm, rfl⟩, rfl, rfl, rfl, .refl s⟩

/-- `_maybe_compress` raises nothing and keeps the request running. -/
theorem Valid.maybeCompress
    (valid : Valid cfg ids kv Sequence.numCachedTokens (i :: held) batch s)
    (notScheduled : i ∉ batch) :
    ∃ s', s.maybeCompress cfg i = .ok s' ∧
      Valid cfg ids kv Sequence.numCachedTokens (i :: held) batch s' ∧ Touches s i s' := by
  obtain ⟨known, status, phase⟩ := valid.running (i := i) (by simp)
  have wellFormed := valid.request i known
  have idle := valid.idle known notScheduled
  have compress : ∀ keep : ℕ → Bool, keep ((s.seqs i).blockTable.length - 1) = true →
      ∃ s', (s.blockManager.compressKeepPositions cfg (s.seqs i) keep >>=
        fun (result : BlockManager × Sequence × ℕ × ℕ × ℕ) =>
          if result.2.2.1 = 0 then .ok s
          else .ok (s.put i result.1
            (result.2.1.recordKvCompression result.2.2.1 result.2.2.2.2))) = Except.ok s' ∧
      Valid cfg ids kv Sequence.numCachedTokens (i :: held) batch s' ∧ Touches s i s' := by
    intro keep kept
    by_cases dropped : keepPositions (fun index => !keep index) (s.seqs i).blockTable = []
    · refine ⟨s, ?_, valid, .refl s i⟩
      simp only [BlockManager.compressKeepPositions, if_pos dropped, Py.ok_bind, if_true]
    · obtain ⟨bm', freed, compressed, memory, same⟩ :=
        valid.memory.compressKeepPositions known keep dropped
      let result := ((s.seqs i).compressed cfg keep).recordKvCompression
        (keepPositions (fun index => !keep index) (s.seqs i).blockTable).length
        (min ((keepPositions (fun index => !keep index) (s.seqs i).blockTable).length *
          cfg.blockSize) (s.seqs i).numPhysicalCachedTokens)
      have sameRequest : SameRequest (s.seqs i) result :=
        ⟨rfl, rfl, rfl, rfl, rfl, rfl, rfl, rfl, rfl, Iff.rfl, id⟩
      have running : result.Running cfg :=
        compressed_running (valid.memory.request i known) phase idle kept
      refine ⟨s.put i bm' result, ?_, valid.put known
        (memory.replace ⟨rfl, rfl, rfl, rfl, rfl, rfl⟩ (le_refl _))
        (sameRequest.wellFormed wellFormed (.of_running status running)) rfl ?_
        (valid.plansKept status same.pendingMatches same.pendingResumeMatches status) Iff.rfl,
        ⟨result, rfl, rfl⟩, rfl, rfl, rfl,
        .of_update rfl (by rw [status]; trivial) sameRequest rfl rfl rfl⟩
      · rw [compressed, Py.ok_bind]
        simp only [List.length_eq_zero_iff, if_neg dropped]
        rfl
      · change (s.seqs i).status ≠ _
        rw [status]
        simp
  have nothing : ∃ s', (Except.ok s : Py Scheduler) = .ok s' ∧
      Valid cfg ids kv Sequence.numCachedTokens (i :: held) batch s' ∧ Touches s i s' :=
    ⟨s, rfl, valid, .refl s i⟩
  simp only [Scheduler.maybeCompress]
  split
  · exact nothing
  · split
    · exact nothing
    · split
      · rcases compressQueryAware_cases cfg s.blockManager (s.seqs i) with none | ⟨keep, kept, same⟩
        · rw [none]
          exact nothing
        · rw [same]
          exact compress keep kept
      · rcases compressSinkRecent_cases cfg s.blockManager (s.seqs i) with none | ⟨keep, kept, same⟩
        · rw [none]
          exact nothing
        · rw [same]
          exact compress keep kept

end Scheduler

end NanoVllm
