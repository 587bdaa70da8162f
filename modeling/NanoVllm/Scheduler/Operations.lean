import NanoVllm.Scheduler.Postprocess

/-!
# The other operations

Adding and cancelling requests, and the end of a remote restore. All of them may happen while a
batch is in flight.
-/

namespace NanoVllm

open BlockManager

variable {cfg : Config} {ids : Finset SeqId} {seqs : SeqId → Sequence} {bm : BlockManager}
  {kv : KvStore} {computed : Sequence → ℕ} {i j : SeqId} {seq : Sequence}

/-- A new request without pages keeps the memory invariant. -/
theorem MemoryValid.addRequest (valid : MemoryValid cfg ids seqs bm kv computed) (fresh : i ∉ ids)
    (table : seq.blockTable = []) (logical : seq.kvBlockLogicalIndices = []) :
    MemoryValid cfg (insert i ids) (Function.update seqs i seq) bm kv computed := by
  have refs : tableRefs (insert i ids) (Function.update seqs i seq) = tableRefs ids seqs := by
    funext blockId
    rw [tableRefs, References.count_insert (by rw [Function.update_self]; exact table)]
    refine References.count_congr fun k known => ?_
    rw [Function.update_of_ne]
    rintro rfl
    exact fresh known
  refine ⟨refs ▸ valid.pool, valid.index, valid.cached, ?_⟩
  intro k known
  rw [refs]
  rcases Finset.mem_insert.mp known with rfl | old
  · rw [Function.update_self]
    exact .of_empty table logical
  · rw [Function.update_of_ne]
    · exact valid.request k old
    · rintro rfl
      exact fresh old

namespace Scheduler

variable {s s' : Scheduler} {batch held : List SeqId} {now : ℚ}

/-! ## New requests -/

/-- Adding a new request. -/
theorem Valid.add (valid : Valid cfg ids kv Sequence.numCachedTokens [] batch s)
    (request : Request) (nonempty : request.prompt ≠ []) (fresh : request.seqId ∉ ids)
    (now : ℚ) :
    Valid cfg (insert request.seqId ids) kv Sequence.numCachedTokens [] batch
      (s.add request.toSequence now) := by
  have prompt : 0 < request.prompt.length := List.length_pos_iff.mpr nonempty
  have self : (s.add request.toSequence now).seqs request.seqId =
      request.toSequence.markArrived s.stepId now := Function.update_self _ _ _
  have other : ∀ j, j ≠ request.seqId →
      (s.add request.toSequence now).seqs j = s.seqs j := fun j differ =>
    Function.update_of_ne differ _ _
  have notQueued : ∀ status, status.Live → request.seqId ∉ s.queue [] status := by
    intro status live mem
    exact fresh ((valid.queued status live _).mp mem).1
  refine ⟨valid.memory.addRequest fresh rfl rfl, ?_, ?_, ?_, ?_, ?_, ?_, valid.batch_distinct, ?_⟩
  · intro j known
    by_cases same : j = request.seqId
    · subst same
      rw [self]
      refine ⟨rfl, prompt, le_refl _, ?_, ?_, .of_waiting rfl ⟨rfl, Nat.zero_le _, fun _ =>
        ⟨(Nat.zero_mul _).symm, rfl⟩, prompt, rfl⟩⟩
      · change (request.arrivalTime <|> some now) ≠ none
        cases request.arrivalTime <;> simp
      · intro positive _
        change request.prompt.length - request.prompt.length < request.maxTokens
        rw [Nat.sub_self]
        exact positive
    · rw [other j same]
      exact valid.request j (Finset.mem_of_mem_insert_of_ne known same)
  · intro status
    cases status with
    | waiting =>
      change (s.waiting ++ [request.seqId]).Nodup
      rw [List.nodup_append]
      refine ⟨valid.distinct .waiting, List.nodup_singleton _, ?_⟩
      rintro j mem k mem' rfl
      rw [List.mem_singleton] at mem'
      exact notQueued .waiting trivial (mem' ▸ mem)
    | waitingForKv => exact valid.distinct .waitingForKv
    | running => exact valid.distinct .running
    | finished => exact List.nodup_nil
    | cancelled => exact List.nodup_nil
  · intro status live j
    have before := valid.queued status live j
    by_cases same : j = request.seqId
    · subst same
      rw [self]
      have absent := notQueued status live
      cases status with
      | waiting =>
        change request.seqId ∈ s.waiting ++ [request.seqId] ↔ _
        simp [Sequence.markArrived, Request.toSequence, Sequence.new]
      | waitingForKv => exact iff_of_false absent nofun
      | running => exact iff_of_false absent nofun
      | finished => exact absurd live id
      | cancelled => exact absurd live id
    · rw [other j same, Finset.mem_insert, or_iff_right same, ← before]
      cases status with
      | waiting =>
        change j ∈ s.waiting ++ [request.seqId] ↔ _
        rw [List.mem_append, List.mem_singleton, or_iff_left same]
        rfl
      | waitingForKv => rfl
      | running => rfl
      | finished => rfl
      | cancelled => rfl
  · intro state mem
    rw [other]
    · exact valid.pending state mem
    · intro same
      exact fresh (same ▸ (valid.restoring mem).1)
  · intro j planned
    have before := valid.plans j planned
    rw [other j fun same => fresh (same ▸ before.1)]
    exact ⟨Finset.mem_insert_of_mem before.1, before.2⟩
  · intro j planned
    have before := valid.resumePlans j planned
    rw [other j fun same => fresh (same ▸ before.1)]
    exact ⟨Finset.mem_insert_of_mem before.1, before.2⟩
  · intro j
    by_cases same : j = request.seqId
    · subst same
      rw [self]
      refine iff_of_false (fun mem => fresh ((valid.scheduled _).mp mem).1) ?_
      rintro ⟨-, positive⟩
      exact lt_irrefl 0 positive
    · rw [other j same, Finset.mem_insert, or_iff_right same]
      exact valid.scheduled j

/-! ## Cancellation -/

/-- A request leaves its queue for good. -/
theorem Valid.terminate (valid : Valid cfg ids kv computed held batch s) (known : i ∈ ids)
    (seqs : s'.seqs = Function.update s.seqs i seq)
    (memory : MemoryValid cfg ids s'.seqs s'.blockManager kv computed)
    (request : seq.WellFormed cfg i) (dead : ¬seq.status.Live)
    (queues : ∀ status, (∀ j, j ∈ s'.queue held status ↔ j ∈ s.queue held status ∧ j ≠ i) ∧
      (s'.queue held status).Nodup)
    (pending : ∀ state ∈ s'.pendingRestores, state ∈ s.pendingRestores ∧ state.sequence ≠ i)
    (plans : PlansKept i seq s.blockManager s'.blockManager) (idle : seq.numScheduledTokens = 0) :
    Valid cfg ids kv computed held (batch.erase i) s' := by
  refine valid.move known seqs memory request ?_ ?_ (fun status => (queues status).2)
    (fun state mem => .inl (pending state mem)) plans (valid.batch_distinct.erase i) ?_ ?_
  · intro status j differ
    rw [(queues status).1 j]
    exact and_iff_left differ
  · intro status live
    rw [(queues status).1 i]
    refine iff_of_false (fun both => both.2 rfl) ?_
    rintro rfl
    exact dead live
  · intro j differ
    exact List.mem_erase_of_ne differ
  · rw [idle]
    exact iff_of_false valid.batch_distinct.not_mem_erase (lt_irrefl _)

/-- The record of a cancelled request. -/
def cancelledSeq (seq : Sequence) (now : ℚ) : Sequence :=
  { seq.withoutPages with
    numScheduledTokens := 0, status := .cancelled, finishedTime := some now }

/-- What `cancel` does to a live request. -/
structure Cancels (s : Scheduler) (i : SeqId) (now : ℚ) (s' : Scheduler) : Prop where
  seqs : s'.seqs = Function.update s.seqs i (cancelledSeq (s.seqs i) now)
  waiting : s'.waiting = s.waiting.erase i
  running : s'.running = s.running.erase i
  pendingRestores : s'.pendingRestores = s.pendingRestores.filter (·.sequence ≠ i)
  noPlans : s'.blockManager.pendingMatches i = none ∧
    s'.blockManager.pendingResumeMatches i = none
  index : SameIndex s.blockManager s'.blockManager
  stepId : s'.stepId = s.stepId
  estimator : s'.estimator = s.estimator

theorem withoutPages_of_empty (cached : seq.numCachedTokens = 0)
    (physical : seq.numPhysicalCachedTokens = 0) (uncompressed : seq.kvCompressed = false)
    (table : seq.blockTable = []) (logical : seq.kvBlockLogicalIndices = []) :
    seq.withoutPages = seq := by
  cases seq
  simp_all [Sequence.withoutPages]

/-- A live request without pages has nothing to give up. -/
theorem Valid.withoutPages_eq (valid : Valid cfg ids kv computed held batch s) (known : i ∈ ids)
    (live : (s.seqs i).status.Live) (table : (s.seqs i).blockTable = []) :
    (s.seqs i).withoutPages = s.seqs i := by
  have sameLength := (valid.memory.request i known).sameLength
  rw [table, List.length_nil, List.length_eq_zero_iff] at sameLength
  have wellFormed := valid.request i known
  have pages := @Sequence.numBlocks_pos cfg _ (wellFormed.prompt.trans_le wellFormed.prompt_le)
  have phase := wellFormed.phase
  unfold Sequence.Phase at phase
  have waits : (s.seqs i).Waiting cfg := by
    split at phase
    · exact phase
    · have full := phase.full
      rw [table, List.length_nil] at full
      exact absurd full pages.ne
    · have last := phase.last
      rw [sameLength] at last
      cases last
    · next status =>
      rw [status] at live
      exact absurd live id
    · next status =>
      rw [status] at live
      exact absurd live id
  have cached : (s.seqs i).numCachedTokens = 0 := by
    have retained := (waits.retained (by rw [table]; exact pages)).1
    rwa [table, List.length_nil, Nat.zero_mul] at retained
  have physical := waits.physical
  rw [cached] at physical
  exact withoutPages_of_empty cached physical waits.uncompressed table sameLength

/-- Cancelling a live request which has left its queue raises nothing. -/
theorem Valid.finishCancel (valid : Valid cfg ids kv Sequence.numCachedTokens [] batch s)
    (known : i ∈ ids) (live : (s.seqs i).status.Live) (now : ℚ) (s₁ : Scheduler)
    (seqs : s₁.seqs = s.seqs) (blockManager : s₁.blockManager = s.blockManager)
    (waiting : s₁.waiting = s.waiting.erase i) (running : s₁.running = s.running.erase i)
    (pendingRestores : s₁.pendingRestores = s.pendingRestores.filter (·.sequence ≠ i))
    (stepId : s₁.stepId = s.stepId) (estimator : s₁.estimator = s.estimator) :
    ∃ s', s₁.finishCancel i now = .ok s' ∧
      Valid cfg ids kv Sequence.numCachedTokens [] (batch.erase i) s' ∧ Cancels s i now s' := by
  have wellFormed := valid.request i known
  have named := wellFormed.named
  set bm := (s.blockManager.popPendingMatch i).popPendingResumeMatch i with bm_def
  have popped : SameMemory cfg s.blockManager bm := .of_plans _ _
  have memory := valid.memory.sameMemory popped
  have terminates : ∀ released : Sequence, released.cancel now = { released with
      status := .cancelled, finishedTime := some now } ∨ ¬released.status.Live := by
    intro released
    by_cases alive : released.status.Live
    · left
      unfold Sequence.cancel
      rw [Sequence.isTerminal_eq_false.mpr alive]
      rfl
    · exact .inr alive
  have finish : ∀ bm' released, MemoryValid cfg ids (Function.update s.seqs i released) bm' kv
        Sequence.numCachedTokens →
      released = (s.seqs i).withoutPages → SameIndex s.blockManager bm' →
      bm'.pendingMatches = bm.pendingMatches →
      bm'.pendingResumeMatches = bm.pendingResumeMatches →
      Valid cfg ids kv Sequence.numCachedTokens [] (batch.erase i)
          (s₁.put i bm' ({ released with numScheduledTokens := 0 }.cancel now)) ∧
        Cancels s i now (s₁.put i bm' ({ released with numScheduledTokens := 0 }.cancel now)) := by
    intro bm' released memory' released_eq index plans resumePlans
    have record : ({ released with numScheduledTokens := 0 } : Sequence).cancel now =
        cancelledSeq (s.seqs i) now := by
      subst released_eq
      exact (terminates _).resolve_right fun dead => dead live
    have noPlan : bm'.pendingMatches i = none := by
      rw [plans]
      exact Function.update_self _ _ _
    have noResumePlan : bm'.pendingResumeMatches i = none := by
      rw [resumePlans]
      exact Function.update_self _ _ _
    rw [record]
    refine ⟨valid.terminate known (by rw [Scheduler.put, seqs]) ?_ ?_ id ?_ ?_ ?_ rfl,
      ⟨by rw [Scheduler.put, seqs], waiting, running, pendingRestores, ⟨noPlan, noResumePlan⟩,
        index, stepId, estimator⟩⟩
    · change MemoryValid cfg ids (Function.update s₁.seqs i _) bm' kv _
      rw [seqs]
      refine memory'.replace ?_ ?_
      · subst released_eq
        exact ⟨rfl, rfl, rfl, rfl, rfl, rfl⟩
      · subst released_eq
        exact le_refl _
    · exact ⟨named, wellFormed.prompt, wellFormed.prompt_le, wellFormed.arrived, (fun _ live => by cases live),
        .of_released id ⟨rfl, rfl, rfl, rfl, rfl⟩⟩
    · intro status
      have distinct := valid.distinct status
      cases status with
      | waiting =>
        change s.waiting.Nodup at distinct
        change (∀ j, j ∈ s₁.waiting ↔ j ∈ s.waiting ∧ j ≠ i) ∧ s₁.waiting.Nodup
        rw [waiting]
        exact ⟨fun j => by rw [distinct.mem_erase_iff]; exact and_comm, distinct.erase i⟩
      | running =>
        change (s.running ++ []).Nodup at distinct
        change (∀ j, j ∈ s₁.running ++ [] ↔ j ∈ s.running ++ [] ∧ j ≠ i) ∧
          (s₁.running ++ []).Nodup
        rw [List.append_nil] at distinct
        simp only [running, List.append_nil]
        exact ⟨fun j => by rw [distinct.mem_erase_iff]; exact and_comm, distinct.erase i⟩
      | waitingForKv =>
        change (∀ j, j ∈ s₁.pendingRestores.map PendingRestoreState.sequence ↔
          j ∈ s.pendingRestores.map PendingRestoreState.sequence ∧ j ≠ i) ∧
            (s₁.pendingRestores.map PendingRestoreState.sequence).Nodup
        rw [pendingRestores]
        refine ⟨fun j => ?_, ?_⟩
        · simp only [List.mem_map, List.mem_filter, decide_eq_true_eq]
          constructor
          · rintro ⟨state, ⟨mem, differ⟩, rfl⟩
            exact ⟨⟨state, mem, rfl⟩, differ⟩
          · rintro ⟨⟨state, mem, rfl⟩, differ⟩
            exact ⟨state, ⟨mem, differ⟩, rfl⟩
        · exact (List.filter_sublist.map _).nodup distinct
      | finished => exact ⟨fun j => by simp [Scheduler.queue], List.nodup_nil⟩
      | cancelled => exact ⟨fun j => by simp [Scheduler.queue], List.nodup_nil⟩
    · intro state mem
      change state ∈ s₁.pendingRestores at mem
      rw [pendingRestores, List.mem_filter, decide_eq_true_eq] at mem
      exact mem
    · refine ⟨fun j differ planned => ?_, fun j differ planned => ?_,
        fun planned => absurd noPlan planned, fun planned => absurd noResumePlan planned⟩
      · change bm'.pendingMatches j ≠ none at planned
        rw [plans] at planned
        change Function.update s.blockManager.pendingMatches i none j ≠ none at planned
        rwa [Function.update_of_ne differ] at planned
      · change bm'.pendingResumeMatches j ≠ none at planned
        rw [resumePlans] at planned
        change Function.update s.blockManager.pendingResumeMatches i none j ≠ none at planned
        rwa [Function.update_of_ne differ] at planned
  unfold Scheduler.finishCancel
  rw [seqs, blockManager, ← bm_def]
  by_cases table : (s.seqs i).blockTable = []
  · obtain ⟨valid', cancels⟩ := finish bm (s.seqs i)
      (by rw [Function.update_eq_self]; exact memory)
      (valid.withoutPages_eq known live table).symm ⟨fun _ => rfl, fun _ => rfl, rfl, rfl⟩ rfl rfl
    refine ⟨_, ?_, valid', cancels⟩
    simp only [ne_eq, table, not_true_eq_false, if_false, Py.ok_bind]
  · obtain ⟨bm', deallocated, memory', released⟩ :=
      @MemoryValid.deallocate _ _ _ _ _ _ i (s.seqs i) memory known rfl
    have resumePlans : bm'.pendingResumeMatches = bm.pendingResumeMatches := by
      rw [released.pendingResumeMatches, named]
      exact Function.update_idem _ _ _
    obtain ⟨valid', cancels⟩ := finish bm' _ memory' rfl
      ⟨released.hash, released.tokenIds, released.hashToBlockId, released.radixCache⟩
      released.pendingMatches resumePlans
    refine ⟨_, ?_, valid', cancels⟩
    simp only [ne_eq, table, not_false_eq_true, if_true, deallocated, Py.ok_bind]

/-- Cancelling raises nothing, and it returns whether the request was live. -/
theorem Valid.cancel (valid : Valid cfg ids kv Sequence.numCachedTokens [] batch s) (i : SeqId)
    (now : ℚ) :
    (i ∈ ids ∧ (s.seqs i).status.Live ∧ ∃ s', s.cancel i now = .ok (s', true) ∧
        Valid cfg ids kv Sequence.numCachedTokens [] (batch.erase i) s' ∧ Cancels s i now s') ∨
      (¬(i ∈ ids ∧ (s.seqs i).status.Live) ∧ s.cancel i now = .ok (s, false)) := by
  have erased : ∀ status, status ≠ (s.seqs i).status → status.Live →
      i ∉ s.queue [] status := by
    intro status differ live mem
    exact differ ((valid.queued status live i).mp mem).2.symm
  have filtered : (s.seqs i).status ≠ .waitingForKv →
      s.pendingRestores.filter (·.sequence ≠ i) = s.pendingRestores := by
    intro differ
    rw [List.filter_eq_self]
    intro state mem
    have restoring := (valid.restoring mem).2.1
    simp only [ne_eq, decide_eq_true_eq]
    rintro rfl
    exact differ restoring
  unfold Scheduler.cancel
  by_cases waits : i ∈ s.waiting
  · have known := (valid.mem_waiting.mp waits).1
    have status := (valid.mem_waiting.mp waits).2
    have live : (s.seqs i).status.Live := by
      rw [status]
      trivial
    have notRunning : i ∉ s.running ++ [] := erased .running (by rw [status]; decide) trivial
    rw [List.append_nil] at notRunning
    obtain ⟨s', cancelled, valid', cancels⟩ := valid.finishCancel known live now
      { s with waiting := s.waiting.erase i } rfl rfl rfl
      (List.erase_of_not_mem notRunning).symm (filtered (by rw [status]; decide)).symm rfl rfl
    refine .inl ⟨known, live, s', ?_, valid', cancels⟩
    rw [if_pos waits, cancelled]
    rfl
  · by_cases runs : i ∈ s.running
    · have both := valid.mem_running.mp (List.mem_append_left [] runs)
      have live : (s.seqs i).status.Live := by
        rw [both.2]
        trivial
      obtain ⟨s', cancelled, valid', cancels⟩ := valid.finishCancel both.1 live now
        { s with running := s.running.erase i } rfl rfl
        (List.erase_of_not_mem waits).symm rfl (filtered (by rw [both.2]; decide)).symm rfl rfl
      refine .inl ⟨both.1, live, s', ?_, valid', cancels⟩
      rw [if_neg waits, if_pos runs, cancelled]
      rfl
    · by_cases restores : i ∈ s.pendingRestores.map PendingRestoreState.sequence
      · have both := valid.mem_pending.mp restores
        have live : (s.seqs i).status.Live := by
          rw [both.2]
          trivial
        obtain ⟨s', cancelled, valid', cancels⟩ := valid.finishCancel both.1 live now
          { s with pendingRestores := s.pendingRestores.filter (·.sequence ≠ i) } rfl rfl
          (List.erase_of_not_mem waits).symm (List.erase_of_not_mem runs).symm rfl rfl rfl
        refine .inl ⟨both.1, live, s', ?_, valid', cancels⟩
        have found : s.pendingRestores.any (·.sequence = i) = true := by
          obtain ⟨state, mem, same⟩ := List.mem_map.mp restores
          exact List.any_eq_true.mpr ⟨state, mem, by simpa using same⟩
        rw [if_neg waits, if_neg runs, if_pos found, cancelled]
        rfl
      · refine .inr ⟨?_, ?_⟩
        · rintro ⟨known, live⟩
          have queued := (valid.queued _ live i).mpr ⟨known, rfl⟩
          generalize (s.seqs i).status = status at queued
          cases status with
          | waiting => exact waits queued
          | waitingForKv => exact restores queued
          | running =>
            change i ∈ s.running ++ [] at queued
            rw [List.append_nil] at queued
            exact runs queued
          | finished => exact absurd queued List.not_mem_nil
          | cancelled => exact absurd queued List.not_mem_nil
        · have absent : ¬s.pendingRestores.any (·.sequence = i) = true := by
            intro found
            obtain ⟨state, mem, same⟩ := List.any_eq_true.mp found
            exact restores (List.mem_map.mpr ⟨state, mem, by simpa using same⟩)
          rw [if_neg waits, if_neg runs, if_neg absent]

/-! ## The end of a remote restore -/

theorem Valid.pendingRestore (valid : Valid cfg ids kv computed held batch s)
    {state : PendingRestoreState} (mem : state ∈ s.pendingRestores) :
    s.pendingRestore state.sequence = .ok state := by
  have found : s.pendingRestores.find? (·.sequence = state.sequence) = some state := by
    have distinct : (s.pendingRestores.map PendingRestoreState.sequence).Nodup :=
      valid.distinct .waitingForKv
    rw [List.find?_eq_some_iff_append]
    refine ⟨by simp, ?_⟩
    obtain ⟨before, after, split⟩ := List.append_of_mem mem
    refine ⟨before, after, split, fun other earlier => ?_⟩
    rw [split, List.map_append, List.nodup_append] at distinct
    have differ := distinct.2.2 _ (List.mem_map_of_mem earlier) state.sequence
      (List.mem_map_of_mem List.mem_cons_self)
    simpa using differ
  rw [Scheduler.pendingRestore, found]

theorem finishRemoteRestore_eq (seq : Sequence) (restores : seq.status = .waitingForKv) {n : ℕ}
    (positive : n ≠ 0) :
    seq.finishRemoteRestore now n = .ok { seq with
      status := .waiting
      remoteRestoreCompletedTime := some now
      remoteRestoreWaitMs := seq.remoteRestoreWaitMs + seq.remoteRestoreElapsedMs now
      remoteRestoredTokens := seq.remoteRestoredTokens + n } := by
  unfold Sequence.finishRemoteRestore
  rw [if_neg (not_not_intro restores), if_neg positive]

theorem failRemoteRestore_eq (seq : Sequence) (restores : seq.status = .waitingForKv) (error : String) :
    seq.failRemoteRestore now error = .ok (seq.restoreFailed now error) := by
  unfold Sequence.failRemoteRestore
  rw [if_neg (not_not_intro restores)]
  rfl

/-- What the end of the restore of `i` does, with the new record of `i`. -/
structure EndsRestore (s : Scheduler) (i : SeqId) (seq : Sequence) (s' : Scheduler) : Prop where
  seqs : s'.seqs = Function.update s.seqs i seq
  request : SameRequest (s.seqs i) seq
  waiting : s'.waiting.Perm (i :: s.waiting)
  running : s'.running = s.running
  pendingRestores : s'.pendingRestores = s.pendingRestores.filter (·.sequence ≠ i)
  stepId : s'.stepId = s.stepId
  estimator : s'.estimator = s.estimator

/-- A request whose restore has ended waits. -/
theorem Valid.endRestore (valid : Valid cfg ids kv Sequence.numCachedTokens [] batch s)
    {state : PendingRestoreState} (mem : state ∈ s.pendingRestores)
    (ends : EndsRestore s state.sequence seq s')
    (memory : MemoryValid cfg ids s'.seqs s'.blockManager kv Sequence.numCachedTokens)
    (status : seq.status = .waiting) (waits : seq.Waiting cfg)
    (idle : seq.numScheduledTokens = 0)
    (plans : PlansKept state.sequence seq s.blockManager s'.blockManager) :
    Valid cfg ids kv Sequence.numCachedTokens [] batch s' := by
  obtain ⟨known, restores, restoring, -⟩ := valid.restoring mem
  have notWaiting : state.sequence ∉ s.waiting := by
    intro waiting
    have both := (valid.mem_waiting.mp waiting).2
    rw [restores] at both
    cases both
  have notRunning : state.sequence ∉ s.running ++ [] := by
    intro running
    have both := (valid.mem_running.mp running).2
    rw [restores] at both
    cases both
  have memWaiting : ∀ j, j ∈ s'.waiting ↔ j = state.sequence ∨ j ∈ s.waiting := by
    intro j
    rw [ends.waiting.mem_iff, List.mem_cons]
  have memPending : ∀ j, j ∈ s'.pendingRestores.map PendingRestoreState.sequence ↔
      j ∈ s.pendingRestores.map PendingRestoreState.sequence ∧ j ≠ state.sequence := by
    intro j
    rw [ends.pendingRestores]
    simp only [List.mem_map, List.mem_filter, decide_eq_true_eq]
    constructor
    · rintro ⟨other, ⟨found, differ⟩, rfl⟩
      exact ⟨⟨other, found, rfl⟩, differ⟩
    · rintro ⟨⟨other, found, rfl⟩, differ⟩
      exact ⟨other, ⟨found, differ⟩, rfl⟩
  refine valid.move known ends.seqs memory
    (ends.request.wellFormed (valid.request _ known) (.of_waiting status waits)) ?_ ?_ ?_ ?_
    plans valid.batch_distinct (fun _ _ => Iff.rfl) ?_
  · intro status' j differ
    cases status' with
    | waiting => exact (memWaiting j).trans (or_iff_right differ)
    | waitingForKv => exact (memPending j).trans (and_iff_left differ)
    | running =>
      change j ∈ s'.running ++ [] ↔ j ∈ s.running ++ []
      rw [ends.running]
    | finished => exact Iff.rfl
    | cancelled => exact Iff.rfl
  · intro status' live
    rw [status]
    cases status' with
    | waiting => exact iff_of_true ((memWaiting _).mpr (.inl rfl)) rfl
    | waitingForKv => exact iff_of_false (fun found => ((memPending _).mp found).2 rfl) nofun
    | running =>
      refine iff_of_false ?_ nofun
      change state.sequence ∉ s'.running ++ []
      rw [ends.running]
      exact notRunning
    | finished => exact absurd live id
    | cancelled => exact absurd live id
  · intro status'
    have before := valid.distinct status'
    cases status' with
    | waiting =>
      change s'.waiting.Nodup
      rw [ends.waiting.nodup_iff, List.nodup_cons]
      exact ⟨notWaiting, before⟩
    | waitingForKv =>
      change (s'.pendingRestores.map PendingRestoreState.sequence).Nodup
      rw [ends.pendingRestores]
      exact (List.filter_sublist.map _).nodup before
    | running =>
      change (s'.running ++ []).Nodup
      rw [ends.running]
      exact before
    | finished => exact List.nodup_nil
    | cancelled => exact List.nodup_nil
  · intro other found
    rw [ends.pendingRestores, List.mem_filter, decide_eq_true_eq] at found
    exact .inl found
  · rw [idle, valid.scheduled, restoring.idle]
    exact iff_of_false (fun both => lt_irrefl _ both.2) (lt_irrefl _)

/-- The end of a successful restore. -/
theorem Valid.completeRemoteRestore
    (valid : Valid cfg ids kv Sequence.numCachedTokens [] batch s)
    {state : PendingRestoreState} (mem : state ∈ s.pendingRestores) (now : ℚ) :
    ∃ s', s.completeRemoteRestore cfg state.sequence now = .ok s' ∧
      Valid cfg ids (kv.write (System.importWrites cfg state)) Sequence.numCachedTokens []
        batch s' ∧
      EndsRestore s state.sequence (s'.seqs state.sequence) s' := by
  obtain ⟨known, restores, restoring, pending⟩ := valid.restoring mem
  have named : ∀ j ∈ ids, (s.seqs j).seqId = j := fun j known => (valid.request j known).named
  have imports := valid.memory.importPages known named restoring.uncompressed pending
  set n := state.totalCachedBlocks * cfg.blockSize
  have longer : (s.seqs state.sequence).numCachedTokens ≤ n := by
    rw [pending.aligned]
    exact Nat.mul_le_mul_right _ pending.extendsLocal.le
  have short : n < (s.seqs state.sequence).numTokens := Sequence.mul_blockSize_lt pending.tail
  have importedSelf : ∀ seq' : Sequence, seq'.seqId = state.sequence →
      importedTokens state.sequence n seq' = n := fun seq' same => if_pos same
  obtain ⟨bm', committed, memory, pool⟩ := imports.commitRestoredPrefix known
    restoring.uncompressed pending.aligned pending.extendsLocal pending.tail restoring.full
    (importedSelf _ (named _ known)) short.le (importedSelf _ (named _ known))
  have restored : state.restoredBlocks * cfg.blockSize ≠ 0 := by
    rw [pending.restored]
    have extends_local := pending.extendsLocal
    exact Nat.mul_ne_zero (by omega) cfg.blockSize_pos.ne'
  set seq : Sequence := { (s.seqs state.sequence).committed cfg state.totalCachedBlocks with
    status := .waiting
    remoteRestoreCompletedTime := some now
    remoteRestoreWaitMs := (s.seqs state.sequence).remoteRestoreWaitMs +
      (s.seqs state.sequence).remoteRestoreElapsedMs now
    remoteRestoredTokens := (s.seqs state.sequence).remoteRestoredTokens +
      state.restoredBlocks * cfg.blockSize }
  have finished : ((s.seqs state.sequence).committed cfg state.totalCachedBlocks
      ).finishRemoteRestore now (state.restoredBlocks * cfg.blockSize) = .ok seq :=
    finishRemoteRestore_eq ((s.seqs state.sequence).committed cfg state.totalCachedBlocks) restores
      restored
  have memory' : MemoryValid cfg ids (Function.update s.seqs state.sequence seq) bm'
      (kv.write (System.importWrites cfg state)) Sequence.numCachedTokens := by
    refine (memory.mono ?_).replace ⟨rfl, rfl, rfl, rfl, rfl, rfl⟩ (le_refl _)
    intro j known'
    by_cases same : j = state.sequence
    · subst same
      rw [Function.update_self]
      exact (importedSelf ((s.seqs state.sequence).committed cfg state.totalCachedBlocks)
        (named _ known)).ge
    · rw [Function.update_of_ne same, importedTokens,
        if_neg (by rw [named j known']; exact same)]
  have valid' : Valid cfg ids (kv.write (System.importWrites cfg state))
      Sequence.numCachedTokens [] batch s := by
    refine { valid with memory := imports.mono fun j known' => ?_ }
    unfold importedTokens
    split
    · next same =>
      rw [named j known'] at same
      rw [same]
      exact longer
    · exact le_refl _
  set s₁ : Scheduler := { s.put state.sequence bm' seq with
    pendingRestores := s.pendingRestores.filter (·.sequence ≠ state.sequence)
    waiting := s.waiting ++ [state.sequence] }
  have self : s₁.seqs state.sequence = seq := Function.update_self _ _ _
  have request : SameRequest (s.seqs state.sequence) seq :=
    ⟨rfl, rfl, rfl, rfl, rfl, rfl, rfl, rfl, rfl,
      iff_of_true trivial (by rw [restores]; trivial), id⟩
  have ends : EndsRestore s state.sequence seq s₁ :=
    ⟨rfl, request, List.perm_append_singleton _ _, rfl, rfl, rfl, rfl⟩
  refine ⟨s₁, ?_, valid'.endRestore mem ends memory' rfl ⟨restoring.uncompressed,
    restoring.full.le, fun partial' => absurd restoring.full partial'.ne, ?_, rfl⟩ restoring.idle
    ⟨?_, ?_, ?_, fun _ => trivial⟩, ?_⟩
  · unfold Scheduler.completeRemoteRestore
    simp only [valid.pendingRestore mem, Py.ok_bind, committed, finished]
    rfl
  · change n + (s.seqs state.sequence).numScheduledTokens < _
    rw [restoring.idle]
    exact short
  · intro j _ planned
    change bm'.pendingMatches j ≠ none at planned
    rwa [pool.pendingMatches] at planned
  · intro j _ planned
    change bm'.pendingResumeMatches j ≠ none at planned
    rwa [pool.pendingResumeMatches] at planned
  · intro planned
    change bm'.pendingMatches _ ≠ none at planned
    rw [pool.pendingMatches] at planned
    have status := (valid.plans _ planned).2.1
    rw [restores] at status
    cases status
  · rw [self]
    exact ends

/-- A failed restore frees every page of its request. -/
theorem Valid.failRemoteRestore_ok
    (valid : Valid cfg ids kv Sequence.numCachedTokens [] batch s)
    {state : PendingRestoreState} (mem : state ∈ s.pendingRestores) {kv' : KvStore}
    (memory : MemoryValid cfg ids s.seqs s.blockManager kv' Sequence.numCachedTokens) (now : ℚ)
    (error : String) :
    ∃ bm', s.failRemoteRestore state.sequence now error = .ok { s.put state.sequence bm'
        ((s.seqs state.sequence).withoutPages.restoreFailed now error) with
          pendingRestores := s.pendingRestores.filter (·.sequence ≠ state.sequence)
          waiting := state.sequence :: s.waiting } ∧
      MemoryValid cfg ids (Function.update s.seqs state.sequence
        (s.seqs state.sequence).withoutPages) bm' kv' Sequence.numCachedTokens ∧
      RefsOnly (s.blockManager.popPendingResumeMatch (s.seqs state.sequence).seqId) bm' := by
  obtain ⟨known, restores, -, -⟩ := valid.restoring mem
  have owns := valid.owns_of_restoring mem
  obtain ⟨bm', deallocated, memory', released⟩ :=
    @MemoryValid.deallocate _ _ _ _ _ _ state.sequence _ memory known rfl
  refine ⟨bm', ?_, memory', released⟩
  have failed : (s.seqs state.sequence).withoutPages.failRemoteRestore now error =
      .ok ((s.seqs state.sequence).withoutPages.restoreFailed now error) :=
    failRemoteRestore_eq (s.seqs state.sequence).withoutPages restores error
  unfold Scheduler.failRemoteRestore BlockManager.abortRestore
  simp only [valid.pendingRestore mem, Py.ok_bind, if_neg owns, deallocated, failed]

/-- The end of a failed restore, which frees every page of the request. -/
theorem Valid.failRemoteRestore
    (valid : Valid cfg ids kv Sequence.numCachedTokens [] batch s)
    {state : PendingRestoreState} (mem : state ∈ s.pendingRestores) (now : ℚ) (error : String)
    (garbage : KvStore) :
    ∃ s', s.failRemoteRestore state.sequence now error = .ok s' ∧
      Valid cfg ids (System.scramblePages cfg kv garbage state.blockIds)
        Sequence.numCachedTokens [] batch s' ∧
      EndsRestore s state.sequence (s'.seqs state.sequence) s' := by
  obtain ⟨known, restores, restoring, pending⟩ := valid.restoring mem
  have wellFormed := valid.request _ known
  have valid' : Valid cfg ids (System.scramblePages cfg kv garbage state.blockIds)
      Sequence.numCachedTokens [] batch s :=
    { valid with
      memory := valid.memory.scramblePages known restoring.uncompressed pending garbage }
  have nonempty : 0 < (s.seqs state.sequence).numTokens :=
    wellFormed.prompt.trans_le wellFormed.prompt_le
  obtain ⟨bm', failed, memory, released⟩ := valid.failRemoteRestore_ok mem valid'.memory now error
  set seq := (s.seqs state.sequence).withoutPages.restoreFailed now error
  set s₁ : Scheduler := { s.put state.sequence bm' seq with
    pendingRestores := s.pendingRestores.filter (·.sequence ≠ state.sequence)
    waiting := state.sequence :: s.waiting }
  have self : s₁.seqs state.sequence = seq := Function.update_self _ _ _
  have request : SameRequest (s.seqs state.sequence) seq :=
    ⟨rfl, rfl, rfl, rfl, rfl, rfl, rfl, rfl, rfl,
      iff_of_true trivial (by rw [restores]; trivial), id⟩
  have ends : EndsRestore s state.sequence seq s₁ :=
    ⟨rfl, request, List.Perm.refl _, rfl, rfl, rfl, rfl⟩
  refine ⟨s₁, failed, valid'.endRestore mem ends
    (memory.replace ⟨rfl, rfl, rfl, rfl, rfl, rfl⟩ (le_refl _)) rfl
    ⟨rfl, Nat.zero_le _, fun _ => ⟨(Nat.zero_mul _).symm, restoring.idle⟩, ?_, rfl⟩ restoring.idle
    ⟨?_, ?_, fun _ => ⟨rfl, rfl⟩, fun _ => trivial⟩, ?_⟩
  · change 0 + (s.seqs state.sequence).numScheduledTokens < _
    rw [restoring.idle]
    exact nonempty
  · intro j _ planned
    change bm'.pendingMatches j ≠ none at planned
    rwa [released.pendingMatches] at planned
  · intro j _ planned
    change bm'.pendingResumeMatches j ≠ none at planned
    rw [released.pendingResumeMatches, wellFormed.named] at planned
    intro absent
    refine planned ?_
    change Function.update s.blockManager.pendingResumeMatches state.sequence none j = none
    rw [Function.update_apply, absent]
    split <;> rfl
  · rw [self]
    exact ends

end Scheduler

end NanoVllm
