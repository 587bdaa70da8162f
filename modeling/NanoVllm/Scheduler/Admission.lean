import NanoVllm.Scheduler.Capacity

/-!
# Admitting a waiting request

The operations of the prefill phase on the selected request: `allocate`, `resume`, the start of a
remote restore and the scheduling of its tokens. Within the capacity which was checked before,
none of them raises.
-/

namespace NanoVllm

open BlockManager PathIndex

variable {cfg : Config} {ids : Finset SeqId} {kv : KvStore} {held batch : List SeqId}
  {s s' : Scheduler} {i j : SeqId} {seq : Sequence} {bm bm' : BlockManager}
  {matched : List BlockId}

/-- Allocating fresh pages evicts none of the matched pages. -/
theorem Matches.of_allocates {refs : BlockId → ℕ} {fresh : List BlockId}
    (longest : Matches cfg bm seq matched)
    (allocates : Allocates cfg bm (addRefs refs matched) bm' fresh) :
    Matches cfg bm' seq matched := by
  refine IsLongestMatch.transfer longest (fun k blockId get => ?_) fun path absent => ?_
  · refine allocates.keeps _ _ (longest.get k blockId get) fun ancestor blockId' isPrefix found => ?_
    have short := (List.getElem?_eq_some_iff.mp get).1
    have bound : matched.length ≤ (seq.blockKeys cfg (seq.numBlocks cfg - 1)).length :=
      IsLongestMatch.length_le longest
    have nonempty : 0 < ancestor.length := List.length_pos_iff.mpr fun empty => by
      rw [empty, entry_nil] at found
      cases found
    have inside := isPrefix.length_le
    rw [List.length_take] at inside
    have same : ancestor = (seq.blockKeys cfg (seq.numBlocks cfg - 1)).take
        (ancestor.length - 1 + 1) := by
      have := List.prefix_iff_eq_take.mp (isPrefix.trans (List.take_prefix _ _))
      rwa [Nat.sub_add_cancel nonempty]
    have hit := longest.found (i := ancestor.length - 1) (by omega)
    rw [← same, found, Option.some.injEq] at hit
    have mem : blockId' ∈ matched := by
      rw [hit]
      exact List.getElem_mem _
    have := List.count_pos_iff.mpr mem
    simp only [addRefs]
    omega
  · by_contra found
    obtain ⟨value, found⟩ := Option.ne_none_iff_exists'.mp found
    rw [allocates.shrinks path value found] at absent
    cases absent

/-- The capacity only depends on the references. -/
theorem BlockManager.PoolValid.fits_iff {refs : BlockId → ℕ} (valid : PoolValid cfg bm refs)
    (valid' : PoolValid cfg bm' refs) : Fits cfg bm' seq matched ↔ Fits cfg bm seq matched := by
  rw [Fits, Fits, valid.length_free, valid'.length_free, valid.countUsed, valid'.countUsed]

namespace Sequence

/-- A request with scheduled tokens. -/
def scheduled (seq : Sequence) (now : ℚ) (count : ℕ) : Sequence :=
  { seq.markScheduled now with numScheduledTokens := count }

/-- A request at the beginning of a restore. -/
def restoring (seq : Sequence) (now : ℚ) : Sequence :=
  { seq with
    status := .waitingForKv
    remoteRestoreAttempted := true
    remoteRestoreStartedTime := some now
    remoteRestoreCompletedTime := none
    remoteRestoreError := none }

/-- A request after a failed restore. -/
def restoreFailed (seq : Sequence) (now : ℚ) (error : String) : Sequence :=
  { seq with
    status := .waiting
    remoteRestoreCompletedTime := some now
    remoteRestoreWaitMs := seq.remoteRestoreWaitMs + seq.remoteRestoreElapsedMs now
    remoteRestoreFailures := seq.remoteRestoreFailures + 1
    remoteRestoreError := some error }

theorem numBlocks_eq (nonempty : 0 < seq.numTokens) :
    seq.numBlocks cfg = (seq.numTokens - 1) / cfg.blockSize + 1 := by
  rw [numBlocks, show seq.numTokens + cfg.blockSize - 1 = seq.numTokens - 1 + cfg.blockSize by
    omega, Nat.add_div_right _ cfg.blockSize_pos]

/-- An admitted request waits with all its pages. -/
theorem Waiting.admitted (waiting : seq.Waiting cfg) (idle : seq.numScheduledTokens = 0)
    {fresh : List BlockId} (nonempty : 0 < seq.numTokens)
    (bound : matched.length ≤ seq.numBlocks cfg - 1)
    (length : fresh.length = seq.numBlocks cfg - matched.length) :
    (seq.admitted cfg (matched ++ fresh) matched.length).Waiting cfg := by
  have pages := @numBlocks_pos cfg _ nonempty
  have full : (matched ++ fresh).length = seq.numBlocks cfg := by
    rw [List.length_append]
    omega
  refine ⟨waiting.uncompressed, full.le, fun short => absurd full short.ne, ?_, rfl⟩
  have := @mul_blockSize_lt cfg seq matched.length (by omega)
  change matched.length * cfg.blockSize + seq.numScheduledTokens < seq.numTokens
  omega

/-- A resumed request waits with all its pages. -/
theorem Waiting.resumed (waiting : seq.Waiting cfg) (idle : seq.numScheduledTokens = 0)
    (longest : Matches cfg bm seq matched) {fresh : List BlockId}
    (length : (resumeSuffix cfg seq matched).length + fresh.length =
      seq.numBlocks cfg - seq.blockTable.length) :
    (seq.resumed cfg (resumeSuffix cfg seq matched) fresh).Waiting cfg := by
  have owned := waiting.owned
  have full : (seq.blockTable ++ resumeSuffix cfg seq matched ++ fresh).length =
      seq.numBlocks cfg := by
    simp only [List.length_append]
    omega
  refine ⟨waiting.uncompressed, full.le, fun short => absurd full short.ne, ?_,
    congrArg (· + _) waiting.physical⟩
  have short := waiting.short
  change seq.numCachedTokens + (resumeSuffix cfg seq matched).length * cfg.blockSize +
    seq.numScheduledTokens < seq.numTokens
  rcases resumeSuffix_cases cfg seq matched with none_attached | taken
  · rw [none_attached]
    simp only [List.length_nil, Nat.zero_mul, Nat.add_zero]
    exact short
  · have bound := longest.length_le
    have total := congrArg List.length taken
    simp only [List.length_take, List.length_append] at total
    have nonempty : 0 < seq.numTokens := (Nat.zero_le _).trans_lt short
    have pages := @numBlocks_pos cfg _ nonempty
    have tail := @mul_blockSize_lt cfg seq
      (n := seq.blockTable.length + (resumeSuffix cfg seq matched).length) (by omega)
    rw [(waiting.retained (by omega)).1, ← Nat.add_mul, idle]
    exact tail

/-- A request whose last tokens are scheduled in a prefill batch runs. -/
theorem Waiting.running (waiting : seq.Waiting cfg) {refs : BlockId → ℕ} {n : ℕ} {kv : KvStore}
    (memory : SeqMemory cfg bm kv refs n seq)
    (full : seq.blockTable.length = seq.numBlocks cfg) {seq' : Sequence}
    (table : seq'.blockTable = seq.blockTable)
    (logical : seq'.kvBlockLogicalIndices = seq.kvBlockLogicalIndices)
    (tokenIds : seq'.tokenIds = seq.tokenIds)
    (physical : seq'.numPhysicalCachedTokens = seq'.numCachedTokens)
    (scheduled : 0 < seq'.numScheduledTokens) (complete : seq'.computedTokens = seq'.numTokens) :
    seq'.Running cfg := by
  have tokens : seq'.numTokens = seq.numTokens := congrArg List.length tokenIds
  have nonempty : 0 < seq'.computedTokens := scheduled.trans_le (Nat.le_add_left _ _)
  have pages := @numBlocks_eq cfg seq (by omega)
  refine ⟨nonempty, ?_, fun _ => complete, fun idle => absurd idle scheduled.ne', ?_⟩
  · rw [logical, memory.exact waiting.uncompressed, full, pages, complete, tokens,
      List.range_succ, List.getLast?_append]
    rfl
  · rw [table, full, physical, pages, complete, tokens]

end Sequence

namespace Scheduler

/-! ## Allocation -/

/-- `allocate` within the checked capacity. -/
theorem Valid.allocate
    (valid : Valid cfg ids kv Sequence.numCachedTokens held batch s) (mem : i ∈ s.waiting)
    (table : (s.seqs i).blockTable = []) (idle : (s.seqs i).numScheduledTokens = 0)
    (longest : Matches cfg s.blockManager (s.seqs i) matched)
    (current : PlanCurrent cfg s.blockManager (s.seqs i))
    (fits : Fits cfg s.blockManager (s.seqs i) matched) :
    ∃ bm' fresh, s.blockManager.allocate cfg (s.seqs i) matched.length =
        .ok (bm', (s.seqs i).admitted cfg (matched ++ fresh) matched.length) ∧
      fresh.length = (s.seqs i).numBlocks cfg - matched.length ∧
      Valid cfg ids kv Sequence.numCachedTokens held batch
        (s.put i bm' ((s.seqs i).admitted cfg (matched ++ fresh) matched.length)) ∧
      bm'.pendingMatches i = none ∧ Matches cfg bm' (s.seqs i) matched ∧
      ∀ blockId ∈ fresh, bm'.Unindexed cfg blockId := by
  obtain ⟨known, status, phase⟩ := valid.waiting mem
  have wellFormed := valid.request i known
  have named := wellFormed.named
  have nonempty : 0 < (s.seqs i).numTokens := wellFormed.prompt.trans_le wellFormed.prompt_le
  have pages := @Sequence.numBlocks_pos cfg _ nonempty
  have uncached : (s.seqs i).numCachedTokens = 0 := by
    rw [(phase.retained (by rw [table]; exact pages)).1, table, List.length_nil, Nat.zero_mul]
  obtain ⟨bm₀, bm', fresh, allocated, length, memory, same, plans, resumePlans, allocates⟩ :=
    valid.memory.allocate known table uncached longest current fits
  have noPlan : bm'.pendingMatches i = none := by
    rw [allocates.pendingMatches, plans, named, Function.update_self]
  refine ⟨bm', fresh, allocated, length, valid.put known memory ?_ rfl ?_ ⟨?_, ?_, ?_, ?_⟩
    Iff.rfl, noPlan, (longest.of_sameMemory same).of_allocates allocates, allocates.unindexed⟩
  · refine SameRequest.wellFormed wellFormed
      ⟨rfl, rfl, rfl, rfl, rfl, rfl, rfl, rfl, rfl, Iff.rfl, id⟩ (.of_waiting status ?_)
    exact phase.admitted idle nonempty longest.length_le length
  · change (s.seqs i).status ≠ _
    rw [status]
    nofun
  · intro j differ
    rw [allocates.pendingMatches, plans, named, Function.update_of_ne differ]
    exact id
  · intro j _
    rw [allocates.pendingResumeMatches, resumePlans]
    exact id
  · exact fun planned => absurd noPlan planned
  · intro _
    change (s.seqs i).status.Live
    rw [status]
    trivial

/-- `resume` within the checked capacity. -/
theorem Valid.resume
    (valid : Valid cfg ids kv Sequence.numCachedTokens held batch s) (mem : i ∈ s.waiting)
    (table : (s.seqs i).blockTable ≠ []) (idle : (s.seqs i).numScheduledTokens = 0)
    (resumable : Resumable cfg s i matched) :
    ∃ bm' fresh reused, s.blockManager.resume cfg (s.seqs i) =
        .ok (bm', (s.seqs i).resumed cfg (resumeSuffix cfg (s.seqs i) matched) fresh, reused) ∧
      (resumeSuffix cfg (s.seqs i) matched).length + fresh.length =
        (s.seqs i).numBlocks cfg - (s.seqs i).blockTable.length ∧
      Valid cfg ids kv Sequence.numCachedTokens held batch
        (s.put i bm' (((s.seqs i).resumed cfg (resumeSuffix cfg (s.seqs i) matched)
          fresh).recordReusedTokens reused)) := by
  obtain ⟨known, status, phase⟩ := valid.waiting mem
  have wellFormed := valid.request i known
  obtain ⟨bm', fresh, resumed, length, memory, allocates⟩ := valid.memory.resume known
    phase.uncompressed phase.owned (fun short => (phase.retained short).1) resumable.longest
    (wellFormed.named.symm ▸ resumable.planned) resumable.fits
  have noPlan : s.blockManager.pendingMatches i = none := by
    by_contra planned
    exact table (valid.plans i planned).2.2
  refine ⟨bm', fresh, _, resumed, length, valid.put known
    (memory.replace ⟨rfl, rfl, rfl, rfl, rfl, rfl⟩ (le_refl _)) ?_ rfl ?_ ⟨?_, ?_, ?_, ?_⟩
    Iff.rfl⟩
  · refine SameRequest.wellFormed wellFormed
      ⟨rfl, rfl, rfl, rfl, rfl, rfl, rfl, rfl, rfl, Iff.rfl, id⟩ (.of_waiting status ?_)
    have waiting := phase.resumed idle resumable.longest length
    exact ⟨waiting.uncompressed, waiting.owned, waiting.retained, waiting.short,
      waiting.physical⟩
  · change (s.seqs i).status ≠ _
    rw [status]
    nofun
  · intro j _
    rw [allocates.pendingMatches]
    exact id
  · intro j differ
    rw [allocates.pendingResumeMatches]
    simp [popPendingResumeMatch, wellFormed.named, differ]
  · rw [allocates.pendingMatches]
    exact fun planned => absurd noPlan planned
  · intro _
    change (s.seqs i).status.Live
    rw [status]
    trivial

/-! ## Scheduling tokens -/

/-- Scheduling some, but not all of the missing tokens keeps a request waiting. -/
theorem Valid.schedulePart
    (valid : Valid cfg ids kv Sequence.numCachedTokens held batch s) (mem : i ∈ s.waiting)
    (notScheduled : i ∉ batch) (full : (s.seqs i).blockTable.length = (s.seqs i).numBlocks cfg)
    {count : ℕ} (positive : 0 < count) (now : ℚ)
    (incomplete : (s.seqs i).numCachedTokens + count < (s.seqs i).numTokens) :
    Valid cfg ids kv Sequence.numCachedTokens held (batch ++ [i])
      (s.setSeq i ((s.seqs i).scheduled now count)) := by
  obtain ⟨known, status, phase⟩ := valid.waiting mem
  have same : (s.seqs i).SameKv ((s.seqs i).scheduled now count) := ⟨rfl, rfl, rfl, rfl, rfl, rfl⟩
  refine valid.move known rfl (valid.memory.agree same (le_refl _))
    (SameRequest.wellFormed (valid.request i known)
      ⟨rfl, rfl, rfl, rfl, rfl, rfl, rfl, rfl, rfl, Iff.rfl, id⟩ (.of_waiting status
        ⟨phase.uncompressed, phase.owned, fun short => absurd full short.ne, incomplete,
          phase.physical⟩)) (fun _ _ _ => Iff.rfl) (fun status' live => ?_) valid.distinct
    (fun state mem' => .inl ⟨mem', ?_⟩) ⟨fun _ _ => id, fun _ _ => id,
      fun planned => (valid.plans i planned).2, fun planned => (valid.resumePlans i planned).2⟩
    ?_ (fun j differ => by simp [differ]) (by simpa [Sequence.scheduled] using positive)
  · exact (valid.queued status' live i).trans (and_iff_right known)
  · rintro rfl
    simp [(valid.restoring mem').2.1] at status
  · exact List.nodup_append.mpr ⟨valid.batch_distinct, List.nodup_singleton i,
      fun j mem' k mem'' => by
        rw [List.mem_singleton.mp mem'']
        rintro rfl
        exact notScheduled mem'⟩

/-- Scheduling all missing tokens makes a request run. -/
theorem Valid.scheduleAll
    (valid : Valid cfg ids kv Sequence.numCachedTokens held batch s) (mem : i ∈ s.waiting)
    (notScheduled : i ∉ batch) (full : (s.seqs i).blockTable.length = (s.seqs i).numBlocks cfg)
    {count : ℕ} (positive : 0 < count) (now : ℚ)
    (complete : (s.seqs i).numCachedTokens + count = (s.seqs i).numTokens) :
    Valid cfg ids kv Sequence.numCachedTokens held (batch ++ [i])
      { s.setSeq i { (s.seqs i).scheduled now count with status := .running } with
        waiting := s.waiting.erase i
        running := s.running ++ [i] } := by
  obtain ⟨known, status, phase⟩ := valid.waiting mem
  have pages := @Sequence.numBlocks_pos cfg _ ((Nat.zero_le _).trans_lt phase.short)
  have table : (s.seqs i).blockTable ≠ [] := fun empty => by
    rw [empty, List.length_nil] at full
    omega
  have notRunning : i ∉ s.running ++ held := fun mem' => by
    simp [(valid.running mem').2.1] at status
  have notPending : i ∉ s.pendingRestores.map PendingRestoreState.sequence := fun mem' => by
    simp [(valid.mem_pending.mp mem').2] at status
  have noPlan : s.blockManager.pendingMatches i = none := by
    by_contra planned
    exact table (valid.plans i planned).2.2
  have waitingDistinct : s.waiting.Nodup := valid.distinct .waiting
  have split : (s.running ++ [i] ++ held).Perm (i :: (s.running ++ held)) := by
    rw [List.append_assoc]
    exact List.perm_middle
  refine @Valid.move _ _ _ _ _ _ _ _ _ _ i
    { (s.seqs i).scheduled now count with status := .running } valid known rfl
    (valid.memory.agree ⟨rfl, rfl, rfl, rfl, rfl, rfl⟩ (le_refl _))
    (SameRequest.wellFormed (valid.request i known)
      ⟨rfl, rfl, rfl, rfl, rfl, rfl, rfl, rfl, rfl, by rw [status]; exact Iff.rfl, id⟩
      (.of_running rfl (phase.running (valid.memory.request i known) full rfl rfl rfl
        phase.physical positive complete)))
    (fun status' j differ => ?_) (fun status' live => ?_) (fun status' => ?_)
    (fun state mem' => .inl ⟨mem', ?_⟩) ⟨fun _ _ => id, fun _ _ => id,
      fun planned => absurd noPlan planned, fun _ => trivial⟩
    ?_ (fun j differ => by simp [differ]) (by simpa [Sequence.scheduled] using positive)
  · cases status' with
    | waiting => exact List.mem_erase_of_ne differ
    | running => simp [queue, differ]
    | _ => exact Iff.rfl
  · cases status' with
    | waiting => exact iff_of_false waitingDistinct.not_mem_erase (by simp)
    | running => exact iff_of_true (by simp [queue]) rfl
    | waitingForKv => exact iff_of_false notPending (by simp)
    | finished => exact live.elim
    | cancelled => exact live.elim
  · cases status' with
    | waiting => exact waitingDistinct.erase i
    | running =>
      exact split.nodup_iff.mpr (List.nodup_cons.mpr ⟨notRunning, valid.distinct .running⟩)
    | waitingForKv => exact valid.distinct .waitingForKv
    | finished => exact List.nodup_nil
    | cancelled => exact List.nodup_nil
  · rintro rfl
    exact notPending (List.mem_map_of_mem mem')
  · exact List.nodup_append.mpr ⟨valid.batch_distinct, List.nodup_singleton i,
      fun j mem' k mem'' => by
        rw [List.mem_singleton.mp mem'']
        rintro rfl
        exact notScheduled mem'⟩

/-! ## Remote restores -/

/-- A restore has become pending. -/
structure RestoreStarted (env : ScheduleEnv cfg) (s : Scheduler) (i : SeqId) (s' : Scheduler) :
    Prop where
  seqs : ∃ seq, s'.seqs = Function.update s.seqs i seq
  waiting : s'.waiting = s.waiting.erase i
  running : s'.running = s.running
  pendingRestores : ∃ state, state.sequence = i ∧ s'.pendingRestores = s.pendingRestores ++ [state]
  attempted : (s.seqs i).remoteRestoreAttempted = false
  offered : ∃ n pages, env.service.planRestore (s.seqs i) n s.estimator.prefillMsPerToken = some pages

/-- The submission of a restore has failed, and the request waits as before. -/
structure RestoreRefused (cfg : Config) (s : Scheduler) (i : SeqId) (matched : List BlockId)
    (s' : Scheduler) : Prop where
  seqs : ∃ seq, s'.seqs = Function.update s.seqs i seq
  waiting : s'.waiting = s.waiting
  running : s'.running = s.running
  pendingRestores : s'.pendingRestores = s.pendingRestores
  table : (s'.seqs i).blockTable = []
  idle : (s'.seqs i).numScheduledTokens = 0
  attempted : (s'.seqs i).remoteRestoreAttempted = true
  longest : Matches cfg s'.blockManager (s'.seqs i) matched
  fits : Fits cfg s'.blockManager (s'.seqs i) matched
  noPlan : s'.blockManager.pendingMatches i = none

/-- A reserved request waits for its pages. -/
theorem Valid.beginRestore
    (valid : Valid cfg ids kv Sequence.numCachedTokens held batch s) (mem : i ∈ s.waiting)
    (full : (s.seqs i).blockTable.length = (s.seqs i).numBlocks cfg)
    (idle : (s.seqs i).numScheduledTokens = 0) (now : ℚ) {state : PendingRestoreState}
    (own : state.sequence = i) (pending : state.Valid cfg (s.seqs i)) :
    Valid cfg ids kv Sequence.numCachedTokens held batch
      { s.setSeq i ((s.seqs i).restoring now) with
        waiting := s.waiting.erase i
        pendingRestores := s.pendingRestores ++ [state] } := by
  obtain ⟨known, status, phase⟩ := valid.waiting mem
  have wellFormed := valid.request i known
  have pages := @Sequence.numBlocks_pos cfg _ ((Nat.zero_le _).trans_lt phase.short)
  have noPlan : s.blockManager.pendingMatches i = none := by
    by_contra planned
    rw [(valid.plans i planned).2.2, List.length_nil] at full
    omega
  have notRunning : i ∉ s.running ++ held := fun mem' => by
    simp [(valid.running mem').2.1] at status
  have notPending : i ∉ s.pendingRestores.map PendingRestoreState.sequence := fun mem' => by
    simp [(valid.mem_pending.mp mem').2] at status
  have waitingDistinct : s.waiting.Nodup := valid.distinct .waiting
  have split : ((s.pendingRestores ++ [state]).map PendingRestoreState.sequence).Perm
      (i :: s.pendingRestores.map PendingRestoreState.sequence) := by
    rw [List.map_append, List.map_singleton, own]
    exact List.perm_append_singleton _ _
  refine @Valid.move _ _ _ _ _ _ _ _ _ _ i ((s.seqs i).restoring now) valid known rfl
    (valid.memory.agree ⟨rfl, rfl, rfl, rfl, rfl, rfl⟩ (le_refl _))
    (SameRequest.wellFormed wellFormed ⟨rfl, rfl, rfl, rfl, rfl, rfl, rfl, rfl, rfl,
      by rw [status]; exact Iff.rfl, fun _ => rfl⟩ (.of_restoring rfl
        ⟨phase.uncompressed, full, idle, phase.physical⟩))
    (fun status' j differ => ?_) (fun status' live => ?_) (fun status' => ?_)
    (fun state' mem' => ?_) ⟨fun _ _ => id, fun _ _ => id,
      fun planned => absurd noPlan planned, fun _ => trivial⟩
    valid.batch_distinct (fun _ _ => Iff.rfl) ?_
  · cases status' with
    | waiting => exact List.mem_erase_of_ne differ
    | waitingForKv => exact split.mem_iff.trans (by simp [queue, differ])
    | _ => exact Iff.rfl
  · cases status' with
    | waiting => exact iff_of_false waitingDistinct.not_mem_erase (fun same => by cases same)
    | waitingForKv => exact iff_of_true (split.mem_iff.mpr (.head _)) rfl
    | running => exact iff_of_false notRunning (fun same => by cases same)
    | finished => exact live.elim
    | cancelled => exact live.elim
  · cases status' with
    | waiting => exact waitingDistinct.erase i
    | waitingForKv =>
      exact split.nodup_iff.mpr (List.nodup_cons.mpr ⟨notPending, valid.distinct .waitingForKv⟩)
    | running => exact valid.distinct .running
    | finished => exact List.nodup_nil
    | cancelled => exact List.nodup_nil
  · rcases List.mem_append.mp mem' with old | new
    · refine .inl ⟨old, ?_⟩
      rintro rfl
      exact notPending (List.mem_map_of_mem old)
    · rw [List.mem_singleton.mp new]
      exact .inr ⟨own, ⟨pending.aligned, pending.extendsLocal, pending.tail, pending.blockIds,
        pending.restored, pending.pagesLength, pending.pages⟩⟩
  · rw [valid.scheduled]
    exact and_iff_right known

/-- A request whose restore could not be submitted gives up its pages. -/
theorem Valid.refuseRestore
    (valid : Valid cfg ids kv Sequence.numCachedTokens held batch s) (mem : i ∈ s.waiting)
    (table : (s.seqs i).blockTable ≠ []) (idle : (s.seqs i).numScheduledTokens = 0) (now : ℚ)
    (error : String) :
    ∃ bm', s.blockManager.abortRestore ((s.seqs i).restoring now) =
        .ok (bm', ((s.seqs i).restoring now).withoutPages) ∧
      Valid cfg ids kv Sequence.numCachedTokens held batch
        (s.put i bm' (((s.seqs i).restoring now).withoutPages.restoreFailed now error)) ∧
      RefsOnly (s.blockManager.popPendingResumeMatch (s.seqs i).seqId) bm' := by
  obtain ⟨known, status, phase⟩ := valid.waiting mem
  have wellFormed := valid.request i known
  obtain ⟨bm', deallocated, memory, same⟩ := @MemoryValid.deallocate _ _ _ _ _ _ _
    ((s.seqs i).restoring now) valid.memory known rfl
  refine ⟨bm', ?_, valid.put known (memory.replace ⟨rfl, rfl, rfl, rfl, rfl, rfl⟩ (le_refl _))
    (SameRequest.wellFormed wellFormed ⟨rfl, rfl, rfl, rfl, rfl, rfl, rfl, rfl, rfl,
      by rw [status]; exact Iff.rfl, fun _ => rfl⟩ (.of_waiting rfl
        ⟨rfl, Nat.zero_le _, fun _ => ⟨(Nat.zero_mul _).symm, idle⟩, ?_, rfl⟩))
    status.symm nofun (.of_release wellFormed.named same fun _ => ⟨rfl, rfl⟩) Iff.rfl, same⟩
  · exact (if_neg table).trans deallocated
  · change 0 + (s.seqs i).numScheduledTokens < (s.seqs i).numTokens
    rw [idle]
    exact wellFormed.prompt.trans_le wellFormed.prompt_le

/-- The pages reserved for a planned restore. -/
theorem pendingRestore_valid {pages : List RemotePageDescriptor} {blockTable : List BlockId}
    {n : ℕ} (extendsLocal : n < pages.length) (tail : pages.length < seq.numBlocks cfg)
    (descriptors : ∀ page index, pages[index]? = some page → page.pageIndex = index ∧
      page.prefixTokenIds = seq.tokenIds.take ((index + 1) * cfg.blockSize)) :
    PendingRestoreState.Valid cfg (seq.admitted cfg blockTable n)
      { sequence := i, pages := pages.drop n, blockIds := (blockTable.take pages.length).drop n,
        totalCachedBlocks := pages.length, restoredBlocks := pages.length - n } := by
  have cached : (seq.admitted cfg blockTable n).cachedBlocks cfg = n :=
    Nat.mul_div_cancel _ cfg.blockSize_pos
  refine ⟨?_, ?_, tail, ?_, ?_, ?_, ?_⟩ <;> rw [cached]
  · rfl
  · exact extendsLocal
  · rfl
  · exact List.length_drop
  · intro k page get
    exact descriptors page (n + k) (by rwa [List.getElem?_drop] at get)

/-- `reserve_restore` within the checked capacity. -/
theorem Valid.reserveRestore
    (valid : Valid cfg ids kv Sequence.numCachedTokens held batch s) (mem : i ∈ s.waiting)
    (table : (s.seqs i).blockTable = []) (idle : (s.seqs i).numScheduledTokens = 0)
    (longest : Matches cfg s.blockManager (s.seqs i) matched)
    (current : PlanCurrent cfg s.blockManager (s.seqs i))
    (fits : Fits cfg s.blockManager (s.seqs i) matched) {n : ℕ}
    (extendsLocal : matched.length < n) (tail : n < (s.seqs i).numBlocks cfg) :
    ∃ bm' fresh, s.blockManager.reserveRestore cfg (s.seqs i) matched.length n =
        .ok (bm', (s.seqs i).admitted cfg (matched ++ fresh) matched.length,
          ((matched ++ fresh).take n).drop matched.length) ∧
      (matched ++ fresh).length = (s.seqs i).numBlocks cfg ∧
      Valid cfg ids kv Sequence.numCachedTokens held batch
        (s.put i bm' ((s.seqs i).admitted cfg (matched ++ fresh) matched.length)) ∧
      bm'.pendingMatches i = none ∧ Matches cfg bm' (s.seqs i) matched ∧
      ∀ blockId ∈ fresh, bm'.Unindexed cfg blockId := by
  rcases valid.allocate mem table idle longest current fits with
    ⟨bm', fresh, allocated, length, valid', noPlan, longest', unindexed⟩
  refine ⟨bm', fresh, ?_, ?_, valid', noPlan, longest', unindexed⟩
  · rw [BlockManager.reserveRestore, if_neg (not_not.mpr ⟨extendsLocal, tail⟩), allocated,
      Py.ok_bind]
    rfl
  · rw [List.length_append, length]
    exact Nat.add_sub_cancel' (extendsLocal.trans tail).le

/-- A restore whose submission fails: its pages are reserved and given up again. -/
theorem Valid.startRemoteRestore_refused
    (valid : Valid cfg ids kv Sequence.numCachedTokens held batch s) (env : ScheduleEnv cfg)
    (now : ℚ) (mem : i ∈ s.waiting) (idle : (s.seqs i).numScheduledTokens = 0)
    (attempted : (s.seqs i).remoteRestoreAttempted = false) {pages : List RemotePageDescriptor}
    (planned : env.service.planRestore (s.seqs i) matched.length s.estimator.prefillMsPerToken =
      some pages) {fresh blockIds : List BlockId}
    (reserves : s.blockManager.reserveRestore cfg (s.seqs i) matched.length pages.length =
      .ok (bm', (s.seqs i).admitted cfg (matched ++ fresh) matched.length, blockIds))
    (owned : matched ++ fresh ≠ [])
    (valid' : Valid cfg ids kv Sequence.numCachedTokens held batch
      (s.put i bm' ((s.seqs i).admitted cfg (matched ++ fresh) matched.length)))
    {error : String} (refused : env.submitError i = some error) :
    ∃ bm'', s.startRemoteRestore cfg env i matched.length now =
        .ok (s.put i bm'' ((((s.seqs i).admitted cfg (matched ++ fresh)
          matched.length).restoring now).withoutPages.restoreFailed now error), false) ∧
      Valid cfg ids kv Sequence.numCachedTokens held batch
        (s.put i bm'' ((((s.seqs i).admitted cfg (matched ++ fresh)
          matched.length).restoring now).withoutPages.restoreFailed now error)) ∧
      RefsOnly (bm'.popPendingResumeMatch (s.seqs i).seqId) bm'' := by
  obtain ⟨-, status, -⟩ := valid.waiting mem
  let reserved := (s.seqs i).admitted cfg (matched ++ fresh) matched.length
  have self : (s.put i bm' reserved).seqs i = reserved := Function.update_self _ _ _
  have begun : reserved.beginRemoteRestore now = .ok (reserved.restoring now) :=
    if_neg (not_not.mpr status)
  obtain ⟨bm'', aborted, valid'', same⟩ := valid'.refuseRestore mem
    (by rw [self]; exact owned) (by rw [self]; exact idle) now error
  rw [self] at aborted valid'' same
  rw [show (s.put i bm' reserved).blockManager = bm' from rfl] at aborted
  have twice : (s.put i bm' reserved).put i bm''
      ((reserved.restoring now).withoutPages.restoreFailed now error) =
      s.put i bm'' ((reserved.restoring now).withoutPages.restoreFailed now error) := by
    simp only [Scheduler.put, Function.update_idem]
  rw [twice] at valid''
  refine ⟨bm'', ?_, valid'', same⟩
  unfold Scheduler.startRemoteRestore
  rw [attempted, planned]
  simp only [Bool.false_eq_true, if_false]
  rw [reserves, Py.ok_bind, begun, Py.ok_bind, refused]
  dsimp only
  rw [aborted, Py.ok_bind]
  rfl

/-- `_start_remote_restore` within the checked capacity raises nothing. -/
theorem Valid.startRemoteRestore
    (valid : Valid cfg ids kv Sequence.numCachedTokens held batch s) (env : ScheduleEnv cfg)
    (now : ℚ) (mem : i ∈ s.waiting) (table : (s.seqs i).blockTable = [])
    (idle : (s.seqs i).numScheduledTokens = 0)
    (longest : Matches cfg s.blockManager (s.seqs i) matched)
    (current : PlanCurrent cfg s.blockManager (s.seqs i))
    (fits : Fits cfg s.blockManager (s.seqs i) matched) :
    ∃ s' started, s.startRemoteRestore cfg env i matched.length now = .ok (s', started) ∧
      Valid cfg ids kv Sequence.numCachedTokens held batch s' ∧ Follows s s' ∧
      ((started = true ∧ RestoreStarted env s i s') ∨
        (started = false ∧ (s' = s ∨ RestoreRefused cfg s i matched s'))) := by
  unfold Scheduler.startRemoteRestore
  cases attempted : (s.seqs i).remoteRestoreAttempted with
  | true => exact ⟨s, false, rfl, valid, .refl s, .inr ⟨rfl, .inl rfl⟩⟩
  | false =>
    simp only [Bool.false_eq_true, if_false]
    split
    · exact ⟨s, false, rfl, valid, .refl s, .inr ⟨rfl, .inl rfl⟩⟩
    next pages planned =>
    obtain ⟨extendsLocal, tail, descriptors⟩ := env.service.plan_valid planned
    obtain ⟨known, status, phase⟩ := valid.waiting mem
    have live : (s.seqs i).status.Live := by rw [status]; trivial
    have nonempty : 0 < (s.seqs i).numTokens := (Nat.zero_le _).trans_lt phase.short
    have pos := @Sequence.numBlocks_pos cfg _ nonempty
    obtain ⟨bm', fresh, reservation, length, valid', noPlan, longest', -⟩ :=
      valid.reserveRestore mem table idle longest current fits extendsLocal tail
    let reserved := (s.seqs i).admitted cfg (matched ++ fresh) matched.length
    have self : (s.put i bm' reserved).seqs i = reserved := Function.update_self _ _ _
    have begun : reserved.beginRemoteRestore now = .ok (reserved.restoring now) :=
      if_neg (not_not.mpr status)
    cases submitted : env.submitError i with
    | some error =>
      have owned : matched ++ fresh ≠ [] := fun empty => by
        rw [empty, List.length_nil] at length
        exact pos.ne length
      obtain ⟨bm'', refused, valid'', same⟩ := valid.startRemoteRestore_refused env now mem idle
        attempted planned reservation owned valid' submitted
      have self' : (s.put i bm'' ((reserved.restoring now).withoutPages.restoreFailed now
          error)).seqs i = (reserved.restoring now).withoutPages.restoreFailed now error :=
        Function.update_self _ _ _
      unfold Scheduler.startRemoteRestore at refused
      rw [attempted, planned] at refused
      simp only [Bool.false_eq_true, if_false, submitted] at refused
      refine ⟨_, false, refused, valid'', .of_update rfl live ⟨rfl, rfl, rfl, rfl, rfl, rfl, rfl,
        rfl, rfl, by rw [status]; exact Iff.rfl, fun _ => rfl⟩ rfl rfl rfl,
        .inr ⟨rfl, .inr ⟨⟨_, rfl⟩, rfl, rfl, rfl, ?_, ?_, ?_, ?_, ?_, ?_⟩⟩⟩
      · rw [self']
        rfl
      · rw [self']
        exact idle
      · rw [self']
        rfl
      · rw [self']
        exact IsLongestMatch.agree longest' fun k _ => same.entry _
      · rw [self']
        have refs := @tableRefs_update_of_eq s.seqs ids i
          ((reserved.restoring now).withoutPages.restoreFailed now error) table.symm
        exact (valid.memory.pool.fits_iff (refs ▸ valid''.memory.pool)).mpr fits
      · exact (congrFun same.pendingMatches i).trans noPlan
    | none =>
      have pending := @pendingRestore_valid cfg i (s.seqs i) _ (matched ++ fresh) _
        extendsLocal tail fun page index => descriptors page index
      have valid'' := valid'.beginRestore mem (by rw [self]; exact length) (by rw [self]; exact idle)
        now rfl (by rw [self]; exact pending)
      rw [self] at valid''
      have twice : (s.put i bm' reserved).setSeq i (reserved.restoring now) =
          s.put i bm' (reserved.restoring now) := by
        simp only [Scheduler.put, Scheduler.setSeq, Function.update_idem]
      rw [twice] at valid''
      rw [reservation, Py.ok_bind, begun, Py.ok_bind]
      refine ⟨_, true, rfl, valid'', .of_start rfl live ⟨rfl, rfl, rfl, rfl, rfl, rfl, rfl, rfl,
        rfl, by rw [status]; exact Iff.rfl, fun _ => rfl⟩ (fun state mem' =>
          List.mem_append_left _ mem') (fun state mem' => ?_) rfl rfl,
        .inl ⟨rfl, ⟨_, rfl⟩, rfl, rfl, ⟨_, rfl, rfl⟩, attempted, ⟨_, _, planned⟩⟩⟩
      rcases List.mem_append.mp mem' with old | new
      · exact .inl old
      · rw [List.mem_singleton.mp new]
        refine .inr ⟨attempted, ?_⟩
        change (Function.update s.seqs i _ i).remoteRestoreAttempted = true
        rw [Function.update_self]
        rfl

end Scheduler

end NanoVllm
