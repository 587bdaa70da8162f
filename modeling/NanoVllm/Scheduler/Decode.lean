import NanoVllm.Scheduler.PrefillLoop

/-!
# The decode phase

The decode loop takes one running request at a time out of the queue, makes room for its next
token by preempting others and at last itself, and schedules it. `Evicts` and `Decodes` describe
the runs of the two loops.
-/

namespace NanoVllm

open BlockManager

namespace Sequence

variable {cfg : Config} {seq : Sequence}

/-- A request with one scheduled token in a decode batch. -/
def decoding (seq : Sequence) : Sequence :=
  { seq with numScheduledTokens := 1, isPrefill := false }

/-- A page starts with the token after the last one of a full page. -/
theorem succ_mod_blockSize (cfg : Config) (n : ℕ) :
    (n + 1) % cfg.blockSize = 1 ↔ n % cfg.blockSize = 0 := by
  have large := cfg.two_le_blockSize
  have step := Nat.mod_add_mod n cfg.blockSize 1
  have inside := Nat.mod_lt n cfg.blockSize_pos
  constructor
  · intro one
    by_contra positive
    rw [one] at step
    by_cases whole : n % cfg.blockSize + 1 = cfg.blockSize
    · rw [whole, Nat.mod_self] at step
      omega
    · rw [Nat.mod_eq_of_lt (by omega)] at step
      omega
  · intro zero
    rw [zero, Nat.zero_add, Nat.mod_eq_of_lt (by omega)] at step
    exact step.symm

/-- An idle running request starts a page when its cached tokens fill their pages. -/
theorem Running.startsPage_iff (running : seq.Running cfg) (idle : seq.numScheduledTokens = 0) :
    startsPage cfg seq = true ↔ seq.numCachedTokens % cfg.blockSize = 0 := by
  rw [startsPage, ← running.next idle, decide_eq_true_eq]
  exact succ_mod_blockSize cfg _

/-- The pages of an idle running request end before the page it starts. -/
theorem Running.lastPage (running : seq.Running cfg) (idle : seq.numScheduledTokens = 0)
    (starts : startsPage cfg seq = true) :
    (seq.numCachedTokens - 1) / cfg.blockSize + 1 = seq.numCachedTokens / cfg.blockSize := by
  have whole := (running.startsPage_iff idle).mp starts
  have positive := running.nonempty
  rw [computedTokens, idle, Nat.add_zero] at positive
  have split := Nat.div_add_mod seq.numCachedTokens cfg.blockSize
  rw [whole, Nat.add_zero] at split
  have pages : 0 < seq.numCachedTokens / cfg.blockSize := by
    rw [Nat.pos_iff_ne_zero]
    rintro none
    rw [none, Nat.mul_zero] at split
    omega
  rw [← Nat.sub_add_cancel pages]
  congr 1
  have size := cfg.blockSize_pos
  rw [Nat.div_eq_iff size, Nat.sub_mul, Nat.mul_comm _ cfg.blockSize, split, Nat.one_mul]
  have := Nat.le_mul_of_pos_right cfg.blockSize pages
  omega

/-- Otherwise the next token lies in the last page. -/
theorem Running.samePage (running : seq.Running cfg) (idle : seq.numScheduledTokens = 0)
    (continues : startsPage cfg seq = false) :
    (seq.numCachedTokens - 1) / cfg.blockSize = seq.numCachedTokens / cfg.blockSize := by
  have inside : seq.numCachedTokens % cfg.blockSize ≠ 0 := fun whole => by
    rw [(running.startsPage_iff idle).mpr whole] at continues
    cases continues
  have split := Nat.div_add_mod seq.numCachedTokens cfg.blockSize
  have bound := Nat.mod_lt seq.numCachedTokens cfg.blockSize_pos
  rw [Nat.div_eq_iff cfg.blockSize_pos, Nat.mul_comm]
  omega

/-- The page which the next decode step of an idle running request needs. -/
theorem Running.numBlocks_eq (running : seq.Running cfg) (idle : seq.numScheduledTokens = 0) :
    seq.numBlocks cfg = seq.numCachedTokens / cfg.blockSize + 1 := by
  have next := running.next idle
  rw [Sequence.numBlocks_eq (by omega), ← next, Nat.add_sub_cancel]

end Sequence

namespace Scheduler

variable {cfg : Config} {ids : Finset SeqId} {kv : KvStore} {held batch sched : List SeqId}
  {s s' : Scheduler} {i j : SeqId} {seq : Sequence} {bm' : BlockManager} {now : ℚ}

/-! ## Scheduling one token -/

/-- A decoding request with the page of its next token in place. -/
theorem decoding_running {seq : Sequence} (running : seq.Running cfg)
    (idle : seq.numScheduledTokens = 0) (continues : startsPage cfg seq = false) :
    seq.decoding.Running cfg := by
  have next := running.next idle
  have last := running.last
  have physical := running.physical
  simp only [Sequence.computedTokens, idle, Nat.add_zero, running.samePage idle continues]
    at last physical
  exact ⟨Nat.succ_pos _, last, fun _ => next, fun idle => absurd idle (by simp [Sequence.decoding]),
    physical⟩

/-- A decoding request which starts a page. -/
theorem decoding_withPage_running {seq : Sequence} (running : seq.Running cfg)
    (idle : seq.numScheduledTokens = 0) (starts : startsPage cfg seq = true) (blockId : BlockId) :
    (seq.decoding.withPage cfg blockId).Running cfg := by
  have next := running.next idle
  have physical := running.physical
  have pages := running.numBlocks_eq idle
  simp only [Sequence.computedTokens, idle, Nat.add_zero, running.lastPage idle starts]
    at physical
  refine ⟨Nat.succ_pos _, ?_, fun _ => next, fun idle => absurd idle (by
    simp [Sequence.decoding, Sequence.withPage]), ?_⟩
  · change (seq.kvBlockLogicalIndices ++ [seq.numBlocks cfg - 1]).getLast? =
      some (seq.numCachedTokens / cfg.blockSize)
    rw [List.getLast?_append, pages]
    rfl
  · change seq.numCachedTokens + (seq.blockTable ++ [blockId]).length * cfg.blockSize =
      seq.numPhysicalCachedTokens + (seq.numCachedTokens / cfg.blockSize + 1) * cfg.blockSize
    rw [List.length_append, List.length_singleton, Nat.add_mul, Nat.add_mul]
    omega

/-- The running request `i` gets its next token scheduled. -/
structure SchedulesToken (s : Scheduler) (i : SeqId) (s' : Scheduler) : Prop where
  seqs : ∃ seq, s'.seqs = Function.update s.seqs i seq
  waiting : s'.waiting = s.waiting
  running : s'.running = s.running
  pendingRestores : s'.pendingRestores = s.pendingRestores
  follows : Follows s s'

/-- Scheduling the next token of a request with room for it raises nothing. -/
theorem Valid.scheduleDecode
    (valid : Valid cfg ids kv Sequence.numCachedTokens (i :: held) batch s)
    (notScheduled : i ∉ batch) (room : s.blockManager.canAppend cfg (s.seqs i) = true) :
    ∃ s', s.scheduleDecode cfg i = .ok s' ∧
      Valid cfg ids kv Sequence.numCachedTokens (i :: held) (batch ++ [i]) s' ∧
      SchedulesToken s i s' ∧ (s'.seqs i).numScheduledTokens = 1 := by
  obtain ⟨known, status, phase⟩ := valid.running (i := i) (by simp)
  have wellFormed := valid.request i known
  have idle := valid.idle known notScheduled
  have memory := valid.memory.request i known
  have live : (s.seqs i).status.Live := by rw [status]; trivial
  have decodes : ∀ bm' seq, s.blockManager.mayAppend cfg (s.seqs i).decoding = .ok (bm', seq) →
      MemoryValid cfg ids (Function.update s.seqs i seq) bm' kv Sequence.numCachedTokens →
      seq.Running cfg → SameRequest (s.seqs i) seq → seq.status = (s.seqs i).status →
      seq.numScheduledTokens = 1 →
      bm'.pendingMatches = s.blockManager.pendingMatches →
      bm'.pendingResumeMatches = s.blockManager.pendingResumeMatches →
      ∃ s', s.scheduleDecode cfg i = .ok s' ∧
        Valid cfg ids kv Sequence.numCachedTokens (i :: held) (batch ++ [i]) s' ∧
        SchedulesToken s i s' ∧ (s'.seqs i).numScheduledTokens = 1 := by
    intro bm' seq appended memory' running same status' single plans resumePlans
    refine ⟨s.put i bm' seq, ?_, valid.move known rfl memory' (same.wellFormed wellFormed
      (.of_running (status'.trans status) running)) (fun _ _ _ => Iff.rfl)
      (fun status'' live => ?_) valid.distinct (fun state mem => .inl ⟨mem, ?_⟩)
      (valid.plansKept status plans resumePlans (status'.trans status)) ?_
      (fun j differ => by simp [differ]) (by simp [single]),
      ⟨⟨seq, rfl⟩, rfl, rfl, rfl, .of_update rfl live same rfl rfl rfl⟩, ?_⟩
    · rw [Scheduler.scheduleDecode]
      change s.blockManager.mayAppend cfg (s.seqs i).decoding >>= _ = _
      rw [appended]
      rfl
    · rw [status']
      exact (valid.queued status'' live i).trans (and_iff_right known)
    · rintro rfl
      simp [(valid.restoring mem).2.1] at status
    · exact List.nodup_append.mpr ⟨valid.batch_distinct, List.nodup_singleton i,
        fun j mem k mem' => by
          rw [List.mem_singleton.mp mem']
          rintro rfl
          exact notScheduled mem⟩
    · change (Function.update s.seqs i seq i).numScheduledTokens = 1
      rw [Function.update_self, single]
  have agreed := @MemoryValid.agree _ _ _ _ _ _ valid.memory i (s.seqs i).decoding
    ⟨rfl, rfl, rfl, rfl, rfl, rfl⟩ (le_refl _)
  cases starts : startsPage cfg (s.seqs i) with
  | false =>
    exact decodes _ _ (mayAppend_of_not_starts starts) agreed (decoding_running phase idle starts)
      ⟨rfl, rfl, rfl, rfl, rfl, rfl, rfl, rfl, rfl, Iff.rfl, id⟩ rfl rfl rfl rfl
  | true =>
    have self : Function.update s.seqs i (s.seqs i).decoding i = (s.seqs i).decoding :=
      Function.update_self _ _ _
    have free : s.blockManager.freeBlockIds ≠ [] := by
      rintro empty
      simp [canAppend, starts, empty] at room
    have pages := phase.numBlocks_eq idle
    have lastPage := phase.lastPage idle starts
    have last := phase.last
    rw [Sequence.computedTokens, idle, Nat.add_zero] at last
    have bound : ∀ logical ∈ (s.seqs i).kvBlockLogicalIndices,
        logical ≤ ((s.seqs i).numCachedTokens - 1) / cfg.blockSize := fun logical mem => by
      have sorted := memory.increasing.imp (S := (· ≤ ·)) fun less => less.le
      obtain ⟨before, split⟩ := List.getLast?_eq_some_iff.mp last
      rw [split, List.pairwise_append] at sorted
      rw [split, List.mem_append, List.mem_singleton] at mem
      rcases mem with mem | rfl
      · exact sorted.2.2 logical mem _ (List.mem_singleton_self _)
      · exact le_refl _
    have whole := (phase.startsPage_iff idle).mp starts
    have aligned := Nat.div_add_mod (s.seqs i).numCachedTokens cfg.blockSize
    rw [whole, Nat.add_zero, Nat.mul_comm] at aligned
    have before : ∀ logical ∈ (s.seqs i).kvBlockLogicalIndices,
        logical < (s.seqs i).numBlocks cfg - 1 := fun logical mem => by
      have := bound logical mem
      omega
    have uncompressedTable : (s.seqs i).kvCompressed = false →
        (s.seqs i).blockTable.length = (s.seqs i).numBlocks cfg - 1 := fun uncompressed => by
      have exact := memory.exact uncompressed
      have nonempty : (s.seqs i).blockTable.length ≠ 0 := fun empty => by
        rw [exact, empty] at last
        simp at last
      rw [exact, List.getLast?_range, if_neg nonempty, Option.some.injEq] at last
      omega
    have cached_le : (s.seqs i).numCachedTokens ≤
        ((s.seqs i).numBlocks cfg - 1) * cfg.blockSize := by
      rw [pages, Nat.add_sub_cancel, aligned]
    obtain ⟨bm', blockId, appended, memory', allocates⟩ := agreed.mayAppend known
      (by rw [self]; exact starts) free (by rw [self]; exact before)
      (by rw [self]; exact uncompressedTable) (by rw [self]; exact cached_le)
    rw [self] at appended memory'
    rw [Function.update_idem] at memory'
    exact decodes _ _ appended memory' (decoding_withPage_running phase idle starts blockId)
      ⟨rfl, rfl, rfl, rfl, rfl, rfl, rfl, rfl, rfl, Iff.rfl, id⟩ rfl rfl
      allocates.pendingMatches allocates.pendingResumeMatches

/-! ## Making room for one token -/

/-- Take a request out of the running queue. -/
def takeOut (s : Scheduler) (i : SeqId) : Scheduler := { s with running := s.running.erase i }

theorem Valid.takeOut {computed : Sequence → ℕ}
    (valid : Valid cfg ids kv computed held batch s) (mem : i ∈ s.running) :
    Valid cfg ids kv computed (i :: held) batch (s.takeOut i) := by
  refine valid.reorder ?_ rfl rfl rfl rfl
  exact List.perm_middle.trans ((List.perm_cons_erase mem).symm.append_right held)

theorem takeOut_follows (s : Scheduler) (i : SeqId) : Follows s (s.takeOut i) :=
  .of_seqs rfl rfl rfl rfl

theorem selectPreemptionVictim_mem {estimator : ExecutionTimeEstimator} {seqs : SeqId → Sequence}
    {step : ℕ} {running : List SeqId}
    (selected : selectPreemptionVictim cfg estimator seqs step now running = some i) :
    i ∈ running := by
  unfold selectPreemptionVictim at selected
  split at selected
  · exact List.mem_of_getLast? selected
  · exact List.argmax_mem selected

theorem selectPreemptionVictim_eq_none {estimator : ExecutionTimeEstimator}
    {seqs : SeqId → Sequence} {step : ℕ} {running : List SeqId} :
    selectPreemptionVictim cfg estimator seqs step now running = none ↔ running = [] := by
  unfold selectPreemptionVictim
  split
  · exact List.getLast?_eq_none_iff
  · exact List.argmax_eq_none

/--
The runs of the loop which makes room for the next token of `i`: other running requests are
preempted until there is room, and when none is left `i` preempts itself.
-/
inductive Evicts (cfg : Config) (now : ℚ) (i : SeqId) : Scheduler → Scheduler → Bool → Prop
  | room {s : Scheduler} (room : s.blockManager.canAppend cfg (s.seqs i) = true) :
      Evicts cfg now i s s true
  | victim {s s₁ s' : Scheduler} {v : SeqId} {scheduled : Bool}
      (lacking : s.blockManager.canAppend cfg (s.seqs i) = false)
      (selected : selectPreemptionVictim cfg s.estimator s.seqs s.stepId now s.running = some v)
      (preempts : Preempts (s.takeOut v) v s₁) (rest : Evicts cfg now i s₁ s' scheduled) :
      Evicts cfg now i s s' scheduled
  | self {s s' : Scheduler} (lacking : s.blockManager.canAppend cfg (s.seqs i) = false)
      (alone : s.running = []) (preempts : Preempts s i s') : Evicts cfg now i s s' false

/-- Making room raises nothing. -/
theorem appendCapacityLoop_spec (env : ScheduleEnv cfg) (now : ℚ) (fuel : ℕ) :
    ∀ s : Scheduler, Valid cfg ids kv Sequence.numCachedTokens (i :: sched) sched s →
      s.running.length < fuel →
      ∃ s' scheduled, appendCapacityLoop cfg env i now fuel s = .ok (s', scheduled) ∧
        Evicts cfg now i s s' scheduled ∧
        (scheduled = true → Valid cfg ids kv Sequence.numCachedTokens (i :: sched) sched s' ∧
          s'.blockManager.canAppend cfg (s'.seqs i) = true) ∧
        (scheduled = false → Valid cfg ids kv Sequence.numCachedTokens sched sched s') := by
  induction fuel with
  | zero => exact fun s _ enough => absurd enough (Nat.not_lt_zero _)
  | succ fuel ih =>
    intro s valid enough
    have distinct := valid.distinct .running
    rw [appendCapacityLoop]
    split
    · next room => exact ⟨s, true, rfl, .room room, fun _ => ⟨valid, room⟩, nofun⟩
    next lacking =>
    rw [Bool.not_eq_true] at lacking
    split
    · next v selected =>
      have mem := selectPreemptionVictim_mem selected
      have notScheduled : v ∉ sched := fun scheduled =>
        (List.nodup_append.mp distinct).2.2 v mem v (List.mem_cons_of_mem i scheduled) rfl
      obtain ⟨s₁, preempted, valid', preempts⟩ := (valid.takeOut mem).preempt env notScheduled
      have shorter : s₁.running.length < fuel := by
        rw [preempts.running]
        change (s.running.erase v).length < fuel
        rw [List.length_erase_of_mem mem]
        have := List.length_pos_of_mem mem
        omega
      obtain ⟨s', scheduled, looped, evicts, done⟩ := ih s₁ valid' shorter
      change ∃ s' scheduled, ((s.takeOut v).preempt cfg env v >>= _) = _ ∧ _
      rw [preempted, Py.ok_bind]
      exact ⟨s', scheduled, looped, .victim lacking selected preempts evicts, done⟩
    · next alone =>
      have notScheduled : i ∉ sched := (List.nodup_cons.mp (List.nodup_append.mp distinct).2.1).1
      obtain ⟨s', preempted, valid', preempts⟩ := valid.preempt env notScheduled
      rw [preempted, Py.ok_bind]
      exact ⟨s', false, rfl, .self lacking (selectPreemptionVictim_eq_none.mp alone) preempts,
        nofun, fun _ => valid'⟩

namespace Evicts

variable {scheduled : Bool}

theorem follows (evicts : Evicts cfg now i s s' scheduled) : Follows s s' := by
  induction evicts with
  | room _ => exact .refl _
  | victim _ _ preempts _ ih => exact (takeOut_follows _ _).trans (preempts.follows.trans ih)
  | self _ _ preempts => exact preempts.follows

theorem pendingRestores (evicts : Evicts cfg now i s s' scheduled) :
    s'.pendingRestores = s.pendingRestores := by
  induction evicts with
  | room _ => rfl
  | victim _ _ preempts _ ih => exact ih.trans preempts.pendingRestores
  | self _ _ preempts => exact preempts.pendingRestores

/-- Only running requests and the request itself are changed. -/
theorem others (evicts : Evicts cfg now i s s' scheduled) (differ : j ≠ i)
    (notRunning : j ∉ s.running) : s'.seqs j = s.seqs j := by
  induction evicts with
  | room _ => rfl
  | @victim s _ _ v _ _ selected preempts _ ih =>
    obtain ⟨seq, keep, seqs, -⟩ := preempts.seqs
    have differ' : j ≠ v := by
      rintro rfl
      exact notRunning (selectPreemptionVictim_mem selected)
    rw [ih (by rw [preempts.running]; exact fun mem => notRunning (List.mem_of_mem_erase mem)),
      seqs, Function.update_of_ne differ']
    rfl
  | self _ _ preempts =>
    obtain ⟨seq, keep, seqs, -⟩ := preempts.seqs
    rw [seqs, Function.update_of_ne differ]

theorem running_sublist (evicts : Evicts cfg now i s s' scheduled) :
    s'.running.Sublist s.running := by
  induction evicts with
  | room _ => exact .refl _
  | victim _ _ preempts _ ih =>
    rw [preempts.running] at ih
    exact ih.trans List.erase_sublist
  | self _ _ preempts => exact preempts.running ▸ .refl _

/-- A request preempts itself when no other request runs. -/
theorem running_of_self (evicts : Evicts cfg now i s s' false) : s'.running = [] := by
  generalize outcome : false = scheduled at evicts
  induction evicts with
  | room _ => cases outcome
  | victim _ _ _ _ ih => exact ih outcome
  | self _ alone preempts => exact preempts.running.trans alone

end Evicts

/-! ## The decode loop -/

/-- What the decode loop knows about the requests it has scheduled. -/
structure DecodeValid (cfg : Config) (ids : Finset SeqId) (kv : KvStore) (sched : List SeqId)
    (s : Scheduler) : Prop where
  scheduler : Valid cfg ids kv Sequence.numCachedTokens sched sched s
  single : ∀ i ∈ sched, (s.seqs i).numScheduledTokens = 1

/-- A scheduled request is not in the running queue. -/
theorem DecodeValid.notRunning (valid : DecodeValid cfg ids kv sched s) (mem : i ∈ sched) :
    i ∉ s.running := fun running =>
  (List.nodup_append.mp (valid.scheduler.distinct .running)).2.2 i running i mem rfl

/-- The runs of the decode loop, with the requests scheduled so far and `retry_prefill`. -/
inductive Decodes (cfg : Config) (ids : Finset SeqId) (kv : KvStore) (now : ℚ) :
    Scheduler → List SeqId → Bool → Scheduler → List SeqId → Bool → Prop
  | stop {s : Scheduler} {sched : List SeqId} {retry : Bool}
      (valid : DecodeValid cfg ids kv sched s)
      (stops : s.running = [] ∨ cfg.maxNumSeqs ≤ sched.length) :
      Decodes cfg ids kv now s sched retry s sched retry
  | scheduled {s s₁ s₂ s₃ s' : Scheduler} {sched sched' : List SeqId} {retry retry' : Bool}
      {i : SeqId} {budget : Option ℚ} (valid : DecodeValid cfg ids kv sched s)
      (continues : sched.length < cfg.maxNumSeqs)
      (selected : selectNext cfg s.estimator s.seqs s.stepId now s.running = some i)
      (touches : Touches ((s.withBudget i budget).takeOut i) i s₁)
      (evicts : Evicts cfg now i s₁ s₂ true) (schedules : SchedulesToken s₂ i s₃)
      (rest : Decodes cfg ids kv now s₃ (sched ++ [i]) retry s' sched' retry') :
      Decodes cfg ids kv now s sched retry s' sched' retry'
  | preempted {s s₁ s₂ s' : Scheduler} {sched sched' : List SeqId} {retry retry' : Bool}
      {i : SeqId} {budget : Option ℚ} (valid : DecodeValid cfg ids kv sched s)
      (continues : sched.length < cfg.maxNumSeqs)
      (selected : selectNext cfg s.estimator s.seqs s.stepId now s.running = some i)
      (touches : Touches ((s.withBudget i budget).takeOut i) i s₁)
      (evicts : Evicts cfg now i s₁ s₂ false)
      (rest : Decodes cfg ids kv now s₂ sched true s' sched' retry') :
      Decodes cfg ids kv now s sched retry s' sched' retry'

/-- The request selected for decoding, taken out of the queue and compressed. -/
theorem DecodeValid.prepare (valid : DecodeValid cfg ids kv sched s) (mem : i ∈ s.running)
    (budget : Option ℚ) :
    ∃ s₁, ((s.withBudget i budget).takeOut i).maybeCompress cfg i = .ok s₁ ∧
      Valid cfg ids kv Sequence.numCachedTokens (i :: sched) sched s₁ ∧
      Touches ((s.withBudget i budget).takeOut i) i s₁ := by
  obtain ⟨known, status, -⟩ := valid.scheduler.running (List.mem_append_left _ mem)
  have marked := valid.scheduler.withBudget known (by rw [status]; nofun) budget
  exact (marked.takeOut mem).maybeCompress fun scheduled => valid.notRunning scheduled mem

theorem DecodeValid.follows (valid : DecodeValid cfg ids kv sched s) (mem : i ∈ s.running)
    {budget : Option ℚ} {s₁ : Scheduler}
    (touches : Touches ((s.withBudget i budget).takeOut i) i s₁) : Follows s s₁ := by
  rcases valid.scheduler.running (List.mem_append_left _ mem) with ⟨-, status, -⟩
  have marked : Follows s (s.withBudget i budget) := withBudget_follows _ (by rw [status]; trivial)
  exact marked.trans ((takeOut_follows _ _).trans touches.follows)

/-- The decode loop leaves the requests it has scheduled alone. -/
theorem Touches.scheduled_kept {budget : Option ℚ} {scheduled : Bool} {s₁ s₂ : Scheduler}
    (touches : Touches ((s.withBudget i budget).takeOut i) i s₁)
    (evicts : Evicts cfg now i s₁ s₂ scheduled) (notRunning : j ∉ s.running) (differ : j ≠ i) :
    s₂.seqs j = s.seqs j := by
  obtain ⟨seq, seqs, -⟩ := touches.seqs
  have notRunning₁ : j ∉ s₁.running := by
    rw [touches.running]
    exact fun mem => notRunning (List.mem_of_mem_erase mem)
  rw [evicts.others differ notRunning₁, seqs, Function.update_of_ne differ]
  exact Function.update_of_ne differ _ _

/-- Making room for the selected request makes the running queue shorter. -/
theorem Touches.running_lt {budget : Option ℚ} {scheduled : Bool} {s₁ s₂ : Scheduler}
    (touches : Touches ((s.withBudget i budget).takeOut i) i s₁)
    (evicts : Evicts cfg now i s₁ s₂ scheduled) (mem : i ∈ s.running) :
    s₂.running.length < s.running.length := by
  have le := evicts.running_sublist.length_le
  rw [touches.running] at le
  change s₂.running.length ≤ (s.running.erase i).length at le
  rw [List.length_erase_of_mem mem] at le
  have := List.length_pos_of_mem mem
  omega

/-- Making room for the selected request leaves the requests scheduled before it alone. -/
theorem DecodeValid.makeRoom (valid : DecodeValid cfg ids kv sched s) (mem : i ∈ s.running)
    {budget : Option ℚ} {s₁ : Scheduler}
    (valid₁ : Valid cfg ids kv Sequence.numCachedTokens (i :: sched) sched s₁)
    (touches : Touches ((s.withBudget i budget).takeOut i) i s₁) (env : ScheduleEnv cfg)
    (now : ℚ) :
    ∃ s₂ scheduled,
      appendCapacityLoop cfg env i now (s₁.running.length + 1) s₁ = .ok (s₂, scheduled) ∧
        Evicts cfg now i s₁ s₂ scheduled ∧ (∀ j ∈ sched, s₂.seqs j = s.seqs j) ∧
        (scheduled = true → Valid cfg ids kv Sequence.numCachedTokens (i :: sched) sched s₂ ∧
          s₂.blockManager.canAppend cfg (s₂.seqs i) = true) ∧
        (scheduled = false → DecodeValid cfg ids kv sched s₂) := by
  rcases appendCapacityLoop_spec env now (s₁.running.length + 1) s₁ valid₁ (Nat.lt_succ_self _)
    with ⟨s₂, scheduled, looped, evicts, onScheduled, onPreempted⟩
  have kept : ∀ j ∈ sched, s₂.seqs j = s.seqs j := by
    intro j scheduled'
    apply touches.scheduled_kept evicts (valid.notRunning scheduled')
    rintro rfl
    exact valid.notRunning scheduled' mem
  refine ⟨s₂, scheduled, looped, evicts, kept, onScheduled, ?_⟩
  intro preempted
  refine ⟨onPreempted preempted, ?_⟩
  intro j mem'
  simpa only [kept j mem'] using valid.single j mem'

/-- The selected request joins the requests scheduled before it. -/
theorem DecodeValid.join (valid : DecodeValid cfg ids kv sched s) (mem : i ∈ s.running)
    {s₂ : Scheduler} (kept : ∀ j ∈ sched, s₂.seqs j = s.seqs j)
    (valid₂ : Valid cfg ids kv Sequence.numCachedTokens (i :: sched) sched s₂)
    (room : s₂.blockManager.canAppend cfg (s₂.seqs i) = true) :
    ∃ s₃, s₂.scheduleDecode cfg i = .ok s₃ ∧ SchedulesToken s₂ i s₃ ∧
      DecodeValid cfg ids kv (sched ++ [i]) s₃ := by
  have notScheduled : i ∉ sched := fun scheduled => valid.notRunning scheduled mem
  rcases valid₂.scheduleDecode notScheduled room with ⟨s₃, decoded, valid₃, schedules, single⟩
  refine ⟨s₃, decoded, schedules, valid₃.reorder ?_ rfl rfl rfl rfl, ?_⟩
  · exact (List.perm_append_singleton i sched).append_left _
  · intro j mem'
    rcases List.mem_append.mp mem' with old | new
    · rcases schedules.seqs with ⟨seq, seqs⟩
      have differ : j ≠ i := by
        rintro rfl
        exact notScheduled old
      rw [seqs, Function.update_of_ne differ, kept j old]
      exact valid.single j old
    · rw [List.mem_singleton.mp new]
      exact single

/-- The decode loop ends within its bound and raises nothing. -/
theorem decodeLoop_spec (env : ScheduleEnv cfg) (now : ℚ) (fuel : ℕ) :
    ∀ (s : Scheduler) (sched : List SeqId) (retry : Bool), DecodeValid cfg ids kv sched s →
      s.running.length < fuel →
      ∃ s' sched' retry', decodeLoop cfg env now fuel s sched retry = .ok (s', sched', retry') ∧
        Decodes cfg ids kv now s sched retry s' sched' retry' := by
  induction fuel with
  | zero => exact fun s _ _ _ enough => absurd enough (Nat.not_lt_zero _)
  | succ fuel ih =>
    intro s sched retry valid enough
    rw [decodeLoop]
    split
    · next stops => exact ⟨s, sched, retry, rfl, .stop valid stops⟩
    next continues =>
    rw [not_or] at continues
    have short := Nat.lt_of_not_le continues.2
    obtain ⟨i, selected⟩ := selectNext_isSome cfg s.estimator s.seqs s.stepId now continues.1
    rw [selected]
    have mem := selectNext_mem selected
    set budget := budgetMs cfg s.estimator (s.seqs i) s.stepId now
    obtain ⟨s₁, compressed, valid₁, touches⟩ := valid.prepare mem budget
    obtain ⟨s₂, scheduled, looped, evicts, kept, onScheduled, onPreempted⟩ :=
      valid.makeRoom mem valid₁ touches env now
    have shorter : s₂.running.length < fuel :=
      (touches.running_lt evicts mem).trans_le (Nat.le_of_lt_succ enough)
    change ∃ s' sched' retry',
      (((s.withBudget i budget).takeOut i).maybeCompress cfg i >>= _) = _ ∧ _
    rw [compressed, Py.ok_bind, looped, Py.ok_bind]
    cases scheduled with
    | true =>
      obtain ⟨valid₂, room⟩ := onScheduled rfl
      obtain ⟨s₃, decoded, schedules, valid'⟩ := valid.join mem kept valid₂ room
      obtain ⟨s', sched', retry', decodes, rest⟩ :=
        ih s₃ (sched ++ [i]) retry valid' (schedules.running ▸ shorter)
      simp only [if_true]
      rw [decoded, Py.ok_bind]
      exact ⟨s', sched', retry', decodes,
        .scheduled valid short selected touches evicts schedules rest⟩
    | false =>
      obtain ⟨s', sched', retry', decodes, rest⟩ := ih s₂ sched true (onPreempted rfl) shorter
      simp only [Bool.false_eq_true, if_false]
      exact ⟨s', sched', retry', decodes, .preempted valid short selected touches evicts rest⟩

namespace Decodes

variable {sched' : List SeqId} {retry retry' : Bool}

theorem valid (decodes : Decodes cfg ids kv now s sched retry s' sched' retry') :
    DecodeValid cfg ids kv sched' s' := by
  induction decodes with
  | stop valid _ => exact valid
  | scheduled _ _ _ _ _ _ _ ih => exact ih
  | preempted _ _ _ _ _ _ ih => exact ih

theorem follows (decodes : Decodes cfg ids kv now s sched retry s' sched' retry') :
    Follows s s' := by
  induction decodes with
  | stop _ _ => exact .refl _
  | scheduled valid _ selected touches evicts schedules _ ih =>
    have prepared := valid.follows (selectNext_mem selected) touches
    exact prepared.trans (evicts.follows.trans (schedules.follows.trans ih))
  | preempted valid _ selected touches evicts _ ih =>
    exact (valid.follows (selectNext_mem selected) touches).trans (evicts.follows.trans ih)

/-- The decode loop changes running requests only. -/
theorem others (decodes : Decodes cfg ids kv now s sched retry s' sched' retry')
    (absent : j ∉ s.running) : s'.seqs j = s.seqs j := by
  have fewer : ∀ {s s₁ s₂ : Scheduler} {i : SeqId} {budget : Option ℚ} {scheduled : Bool},
      Touches ((s.withBudget i budget).takeOut i) i s₁ → Evicts cfg now i s₁ s₂ scheduled →
        j ∉ s.running → j ∉ s₂.running := by
    intro s s₁ s₂ i budget scheduled touches evicts absent mem
    have mem' := evicts.running_sublist.subset mem
    rw [touches.running] at mem'
    exact absent (List.mem_of_mem_erase mem')
  induction decodes with
  | stop _ _ => rfl
  | @scheduled s s₁ s₂ s₃ _ _ _ _ _ i _ _ _ selected touches evicts schedules _ ih =>
    have differ : j ≠ i := by
      rintro rfl
      exact absent (selectNext_mem selected)
    rcases schedules.seqs with ⟨seq, seqs⟩
    rw [ih, seqs, Function.update_of_ne differ]
    · exact touches.scheduled_kept evicts absent differ
    · rw [schedules.running]
      exact fewer touches evicts absent
  | @preempted s s₁ s₂ _ _ _ _ _ i _ _ _ selected touches evicts _ ih =>
    have differ : j ≠ i := by
      rintro rfl
      exact absent (selectNext_mem selected)
    rw [ih (fewer touches evicts absent)]
    exact touches.scheduled_kept evicts absent differ

theorem pendingRestores (decodes : Decodes cfg ids kv now s sched retry s' sched' retry') :
    s'.pendingRestores = s.pendingRestores := by
  induction decodes with
  | stop _ _ => rfl
  | scheduled _ _ _ touches evicts schedules _ ih =>
    rw [ih, schedules.pendingRestores, evicts.pendingRestores, touches.pendingRestores]
    rfl
  | preempted _ _ _ touches evicts _ ih =>
    rw [ih, evicts.pendingRestores, touches.pendingRestores]
    rfl

theorem sched_le (decodes : Decodes cfg ids kv now s sched retry s' sched' retry') :
    sched <+: sched' := by
  induction decodes with
  | stop _ _ => exact List.prefix_refl _
  | scheduled _ _ _ _ _ _ _ ih => exact (List.prefix_append _ _).trans ih
  | preempted _ _ _ _ _ _ ih => exact ih

theorem length_le (decodes : Decodes cfg ids kv now s sched retry s' sched' retry')
    (short : sched.length ≤ cfg.maxNumSeqs) : sched'.length ≤ cfg.maxNumSeqs := by
  induction decodes with
  | stop _ _ => exact short
  | scheduled _ continues _ _ _ _ _ ih =>
    apply ih
    rw [List.length_append, List.length_singleton]
    exact continues
  | preempted _ _ _ _ _ _ ih => exact ih short

/-- A decode loop which sets `retry_prefill` may schedule at least one request. -/
theorem positive (decodes : Decodes cfg ids kv now s sched false s' sched' true) :
    0 < cfg.maxNumSeqs := by
  generalize before : false = retry at decodes
  generalize after : true = retry' at decodes
  induction decodes with
  | stop _ _ => exact absurd (before.trans after.symm) (by decide)
  | scheduled _ continues _ _ _ _ _ _ => omega
  | preempted _ continues _ _ _ _ _ => omega

/-- The decode loop schedules a request, or it has preempted every running request. -/
theorem progress (decodes : Decodes cfg ids kv now s sched retry s' sched' retry')
    (positive : 0 < cfg.maxNumSeqs) (none : sched' = []) :
    s'.running = [] ∧ (s.running ≠ [] ∨ retry = true → retry' = true) := by
  induction decodes with
  | stop _ stops =>
    subst none
    have alone := stops.resolve_right (by simp; omega)
    exact ⟨alone, fun either => either.resolve_left fun busy => busy alone⟩
  | @scheduled _ _ _ _ _ _ _ _ _ _ _ _ _ _ _ _ _ rest ih =>
    have extended := rest.sched_le
    rw [none, List.prefix_nil] at extended
    simp at extended
  | preempted _ _ _ _ _ _ ih =>
    obtain ⟨alone, retries⟩ := ih none
    exact ⟨alone, fun _ => retries (.inr rfl)⟩

end Decodes

end Scheduler

end NanoVllm
