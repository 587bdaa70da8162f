import NanoVllm.Scheduler.Schedule

/-!
# Postprocessing a batch

`postprocess` treats one request of the batch after the other: it publishes the pages the run has
completed, counts the scheduled tokens as cached and, unless the prompt is not complete yet,
appends the sampled token and finishes the request or not. In between the model run and the end
of `postprocess` the memory holds the computed tokens of every request, cached or scheduled.
-/

namespace NanoVllm

open BlockManager

namespace Sequence

variable {cfg : Config} {seq : Sequence}

/-- A request whose scheduled tokens count as cached. -/
def advanced (seq : Sequence) (isPrefill : Bool) : Sequence :=
  let seq := if isPrefill then seq.recordRecomputedTokens seq.numScheduledTokens else seq
  { seq with
    numCachedTokens := seq.numCachedTokens + seq.numScheduledTokens
    numPhysicalCachedTokens := seq.numPhysicalCachedTokens + seq.numScheduledTokens
    numScheduledTokens := 0 }

/-- Whether the request ends with its last token. -/
def stops (cfg : Config) (seq : Sequence) (tokenId : Token) : Bool :=
  (!seq.ignoreEos ∧ tokenId = cfg.eos) ∨ seq.numCompletionTokens = seq.maxTokens

/-- A request which ends now. -/
def ended (seq : Sequence) (now : ℚ) : Sequence := { seq with status := .finished }.markFinished now

/-- The fields of a request which advancing changes. -/
theorem advanced_eq (seq : Sequence) (isPrefill : Bool) :
    (seq.advanced isPrefill).status = seq.status ∧
      (seq.advanced isPrefill).tokenIds = seq.tokenIds ∧
      (seq.advanced isPrefill).numCachedTokens = seq.computedTokens ∧
      (seq.advanced isPrefill).numPhysicalCachedTokens =
        seq.numPhysicalCachedTokens + seq.numScheduledTokens ∧
      (seq.advanced isPrefill).numScheduledTokens = 0 ∧
      (seq.advanced isPrefill).blockTable = seq.blockTable ∧
      (seq.advanced isPrefill).kvBlockLogicalIndices = seq.kvBlockLogicalIndices ∧
      (seq.advanced isPrefill).kvCompressed = seq.kvCompressed := by
  cases isPrefill <;> exact ⟨rfl, rfl, rfl, rfl, rfl, rfl, rfl, rfl⟩

theorem advanced_sameRequest (seq : Sequence) (isPrefill : Bool) :
    Scheduler.SameRequest seq (seq.advanced isPrefill) := by
  cases isPrefill <;> exact ⟨rfl, rfl, rfl, rfl, rfl, rfl, rfl, rfl, rfl, Iff.rfl, id⟩

theorem advanced_sameKv (seq : Sequence) (isPrefill : Bool) :
    ({ seq with numCachedTokens := (seq.advanced isPrefill).numCachedTokens } : Sequence).SameKv
      (seq.advanced isPrefill) := by
  cases isPrefill <;> exact ⟨rfl, rfl, rfl, rfl, rfl, rfl⟩

theorem advanced_computedTokens (seq : Sequence) (isPrefill : Bool) :
    (seq.advanced isPrefill).computedTokens = seq.computedTokens := by
  cases isPrefill <;> rfl

theorem Waiting.advanced (waiting : seq.Waiting cfg) (scheduled : 0 < seq.numScheduledTokens)
    (isPrefill : Bool) : (seq.advanced isPrefill).Waiting cfg := by
  have full := waiting.full scheduled
  have short := waiting.short
  have physical := waiting.physical
  have same := advanced_sameRequest seq isPrefill
  rcases advanced_eq seq isPrefill with
    ⟨-, tokenIds, cached, physicalCached, idle, table, -, compressed⟩
  have pages : (seq.advanced isPrefill).numBlocks cfg = seq.numBlocks cfg := by
    rw [numBlocks, numTokens, tokenIds]
    rfl
  refine ⟨compressed ▸ waiting.uncompressed, by rw [table, pages, full], ?_, ?_, ?_⟩
  · rw [table, pages, full]
    exact fun less => absurd less (lt_irrefl _)
  · rw [advanced_computedTokens, numTokens, tokenIds]
    exact short
  · rw [physicalCached, cached, physical]
    rfl

/-- A running request whose last token has been computed gets a new one. -/
theorem Running.appended (running : seq.Running cfg) (scheduled : 0 < seq.numScheduledTokens)
    (isPrefill : Bool) (tokenId : Token) (now : ℚ) :
    ((seq.advanced isPrefill).appendToken tokenId now).Running cfg := by
  have complete := running.complete scheduled
  have physical := running.physical
  have nonempty := running.nonempty
  rcases advanced_eq seq isPrefill with
    ⟨-, tokenIds, cached, physicalCached, idle, table, logical, -⟩
  have computed : ((seq.advanced isPrefill).appendToken tokenId now).computedTokens =
      seq.computedTokens := advanced_computedTokens seq isPrefill
  refine ⟨computed ▸ nonempty, ?_, ?_, ?_, ?_⟩
  · rw [computed]
    exact logical ▸ running.last
  · intro positive
    exact absurd idle positive.ne'
  · intro _
    change (seq.advanced isPrefill).numCachedTokens + 1 =
      ((seq.advanced isPrefill).tokenIds ++ [tokenId]).length
    rw [cached, tokenIds, List.length_append, complete]
    rfl
  · rw [computed]
    change (seq.advanced isPrefill).numCachedTokens +
      (seq.advanced isPrefill).blockTable.length * cfg.blockSize =
        (seq.advanced isPrefill).numPhysicalCachedTokens + _
    rw [cached, table, physicalCached]
    unfold computedTokens at *
    omega

end Sequence

namespace Scheduler

variable {cfg : Config} {ids : Finset SeqId} {kv : KvStore} {s s' : Scheduler} {i j : SeqId}
  {batch rest held : List SeqId} {isPrefill : Bool} {tokenId : Token} {now : ℚ}

/-- The tokens computed for a request with scheduled tokens are tokens of the request. -/
theorem Valid.computed_le {computed : Sequence → ℕ}
    (valid : Valid cfg ids kv computed held batch s) (mem : i ∈ batch) :
    (s.seqs i).computedTokens ≤ (s.seqs i).numTokens ∧
      ((s.seqs i).status = .waiting ↔ (s.seqs i).computedTokens < (s.seqs i).numTokens) ∧
      ((s.seqs i).kvCompressed = false →
        (s.seqs i).computedTokens ≤ (s.seqs i).blockTable.length * cfg.blockSize) := by
  obtain ⟨known, scheduled, phase⟩ := valid.scheduled_phase mem
  rcases phase with ⟨status, waiting⟩ | ⟨status, running⟩
  · refine ⟨waiting.short.le, iff_of_true status waiting.short, ?_⟩
    intro _
    rw [waiting.full scheduled]
    exact waiting.short.le.trans (Sequence.numTokens_le cfg _)
  · have complete := running.complete scheduled
    refine ⟨complete.le, ?_, ?_⟩
    · rw [status, complete]
      simp
    · intro uncompressed
      exact running.owned (valid.memory.request i known) uncompressed

/-- Publishing the completed pages and counting the scheduled tokens as cached. -/
theorem Valid.advance
    (valid : Valid cfg ids kv Sequence.computedTokens held batch s) (mem : i ∈ batch)
    (isPrefill : Bool) :
    ∃ bm', s.blockManager.hashBlocks cfg (s.seqs i) = .ok bm' ∧
      MemoryValid cfg ids (Function.update s.seqs i ((s.seqs i).advanced isPrefill)) bm' kv
        Sequence.computedTokens ∧
      SamePool s.blockManager bm' := by
  obtain ⟨known, scheduled, -⟩ := valid.scheduled_phase mem
  obtain ⟨inRange, -, owned⟩ := valid.computed_le mem
  have same := (s.seqs i).advanced_sameKv isPrefill
  have cached := ((s.seqs i).advanced_eq isPrefill).2.2.1
  have computed := (s.seqs i).advanced_computedTokens isPrefill
  have cached_le : (s.seqs i).numCachedTokens ≤ ((s.seqs i).advanced isPrefill).numCachedTokens := by
    rw [cached]
    exact Nat.le_add_right _ _
  cases compressed : (s.seqs i).kvCompressed with
  | true =>
    refine ⟨s.blockManager, ?_, ?_, .refl _⟩
    · simp [hashBlocks, compressed]
    · exact valid.memory.advanceCompressed compressed cached_le same computed.le
  | false =>
    obtain ⟨bm', hashed, publishes⟩ := valid.memory.hashBlocks known compressed rfl
      (owned compressed) inRange
    refine ⟨bm', hashed, ?_, publishes.pool⟩
    refine valid.memory.publish known compressed publishes ?_ ?_ cached_le cached.le inRange same
      computed.le
    · rw [cached]
      rfl
    · exact Nat.div_mul_le_self _ _

/-- What `postprocess` does to one request. -/
inductive Processed (cfg : Config) (seq : Sequence) (tokenId : Token) : Sequence → Prop
  | incomplete {seq' : Sequence} (short : seq.computedTokens < seq.numTokens)
      (same : SameRequest seq seq') (status : seq'.status = .waiting)
      (computed : seq'.computedTokens = seq.computedTokens)
      (table : seq'.blockTable = seq.blockTable) : Processed cfg seq tokenId seq'
  | appended {seq' : Sequence} (complete : seq.computedTokens = seq.numTokens)
      (tokenIds : seq'.tokenIds = seq.tokenIds ++ [tokenId])
      (numPromptTokens : seq'.numPromptTokens = seq.numPromptTokens)
      (maxTokens : seq'.maxTokens = seq.maxTokens) (ignoreEos : seq'.ignoreEos = seq.ignoreEos)
      (qos : seq'.qos = seq.qos) (arrivalStep : seq'.arrivalStep = seq.arrivalStep)
      (attempted : seq'.remoteRestoreAttempted = seq.remoteRestoreAttempted)
      (status : seq'.status = if seq'.stops cfg tokenId then .finished else .running) :
      Processed cfg seq tokenId seq'

/-- The effect of `postprocess` for one request on the scheduler. -/
structure Processes (cfg : Config) (s : Scheduler) (i : SeqId) (tokenId : Token)
    (s' : Scheduler) : Prop where
  seqs : ∃ seq, s'.seqs = Function.update s.seqs i seq ∧ Processed cfg (s.seqs i) tokenId seq
  waiting : s'.waiting = s.waiting
  running : s'.running = if (s'.seqs i).status = .finished then s.running.erase i else s.running
  pendingRestores : s'.pendingRestores = s.pendingRestores
  stepId : s'.stepId = s.stepId
  estimator : s'.estimator = s.estimator

/-- The record of one request after `postprocess`, before it is released when it stops. -/
theorem postprocessSeq_eq (s : Scheduler) (bm' : BlockManager)
    (hashed : s.blockManager.hashBlocks cfg (s.seqs i) = .ok bm') :
    s.postprocessSeq cfg now isPrefill i tokenId =
      let seq := (s.seqs i).advanced isPrefill
      if isPrefill ∧ seq.numCachedTokens < seq.numTokens then .ok (s.put i bm' seq)
      else
        let seq := seq.appendToken tokenId now
        if seq.stops cfg tokenId then do
          let (bm, seq) ← bm'.deallocate (seq.ended now)
          if i ∉ s.running then .error (.valueError "running")
          else do
            seq.checkMetrics
            .ok { s.put i bm seq with running := s.running.erase i }
        else .ok (s.put i bm' seq) := by
  unfold Scheduler.postprocessSeq
  dsimp only
  rw [hashed, Py.ok_bind]
  unfold Sequence.stops Sequence.ended
  simp only [decide_eq_true_eq]
  rfl

/-- The rest of the batch after its first request has been treated. -/
theorem Valid.batch_rest {computed : Sequence → ℕ}
    (valid : Valid cfg ids kv computed held (i :: rest) s) :
    rest.Nodup ∧ (∀ j, j ≠ i → (j ∈ rest ↔ j ∈ i :: rest)) ∧ i ∉ rest := by
  rcases List.nodup_cons.mp valid.batch_distinct with ⟨notLater, distinct⟩
  refine ⟨distinct, ?_, notLater⟩
  intro j differ
  simp [differ]

/-- A chunk of a prompt which is not complete yet. -/
theorem Valid.postprocessIncomplete {bm' : BlockManager}
    (valid : Valid cfg ids kv Sequence.computedTokens [] (i :: rest) s)
    (short : (s.seqs i).computedTokens < (s.seqs i).numTokens)
    (memory : MemoryValid cfg ids (Function.update s.seqs i ((s.seqs i).advanced isPrefill)) bm' kv
      Sequence.computedTokens) (pool : SamePool s.blockManager bm') :
    Valid cfg ids kv Sequence.computedTokens [] rest
        (s.put i bm' ((s.seqs i).advanced isPrefill)) ∧
      Processes cfg s i tokenId (s.put i bm' ((s.seqs i).advanced isPrefill)) := by
  have mem : i ∈ i :: rest := List.mem_cons_self
  obtain ⟨known, scheduled, phase⟩ := valid.scheduled_phase mem
  have status := (valid.computed_le mem).2.1.mpr short
  have waiting := (valid.waiting (valid.mem_waiting.mpr ⟨known, status⟩)).2.2
  obtain ⟨distinct, others, notLater⟩ := valid.batch_rest
  obtain ⟨sameStatus, -, -, -, idle, table, -, -⟩ := (s.seqs i).advanced_eq isPrefill
  have self : (s.put i bm' ((s.seqs i).advanced isPrefill)).seqs i =
      (s.seqs i).advanced isPrefill := Function.update_self _ _ _
  have noPlan : bm'.pendingMatches i = none := by
    rw [pool.pendingMatches]
    by_contra planned
    have empty := (valid.plans i planned).2.2
    have full := waiting.full scheduled
    rw [empty, List.length_nil] at full
    exact (Sequence.numBlocks_pos ((Nat.zero_le _).trans_lt short)).ne full
  refine ⟨valid.move known rfl memory ?_ (fun _ _ _ => Iff.rfl) ?_ valid.distinct ?_ ?_ distinct
    others ?_, ⟨⟨_, rfl, ?_⟩, rfl, ?_, rfl, rfl, rfl⟩⟩
  · exact ((s.seqs i).advanced_sameRequest isPrefill).wellFormed (valid.request i known)
      (.of_waiting (sameStatus.trans status) (waiting.advanced scheduled isPrefill))
  · intro status' live
    rw [sameStatus]
    exact (valid.queued status' live i).trans (and_iff_right known)
  · intro state pending
    refine .inl ⟨pending, ?_⟩
    rintro rfl
    simp [(valid.restoring pending).2.1] at status
  · refine ⟨fun j _ planned => ?_, fun j _ planned => ?_, fun planned => absurd noPlan planned,
      fun _ => ?_⟩
    · exact pool.pendingMatches ▸ planned
    · exact pool.pendingResumeMatches ▸ planned
    · rw [sameStatus, status]
      trivial
  · rw [idle]
    exact iff_of_false notLater (lt_irrefl _)
  · exact .incomplete short ((s.seqs i).advanced_sameRequest isPrefill) (sameStatus.trans status)
      ((s.seqs i).advanced_computedTokens isPrefill) table
  · rw [self, sameStatus, status]
    rfl

/-- A request gets its next token and goes on. -/
theorem Valid.postprocessContinues {bm' : BlockManager}
    (valid : Valid cfg ids kv Sequence.computedTokens [] (i :: rest) s)
    (complete : (s.seqs i).computedTokens = (s.seqs i).numTokens)
    (memory : MemoryValid cfg ids (Function.update s.seqs i
      (((s.seqs i).advanced isPrefill).appendToken tokenId now)) bm' kv Sequence.computedTokens)
    (pool : SamePool s.blockManager bm')
    (continues : (((s.seqs i).advanced isPrefill).appendToken tokenId now).stops cfg tokenId =
      false) :
    Valid cfg ids kv Sequence.computedTokens [] rest
        (s.put i bm' (((s.seqs i).advanced isPrefill).appendToken tokenId now)) ∧
      Processes cfg s i tokenId
        (s.put i bm' (((s.seqs i).advanced isPrefill).appendToken tokenId now)) := by
  have mem : i ∈ i :: rest := List.mem_cons_self
  obtain ⟨known, scheduled, phase⟩ := valid.scheduled_phase mem
  have notWaiting : (s.seqs i).status ≠ .waiting := by
    intro status
    have short := (valid.computed_le mem).2.1.mp status
    omega
  obtain ⟨status, running⟩ := phase.resolve_left fun waits => notWaiting waits.1
  have wellFormed := valid.request i known
  obtain ⟨distinct, others, notLater⟩ := valid.batch_rest
  obtain ⟨sameStatus, tokenIds, -, -, idle, -, -, -⟩ := (s.seqs i).advanced_eq isPrefill
  have same := (s.seqs i).advanced_sameRequest isPrefill
  have self : (s.put i bm' (((s.seqs i).advanced isPrefill).appendToken tokenId now)).seqs i =
      ((s.seqs i).advanced isPrefill).appendToken tokenId now := Function.update_self _ _ _
  have appended : (((s.seqs i).advanced isPrefill).appendToken tokenId now).numTokens =
      (s.seqs i).numTokens + 1 := by
    change (((s.seqs i).advanced isPrefill).tokenIds ++ [tokenId]).length = _
    rw [tokenIds, List.length_append]
    rfl
  refine ⟨valid.move known rfl memory ?_ (fun _ _ _ => Iff.rfl) ?_ valid.distinct ?_
    (valid.plansKept status pool.pendingMatches pool.pendingResumeMatches
      (sameStatus.trans status)) distinct others ?_, ⟨⟨_, rfl, ?_⟩, rfl, ?_, rfl, rfl, rfl⟩⟩
  · refine ⟨same.seqId.trans wellFormed.named, ?_, ?_, ?_, ?_, .of_running
      (sameStatus.trans status) (running.appended scheduled isPrefill tokenId now)⟩
    · exact same.numPromptTokens.symm ▸ wellFormed.prompt
    · rw [appended]
      exact (same.numPromptTokens.trans_le wellFormed.prompt_le).trans (Nat.le_succ _)
    · exact same.arrivalTime.symm ▸ wellFormed.arrived
    · intro positive live
      have budget := wellFormed.budget (same.maxTokens ▸ positive)
        (Sequence.isTerminal_eq_false.mpr (by rw [status]; trivial))
      have notLast : (((s.seqs i).advanced isPrefill).appendToken tokenId now).numCompletionTokens ≠
          (((s.seqs i).advanced isPrefill).appendToken tokenId now).maxTokens := by
        intro last
        simp [Sequence.stops, last] at continues
      have prompt := wellFormed.prompt_le
      rw [Sequence.numCompletionTokens] at budget notLast ⊢
      rw [appended] at notLast ⊢
      change (s.seqs i).numTokens + 1 - ((s.seqs i).advanced isPrefill).numPromptTokens ≠
        ((s.seqs i).advanced isPrefill).maxTokens at notLast
      change (s.seqs i).numTokens + 1 - ((s.seqs i).advanced isPrefill).numPromptTokens <
        ((s.seqs i).advanced isPrefill).maxTokens
      rw [same.numPromptTokens, same.maxTokens] at notLast ⊢
      omega
  · intro status' live
    change i ∈ s.queue [] status' ↔ ((s.seqs i).advanced isPrefill).status = status'
    rw [sameStatus]
    exact (valid.queued status' live i).trans (and_iff_right known)
  · intro state pending
    refine .inl ⟨pending, ?_⟩
    rintro rfl
    simp [(valid.restoring pending).2.1] at status
  · change i ∈ rest ↔ 0 < ((s.seqs i).advanced isPrefill).numScheduledTokens
    rw [idle]
    exact iff_of_false notLater (lt_irrefl _)
  · refine .appended complete ?_ same.numPromptTokens same.maxTokens same.ignoreEos same.qos
      same.arrivalStep ?_ ?_
    · change ((s.seqs i).advanced isPrefill).tokenIds ++ [tokenId] = _
      rw [tokenIds]
    · cases isPrefill <;> rfl
    · rw [continues]
      exact sameStatus.trans status
  · rw [self]
    change s.running = if ((s.seqs i).advanced isPrefill).status = .finished then _ else s.running
    rw [sameStatus, status]
    rfl

/-- A request which ends has all its metrics. -/
theorem checkMetrics_ended {seq : Sequence} (arrived : seq.arrivalTime ≠ none) :
    ((seq.appendToken tokenId now).ended now).withoutPages.checkMetrics = .ok () := by
  unfold Sequence.checkMetrics
  rw [if_neg]
  rintro (notArrived | noToken | notFinished)
  · exact arrived notArrived
  · change (seq.firstTokenTime <|> some now) = none at noToken
    cases first : seq.firstTokenTime <;> simp [first] at noToken
  · cases notFinished

/-- A request gets its last token and gives up all its pages. -/
theorem Valid.postprocessStops {bm' : BlockManager}
    (valid : Valid cfg ids kv Sequence.computedTokens [] (i :: rest) s)
    (complete : (s.seqs i).computedTokens = (s.seqs i).numTokens)
    (memory : MemoryValid cfg ids (Function.update s.seqs i
      (((s.seqs i).advanced isPrefill).appendToken tokenId now)) bm' kv Sequence.computedTokens)
    (pool : SamePool s.blockManager bm')
    (ends : (((s.seqs i).advanced isPrefill).appendToken tokenId now).stops cfg tokenId = true) :
    ∃ s', (do
      let (bm, seq) ← bm'.deallocate
        ((((s.seqs i).advanced isPrefill).appendToken tokenId now).ended now)
      if i ∉ s.running then (.error (.valueError "running") : Py Scheduler)
      else do
        seq.checkMetrics
        .ok { s.put i bm seq with running := s.running.erase i }) = .ok s' ∧
      Valid cfg ids kv Sequence.computedTokens [] rest s' ∧ Processes cfg s i tokenId s' := by
  have mem : i ∈ i :: rest := List.mem_cons_self
  obtain ⟨known, scheduled, phase⟩ := valid.scheduled_phase mem
  have notWaiting : (s.seqs i).status ≠ .waiting := by
    intro status
    have short := (valid.computed_le mem).2.1.mp status
    omega
  obtain ⟨status, -⟩ := phase.resolve_left fun waits => notWaiting waits.1
  have wellFormed := valid.request i known
  obtain ⟨distinct, others, notLater⟩ := valid.batch_rest
  obtain ⟨-, tokenIds, -, -, idle, -, -, -⟩ := (s.seqs i).advanced_eq isPrefill
  have same := (s.seqs i).advanced_sameRequest isPrefill
  set last := ((s.seqs i).advanced isPrefill).appendToken tokenId now with last_def
  obtain ⟨bm'', deallocated, memory', released⟩ :=
    @MemoryValid.deallocate _ _ _ _ _ _ i (last.ended now) memory known
      (by rw [Function.update_self]; rfl)
  rw [Function.update_idem] at memory'
  have runs : i ∈ s.running := by
    have mem' := valid.mem_running.mpr ⟨known, status⟩
    rwa [List.append_nil] at mem'
  have named : (last.ended now).seqId = i := same.seqId.trans wellFormed.named
  have metrics : (last.ended now).withoutPages.checkMetrics = .ok () :=
    checkMetrics_ended (same.arrivalTime ▸ wellFormed.arrived)
  refine ⟨{ s.put i bm'' (last.ended now).withoutPages with running := s.running.erase i }, ?_,
    @Valid.move _ _ _ _ _ _ _ _ _ _ i (last.ended now).withoutPages valid known rfl memory' ?_ ?_
      ?_ ?_ ?_ ?_ distinct others ?_, ⟨⟨_, rfl, ?_⟩, rfl, ?_, rfl, rfl, rfl⟩⟩
  · rw [deallocated, Py.ok_bind]
    dsimp only
    rw [if_neg (not_not.mpr runs), metrics]
    rfl
  · refine ⟨named, same.numPromptTokens.symm ▸ wellFormed.prompt, ?_,
      same.arrivalTime.symm ▸ wellFormed.arrived, nofun, .of_released id
        ⟨rfl, rfl, rfl, rfl, idle⟩⟩
    change ((s.seqs i).advanced isPrefill).numPromptTokens ≤
      (((s.seqs i).advanced isPrefill).tokenIds ++ [tokenId]).length
    rw [tokenIds, List.length_append, same.numPromptTokens]
    exact wellFormed.prompt_le.trans (Nat.le_succ _)
  · intro status' j differ
    cases status' with
    | running =>
      change j ∈ s.running.erase i ++ [] ↔ j ∈ s.running ++ []
      rw [List.append_nil, List.append_nil, List.mem_erase_of_ne differ]
    | waiting => rfl
    | waitingForKv => rfl
    | finished => rfl
    | cancelled => rfl
  · intro status' live
    change i ∈ _ ↔ SequenceStatus.finished = status'
    have before := valid.queued status' live i
    cases status' with
    | running =>
      have nodup := valid.distinct .running
      change (s.running ++ []).Nodup at nodup
      rw [List.append_nil] at nodup
      change i ∈ s.running.erase i ++ [] ↔ _
      rw [List.append_nil]
      exact iff_of_false nodup.not_mem_erase nofun
    | waiting =>
      refine iff_of_false (fun mem' => ?_) nofun
      exact notWaiting (before.mp mem').2
    | waitingForKv =>
      refine iff_of_false (fun mem' => ?_) nofun
      simp [(before.mp mem').2] at status
    | finished => exact absurd live id
    | cancelled => exact absurd live id
  · intro status'
    cases status' with
    | running =>
      have nodup := valid.distinct .running
      change (s.running ++ []).Nodup at nodup
      rw [List.append_nil] at nodup
      change (s.running.erase i ++ []).Nodup
      rw [List.append_nil]
      exact nodup.erase i
    | waiting => exact valid.distinct .waiting
    | waitingForKv => exact valid.distinct .waitingForKv
    | finished => exact List.nodup_nil
    | cancelled => exact List.nodup_nil
  · intro state pending
    refine .inl ⟨pending, ?_⟩
    rintro rfl
    simp [(valid.restoring pending).2.1] at status
  · have plans : bm''.pendingMatches = s.blockManager.pendingMatches :=
      released.pendingMatches.trans pool.pendingMatches
    have resumePlans := released.pendingResumeMatches
    rw [named] at resumePlans
    refine ⟨fun j _ planned => plans ▸ planned, fun j differ planned => ?_, fun planned => ?_,
      fun planned => ?_⟩
    · change bm''.pendingResumeMatches j ≠ none at planned
      rw [resumePlans] at planned
      change Function.update bm'.pendingResumeMatches i none j ≠ none at planned
      rw [Function.update_of_ne differ, pool.pendingResumeMatches] at planned
      exact planned
    · change bm''.pendingMatches i ≠ none at planned
      rw [plans] at planned
      exact absurd (valid.plans i planned).2.1 notWaiting
    · change bm''.pendingResumeMatches i ≠ none at planned
      rw [resumePlans] at planned
      change Function.update bm'.pendingResumeMatches i none i ≠ none at planned
      rw [Function.update_self] at planned
      exact absurd rfl planned
  · change i ∈ rest ↔ 0 < ((s.seqs i).advanced isPrefill).numScheduledTokens
    rw [idle]
    exact iff_of_false notLater (lt_irrefl _)
  · refine .appended complete ?_ same.numPromptTokens same.maxTokens same.ignoreEos same.qos
      same.arrivalStep ?_ ?_
    · change ((s.seqs i).advanced isPrefill).tokenIds ++ [tokenId] = _
      rw [tokenIds]
    · cases isPrefill <;> rfl
    · have stops : (last.ended now).withoutPages.stops cfg tokenId = true := ends
      rw [stops]
      rfl
  · change s.running.erase i =
      if (Function.update s.seqs i (last.ended now).withoutPages i).status = .finished then
        s.running.erase i else s.running
    rw [Function.update_self]
    exact (if_pos rfl).symm

/-- `postprocess` for one request of the batch raises nothing. -/
theorem Valid.postprocessSeq
    (valid : Valid cfg ids kv Sequence.computedTokens [] (i :: rest) s)
    (ready : isPrefill = false → (s.seqs i).computedTokens = (s.seqs i).numTokens)
    (tokenId : Token) (now : ℚ) :
    ∃ s', s.postprocessSeq cfg now isPrefill i tokenId = .ok s' ∧
      Valid cfg ids kv Sequence.computedTokens [] rest s' ∧ Processes cfg s i tokenId s' := by
  have mem : i ∈ i :: rest := List.mem_cons_self
  obtain ⟨known, -, -⟩ := valid.scheduled_phase mem
  obtain ⟨inRange, -, -⟩ := valid.computed_le mem
  obtain ⟨bm', hashed, memory, pool⟩ := valid.advance mem isPrefill
  obtain ⟨-, tokenIds, cached, -, -, -, -, -⟩ := (s.seqs i).advanced_eq isPrefill
  have numTokens : ((s.seqs i).advanced isPrefill).numTokens = (s.seqs i).numTokens := by
    rw [Sequence.numTokens, tokenIds]
    rfl
  rw [postprocessSeq_eq s bm' hashed]
  dsimp only
  rw [cached, numTokens]
  split
  · next short =>
    obtain ⟨valid', processes⟩ := valid.postprocessIncomplete short.2 memory pool
    exact ⟨_, rfl, valid', processes⟩
  · next whole =>
    have complete : (s.seqs i).computedTokens = (s.seqs i).numTokens := by
      cases isPrefill with
      | false => exact ready rfl
      | true =>
        have notShort : ¬(s.seqs i).computedTokens < (s.seqs i).numTokens := fun short =>
          whole ⟨rfl, short⟩
        omega
    have memory' := memory.appendToken known tokenId now (by
        rw [Function.update_self, Sequence.advanced_computedTokens, numTokens]
        exact complete.le) (by
        rw [Function.update_self, cached, numTokens]
        exact complete.le) rfl
    rw [Function.update_self, Function.update_idem] at memory'
    cases ends : (((s.seqs i).advanced isPrefill).appendToken tokenId now).stops cfg tokenId with
    | true =>
      simp only [if_true]
      exact valid.postprocessStops complete memory' pool ends
    | false =>
      simp only [Bool.false_eq_true, if_false]
      obtain ⟨valid', processes⟩ := valid.postprocessContinues complete memory' pool ends
      exact ⟨_, rfl, valid', processes⟩

/-! ## The whole batch -/

/-- The run of `postprocess` over a batch with its sampled tokens. -/
inductive ProcessesAll (cfg : Config) : List (SeqId × Token) → Scheduler → Scheduler → Prop
  | done (s : Scheduler) : ProcessesAll cfg [] s s
  | next {i : SeqId} {tokenId : Token} {rest : List (SeqId × Token)} {s s₁ s' : Scheduler}
      (processes : Processes cfg s i tokenId s₁) (later : ProcessesAll cfg rest s₁ s') :
      ProcessesAll cfg ((i, tokenId) :: rest) s s'

theorem Processes.others (processes : Processes cfg s i tokenId s') (differ : j ≠ i) :
    s'.seqs j = s.seqs j := by
  obtain ⟨seq, seqs, -⟩ := processes.seqs
  rw [seqs, Function.update_of_ne differ]

theorem Processes.self (processes : Processes cfg s i tokenId s') :
    Processed cfg (s.seqs i) tokenId (s'.seqs i) := by
  obtain ⟨seq, seqs, processed⟩ := processes.seqs
  rw [seqs, Function.update_self]
  exact processed

/-- Each event of a batch is processed once, and the other requests stay. -/
theorem ProcessesAll.each {events : List (SeqId × Token)} (all : ProcessesAll cfg events s s') :
    (events.map Prod.fst).Nodup →
      (∀ j, j ∉ events.map Prod.fst → s'.seqs j = s.seqs j) ∧
        ∀ event ∈ events, Processed cfg (s.seqs event.1) event.2 (s'.seqs event.1) := by
  induction all with
  | done s => exact fun _ => ⟨fun _ _ => rfl, nofun⟩
  | @next i tokenId rest s s₁ s' processes later ih =>
    intro distinct
    rw [List.map_cons, List.nodup_cons] at distinct
    rcases ih distinct.2 with ⟨others, each⟩
    constructor
    · intro j absent
      rw [List.map_cons, List.mem_cons, not_or] at absent
      rw [others j absent.2, processes.others absent.1]
    · intro event mem
      rcases List.mem_cons.mp mem with rfl | mem'
      · rw [others i distinct.1]
        exact processes.self
      · have inRest : event.1 ∈ rest.map Prod.fst := List.mem_map_of_mem mem'
        have differ : event.1 ≠ i := by
          rintro same
          exact distinct.1 (same ▸ inRest)
        rw [← processes.others differ]
        exact each event mem'

theorem ProcessesAll.pendingRestores {events : List (SeqId × Token)}
    (all : ProcessesAll cfg events s s') : s'.pendingRestores = s.pendingRestores := by
  induction all with
  | done s => rfl
  | next processes _ ih => exact ih.trans processes.pendingRestores

/-- The loop of `postprocess` raises nothing. -/
theorem postprocessLoop_spec (now : ℚ) (isPrefill : Bool) (events : List (SeqId × Token)) :
    ∀ s : Scheduler, Valid cfg ids kv Sequence.computedTokens [] (events.map Prod.fst) s →
      (∀ i ∈ events.map Prod.fst, isPrefill = false →
        (s.seqs i).computedTokens = (s.seqs i).numTokens) →
      ∃ s', postprocessLoop cfg now isPrefill events s = .ok s' ∧
        Valid cfg ids kv Sequence.computedTokens [] [] s' ∧ ProcessesAll cfg events s s' := by
  induction events with
  | nil => exact fun s valid _ => ⟨s, rfl, valid, .done s⟩
  | cons event rest ih =>
    rcases event with ⟨i, tokenId⟩
    intro s valid ready
    obtain ⟨s₁, processed, valid₁, processes⟩ :=
      valid.postprocessSeq (ready i List.mem_cons_self) tokenId now
    have notLater := valid.batch_rest.2.2
    have ready₁ : ∀ j ∈ rest.map Prod.fst, isPrefill = false →
        (s₁.seqs j).computedTokens = (s₁.seqs j).numTokens := by
      intro j mem decode
      have differ : j ≠ i := by
        rintro rfl
        exact notLater mem
      rw [processes.others differ]
      exact ready j (List.mem_cons_of_mem _ mem) decode
    obtain ⟨s', looped, valid', later⟩ := ih s₁ valid₁ ready₁
    refine ⟨s', ?_, valid', .next processes later⟩
    rw [postprocessLoop, processed, Py.ok_bind]
    exact looped

/-- With no scheduled tokens the computed tokens are the cached ones. -/
theorem Valid.idle_computed (valid : Valid cfg ids kv Sequence.computedTokens held [] s) :
    Valid cfg ids kv Sequence.numCachedTokens held [] s :=
  { valid with memory := valid.memory.mono fun _ _ => Nat.le_add_right _ _ }

/-- After the model run of a batch the scheduled tokens are in memory. -/
theorem Valid.run (valid : Valid cfg ids kv Sequence.numCachedTokens held batch s)
    (ready : BatchReady cfg isPrefill s.seqs batch) :
    ∃ writes, System.batchWrites cfg isPrefill s.seqs batch = .ok writes ∧
      (∀ slot ∈ writes.map Prod.fst, ∃ i ∈ ids, Writable cfg (s.seqs i) slot) ∧
      Valid cfg ids (kv.write writes) Sequence.computedTokens held batch s := by
  obtain ⟨writes, wrote, writable, memory⟩ := valid.memory.run valid.batch_distinct
    (fun i mem => ⟨((valid.scheduled i).mp mem).1, ready i mem⟩)
    (fun i known absent => valid.idle known absent)
  exact ⟨writes, wrote, writable, { valid with memory := memory }⟩

/-- The invariant does not depend on the estimator. -/
theorem Valid.observeExecution {computed : Sequence → ℕ}
    (valid : Valid cfg ids kv computed held batch s) (numTokens : ℕ) (elapsedMs : ℚ) :
    Valid cfg ids kv computed held batch
      (s.observeExecution cfg isPrefill numTokens elapsedMs) :=
  valid.reorder (List.Perm.refl _) rfl rfl rfl rfl

/-- `postprocess` of a batch which has run raises nothing. -/
theorem Valid.postprocess (valid : Valid cfg ids kv Sequence.computedTokens [] batch s)
    (ready : BatchReady cfg isPrefill s.seqs batch) {tokenIds : List Token}
    (sampled : tokenIds.length = batch.length) (now : ℚ) :
    ∃ s', s.postprocess cfg batch tokenIds isPrefill now = .ok s' ∧
      Valid cfg ids kv Sequence.numCachedTokens [] [] s' ∧
      ProcessesAll cfg (batch.zip tokenIds) s s' := by
  have requests : (batch.zip tokenIds).map Prod.fst = batch :=
    List.map_fst_zip sampled.ge
  obtain ⟨s', processed, valid', processes⟩ := postprocessLoop_spec now isPrefill
    (batch.zip tokenIds) s (by rwa [requests]) (by
      rw [requests]
      intro i mem decode
      exact ((ready i mem).decode decode).2.1)
  exact ⟨s', processed, valid'.idle_computed, processes⟩

end Scheduler

end NanoVllm
