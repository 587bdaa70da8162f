import NanoVllm.Reclaim.Log
import NanoVllm.Engine.Runs

/-!
# The recomputed tokens

`kv_recomputed_tokens` is to count the positions which prefills compute below the high-water mark of
their request: the most cached tokens the request had just before one of its reclaims.
-/

namespace NanoVllm

open BlockManager HighWater

namespace Sequence

variable {seq : Sequence} {high : ℕ}

/-- The positions of a prefill below a high-water mark. -/
def positionsBelow (seq : Sequence) (high : ℕ) : ℕ :=
  (ModelRunner.prefillPositions seq).countP (· < high)

theorem advanced_recomputed (pending : seq.pendingPreemptionRecomputeTokens =
    high - seq.numCachedTokens) (isPrefill : Bool) :
    (seq.advanced isPrefill).kvRecomputedTokens =
      seq.kvRecomputedTokens + if isPrefill then seq.positionsBelow high else 0 := by
  cases isPrefill with
  | true =>
    simp only [advanced, recordRecomputedTokens, if_true, positionsBelow,
      ModelRunner.prefillPositions, countP_below, pending]
  | false => rfl

theorem advanced_pending (pending : seq.pendingPreemptionRecomputeTokens =
    high - seq.numCachedTokens) {isPrefill : Bool}
    (decoding : isPrefill = false → high ≤ seq.numCachedTokens) :
    (seq.advanced isPrefill).pendingPreemptionRecomputeTokens =
      high - (seq.advanced isPrefill).numCachedTokens := by
  cases isPrefill with
  | true =>
    simp only [advanced, recordRecomputedTokens, if_true, pending]
    exact missing_produce
  | false =>
    have reached := decoding rfl
    simp only [advanced, Bool.false_eq_true, if_false, pending]
    omega

end Sequence

namespace Scheduler

variable {cfg : Config} {ids : Finset SeqId} {kv : KvStore} {s s' : Scheduler} {i j : SeqId}
  {rest : List SeqId} {isPrefill : Bool} {tokenId : Token} {now : ℚ} {log : List (SeqId × ℕ)}
  {counted : SeqId → ℕ}

/-- The record which `postprocess` leaves of a request of the batch. -/
theorem postprocessSeq_record (processed : s.postprocessSeq cfg now isPrefill i tokenId = .ok s') :
    ∃ seq, s'.seqs = Function.update s.seqs i seq ∧
      (seq = (s.seqs i).advanced isPrefill ∨
        seq = ((s.seqs i).advanced isPrefill).appendToken tokenId now ∨
        seq = ((((s.seqs i).advanced isPrefill).appendToken tokenId now).ended
          now).withoutPages) := by
  cases hashed : s.blockManager.hashBlocks cfg (s.seqs i) with
  | error error =>
    rw [postprocessSeq, hashed] at processed
    cases processed
  | ok bm' =>
    rw [postprocessSeq_eq s bm' hashed] at processed
    simp only at processed
    split at processed
    · cases processed
      exact ⟨_, rfl, .inl rfl⟩
    · split at processed
      · rcases Py.exists_of_bind processed with ⟨⟨bm'', seq⟩, released, processed⟩
        have fields := deallocate_fields released
        subst fields
        simp only at processed
        split at processed
        · cases processed
        · rcases Py.exists_of_bind processed with ⟨_, checked, processed⟩
          cases processed
          exact ⟨_, rfl, .inr (.inr rfl)⟩
      · cases processed
        exact ⟨_, rfl, .inr (.inl rfl)⟩

theorem Valid.postprocessSeq_accounted
    (valid : Valid cfg ids kv Sequence.computedTokens [] (i :: rest) s)
    (decoding : isPrefill = false →
      (s.seqs i).numScheduledTokens = 1 ∧ (s.seqs i).computedTokens = (s.seqs i).numTokens)
    (accounted : Accounted ids log counted s)
    (processed : s.postprocessSeq cfg now isPrefill i tokenId = .ok s') :
    Accounted ids log (Function.update counted i (counted i +
      if isPrefill then (s.seqs i).positionsBelow (highest log i) else 0)) s' := by
  rcases valid.scheduled_phase List.mem_cons_self with ⟨known, -, phase⟩
  have live : (s.seqs i).status.Live ∧ (s.seqs i).status ≠ .waitingForKv := by
    rcases phase with ⟨status, -⟩ | ⟨status, -⟩ <;> rw [status] <;> exact ⟨trivial, nofun⟩
  have pending := accounted.pending i known live.1
  have below := accounted.below i known live.1
  rw [Sequence.creditedTokens_eq live.2] at pending
  have reached : isPrefill = false → highest log i ≤ (s.seqs i).numCachedTokens := by
    intro decode
    rcases decoding decode with ⟨single, complete⟩
    rw [Sequence.computedTokens, single] at complete
    omega
  rcases Sequence.advanced_eq (s.seqs i) isPrefill with ⟨status, tokenIds, -⟩
  have missing := Sequence.advanced_pending pending reached
  have recomputed := Sequence.advanced_recomputed pending isPrefill
  have credited : ((s.seqs i).advanced isPrefill).creditedTokens =
      ((s.seqs i).advanced isPrefill).numCachedTokens := by
    apply Sequence.creditedTokens_eq
    rw [status]
    exact live.2
  have tokens : ((s.seqs i).advanced isPrefill).numTokens = (s.seqs i).numTokens :=
    congrArg List.length tokenIds
  rw [← credited] at missing
  rw [← accounted.recomputed i known, ← recomputed]
  rcases postprocessSeq_record processed with ⟨seq, seqs, rfl | rfl | rfl⟩
  · apply accounted.update known seqs
    intro _
    exact ⟨missing, tokens ▸ below⟩
  · have grown : (((s.seqs i).advanced isPrefill).appendToken tokenId now).numTokens =
        (s.seqs i).numTokens + 1 := by
      rw [← tokens]
      exact List.length_append
    have updated := accounted.update known seqs fun _ => ⟨missing, by omega⟩
    exact updated
  · have updated := accounted.update known seqs fun alive => absurd alive id
    exact updated

/-- The prefill positions below the high-water marks in a batch. -/
def batchBelow (log : List (SeqId × ℕ)) (isPrefill : Bool) (seqs : SeqId → Sequence)
    (batch : List SeqId) (i : SeqId) : ℕ :=
  if isPrefill = true ∧ i ∈ batch then (seqs i).positionsBelow (highest log i) else 0

theorem postprocessLoop_accounted (events : List (SeqId × Token)) :
    ∀ (s : Scheduler) (counted : SeqId → ℕ),
      Valid cfg ids kv Sequence.computedTokens [] (events.map Prod.fst) s →
      (∀ i ∈ events.map Prod.fst, isPrefill = false →
        (s.seqs i).numScheduledTokens = 1 ∧ (s.seqs i).computedTokens = (s.seqs i).numTokens) →
      Accounted ids log counted s → postprocessLoop cfg now isPrefill events s = .ok s' →
      Accounted ids log
        (fun j => counted j + batchBelow log isPrefill s.seqs (events.map Prod.fst) j) s' := by
  induction events with
  | nil =>
    intro s counted _ _ accounted looped
    cases looped
    simpa [batchBelow] using accounted
  | cons event rest ih =>
    rcases event with ⟨i, tokenId⟩
    intro s counted valid decoding accounted looped
    have first := decoding i List.mem_cons_self
    rcases valid.postprocessSeq (fun decode => (first decode).2) tokenId now with
      ⟨s₁, processed, valid₁, processes⟩
    have once := valid.postprocessSeq_accounted first accounted processed
    have notLater : i ∉ rest.map Prod.fst := valid.batch_rest.2.2
    have others : ∀ j ∈ rest.map Prod.fst, s₁.seqs j = s.seqs j := by
      intro j mem
      apply processes.others
      rintro rfl
      exact notLater mem
    rw [postprocessLoop, processed, Py.ok_bind] at looped
    have decoding₁ : ∀ j ∈ rest.map Prod.fst, isPrefill = false →
        (s₁.seqs j).numScheduledTokens = 1 ∧
          (s₁.seqs j).computedTokens = (s₁.seqs j).numTokens := by
      intro j mem
      rw [others j mem]
      exact decoding j (List.mem_cons_of_mem _ mem)
    have all := ih s₁ _ valid₁ decoding₁ once looped
    convert all using 2 with j
    by_cases self : j = i
    · subst self
      simp [batchBelow, notLater]
    · rw [Function.update_of_ne self]
      congr 1
      by_cases mem : j ∈ rest.map Prod.fst
      · simp only [batchBelow, List.map_cons, List.mem_cons, self, false_or, others j mem]
      · simp only [batchBelow, List.map_cons, List.mem_cons, self, false_or, mem, and_false,
          if_false]

/-! ## The other operations -/

theorem commitRestoredPrefix_fields {bm bm' : BlockManager} {seq seq' : Sequence} {n : ℕ}
    (committed : bm.commitRestoredPrefix cfg seq n = .ok (bm', seq')) :
    seq'.tokenIds = seq.tokenIds ∧
      seq'.pendingPreemptionRecomputeTokens = seq.pendingPreemptionRecomputeTokens ∧
      seq'.kvRecomputedTokens = seq.kvRecomputedTokens := by
  rw [commitRestoredPrefix] at committed
  simp only at committed
  split at committed
  · cases committed
  · split at committed
    · cases committed
    · split at committed
      · rcases Py.exists_of_bind committed with ⟨bm₁, inserted, committed⟩
        cases committed
        exact ⟨rfl, rfl, rfl⟩
      · cases committed
        exact ⟨rfl, rfl, rfl⟩

theorem finishRemoteRestore_fields {seq seq' : Sequence} {n : ℕ}
    (finished : seq.finishRemoteRestore now n = .ok seq') :
    seq.status = .waitingForKv ∧ seq'.status = .waiting ∧ seq'.tokenIds = seq.tokenIds ∧
      seq'.pendingPreemptionRecomputeTokens = seq.pendingPreemptionRecomputeTokens ∧
      seq'.kvRecomputedTokens = seq.kvRecomputedTokens := by
  rw [Sequence.finishRemoteRestore] at finished
  split at finished
  · cases finished
  · next status =>
    split at finished
    · cases finished
    · cases finished
      exact ⟨not_not.mp status, rfl, rfl, rfl, rfl⟩

/-- A restore which completes when nothing is pending. -/
theorem completeRemoteRestore_regains (restores : (s.seqs i).status = .waitingForKv)
    (nothing : (s.seqs i).pendingPreemptionRecomputeTokens = 0)
    (completed : s.completeRemoteRestore cfg i now = .ok s') : Regains s s' := by
  rw [completeRemoteRestore] at completed
  rcases Py.exists_of_bind completed with ⟨state, looked, completed⟩
  rcases Py.exists_of_bind completed with ⟨⟨bm, seq⟩, committed, completed⟩
  simp only at completed
  rcases commitRestoredPrefix_fields committed with ⟨tokenIds, pending, recomputed⟩
  rcases Py.exists_of_bind completed with ⟨seq', finished, completed⟩
  cases completed
  rcases finishRemoteRestore_fields finished with
    ⟨-, -, tokenIds', pending', recomputed'⟩
  refine .of_update rfl ⟨fun _ => restores ▸ trivial, ?_, ?_, ?_, ?_⟩
  · exact congrArg List.length (tokenIds'.trans tokenIds)
  · rw [Sequence.creditedTokens, if_pos restores]
    exact Nat.zero_le _
  · rw [pending', pending, nothing, Nat.zero_sub]
  · exact recomputed'.trans recomputed

/-- The pages of a failed restore were not credited. -/
theorem failRemoteRestore_regains {error : String}
    (restores : (s.seqs i).status = .waitingForKv) (owned : (s.seqs i).blockTable ≠ [])
    (failed : s.failRemoteRestore i now error = .ok s') : Regains s s' := by
  rw [failRemoteRestore] at failed
  rcases Py.exists_of_bind failed with ⟨state, looked, failed⟩
  rw [abortRestore, if_neg owned] at failed
  rcases Py.exists_of_bind failed with ⟨⟨bm, seq⟩, released, failed⟩
  have fields := deallocate_fields released
  subst fields
  have status : (s.seqs i).withoutPages.status = .waitingForKv := restores
  simp only [Sequence.failRemoteRestore, status, ne_eq, not_true_eq_false, if_false,
    Py.ok_bind] at failed
  cases failed
  refine .of_update rfl (.of_credited (fun _ => restores ▸ trivial) rfl ?_ rfl rfl)
  rw [Sequence.creditedTokens, if_neg (by simp), Sequence.creditedTokens, if_pos restores]
  rfl

end Scheduler

namespace System

variable {cfg : Config} {sys sys' : System} {op : Op cfg} {i : SeqId} {log : List (SeqId × ℕ)}
  {counted : SeqId → ℕ} {Allowed : System → Op cfg → Prop}

/-- The reclaims of an operation. -/
def reclaims (sys : System) : Op cfg → List (SeqId × ℕ)
  | .schedule env => sys.scheduler.scheduleReclaims cfg env
  | _ => []

/-- The positions below their high-water mark which an operation computes by a prefill. -/
def recomputes (sys : System) (log : List (SeqId × ℕ)) : Op cfg → SeqId → ℕ
  | .postprocess _ _ _, i =>
      match sys.inFlight with
      | none => 0
      | some inFlight =>
          Scheduler.batchBelow log inFlight.isPrefill sys.scheduler.seqs inFlight.seqs i
  | _, _ => 0

/-- The runs, with the log of their reclaims and the positions recomputed for each request. -/
inductive History (cfg : Config) (Allowed : System → Op cfg → Prop) :
    System → List (SeqId × ℕ) → (SeqId → ℕ) → Prop
  | init : History cfg Allowed (init cfg) [] fun _ => 0
  | step {sys sys' : System} {op : Op cfg} {log : List (SeqId × ℕ)} {counted : SeqId → ℕ}
      (history : History cfg Allowed sys log counted) (enabled : sys.Enabled op)
      (allowed : Allowed sys op) (stepped : sys.step cfg op = .ok sys') :
      History cfg Allowed sys' (log ++ sys.reclaims op)
        fun i => counted i + sys.recomputes log op i

theorem History.reachable (history : History cfg Allowed sys log counted) :
    ReachableBy cfg Allowed sys := by
  induction history with
  | init => exact .init
  | step _ enabled allowed stepped ih => exact .step ih enabled allowed stepped

/-- Every run has its history. -/
theorem ReachableBy.history (reachable : ReachableBy cfg Allowed sys) :
    ∃ log counted, History cfg Allowed sys log counted := by
  induction reachable with
  | init => exact ⟨_, _, .init⟩
  | step _ enabled allowed stepped ih =>
    rcases ih with ⟨log, counted, history⟩
    exact ⟨_, _, .step history enabled allowed stepped⟩

/-- No remote restore completes for a request with tokens to recompute. -/
def RestoresUnreclaimed (sys : System) : Op cfg → Prop
  | .completeRemoteRestore i _ => (sys.scheduler.seqs i).pendingPreemptionRecomputeTokens = 0
  | _ => True

theorem Accounted.add {request : Request} {now : ℚ}
    (accounted : Scheduler.Accounted sys.known.toFinset log counted sys.scheduler)
    (enabled : sys.Enabled (@Op.add cfg request now)) :
    Scheduler.Accounted (sys.known ++ [request.seqId]).toFinset log counted
      (sys.scheduler.add request.toSequence now) := by
  have fresh := accounted.fresh request.seqId
    (fun known => enabled.2 (List.mem_toFinset.mp known))
  have cases : ∀ j ∈ (sys.known ++ [request.seqId]).toFinset,
      j = request.seqId ∨ j ≠ request.seqId ∧ j ∈ sys.known.toFinset := by
    intro j known
    simp only [List.mem_toFinset, List.mem_append, List.mem_singleton] at known ⊢
    tauto
  have self : (sys.scheduler.add request.toSequence now).seqs request.seqId =
      request.toSequence.markArrived sys.scheduler.stepId now := Function.update_self _ _ _
  have others : ∀ j, j ≠ request.seqId →
      (sys.scheduler.add request.toSequence now).seqs j = sys.scheduler.seqs j :=
    fun j differ => Function.update_of_ne differ _ _
  refine ⟨?_, ?_, ?_, ?_⟩
  · intro j known
    rcases cases j known with rfl | ⟨differ, known'⟩
    · rw [self, fresh.2]
      rfl
    · rw [others j differ]
      exact accounted.recomputed j known'
  · intro j known live
    rcases cases j known with rfl | ⟨differ, known'⟩
    · rw [self, fresh.1, Nat.zero_sub]
      rfl
    · rw [others j differ] at live ⊢
      exact accounted.pending j known' live
  · intro j known live
    rcases cases j known with rfl | ⟨differ, known'⟩
    · rw [self, fresh.1]
      exact List.length_pos_iff.mpr enabled.1
    · rw [others j differ] at live ⊢
      exact accounted.below j known' live
  · intro j unknown
    apply accounted.fresh j
    intro known
    simp only [List.mem_toFinset, List.mem_append, not_or] at unknown known
    exact unknown.1 known

theorem Valid.accounted (valid : sys.Valid cfg) (enabled : sys.Enabled op)
    (allowed : RestoresUnreclaimed sys op)
    (accounted : Scheduler.Accounted sys.known.toFinset log counted sys.scheduler)
    (stepped : sys.step cfg op = .ok sys') :
    Scheduler.Accounted sys'.known.toFinset (log ++ sys.reclaims op)
      (fun i => counted i + sys.recomputes log op i) sys'.scheduler := by
  cases op with
  | add request now =>
    cases stepped
    simpa [reclaims, recomputes] using Accounted.add accounted enabled
  | schedule env =>
    have idle : sys.inFlight = none := enabled
    have scheduler := valid.scheduler
    rw [batch_of_none idle] at scheduler
    rw [System.step] at stepped
    rcases Py.exists_of_bind stepped with ⟨⟨s', outcome⟩, scheduled, stepped⟩
    cases stepped
    exact Scheduler.schedule_accounted scheduler accounted scheduled
  | postprocess tokenIds elapsedMs now =>
    rcases enabled with ⟨inFlight, flying, -, sampled⟩
    have scheduler := valid.scheduler
    rw [batch_of_some flying] at scheduler
    have ready := valid.ready inFlight flying
    rcases scheduler.run ready with ⟨writes, written, -, ran⟩
    have observed : (sys.scheduler.observeExecution cfg inFlight.isPrefill
        (observedTokens sys.scheduler.seqs inFlight) elapsedMs).Valid cfg sys.known.toFinset
          (sys.kv.write writes) Sequence.computedTokens [] inFlight.seqs :=
      ran.observeExecution _ elapsedMs
    have requests : (inFlight.seqs.zip tokenIds).map Prod.fst = inFlight.seqs :=
      List.map_fst_zip sampled.ge
    rw [Option.mem_def] at flying
    simp only [System.step, flying, System.run, written, Py.ok_bind] at stepped
    rcases Py.exists_of_bind stepped with ⟨s', processed, stepped⟩
    cases stepped
    rw [← requests] at observed
    have observedAccounted : Scheduler.Accounted sys.known.toFinset log counted
        (sys.scheduler.observeExecution cfg inFlight.isPrefill
          (observedTokens sys.scheduler.seqs inFlight) elapsedMs) :=
      accounted.regains (.of_seqs rfl)
    have all := Scheduler.postprocessLoop_accounted (inFlight.seqs.zip tokenIds) _ counted observed
      (by
        rw [requests]
        intro j mem decode
        have decoding := (ready j mem).decode decode
        exact ⟨decoding.1, decoding.2.1⟩) observedAccounted processed
    rw [requests] at all
    simp only [reclaims, recomputes, flying, List.append_nil]
    exact all
  | runFailed garbage =>
    rcases valid.step enabled with ⟨_, stepped', -, steps⟩
    cases stepped.symm.trans stepped'
    cases steps
    simpa [reclaims, recomputes] using accounted
  | cancel i now =>
    rcases valid.step enabled with ⟨_, stepped', -, steps⟩
    cases stepped.symm.trans stepped'
    cases steps with
    | cancelNothing => simpa [reclaims, recomputes] using accounted
    | cancel known live cancels =>
      have ended := accounted.ended (List.mem_toFinset.mpr known) cancels.seqs (fun alive => alive)
        rfl
      simpa [reclaims, recomputes] using ended
  | completeRemoteRestore i now =>
    rcases enabled with ⟨state, mem, rfl⟩
    have restores := (valid.scheduler.restoring mem).2.1
    rw [System.step, valid.scheduler.pendingRestore mem, Py.ok_bind] at stepped
    rcases Py.exists_of_bind stepped with ⟨s', completed, stepped⟩
    cases stepped
    have regains := Scheduler.completeRemoteRestore_regains restores allowed completed
    simpa [reclaims, recomputes] using accounted.regains regains
  | failRemoteRestore i now error garbage =>
    rcases enabled with ⟨state, mem, rfl⟩
    rcases valid.scheduler.restoring mem with ⟨known, restores, phase, -⟩
    have owned := valid.scheduler.owns_of_restoring mem
    rw [System.step, valid.scheduler.pendingRestore mem, Py.ok_bind] at stepped
    rcases Py.exists_of_bind stepped with ⟨s', failed, stepped⟩
    cases stepped
    have regains := Scheduler.failRemoteRestore_regains restores owned failed
    simpa [reclaims, recomputes] using accounted.regains regains

/-- While no restore completes for a request with tokens to recompute, `kv_recomputed_tokens` of
every request is the number of positions below its high-water mark which prefills computed. -/
theorem recomputed_exact (history : History cfg RestoresUnreclaimed sys log counted) :
    ∀ i ∈ sys.known, (sys.scheduler.seqs i).kvRecomputedTokens = counted i := by
  have accounted : Scheduler.Accounted sys.known.toFinset log counted sys.scheduler := by
    induction history with
    | init => exact ⟨nofun, nofun, nofun, fun _ _ => ⟨rfl, rfl⟩⟩
    | step history enabled allowed stepped ih =>
      exact history.reachable.valid.accounted enabled allowed ih stepped
  intro i known
  exact accounted.recomputed i (List.mem_toFinset.mpr known)

/-! ## Computed histories -/

/-- A state with its history. -/
abbrev Recorded := System × List (SeqId × ℕ) × (SeqId → ℕ)

/-- The state and the history after an operation; an operation which raises is skipped. -/
def nextRecorded (cfg : Config) (run : Recorded) (op : Op cfg) : Recorded :=
  (next cfg run.1 op, run.2.1 ++ run.1.reclaims op,
    fun i => run.2.2 i + run.1.recomputes run.2.1 op i)

theorem History.runOps {run : Recorded} (history : History cfg Allowed run.1 run.2.1 run.2.2)
    {ops : List (Op cfg)} (enabled : EnabledAll cfg Allowed run.1 ops) :
    History cfg Allowed (ops.foldl (nextRecorded cfg) run).1
      (ops.foldl (nextRecorded cfg) run).2.1 (ops.foldl (nextRecorded cfg) run).2.2 := by
  induction ops generalizing run with
  | nil => exact history
  | cons op ops ih =>
    rcases history.reachable.valid.step enabled.1.1 with ⟨sys', stepped, -⟩
    refine @ih (nextRecorded cfg run op) ?_ enabled.2
    refine .step history enabled.1.1 enabled.1.2 ?_
    rw [nextRecorded, next, stepped]

instance decidableRestoresUnreclaimed (sys : System) :
    ∀ op : Op cfg, Decidable (RestoresUnreclaimed sys op)
  | .completeRemoteRestore i _ =>
      inferInstanceAs (Decidable ((sys.scheduler.seqs i).pendingPreemptionRecomputeTokens = 0))
  | .add _ _ | .schedule _ | .postprocess _ _ _ | .runFailed _ | .cancel _ _
  | .failRemoteRestore _ _ _ _ => .isTrue trivial

/-- Four pages of two tokens. -/
def smallPool : Config := defaultConfig 2 4 2 two_le_two

/-- A request whose prompt repeats one token. -/
def repeatedRequest (seqId : SeqId) (tokenId : Token) (promptLength maxTokens : ℕ) : Request :=
  { plainRequest seqId promptLength maxTokens with prompt := List.replicate promptLength tokenId }

/-- A second request loses its pages to the first one, which then takes one of them and ends. -/
def reclaimedOps : List (Op smallPool) :=
  [.add (repeatedRequest 0 1 3 3) 0, .add (repeatedRequest 1 2 4 2) 0, .schedule (idleEnv _),
    .postprocess [5, 6] 1 1, .schedule (idleEnv _), .postprocess [7] 1 1, .schedule (idleEnv _),
    .postprocess [9] 1 1]

/-- The second request is admitted again with one page of the prefix cache. -/
def recomputedRun : Recorded :=
  (reclaimedOps ++ [Op.schedule (idleEnv _), Op.postprocess [8] 1 3]).foldl
    (nextRecorded smallPool) (init smallPool, [], fun _ => 0)

theorem recomputed_exact_recomputedRun :
    recomputedRun.2.1 = [(1, 4)] ∧ (recomputedRun.1.scheduler.seqs 1).status = .finished ∧
      (recomputedRun.1.scheduler.seqs 1).kvRecomputedTokens = 2 := by
  have history : History smallPool RestoresUnreclaimed recomputedRun.1 recomputedRun.2.1
      recomputedRun.2.2 := @History.runOps smallPool _ (init smallPool, [], fun _ => 0) .init _
    (by decide +kernel)
  refine ⟨by decide +kernel, by decide +kernel, ?_⟩
  rw [recomputed_exact history 1 (by decide +kernel)]
  decide +kernel

/-- A service which offers the first `n` pages of every longer request. -/
def prefixService (cfg : Config) (n : ℕ) : RestoreService cfg where
  planRestore := fun seq localCachedBlocks _ =>
    if localCachedBlocks < n ∧ n < seq.numBlocks cfg then
      some ((List.range n).map fun index =>
        { prefixTokenIds := seq.tokenIds.take ((index + 1) * cfg.blockSize), pageIndex := index })
    else none
  plan_valid := by
    intro seq localCachedBlocks _ pages planned
    split at planned
    · next able =>
      cases planned
      refine ⟨by simpa using able.1, by simpa using able.2, ?_⟩
      intro page index found
      rw [List.getElem?_map, Option.map_eq_some_iff] at found
      rcases found with ⟨k, found, rfl⟩
      have same := (List.getElem?_eq_some_iff.mp found).2
      rw [List.getElem_range] at same
      subst same
      exact ⟨rfl, rfl⟩
    · cases planned

/-- A `schedule()` call with a service which offers two pages. -/
def twoPagesEnv : ScheduleEnv smallPool :=
  { idleEnv smallPool with service := prefixService smallPool 2 }

/-- The second request is admitted again through a remote restore of both its pages. -/
def restoredRun : Recorded :=
  (reclaimedOps ++ [Op.schedule twoPagesEnv, Op.completeRemoteRestore 1 2,
    Op.schedule twoPagesEnv, Op.postprocess [8] 1 3]).foldl (nextRecorded smallPool)
      (init smallPool, [], fun _ => 0)

/-- The counter counts a token which is computed for the first time. -/
theorem restoredRun_overcounts :
    History smallPool (fun _ _ => True) restoredRun.1 restoredRun.2.1 restoredRun.2.2 ∧
      restoredRun.2.1 = [(1, 4)] ∧ (restoredRun.1.scheduler.seqs 1).status = .finished ∧
      (restoredRun.1.scheduler.seqs 1).kvRecomputedTokens = 1 ∧ restoredRun.2.2 1 = 0 :=
  ⟨@History.runOps smallPool _ (init smallPool, [], fun _ => 0) .init _ (by decide +kernel),
    by decide +kernel, by decide +kernel, by decide +kernel, by decide +kernel⟩

end System

end NanoVllm
