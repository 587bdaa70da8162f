import NanoVllm.Engine.BatchShape

/-!
# Requests without compressed KV

Only running requests can be compressed, and only `_maybe_compress` does it. A request joins the
running queue through a prefill batch, whose requests are uncompressed. So with the policy `none`
no request is ever compressed.
-/

namespace NanoVllm

namespace Scheduler

variable {cfg : Config} {ids : Finset SeqId} {kv : KvStore} {computed : Sequence → ℕ}
  {held batch sched sched' : List SeqId} {env : ScheduleEnv cfg} {now : ℚ} {s s' s₁ s₂ : Scheduler}
  {i j : SeqId} {n : ℕ}

/-- No request has dropped pages. -/
def Uncompressed (ids : Finset SeqId) (s : Scheduler) : Prop :=
  ∀ i ∈ ids, (s.seqs i).kvCompressed = false

/-- Only running requests can be compressed. -/
theorem Valid.uncompressed_of_ne (valid : Valid cfg ids kv computed held batch s) (known : i ∈ ids)
    (status : (s.seqs i).status ≠ .running) : (s.seqs i).kvCompressed = false := by
  have phase := (valid.request i known).phase
  unfold Sequence.Phase at phase
  split at phase
  · exact phase.uncompressed
  · exact phase.uncompressed
  · next running => exact absurd running status
  · exact phase.uncompressed
  · exact phase.uncompressed

theorem Valid.uncompressed (valid : Valid cfg ids kv computed held batch s)
    (running : ∀ i ∈ ids, (s.seqs i).status = .running → (s.seqs i).kvCompressed = false) :
    Uncompressed ids s := by
  intro i known
  by_cases status : (s.seqs i).status = .running
  · exact running i known status
  · exact valid.uncompressed_of_ne known status

/-! ## The prefill phase -/

theorem startRemoteRestore_running {started : Bool}
    (result : s.startRemoteRestore cfg env i n now = .ok (s', started)) :
    s'.running = s.running := by
  unfold startRemoteRestore at result
  split at result
  · cases result
    rfl
  split at result
  · cases result
    rfl
  · rcases Py.exists_of_bind result with ⟨⟨bm, seq, blockIds⟩, -, rest⟩
    rcases Py.exists_of_bind rest with ⟨begun, -, rest⟩
    split at rest
    · rcases Py.exists_of_bind rest with ⟨⟨bm', aborted⟩, -, rest⟩
      rcases Py.exists_of_bind rest with ⟨failed, -, returned⟩
      cases returned
      rfl
    · cases rest
      rfl

theorem canResume_running {resumable : Bool} (result : s.canResume cfg i = .ok (s', resumable)) :
    s'.running = s.running := by
  rcases Py.exists_of_bind result with ⟨⟨bm, resumable'⟩, -, returned⟩
  cases returned
  rfl

theorem reclaimFully_running (result : s.reclaimFully cfg i = .ok s') :
    s'.running = s.running := by
  rcases Py.exists_of_bind result with ⟨⟨bm, seq, freed⟩, -, returned⟩
  cases returned
  rfl

theorem resumeCapacityLoop_running {fuel : ℕ} {ready : Bool}
    (result : resumeCapacityLoop cfg i now fuel s = .ok (s', ready)) :
    s'.running = s.running := by
  induction fuel generalizing s with
  | zero => cases result
  | succ fuel ih =>
    rw [resumeCapacityLoop] at result
    split at result
    · exact canResume_running result
    rcases Py.exists_of_bind result with ⟨⟨s₁, resumable⟩, first, rest⟩
    have running := canResume_running first
    dsimp only at rest
    split at rest
    · exact (canResume_running rest).trans running
    split at rest
    · rcases Py.exists_of_bind rest with ⟨s₂, reclaimed, rest⟩
      exact (ih rest).trans ((reclaimFully_running reclaimed).trans running)
    split at rest
    · cases rest
      exact running
    · rcases Py.exists_of_bind rest with ⟨s₂, reclaimed, rest⟩
      exact (ih rest).trans ((reclaimFully_running reclaimed).trans running)

namespace PrefillState

variable {st st' : PrefillState} {control : PrefillControl} {remaining numTokens : ℕ}

/-- Only requests of the batch join the running queue. -/
def RunsBatch (st st' : PrefillState) : Prop :=
  ∀ j ∈ st'.scheduler.running, j ∈ st.scheduler.running ∨ j ∈ st'.scheduledSeqs

theorem RunsBatch.of_running (same : st'.scheduler.running = st.scheduler.running) :
    st.RunsBatch st' := by
  intro j mem
  rw [same] at mem
  exact .inl mem

theorem RunsBatch.of_same (runs : st'.RunsBatch control.state)
    (same : st'.scheduler.running = st.scheduler.running) : st.RunsBatch control.state := by
  intro j mem
  rw [← same]
  exact runs j mem

theorem schedulePrefill_runsBatch (st : PrefillState) (i : SeqId) (numTokens remaining : ℕ)
    (now : ℚ) : st.RunsBatch (st.schedulePrefill i numTokens remaining now) := by
  intro j mem
  change j ∈ (if _ then _ else _ : Scheduler).running at mem
  change _ ∨ j ∈ st.scheduledSeqs ++ [i]
  split at mem
  · rcases List.mem_append.mp mem with runs | joins
    · exact .inl runs
    · exact .inr (List.mem_append_right _ joins)
  · exact .inl mem

theorem admitResident_runsBatch (result : st.admitResident cfg i remaining now = .ok control) :
    st.RunsBatch control.state := by
  rcases Py.exists_of_bind result with ⟨⟨bm, seq, reusedTokens⟩, -, chosen⟩
  dsimp only at chosen
  split at chosen
  · cases chosen
    exact .of_running rfl
  · cases chosen
    exact (schedulePrefill_runsBatch _ i _ remaining now).of_same rfl

theorem admitFresh_runsBatch (result : st.admitFresh cfg env i remaining now = .ok control) :
    st.RunsBatch control.state := by
  unfold admitFresh at result
  dsimp only at result
  split at result
  · cases result
    apply RunsBatch.of_running
    rw [(allocationBlocked_state _).1]
  · rcases Py.exists_of_bind result with ⟨forbidden, -, rest⟩
    split at rest
    · cases rest
      apply RunsBatch.of_running
      rw [deferBudget_state]
    · rcases Py.exists_of_bind rest with ⟨⟨s, started⟩, starts, rest⟩
      have running := startRemoteRestore_running starts
      dsimp only at rest
      split at rest
      · cases rest
        exact .of_running running
      · split at rest
        · cases rest
          exact .of_running running
        · rcases Py.exists_of_bind rest with ⟨⟨bm, seq⟩, -, returned⟩
          cases returned
          exact (schedulePrefill_runsBatch _ i _ remaining now).of_same running

theorem iterate_runsBatch (iterated : st.iterate cfg env now = .ok control) :
    st.RunsBatch control.state := by
  unfold iterate at iterated
  split at iterated
  · cases iterated
    exact .of_running rfl
  dsimp only at iterated
  split at iterated
  · cases iterated
  split at iterated
  · cases iterated
    exact .of_running rfl
  split at iterated
  · exact (admitFresh_runsBatch iterated).of_same rfl
  · rcases Py.exists_of_bind iterated with ⟨⟨s, ready⟩, ensured, rest⟩
    have running := resumeCapacityLoop_running ensured
    dsimp only at rest
    split at rest
    · cases rest
      exact .of_running running
    split at rest
    · exact (admitFresh_runsBatch rest).of_same running
    · exact (admitResident_runsBatch rest).of_same running

/-- An iteration compresses no request. -/
theorem Valid.iterate_uncompressed (valid : st.Valid cfg ids kv) (continues : st.Continues cfg)
    (iterated : st.iterate cfg env now = .ok control)
    (uncompressed : Uncompressed ids st.scheduler) :
    Uncompressed ids control.state.scheduler := by
  rcases Py.of_ok iterated (valid.iterate env now continues.1) with ⟨iterates, sound⟩
  apply sound.valid.scheduler.uncompressed
  intro j known status
  have runs := sound.valid.scheduler.mem_running.mpr ⟨known, status⟩
  rw [List.append_nil] at runs
  rcases iterate_runsBatch iterated j runs with before | batched
  · have waits : j ∉ st.scheduler.waiting := by
      intro waits
      have running := (valid.scheduler.running (List.mem_append_left _ before)).2.1
      rw [(valid.scheduler.waiting waits).2.1] at running
      cases running
    rw [iterates.others waits]
    exact uncompressed j known
  · exact sound.valid.uncompressed j batched

theorem loop_uncompressed {fuel : ℕ} (valid : st.Valid cfg ids kv)
    (looped : loop cfg env now fuel st = .ok st') (uncompressed : Uncompressed ids st.scheduler) :
    Uncompressed ids st'.scheduler := by
  induction fuel generalizing st with
  | zero => cases looped
  | succ fuel ih =>
    rw [loop] at looped
    split at looped
    · cases looped
      exact uncompressed
    next continues =>
    rw [not_or, not_le] at continues
    rcases Py.exists_of_bind looped with ⟨control, iterated, rest⟩
    rcases Py.of_ok iterated (valid.iterate env now continues.1) with ⟨-, sound⟩
    have kept := valid.iterate_uncompressed continues iterated uncompressed
    cases control with
    | again st₁ => exact ih sound.valid rest kept
    | leave st₁ =>
      cases rest
      exact kept

end PrefillState

theorem Valid.prefillPhase_uncompressed
    (valid : Valid cfg ids kv Sequence.numCachedTokens [] [] s)
    (prefilled : s.prefillPhase cfg env now = .ok (s', sched))
    (uncompressed : Uncompressed ids s) : Uncompressed ids s' := by
  by_cases prefers :
      shouldSchedulePrefill cfg s.estimator s.seqs s.stepId now s.waiting s.running = true
  · rcases prefillPhase_loop prefers prefilled with ⟨st, fuel, looped, rfl, -⟩
    exact PrefillState.loop_uncompressed (PrefillState.start_valid valid) looped uncompressed
  · rw [Scheduler.prefillPhase, if_neg prefers] at prefilled
    cases prefilled
    exact uncompressed

/-! ## The decode loop -/

/-- Making room changes a request only by putting it into the waiting queue. -/
theorem Evicts.waits {scheduled : Bool} (evicts : Evicts cfg now i s s' scheduled) :
    s.waiting ⊆ s'.waiting ∧ ∀ j, s'.seqs j = s.seqs j ∨ j ∈ s'.waiting := by
  have preempted : ∀ {s s' : Scheduler} {v : SeqId}, Preempts s v s' →
      s.waiting ⊆ s'.waiting ∧ ∀ j, s'.seqs j = s.seqs j ∨ j ∈ s'.waiting := by
    intro s s' v preempts
    rcases preempts.seqs with ⟨seq, keep, seqs, -⟩
    rw [preempts.waiting, seqs]
    refine ⟨List.subset_cons_self _ _, fun j => ?_⟩
    by_cases same : j = v
    · exact .inr (same ▸ List.mem_cons_self)
    · exact .inl (Function.update_of_ne same _ _)
  induction evicts with
  | room _ => exact ⟨List.Subset.refl _, fun j => .inl rfl⟩
  | victim _ _ preempts _ ih =>
    rcases preempted preempts with ⟨more, each⟩
    refine ⟨List.Subset.trans more ih.1, fun j => ?_⟩
    rcases ih.2 j with same | waits
    · rcases each j with same' | waits
      · exact .inl (same.trans same')
      · exact .inr (ih.1 waits)
    · exact .inr waits
  | self _ _ preempts => exact preempted preempts

theorem Evicts.uncompressed {scheduled : Bool} (evicts : Evicts cfg now i s s' scheduled)
    (valid : Valid cfg ids kv computed held batch s') (uncompressed : Uncompressed ids s) :
    Uncompressed ids s' := by
  intro j known
  rcases evicts.waits.2 j with same | waits
  · rw [same]
    exact uncompressed j known
  · apply valid.uncompressed_of_ne known
    rw [(valid.waiting waits).2.1]
    intro running
    cases running

theorem Uncompressed.selectDecode (uncompressed : Uncompressed ids s) (i : SeqId) (now : ℚ) :
    Uncompressed ids (s.selectDecode cfg i now) := by
  intro j known
  by_cases same : j = i
  · subst same
    simpa [Scheduler.selectDecode, withBudget, takeOut, setSeq] using uncompressed j known
  · simpa [Scheduler.selectDecode, withBudget, takeOut, setSeq, same] using uncompressed j known

theorem scheduleDecode_compressed (decoded : s.scheduleDecode cfg i = .ok s') (j : SeqId) :
    (s'.seqs j).kvCompressed = (s.seqs j).kvCompressed := by
  rcases Py.exists_of_bind decoded with ⟨⟨bm, seq⟩, appended, returned⟩
  cases returned
  have kept : seq.kvCompressed = (s.seqs i).kvCompressed := by
    unfold BlockManager.mayAppend at appended
    split at appended
    · rcases Py.exists_of_bind appended with ⟨⟨bm', blockId⟩, -, returned⟩
      cases returned
      rfl
    · cases appended
      rfl
  by_cases same : j = i
  · subst same
    simpa [Scheduler.put] using kept
  · simp [Scheduler.put, same]

/-- With the policy `none` the decode loop compresses no request. -/
theorem decodeLoop_uncompressed (policy : cfg.kvCompressionPolicy = .none) {fuel : ℕ}
    {retry retry' : Bool} (valid : DecodeValid cfg ids kv sched s)
    (looped : decodeLoop cfg env now fuel s sched retry = .ok (s', sched', retry'))
    (uncompressed : Uncompressed ids s) : Uncompressed ids s' := by
  induction fuel generalizing s sched retry with
  | zero => cases looped
  | succ fuel ih =>
    by_cases stops : s.running = [] ∨ cfg.maxNumSeqs ≤ sched.length
    · rw [decodeLoop, if_pos stops] at looped
      cases looped
      exact uncompressed
    rw [not_or, not_le] at stops
    cases selected : selectNext cfg s.estimator s.seqs s.stepId now s.running with
    | none =>
      rw [decodeLoop, if_neg (not_or.mpr ⟨stops.1, not_le.mpr stops.2⟩), selected] at looped
      cases looped
    | some i =>
      rw [decodeLoop_next stops.2 selected] at looped
      have compressed : (s.selectDecode cfg i now).maybeCompress cfg i =
          .ok (s.selectDecode cfg i now) := by
        unfold maybeCompress
        exact if_pos policy
      rw [compressed, Py.ok_bind] at looped
      rcases Py.exists_of_bind looped with ⟨⟨s₂, scheduled⟩, room, rest⟩
      cases scheduled with
      | true =>
        rcases Py.exists_of_bind rest with ⟨s₃, decoded, rest⟩
        rcases valid.schedules selected compressed room decoded with
          ⟨-, evicts, schedules, valid'⟩
        apply ih valid' rest
        intro j known
        rcases evicts.waits.2 j with same | waits
        · rw [scheduleDecode_compressed decoded, same]
          exact uncompressed.selectDecode i now j known
        · rw [← schedules.waiting] at waits
          apply valid'.scheduler.uncompressed_of_ne known
          rw [(valid'.scheduler.waiting waits).2.1]
          intro running
          cases running
      | false =>
        rcases valid.preempts selected compressed room with ⟨-, evicts, valid'⟩
        exact ih valid' rest (evicts.uncompressed valid'.scheduler (uncompressed.selectDecode i now))

/-! ## Operations -/

theorem scheduleOnce_uncompressed (policy : cfg.kvCompressionPolicy = .none)
    {outcome : ScheduleOutcome} (valid : Valid cfg ids kv Sequence.numCachedTokens [] [] s)
    (once : s.scheduleOnce cfg env now = .ok (s', outcome))
    (uncompressed : Uncompressed ids s) : Uncompressed ids s' := by
  have prefilled : ∀ s₁ sched, s.nextStep.prefillPhase cfg env now = .ok (s₁, sched) →
      Uncompressed ids s₁ := by
    intro s₁ sched phase
    exact valid.nextStep.prefillPhase_uncompressed phase uncompressed
  rcases scheduleOnce_loops valid once with ⟨st, phase, -, rfl, -⟩ |
    ⟨s₁, s₂, sched, retry, phase, decodeValid, looped, seqs, -⟩
  · exact prefilled _ _ phase
  · have decoded := decodeLoop_uncompressed policy decodeValid looped (prefilled _ _ phase)
    intro j known
    rw [seqs]
    exact decoded j known

/-- With the policy `none` a call of `schedule()` compresses no request. -/
theorem schedule_uncompressed (policy : cfg.kvCompressionPolicy = .none)
    {outcome : ScheduleOutcome} (valid : Valid cfg ids kv Sequence.numCachedTokens [] [] s)
    (scheduled : s.schedule cfg env = .ok (s', outcome))
    (uncompressed : Uncompressed ids s) : Uncompressed ids s' := by
  rcases schedule_passes scheduled with once | ⟨s₁, first, second⟩
  · exact scheduleOnce_uncompressed policy valid once uncompressed
  · have valid₁ := ((Py.of_ok_pair first (valid.scheduleOnce env env.now)).returns valid).valid
    exact scheduleOnce_uncompressed policy valid₁ second
      (scheduleOnce_uncompressed policy valid first uncompressed)

theorem postprocessSeq_uncompressed {isPrefill : Bool} {tokenId : Token}
    (processed : s.postprocessSeq cfg now isPrefill i tokenId = .ok s')
    (uncompressed : Uncompressed ids s) : Uncompressed ids s' := by
  have put : ∀ {bm : BlockManager} {seq : Sequence}, (i ∈ ids → seq.kvCompressed = false) →
      Uncompressed ids (s.put i bm seq) := by
    intro bm seq record j known
    by_cases same : j = i
    · subst same
      simpa [Scheduler.put] using record known
    · simpa [Scheduler.put, same] using uncompressed j known
  rcases Py.exists_of_bind processed with ⟨bm, hashed, -⟩
  rw [postprocessSeq_eq s bm hashed] at processed
  have advanced : i ∈ ids → ((s.seqs i).advanced isPrefill).kvCompressed = false := by
    intro known
    rcases Sequence.advanced_eq (s.seqs i) isPrefill with ⟨-, -, -, -, -, -, -, same⟩
    rw [same]
    exact uncompressed i known
  dsimp only at processed
  split at processed
  · cases processed
    exact put advanced
  split at processed
  · rcases Py.exists_of_bind processed with ⟨⟨bm', seq⟩, deallocated, rest⟩
    have flag : seq.kvCompressed = false := by
      rcases Py.exists_of_bind deallocated with ⟨bm'', -, released⟩
      cases released
      rfl
    dsimp only at rest
    split at rest
    · cases rest
    · rcases Py.exists_of_bind rest with ⟨_, -, returned⟩
      cases returned
      exact @put bm' seq fun _ => flag
  · cases processed
    exact put advanced

/-- `postprocess` compresses no request. -/
theorem postprocessLoop_uncompressed {isPrefill : Bool} {events : List (SeqId × Token)}
    (processed : postprocessLoop cfg now isPrefill events s = .ok s')
    (uncompressed : Uncompressed ids s) : Uncompressed ids s' := by
  induction events generalizing s with
  | nil =>
    cases processed
    exact uncompressed
  | cons event rest ih =>
    rcases event with ⟨i, tokenId⟩
    rcases Py.exists_of_bind processed with ⟨s₁, first, later⟩
    exact ih later (postprocessSeq_uncompressed first uncompressed)

end Scheduler

namespace System

open Scheduler

variable {cfg : Config} {sys sys' : System} {op : Op cfg} {Allowed : System → Op cfg → Prop}

/-- With the policy `none` no operation compresses a request. -/
theorem Valid.step_uncompressed (valid : sys.Valid cfg) (policy : cfg.kvCompressionPolicy = .none)
    (enabled : sys.Enabled op) (stepped : sys.step cfg op = .ok sys')
    (uncompressed : Uncompressed sys.known.toFinset sys.scheduler) :
    Uncompressed sys'.known.toFinset sys'.scheduler := by
  rcases Py.of_ok stepped (valid.step enabled) with ⟨valid', steps⟩
  have others : ∀ {i : SeqId}, (∀ j ≠ i, sys'.scheduler.seqs j = sys.scheduler.seqs j) →
      (∀ j ∈ sys'.known, j ≠ i → j ∈ sys.known) →
      (sys'.scheduler.seqs i).status ≠ .running →
        Uncompressed sys'.known.toFinset sys'.scheduler := by
    intro i kept older status j known
    by_cases same : j = i
    · subst same
      exact valid'.scheduler.uncompressed_of_ne known status
    · rw [kept j same]
      have old := older j (List.mem_toFinset.mp known) same
      exact uncompressed j (List.mem_toFinset.mpr old)
  have ended : ∀ {i : SeqId} {seq : Sequence}, sys'.known = sys.known →
      EndsRestore sys.scheduler i seq sys'.scheduler →
        Uncompressed sys'.known.toFinset sys'.scheduler := by
    intro i seq same ends
    refine @others i ?_ (fun _ known _ => same ▸ known) ?_
    · intro j differ
      rw [ends.seqs]
      exact Function.update_of_ne differ _ _
    · have waits := ends.waiting.mem_iff.mpr List.mem_cons_self
      rw [(valid'.scheduler.waiting waits).2.1]
      intro running
      cases running
  cases op with
  | add request now =>
    cases steps with
    | add =>
      refine @others request.seqId ?_ ?_ ?_
      · intro j differ
        exact Function.update_of_ne differ _ _
      · intro j known differ
        rcases List.mem_append.mp known with old | new
        · exact old
        · exact absurd (List.mem_singleton.mp new) differ
      · have self : (sys.scheduler.add request.toSequence now).seqs request.seqId =
            request.toSequence.markArrived sys.scheduler.stepId now := Function.update_self _ _ _
        change ((sys.scheduler.add request.toSequence now).seqs request.seqId).status ≠ _
        rw [self]
        intro running
        cases running
  | schedule env =>
    have scheduler := valid.scheduler
    rw [batch_of_none enabled] at scheduler
    rcases Py.exists_of_bind stepped with ⟨⟨s', outcome⟩, scheduled, returned⟩
    cases returned
    exact schedule_uncompressed policy scheduler scheduled uncompressed
  | postprocess tokenIds elapsedMs now =>
    rcases enabled with ⟨inFlight, flying, -⟩
    rw [Option.mem_def] at flying
    simp only [System.step, flying] at stepped
    rcases Py.exists_of_bind stepped with ⟨ran, run, rest⟩
    rcases Py.exists_of_bind run with ⟨writes, -, returned⟩
    cases returned
    rcases Py.exists_of_bind rest with ⟨s', processed, returned⟩
    cases returned
    exact postprocessLoop_uncompressed processed uncompressed
  | runFailed garbage =>
    cases steps with
    | runFailed => exact uncompressed
  | cancel i now =>
    cases steps with
    | cancel _ _ cancels =>
      refine @others i ?_ (fun _ known _ => known) ?_
      · intro j differ
        rw [cancels.seqs]
        exact Function.update_of_ne differ _ _
      · rw [cancels.seqs, Function.update_self]
        intro running
        cases running
    | cancelNothing => exact uncompressed
  | completeRemoteRestore i now =>
    cases steps with
    | completeRemoteRestore _ ends => exact ended rfl ends
  | failRemoteRestore i now error garbage =>
    cases steps with
    | failRemoteRestore _ ends => exact ended rfl ends

/-- With the policy `none` no request is ever compressed. -/
theorem ReachableBy.uncompressed (reachable : ReachableBy cfg Allowed sys)
    (policy : cfg.kvCompressionPolicy = .none) :
    Uncompressed sys.known.toFinset sys.scheduler := by
  induction reachable with
  | init =>
    intro i known
    cases known
  | step reachable enabled _ stepped ih =>
    exact reachable.valid.step_uncompressed policy enabled stepped ih

end System

end NanoVllm
