import NanoVllm.Engine.Phases
import NanoVllm.Scheduler.BatchShape

/-!
# The batch of a schedule call

`schedule()` returns the batch of its last prefill or decode loop. Every request which has joined
the batch of a loop is in the batch of the call, as it was when it joined: no later iteration
preempts it or takes pages from it.
-/

namespace NanoVllm

namespace Scheduler

variable {cfg : Config} {env : ScheduleEnv cfg} {now : ℚ} {ids : Finset SeqId} {kv : KvStore}
  {held batch sched sched' : List SeqId} {s s' s'' : Scheduler} {i j : SeqId}

/-! ## From the head of an iteration to the end of the loop -/

/-- The head of an iteration of the prefill loop leads to the end of the loop. -/
theorem PrefillState.Reaches.loop {st st₁ st' : PrefillState} {fuel : ℕ}
    (reaches : st.Reaches cfg env now st₁) (looped : loop cfg env now fuel st = .ok st') :
    ∃ fuel', loop cfg env now fuel' st₁ = .ok st' := by
  induction reaches with
  | start => exact ⟨fuel, looped⟩
  | next _ continues iterated ih =>
    rcases ih with ⟨_ | fuel', rest⟩
    · cases rest
    rw [PrefillState.loop] at rest
    split at rest
    · next stops =>
      rcases stops with empty | full
      · exact absurd empty continues.1
      · exact absurd continues.2 (not_lt.mpr full)
    · rw [iterated, Py.ok_bind] at rest
      exact ⟨fuel', rest⟩

/-- An iteration of the decode loop. -/
theorem decodeLoop_next (short : sched.length < cfg.maxNumSeqs)
    (selected : selectNext cfg s.estimator s.seqs s.stepId now s.running = some i)
    (env : ScheduleEnv cfg) (fuel : ℕ) (retry : Bool) :
    decodeLoop cfg env now (fuel + 1) s sched retry =
      (s.selectDecode cfg i now).maybeCompress cfg i >>= fun s₁ =>
        appendCapacityLoop cfg env i now (s₁.running.length + 1) s₁ >>= fun (s₂, scheduled) =>
          if scheduled then s₂.scheduleDecode cfg i >>= fun s₃ =>
            decodeLoop cfg env now fuel s₃ (sched ++ [i]) retry
          else decodeLoop cfg env now fuel s₂ sched true := by
  rw [decodeLoop, if_neg, selected]
  · rfl
  · rintro (empty | full)
    · have mem := selectNext_mem selected
      rw [empty] at mem
      exact List.not_mem_nil mem
    · exact absurd short (not_lt.mpr full)

/-- The head of an iteration of the decode loop leads to the end of the loop. -/
theorem DecodeReaches.loop {fuel : ℕ} {retry' : Bool}
    (reaches : DecodeReaches cfg env now s s' sched) (valid : DecodeValid cfg ids kv [] s)
    (enough : s.running.length < fuel)
    (looped : decodeLoop cfg env now fuel s [] false = .ok (s'', sched', retry')) :
    ∃ retry, Decodes cfg ids kv now s' sched retry s'' sched' retry' := by
  have rest : ∃ fuel' retry, s'.running.length < fuel' ∧
      decodeLoop cfg env now fuel' s' sched retry = .ok (s'', sched', retry') := by
    induction reaches with
    | start => exact ⟨fuel, false, enough, looped⟩
    | scheduled reaches short selected compressed room decoded ih =>
      have mem := selectNext_mem selected
      rcases (reaches.valid valid).schedules selected compressed room decoded with
        ⟨touches, evicts, schedules, -⟩
      rcases ih with ⟨_ | fuel', retry, enough', rest⟩
      · cases rest
      rw [decodeLoop_next short selected, compressed, Py.ok_bind, room, Py.ok_bind] at rest
      simp only [if_true, decoded, Py.ok_bind] at rest
      refine ⟨fuel', retry, ?_, rest⟩
      rw [schedules.running]
      exact (touches.running_lt evicts mem).trans_le (Nat.le_of_lt_succ enough')
    | preempted reaches short selected compressed room ih =>
      have mem := selectNext_mem selected
      rcases (reaches.valid valid).preempts selected compressed room with ⟨touches, evicts, -⟩
      rcases ih with ⟨_ | fuel', retry, enough', rest⟩
      · cases rest
      rw [decodeLoop_next short selected, compressed, Py.ok_bind, room, Py.ok_bind] at rest
      refine ⟨fuel', true, ?_, rest⟩
      exact (touches.running_lt evicts mem).trans_le (Nat.le_of_lt_succ enough')
  rcases rest with ⟨fuel', retry, enough', rest⟩
  rcases decodeLoop_spec env now fuel' s' sched retry (reaches.valid valid) enough' with
    ⟨s₁, sched₁, retry₁, rest', decodes⟩
  rw [rest] at rest'
  cases rest'
  exact ⟨retry, decodes⟩

/-! ## Requests which have joined the decode loop -/

/-- A decode loop leaves the requests it has scheduled alone. -/
theorem Decodes.kept {retry retry' : Bool}
    (decodes : Decodes cfg ids kv now s sched retry s' sched' retry') (mem : j ∈ sched) :
    s'.seqs j = s.seqs j := by
  apply decodes.others
  intro runs
  cases decodes with
  | stop valid _ => exact valid.notRunning mem runs
  | scheduled valid _ _ _ _ _ _ => exact valid.notRunning mem runs
  | preempted valid _ _ _ _ _ => exact valid.notRunning mem runs

/-- Making room for a token leaves the requests scheduled before alone. -/
theorem AppendReaches.others (reaches : AppendReaches cfg env i now s s')
    (valid : Valid cfg ids kv Sequence.numCachedTokens (i :: sched) sched s) (mem : j ∈ sched) :
    s'.seqs j = s.seqs j := by
  induction reaches with
  | start => rfl
  | @next s₁ s₂ v reaches _ selected preempted ih =>
    rcases (reaches.valid valid).preemptsVictim selected preempted with
      ⟨-, notScheduled, preempts, -⟩
    rcases preempts.seqs with ⟨seq, keep, seqs, -⟩
    have differ : j ≠ v := by
      rintro rfl
      exact notScheduled mem
    rw [seqs, Function.update_of_ne differ]
    exact ih

/-! ## One pass of `_schedule_once` -/

/--
The states which a pass of `_schedule_once` reaches, with the requests which have joined its batch:
at the heads of the iterations of its loops, and while it makes room for a token.
-/
inductive Collects (cfg : Config) (env : ScheduleEnv cfg) (now : ℚ) (s : Scheduler) :
    Scheduler → List SeqId → Prop
  | prefill {st : PrefillState}
      (prefers :
        shouldSchedulePrefill cfg s.estimator s.seqs s.stepId now s.waiting s.running = true)
      (reaches : PrefillState.Reaches cfg env now (.start s) st) :
      Collects cfg env now s st.scheduler st.scheduledSeqs
  | decode {s₁ s₂ : Scheduler} {sched : List SeqId}
      (prefilled : s.prefillPhase cfg env now = .ok (s₁, []))
      (reaches : DecodeReaches cfg env now s₁ s₂ sched) : Collects cfg env now s s₂ sched
  | makeRoom {s₁ s₂ s₃ s₄ : Scheduler} {sched : List SeqId} {i : SeqId}
      (prefilled : s.prefillPhase cfg env now = .ok (s₁, []))
      (reaches : DecodeReaches cfg env now s₁ s₂ sched) (short : sched.length < cfg.maxNumSeqs)
      (selected : selectNext cfg s₂.estimator s₂.seqs s₂.stepId now s₂.running = some i)
      (compressed : (s₂.selectDecode cfg i now).maybeCompress cfg i = .ok s₃)
      (room : AppendReaches cfg env i now s₃ s₄) : Collects cfg env now s s₄ sched

/-- The two loops of a pass. -/
theorem scheduleOnce_loops {outcome : ScheduleOutcome}
    (valid : Valid cfg ids kv Sequence.numCachedTokens [] [] s)
    (once : s.scheduleOnce cfg env now = .ok (s', outcome)) :
    (∃ st : PrefillState,
        s.nextStep.prefillPhase cfg env now = .ok (st.scheduler, st.scheduledSeqs) ∧
        st.scheduledSeqs ≠ [] ∧ s' = st.scheduler ∧ outcome = .batch st.scheduledSeqs true) ∨
      ∃ s₁ s₂ sched retry, s.nextStep.prefillPhase cfg env now = .ok (s₁, []) ∧
        DecodeValid cfg ids kv [] s₁ ∧
        decodeLoop cfg env now (s₁.running.length + 1) s₁ [] false = .ok (s₂, sched, retry) ∧
        s'.seqs = s₂.seqs ∧ s'.pendingRestores = s₂.pendingRestores ∧ outcome.seqs = sched ∧
        (sched ≠ [] → outcome = .batch sched false) := by
  rcases valid.nextStep.prefillPhase env now with ⟨st, phase, prefills⟩
  change (s.nextStep.prefillPhase cfg env now >>= _) = _ at once
  rw [phase, Py.ok_bind] at once
  dsimp only at once
  split at once
  · next batched =>
    cases once
    exact .inl ⟨st, phase, batched, rfl, rfl⟩
  · next unbatched =>
    have none : st.scheduledSeqs = [] := not_not.mp unbatched
    rcases Py.exists_of_bind once with ⟨⟨s₂, sched, retry⟩, looped, rest⟩
    have valid' := Prefills.valid prefills valid.nextStep
    rw [none] at phase
    refine .inr ⟨st.scheduler, s₂, sched, retry, phase, valid'.decodeValid none, looped, ?_⟩
    dsimp only at rest
    split at rest
    · next waits =>
      cases rest
      exact ⟨rfl, rfl, waits.2.symm, fun batched => absurd waits.2 batched⟩
    split at rest
    · next nothing =>
      split at rest
      · cases rest
        exact ⟨rfl, rfl, nothing.symm, fun batched => absurd nothing batched⟩
      · cases rest
        exact ⟨rfl, rfl, nothing.symm, fun batched => absurd nothing batched⟩
    · cases rest
      exact ⟨rfl, rfl, rfl, fun _ => rfl⟩

/-- The end of a prefill phase is the end of its loop. -/
theorem prefillPhase_loop
    (prefers : shouldSchedulePrefill cfg s.estimator s.seqs s.stepId now s.waiting s.running = true)
    (prefilled : s.prefillPhase cfg env now = .ok (s', sched)) :
    ∃ st fuel, PrefillState.loop cfg env now fuel (.start s) = .ok st ∧ st.scheduler = s' ∧
      st.scheduledSeqs = sched := by
  rw [Scheduler.prefillPhase, if_pos prefers] at prefilled
  rcases Py.exists_of_bind prefilled with ⟨st, looped, returned⟩
  cases returned
  exact ⟨st, _, looped, rfl, rfl⟩

/--
A request which has joined the batch of a pass is in the batch which the pass returns, and its
record has not changed since.
-/
theorem Collects.kept {outcome : ScheduleOutcome}
    (collects : Collects cfg env now s.nextStep s' sched)
    (valid : Valid cfg ids kv Sequence.numCachedTokens [] [] s)
    (once : s.scheduleOnce cfg env now = .ok (s'', outcome)) (mem : i ∈ sched) :
    i ∈ outcome.seqs ∧ (s'.seqs i).SameButBudget (s''.seqs i) := by
  have decoded : ∀ {s₁ s₂ : Scheduler}, s.nextStep.prefillPhase cfg env now = .ok (s₁, []) →
      DecodeReaches cfg env now s₁ s₂ sched → DecodeValid cfg ids kv sched s₂ ∧
        i ∈ outcome.seqs ∧ s''.seqs i = s₂.seqs i := by
    intro s₁ s₂ prefilled reaches
    rcases scheduleOnce_loops valid once with ⟨st, phase, batched, -⟩ |
      ⟨s₁', s₃, sched', retry, phase, decodeValid, looped, seqs, -, returned, -⟩
    · rw [prefilled, Except.ok.injEq, Prod.mk.injEq] at phase
      exact absurd phase.2.symm batched
    · rw [prefilled] at phase
      cases phase
      rcases reaches.loop decodeValid (Nat.lt_succ_self _) looped with ⟨retry, decodes⟩
      refine ⟨reaches.valid decodeValid, ?_, ?_⟩
      · rw [returned]
        exact decodes.sched_le.subset mem
      · rw [seqs]
        exact decodes.kept mem
  cases collects with
  | @prefill st prefers reaches =>
    have kept : ∀ s₁ batch, s.nextStep.prefillPhase cfg env now = .ok (s₁, batch) →
        i ∈ batch ∧ (st.scheduler.seqs i).SameButBudget (s₁.seqs i) := by
      intro s₁ batch prefilled
      rcases prefillPhase_loop prefers prefilled with ⟨st', fuel, looped, rfl, rfl⟩
      rcases reaches.loop looped with ⟨fuel', rest⟩
      have valid' := reaches.valid (PrefillState.start_valid valid.nextStep)
      exact PrefillState.loop_keeps valid' rest i mem
    rcases scheduleOnce_loops valid once with ⟨st', phase, -, rfl, rfl⟩ | ⟨s₁, -, -, -, phase, -⟩
    · exact kept _ _ phase
    · exact absurd (kept _ _ phase).1 List.not_mem_nil
  | decode prefilled reaches =>
    rcases decoded prefilled reaches with ⟨-, inside, same⟩
    rw [same]
    exact ⟨inside, .refl _⟩
  | @makeRoom s₁ s₂ s₃ s₄ sched v prefilled reaches short selected compressed room =>
    rcases decoded prefilled reaches with ⟨decodeValid, inside, same⟩
    rcases decodeValid.select selected compressed with ⟨valid₃, touches⟩
    rcases touches.seqs with ⟨seq, seqs, -⟩
    have differ : i ≠ v := by
      rintro rfl
      exact decodeValid.notRunning mem (selectNext_mem selected)
    have before : s₃.seqs i = s₂.seqs i := by
      rw [seqs, Function.update_of_ne differ]
      exact Function.update_of_ne differ _ _
    rw [same, room.others valid₃ mem, before]
    exact ⟨inside, .refl _⟩

/-! ## The shape of a batch -/

/-- The shape of a batch which `schedule()` returns with the state `s`. -/
structure BatchShape (cfg : Config) (s : Scheduler) (seqs : List SeqId) (isPrefill : Bool) :
    Prop where
  distinct : seqs.Nodup
  length : seqs.length ≤ cfg.maxNumSeqs
  scheduled : ∀ i ∈ seqs, 0 < (s.seqs i).numScheduledTokens ∧
    (s.seqs i).numCachedTokens + (s.seqs i).numScheduledTokens ≤ (s.seqs i).numTokens
  prefill : isPrefill = true →
    (seqs.map fun i => (s.seqs i).numScheduledTokens).sum ≤ cfg.maxNumBatchedTokens ∧
      ((∀ i ∈ seqs,
          (s.seqs i).numCachedTokens + (s.seqs i).numScheduledTokens = (s.seqs i).numTokens ∧
            (s.seqs i).status = .running ∧ i ∈ s.running) ∨
        ∃ i, seqs = [i] ∧
          (s.seqs i).numCachedTokens + (s.seqs i).numScheduledTokens < (s.seqs i).numTokens ∧
          (s.seqs i).status = .waiting ∧ i ∈ s.waiting ∧
          (s.seqs i).blockTable.length = (s.seqs i).numBlocks cfg)
  decode : isPrefill = false → ∀ i ∈ seqs,
    (s.seqs i).numScheduledTokens = 1 ∧ (s.seqs i).numCachedTokens + 1 = (s.seqs i).numTokens

/-- The requests of a prefill batch run, or the batch is one chunk of a waiting request. -/
theorem Valid.wholeOrPart (valid : Valid cfg ids kv Sequence.numCachedTokens [] batch s)
    (single : ∀ i ∈ batch, (s.seqs i).status = .running ∨ batch = [i]) :
    (∀ i ∈ batch,
        (s.seqs i).numCachedTokens + (s.seqs i).numScheduledTokens = (s.seqs i).numTokens ∧
          (s.seqs i).status = .running ∧ i ∈ s.running) ∨
      ∃ i, batch = [i] ∧
        (s.seqs i).numCachedTokens + (s.seqs i).numScheduledTokens < (s.seqs i).numTokens ∧
        (s.seqs i).status = .waiting ∧ i ∈ s.waiting ∧
        (s.seqs i).blockTable.length = (s.seqs i).numBlocks cfg := by
  by_cases all : ∀ i ∈ batch, (s.seqs i).status = .running
  · left
    intro i mem
    have status := all i mem
    rcases valid.scheduled_phase mem with ⟨known, scheduled, ⟨waits, -⟩ | ⟨-, running⟩⟩
    · rw [status] at waits
      cases waits
    · have queued := valid.mem_running.mpr ⟨known, status⟩
      rw [List.append_nil] at queued
      exact ⟨running.complete scheduled, status, queued⟩
  · right
    simp only [not_forall] at all
    rcases all with ⟨i, mem, stays⟩
    rcases valid.scheduled_phase mem with ⟨known, scheduled, ⟨status, waiting⟩ | ⟨status, -⟩⟩
    · refine ⟨i, (single i mem).resolve_left stays, waiting.short, status, ?_, ?_⟩
      · exact valid.mem_waiting.mpr ⟨known, status⟩
      · exact waiting.full scheduled
    · exact absurd status stays

/-- A pass which returns a batch gives it its shape. -/
theorem scheduleOnce_shape {isPrefill : Bool}
    (valid : Valid cfg ids kv Sequence.numCachedTokens [] [] s)
    (once : s.scheduleOnce cfg env now = .ok (s', .batch batch isPrefill)) (nonempty : batch ≠ []) :
    BatchShape cfg s' batch isPrefill := by
  have returns := (Py.of_ok_pair once (valid.scheduleOnce env now)).returns valid
  have valid' : Valid cfg ids kv Sequence.numCachedTokens [] batch s' := returns.valid
  have within : ∀ i ∈ batch, 0 < (s'.seqs i).numScheduledTokens ∧
      (s'.seqs i).numCachedTokens + (s'.seqs i).numScheduledTokens ≤ (s'.seqs i).numTokens :=
    fun i mem => ⟨(valid'.scheduled_phase mem).2.1, valid'.computedTokens_le mem⟩
  rcases scheduleOnce_loops valid once with ⟨st, phase, -, rfl, same⟩ |
    ⟨s₁, s₂, sched, retry, -, decodeValid, looped, seqs, -, rfl, same⟩
  · cases same
    have prefers : shouldSchedulePrefill cfg s.nextStep.estimator s.nextStep.seqs s.nextStep.stepId
        now s.nextStep.waiting s.nextStep.running = true := by
      by_contra skips
      rw [prefillPhase, if_neg skips, Except.ok.injEq, Prod.mk.injEq] at phase
      exact nonempty phase.2.symm
    rcases prefillPhase_loop prefers phase with ⟨st', fuel, shaped, scheduler, scheduledSeqs⟩
    replace shaped := PrefillState.loop_shaped (PrefillState.start_shaped cfg s.nextStep)
      (PrefillState.start_valid valid.nextStep) shaped
    refine ⟨valid'.batch_distinct, ?_, within, fun _ => ⟨?_, ?_⟩, nofun⟩
    · rw [← scheduledSeqs]
      exact shaped.length
    · rw [← scheduler, ← scheduledSeqs, ← shaped.total]
      exact shaped.bound
    · apply valid'.wholeOrPart
      rw [← scheduler, ← scheduledSeqs]
      exact shaped.single
  · cases same nonempty
    rcases decodeLoop_spec env now _ s₁ [] false decodeValid (Nat.lt_succ_self _) with
      ⟨_, _, _, looped', decodes⟩
    rw [looped] at looped'
    cases looped'
    refine ⟨valid'.batch_distinct, decodes.length_le (Nat.zero_le _), within, nofun, ?_⟩
    intro _ i mem
    rw [seqs]
    rcases (decodes.valid.runReady mem).2.decode rfl with ⟨single, complete, -⟩
    rw [Sequence.computedTokens, single] at complete
    exact ⟨single, complete⟩

/-- `schedule()` returns what its first pass returns, or what its second pass returns. -/
theorem schedule_passes {outcome : ScheduleOutcome}
    (scheduled : s.schedule cfg env = .ok (s', outcome)) :
    s.scheduleOnce cfg env env.now = .ok (s', outcome) ∨
      ∃ s₁, s.scheduleOnce cfg env env.now = .ok (s₁, .retry) ∧
        s₁.scheduleOnce cfg env env.retryNow = .ok (s', outcome) := by
  rcases Py.exists_of_bind scheduled with ⟨⟨s₁, outcome₁⟩, first, rest⟩
  dsimp only at rest
  split at rest
  · cases rest
    exact .inl first
  · next retries =>
    rcases Py.exists_of_bind rest with ⟨⟨s₂, outcome₂⟩, second, returned⟩
    rw [not_not.mp retries] at first
    dsimp only at returned
    split at returned
    · cases returned
      exact .inr ⟨s₁, first, second⟩
    · cases returned

end Scheduler

namespace System

open Scheduler

variable {cfg : Config} {env : ScheduleEnv cfg} {sys : System} {s' : Scheduler}
  {seqs : List SeqId} {isPrefill : Bool}

/--
A batch which `schedule()` returns has its shape, and every request which joins a batch during the
call is in that batch, with the record with which it joined up to `last_budget_ms`: it keeps its
pages and is not preempted.
-/
theorem batch_shape (reachable : Reachable cfg sys) (idle : sys.inFlight = none)
    (scheduled : sys.scheduler.schedule cfg env = .ok (s', .batch seqs isPrefill))
    (nonempty : seqs ≠ []) :
    BatchShape cfg s' seqs isPrefill ∧
      ∀ s now t sched, StartsOnce cfg env sys s now → Collects cfg env now s t sched →
        ∀ i ∈ sched, i ∈ seqs ∧ (t.seqs i).SameButBudget (s'.seqs i) := by
  have valid := reachable.valid.scheduler
  rw [batch_of_none idle] at valid
  rcases schedule_passes scheduled with once | ⟨s₁, first, second⟩
  · refine ⟨scheduleOnce_shape valid once nonempty, ?_⟩
    intro s now t sched starts collects i mem
    cases starts with
    | first _ => exact collects.kept valid once mem
    | retry _ retries =>
      rw [once] at retries
      cases retries
  · have valid₁ : s₁.Valid cfg sys.known.toFinset sys.kv Sequence.numCachedTokens [] [] :=
      ((Py.of_ok_pair first (valid.scheduleOnce env env.now)).returns valid).valid
    refine ⟨scheduleOnce_shape valid₁ second nonempty, ?_⟩
    intro s now t sched starts collects i mem
    cases starts with
    | first _ => exact absurd (collects.kept valid first mem).1 List.not_mem_nil
    | retry _ retries =>
      rw [first] at retries
      cases retries
      exact collects.kept valid₁ second mem

/-- Two tokens in a step. -/
def twoTokens : Config := { defaultConfig 2 4 4 two_le_two with maxNumBatchedTokens := 2 }

/-- Two requests, the first one with a prompt of three tokens. -/
def twoTokensRun : System := (init twoTokens).runOps twoTokens
  [.add (plainRequest 0 3 8) 0, .add (plainRequest 1 1 8) 0]

/-- The batch is the first chunk of the first prompt. -/
theorem batch_shape_twoTokens : ∃ s',
    twoTokensRun.scheduler.schedule twoTokens (idleEnv _) = .ok (s', .batch [0] true) ∧
      BatchShape twoTokens s' [0] true := by
  have reachable : Reachable twoTokens twoTokensRun := ReachableBy.runOps .init (by decide +kernel)
  have result : (twoTokensRun.scheduler.schedule twoTokens (idleEnv _)).map Prod.snd =
      .ok (.batch [0] true) := by decide +kernel
  rcases exists_of_map result with ⟨⟨s', outcome⟩, scheduled, rfl⟩
  have idle : twoTokensRun.inFlight = none := by decide +kernel
  exact ⟨s', scheduled, (batch_shape reachable idle scheduled (by simp)).1⟩

end System

end NanoVllm
