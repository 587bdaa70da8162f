import NanoVllm.Reclaim.Accounting
import NanoVllm.Engine.Phases

/-!
# The log of the reclaims

The reclaims which a part of `schedule()` makes, in their order, each with the cached tokens the
request has just before it. The log follows the run of the code; what follows an exception is
empty.
-/

namespace NanoVllm

open BlockManager HighWater

namespace Scheduler

variable {cfg : Config} {env : ScheduleEnv cfg} {ids : Finset SeqId} {kv : KvStore}
  {s s' : Scheduler} {i j : SeqId} {held batch sched sched' : List SeqId} {now : ℚ}
  {log : List (SeqId × ℕ)} {counted : SeqId → ℕ} {retry retry' : Bool}

/-- The reclaims after a call. -/
def reclaimsAfter {α : Type} (result : Py α) (next : α → List (SeqId × ℕ)) : List (SeqId × ℕ) :=
  match result with
  | .ok a => next a
  | .error _ => []

@[simp]
theorem reclaimsAfter_ok {α : Type} (a : α) (next : α → List (SeqId × ℕ)) :
    reclaimsAfter (.ok a) next = next a := rfl

/-- The reclaims of `_ensure_resume_capacity`. -/
def resumeReclaims (cfg : Config) (i : SeqId) (now : ℚ) : ℕ → Scheduler → List (SeqId × ℕ)
  | 0, _ => []
  | fuel + 1, s =>
      if (s.seqs i).blockTable = [] then []
      else reclaimsAfter (s.canResume cfg i) fun (s, resumable) =>
        if resumable then []
        else
          match s.reclaimVictim cfg i now with
          | some victim =>
              s.reclaimEntry victim ::
                reclaimsAfter (s.reclaimFully cfg victim) (resumeReclaims cfg i now fuel)
          | none =>
              if s.running ≠ [] then []
              else
                s.reclaimEntry i ::
                  reclaimsAfter (s.reclaimFully cfg i) (resumeReclaims cfg i now fuel)

/-- The reclaims of an iteration of the prefill loop. -/
def PrefillState.iterateReclaims (cfg : Config) (st : PrefillState) (now : ℚ) :
    List (SeqId × ℕ) :=
  match st.eligible cfg now with
  | none => []
  | some eligible =>
      let s := st.scheduler
      match selectNext cfg s.estimator s.seqs s.stepId now eligible with
      | none => []
      | some i =>
          let s := s.withBudget i (budgetMs cfg s.estimator (s.seqs i) s.stepId now)
          if cfg.maxNumBatchedTokens - st.numBatchedTokens = 0 ∨ (s.seqs i).blockTable = [] then []
          else resumeReclaims cfg i now (s.waiting.length + 2) s

/-- The reclaims of the prefill loop. -/
def PrefillState.loopReclaims (cfg : Config) (env : ScheduleEnv cfg) (now : ℚ) :
    ℕ → PrefillState → List (SeqId × ℕ)
  | 0, _ => []
  | fuel + 1, st =>
      if st.scheduler.waiting = [] ∨ cfg.maxNumSeqs ≤ st.scheduledSeqs.length then []
      else st.iterateReclaims cfg now ++ reclaimsAfter (st.iterate cfg env now) fun
        | .again st => loopReclaims cfg env now fuel st
        | .leave _ => []

/-- The reclaims of the prefill phase. -/
def prefillReclaims (cfg : Config) (env : ScheduleEnv cfg) (s : Scheduler) (now : ℚ) :
    List (SeqId × ℕ) :=
  if shouldSchedulePrefill cfg s.estimator s.seqs s.stepId now s.waiting s.running then
    PrefillState.loopReclaims cfg env now (2 * s.waiting.length + 3) (.start s)
  else []

/-- The preemptions which make room for the next token of a request. -/
def appendReclaims (cfg : Config) (env : ScheduleEnv cfg) (i : SeqId) (now : ℚ) :
    ℕ → Scheduler → List (SeqId × ℕ)
  | 0, _ => []
  | fuel + 1, s =>
      if s.blockManager.canAppend cfg (s.seqs i) then []
      else
        match selectPreemptionVictim cfg s.estimator s.seqs s.stepId now s.running with
        | some victim =>
            s.reclaimEntry victim :: reclaimsAfter ((s.takeOut victim).preempt cfg env victim)
              (appendReclaims cfg env i now fuel)
        | none => [s.reclaimEntry i]

/-- The preemptions of the decode loop. -/
def decodeReclaims (cfg : Config) (env : ScheduleEnv cfg) (now : ℚ) :
    ℕ → Scheduler → List SeqId → List (SeqId × ℕ)
  | 0, _, _ => []
  | fuel + 1, s, scheduledSeqs =>
      if s.running = [] ∨ cfg.maxNumSeqs ≤ scheduledSeqs.length then []
      else
        match selectNext cfg s.estimator s.seqs s.stepId now s.running with
        | none => []
        | some i => reclaimsAfter ((s.selectDecode cfg i now).maybeCompress cfg i) fun s =>
            appendReclaims cfg env i now (s.running.length + 1) s ++
              reclaimsAfter (appendCapacityLoop cfg env i now (s.running.length + 1) s)
                fun (s, scheduled) =>
                  if scheduled then reclaimsAfter (s.scheduleDecode cfg i) fun s =>
                    decodeReclaims cfg env now fuel s (scheduledSeqs ++ [i])
                  else decodeReclaims cfg env now fuel s scheduledSeqs

/-- The reclaims of `_schedule_once`. -/
def scheduleOnceReclaims (cfg : Config) (env : ScheduleEnv cfg) (s : Scheduler) (now : ℚ) :
    List (SeqId × ℕ) :=
  s.nextStep.prefillReclaims cfg env now ++
    reclaimsAfter (s.nextStep.prefillPhase cfg env now) fun (s, scheduledSeqs) =>
      if scheduledSeqs ≠ [] then []
      else decodeReclaims cfg env now (s.running.length + 1) s []

/-- The reclaims of `schedule`. -/
def scheduleReclaims (cfg : Config) (env : ScheduleEnv cfg) (s : Scheduler) : List (SeqId × ℕ) :=
  s.scheduleOnceReclaims cfg env env.now ++
    reclaimsAfter (s.scheduleOnce cfg env env.now) fun (s, outcome) =>
      if outcome ≠ .retry then [] else s.scheduleOnceReclaims cfg env env.retryNow

/-! ## The counters follow the log -/

theorem resumeCapacityLoop_accounted (now : ℚ) (fuel : ℕ) :
    ∀ (s : Scheduler) (log : List (SeqId × ℕ)) (ready : Bool),
      Valid cfg ids kv Sequence.numCachedTokens held batch s → i ∈ s.waiting →
      (∀ j ∈ s.waiting, (s.seqs j).numScheduledTokens = 0) → Accounted ids log counted s →
      resumeCapacityLoop cfg i now fuel s = .ok (s', ready) →
      Accounted ids (log ++ resumeReclaims cfg i now fuel s) counted s' := by
  induction fuel with
  | zero =>
    intro s log ready _ _ _ _ looped
    cases looped
  | succ fuel ih =>
    intro s log ready valid mem idle accounted looped
    rw [resumeCapacityLoop] at looped
    rw [resumeReclaims]
    rcases valid.canResume mem with ⟨bm', resumable, checked, valid', -⟩
    have looked : Accounted ids log counted { s with blockManager := bm' } :=
      accounted.regains (.of_seqs rfl)
    have round : ∀ victim ∈ s.waiting, (do
          let s ← reclaimFully cfg { s with blockManager := bm' } victim
          resumeCapacityLoop cfg i now fuel s) = Except.ok (s', ready) →
        Accounted ids (log ++ ({ s with blockManager := bm' } : Scheduler).reclaimEntry victim ::
          reclaimsAfter (reclaimFully cfg { s with blockManager := bm' } victim)
            (resumeReclaims cfg i now fuel)) counted s' := by
      intro victim mem' again
      rcases valid'.waiting mem' with ⟨known, status, phase⟩
      rcases valid'.reclaimFully mem' (idle victim mem') with
        ⟨bm'', freed, invalidated, reclaimed, valid''⟩
      have notRestoring : (s.seqs victim).status ≠ .waitingForKv := by
        rw [show (s.seqs victim).status = .waiting from status]
        simp
      rcases @reclaimFully_givesUp cfg { s with blockManager := bm' } _ victim notRestoring
        reclaimed with ⟨seq, seqs, givesUp⟩
      have short : (s.seqs victim).numCachedTokens < (s.seqs victim).numTokens :=
        (Nat.le_add_right _ _).trans_lt phase.short
      have next := looked.givesUp known seqs givesUp notRestoring short
      rw [reclaimed, Py.ok_bind] at again
      rw [reclaimed, reclaimsAfter_ok, ← List.singleton_append, ← List.append_assoc]
      refine ih _ _ ready valid'' mem ?_ next again
      intro j waits
      by_cases self : j = victim
      · subst self
        simp only [Scheduler.put, Function.update_self]
        exact idle j waits
      · simp only [Scheduler.put, Function.update_of_ne self]
        exact idle j waits
    split at looped
    · next table =>
      rw [if_pos table, List.append_nil]
      exact accounted.regains (canResume_regains looped)
    · next table =>
      rw [if_neg table, checked, reclaimsAfter_ok]
      rw [checked, Py.ok_bind] at looped
      simp only at looped ⊢
      split at looped
      · next able =>
        rw [if_pos able, List.append_nil]
        exact looked.regains (canResume_regains looped)
      · next lacking =>
        rw [if_neg lacking]
        cases chosen : reclaimVictim cfg { s with blockManager := bm' } i now with
        | some victim =>
          rw [chosen] at looped
          exact round victim (mem_owners.mp (reclaimVictim_mem chosen).1).1 looped
        | none =>
          rw [chosen] at looped
          simp only at looped ⊢
          split at looped
          · next busy =>
            rw [if_pos busy, List.append_nil]
            cases looped
            exact looked
          · next alone =>
            rw [if_neg alone]
            exact round i mem looped

theorem withBudget_regains (budget : Option ℚ) : Regains s (s.withBudget i budget) :=
  .of_update rfl (.of_same rfl rfl rfl rfl rfl)

namespace PrefillState

variable {st st' : PrefillState} {control : PrefillControl}

/-- A waiting request without pages has no cached tokens. -/
theorem Valid.uncached (valid : st.Valid cfg ids kv) (mem : i ∈ st.scheduler.waiting)
    (table : (st.scheduler.seqs i).blockTable = []) :
    (st.scheduler.seqs i).numCachedTokens = 0 := by
  rcases valid.scheduler.waiting mem with ⟨-, -, phase⟩
  have pages := @Sequence.numBlocks_pos cfg _ (Nat.zero_lt_of_lt phase.short)
  rw [(phase.retained (by rwa [table])).1, table, List.length_nil, Nat.zero_mul]

theorem iterate_accounted (valid : st.Valid cfg ids kv)
    (accounted : Accounted ids log counted st.scheduler)
    (iterated : st.iterate cfg env now = .ok control) :
    Accounted ids (log ++ st.iterateReclaims cfg now) counted control.state.scheduler := by
  rw [iterate] at iterated
  rw [iterateReclaims]
  cases found : st.eligible cfg now with
  | none =>
    rw [found] at iterated
    cases iterated
    rw [List.append_nil]
    exact accounted
  | some eligible =>
    rw [found] at iterated
    simp only at iterated ⊢
    cases selected : selectNext cfg st.scheduler.estimator st.scheduler.seqs st.scheduler.stepId now
        eligible with
    | none =>
      rw [selected] at iterated
      cases iterated
    | some i =>
      have selects : Selects cfg now st i := ⟨eligible, found, selected⟩
      rcases selects.mem with ⟨mem, -⟩
      rw [selected] at iterated
      simp only at iterated ⊢
      generalize budgetMs cfg st.scheduler.estimator (st.scheduler.seqs i) st.scheduler.stepId now =
        budgetMs at iterated ⊢
      let marked : PrefillState := { st with scheduler := st.scheduler.withBudget i budgetMs }
      have markedValid : marked.Valid cfg ids kv := valid.withBudget mem budgetMs
      have markedAccounted : Accounted ids log counted marked.scheduler :=
        accounted.regains (withBudget_regains budgetMs)
      have status := (markedValid.scheduler.waiting mem).2.1
      change (if cfg.maxNumBatchedTokens - st.numBatchedTokens = 0 then
          Except.ok (.leave marked)
        else if (marked.scheduler.seqs i).blockTable = [] then
          marked.admitFresh cfg env i (cfg.maxNumBatchedTokens - st.numBatchedTokens) now
        else do
          let (s, ready) ← marked.scheduler.ensureResumeCapacity cfg i now
          let st : PrefillState := { marked with scheduler := s }
          if !ready then .ok (.leave st)
          else if (s.seqs i).blockTable = [] then
            st.admitFresh cfg env i (cfg.maxNumBatchedTokens - st.numBatchedTokens) now
          else st.admitResident cfg i (cfg.maxNumBatchedTokens - st.numBatchedTokens) now) = _
        at iterated
      change Accounted ids (log ++ if cfg.maxNumBatchedTokens - st.numBatchedTokens = 0 ∨
        (marked.scheduler.seqs i).blockTable = [] then [] else resumeReclaims cfg i now
          (marked.scheduler.waiting.length + 2) marked.scheduler) counted control.state.scheduler
      split at iterated
      · next spent =>
        rw [if_pos (.inl spent), List.append_nil]
        cases iterated
        exact markedAccounted
      · next remaining =>
        split at iterated
        · next table =>
          rw [if_pos (.inr table), List.append_nil]
          exact markedAccounted.regains
            (admitFresh_regains status (markedValid.uncached mem table) iterated)
        · next table =>
          rw [if_neg (not_or.mpr ⟨remaining, table⟩)]
          have budget : marked.numBatchedTokens < cfg.maxNumBatchedTokens := by
            change st.numBatchedTokens < _
            omega
          have idle : ∀ j ∈ marked.scheduler.waiting,
              (marked.scheduler.seqs j).numScheduledTokens = 0 :=
            fun j mem' => markedValid.idle budget mem'
          rcases markedValid.scheduler.ensureResumeCapacity mem idle table now with
            ⟨s', ready, ensured, valid', reclaims, -⟩
          have reclaimed := resumeCapacityLoop_accounted now _ _ log ready markedValid.scheduler mem
            idle markedAccounted ensured
          have kept : ∀ j ∈ marked.scheduledSeqs, s'.seqs j = marked.scheduler.seqs j := by
            intro j scheduled
            refine (reclaims.seqs j).resolve_right ?_
            intro lost
            exact markedValid.notScheduled budget lost.1 scheduled
          have prepared : ({ marked with scheduler := s' } : PrefillState).Valid cfg ids kv := by
            apply markedValid.withScheduler valid'
            intro j scheduled
            rw [kept j scheduled]
            exact ⟨rfl, rfl⟩
          have mem' : i ∈ s'.waiting := reclaims.waiting ▸ mem
          have status' := (valid'.waiting mem').2.1
          rw [ensured, Py.ok_bind] at iterated
          simp only at iterated
          split at iterated
          · cases iterated
            exact reclaimed
          · split at iterated
            · next empty =>
              exact reclaimed.regains (@admitFresh_regains cfg env i now
                { marked with scheduler := s' } control _ status' (prepared.uncached mem' empty)
                iterated)
            · exact reclaimed.regains (@admitResident_regains cfg i now
                { marked with scheduler := s' } control _ status' iterated)

theorem loop_accounted (env : ScheduleEnv cfg) (now : ℚ) (fuel : ℕ) :
    ∀ (st : PrefillState) (log : List (SeqId × ℕ)), st.Valid cfg ids kv →
      Accounted ids log counted st.scheduler → loop cfg env now fuel st = .ok st' →
      Accounted ids (log ++ loopReclaims cfg env now fuel st) counted st'.scheduler := by
  induction fuel with
  | zero =>
    intro st log _ _ looped
    cases looped
  | succ fuel ih =>
    intro st log valid accounted looped
    rw [loop] at looped
    rw [loopReclaims]
    split at looped
    · next stops =>
      rw [if_pos stops, List.append_nil]
      cases looped
      exact accounted
    · next continues =>
      rw [if_neg continues]
      rcases valid.iterate env now (not_or.mp continues).1 with ⟨control, iterated, -, sound⟩
      have once := iterate_accounted valid accounted iterated
      rw [iterated, Py.ok_bind] at looped
      rw [iterated, reclaimsAfter_ok, ← List.append_assoc]
      cases control with
      | leave st₁ =>
        cases looped
        rw [List.append_nil]
        exact once
      | again st₁ => exact ih st₁ _ sound.valid once looped

end PrefillState

theorem prefillPhase_accounted {scheduledSeqs : List SeqId}
    (valid : Valid cfg ids kv Sequence.numCachedTokens [] [] s)
    (accounted : Accounted ids log counted s)
    (prefilled : s.prefillPhase cfg env now = .ok (s', scheduledSeqs)) :
    Accounted ids (log ++ s.prefillReclaims cfg env now) counted s' := by
  rw [prefillPhase] at prefilled
  rw [prefillReclaims]
  split at prefilled
  · next prefers =>
    rw [if_pos prefers]
    change (PrefillState.loop cfg env now _ (.start s) >>= _) = _ at prefilled
    rcases Py.exists_of_bind prefilled with ⟨st, looped, prefilled⟩
    cases prefilled
    exact PrefillState.loop_accounted env now _ _ _ (PrefillState.start_valid valid) accounted
      looped
  · next avoids =>
    rw [if_neg avoids, List.append_nil]
    cases prefilled
    exact accounted

theorem Valid.preempt_accounted
    (valid : Valid cfg ids kv Sequence.numCachedTokens (i :: held) batch s)
    (notScheduled : i ∉ batch) (accounted : Accounted ids log counted s)
    (preempted : s.preempt cfg env i = .ok s') :
    Accounted ids (log ++ [s.reclaimEntry i]) counted s' := by
  rcases valid.running (List.mem_append_right s.running List.mem_cons_self) with
    ⟨known, status, phase⟩
  have next := phase.next (valid.idle known notScheduled)
  rcases preempt_givesUp status preempted with ⟨seq, seqs, givesUp⟩
  apply accounted.givesUp known seqs givesUp
  · rw [status]
    nofun
  · omega

theorem appendCapacityLoop_accounted (env : ScheduleEnv cfg) (now : ℚ) (fuel : ℕ) :
    ∀ (s : Scheduler) (log : List (SeqId × ℕ)) (scheduled : Bool),
      Valid cfg ids kv Sequence.numCachedTokens (i :: sched) sched s →
      Accounted ids log counted s →
      appendCapacityLoop cfg env i now fuel s = .ok (s', scheduled) →
      Accounted ids (log ++ appendReclaims cfg env i now fuel s) counted s' := by
  induction fuel with
  | zero =>
    intro s log scheduled _ _ looped
    cases looped
  | succ fuel ih =>
    intro s log scheduled valid accounted looped
    have distinct := List.nodup_append.mp (valid.distinct .running)
    rw [appendCapacityLoop] at looped
    rw [appendReclaims]
    split at looped
    · next room =>
      rw [if_pos room, List.append_nil]
      cases looped
      exact accounted
    · next lacking =>
      rw [if_neg lacking]
      cases selected : selectPreemptionVictim cfg s.estimator s.seqs s.stepId now s.running with
      | some v =>
        rw [selected] at looped
        have mem := selectPreemptionVictim_mem selected
        have notScheduled : v ∉ sched := by
          intro scheduled'
          exact distinct.2.2 v mem v (List.mem_cons_of_mem i scheduled') rfl
        rcases (valid.takeOut mem).preempt env notScheduled with ⟨s₁, preempted, valid', -⟩
        have taken : Accounted ids log counted (s.takeOut v) := accounted.regains (.of_seqs rfl)
        have once := (valid.takeOut mem).preempt_accounted notScheduled taken preempted
        change ((s.takeOut v).preempt cfg env v >>= _) = _ at looped
        rw [preempted, Py.ok_bind] at looped
        simp only
        rw [preempted, reclaimsAfter_ok, ← List.singleton_append, ← List.append_assoc]
        exact ih s₁ _ scheduled valid' once looped
      | none =>
        rw [selected] at looped
        have notScheduled : i ∉ sched := (List.nodup_cons.mp distinct.2.1).1
        rcases valid.preempt env notScheduled with ⟨s₁, preempted, -⟩
        simp only [preempted, Py.ok_bind] at looped
        cases looped
        exact valid.preempt_accounted notScheduled accounted preempted

theorem decodeLoop_accounted (env : ScheduleEnv cfg) (now : ℚ) (fuel : ℕ) :
    ∀ (s : Scheduler) (sched : List SeqId) (retry : Bool) (log : List (SeqId × ℕ)),
      DecodeValid cfg ids kv sched s → Accounted ids log counted s →
      decodeLoop cfg env now fuel s sched retry = .ok (s', sched', retry') →
      Accounted ids (log ++ decodeReclaims cfg env now fuel s sched) counted s' := by
  induction fuel with
  | zero =>
    intro s sched retry log _ _ looped
    cases looped
  | succ fuel ih =>
    intro s sched retry log valid accounted looped
    rw [decodeLoop] at looped
    rw [decodeReclaims]
    split at looped
    · next stops =>
      rw [if_pos stops, List.append_nil]
      cases looped
      exact accounted
    · next continues =>
      rw [if_neg continues]
      cases selected : selectNext cfg s.estimator s.seqs s.stepId now s.running with
      | none =>
        rw [selected] at looped
        cases looped
      | some i =>
        rw [selected] at looped
        have mem := selectNext_mem selected
        simp only
        change ((s.selectDecode cfg i now).maybeCompress cfg i >>= _) = _ at looped
        rcases valid.prepare mem (budgetMs cfg s.estimator (s.seqs i) s.stepId now) with
          ⟨s₁, compressed, valid₁, touches⟩
        change (s.selectDecode cfg i now).maybeCompress cfg i = .ok s₁ at compressed
        rcases valid.makeRoom mem valid₁ touches env now with
          ⟨s₂, scheduled, room, -, kept, onScheduled, onPreempted⟩
        have selectedAccounted : Accounted ids log counted (s.selectDecode cfg i now) :=
          accounted.regains ((withBudget_regains _).trans (.of_seqs rfl))
        have prepared := selectedAccounted.regains (maybeCompress_regains compressed)
        have evicted := appendCapacityLoop_accounted env now _ s₁ log scheduled valid₁ prepared room
        rw [compressed, Py.ok_bind, room, Py.ok_bind] at looped
        rw [compressed, reclaimsAfter_ok, room, reclaimsAfter_ok, ← List.append_assoc]
        simp only at looped ⊢
        cases scheduled with
        | true =>
          rcases onScheduled rfl with ⟨valid₂, able⟩
          rcases valid.join mem kept valid₂ able with ⟨s₃, decoded, -, valid₃⟩
          simp only [if_true] at looped ⊢
          rw [decoded, Py.ok_bind] at looped
          rw [decoded, reclaimsAfter_ok]
          exact ih s₃ _ retry _ valid₃ (evicted.regains (scheduleDecode_regains decoded)) looped
        | false =>
          simp only [Bool.false_eq_true, if_false] at looped ⊢
          exact ih s₂ sched true _ (onPreempted rfl) evicted looped

theorem scheduleOnce_accounted {outcome : ScheduleOutcome}
    (valid : Valid cfg ids kv Sequence.numCachedTokens [] [] s)
    (accounted : Accounted ids log counted s)
    (scheduled : s.scheduleOnce cfg env now = .ok (s', outcome)) :
    Accounted ids (log ++ s.scheduleOnceReclaims cfg env now) counted s' := by
  rcases valid.nextStep.prefillPhase env now with ⟨st, prefilled, phases⟩
  have stepped : Accounted ids log counted s.nextStep := accounted.regains (.of_seqs rfl)
  have first := prefillPhase_accounted valid.nextStep stepped prefilled
  rw [scheduleOnce] at scheduled
  change (s.nextStep.prefillPhase cfg env now >>= _) = _ at scheduled
  rw [prefilled, Py.ok_bind] at scheduled
  rw [scheduleOnceReclaims, prefilled, reclaimsAfter_ok, ← List.append_assoc]
  simp only at scheduled ⊢
  split at scheduled
  · next batched =>
    rw [if_pos batched, List.append_nil]
    cases scheduled
    exact first
  · next unbatched =>
    rw [if_neg unbatched]
    have valid' : st.Valid cfg ids kv := Prefills.valid phases valid.nextStep
    rcases Py.exists_of_bind scheduled with ⟨⟨s₁, sched, retry⟩, decoded, scheduled⟩
    have second := decodeLoop_accounted env now _ st.scheduler [] false _
      (valid'.decodeValid (not_not.mp unbatched)) first decoded
    simp only at scheduled
    split at scheduled
    · cases scheduled
      exact second
    · split at scheduled
      · split at scheduled
        · cases scheduled
          exact second
        · cases scheduled
          exact second
      · cases scheduled
        exact second.regains (.of_seqs rfl)

theorem schedule_accounted {outcome : ScheduleOutcome}
    (valid : Valid cfg ids kv Sequence.numCachedTokens [] [] s)
    (accounted : Accounted ids log counted s)
    (scheduled : s.schedule cfg env = .ok (s', outcome)) :
    Accounted ids (log ++ s.scheduleReclaims cfg env) counted s' := by
  rw [schedule] at scheduled
  rw [scheduleReclaims]
  rcases valid.scheduleOnce env env.now with ⟨s₁, first, once, schedules⟩
  have firstAccounted := scheduleOnce_accounted valid accounted once
  rw [once, Py.ok_bind] at scheduled
  rw [once, reclaimsAfter_ok, ← List.append_assoc]
  simp only at scheduled ⊢
  split at scheduled
  · next done =>
    rw [if_pos done, List.append_nil]
    cases scheduled
    exact firstAccounted
  · next retries =>
    rw [if_neg retries]
    have valid₁ : Valid cfg ids kv Sequence.numCachedTokens [] [] s₁ := by
      have returns := (schedules.returns valid).valid
      rw [not_not.mp retries] at returns
      exact returns
    rcases Py.exists_of_bind scheduled with ⟨⟨s₂, second⟩, again, scheduled⟩
    simp only at scheduled
    split at scheduled
    · cases scheduled
      exact scheduleOnce_accounted valid₁ firstAccounted again
    · cases scheduled

end Scheduler

end NanoVllm
