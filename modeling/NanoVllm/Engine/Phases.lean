import NanoVllm.Engine.Runs

/-!
# The states inside a schedule call

Between two operations the scheduler is the one of a reachable system. A call of `schedule()`
works in further states: at the head of every iteration of the prefill loop, of the decode loop
and of the loop which makes room for one token. `Passes` collects all of them, by running the
code of each iteration.

The scheduler invariant holds in every state which a run passes.
-/

namespace NanoVllm

namespace Scheduler

variable {cfg : Config} {env : ScheduleEnv cfg} {now : ℚ} {ids : Finset SeqId} {kv : KvStore}
  {held batch sched : List SeqId} {s s' : Scheduler} {i : SeqId}

/-- The heads of the iterations of the prefill loop. -/
inductive PrefillState.Reaches (cfg : Config) (env : ScheduleEnv cfg) (now : ℚ)
    (st : PrefillState) : PrefillState → Prop
  | start : Reaches cfg env now st st
  | next {st₁ st₂ : PrefillState} (reaches : Reaches cfg env now st st₁)
      (continues : st₁.Continues cfg) (iterated : st₁.iterate cfg env now = .ok (.again st₂)) :
      Reaches cfg env now st st₂

/-- The request the decode loop selects, taken out of the running queue. -/
def selectDecode (cfg : Config) (s : Scheduler) (i : SeqId) (now : ℚ) : Scheduler :=
  (s.withBudget i (budgetMs cfg s.estimator (s.seqs i) s.stepId now)).takeOut i

/-- The heads of the iterations of the decode loop, with the requests scheduled so far. -/
inductive DecodeReaches (cfg : Config) (env : ScheduleEnv cfg) (now : ℚ) (s : Scheduler) :
    Scheduler → List SeqId → Prop
  | start : DecodeReaches cfg env now s s []
  | scheduled {s₁ s₂ s₃ s₄ : Scheduler} {sched : List SeqId} {i : SeqId}
      (reaches : DecodeReaches cfg env now s s₁ sched) (short : sched.length < cfg.maxNumSeqs)
      (selected : selectNext cfg s₁.estimator s₁.seqs s₁.stepId now s₁.running = some i)
      (compressed : (s₁.selectDecode cfg i now).maybeCompress cfg i = .ok s₂)
      (room : appendCapacityLoop cfg env i now (s₂.running.length + 1) s₂ = .ok (s₃, true))
      (decoded : s₃.scheduleDecode cfg i = .ok s₄) :
      DecodeReaches cfg env now s s₄ (sched ++ [i])
  | preempted {s₁ s₂ s₃ : Scheduler} {sched : List SeqId} {i : SeqId}
      (reaches : DecodeReaches cfg env now s s₁ sched) (short : sched.length < cfg.maxNumSeqs)
      (selected : selectNext cfg s₁.estimator s₁.seqs s₁.stepId now s₁.running = some i)
      (compressed : (s₁.selectDecode cfg i now).maybeCompress cfg i = .ok s₂)
      (room : appendCapacityLoop cfg env i now (s₂.running.length + 1) s₂ = .ok (s₃, false)) :
      DecodeReaches cfg env now s s₃ sched

/-- The heads of the iterations of the loop which makes room for the next token of `i`. -/
inductive AppendReaches (cfg : Config) (env : ScheduleEnv cfg) (i : SeqId) (now : ℚ)
    (s : Scheduler) : Scheduler → Prop
  | start : AppendReaches cfg env i now s s
  | next {s₁ s₂ : Scheduler} {v : SeqId} (reaches : AppendReaches cfg env i now s s₁)
      (lacking : s₁.blockManager.canAppend cfg (s₁.seqs i) = false)
      (selected :
        selectPreemptionVictim cfg s₁.estimator s₁.seqs s₁.stepId now s₁.running = some v)
      (preempted : (s₁.takeOut v).preempt cfg env v = .ok s₂) :
      AppendReaches cfg env i now s s₂

/-! ## The invariant -/

theorem PrefillState.Reaches.valid {st st' : PrefillState} (reaches : st.Reaches cfg env now st')
    (valid : st.Valid cfg ids kv) : st'.Valid cfg ids kv := by
  induction reaches with
  | start => exact valid
  | next _ continues iterated ih =>
    rcases Py.of_ok iterated (ih.iterate env now continues.1) with ⟨-, sound⟩
    exact sound.valid

/-- The state in which the decode loop has selected and compressed a request. -/
theorem DecodeValid.select (valid : DecodeValid cfg ids kv sched s)
    (selected : selectNext cfg s.estimator s.seqs s.stepId now s.running = some i)
    (compressed : (s.selectDecode cfg i now).maybeCompress cfg i = .ok s') :
    Valid cfg ids kv Sequence.numCachedTokens (i :: sched) sched s' ∧
      Touches (s.selectDecode cfg i now) i s' := by
  rcases Py.of_ok compressed (valid.prepare (selectNext_mem selected) _) with ⟨valid', touches⟩
  exact ⟨valid', touches⟩

/-- An iteration of the decode loop which schedules its request. -/
theorem DecodeValid.schedules (valid : DecodeValid cfg ids kv sched s) {s₁ s₂ : Scheduler}
    (selected : selectNext cfg s.estimator s.seqs s.stepId now s.running = some i)
    (compressed : (s.selectDecode cfg i now).maybeCompress cfg i = .ok s₁)
    (room : appendCapacityLoop cfg env i now (s₁.running.length + 1) s₁ = .ok (s₂, true))
    (decoded : s₂.scheduleDecode cfg i = .ok s') :
    Touches (s.selectDecode cfg i now) i s₁ ∧ Evicts cfg now i s₁ s₂ true ∧
      SchedulesToken s₂ i s' ∧ DecodeValid cfg ids kv (sched ++ [i]) s' := by
  have mem := selectNext_mem selected
  rcases valid.select selected compressed with ⟨valid₁, touches⟩
  rcases Py.of_ok_pair room (valid.makeRoom mem valid₁ touches env now) with
    ⟨evicts, kept, onScheduled, -⟩
  rcases onScheduled rfl with ⟨valid₂, canAppend⟩
  rcases Py.of_ok decoded (valid.join mem kept valid₂ canAppend) with ⟨schedules, valid'⟩
  exact ⟨touches, evicts, schedules, valid'⟩

/-- An iteration of the decode loop which preempts its request. -/
theorem DecodeValid.preempts (valid : DecodeValid cfg ids kv sched s) {s₁ : Scheduler}
    (selected : selectNext cfg s.estimator s.seqs s.stepId now s.running = some i)
    (compressed : (s.selectDecode cfg i now).maybeCompress cfg i = .ok s₁)
    (room : appendCapacityLoop cfg env i now (s₁.running.length + 1) s₁ = .ok (s', false)) :
    Touches (s.selectDecode cfg i now) i s₁ ∧ Evicts cfg now i s₁ s' false ∧
      DecodeValid cfg ids kv sched s' := by
  rcases valid.select selected compressed with ⟨valid₁, touches⟩
  rcases Py.of_ok_pair room (valid.makeRoom (selectNext_mem selected) valid₁ touches env now) with
    ⟨evicts, -, -, onPreempted⟩
  exact ⟨touches, evicts, onPreempted rfl⟩

/-- Making room for the next token of `i` preempts a request which is not in the batch. -/
theorem Valid.preemptsVictim {v : SeqId}
    (valid : Valid cfg ids kv Sequence.numCachedTokens (i :: sched) sched s)
    (selected : selectPreemptionVictim cfg s.estimator s.seqs s.stepId now s.running = some v)
    (preempted : (s.takeOut v).preempt cfg env v = .ok s') :
    v ∈ s.running ∧ v ∉ sched ∧ Preempts (s.takeOut v) v s' ∧
      Valid cfg ids kv Sequence.numCachedTokens (i :: sched) sched s' := by
  have mem := selectPreemptionVictim_mem selected
  have notScheduled : v ∉ sched := by
    intro scheduled
    have apart := (List.nodup_append.mp (valid.distinct .running)).2.2
    exact apart v mem v (List.mem_cons_of_mem i scheduled) rfl
  rcases Py.of_ok preempted ((valid.takeOut mem).preempt env notScheduled) with ⟨valid', preempts⟩
  exact ⟨mem, notScheduled, preempts, valid'⟩

theorem DecodeReaches.valid (reaches : DecodeReaches cfg env now s s' sched)
    (valid : DecodeValid cfg ids kv [] s) : DecodeValid cfg ids kv sched s' := by
  induction reaches with
  | start => exact valid
  | scheduled _ _ selected compressed room decoded ih =>
    exact (ih.schedules selected compressed room decoded).2.2.2
  | preempted _ _ selected compressed room ih => exact (ih.preempts selected compressed room).2.2

theorem AppendReaches.valid (reaches : AppendReaches cfg env i now s s')
    (valid : Valid cfg ids kv Sequence.numCachedTokens (i :: sched) sched s) :
    Valid cfg ids kv Sequence.numCachedTokens (i :: sched) sched s' := by
  induction reaches with
  | start => exact valid
  | next _ _ selected preempted ih => exact (ih.preemptsVictim selected preempted).2.2.2

end Scheduler

namespace System

variable {cfg : Config} {env : ScheduleEnv cfg} {now : ℚ} {sys : System} {s : Scheduler}

/-- The states in which the body of `_schedule_once` runs, the second time after a retry. -/
inductive StartsOnce (cfg : Config) (env : ScheduleEnv cfg) (sys : System) :
    Scheduler → ℚ → Prop
  | first (idle : sys.inFlight = none) : StartsOnce cfg env sys sys.scheduler.nextStep env.now
  | retry {s : Scheduler} (idle : sys.inFlight = none)
      (retries : sys.scheduler.scheduleOnce cfg env env.now = .ok (s, .retry)) :
      StartsOnce cfg env sys s.nextStep env.retryNow

/-- The states of the prefill loop of a `schedule()` call. -/
inductive Prefilling (cfg : Config) (sys : System) (env : ScheduleEnv cfg) (now : ℚ) :
    Scheduler.PrefillState → Prop
  | reach {s : Scheduler} {st : Scheduler.PrefillState} (starts : StartsOnce cfg env sys s now)
      (prefers :
        shouldSchedulePrefill cfg s.estimator s.seqs s.stepId now s.waiting s.running = true)
      (reaches : Scheduler.PrefillState.Reaches cfg env now (.start s) st) :
      Prefilling cfg sys env now st

/-- The states of the decode loop of a `schedule()` call. -/
inductive Decoding (cfg : Config) (sys : System) (env : ScheduleEnv cfg) (now : ℚ) :
    Scheduler → List SeqId → Prop
  | reach {s s₁ s₂ : Scheduler} {sched : List SeqId} (starts : StartsOnce cfg env sys s now)
      (prefilled : s.prefillPhase cfg env now = .ok (s₁, []))
      (reaches : Scheduler.DecodeReaches cfg env now s₁ s₂ sched) :
      Decoding cfg sys env now s₂ sched

/-- The scheduler states a run passes: between two operations, and in the loops of `schedule()`. -/
inductive Passes (cfg : Config) (sys : System) : Scheduler → Prop
  | between : Passes cfg sys sys.scheduler
  | prefill {env : ScheduleEnv cfg} {now : ℚ} {st : Scheduler.PrefillState}
      (prefilling : Prefilling cfg sys env now st) : Passes cfg sys st.scheduler
  | decode {env : ScheduleEnv cfg} {now : ℚ} {s : Scheduler} {sched : List SeqId}
      (decoding : Decoding cfg sys env now s sched) : Passes cfg sys s
  | makeRoom {env : ScheduleEnv cfg} {now : ℚ} {s s₁ s₂ : Scheduler} {sched : List SeqId}
      {i : SeqId} (decoding : Decoding cfg sys env now s sched)
      (short : sched.length < cfg.maxNumSeqs)
      (selected : selectNext cfg s.estimator s.seqs s.stepId now s.running = some i)
      (compressed : (s.selectDecode cfg i now).maybeCompress cfg i = .ok s₁)
      (reaches : Scheduler.AppendReaches cfg env i now s₁ s₂) : Passes cfg sys s₂

theorem StartsOnce.valid (starts : StartsOnce cfg env sys s now) (valid : sys.Valid cfg) :
    s.Valid cfg sys.known.toFinset sys.kv Sequence.numCachedTokens [] [] := by
  cases starts with
  | first idle =>
    have scheduler := valid.scheduler
    rw [batch_of_none idle] at scheduler
    exact scheduler.nextStep
  | @retry s idle retries =>
    have scheduler := valid.scheduler
    rw [batch_of_none idle] at scheduler
    have schedules := Py.of_ok_pair retries (scheduler.scheduleOnce env env.now)
    exact (schedules.returns scheduler).valid.nextStep

theorem Prefilling.valid {st : Scheduler.PrefillState}
    (prefilling : Prefilling cfg sys env now st) (valid : sys.Valid cfg) :
    st.Valid cfg sys.known.toFinset sys.kv := by
  cases prefilling with
  | reach starts _ reaches =>
    apply reaches.valid
    exact Scheduler.PrefillState.start_valid (starts.valid valid)

theorem Decoding.valid {sched : List SeqId} (decoding : Decoding cfg sys env now s sched)
    (valid : sys.Valid cfg) :
    Scheduler.DecodeValid cfg sys.known.toFinset sys.kv sched s := by
  cases decoding with
  | @reach s s₁ _ _ starts prefilled reaches =>
    apply reaches.valid
    have scheduler := starts.valid valid
    rcases Scheduler.Valid.prefills scheduler prefilled with ⟨st, prefills, rfl, none⟩
    exact (prefills.valid scheduler).decodeValid none.symm

/-- The scheduler invariant holds in every state a run passes. -/
theorem Passes.valid (passes : Passes cfg sys s) (valid : sys.Valid cfg) :
    ∃ held batch, s.Valid cfg sys.known.toFinset sys.kv Sequence.numCachedTokens held batch := by
  cases passes with
  | between => exact ⟨_, _, valid.scheduler⟩
  | prefill prefilling => exact ⟨_, _, (prefilling.valid valid).scheduler⟩
  | decode decoding => exact ⟨_, _, (decoding.valid valid).scheduler⟩
  | makeRoom decoding _ selected compressed reaches =>
    rcases (decoding.valid valid).select selected compressed with ⟨valid', -⟩
    exact ⟨_, _, reaches.valid valid'⟩

end System

end NanoVllm
