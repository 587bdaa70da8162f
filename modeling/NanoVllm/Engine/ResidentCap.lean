import NanoVllm.Engine.Phases
import NanoVllm.Scheduler.Residents

/-!
# The limit of resident requests

`max_num_active_seqs` bounds the requests which own pages, between two operations and in every
state which `schedule()` passes: a request without pages is only selected below the limit, and a
selected request which has lost its pages gives its place to itself.
-/

namespace NanoVllm

namespace Scheduler

variable {cfg : Config} {env : ScheduleEnv cfg} {now : ℚ} {ids : Finset SeqId} {kv : KvStore}
  {sched : List SeqId} {s s' : Scheduler} {i : SeqId}

theorem PrefillState.Reaches.capped {st st' : PrefillState} (reaches : st.Reaches cfg env now st')
    (valid : st.Valid cfg ids kv) (capped : st.scheduler.Capped cfg ids) :
    st'.scheduler.Capped cfg ids := by
  induction reaches with
  | start => exact capped
  | next reaches continues iterated ih =>
    have valid₁ := reaches.valid valid
    rcases Py.of_ok iterated (valid₁.iterate env now continues.1) with ⟨iterates, -⟩
    exact iterates.capped valid₁ ih

theorem DecodeReaches.capped (reaches : DecodeReaches cfg env now s s' sched)
    (valid : DecodeValid cfg ids kv [] s) (capped : s.Capped cfg ids) : s'.Capped cfg ids := by
  induction reaches with
  | start => exact capped
  | scheduled reaches _ selected compressed room decoded ih =>
    have valid₁ := reaches.valid valid
    have mem := selectNext_mem selected
    rcases valid₁.schedules selected compressed room decoded with
      ⟨touches, evicts, schedules, -⟩
    apply ih.of_touched
    intro j _ empty
    rcases valid₁.untouched mem touches evicts empty with ⟨differ, same⟩
    rcases schedules.seqs with ⟨seq, seqs⟩
    rw [seqs, Function.update_of_ne differ, same]
  | preempted reaches _ selected compressed room ih =>
    have valid₁ := reaches.valid valid
    have mem := selectNext_mem selected
    rcases valid₁.preempts selected compressed room with ⟨touches, evicts, -⟩
    apply ih.of_touched
    intro j _ empty
    exact (valid₁.untouched mem touches evicts empty).2

/-- Compressing the selected request makes no request resident. -/
theorem DecodeValid.select_capped (valid : DecodeValid cfg ids kv sched s)
    (capped : s.Capped cfg ids)
    (selected : selectNext cfg s.estimator s.seqs s.stepId now s.running = some i)
    (touches : Touches (s.selectDecode cfg i now) i s') : s'.Capped cfg ids := by
  apply capped.of_touched
  intro j _ empty
  have differ : j ≠ i := by
    rintro rfl
    have inside := List.mem_append_left sched (selectNext_mem selected)
    exact valid.scheduler.owns_of_running inside empty
  rcases touches.seqs with ⟨seq, seqs, -⟩
  rw [seqs, Function.update_of_ne differ]
  exact Function.update_of_ne differ _ _

theorem AppendReaches.capped (reaches : AppendReaches cfg env i now s s')
    (valid : Valid cfg ids kv Sequence.numCachedTokens (i :: sched) sched s)
    (capped : s.Capped cfg ids) : s'.Capped cfg ids := by
  induction reaches with
  | start => exact capped
  | @next s₁ s₂ v reaches _ selected preempted ih =>
    have valid₁ := reaches.valid valid
    rcases valid₁.preemptsVictim selected preempted with ⟨mem, -, preempts, -⟩
    apply ih.of_touched
    intro j _ empty
    have differ : j ≠ v := by
      rintro rfl
      exact valid₁.owns_of_running (List.mem_append_left _ mem) empty
    rcases preempts.seqs with ⟨seq, keep, seqs, -⟩
    rw [seqs, Function.update_of_ne differ]
    rfl

end Scheduler

namespace System

open Scheduler

variable {cfg : Config} {Allowed : System → Op cfg → Prop} {sys sys' : System} {op : Op cfg}
  {env : ScheduleEnv cfg} {now : ℚ} {s : Scheduler}

/-! ## One operation -/

/-- A request of the batch owns pages. -/
theorem Valid.owns_of_batch (valid : sys.Valid cfg) {i : SeqId} (mem : i ∈ sys.batch) :
    (sys.scheduler.seqs i).blockTable ≠ [] := by
  rcases valid.scheduler.scheduled_phase mem with ⟨known, scheduled, ⟨-, waiting⟩ | ⟨status, -⟩⟩
  · intro empty
    have pages := @Sequence.numBlocks_pos cfg _ ((Nat.zero_le _).trans_lt waiting.short)
    have full := waiting.full scheduled
    rw [empty, List.length_nil] at full
    omega
  · exact valid.scheduler.owns_of_running (valid.scheduler.mem_running.mpr ⟨known, status⟩)

/-- An operation keeps the limit. -/
theorem Steps.capped (steps : Steps cfg sys op sys') (valid : sys.Valid cfg)
    (capped : sys.scheduler.Capped cfg sys.known.toFinset) :
    sys'.scheduler.Capped cfg sys'.known.toFinset := by
  cases steps with
  | @add request now =>
    intro limit configured
    apply le_trans _ (capped limit configured)
    apply Finset.card_le_card
    intro j resident
    rcases mem_residents.mp resident with ⟨known, owns⟩
    by_cases same : j = request.seqId
    · subst same
      have added : (sys.scheduler.add request.toSequence now).seqs request.seqId =
          request.toSequence.markArrived sys.scheduler.stepId now := Function.update_self _ _ _
      rw [added] at owns
      exact absurd rfl owns
    · have old : (sys.scheduler.add request.toSequence now).seqs j = sys.scheduler.seqs j :=
        Function.update_of_ne same _ _
      simp only [List.mem_toFinset, List.mem_append, List.mem_singleton, same, or_false] at known
      rw [mem_residents, List.mem_toFinset, ← old]
      exact ⟨known, owns⟩
  | schedule idle schedules => exact schedules.capped capped
  | @postprocess tokenIds _ _ inFlight writes s' flying written sampled processes =>
    apply capped.of_touched
    intro j _ empty
    have requests : (inFlight.seqs.zip tokenIds).map Prod.fst = sys.batch := by
      rw [List.map_fst_zip sampled.ge, batch_of_some flying]
    apply (processes.each (requests ▸ valid.scheduler.batch_distinct)).1 j
    rw [requests]
    intro inside
    exact valid.owns_of_batch inside empty
  | runFailed => exact capped
  | @cancel i now s' _ _ cancels =>
    apply capped.of_subset
    intro j resident
    rcases mem_residents.mp resident with ⟨known, owns⟩
    rw [cancels.seqs] at owns
    by_cases same : j = i
    · subst same
      rw [Function.update_self] at owns
      exact absurd rfl owns
    · rw [Function.update_of_ne same] at owns
      exact mem_residents.mpr ⟨known, owns⟩
  | cancelNothing => exact capped
  | @completeRemoteRestore state now s' mem ends =>
    apply capped.of_touched
    intro j _ empty
    have differ : j ≠ state.sequence := by
      rintro rfl
      exact valid.scheduler.owns_of_restoring mem empty
    rw [ends.seqs, Function.update_of_ne differ]
  | @failRemoteRestore state now error garbage s' mem ends =>
    apply capped.of_touched
    intro j _ empty
    have differ : j ≠ state.sequence := by
      rintro rfl
      exact valid.scheduler.owns_of_restoring mem empty
    rw [ends.seqs, Function.update_of_ne differ]

/-! ## Every state -/

theorem ReachableBy.capped (reachable : ReachableBy cfg Allowed sys) :
    sys.scheduler.Capped cfg sys.known.toFinset := by
  refine @ReachableBy.induction cfg sys Allowed
    (fun sys => sys.scheduler.Capped cfg sys.known.toFinset) ?_ ?_ reachable
  · intro limit _
    exact Nat.zero_le limit
  · intro sys sys' op _ valid _ _ steps capped
    exact steps.capped valid capped

theorem StartsOnce.capped (starts : StartsOnce cfg env sys s now) (valid : sys.Valid cfg)
    (capped : sys.scheduler.Capped cfg sys.known.toFinset) : s.Capped cfg sys.known.toFinset := by
  cases starts with
  | first idle => exact capped
  | @retry s idle retries =>
    have scheduler := valid.scheduler
    rw [batch_of_none idle] at scheduler
    exact (Py.of_ok_pair retries (scheduler.scheduleOnce env env.now)).capped capped

theorem Decoding.capped {sched : List SeqId} (decoding : Decoding cfg sys env now s sched)
    (valid : sys.Valid cfg) (capped : sys.scheduler.Capped cfg sys.known.toFinset) :
    s.Capped cfg sys.known.toFinset := by
  cases decoding with
  | @reach s s₁ _ _ starts prefilled reaches =>
    have first := (Decoding.reach starts prefilled .start).valid valid
    apply reaches.capped first
    rcases (starts.valid valid).prefills prefilled with ⟨st, prefills, rfl, -⟩
    exact prefills.capped (starts.capped valid capped)

theorem Passes.capped (passes : Passes cfg sys s) (valid : sys.Valid cfg)
    (capped : sys.scheduler.Capped cfg sys.known.toFinset) : s.Capped cfg sys.known.toFinset := by
  cases passes with
  | between => exact capped
  | prefill prefilling =>
    cases prefilling with
    | reach starts _ reaches =>
      have start := PrefillState.start_valid (starts.valid valid)
      exact reaches.capped start (starts.capped valid capped)
  | decode decoding => exact decoding.capped valid capped
  | makeRoom decoding _ selected compressed reaches =>
    have decodeValid := decoding.valid valid
    rcases decodeValid.select selected compressed with ⟨valid', touches⟩
    apply reaches.capped valid'
    exact decodeValid.select_capped (decoding.capped valid capped) selected touches

/--
With a limit of active requests, the running requests, the pending restores and the waiting
requests with pages are at most as many, between two operations and within `schedule()`.
-/
theorem residentCount_le (reachable : Reachable cfg sys) {limit : ℕ}
    (configured : cfg.maxNumActiveSeqs = some limit) (passes : Passes cfg sys s) :
    s.residentCount ≤ limit := by
  rcases passes.valid reachable.valid with ⟨held, batch, valid⟩
  have bound := passes.capped reachable.valid reachable.capped limit configured
  rw [← valid.residentCount_add] at bound
  omega

/-- At most one active request in a memory of four pages. -/
def oneActive : Config :=
  { defaultConfig 2 4 4 two_le_two with
    maxNumActiveSeqs := some 1
    maxNumActiveSeqs_pos := by simp }

/-- A second request waits while the first one runs. -/
def oneActiveRun : System := (init oneActive).runOps oneActive
  [.add (plainRequest 0 1 8) 0, .add (plainRequest 1 1 8) 0, .schedule (idleEnv _),
    .postprocess [1] 0 0, .schedule (idleEnv _)]

theorem residentCount_le_oneActive :
    oneActiveRun.scheduler.waiting = [1] ∧ oneActiveRun.scheduler.residentCount ≤ 1 := by
  have reachable : Reachable oneActive oneActiveRun := ReachableBy.runOps .init (by decide +kernel)
  exact ⟨by decide +kernel, residentCount_le reachable rfl .between⟩

end System

end NanoVllm
