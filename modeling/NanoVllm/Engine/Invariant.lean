import NanoVllm.Scheduler.Operations
import Mathlib.Data.List.Basic

/-!
# The invariant of the serving loop

Between two operations the scheduler invariant holds with the batch in flight as the requests
with scheduled tokens, and the model can run that batch. An enabled operation raises nothing,
and `Steps` says what it does.
-/

namespace NanoVllm

open BlockManager

namespace System

variable {cfg : Config} {sys sys' : System} {op : Op cfg} {i j : SeqId}

/-- The requests of the batch in flight. -/
def batch (sys : System) : List SeqId :=
  match sys.inFlight with
  | none => []
  | some inFlight => inFlight.seqs

/-- The invariant of the serving loop. -/
structure Valid (cfg : Config) (sys : System) : Prop where
  scheduler : sys.scheduler.Valid cfg sys.known.toFinset sys.kv Sequence.numCachedTokens []
    sys.batch
  ready : ∀ inFlight ∈ sys.inFlight,
    Scheduler.BatchReady cfg inFlight.isPrefill sys.scheduler.seqs inFlight.seqs

/-- What an enabled operation does. -/
inductive Steps (cfg : Config) (sys : System) : Op cfg → System → Prop
  | add {request : Request} {now : ℚ} :
      Steps cfg sys (.add request now)
        { sys with
          scheduler := sys.scheduler.add request.toSequence now
          known := sys.known ++ [request.seqId] }
  | schedule {env : ScheduleEnv cfg} {s' : Scheduler} {outcome : ScheduleOutcome}
      (idle : sys.inFlight = none)
      (schedules : Scheduler.SchedulesAll cfg sys.known.toFinset sys.kv env sys.scheduler s'
        outcome) :
      Steps cfg sys (.schedule env)
        { sys with scheduler := s', inFlight := launched outcome }
  | postprocess {tokenIds : List Token} {elapsedMs now : ℚ} {inFlight : InFlight}
      {writes : List (ℕ × KvSlot)} {s' : Scheduler} (flying : sys.inFlight = some inFlight)
      (written : batchWrites cfg inFlight.isPrefill sys.scheduler.seqs inFlight.seqs =
        .ok writes)
      (sampled : tokenIds.length = inFlight.seqs.length)
      (processes : Scheduler.ProcessesAll cfg (inFlight.seqs.zip tokenIds)
        (sys.scheduler.observeExecution cfg inFlight.isPrefill
          (observedTokens sys.scheduler.seqs inFlight) elapsedMs) s') :
      Steps cfg sys (.postprocess tokenIds elapsedMs now)
        { sys with
          scheduler := s'
          kv := sys.kv.write writes
          inFlight := none
          events := sys.events ++
            tokenEvents sys.scheduler.seqs s'.seqs (inFlight.seqs.zip tokenIds) }
  | runFailed {garbage : KvStore} {inFlight : InFlight} {writes : List (ℕ × KvSlot)}
      (flying : sys.inFlight = some inFlight)
      (written : batchWrites cfg inFlight.isPrefill sys.scheduler.seqs inFlight.seqs =
        .ok writes) :
      Steps cfg sys (.runFailed garbage)
        { sys with
          kv := fun slot => if slot ∈ writes.map Prod.fst then garbage slot else sys.kv slot
          inFlight := some { inFlight with failed := true } }
  | cancel {i : SeqId} {now : ℚ} {s' : Scheduler} (known : i ∈ sys.known)
      (live : (sys.scheduler.seqs i).status.Live)
      (cancels : Scheduler.Cancels sys.scheduler i now s') :
      Steps cfg sys (.cancel i now)
        { sys with scheduler := s', inFlight := withoutCancelled sys.inFlight i }
  | cancelNothing {i : SeqId} {now : ℚ}
      (absent : ¬(i ∈ sys.known ∧ (sys.scheduler.seqs i).status.Live)) :
      Steps cfg sys (.cancel i now) sys
  | completeRemoteRestore {state : PendingRestoreState} {now : ℚ} {s' : Scheduler}
      (mem : state ∈ sys.scheduler.pendingRestores)
      (ends : Scheduler.EndsRestore sys.scheduler state.sequence (s'.seqs state.sequence) s') :
      Steps cfg sys (.completeRemoteRestore state.sequence now)
        { sys with scheduler := s', kv := sys.kv.write (importWrites cfg state) }
  | failRemoteRestore {state : PendingRestoreState} {now : ℚ} {error : String}
      {garbage : KvStore} {s' : Scheduler} (mem : state ∈ sys.scheduler.pendingRestores)
      (ends : Scheduler.EndsRestore sys.scheduler state.sequence (s'.seqs state.sequence) s') :
      Steps cfg sys (.failRemoteRestore state.sequence now error garbage)
        { sys with
          scheduler := s'
          kv := scramblePages cfg sys.kv garbage state.blockIds }

theorem Valid.init (cfg : Config) : (init cfg).Valid cfg where
  scheduler := by
    refine ⟨⟨.init cfg, .init, ?_, nofun⟩, nofun, ?_, ?_, nofun, ?_, ?_, List.nodup_nil, ?_⟩
    · intro path blockId found
      have none : (BlockManager.init cfg).entry cfg path = none := by
        cases backend : cfg.prefixCacheBackend with
        | hash =>
          rw [entry_hash backend]
          exact Option.bind_eq_none_iff.mpr fun _ _ => rfl
        | radix =>
          rw [entry_radix backend]
          exact RadixForest.find_nil path
      exact absurd (none.symm.trans found) nofun
    · intro status
      cases status <;> exact List.nodup_nil
    · intro status _ i
      refine iff_of_false ?_ nofun
      cases status <;> exact List.not_mem_nil
    · exact fun i planned => absurd rfl planned
    · exact fun i planned => absurd rfl planned
    · exact fun i => iff_of_false List.not_mem_nil nofun
  ready := nofun

theorem batch_of_some {inFlight : InFlight} (flying : sys.inFlight = some inFlight) :
    sys.batch = inFlight.seqs := by
  rw [batch, flying]

theorem batch_of_none (idle : sys.inFlight = none) : sys.batch = [] := by
  rw [batch, idle]

theorem Valid.batch_mem (valid : sys.Valid cfg) {inFlight : InFlight}
    (flying : sys.inFlight = some inFlight) (mem : i ∈ inFlight.seqs) :
    i ∈ sys.known ∧ 0 < (sys.scheduler.seqs i).numScheduledTokens := by
  rw [← batch_of_some flying] at mem
  have scheduled := (valid.scheduler.scheduled i).mp mem
  rwa [List.mem_toFinset] at scheduled

/-- The batch stays ready while the records of its requests stay. -/
theorem Valid.ready_of_eq (valid : sys.Valid cfg) {seqs : SeqId → Sequence}
    (same : ∀ i ∈ sys.batch, seqs i = sys.scheduler.seqs i) :
    ∀ inFlight ∈ sys.inFlight, Scheduler.BatchReady cfg inFlight.isPrefill seqs inFlight.seqs := by
  intro inFlight flying i mem
  rw [same i (by rwa [batch_of_some flying])]
  exact valid.ready inFlight flying i mem

theorem withoutCancelled_seqs (inFlight : Option InFlight) (i : SeqId) :
    ∀ batch ∈ withoutCancelled inFlight i,
      ∃ whole ∈ inFlight, batch = { whole with seqs := whole.seqs.erase i } := by
  intro batch mem
  cases inFlight with
  | none => cases mem
  | some whole =>
    simp only [withoutCancelled] at mem
    split at mem
    · cases mem
    · cases mem
      exact ⟨whole, rfl, rfl⟩

/-- The batch after a cancellation. -/
theorem batch_withoutCancelled (sys : System) (s' : Scheduler) (i : SeqId) :
    batch { sys with scheduler := s', inFlight := withoutCancelled sys.inFlight i } =
      sys.batch.erase i := by
  cases flying : sys.inFlight with
  | none => rw [batch_of_none flying, batch_of_none rfl, List.erase_nil]
  | some whole =>
    rw [batch_of_some flying]
    simp only [withoutCancelled]
    split
    · next gone =>
      rw [batch_of_none rfl, gone]
    · rw [batch_of_some rfl]

/-! ## One operation -/

theorem batch_launched (sys : System) (s' : Scheduler) (outcome : ScheduleOutcome) :
    batch { sys with scheduler := s', inFlight := launched outcome } = outcome.seqs := by
  unfold batch launched
  cases outcome with
  | batch seqs isPrefill => cases seqs <;> rfl
  | retry => rfl
  | noRunnable => rfl

theorem Valid.add (valid : sys.Valid cfg) {request : Request} {now : ℚ}
    (enabled : sys.Enabled (@Op.add cfg request now)) :
    ({ sys with
      scheduler := sys.scheduler.add request.toSequence now
      known := sys.known ++ [request.seqId] } : System).Valid cfg where
  scheduler := by
    have added := valid.scheduler.add request enabled.1 (by rw [List.mem_toFinset]; exact enabled.2)
      now
    have known : (sys.known ++ [request.seqId]).toFinset =
        insert request.seqId sys.known.toFinset := by
      ext j
      simp
    rw [known]
    exact added
  ready := by
    refine valid.ready_of_eq fun i mem => Function.update_of_ne ?_ _ _
    rintro rfl
    have known := ((valid.scheduler.scheduled _).mp mem).1
    exact enabled.2 (List.mem_toFinset.mp known)

theorem Valid.schedule (valid : sys.Valid cfg) (idle : sys.inFlight = none) {env : ScheduleEnv cfg}
    {s' : Scheduler} {outcome : ScheduleOutcome}
    (schedules : Scheduler.SchedulesAll cfg sys.known.toFinset sys.kv env sys.scheduler s'
      outcome) :
    ({ sys with scheduler := s', inFlight := launched outcome } : System).Valid cfg := by
  have scheduler := valid.scheduler
  rw [batch_of_none idle] at scheduler
  have returns := schedules.returns scheduler
  refine ⟨?_, ?_⟩
  · rw [batch_launched]
    exact returns.valid
  · intro inFlight launches
    change launched outcome = some inFlight at launches
    cases outcome with
    | batch seqs isPrefill =>
      cases seqs with
      | nil => cases launches
      | cons i seqs =>
        cases launches
        exact returns.ready _ _ rfl
    | retry => cases launches
    | noRunnable => cases launches

theorem Valid.cancel (valid : sys.Valid cfg) {now : ℚ} {s' : Scheduler}
    (cancelled : s'.Valid cfg sys.known.toFinset sys.kv Sequence.numCachedTokens []
      (sys.batch.erase i)) (cancels : Scheduler.Cancels sys.scheduler i now s') :
    ({ sys with
      scheduler := s', inFlight := withoutCancelled sys.inFlight i } : System).Valid cfg := by
  refine ⟨?_, ?_⟩
  · rw [batch_withoutCancelled]
    exact cancelled
  · intro inFlight flying j mem
    obtain ⟨whole, flew, rfl⟩ := withoutCancelled_seqs _ i _ flying
    have distinct : whole.seqs.Nodup := batch_of_some flew ▸ valid.scheduler.batch_distinct
    rw [distinct.mem_erase_iff] at mem
    change RunReady cfg whole.isPrefill (s'.seqs j)
    rw [cancels.seqs, Function.update_of_ne mem.1]
    exact valid.ready whole flew j mem.2

/-- Ending a restore leaves the records of the batch. -/
theorem Valid.endRestore (valid : sys.Valid cfg) {state : PendingRestoreState} {kv : KvStore}
    {s' : Scheduler} {seq : Sequence} (mem : state ∈ sys.scheduler.pendingRestores)
    (ends : Scheduler.EndsRestore sys.scheduler state.sequence seq s')
    (ended : s'.Valid cfg sys.known.toFinset kv Sequence.numCachedTokens [] sys.batch) :
    ({ sys with scheduler := s', kv } : System).Valid cfg := by
  refine ⟨ended, valid.ready_of_eq fun i scheduled => ?_⟩
  rw [ends.seqs, Function.update_of_ne]
  rintro rfl
  have positive := ((valid.scheduler.scheduled _).mp scheduled).2
  rw [(valid.scheduler.restoring mem).2.2.1.idle] at positive
  exact lt_irrefl 0 positive

/-- An enabled operation raises nothing and keeps the invariant. -/
theorem Valid.step (valid : sys.Valid cfg) (enabled : sys.Enabled op) :
    ∃ sys', sys.step cfg op = .ok sys' ∧ sys'.Valid cfg ∧ Steps cfg sys op sys' := by
  cases op with
  | add request now => exact ⟨_, rfl, valid.add enabled, .add⟩
  | schedule env =>
    have idle : sys.inFlight = none := enabled
    have scheduler := valid.scheduler
    rw [batch_of_none idle] at scheduler
    obtain ⟨s', outcome, scheduled, schedules⟩ := scheduler.schedule env
    refine ⟨_, ?_, valid.schedule idle schedules, .schedule idle schedules⟩
    simp only [System.step, scheduled, Py.ok_bind]
  | postprocess tokenIds elapsedMs now =>
    obtain ⟨inFlight, flying, -, sampled⟩ := enabled
    have scheduler := valid.scheduler
    rw [batch_of_some flying] at scheduler
    have ready := valid.ready inFlight flying
    obtain ⟨writes, written, -, ran⟩ := scheduler.run ready
    have observed : (sys.scheduler.observeExecution cfg inFlight.isPrefill
        (observedTokens sys.scheduler.seqs inFlight) elapsedMs).Valid cfg sys.known.toFinset
          (sys.kv.write writes) Sequence.computedTokens [] inFlight.seqs :=
      ran.observeExecution _ elapsedMs
    obtain ⟨s', processed, valid', processes⟩ := observed.postprocess ready sampled now
    refine ⟨_, ?_, ⟨valid', fun _ none => by cases none⟩, .postprocess flying written sampled processes⟩
    rw [Option.mem_def] at flying
    simp only [System.step, flying, System.run, written, Py.ok_bind, processed]
  | runFailed garbage =>
    obtain ⟨inFlight, flying⟩ := Option.ne_none_iff_exists'.mp enabled
    have scheduler := valid.scheduler
    rw [batch_of_some flying] at scheduler
    have ready := valid.ready inFlight flying
    obtain ⟨writes, written, writable, -⟩ := scheduler.run ready
    refine ⟨_, ?_, ⟨?_, ?_⟩, .runFailed flying written⟩
    · simp only [System.step, flying, scrambleBatch, written, Py.ok_bind]
    · refine { scheduler with memory := scheduler.memory.overwrite fun slot changed => ?_ }
      refine writable slot ?_
      by_contra absent
      exact changed (if_neg absent)
    · rintro _ ⟨⟩
      exact ready
  | cancel i now =>
    rcases valid.scheduler.cancel i now with
      ⟨known, live, s', cancelled, valid', cancels⟩ | ⟨absent, cancelled⟩
    · rw [List.mem_toFinset] at known
      refine ⟨_, ?_, valid.cancel valid' cancels, .cancel known live cancels⟩
      simp only [System.step, cancelled, Py.ok_bind, if_true]
    · rw [List.mem_toFinset] at absent
      refine ⟨sys, ?_, valid, .cancelNothing absent⟩
      simp [System.step, cancelled, Py.ok_bind]
  | completeRemoteRestore i now =>
    obtain ⟨state, mem, rfl⟩ := enabled
    obtain ⟨s', completed, valid', ends⟩ := valid.scheduler.completeRemoteRestore mem now
    refine ⟨_, ?_, valid.endRestore mem ends valid', .completeRemoteRestore mem ends⟩
    simp only [System.step, valid.scheduler.pendingRestore mem, completed, Py.ok_bind]
  | failRemoteRestore i now error garbage =>
    obtain ⟨state, mem, rfl⟩ := enabled
    obtain ⟨s', failed, valid', ends⟩ :=
      valid.scheduler.failRemoteRestore mem now error garbage
    refine ⟨_, ?_, valid.endRestore mem ends valid', .failRemoteRestore mem ends⟩
    simp only [System.step, valid.scheduler.pendingRestore mem, failed, Py.ok_bind]

/-! ## Runs -/

variable {Allowed : System → Op cfg → Prop}

theorem ReachableBy.valid (reachable : ReachableBy cfg Allowed sys) : sys.Valid cfg := by
  induction reachable with
  | init => exact .init cfg
  | step _ enabled _ stepped ih =>
    obtain ⟨sys', stepped', valid, -⟩ := ih.step enabled
    rw [stepped] at stepped'
    cases stepped'
    exact valid

/-- A property of all runs follows from what `Steps` says about each operation. -/
theorem ReachableBy.induction {Property : System → Prop} (start : Property (System.init cfg))
    (next : ∀ {sys sys' : System} {op : Op cfg}, ReachableBy cfg Allowed sys → sys.Valid cfg →
      Allowed sys op → sys.Enabled op → Steps cfg sys op sys' → Property sys → Property sys')
    (reachable : ReachableBy cfg Allowed sys) : Property sys := by
  induction reachable with
  | init => exact start
  | step reachable enabled allowed stepped ih =>
    obtain ⟨sys', stepped', -, steps⟩ := reachable.valid.step enabled
    rw [stepped] at stepped'
    cases stepped'
    exact next reachable reachable.valid allowed enabled steps ih

end System

end NanoVllm
