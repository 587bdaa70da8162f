import NanoVllm.Engine.BatchShape
import NanoVllm.Engine.Conservation
import NanoVllm.Engine.Recomputed
import NanoVllm.Scheduler.Restores

/-!
# Remote restores are atomic

From the reservation of its pages until a remote restore has succeeded, no prefix lookup returns a
page which was allocated for it beyond the local hit, and its request is left alone. A restore which
ends otherwise leaves nothing behind: its request has given back every page and waits, or is
cancelled, and nothing has happened to any other request. A request starts at most one restore.
-/

namespace NanoVllm

open BlockManager

namespace Scheduler

variable {cfg : Config} {ids : Finset SeqId} {kv kv' : KvStore} {computed computed' : Sequence → ℕ}
  {held batch batch' : List SeqId} {env : ScheduleEnv cfg} {now : ℚ} {s s' : Scheduler}
  {i j : SeqId} {outcome : ScheduleOutcome}

/-- How a restore which has not succeeded leaves the scheduler. -/
structure RolledBack (cfg : Config) (i : SeqId) (after : SequenceStatus) (s s' : Scheduler) :
    Prop where
  table : (s'.seqs i).blockTable = []
  uncached : (s'.seqs i).numCachedTokens = 0 ∧ (s'.seqs i).numPhysicalCachedTokens = 0
  status : (s'.seqs i).status = after
  placed : s'.places i = after.places
  attempted : (s'.seqs i).remoteRestoreAttempted = true
  others : ∀ j, j ≠ i → s'.seqs j = s.seqs j
  released : ∀ blockId, (s'.blockManager.blocks blockId).refCount +
    (s.seqs i).blockTable.count blockId = (s.blockManager.blocks blockId).refCount
  hidden : ∀ blockId ∈ (s.seqs i).newPages cfg, s'.blockManager.Hidden cfg blockId

/-- An operation which takes all pages from a request, and leaves the index and the others alone. -/
theorem Valid.rolledBack (valid : Valid cfg ids kv computed held batch s)
    (valid' : Valid cfg ids kv' computed' [] batch' s') (known : i ∈ ids) {seq : Sequence}
    (seqs : s'.seqs = Function.update s.seqs i seq) (table : seq.blockTable = [])
    (uncached : seq.numCachedTokens = 0 ∧ seq.numPhysicalCachedTokens = 0)
    (attempted : seq.remoteRestoreAttempted = true)
    (index : SameIndex s.blockManager s'.blockManager)
    (unindexed : ∀ blockId ∈ (s.seqs i).newPages cfg, s.blockManager.Unindexed cfg blockId) :
    RolledBack cfg i seq.status s s' := by
  have self : s'.seqs i = seq := by
    rw [seqs, Function.update_self]
  constructor
  · rw [self, table]
  · rw [self]
    exact uncached
  · rw [self]
  · rw [valid'.places_eq known, self]
  · rw [self, attempted]
  · intro j differ
    rw [seqs, Function.update_of_ne differ]
  · intro blockId
    have refs := @tableRefs_update ids s.seqs i known seq blockId
    rw [table, List.count_nil, Nat.add_zero] at refs
    rw [valid.memory.pool.refCount, valid'.memory.pool.refCount, seqs, ← refs]
    exact (Nat.cast_add _ _).symm
  · intro blockId mem
    exact (index.unindexed.mpr (unindexed blockId mem)).hidden valid'.memory.index

/-! ## Lookups -/

/-- The heads of the iterations of `_ensure_resume_capacity`. -/
inductive ResumeReaches (cfg : Config) (i : SeqId) (now : ℚ) (s : Scheduler) : Scheduler → Prop
  | start : ResumeReaches cfg i now s s
  | victim {s₁ s₂ s₃ : Scheduler} {v : SeqId} (reaches : ResumeReaches cfg i now s s₁)
      (owned : (s₁.seqs i).blockTable ≠ []) (checked : s₁.canResume cfg i = .ok (s₂, false))
      (selected : s₂.reclaimVictim cfg i now = some v)
      (reclaimed : s₂.reclaimFully cfg v = .ok s₃) : ResumeReaches cfg i now s s₃
  | self {s₁ s₂ s₃ : Scheduler} (reaches : ResumeReaches cfg i now s s₁)
      (owned : (s₁.seqs i).blockTable ≠ []) (checked : s₁.canResume cfg i = .ok (s₂, false))
      (none_left : s₂.reclaimVictim cfg i now = none) (alone : s₂.running = [])
      (reclaimed : s₂.reclaimFully cfg i = .ok s₃) : ResumeReaches cfg i now s s₃

/-- Reclaiming a waiting request after a failed check. -/
theorem Valid.reclaims_next {s₁ s₂ : Scheduler} {v : SeqId}
    (valid : Valid cfg ids kv Sequence.numCachedTokens held batch s) (mem : i ∈ s.waiting)
    (idle : ∀ j ∈ s.waiting, (s.seqs j).numScheduledTokens = 0)
    (checked : s.canResume cfg i = .ok (s₁, false))
    (owner : v ∈ s₁.owners) (reclaimed : s₁.reclaimFully cfg v = .ok s₂) :
    Valid cfg ids kv Sequence.numCachedTokens held batch s₂ ∧ Reclaims cfg s s₂ := by
  rcases valid.canResume mem with ⟨bm', ready, checked', valid₁, -⟩
  rw [checked] at checked'
  cases checked'
  rcases mem_owners.mp owner with ⟨mem', table'⟩
  rcases valid₁.reclaimFully mem' (idle v mem') with ⟨bm'', freed, invalidated, reclaimed', valid₂⟩
  rw [reclaimed] at reclaimed'
  cases reclaimed'
  refine ⟨valid₂, (Reclaims.of_look cfg s bm').trans (.of_reclaimFully mem' ?_ table')⟩
  rw [(valid₁.waiting mem').2.1]
  trivial

theorem ResumeReaches.valid (reaches : ResumeReaches cfg i now s s')
    (valid : Valid cfg ids kv Sequence.numCachedTokens held batch s) (mem : i ∈ s.waiting)
    (idle : ∀ j ∈ s.waiting, (s.seqs j).numScheduledTokens = 0) :
    Valid cfg ids kv Sequence.numCachedTokens held batch s' ∧ Reclaims cfg s s' := by
  induction reaches with
  | start => exact ⟨valid, .of_look cfg s s.blockManager⟩
  | victim _ _ checked selected reclaimed ih =>
    rcases ih with ⟨valid₁, reclaims⟩
    have mem₁ := reclaims.waiting ▸ mem
    rcases valid₁.reclaims_next mem₁ (reclaims.idle idle) checked (reclaimVictim_mem selected).1
      reclaimed with ⟨valid₂, reclaims'⟩
    exact ⟨valid₂, reclaims.trans reclaims'⟩
  | @self s₁ s₂ _ _ owned checked _ _ reclaimed ih =>
    rcases ih with ⟨valid₁, reclaims⟩
    have mem₁ : i ∈ s₁.waiting := by
      rw [reclaims.waiting]
      exact mem
    have owner : i ∈ s₂.owners := by
      rcases valid₁.canResume mem₁ with ⟨bm', ready, checked', -⟩
      rw [checked] at checked'
      cases checked'
      exact mem_owners.mpr ⟨mem₁, owned⟩
    rcases valid₁.reclaims_next mem₁ (reclaims.idle idle) checked owner reclaimed with
      ⟨valid₂, reclaims'⟩
    exact ⟨valid₂, reclaims.trans reclaims'⟩

theorem Reclaims.keepsRestores (reclaims : Reclaims cfg s s')
    (valid : Valid cfg ids kv computed held batch s) : KeepsRestores s s' := by
  apply reclaims.follows.keepsRestores
  intro state mem
  apply (reclaims.seqs state.sequence).resolve_right
  intro reclaimed
  exact (valid.pending_only mem).1 reclaimed.1

/-- Marking a waiting request keeps remote restores. -/
theorem Valid.selectPrefill_keepsRestores (valid : Valid cfg ids kv computed held batch s)
    (mem : i ∈ s.waiting) (now : ℚ) : KeepsRestores s (s.selectPrefill cfg i now) := by
  apply (valid.selectPrefill_follows mem now).keepsRestores
  intro state mem'
  apply Function.update_of_ne
  rintro rfl
  exact (valid.pending_only mem').1 mem

namespace PrefillState

variable {st st' : PrefillState} {control : PrefillControl} {n : ℕ}
  {pages : List RemotePageDescriptor}

/-- The scheduler states of an iteration in which it looks up prefixes. -/
inductive Looks (cfg : Config) (env : ScheduleEnv cfg) (now : ℚ) (st : PrefillState) :
    Scheduler → Prop
  | resumes {i : SeqId} {s : Scheduler} (selects : Selects cfg now st i)
      (budget : st.numBatchedTokens < cfg.maxNumBatchedTokens)
      (reaches : ResumeReaches cfg i now (st.scheduler.selectPrefill cfg i now) s) :
      Looks cfg env now st s
  | resumed {i : SeqId} {s : Scheduler} {ready : Bool} (selects : Selects cfg now st i)
      (budget : st.numBatchedTokens < cfg.maxNumBatchedTokens)
      (table : (st.scheduler.seqs i).blockTable ≠ [])
      (ensured :
        (st.scheduler.selectPrefill cfg i now).ensureResumeCapacity cfg i now = .ok (s, ready)) :
      Looks cfg env now st s
  | considers {i : SeqId} {s : Scheduler} (considers : Considers cfg now st i s) :
      Looks cfg env now st s
  | checked {i : SeqId} {s : Scheduler} {bm : BlockManager} {n : ℕ}
      (considers : Considers cfg now st i s)
      (checked : s.blockManager.canAllocate cfg (s.seqs i) = (bm, some n)) :
      Looks cfg env now st { s with blockManager := bm }
  | refused {i : SeqId} {s s' : Scheduler} {n : ℕ} {pages : List RemotePageDescriptor}
      (starts : Starts cfg env now st i s n pages)
      (refused : s.startRemoteRestore cfg env i n now = .ok (s', false)) : Looks cfg env now st s'

/-- Making room for a selected request keeps remote restores. -/
theorem Selects.ensured (selects : Selects cfg now st i) (valid : st.Valid cfg ids kv)
    (budget : st.numBatchedTokens < cfg.maxNumBatchedTokens)
    (table : (st.scheduler.seqs i).blockTable ≠ []) {ready : Bool}
    (ensured :
      (st.scheduler.selectPrefill cfg i now).ensureResumeCapacity cfg i now = .ok (s, ready)) :
    s.Valid cfg ids kv Sequence.numCachedTokens [] st.scheduledSeqs ∧
      KeepsRestores st.scheduler s := by
  have mem := selects.mem.1
  have marked := selects.marked valid
  have owned : ((st.scheduler.selectPrefill cfg i now).seqs i).blockTable ≠ [] := by
    rw [selectPrefill_table]
    exact table
  rcases Py.of_ok_pair ensured (marked.scheduler.ensureResumeCapacity mem
    (fun j mem' => marked.idle budget mem') owned now) with ⟨valid', reclaims, -⟩
  exact ⟨valid', (valid.scheduler.selectPrefill_keepsRestores mem now).trans
    (reclaims.keepsRestores marked.scheduler)⟩

theorem Considers.keepsRestores (considers : Considers cfg now st i s)
    (valid : st.Valid cfg ids kv) : KeepsRestores st.scheduler s := by
  cases considers with
  | fresh selects _ _ => exact valid.scheduler.selectPrefill_keepsRestores selects.mem.1 now
  | emptied selects budget table ensured _ => exact (selects.ensured valid budget table ensured).2

/-- A refused restore changes no other request. -/
theorem Starts.refused_keepsRestores (starts : Starts cfg env now st i s n pages)
    (valid : st.Valid cfg ids kv)
    (refused : s.startRemoteRestore cfg env i n now = .ok (s', false)) :
    KeepsRestores s s' := by
  rcases starts.ready valid with ⟨⟨_, _, ready⟩, -, -⟩
  rcases starts.submits valid with ⟨_, _, _, _, _, _, -, -, -, result, -, submits, -⟩
  rw [refused] at result
  cases result
  cases submits with
  | refused =>
    constructor
    · intro j attempted
      by_cases same : j = i
      · subst same
        simp [Scheduler.put, Sequence.restoreFailed, Sequence.withoutPages, Sequence.restoring]
      · simpa [Scheduler.put, same] using attempted
    · intro state mem
      refine ⟨mem, Function.update_of_ne ?_ _ _⟩
      rintro rfl
      exact (ready.valid.scheduler.pending_only mem).1 ready.waits

/-- The invariant holds where prefixes are looked up, and pending restores are still pending. -/
theorem Looks.keepsRestores (looks : st.Looks cfg env now s) (valid : st.Valid cfg ids kv) :
    (∃ held batch, s.Valid cfg ids kv Sequence.numCachedTokens held batch) ∧
      KeepsRestores st.scheduler s := by
  cases looks with
  | resumes selects budget reaches =>
    have mem := selects.mem.1
    have marked := selects.marked valid
    rcases reaches.valid marked.scheduler mem (fun j mem' => marked.idle budget mem') with
      ⟨valid', reclaims⟩
    exact ⟨⟨_, _, valid'⟩, (valid.scheduler.selectPrefill_keepsRestores mem now).trans
      (reclaims.keepsRestores marked.scheduler)⟩
  | resumed selects budget table ensured =>
    rcases selects.ensured valid budget table ensured with ⟨valid', keeps⟩
    exact ⟨⟨_, _, valid'⟩, keeps⟩
  | considers considers =>
    rcases considers.spec valid env with ⟨-, valid', -⟩
    exact ⟨⟨_, _, valid'.scheduler⟩, considers.keepsRestores valid⟩
  | checked considers checked =>
    rcases considers.spec valid env with ⟨-, valid₁, waits, table, -⟩
    rcases valid₁.canAllocate waits table checked with ⟨_, -, -, -, -, -, valid'⟩
    exact ⟨⟨_, _, valid'.scheduler⟩, (considers.keepsRestores valid).trans (.of_seqs rfl rfl)⟩
  | refused starts refused =>
    rcases starts.submits valid with ⟨_, _, _, _, _, _, -, -, -, result, valid', -⟩
    rw [refused] at result
    cases result
    refine ⟨⟨_, _, valid'⟩, KeepsRestores.trans ?_ (starts.refused_keepsRestores valid refused)⟩
    cases starts with
    | start _ considers => exact (considers.keepsRestores valid).trans (.of_seqs rfl rfl)

/-- From one iteration of a prefill loop to a later one remote restores are kept. -/
theorem Reaches.kept (reaches : st.Reaches cfg env now st') (valid : st.Valid cfg ids kv) :
    KeepsRestores st.scheduler st'.scheduler := by
  induction reaches with
  | start => exact .refl _
  | next reaches continues iterated ih =>
    have valid' := reaches.valid valid
    rcases valid'.iterate env now continues.1 with ⟨control, iterated', iterates, sound⟩
    rw [iterated] at iterated'
    cases iterated'
    exact ih.trans (iterates.keepsRestores valid' sound)

end PrefillState

/-! ## From the head of an iteration to the end of the call -/

theorem PrefillState.loop_keepsRestores {st st' : PrefillState} {fuel : ℕ}
    (valid : st.Valid cfg ids kv) (looped : loop cfg env now fuel st = .ok st') :
    KeepsRestores st.scheduler st'.scheduler := by
  induction fuel generalizing st with
  | zero => cases looped
  | succ fuel ih =>
    rw [loop] at looped
    split at looped
    · cases looped
      exact .refl _
    next continues =>
    rw [not_or, not_le] at continues
    rcases valid.iterate env now continues.1 with ⟨control, iterated, iterates, sound⟩
    have keeps := iterates.keepsRestores valid sound
    rw [iterated, Py.ok_bind] at looped
    cases control with
    | again st₁ => exact keeps.trans (ih sound.valid looped)
    | leave st₁ =>
      cases looped
      exact keeps

/-- After an iteration of its prefill loop a pass keeps remote restores. -/
theorem PrefillState.Reaches.keepsRestores {st : PrefillState} {control : PrefillControl}
    (reaches : (PrefillState.start s.nextStep).Reaches cfg env now st)
    (valid : s.Valid cfg ids kv Sequence.numCachedTokens [] [])
    (prefers : shouldSchedulePrefill cfg s.nextStep.estimator s.nextStep.seqs s.nextStep.stepId now
      s.nextStep.waiting s.nextStep.running = true)
    (continues : st.Continues cfg) (iterated : st.iterate cfg env now = .ok control)
    (once : s.scheduleOnce cfg env now = .ok (s', outcome)) :
    KeepsRestores control.state.scheduler s' := by
  have validSt := reaches.valid (PrefillState.start_valid valid.nextStep)
  rcases Py.of_ok iterated (validSt.iterate env now continues.1) with ⟨-, sound⟩
  have prefilled : ∀ s₁ sched, s.nextStep.prefillPhase cfg env now = .ok (s₁, sched) →
      KeepsRestores control.state.scheduler s₁ := by
    intro s₁ sched phase
    rcases prefillPhase_loop prefers phase with ⟨st', fuel, looped, rfl, rfl⟩
    rcases reaches.loop looped with ⟨_ | fuel', rest⟩
    · cases rest
    rw [PrefillState.loop, if_neg, iterated, Py.ok_bind] at rest
    · cases control with
      | again st₁ => exact loop_keepsRestores sound.valid rest
      | leave st₁ =>
        cases rest
        exact .refl _
    · rintro (empty | full)
      · exact continues.1 empty
      · exact absurd continues.2 (not_lt.mpr full)
  rcases scheduleOnce_loops valid once with ⟨st', phase, -, rfl, -⟩ |
    ⟨s₁, s₂, sched, retry, phase, decodeValid, looped, seqs, pending, -⟩
  · exact prefilled _ _ phase
  · rcases decodeLoop_spec env now _ s₁ [] false decodeValid (Nat.lt_succ_self _) with
      ⟨_, _, _, looped', decodes⟩
    rw [looped] at looped'
    cases looped'
    exact ((prefilled _ _ phase).trans (decodes.keepsRestores decodeValid)).trans
      (.of_seqs seqs pending)

/-- After a retry `schedule()` returns what its second pass returns. -/
theorem schedule_of_retry {s₁ : Scheduler}
    (retries : s.scheduleOnce cfg env env.now = .ok (s₁, .retry))
    (scheduled : s.schedule cfg env = .ok (s', outcome)) :
    s₁.scheduleOnce cfg env env.retryNow = .ok (s', outcome) := by
  rcases Py.exists_of_bind scheduled with ⟨⟨s₂, outcome₂⟩, first, rest⟩
  rw [retries] at first
  cases first
  simp only [ne_eq, not_true_eq_false, if_false] at rest
  rcases Py.exists_of_bind rest with ⟨⟨s₃, outcome₃⟩, second, returned⟩
  dsimp only at returned
  split at returned
  · cases returned
    exact second
  · cases returned

end Scheduler

namespace System

open Scheduler

variable {cfg : Config} {env env' : ScheduleEnv cfg} {now now' : ℚ} {sys sys' sys₁ : System}
  {op : Op cfg} {st st' : PrefillState} {control : PrefillControl} {s s' : Scheduler} {i : SeqId}

/-- After an iteration of a prefill loop a call of `schedule()` keeps remote restores. -/
theorem Prefilling.keepsRestores (prefilling : Prefilling cfg sys env now st)
    (valid : sys.Valid cfg) (continues : st.Continues cfg)
    (iterated : st.iterate cfg env now = .ok control)
    (stepped : sys.step cfg (.schedule env) = .ok sys') :
    KeepsRestores control.state.scheduler sys'.scheduler := by
  rcases Py.exists_of_bind stepped with ⟨⟨s', outcome⟩, scheduled, returned⟩
  cases returned
  cases prefilling with
  | @reach s _ starts prefers reaches =>
    have scheduler := valid.scheduler
    cases starts with
    | first idle =>
      rw [batch_of_none idle] at scheduler
      rcases schedule_passes scheduled with once | ⟨s₁, first, second⟩
      · exact reaches.keepsRestores scheduler prefers continues iterated once
      · have valid₁ := ((Py.of_ok_pair first (scheduler.scheduleOnce env env.now)).returns
          scheduler).valid
        have later := Py.of_ok_pair second (valid₁.scheduleOnce env env.retryNow)
        exact (reaches.keepsRestores scheduler prefers continues iterated first).trans
          (later.keepsRestores valid₁)
    | @retry s₁ idle retries =>
      rw [batch_of_none idle] at scheduler
      have valid₁ := ((Py.of_ok_pair retries (scheduler.scheduleOnce env env.now)).returns
        scheduler).valid
      exact reaches.keepsRestores valid₁ prefers continues iterated
        (schedule_of_retry retries scheduled)

/-! ## Operations -/

/-- The operations which end the remote restore of a request. -/
inductive EndsRestoreOf (i : SeqId) : Op cfg → Prop
  | complete {now : ℚ} : EndsRestoreOf i (.completeRemoteRestore i now)
  | fail {now : ℚ} {error : String} {garbage : KvStore} :
      EndsRestoreOf i (.failRemoteRestore i now error garbage)
  | cancel {now : ℚ} : EndsRestoreOf i (.cancel i now)

/-- Processing the batch in flight keeps remote restores. -/
theorem Valid.processesAll_keepsRestores (valid : sys.Valid cfg) {tokenIds : List Token}
    {inFlight : InFlight} {isPrefill : Bool} {numTokens : ℕ} {elapsedMs : ℚ}
    (flying : sys.inFlight = some inFlight) (sampled : tokenIds.length = inFlight.seqs.length)
    (processes : ProcessesAll cfg (inFlight.seqs.zip tokenIds)
      (sys.scheduler.observeExecution cfg isPrefill numTokens elapsedMs) s') :
    KeepsRestores sys.scheduler s' := by
  have requests : (inFlight.seqs.zip tokenIds).map Prod.fst = sys.batch := by
    rw [List.map_fst_zip sampled.ge, batch_of_some flying]
  have observed : KeepsRestores sys.scheduler
      (sys.scheduler.observeExecution cfg isPrefill numTokens elapsedMs) := .of_seqs rfl rfl
  apply observed.trans
  apply processes.keepsRestores
  · rw [requests]
    exact valid.scheduler.batch_distinct
  · intro state mem scheduled
    rw [requests] at scheduled
    have positive := ((valid.scheduler.scheduled _).mp scheduled).2
    rw [(valid.scheduler.restoring mem).2.2.1.idle] at positive
    exact lt_irrefl 0 positive

/-- No operation forgets that a request has attempted a remote restore. -/
theorem Steps.attempted (steps : Steps cfg sys op sys') (valid : sys.Valid cfg)
    (enabled : sys.Enabled op) (known : i ∈ sys.known)
    (attempted : (sys.scheduler.seqs i).remoteRestoreAttempted = true) :
    (sys'.scheduler.seqs i).remoteRestoreAttempted = true := by
  cases steps with
  | @add request now =>
    have other : (sys.scheduler.add request.toSequence now).seqs i = sys.scheduler.seqs i := by
      refine Function.update_of_ne ?_ _ _
      rintro rfl
      exact enabled.2 known
    change ((sys.scheduler.add request.toSequence now).seqs i).remoteRestoreAttempted = true
    rw [other]
    exact attempted
  | schedule idle schedules =>
    have scheduler := valid.scheduler
    rw [batch_of_none idle] at scheduler
    exact (schedules.keepsRestores scheduler).attempted i attempted
  | postprocess flying _ sampled processes =>
    exact (valid.processesAll_keepsRestores flying sampled processes).attempted i attempted
  | runFailed => exact attempted
  | @cancel j now s' _ _ cancels =>
    change (s'.seqs i).remoteRestoreAttempted = true
    rw [cancels.seqs]
    by_cases same : i = j
    · subst same
      rw [Function.update_self]
      exact attempted
    · rw [Function.update_of_ne same]
      exact attempted
  | cancelNothing => exact attempted
  | @completeRemoteRestore state now s' mem ends =>
    change (s'.seqs i).remoteRestoreAttempted = true
    rw [ends.seqs]
    by_cases same : i = state.sequence
    · subst same
      rw [Function.update_self]
      exact ends.request.attempted attempted
    · rw [Function.update_of_ne same]
      exact attempted
  | @failRemoteRestore state now error garbage s' mem ends =>
    change (s'.seqs i).remoteRestoreAttempted = true
    rw [ends.seqs]
    by_cases same : i = state.sequence
    · subst same
      rw [Function.update_self]
      exact ends.request.attempted attempted
    · rw [Function.update_of_ne same]
      exact attempted

/-- Only the operations which end a remote restore change a request with a pending one. -/
theorem Steps.pending (steps : Steps cfg sys op sys') (valid : sys.Valid cfg)
    (enabled : sys.Enabled op) {state : PendingRestoreState}
    (mem : state ∈ sys.scheduler.pendingRestores) (goesOn : ¬EndsRestoreOf state.sequence op) :
    state ∈ sys'.scheduler.pendingRestores ∧
      sys'.scheduler.seqs state.sequence = sys.scheduler.seqs state.sequence := by
  rcases valid.scheduler.restoring mem with ⟨known, status, restoring, -⟩
  have filtered : ∀ {s' : Scheduler} {i : SeqId} {seq : Sequence}, state.sequence ≠ i →
      s'.seqs = Function.update sys.scheduler.seqs i seq →
      s'.pendingRestores = sys.scheduler.pendingRestores.filter (·.sequence ≠ i) →
        state ∈ s'.pendingRestores ∧
          s'.seqs state.sequence = sys.scheduler.seqs state.sequence := by
    intro s' i seq differ seqs pending
    rw [pending, seqs, List.mem_filter]
    exact ⟨⟨mem, by simpa using differ⟩, Function.update_of_ne differ _ _⟩
  cases steps with
  | @add request now =>
    refine ⟨mem, Function.update_of_ne ?_ _ _⟩
    intro same
    have inside := List.mem_toFinset.mp known
    rw [same] at inside
    exact enabled.2 inside
  | schedule idle schedules =>
    have scheduler := valid.scheduler
    rw [batch_of_none idle] at scheduler
    exact (schedules.keepsRestores scheduler).pending state mem
  | postprocess flying _ sampled processes =>
    exact (valid.processesAll_keepsRestores flying sampled processes).pending state mem
  | runFailed => exact ⟨mem, rfl⟩
  | cancel _ _ cancels =>
    refine filtered ?_ cancels.seqs cancels.pendingRestores
    rintro rfl
    exact goesOn .cancel
  | cancelNothing => exact ⟨mem, rfl⟩
  | completeRemoteRestore _ ends =>
    refine filtered ?_ ends.seqs ends.pendingRestores
    intro same
    exact goesOn (same ▸ .complete)
  | failRemoteRestore _ ends =>
    refine filtered ?_ ends.seqs ends.pendingRestores
    intro same
    exact goesOn (same ▸ .fail)

/-! ## A run after the start of a restore -/

theorem StartsOnce.keepsRestores (starts : StartsOnce cfg env sys s now) (valid : sys.Valid cfg) :
    KeepsRestores sys.scheduler s := by
  have scheduler := valid.scheduler
  cases starts with
  | first _ => exact .of_seqs rfl rfl
  | retry idle retries =>
    rw [batch_of_none idle] at scheduler
    have schedules := Py.of_ok_pair retries (scheduler.scheduleOnce env env.now)
    exact (schedules.keepsRestores scheduler).trans (.of_seqs rfl rfl)

/-- From the call of `schedule()` to an iteration of its prefill loop remote restores are kept. -/
theorem Prefilling.kept (prefilling : Prefilling cfg sys env now st) (valid : sys.Valid cfg) :
    KeepsRestores sys.scheduler st.scheduler := by
  cases prefilling with
  | reach starts _ reaches =>
    have started := PrefillState.start_valid (starts.valid valid)
    exact (starts.keepsRestores valid).trans (reaches.kept started)

theorem Prefilling.idle (prefilling : Prefilling cfg sys env now st) : sys.inFlight = none := by
  cases prefilling with
  | reach starts =>
    cases starts with
    | first idle => exact idle
    | retry idle _ => exact idle

/--
The iterations of prefill loops after an iteration: in the same loop, after a retry in the same
call of `schedule()`, and in later calls, with operations in between which satisfy a condition.
-/
inductive Later (cfg : Config) (Allowed : System → Op cfg → Prop) (sys : System)
    (env : ScheduleEnv cfg) :
    ℚ → PrefillState → System → ScheduleEnv cfg → ℚ → PrefillState → Prop
  | loop {now : ℚ} {st st₁ st' : PrefillState}
      (iterated : st.iterate cfg env now = .ok (.again st₁))
      (reaches : st₁.Reaches cfg env now st') : Later cfg Allowed sys env now st sys env now st'
  | retry {s : Scheduler} {st st' : PrefillState}
      (prefers : shouldSchedulePrefill cfg sys.scheduler.nextStep.estimator
        sys.scheduler.nextStep.seqs sys.scheduler.nextStep.stepId env.now
        sys.scheduler.nextStep.waiting sys.scheduler.nextStep.running = true)
      (first : (PrefillState.start sys.scheduler.nextStep).Reaches cfg env env.now st)
      (retries : sys.scheduler.scheduleOnce cfg env env.now = .ok (s, .retry))
      (reaches : (PrefillState.start s.nextStep).Reaches cfg env env.retryNow st') :
      Later cfg Allowed sys env env.now st sys env env.retryNow st'
  | call {now now' : ℚ} {st st' : PrefillState} {sys₁ sys' : System} {env' : ScheduleEnv cfg}
      (stepped : sys.step cfg (.schedule env) = .ok sys₁)
      (moves : Relation.ReflTransGen (MovesBy cfg Allowed) sys₁ sys')
      (prefilling : Prefilling cfg sys' env' now' st') :
      Later cfg Allowed sys env now st sys' env' now' st'

/--
A property of the scheduler which the parts of `schedule()` keep, and so do the allowed operations
after a state.
-/
structure Kept (cfg : Config) (sys : System) (Allowed : System → Op cfg → Prop)
    (Property : Scheduler → Prop) : Prop where
  parts : ∀ {s s' : Scheduler}, KeepsRestores s s' → Property s → Property s'
  steps : ∀ {sys₁ sys₂ : System} {op : Op cfg}, sys₁.Valid cfg → sys.known ⊆ sys₁.known →
    Allowed sys₁ op → sys₁.Enabled op → Steps cfg sys₁ op sys₂ → Property sys₁.scheduler →
      Property sys₂.scheduler

section Properties

variable {Allowed : System → Op cfg → Prop} {Property : Scheduler → Prop}

/-- What each operation keeps holds after some operations. -/
theorem Kept.movesBy (kept : Kept cfg sys Allowed Property) (more : sys.known ⊆ sys₁.known)
    (valid : sys₁.Valid cfg) (moves : Relation.ReflTransGen (MovesBy cfg Allowed) sys₁ sys')
    (holds : Property sys₁.scheduler) :
    sys'.Valid cfg ∧ sys.known ⊆ sys'.known ∧ Property sys'.scheduler := by
  induction moves with
  | refl => exact ⟨valid, more, holds⟩
  | tail _ moves ih =>
    rcases ih with ⟨valid₂, more₂, holds₂⟩
    rcases moves with ⟨op, allowed, enabled, stepped⟩
    rcases Py.of_ok stepped (valid₂.step enabled) with ⟨valid₃, steps⟩
    exact ⟨valid₃, List.Subset.trans more₂ steps.known_subset,
      kept.steps valid₂ more₂ allowed enabled steps holds₂⟩

/-- A property which is kept holds in the states after the call of `schedule()`. -/
theorem Kept.between (kept : Kept cfg sys Allowed Property) (valid : sys.Valid cfg)
    (prefilling : Prefilling cfg sys env now st) (continues : st.Continues cfg)
    (iterated : st.iterate cfg env now = .ok control) (holds : Property control.state.scheduler)
    (stepped : sys.step cfg (.schedule env) = .ok sys₁)
    (moves : Relation.ReflTransGen (MovesBy cfg Allowed) sys₁ sys') :
    sys'.Valid cfg ∧ Property sys'.scheduler := by
  rcases Py.of_ok stepped (valid.step prefilling.idle) with ⟨valid₁, steps⟩
  have started := kept.parts (prefilling.keepsRestores valid continues iterated stepped) holds
  rcases kept.movesBy steps.known_subset valid₁ moves started with ⟨valid', -, holds'⟩
  exact ⟨valid', holds'⟩

/-- A property which is kept holds in the later iterations. -/
theorem Kept.later (kept : Kept cfg sys Allowed Property) (valid : sys.Valid cfg)
    (prefilling : Prefilling cfg sys env now st) (continues : st.Continues cfg)
    (iterated : st.iterate cfg env now = .ok control) (holds : Property control.state.scheduler)
    (later : Later cfg Allowed sys env now st sys' env' now' st') :
    st'.Valid cfg sys'.known.toFinset sys'.kv ∧ Property st'.scheduler := by
  cases later with
  | loop again reaches =>
    rw [iterated] at again
    cases again
    have validSt := prefilling.valid valid
    rcases Py.of_ok iterated (validSt.iterate env now continues.1) with ⟨-, sound⟩
    exact ⟨reaches.valid sound.valid, kept.parts (reaches.kept sound.valid) holds⟩
  | @retry s₁ _ _ prefers first retries reaches =>
    have scheduler := valid.scheduler
    rw [batch_of_none prefilling.idle] at scheduler
    have schedules := Py.of_ok_pair retries (scheduler.scheduleOnce env env.now)
    have started := PrefillState.start_valid (schedules.returns scheduler).valid.nextStep
    have pass := first.keepsRestores scheduler prefers continues iterated retries
    have next : KeepsRestores s₁ s₁.nextStep := .of_seqs rfl rfl
    exact ⟨reaches.valid started,
      kept.parts ((pass.trans next).trans (reaches.kept started)) holds⟩
  | call stepped moves prefilling' =>
    rcases kept.between valid prefilling continues iterated holds stepped moves with
      ⟨valid', holds'⟩
    exact ⟨prefilling'.valid valid', kept.parts (prefilling'.kept valid') holds'⟩

end Properties

/-- A request which has attempted a remote restore has always attempted one later. -/
theorem kept_attempted (known : i ∈ sys.known) : Kept cfg sys (fun _ _ => True)
    fun s => (s.seqs i).remoteRestoreAttempted = true where
  parts keeps := keeps.attempted i
  steps valid more _ enabled steps := steps.attempted valid enabled (more known)

/-! ## The ends of a restore -/

/-- A record belongs to a request with a pending remote restore. -/
def Restores (s : Scheduler) (i : SeqId) (seq : Sequence) : Prop :=
  s.seqs i = seq ∧ ∃ state ∈ s.pendingRestores, state.sequence = i

variable {seq : Sequence}

theorem Restores.kept (restores : Restores s i seq) (keeps : KeepsRestores s s') :
    Restores s' i seq := by
  rcases restores with ⟨same, state, mem, rfl⟩
  rcases keeps.pending state mem with ⟨mem', same'⟩
  exact ⟨same'.trans same, state, mem', rfl⟩

/-- A pending restore stays pending until an operation ends it. -/
theorem kept_restores (sys : System) (i : SeqId) (seq : Sequence) :
    Kept cfg sys (fun _ op => ¬EndsRestoreOf i op) fun s => Restores s i seq where
  parts keeps restores := restores.kept keeps
  steps valid _ goesOn enabled steps restores := by
    rcases restores with ⟨same, state, mem, rfl⟩
    rcases steps.pending valid enabled mem goesOn with ⟨mem', same'⟩
    exact ⟨same'.trans same, state, mem', rfl⟩

/-- No prefix lookup returns a page which was allocated for a pending restore. -/
theorem Restores.hidden (restores : Restores s i seq) {ids : Finset SeqId} {kv : KvStore}
    {computed : Sequence → ℕ} {held batch : List SeqId}
    (valid : s.Valid cfg ids kv computed held batch) :
    ∀ blockId ∈ seq.newPages cfg, s.blockManager.Hidden cfg blockId := by
  rcases restores with ⟨rfl, state, mem, rfl⟩
  intro blockId new
  exact (valid.pending_unindexed mem blockId new).hidden valid.memory.index

/-- A failed restore is rolled back. -/
theorem Valid.fails (valid : sys.Valid cfg) (restores : Restores sys.scheduler i seq)
    (attempted : seq.remoteRestoreAttempted = true) (now : ℚ) (error : String)
    (garbage : KvStore) :
    ∃ sys', sys.step cfg (.failRemoteRestore i now error garbage) = .ok sys' ∧
      RolledBack cfg i .waiting sys.scheduler sys'.scheduler := by
  rcases restores with ⟨rfl, state, mem, rfl⟩
  have enabled : sys.Enabled (@Op.failRemoteRestore cfg state.sequence now error garbage) :=
    ⟨state, mem, rfl⟩
  rcases valid.step enabled with ⟨sys', stepped, valid', -⟩
  rcases valid.scheduler.failRemoteRestore_ok mem valid.scheduler.memory now error with
    ⟨bm', failed, -, refs⟩
  refine ⟨sys', stepped, ?_⟩
  simp only [System.step, valid.scheduler.pendingRestore mem, failed, Py.ok_bind] at stepped
  cases stepped
  exact valid.scheduler.rolledBack valid'.scheduler (valid.scheduler.restoring mem).1 rfl rfl
    ⟨rfl, rfl⟩ attempted (.of_popPendingResumeMatch refs) (valid.scheduler.pending_unindexed mem)

/-- A cancelled restore is rolled back. -/
theorem Valid.cancels (valid : sys.Valid cfg) (restores : Restores sys.scheduler i seq)
    (attempted : seq.remoteRestoreAttempted = true) (now : ℚ) :
    ∃ sys', sys.step cfg (.cancel i now) = .ok sys' ∧
      RolledBack cfg i .cancelled sys.scheduler sys'.scheduler := by
  rcases restores with ⟨rfl, state, mem, rfl⟩
  rcases valid.scheduler.restoring mem with ⟨known, status, restoring, -⟩
  have enabled : sys.Enabled (@Op.cancel cfg state.sequence now) := by
    intro batch flying scheduled
    have positive := (valid.batch_mem flying scheduled).2
    rw [restoring.idle] at positive
    exact absurd positive (lt_irrefl 0)
  have live : (sys.scheduler.seqs state.sequence).status.Live := by
    rw [status]
    trivial
  rcases valid.step enabled with ⟨sys', stepped, valid', steps⟩
  refine ⟨sys', stepped, ?_⟩
  cases steps with
  | cancel _ _ cancels =>
    exact valid.scheduler.rolledBack valid'.scheduler known cancels.seqs rfl ⟨rfl, rfl⟩ attempted
      cancels.index (valid.scheduler.pending_unindexed mem)
  | cancelNothing absent => exact absurd ⟨List.mem_toFinset.mp known, live⟩ absent

/-- A successful restore raises nothing. -/
theorem Valid.completes (valid : sys.Valid cfg) (restores : Restores sys.scheduler i seq)
    (now : ℚ) :
    ∃ sys', sys.step cfg (.completeRemoteRestore i now) = .ok sys' := by
  have enabled : sys.Enabled (@Op.completeRemoteRestore cfg i now) := restores.2
  rcases valid.step enabled with ⟨sys', stepped, -⟩
  exact ⟨sys', stepped⟩

/-- What holds of a request with a pending restore, and how the restore ends. -/
structure Restoring (cfg : Config) (sys : System) (i : SeqId) (seq : Sequence) : Prop where
  restores : Restores sys.scheduler i seq
  hidden : ∀ blockId ∈ seq.newPages cfg, sys.scheduler.blockManager.Hidden cfg blockId
  completes : ∀ now, ∃ sys', sys.step cfg (.completeRemoteRestore i now) = .ok sys'
  fails : ∀ now error garbage, ∃ sys',
    sys.step cfg (.failRemoteRestore i now error garbage) = .ok sys' ∧
      RolledBack cfg i .waiting sys.scheduler sys'.scheduler
  cancels : ∀ now, ∃ sys', sys.step cfg (.cancel i now) = .ok sys' ∧
    RolledBack cfg i .cancelled sys.scheduler sys'.scheduler

theorem Valid.restoring (valid : sys.Valid cfg) (restores : Restores sys.scheduler i seq)
    (attempted : seq.remoteRestoreAttempted = true) : Restoring cfg sys i seq where
  restores := restores
  hidden := restores.hidden valid.scheduler
  completes := valid.completes restores
  fails := valid.fails restores attempted
  cancels := valid.cancels restores attempted

/-- How a restore which an iteration has started goes on until an operation ends it. -/
structure GoesOn (cfg : Config) (sys : System) (env : ScheduleEnv cfg) (now : ℚ)
    (st : PrefillState) (i : SeqId) (seq : Sequence) : Prop where
  between : ∀ {sys₁ sys' : System}, sys.step cfg (.schedule env) = .ok sys₁ →
    Relation.ReflTransGen (MovesBy cfg fun _ op => ¬EndsRestoreOf i op) sys₁ sys' →
      Restoring cfg sys' i seq
  lookups : ∀ {sys' : System} {env' : ScheduleEnv cfg} {now' : ℚ} {st' : PrefillState}
    {s' : Scheduler}, Later cfg (fun _ op => ¬EndsRestoreOf i op) sys env now st sys' env' now' st' →
      st'.Looks cfg env' now' s' →
        Restores s' i seq ∧ ∀ blockId ∈ seq.newPages cfg, s'.blockManager.Hidden cfg blockId

/-- A restore goes on from the iteration which has started it. -/
theorem Prefilling.goesOn (prefilling : Prefilling cfg sys env now st) (valid : sys.Valid cfg)
    (continues : st.Continues cfg) (iterated : st.iterate cfg env now = .ok control)
    (restores : Restores control.state.scheduler i seq)
    (attempted : seq.remoteRestoreAttempted = true) : GoesOn cfg sys env now st i seq where
  between stepped moves := by
    rcases (kept_restores sys i seq).between valid prefilling continues iterated restores stepped
      moves with ⟨valid', restores'⟩
    exact valid'.restoring restores' attempted
  lookups later looks := by
    rcases (kept_restores sys i seq).later valid prefilling continues iterated restores later with
      ⟨valid', restores'⟩
    rcases looks.keepsRestores valid' with ⟨⟨held, batch, looked⟩, keeps⟩
    exact ⟨restores'.kept keeps, (restores'.kept keeps).hidden looked⟩

/-- After an iteration which has attempted a restore, none reserves pages for the request again. -/
theorem Prefilling.startsOnce (prefilling : Prefilling cfg sys env now st) (valid : sys.Valid cfg)
    (continues : st.Continues cfg) (iterated : st.iterate cfg env now = .ok control)
    (known : i ∈ sys.known)
    (attempted : (control.state.scheduler.seqs i).remoteRestoreAttempted = true)
    (later : Later cfg (fun _ _ => True) sys env now st sys' env' now' st') {n : ℕ}
    {pages : List RemotePageDescriptor} : ¬st'.Starts cfg env' now' i s n pages := by
  intro starts
  rcases (kept_attempted known).later valid prefilling continues iterated attempted later with
    ⟨valid', attempted'⟩
  have fresh := starts.offered.2.1
  rw [((starts.ready valid').2.1.request i).attempted attempted'] at fresh
  cases fresh

/-- What becomes of a remote restore for which an iteration reserves pages. -/
structure RestoreAtomic (cfg : Config) (sys : System) (env : ScheduleEnv cfg) (now : ℚ)
    (st : PrefillState) (i : SeqId) (s : Scheduler) (n : ℕ) (pages : List RemotePageDescriptor) :
    Prop where
  outcome : ∃ bm seq blockIds s' started,
    s.blockManager.reserveRestore cfg (s.seqs i) n pages.length = .ok (bm, seq, blockIds) ∧
    Reserves cfg s i n (s.put i bm seq) ∧
    s.startRemoteRestore cfg env i n now = .ok (s', started) ∧
    (started = false → RolledBack cfg i .waiting (s.put i bm seq) s') ∧
    (started = true → GoesOn cfg sys env now st i (seq.restoring now))
  startsOnce : ∀ {sys' : System} {env' : ScheduleEnv cfg} {now' : ℚ} {st' : PrefillState}
    {s' : Scheduler} {n' : ℕ} {pages' : List RemotePageDescriptor},
    Later cfg (fun _ _ => True) sys env now st sys' env' now' st' →
      ¬st'.Starts cfg env' now' i s' n' pages'

/--
If the submission of a remote restore is refused, the reservation is rolled back at once.
Otherwise no lookup returns its new pages until it ends, and it ends in success or is rolled back.
In no case does the request start another one.
-/
theorem restore_atomic (reachable : Reachable cfg sys)
    (prefilling : Prefilling cfg sys env now st) {n : ℕ} {pages : List RemotePageDescriptor}
    (starts : st.Starts cfg env now i s n pages) :
    RestoreAtomic cfg sys env now st i s n pages := by
  have valid := reachable.valid
  have validSt := prefilling.valid valid
  have continues := starts.offered.1
  rcases starts.ready validSt with ⟨⟨matched, -, ready⟩, -, -⟩
  have known := (ready.valid.scheduler.waiting ready.waits).1
  rcases starts.submits validSt with ⟨bm, seq, blockIds, s', started, control, reserved, valid₁,
    reserves, result, valid', submits, iterated, -, attempted, again⟩
  constructor
  · refine ⟨bm, seq, blockIds, s', started, reserved, reserves, result, ?_, ?_⟩
    · intro ended
      cases submits with
      | accepted => cases ended
      | @refused bm' error submitted index =>
        have seqs : (s.put i bm' ((seq.restoring now).withoutPages.restoreFailed now error)).seqs =
            Function.update (s.put i bm seq).seqs i
              ((seq.restoring now).withoutPages.restoreFailed now error) :=
          (Function.update_idem ..).symm
        apply valid₁.rolledBack valid' known seqs rfl ⟨rfl, rfl⟩ rfl index
        intro blockId new
        exact (reserves.hidden blockId new).unindexed
    · intro goes
      have left := again goes
      cases submits with
      | refused => cases goes
      | accepted submitted seqs blockManager waiting pending =>
        refine prefilling.goesOn valid continues iterated ?_ rfl
        rcases pending with ⟨state, same, pending⟩
        rw [left]
        refine ⟨?_, state, ?_, same⟩
        · change s'.seqs i = _
          rw [seqs, Function.update_self]
        · change state ∈ s'.pendingRestores
          rw [pending]
          exact List.mem_append_right _ (List.mem_singleton_self state)
  · intro sys' env' now' st' s' n' pages' later
    exact prefilling.startsOnce valid continues iterated (List.mem_toFinset.mp known) attempted
      later

/-- A request of five tokens waits. -/
def offeredRun : System :=
  (init smallPool).runOps smallPool [.add (plainRequest 0 5 4) 0]

/-- The next call selects it. -/
def offeredScheduler : Scheduler := offeredRun.scheduler.nextStep.selectPrefill smallPool 0 0

/-- A restore of its first two pages starts. -/
theorem restore_atomic_offered :
    (offeredRun.step smallPool (.schedule twoPagesEnv)).map
        (fun sys => sys.scheduler.pendingRestores.map PendingRestoreState.sequence) = .ok [0] ∧
      ∃ s pages, RestoreAtomic smallPool offeredRun twoPagesEnv 0
        (.start offeredRun.scheduler.nextStep) 0 s 0 pages := by
  have reachable : Reachable smallPool offeredRun := ReachableBy.runOps .init (by decide +kernel)
  have starts : StartsOnce smallPool twoPagesEnv offeredRun offeredRun.scheduler.nextStep 0 :=
    .first (by decide +kernel)
  have prefilling : Prefilling smallPool offeredRun twoPagesEnv 0
      (.start offeredRun.scheduler.nextStep) := .reach starts (by decide +kernel) .start
  have selects : PrefillState.Selects smallPool 0 (.start offeredRun.scheduler.nextStep) 0 :=
    ⟨[0], by decide +kernel, by decide +kernel⟩
  have considers : PrefillState.Considers smallPool 0 (.start offeredRun.scheduler.nextStep) 0
      offeredScheduler := .fresh selects (by decide +kernel) (by decide +kernel)
  have checked : (offeredScheduler.blockManager.canAllocate smallPool
      (offeredScheduler.seqs 0)).2 = some 0 := by
    decide +kernel
  have offered : (twoPagesEnv.service.planRestore (offeredScheduler.seqs 0) 0
      offeredScheduler.estimator.prefillMsPerToken).isSome := by
    decide +kernel
  rcases Option.isSome_iff_exists.mp offered with ⟨pages, planned⟩
  refine ⟨by decide +kernel, _, pages, restore_atomic reachable prefilling
    (.start ⟨by decide +kernel, by decide +kernel⟩ considers (Prod.ext rfl checked) ?_ ?_ planned)⟩
  · decide +kernel
  · decide +kernel

end System

end NanoVllm
