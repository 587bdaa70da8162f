import NanoVllm.Scheduler.BatchShape
import NanoVllm.Scheduler.Postprocess

/-!
# Pending remote restores

A remote restore reserves all pages of its request at once. Until it has succeeded, the pages
beyond the local hit are in no index, so that no prefix lookup returns them. No part of
`schedule()` changes a request with a pending restore, and an attempted restore stays attempted.
-/

namespace NanoVllm

open BlockManager

namespace BlockManager

variable {cfg : Config} {bm : BlockManager} {blockId : BlockId}

/-- A page which no prefix lookup returns. -/
structure Hidden (cfg : Config) (bm : BlockManager) (blockId : BlockId) : Prop where
  unindexed : bm.Unindexed cfg blockId
  lookup : ∀ seq, blockId ∉ (bm.lookupCachedBlocks cfg seq).2

theorem Unindexed.hidden (unindexed : bm.Unindexed cfg blockId) (index : bm.IndexValid cfg) :
    bm.Hidden cfg blockId where
  unindexed := unindexed
  lookup seq mem := by
    rcases List.mem_iff_getElem?.mp mem with ⟨k, get⟩
    exact unindexed _ ((lookupCachedBlocks_matches index seq).get k blockId get)

end BlockManager

/-- The pages of a request beyond its cached tokens. -/
def Sequence.newPages (cfg : Config) (seq : Sequence) : List BlockId :=
  seq.blockTable.drop (seq.cachedBlocks cfg)

namespace Scheduler

variable {cfg : Config} {ids : Finset SeqId} {kv : KvStore} {computed : Sequence → ℕ}
  {held batch sched sched' : List SeqId} {env : ScheduleEnv cfg} {now : ℚ} {s s' s'' : Scheduler}
  {bm : BlockManager} {i j : SeqId} {outcome : ScheduleOutcome} {retry retry' : Bool}

/-- The pages of an aligned request beyond its cached tokens are in no index. -/
theorem Valid.newPages_unindexed (valid : Valid cfg ids kv computed held batch s) (known : i ∈ ids)
    (uncompressed : (s.seqs i).kvCompressed = false)
    (aligned : (s.seqs i).numCachedTokens = (s.seqs i).cachedBlocks cfg * cfg.blockSize) :
    ∀ blockId ∈ (s.seqs i).newPages cfg, s.blockManager.Unindexed cfg blockId := by
  intro blockId mem
  have memory := valid.memory.request i known
  rcases List.mem_iff_getElem?.mp mem with ⟨k, get⟩
  rw [Sequence.newPages, List.getElem?_drop] at get
  apply (memory.exclusive _ blockId ((memory.mem_pages_iff uncompressed).mpr get) _).2.1
  rw [aligned, Nat.add_mul, Nat.add_mul, Nat.one_mul]
  have positive := cfg.blockSize_pos
  omega

/-- The pages reserved for a pending restore beyond the local hit are in no index. -/
theorem Valid.pending_unindexed (valid : Valid cfg ids kv computed held batch s)
    {state : PendingRestoreState} (mem : state ∈ s.pendingRestores) :
    ∀ blockId ∈ (s.seqs state.sequence).newPages cfg, s.blockManager.Unindexed cfg blockId := by
  rcases valid.restoring mem with ⟨known, -, restoring, pending⟩
  exact valid.newPages_unindexed known restoring.uncompressed pending.aligned

/-! ## What a schedule call keeps -/

/-- What the parts of `schedule()` keep of remote restores. -/
structure KeepsRestores (s s' : Scheduler) : Prop where
  attempted : ∀ i, (s.seqs i).remoteRestoreAttempted = true →
    (s'.seqs i).remoteRestoreAttempted = true
  pending : ∀ state ∈ s.pendingRestores, state ∈ s'.pendingRestores ∧
    s'.seqs state.sequence = s.seqs state.sequence

/-- Changing the queues of other requests, the block manager or the step. -/
theorem KeepsRestores.of_seqs (seqs : s'.seqs = s.seqs)
    (pending : s'.pendingRestores = s.pendingRestores) : KeepsRestores s s' := by
  constructor
  · intro i attempted
    rw [seqs]
    exact attempted
  · intro state mem
    rw [seqs, pending]
    exact ⟨mem, rfl⟩

theorem KeepsRestores.refl (s : Scheduler) : KeepsRestores s s := .of_seqs rfl rfl

theorem KeepsRestores.trans (first : KeepsRestores s s') (second : KeepsRestores s' s'') :
    KeepsRestores s s'' where
  attempted i attempted := second.attempted i (first.attempted i attempted)
  pending state mem := by
    rcases first.pending state mem with ⟨mem', same⟩
    rcases second.pending state mem' with ⟨mem'', same'⟩
    exact ⟨mem'', same'.trans same⟩

theorem Follows.keepsRestores (follows : Follows s s')
    (same : ∀ state ∈ s.pendingRestores, s'.seqs state.sequence = s.seqs state.sequence) :
    KeepsRestores s s' where
  attempted i := (follows.request i).attempted
  pending state mem := ⟨follows.restores state mem, same state mem⟩

/-- A request with a pending restore is in no other queue. -/
theorem Valid.pending_only (valid : Valid cfg ids kv computed held batch s)
    {state : PendingRestoreState} (mem : state ∈ s.pendingRestores) :
    state.sequence ∉ s.waiting ∧ state.sequence ∉ s.running ++ held := by
  have status := (valid.restoring mem).2.1
  constructor
  · intro waits
    rw [(valid.mem_waiting.mp waits).2] at status
    cases status
  · intro runs
    rw [(valid.mem_running.mp runs).2] at status
    cases status

namespace PrefillState

variable {st st' : PrefillState} {control : PrefillControl}

theorem Iterates.keepsRestores (iterates : Iterates cfg env now st control)
    (valid : st.Valid cfg ids kv) (sound : Sound cfg ids kv st control) :
    KeepsRestores st.scheduler control.state.scheduler := by
  apply sound.follows.keepsRestores
  intro state mem
  exact iterates.others (valid.scheduler.pending_only mem).1

theorem Loops.keepsRestores (loops : Loops cfg ids kv env now st st') :
    KeepsRestores st.scheduler st'.scheduler := by
  induction loops with
  | stop _ _ => exact .refl _
  | leave valid _ iterates sound => exact iterates.keepsRestores valid sound
  | again valid _ iterates sound _ ih => exact (iterates.keepsRestores valid sound).trans ih

end PrefillState

theorem Decodes.keepsRestores (decodes : Decodes cfg ids kv now s sched retry s' sched' retry')
    (valid : DecodeValid cfg ids kv sched s) : KeepsRestores s s' := by
  apply decodes.follows.keepsRestores
  intro state mem
  apply decodes.others
  intro runs
  exact (valid.scheduler.pending_only mem).2 (List.mem_append_left _ runs)

theorem Prefills.keepsRestores {st : PrefillState} (prefills : Prefills cfg ids kv env now s st) :
    KeepsRestores s st.scheduler := by
  rcases prefills with ⟨-, loops⟩ | ⟨-, rfl⟩
  · exact loops.keepsRestores
  · exact .refl s

/-- A pass keeps remote restores. -/
theorem SchedulesOnce.keepsRestores
    (schedules : SchedulesOnce cfg ids kv env now s s' outcome)
    (valid : Valid cfg ids kv Sequence.numCachedTokens [] [] s) : KeepsRestores s s' := by
  have next : KeepsRestores s s.nextStep := .of_seqs rfl rfl
  have decoded : ∀ {st : PrefillState} {s' : Scheduler} {sched : List SeqId} {retry : Bool},
      Prefills cfg ids kv env now s.nextStep st → st.scheduledSeqs = [] →
        Decodes cfg ids kv now st.scheduler [] false s' sched retry → KeepsRestores s s' := by
    intro st s' sched retry prefills none decodes
    have valid' := (prefills.valid valid.nextStep).decodeValid none
    exact next.trans (prefills.keepsRestores.trans (decodes.keepsRestores valid'))
  cases schedules with
  | prefill prefills _ => exact next.trans prefills.keepsRestores
  | decode prefills none decodes _ => exact (decoded prefills none decodes).trans (.of_seqs rfl rfl)
  | waits prefills none decodes _ => exact decoded prefills none decodes
  | retry prefills none decodes _ => exact decoded prefills none decodes
  | noRunnable prefills none decodes _ => exact decoded prefills none decodes

/-- `schedule()` keeps remote restores. -/
theorem SchedulesAll.keepsRestores (schedules : SchedulesAll cfg ids kv env s s' outcome)
    (valid : Valid cfg ids kv Sequence.numCachedTokens [] [] s) : KeepsRestores s s' := by
  cases schedules with
  | once schedules _ => exact schedules.keepsRestores valid
  | again first schedules _ =>
    exact (first.keepsRestores valid).trans (schedules.keepsRestores (first.returns valid).valid)

theorem Processed.attempted {seq seq' : Sequence} {tokenId : Token}
    (processed : Processed cfg seq tokenId seq') (attempted : seq.remoteRestoreAttempted = true) :
    seq'.remoteRestoreAttempted = true := by
  cases processed with
  | incomplete _ same => exact same.attempted attempted
  | appended _ _ _ _ _ _ _ same => exact same.trans attempted

/-- Processing a batch without restoring requests keeps remote restores. -/
theorem ProcessesAll.keepsRestores {events : List (SeqId × Token)}
    (processes : ProcessesAll cfg events s s') (distinct : (events.map Prod.fst).Nodup)
    (absent : ∀ state ∈ s.pendingRestores, state.sequence ∉ events.map Prod.fst) :
    KeepsRestores s s' := by
  rcases processes.each distinct with ⟨others, each⟩
  constructor
  · intro i attempted
    by_cases scheduled : i ∈ events.map Prod.fst
    · rcases List.mem_map.mp scheduled with ⟨event, mem, rfl⟩
      exact (each event mem).attempted attempted
    · rw [others i scheduled]
      exact attempted
  · intro state mem
    rw [processes.pendingRestores]
    exact ⟨mem, others state.sequence (absent state mem)⟩

/-! ## The start of a restore -/

/-- What `reserve_restore` has done for a request with `n` local pages. -/
structure Reserves (cfg : Config) (s : Scheduler) (i : SeqId) (n : ℕ) (r : Scheduler) : Prop where
  full : (r.seqs i).blockTable.length = (r.seqs i).numBlocks cfg
  cached : (r.seqs i).numCachedTokens = n * cfg.blockSize
  newPages : (r.seqs i).newPages cfg = (r.seqs i).blockTable.drop n
  hidden : ∀ blockId ∈ (r.seqs i).newPages cfg, r.blockManager.Hidden cfg blockId
  taken : ∀ blockId, (r.blockManager.blocks blockId).refCount =
    (s.blockManager.blocks blockId).refCount + (r.seqs i).blockTable.count blockId
  others : ∀ j, j ≠ i → r.seqs j = s.seqs j

/-- What `_start_remote_restore` does with the reserved request. -/
inductive Submits (env : ScheduleEnv cfg) (s : Scheduler) (i : SeqId) (now : ℚ)
    (bm : BlockManager) (seq : Sequence) : Scheduler → Bool → Prop
  | accepted {s' : Scheduler} (submitted : env.submitError i = none)
      (seqs : s'.seqs = Function.update s.seqs i (seq.restoring now))
      (blockManager : s'.blockManager = bm) (waiting : s'.waiting = s.waiting.erase i)
      (pending : ∃ state, state.sequence = i ∧ s'.pendingRestores = s.pendingRestores ++ [state]) :
      Submits env s i now bm seq s' true
  | refused {bm' : BlockManager} {error : String} (submitted : env.submitError i = some error)
      (index : SameIndex bm bm') :
      Submits env s i now bm seq
        (s.put i bm' ((seq.restoring now).withoutPages.restoreFailed now error)) false

/-- Marking a waiting request with its budget keeps the requests. -/
theorem Valid.selectPrefill_follows (valid : Valid cfg ids kv computed held batch s)
    (mem : i ∈ s.waiting) (now : ℚ) : Follows s (s.selectPrefill cfg i now) := by
  apply withBudget_follows
  rw [(valid.waiting mem).2.1]
  trivial

namespace PrefillState

variable {st st' : PrefillState} {control : PrefillControl} {n : ℕ} {matched : List BlockId}
  {pages : List RemotePageDescriptor}

/-- The scheduler with which an iteration comes to the admission of a request without pages. -/
inductive Considers (cfg : Config) (now : ℚ) (st : PrefillState) (i : SeqId) : Scheduler → Prop
  | fresh (selects : Selects cfg now st i) (budget : st.numBatchedTokens < cfg.maxNumBatchedTokens)
      (table : (st.scheduler.seqs i).blockTable = []) :
      Considers cfg now st i (st.scheduler.selectPrefill cfg i now)
  | emptied {s : Scheduler} (selects : Selects cfg now st i)
      (budget : st.numBatchedTokens < cfg.maxNumBatchedTokens)
      (table : (st.scheduler.seqs i).blockTable ≠ [])
      (ensured :
        (st.scheduler.selectPrefill cfg i now).ensureResumeCapacity cfg i now = .ok (s, true))
      (empty : (s.seqs i).blockTable = []) : Considers cfg now st i s

/--
An iteration reserves pages for a remote restore: with the scheduler `s` it calls
`_start_remote_restore` for a request with `n` local pages, and the service offers some pages.
-/
inductive Starts (cfg : Config) (env : ScheduleEnv cfg) (now : ℚ) (st : PrefillState) (i : SeqId) :
    Scheduler → ℕ → List RemotePageDescriptor → Prop
  | start {s : Scheduler} {bm : BlockManager} {n : ℕ} {pages : List RemotePageDescriptor}
      (continues : st.Continues cfg) (considers : Considers cfg now st i s)
      (checked : s.blockManager.canAllocate cfg (s.seqs i) = (bm, some n))
      (permitted : reserveForbids cfg { s with blockManager := bm } i = .ok false)
      (fresh : (s.seqs i).remoteRestoreAttempted = false)
      (planned : env.service.planRestore (s.seqs i) n s.estimator.prefillMsPerToken = some pages) :
      Starts cfg env now st i { s with blockManager := bm } n pages

theorem Selects.marked (selects : Selects cfg now st i) (valid : st.Valid cfg ids kv) :
    ({ st with scheduler := st.scheduler.selectPrefill cfg i now } : PrefillState).Valid
      cfg ids kv :=
  valid.withBudget selects.mem.1 _

/-- An iteration which considers a request without pages goes on with its admission. -/
theorem Considers.spec (considers : Considers cfg now st i s) (valid : st.Valid cfg ids kv)
    (env : ScheduleEnv cfg) :
    st.iterate cfg env now = ({ st with scheduler := s } : PrefillState).admitFresh cfg env i
        (cfg.maxNumBatchedTokens - st.numBatchedTokens) now ∧
      ({ st with scheduler := s } : PrefillState).Valid cfg ids kv ∧ i ∈ s.waiting ∧
      (s.seqs i).blockTable = [] ∧ st.numBatchedTokens < cfg.maxNumBatchedTokens ∧
      Follows st.scheduler s := by
  have remaining : st.numBatchedTokens < cfg.maxNumBatchedTokens →
      ¬cfg.maxNumBatchedTokens - st.numBatchedTokens = 0 := by
    intro budget
    omega
  cases considers with
  | fresh selects budget table =>
    have mem := selects.mem.1
    have follows := valid.scheduler.selectPrefill_follows mem now
    have table' : ((st.scheduler.selectPrefill cfg i now).seqs i).blockTable = [] := by
      rw [selectPrefill_table]
      exact table
    refine ⟨?_, selects.marked valid, mem, table', budget, follows⟩
    rw [iterate_of_selects selects, if_neg (remaining budget), if_pos table']
  | emptied selects budget table ensured empty =>
    have mem := selects.mem.1
    have marked := selects.marked valid
    have follows := valid.scheduler.selectPrefill_follows mem now
    have owned : ((st.scheduler.selectPrefill cfg i now).seqs i).blockTable ≠ [] := by
      rw [selectPrefill_table]
      exact table
    rcases Py.of_ok_pair ensured (marked.scheduler.ensureResumeCapacity mem
      (fun j mem' => marked.idle budget mem') owned now) with ⟨valid', reclaims, -⟩
    refine ⟨?_, marked.withScheduler valid' ?_, ?_, empty, budget, follows.trans reclaims.follows⟩
    · rw [iterate_of_selects selects, if_neg (remaining budget), if_neg owned, ensured, Py.ok_bind]
      simp only [Bool.not_true, Bool.false_eq_true, if_false, empty, if_true]
    · intro j scheduled
      have kept := (reclaims.seqs j).resolve_right fun reclaimed =>
        marked.notScheduled budget reclaimed.1 scheduled
      rw [kept]
      exact ⟨rfl, rfl⟩
    · rw [reclaims.waiting]
      exact mem

/-- What is known at a call of `_start_remote_restore`. -/
structure Ready (cfg : Config) (ids : Finset SeqId) (kv : KvStore) (st : PrefillState) (i : SeqId)
    (matched : List BlockId) : Prop where
  valid : st.Valid cfg ids kv
  budget : st.numBatchedTokens < cfg.maxNumBatchedTokens
  waits : i ∈ st.scheduler.waiting
  table : (st.scheduler.seqs i).blockTable = []
  longest : Matches cfg st.scheduler.blockManager (st.scheduler.seqs i) matched
  current : PlanCurrent cfg st.scheduler.blockManager (st.scheduler.seqs i)
  fits : Fits cfg st.scheduler.blockManager (st.scheduler.seqs i) matched

theorem Ready.idle (ready : st.Ready cfg ids kv i matched) :
    (st.scheduler.seqs i).numScheduledTokens = 0 :=
  ready.valid.idle ready.budget ready.waits

/-- The rest of an iteration in which `_start_remote_restore` has started nothing. -/
def admitLocal (cfg : Config) (st : PrefillState) (i : SeqId) (n : ℕ) (now : ℚ) :
    Py PrefillControl := do
  let s := st.scheduler
  let remaining := cfg.maxNumBatchedTokens - st.numBatchedTokens
  let numTokens := (s.seqs i).numTokens - n * cfg.blockSize
  if remaining < numTokens ∧ st.scheduledSeqs ≠ [] then .ok (.leave st)
  else do
    let previousCachedTokens := (s.seqs i).numCachedTokens
    let (bm, seq) ← s.blockManager.allocate cfg (s.seqs i) n
    let s := s.put i bm (seq.recordReusedTokens (seq.numCachedTokens - previousCachedTokens))
    .ok (.again (({ st with scheduler := s } : PrefillState).schedulePrefill i numTokens
      remaining now))

theorem Ready.admitLocal (ready : st.Ready cfg ids kv i matched) (now : ℚ) :
    ∃ control, st.admitLocal cfg i matched.length now = .ok control ∧
      Sound cfg ids kv st control := by
  rcases ready.valid.admitChecked ready.budget ready.waits ready.table ready.longest ready.current
    ready.fits now with ⟨control, admitted, -, sound⟩
  exact ⟨control, admitted, sound⟩

theorem Starts.offered (starts : Starts cfg env now st i s n pages) :
    st.Continues cfg ∧ (s.seqs i).remoteRestoreAttempted = false ∧
      env.service.planRestore (s.seqs i) n s.estimator.prefillMsPerToken = some pages := by
  cases starts with
  | start continues _ _ _ fresh planned => exact ⟨continues, fresh, planned⟩

/-- The call of `_start_remote_restore` in an iteration, and how the iteration goes on. -/
theorem Starts.ready (starts : Starts cfg env now st i s n pages) (valid : st.Valid cfg ids kv) :
    (∃ matched, matched.length = n ∧
        ({ st with scheduler := s } : PrefillState).Ready cfg ids kv i matched) ∧
      Follows st.scheduler s ∧
      st.iterate cfg env now = s.startRemoteRestore cfg env i n now >>= fun (s', started) =>
        if started then .ok (.again { st with scheduler := s' })
        else ({ st with scheduler := s' } : PrefillState).admitLocal cfg i n now := by
  cases starts with
  | @start s bm n pages continues considers checked permitted fresh planned =>
    rcases considers.spec valid env with ⟨iterated, valid₁, waits, table, budget, follows⟩
    rcases valid₁.canAllocate waits table checked with
      ⟨matched, rfl, longest, current, fits, planned', valid₂⟩
    have looked : Follows s { s with blockManager := bm } := .of_seqs rfl rfl rfl rfl
    refine ⟨⟨matched, rfl, valid₂, budget, waits, table, longest, current, fits⟩,
      follows.trans looked, ?_⟩
    rw [iterated, PrefillState.admitFresh]
    dsimp only
    rw [checked]
    dsimp only
    rw [permitted, Py.ok_bind]
    rfl

/-- Reserving the pages of an offered restore. -/
theorem Ready.reserves (ready : st.Ready cfg ids kv i matched)
    (planned : env.service.planRestore (st.scheduler.seqs i) matched.length
      st.scheduler.estimator.prefillMsPerToken = some pages) :
    ∃ bm fresh blockIds, st.scheduler.blockManager.reserveRestore cfg (st.scheduler.seqs i)
        matched.length pages.length =
          .ok (bm, (st.scheduler.seqs i).admitted cfg (matched ++ fresh) matched.length, blockIds) ∧
      Scheduler.Valid cfg ids kv Sequence.numCachedTokens [] st.scheduledSeqs
        (st.scheduler.put i bm
          ((st.scheduler.seqs i).admitted cfg (matched ++ fresh) matched.length)) ∧
      Reserves cfg st.scheduler i matched.length (st.scheduler.put i bm
        ((st.scheduler.seqs i).admitted cfg (matched ++ fresh) matched.length)) := by
  have valid := ready.valid.scheduler
  rcases env.service.plan_valid planned with ⟨extendsLocal, tail, -⟩
  rcases valid.waiting ready.waits with ⟨known, status, waiting⟩
  rcases valid.reserveRestore ready.waits ready.table ready.idle ready.longest ready.current
    ready.fits extendsLocal tail with
    ⟨bm, fresh, reserved, length, valid', -, -, unindexed⟩
  refine ⟨bm, fresh, _, reserved, valid', ?_⟩
  set seq := (st.scheduler.seqs i).admitted cfg (matched ++ fresh) matched.length with seq_def
  set r := st.scheduler.put i bm seq with r_def
  have self : r.seqs i = seq := Function.update_self _ _ _
  have local_blocks : seq.cachedBlocks cfg = matched.length :=
    Nat.mul_div_cancel _ cfg.blockSize_pos
  constructor
  · rw [self]
    exact length
  · rw [self]
    rfl
  · rw [self, Sequence.newPages, local_blocks]
  · intro blockId mem
    rw [self, Sequence.newPages, local_blocks] at mem
    have new : blockId ∈ (matched ++ fresh).drop matched.length := mem
    rw [List.drop_left] at new
    exact (unindexed blockId new).hidden valid'.memory.index
  · intro blockId
    have refs := @tableRefs_update ids st.scheduler.seqs i known seq blockId
    rw [ready.table, List.count_nil, Nat.add_zero] at refs
    rw [valid.memory.pool.refCount, valid'.memory.pool.refCount, self]
    exact (congrArg Nat.cast refs).trans (Nat.cast_add _ _)
  · intro j differ
    exact Function.update_of_ne differ _ _

/-- A restore whose submission succeeds. -/
theorem startRemoteRestore_accepted {bm : BlockManager} {seq : Sequence} {blockIds : List BlockId}
    (fresh : (s.seqs i).remoteRestoreAttempted = false)
    (planned : env.service.planRestore (s.seqs i) n s.estimator.prefillMsPerToken = some pages)
    (reserved : s.blockManager.reserveRestore cfg (s.seqs i) n pages.length =
      .ok (bm, seq, blockIds)) (status : seq.status = .waiting)
    (submitted : env.submitError i = none) (now : ℚ) :
    ∃ s', s.startRemoteRestore cfg env i n now = .ok (s', true) ∧
      Submits env s i now bm seq s' true := by
  have begun : seq.beginRemoteRestore now = .ok (seq.restoring now) := if_neg (not_not.mpr status)
  unfold Scheduler.startRemoteRestore
  rw [fresh, planned]
  simp only [Bool.false_eq_true, if_false]
  rw [reserved, Py.ok_bind, begun, Py.ok_bind, submitted]
  exact ⟨_, rfl, .accepted submitted rfl rfl rfl ⟨_, rfl, rfl⟩⟩

/-- After a refused submission the request is as ready as before. -/
theorem Ready.refused (ready : st.Ready cfg ids kv i matched)
    (valid : s.Valid cfg ids kv Sequence.numCachedTokens [] st.scheduledSeqs)
    (refused : RestoreRefused cfg st.scheduler i matched s) :
    ({ st with scheduler := s } : PrefillState).Ready cfg ids kv i matched := by
  rcases refused.seqs with ⟨seq, seqs⟩
  rcases ready.valid.scheduler.waiting ready.waits with ⟨known, -⟩
  have waits : i ∈ s.waiting := by
    rw [refused.waiting]
    exact ready.waits
  refine ⟨ready.valid.withRequest ready.budget ready.waits seqs valid, ready.budget, waits,
    refused.table, refused.longest, ?_, refused.fits⟩
  intro plan found
  change s.blockManager.pendingMatches (s.seqs i).seqId = some plan at found
  rw [(valid.request i known).named, refused.noPlan] at found
  cases found

/--
What an iteration does which reserves pages for a remote restore: the reserved request waits for
its pages, or it gives them up and is scheduled like a request without remote pages.
-/
theorem Starts.submits (starts : Starts cfg env now st i s n pages) (valid : st.Valid cfg ids kv) :
    ∃ bm seq blockIds s' started control, s.blockManager.reserveRestore cfg (s.seqs i) n
        pages.length = .ok (bm, seq, blockIds) ∧
      (s.put i bm seq).Valid cfg ids kv Sequence.numCachedTokens [] st.scheduledSeqs ∧
      Reserves cfg s i n (s.put i bm seq) ∧
      s.startRemoteRestore cfg env i n now = .ok (s', started) ∧
      s'.Valid cfg ids kv Sequence.numCachedTokens [] st.scheduledSeqs ∧
      Submits env s i now bm seq s' started ∧ st.iterate cfg env now = .ok control ∧
      Sound cfg ids kv st control ∧
      (control.state.scheduler.seqs i).remoteRestoreAttempted = true ∧
      (started = true → control = .again { st with scheduler := s' }) := by
  rcases starts.ready valid with ⟨⟨matched, rfl, ready⟩, -, iterated⟩
  rcases starts.offered with ⟨continues, fresh, planned⟩
  rcases valid.iterate env now continues.1 with ⟨control, iterated', -, sound⟩
  rcases ready.reserves planned with ⟨bm, free, blockIds, reserved, valid₁, reserves⟩
  rcases ready.valid.scheduler.startRemoteRestore env now ready.waits ready.table ready.idle
    ready.longest ready.current ready.fits with ⟨s', started, result, valid', -, outcome⟩
  have status := (ready.valid.scheduler.waiting ready.waits).2.1
  have returned := iterated'
  rw [iterated, result, Py.ok_bind] at returned
  dsimp only at result returned
  have submits : Submits env s i now bm ((s.seqs i).admitted cfg (matched ++ free) matched.length)
      s' started := by
    cases submitted : env.submitError i with
    | none =>
      rcases startRemoteRestore_accepted fresh planned reserved status submitted now with
        ⟨s'', result', submits⟩
      rw [result] at result'
      cases result'
      exact submits
    | some error =>
      have owned : matched ++ free ≠ [] := by
        intro empty
        have waiting := (valid₁.waiting ready.waits).2.2
        have positive := @Sequence.numBlocks_pos cfg _ ((Nat.zero_le _).trans_lt waiting.short)
        rw [← reserves.full] at positive
        simp [Scheduler.put, Sequence.admitted, empty] at positive
      rcases ready.valid.scheduler.startRemoteRestore_refused env now ready.waits ready.idle fresh
        planned reserved owned valid₁ submitted with ⟨bm', refused, -, same⟩
      rw [result] at refused
      cases refused
      exact .refused submitted (.of_popPendingResumeMatch same)
  refine ⟨bm, _, blockIds, s', started, control, reserved, valid₁, reserves, result, valid',
    submits, iterated', sound, ?_⟩
  cases submits with
  | accepted submitted seqs _ _ _ =>
    cases returned
    refine ⟨?_, fun _ => rfl⟩
    change (s'.seqs i).remoteRestoreAttempted = true
    rw [seqs, Function.update_self]
    rfl
  | refused submitted index =>
    refine ⟨?_, fun started => absurd started Bool.false_ne_true⟩
    rcases outcome with ⟨started, -⟩ | ⟨-, unchanged | refused⟩
    · cases started
    · dsimp only at unchanged
      have attempted : (s.seqs i).remoteRestoreAttempted = true := by
        rw [← unchanged]
        simp [Scheduler.put, Sequence.restoreFailed, Sequence.withoutPages, Sequence.restoring]
      rw [fresh] at attempted
      cases attempted
    · rcases (ready.refused valid' refused).admitLocal now with ⟨control', admitted, sound'⟩
      simp only [Bool.false_eq_true, if_false] at returned
      rw [admitted] at returned
      cases returned
      exact (sound'.follows.request i).attempted refused.attempted

end PrefillState

end Scheduler

end NanoVllm
