import NanoVllm.Engine.Phases
import NanoVllm.ModelRunner.Graphs

/-!
# Capacity checks

Each capacity check of the block manager answers whether the free pages suffice, and what the
scheduler does after a positive answer succeeds and takes exactly the announced pages. This holds
in every state which a run passes, so that no operation of a run raises.
-/

namespace NanoVllm

namespace BlockManager

/-- The pages of a request without pages, less the matched ones in use. -/
def admissionPages (cfg : Config) (bm : BlockManager) (seq : Sequence) : ℕ :=
  seq.numBlocks cfg - bm.countUsed (bm.lookupCachedBlocks cfg seq).2

/-- The missing pages of a request, less those of the re-attachable suffix in use. -/
def resumptionPages (cfg : Config) (bm : BlockManager) (seq : Sequence) : ℕ :=
  seq.numBlocks cfg - seq.blockTable.length - bm.countUsed
    (resumableSuffix seq (seq.numBlocks cfg - seq.blockTable.length)
      (bm.lookupCachedBlocks cfg seq).2)

/-- The free list has shrunk by some pages. -/
def Takes (bm : BlockManager) (pages : ℕ) (bm' : BlockManager) : Prop :=
  bm'.freeBlockIds.length + pages = bm.freeBlockIds.length

/-- The free pages after acquiring matched pages and allocating fresh ones. -/
theorem Allocates.length_free {cfg : Config} {bm bm₀ bm' : BlockManager} {refs : BlockId → ℕ}
    {attached fresh : List BlockId} (allocates : Allocates cfg bm₀ (addRefs refs attached) bm' fresh)
    (pool : PoolValid cfg bm refs) (distinct : attached.Nodup) :
    bm'.freeBlockIds.length + (attached.length + fresh.length) =
      bm.freeBlockIds.length + attached.countP (0 < refs ·) := by
  have unreferenced : ∀ blockId ∈ fresh, refs blockId = 0 ∧ blockId ∉ attached := by
    intro blockId mem
    have none := allocates.unreferenced blockId mem
    rw [addRefs, Nat.add_eq_zero_iff, List.count_eq_zero] at none
    exact none
  have together : addRefs (addRefs refs attached) fresh = addRefs refs (attached ++ fresh) := by
    funext blockId
    simp only [addRefs, List.count_append, Nat.add_assoc]
  have pool' := allocates.pool
  rw [together] at pool'
  have free := pool.length_free_addRefs pool' (List.nodup_append.mpr
    ⟨distinct, allocates.distinct, by
      rintro blockId mem _ mem' rfl
      exact (unreferenced blockId mem').2 mem⟩)
  have noneUsed : fresh.countP (0 < refs ·) = 0 := by
    apply List.countP_eq_zero.mpr
    intro blockId mem
    simp [(unreferenced blockId mem).1]
  rwa [List.length_append, List.countP_append, noneUsed, Nat.add_zero] at free

end BlockManager

open BlockManager

variable {cfg : Config} {ids : Finset SeqId} {kv : KvStore} {i : SeqId}

section Memory

variable {seqs : SeqId → Sequence} {bm : BlockManager} {matched : List BlockId}

/-- An admission takes its pages except the matched ones in use. -/
theorem MemoryValid.allocate_takes
    (valid : MemoryValid cfg ids seqs bm kv Sequence.numCachedTokens) (known : i ∈ ids)
    (table : (seqs i).blockTable = []) (uncached : (seqs i).numCachedTokens = 0)
    (longest : Matches cfg bm (seqs i) matched) (current : PlanCurrent cfg bm (seqs i))
    (fits : Fits cfg bm (seqs i) matched) :
    ∃ bm' seq', bm.allocate cfg (seqs i) matched.length = .ok (bm', seq') ∧
      bm.Takes ((seqs i).numBlocks cfg - bm.countUsed matched) bm' := by
  rcases valid.allocate known table uncached longest current fits with
    ⟨bm₀, bm', fresh, allocated, length, -, -, -, -, allocates⟩
  refine ⟨bm', _, allocated, ?_⟩
  have free := allocates.length_free valid.pool (longest.distinct valid.index)
  have used : bm.countUsed matched ≤ matched.length := List.countP_le_length
  have bound := longest.length_le
  rw [← valid.countUsed_eq] at free
  rw [Fits] at fits
  rw [Takes]
  omega

/-- A positive answer of `can_resume` is followed by a resumption of the announced cost. -/
theorem MemoryValid.resume_takes
    (valid : MemoryValid cfg ids seqs bm kv Sequence.numCachedTokens) (known : i ∈ ids)
    (longest : Matches cfg bm (seqs i) matched)
    (planned : bm.pendingResumeMatches (seqs i).seqId =
      some (resumeSuffix cfg (seqs i) matched))
    (fits : ResumeFits cfg bm (seqs i) matched) :
    ∃ bm' seq' reused, bm.resume cfg (seqs i) = .ok (bm', seq', reused) ∧
      bm.Takes ((seqs i).numBlocks cfg - (seqs i).blockTable.length -
        bm.countUsed (resumeSuffix cfg (seqs i) matched)) bm' := by
  have same : SameMemory cfg bm (bm.popPendingResumeMatch (seqs i).seqId) := .of_plans _ _
  have valid₀ := valid.sameMemory same
  have distinct := resumeSuffix_distinct cfg (longest.distinct valid.index)
    (valid.request i known).distinct
  have bound := resumeSuffix_length_le cfg (seqs i) matched
  have inRange : ∀ blockId ∈ resumeSuffix cfg (seqs i) matched, blockId < cfg.numBlocks := by
    intro blockId mem
    rcases List.mem_iff_getElem?.mp mem with ⟨k, get⟩
    exact (valid₀.cached _ _ (resumeSuffix_entry (longest.of_sameMemory same) get)).1
  rw [ResumeFits, valid.countUsed_eq] at fits
  rcases valid₀.pool.grow valid₀.index (resumeSuffix cfg (seqs i) matched)
    ((seqs i).numBlocks cfg -
      ((seqs i).blockTable ++ resumeSuffix cfg (seqs i) matched).length) inRange
    (List.nodup_append.mp distinct).2.1 (by rw [List.length_append, same.freeBlockIds]; omega)
    ((seqs i).blockTable ++ resumeSuffix cfg (seqs i) matched) with
    ⟨bm₁, bm', fresh, acquired, allocated, length, allocates⟩
  have free := allocates.length_free valid.pool (List.nodup_append.mp distinct).2.1
  have used : (resumeSuffix cfg (seqs i) matched).countP (0 < tableRefs ids seqs ·) ≤
    (resumeSuffix cfg (seqs i) matched).length := List.countP_le_length
  have resumed : ∃ result, bm.resume cfg (seqs i) = .ok result ∧ result.1 = bm' := by
    simp only [BlockManager.resume, plannedResume, planned, Py.ok_bind, acquired, allocated]
    exact ⟨_, rfl, rfl⟩
  rcases resumed with ⟨⟨bm₂, seq', reused⟩, resumed, rfl⟩
  refine ⟨bm₂, seq', reused, resumed, ?_⟩
  simp only at free
  rw [List.length_append] at length
  rw [Takes, valid.countUsed_eq]
  omega

/-- A free page suffices for the next token. -/
theorem MemoryValid.append_takes {computed : Sequence → ℕ}
    (valid : MemoryValid cfg ids seqs bm kv computed) (seq : Sequence)
    (room : bm.canAppend cfg seq = true) :
    ∃ bm' seq', bm.mayAppend cfg seq = .ok (bm', seq') ∧
      bm.Takes (if startsPage cfg seq then 1 else 0) bm' := by
  cases starts : startsPage cfg seq with
  | false => exact ⟨bm, seq, mayAppend_of_not_starts starts, rfl⟩
  | true =>
    have free : bm.freeBlockIds ≠ [] := by
      intro none
      simp [canAppend, starts, none] at room
    rcases valid.pool.allocateBlock valid.index free with ⟨bm', blockId, allocated, allocates⟩
    refine ⟨bm', seq.withPage cfg blockId, ?_, ?_⟩
    · simp only [BlockManager.mayAppend, starts, if_true, allocated, Py.ok_bind]
      rfl
    · have none : ∀ page ∈ [blockId], tableRefs ids seqs page = 0 := allocates.unreferenced
      have count := valid.pool.length_free_addRefs allocates.pool allocates.distinct
      simpa [Takes, none blockId List.mem_cons_self] using count

end Memory

namespace Scheduler

variable {s : Scheduler} {held batch : List SeqId}

/-- The capacity check of an admission and what may follow it. -/
structure AdmissionExact (cfg : Config) (s : Scheduler) (i : SeqId) : Prop where
  answer : (s.blockManager.canAllocate cfg (s.seqs i)).2.isSome ↔
    s.blockManager.admissionPages cfg (s.seqs i) ≤ s.blockManager.freeBlockIds.length
  planned : ∀ bm n, s.blockManager.canAllocate cfg (s.seqs i) = (bm, some n) →
    bm.plannedAllocationPages cfg (s.seqs i) =
      .ok (s.blockManager.admissionPages cfg (s.seqs i) : ℤ)
  allocate : ∀ bm n, s.blockManager.canAllocate cfg (s.seqs i) = (bm, some n) →
    ∃ bm' seq', bm.allocate cfg (s.seqs i) n = .ok (bm', seq') ∧
      s.blockManager.Takes (s.blockManager.admissionPages cfg (s.seqs i)) bm'
  reserve : ∀ bm n remote, s.blockManager.canAllocate cfg (s.seqs i) = (bm, some n) →
    n < remote → remote < (s.seqs i).numBlocks cfg →
    ∃ bm' seq' blockIds, bm.reserveRestore cfg (s.seqs i) n remote = .ok (bm', seq', blockIds) ∧
      s.blockManager.Takes (s.blockManager.admissionPages cfg (s.seqs i)) bm'
  restore : ∀ bm n (env : ScheduleEnv cfg) now,
    s.blockManager.canAllocate cfg (s.seqs i) = (bm, some n) →
    ∃ s' started, ({ s with blockManager := bm } : Scheduler).startRemoteRestore cfg env i n now =
        .ok (s', started) ∧
      (started = true →
        s.blockManager.Takes (s.blockManager.admissionPages cfg (s.seqs i)) s'.blockManager) ∧
      (started = false → ∃ bm' seq', s'.blockManager.allocate cfg (s'.seqs i) n = .ok (bm', seq') ∧
        s.blockManager.Takes (s.blockManager.admissionPages cfg (s.seqs i)) bm')

/-- The capacity check of a resumption and what follows it. -/
structure ResumptionExact (cfg : Config) (s : Scheduler) (i : SeqId) : Prop where
  owned : (s.seqs i).blockTable.length ≤ (s.seqs i).numBlocks cfg
  exact : ∃ bm resumable, s.blockManager.canResume cfg (s.seqs i) = .ok (bm, resumable) ∧
    (resumable = true ↔ s.blockManager.resumptionPages cfg (s.seqs i) ≤
      s.blockManager.freeBlockIds.length) ∧
    (resumable = true → ∃ bm' seq' reused, bm.resume cfg (s.seqs i) = .ok (bm', seq', reused) ∧
      s.blockManager.Takes (s.blockManager.resumptionPages cfg (s.seqs i)) bm')

/-- The capacity check of a decode step and what follows it. -/
def AppendExact (cfg : Config) (s : Scheduler) (i : SeqId) : Prop :=
  s.blockManager.canAppend cfg (s.seqs i) = true →
    ∃ bm' seq', s.blockManager.mayAppend cfg (s.seqs i) = .ok (bm', seq') ∧
      s.blockManager.Takes (if startsPage cfg (s.seqs i) then 1 else 0) bm'

/-- A request owns at most the pages of its tokens. -/
theorem Valid.owned (valid : Valid cfg ids kv Sequence.numCachedTokens held batch s)
    (known : i ∈ ids) : (s.seqs i).blockTable.length ≤ (s.seqs i).numBlocks cfg := by
  have wellFormed := valid.request i known
  have nonempty : 0 < (s.seqs i).numTokens := wellFormed.prompt.trans_le wellFormed.prompt_le
  have phase := wellFormed.phase
  rw [Sequence.Phase] at phase
  cases status : (s.seqs i).status with
  | waiting =>
    rw [status] at phase
    exact phase.owned
  | waitingForKv =>
    rw [status] at phase
    exact phase.full.le
  | running =>
    rw [status] at phase
    have memory := valid.memory.request i known
    have le := length_le_of_increasing memory.increasing phase.last
    have short : (s.seqs i).computedTokens ≤ (s.seqs i).numTokens := by
      rcases Nat.eq_zero_or_pos (s.seqs i).numScheduledTokens with idle | scheduled
      · have next := phase.next idle
        rw [Sequence.computedTokens, idle]
        omega
      · exact (phase.complete scheduled).le
    rw [memory.sameLength] at le
    rw [Sequence.numBlocks_eq nonempty]
    exact le.trans (Nat.succ_le_succ (Nat.div_le_div_right (Nat.sub_le_sub_right short 1)))
  | finished =>
    rw [status] at phase
    simp [phase.table]
  | cancelled =>
    rw [status] at phase
    simp [phase.table]

theorem Valid.resumptionExact (valid : Valid cfg ids kv Sequence.numCachedTokens held batch s)
    (known : i ∈ ids) : ResumptionExact cfg s i := by
  have owned := valid.owned known
  refine ⟨owned, ?_⟩
  have looked := lookupCachedBlocks_matches valid.memory.index (s.seqs i)
  rcases canResume_spec valid.memory.index owned with
    ⟨bm, matched, longest, same, -, ⟨fits, answer, planned⟩ | ⟨lacking, answer, -⟩⟩
  · have match_eq := looked.unique longest
    refine ⟨bm, true, answer, ?_, ?_⟩
    · rw [ResumeFits, resumeSuffix, ← match_eq] at fits
      rw [resumptionPages]
      refine iff_of_true rfl ?_
      omega
    · intro _
      have valid' := valid.memory.sameMemory same
      have used : bm.countUsed (resumeSuffix cfg (s.seqs i) matched) =
          s.blockManager.countUsed (resumeSuffix cfg (s.seqs i) matched) := by
        simp only [countUsed, same.usedBlockIds]
      rcases valid'.resume_takes known (longest.of_sameMemory same)
        (by rw [planned, Function.update_self])
        (by rw [ResumeFits, used, same.freeBlockIds]; exact fits) with
        ⟨bm', seq', reused, resumed, takes⟩
      refine ⟨bm', seq', reused, resumed, ?_⟩
      rw [Takes, used, same.freeBlockIds] at takes
      rw [Takes, resumptionPages, match_eq]
      exact takes
  · have match_eq := looked.unique longest
    refine ⟨bm, false, answer, ?_, by simp⟩
    rw [ResumeFits, resumeSuffix, ← match_eq] at lacking
    rw [resumptionPages]
    refine iff_of_false (by simp) ?_
    omega

theorem startRemoteRestore_reserves {env : ScheduleEnv cfg} {n : ℕ} {now : ℚ} {s' : Scheduler}
    (started : s.startRemoteRestore cfg env i n now = .ok (s', true)) :
    ∃ remote seq' blockIds, s.blockManager.reserveRestore cfg (s.seqs i) n remote =
      .ok (s'.blockManager, seq', blockIds) := by
  unfold Scheduler.startRemoteRestore at started
  split at started
  · cases started
  · split at started
    · cases started
    · next pages _ =>
      refine ⟨pages.length, ?_⟩
      rcases Py.exists_of_bind started with ⟨⟨bm, seq, blockIds⟩, reserved, started⟩
      rcases Py.exists_of_bind started with ⟨seq', begun, started⟩
      split at started
      · rcases Py.exists_of_bind started with ⟨result, aborted, started⟩
        rcases Py.exists_of_bind started with ⟨_, failed, started⟩
        cases started
      · cases started
        exact ⟨seq, blockIds, reserved⟩

theorem Valid.admissionExact (valid : Valid cfg ids kv Sequence.numCachedTokens held batch s)
    (known : i ∈ ids) (status : (s.seqs i).status = .waiting)
    (table : (s.seqs i).blockTable = []) : AdmissionExact cfg s i := by
  have mem := valid.mem_waiting.mpr ⟨known, status⟩
  have phase := (valid.waiting mem).2.2
  have wellFormed := valid.request i known
  have nonempty : 0 < (s.seqs i).numTokens := wellFormed.prompt.trans_le wellFormed.prompt_le
  have pages := @Sequence.numBlocks_pos cfg _ nonempty
  rcases phase.retained (by rw [table]; exact pages) with ⟨cached, idle⟩
  rw [table, List.length_nil, Nat.zero_mul] at cached
  have looked := lookupCachedBlocks_matches valid.memory.index (s.seqs i)
  rcases canAllocate_spec valid.memory.index (s.seqs i) with
    ⟨bm, matched, longest, same, resumePlans, ⟨fits, answer, planned⟩ | ⟨lacking, answer, -⟩⟩
  · have match_eq := looked.unique longest
    have cost : s.blockManager.admissionPages cfg (s.seqs i) =
        (s.seqs i).numBlocks cfg - s.blockManager.countUsed matched := by
      rw [admissionPages, match_eq]
    have memory := valid.memory.sameMemory same
    have longest' := longest.of_sameMemory same
    have current : PlanCurrent cfg bm (s.seqs i) := by
      intro plan pending
      rw [planned, Function.update_self, Option.some.injEq] at pending
      rwa [← pending]
    have used : bm.countUsed matched = s.blockManager.countUsed matched := by
      simp only [countUsed, same.usedBlockIds]
    have fits' : Fits cfg bm (s.seqs i) matched := by
      rw [Fits, used, same.freeBlockIds]
      exact fits
    have allocate : ∃ bm' seq', bm.allocate cfg (s.seqs i) matched.length = .ok (bm', seq') ∧
        s.blockManager.Takes (s.blockManager.admissionPages cfg (s.seqs i)) bm' := by
      rcases memory.allocate_takes known table cached longest' current fits' with
        ⟨bm', seq', allocated, takes⟩
      refine ⟨bm', seq', allocated, ?_⟩
      rw [Takes, used, same.freeBlockIds] at takes
      rw [Takes, cost]
      exact takes
    have named : (s.seqs i).seqId = i := wellFormed.named
    have looked' : Valid cfg ids kv Sequence.numCachedTokens held batch
        { s with blockManager := bm } := by
      apply valid.look same
      · intro j pending
        by_cases self : j = i
        · exact .inr (self ▸ ⟨mem, table⟩)
        · rw [planned, named, Function.update_of_ne self] at pending
          exact .inl pending
      · intro j pending
        rw [resumePlans] at pending
        exact .inl pending
    refine ⟨?_, ?_, ?_, ?_, ?_⟩
    · rw [answer, cost]
      rw [Fits] at fits
      refine iff_of_true rfl ?_
      omega
    · intro bm₁ n answer'
      cases answer.symm.trans answer'
      have bound := longest.length_le
      have le : s.blockManager.countUsed matched ≤ matched.length := List.countP_le_length
      simp only [plannedAllocationPages, planned, Function.update_self, used, cost]
      congr 1
      omega
    · intro bm₁ n answer'
      cases answer.symm.trans answer'
      exact allocate
    · intro bm₁ n remote answer' extends' tail
      cases answer.symm.trans answer'
      rcases allocate with ⟨bm', seq', allocated, takes⟩
      refine ⟨bm', seq', (seq'.blockTable.take remote).drop matched.length, ?_, takes⟩
      rw [BlockManager.reserveRestore, if_neg (not_not.mpr ⟨extends', tail⟩), allocated, Py.ok_bind]
    · intro bm₁ n env now answer'
      cases answer.symm.trans answer'
      rcases looked'.startRemoteRestore env now mem table idle longest' current fits' with
        ⟨s', started, restored, valid', follows, outcome⟩
      refine ⟨s', started, restored, ?_, ?_⟩
      · rintro rfl
        rcases startRemoteRestore_reserves restored with ⟨remote, seq', blockIds, reserved⟩
        rcases allocate with ⟨bm', seq'', allocated, takes⟩
        simp only [BlockManager.reserveRestore, allocated, Py.ok_bind] at reserved
        split at reserved
        · cases reserved
        · cases reserved
          exact takes
      · rintro rfl
        rcases outcome with ⟨⟨⟩, -⟩ | ⟨-, rfl | refused⟩
        · exact allocate
        · rcases refused.seqs with ⟨seq', seqs⟩
          have refs : tableRefs ids s'.seqs = tableRefs ids s.seqs := by
            rw [seqs]
            apply tableRefs_update_of_eq
            have table' := refused.table
            rw [seqs, Function.update_self] at table'
            exact table'.trans table.symm
          have pool := valid'.memory.pool
          rw [refs] at pool
          have free : s'.blockManager.freeBlockIds.length =
              s.blockManager.freeBlockIds.length := by
            rw [pool.length_free, valid.memory.pool.length_free]
          have count : s'.blockManager.countUsed matched = s.blockManager.countUsed matched := by
            rw [pool.countUsed, valid.memory.pool.countUsed]
          have tokens : (s'.seqs i).numBlocks cfg = (s.seqs i).numBlocks cfg := by
            rw [Sequence.numBlocks, Sequence.numTokens, (follows.request i).tokenIds]
            rfl
          have mem' : i ∈ s'.waiting := by
            rw [refused.waiting]
            exact mem
          have phase' := (valid'.waiting mem').2.2
          have cached' : (s'.seqs i).numCachedTokens = 0 := by
            rw [(phase'.retained (by rw [refused.table, tokens]; exact pages)).1, refused.table,
              List.length_nil, Nat.zero_mul]
          have named' := (valid'.request i known).named
          have current' : PlanCurrent cfg s'.blockManager (s'.seqs i) := by
            intro plan pending
            rw [named', refused.noPlan] at pending
            cases pending
          rcases valid'.memory.allocate_takes known refused.table cached' refused.longest current'
            refused.fits with ⟨bm', seq'', allocated, takes⟩
          refine ⟨bm', seq'', allocated, ?_⟩
          rw [Takes, count, free, tokens] at takes
          rw [Takes, cost]
          exact takes
  · have match_eq := looked.unique longest
    have negative : ∀ bm₁ n, s.blockManager.canAllocate cfg (s.seqs i) ≠ (bm₁, some n) := by
      intro bm₁ n answer'
      cases answer.symm.trans answer'
    refine ⟨?_, fun bm₁ n answer' => absurd answer' (negative bm₁ n),
      fun bm₁ n answer' => absurd answer' (negative bm₁ n),
      fun bm₁ n _ answer' => absurd answer' (negative bm₁ n),
      fun bm₁ n _ _ answer' => absurd answer' (negative bm₁ n)⟩
    rw [answer, admissionPages, match_eq]
    rw [Fits] at lacking
    refine iff_of_false (by simp) ?_
    omega

end Scheduler

namespace System

variable {Allowed : System → Op cfg → Prop} {sys : System}

/-- Capacity answers are exact in every state a run passes, and no operation raises. -/
theorem capacity_exact (reachable : ReachableBy cfg Allowed sys) :
    (∀ s, Passes cfg sys s → ∀ i ∈ sys.known,
      ((s.seqs i).status = .waiting → (s.seqs i).blockTable = [] →
        Scheduler.AdmissionExact cfg s i) ∧
      ((s.seqs i).blockTable ≠ [] → Scheduler.ResumptionExact cfg s i) ∧
      Scheduler.AppendExact cfg s i) ∧
    ∀ op : Op cfg, sys.Enabled op → ∃ sys', sys.step cfg op = .ok sys' := by
  constructor
  · intro s passes i known
    have known' := List.mem_toFinset.mpr known
    rcases passes.valid reachable.valid with ⟨held, batch, valid⟩
    refine ⟨valid.admissionExact known', fun _ => valid.resumptionExact known', ?_⟩
    exact valid.memory.append_takes (s.seqs i)
  · intro op enabled
    rcases reachable.valid.step enabled with ⟨sys', stepped, -⟩
    exact ⟨sys', stepped⟩

/-- Four pages of two tokens. -/
def fourPages : Config := defaultConfig 2 4 2 two_le_two

/-- A running request with two pages, and a waiting one with the same prompt. -/
def sharedPromptRun : System := (init fourPages).runOps fourPages
  [.add (plainRequest 0 3 2) 0, .schedule (idleEnv _), .postprocess [5] 1 1,
    .add (plainRequest 1 3 2) 0]

theorem capacity_exact_sharedPrompt :
    Scheduler.AdmissionExact fourPages sharedPromptRun.scheduler 1 ∧
      Scheduler.ResumptionExact fourPages sharedPromptRun.scheduler 0 ∧
      ∃ sys', sharedPromptRun.step fourPages (.schedule (idleEnv _)) = .ok sys' := by
  have reachable : Reachable fourPages sharedPromptRun := ReachableBy.runOps .init (by decide +kernel)
  rcases capacity_exact reachable with ⟨exact, steps⟩
  refine ⟨?_, ?_, steps _ ?_⟩
  · exact (exact _ .between 1 (by decide +kernel)).1 (by decide +kernel) (by decide +kernel)
  · exact (exact _ .between 0 (by decide +kernel)).2.1 (by decide +kernel)
  · change sharedPromptRun.inFlight = none
    decide +kernel

end System

end NanoVllm
