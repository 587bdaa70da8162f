import NanoVllm.Engine.Phases
import Mathlib.Tactic.Linarith

/-!
# The free-page target of a preemption

A preemption gives up at least as many pages as the free list lacks of
`kv_reclaim_target_free_blocks`. A page with another reference does not become free, so the
target is met exactly when enough of the released pages are referenced by the request alone.
-/

namespace NanoVllm

open BlockManager

namespace Sequence

variable {cfg : Config} {seq : Sequence}

/-- The part of the cached pages a reclaim policy would like to keep. -/
def keepRatio (cfg : Config) (budget : Option ℚ) : ℚ :=
  match cfg.kvReclaimPolicy with
  | .recompute => 0
  | .sloAware => cfg.kvReclaimMinKeepRatio +
      (cfg.kvReclaimMaxKeepRatio - cfg.kvReclaimMinKeepRatio) * reclaimUrgency cfg budget

theorem reclaimUrgency_bounds (cfg : Config) (budget : Option ℚ) :
    0 ≤ reclaimUrgency cfg budget ∧ reclaimUrgency cfg budget ≤ 1 := by
  have scale := cfg.budgetScale_pos
  cases budget with
  | none => exact ⟨le_refl _, zero_le_one⟩
  | some budget =>
    simp only [reclaimUrgency]
    split
    · exact ⟨zero_le_one, le_refl _⟩
    · next late =>
      have positive : 0 < budget / cfg.kvReclaimBudgetScaleMs := div_pos (not_le.mp late) scale
      constructor
      · apply div_nonneg zero_le_one
        linarith
      · rw [div_le_one (by linarith)]
        linarith

end Sequence

namespace Scheduler

variable {cfg : Config} {ids : Finset SeqId} {kv : KvStore} {s : Scheduler} {i : SeqId}

/-- The plan of `preempt` for an uncompressed request. -/
def preemptPlan (cfg : Config) (env : ScheduleEnv cfg) (s : Scheduler) (i : SeqId) :
    KvReclaimDecision :=
  kvReclaimPlan cfg (s.seqs i) (budgetMs cfg s.estimator (s.seqs i) s.stepId (env.preemptNow i))
    (max 1 (cfg.kvReclaimTargetFreeBlocks - s.blockManager.freeBlockIds.length))

/-- `preempt` of an uncompressed request applies its plan. -/
theorem preempt_applies (env : ScheduleEnv cfg)
    (memory : MemoryValid cfg ids s.seqs s.blockManager kv Sequence.numCachedTokens)
    (known : i ∈ ids) (uncompressed : (s.seqs i).kvCompressed = false) :
    let plan := s.preemptPlan cfg env i
    ∃ s' freed, s.preempt cfg env i = .ok s' ∧
      s'.seqs i = ((s.seqs i).reclaimed cfg plan.keepBlocks freed
        plan.invalidatedTokens).preempted ∧
      MemoryValid cfg ids (Function.update s.seqs i ((s.seqs i).reclaimed cfg plan.keepBlocks
        freed plan.invalidatedTokens)) s'.blockManager kv Sequence.numCachedTokens := by
  intro plan
  rcases applyKvReclaim_spec memory known uncompressed
    (show Admissible cfg (s.seqs i) plan from kvReclaimPlan_admissible cfg _ _ _) with
    ⟨bm', freed, applied, memory', -⟩
  have result : ∃ s', s.preempt cfg env i = .ok s' ∧ s'.blockManager = bm' ∧
      s'.seqs i = ((s.seqs i).reclaimed cfg plan.keepBlocks freed
        plan.invalidatedTokens).preempted := by
    simp only [Scheduler.preempt, uncompressed, Bool.false_eq_true, if_false]
    simp only [plan, preemptPlan] at applied
    rw [applied, Py.ok_bind]
    refine ⟨_, rfl, rfl, ?_⟩
    simp only [Scheduler.setSeq, Scheduler.put, Function.update_self]
    rfl
  rcases result with ⟨s', preempted, manager, request⟩
  refine ⟨s', freed, preempted, request, ?_⟩
  rw [manager]
  exact memory'

end Scheduler

namespace System

variable {cfg : Config} {Allowed : System → Op cfg → Prop} {sys : System} {s : Scheduler}
  {i : SeqId}

/-- Preemption keeps half of the cached pages, and two pages should become free. -/
def halfKept : Config :=
  { defaultConfig 2 5 2 two_le_two with
    kvReclaimMinKeepRatio := 1 / 2
    keepRatios := by norm_num [defaultConfig] }

/-- Two running requests with four pages each, the first three of them shared. -/
def sharedPagesRun : System := (init halfKept).runOps halfKept
  [.add (plainRequest 0 7 8) 0, .schedule (idleEnv _), .postprocess [5] 1 1,
    .add (plainRequest 1 7 8) 0, .schedule (idleEnv _), .postprocess [5] 1 1,
    .schedule (idleEnv _), .postprocess [5, 5] 1 1]

end System

end NanoVllm
