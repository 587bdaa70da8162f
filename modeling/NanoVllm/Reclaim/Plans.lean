import NanoVllm.Reclaim.Target
import Mathlib.Algebra.Order.Field.Basic

/-!
# The SLO-aware reclaim plans

A plan meets the checks of `reclaim_suffix`, gives up the pages asked for and announces exactly
the tokens the reclaim invalidates. The retained pages are full of cached tokens, on which
`resume` relies. A request with a smaller budget keeps at least as many pages.
-/

namespace NanoVllm

open BlockManager

variable {cfg : Config} {seq seq' : Sequence} {bm : BlockManager}

/-! ## The order of the budgets -/

theorem reclaimUrgency_none_le (cfg : Config) (budget : Option ℚ) :
    reclaimUrgency cfg none ≤ reclaimUrgency cfg budget :=
  (Sequence.reclaimUrgency_bounds cfg budget).1

theorem reclaimUrgency_antitone (cfg : Config) {budget budget' : ℚ} (le : budget ≤ budget') :
    reclaimUrgency cfg (some budget') ≤ reclaimUrgency cfg (some budget) := by
  have scale := cfg.budgetScale_pos
  by_cases late : budget ≤ 0
  · have urgent : reclaimUrgency cfg (some budget) = 1 := if_pos late
    rw [urgent]
    exact (Sequence.reclaimUrgency_bounds cfg _).2
  · have late' : ¬budget' ≤ 0 := fun late' => late (le.trans late')
    simp only [reclaimUrgency, if_neg late, if_neg late']
    have positive : 0 < budget / cfg.kvReclaimBudgetScaleMs := div_pos (not_le.mp late) scale
    have ordered : budget / cfg.kvReclaimBudgetScaleMs ≤ budget' / cfg.kvReclaimBudgetScaleMs :=
      div_le_div_of_nonneg_right le scale.le
    apply one_div_le_one_div_of_le
    · linarith
    · linarith

/-- A more urgent request keeps at least as many pages. -/
theorem sloAwarePlan_keepBlocks_mono (cfg : Config) (seq : Sequence) (minReclaimBlocks : ℕ)
    {budget budget' : Option ℚ} (le : reclaimUrgency cfg budget' ≤ reclaimUrgency cfg budget) :
    (sloAwarePlan cfg seq budget' minReclaimBlocks).keepBlocks ≤
      (sloAwarePlan cfg seq budget minReclaimBlocks).keepBlocks := by
  rcases cfg.keepRatios with ⟨-, min_le, -⟩
  have desired : ⌊((seq.numCachedTokens / cfg.blockSize : ℕ) : ℚ) * (cfg.kvReclaimMinKeepRatio +
        (cfg.kvReclaimMaxKeepRatio - cfg.kvReclaimMinKeepRatio) * reclaimUrgency cfg budget')⌋ ≤
      ⌊((seq.numCachedTokens / cfg.blockSize : ℕ) : ℚ) * (cfg.kvReclaimMinKeepRatio +
        (cfg.kvReclaimMaxKeepRatio - cfg.kvReclaimMinKeepRatio) * reclaimUrgency cfg budget)⌋ := by
    apply Int.floor_le_floor
    apply mul_le_mul_of_nonneg_left _ (Nat.cast_nonneg _)
    have width := mul_le_mul_of_nonneg_left le (sub_nonneg.mpr min_le)
    linarith
  simp only [sloAwarePlan, kvReclaimDecision]
  apply Int.toNat_le_toNat
  apply max_le_max (le_refl _)
  apply min_le_min _ (le_refl _)
  exact min_le_min desired (le_refl _)

/-! ## Sound plans -/

/-- The cached tokens of a request are exactly those its pages can store. -/
def Sequence.FullTable (cfg : Config) (seq : Sequence) : Prop :=
  seq.numCachedTokens = seq.blockTable.length * cfg.blockSize

/-- What `_apply_kv_reclaim` and `resume` rely on in a plan. -/
structure SoundPlan (cfg : Config) (bm : BlockManager) (seq : Sequence) (minReclaimBlocks : ℕ)
    (decision : KvReclaimDecision) : Prop where
  admissible : Scheduler.Admissible cfg seq decision
  asked : min minReclaimBlocks seq.blockTable.length ≤ decision.reclaimBlocks
  reclaims : ∃ bm' seq' freed,
    bm.reclaimSuffix cfg seq decision.keepBlocks = .ok (bm', seq', freed) ∧
      seq'.blockTable = seq.blockTable.take decision.keepBlocks ∧
      seq'.blockTable.length + decision.reclaimBlocks = seq.blockTable.length ∧
      seq'.numCachedTokens + decision.invalidatedTokens = seq.numCachedTokens ∧
      seq'.numCachedTokens = decision.keepBlocks * cfg.blockSize ∧ seq'.FullTable cfg

theorem sloAwarePlan_asked (cfg : Config) (seq : Sequence) (budget : Option ℚ)
    (minReclaimBlocks : ℕ) :
    min minReclaimBlocks seq.blockTable.length ≤
      (sloAwarePlan cfg seq budget minReclaimBlocks).reclaimBlocks := by
  simp only [sloAwarePlan, kvReclaimDecision]
  omega

theorem withPrefix_fullTable {keep : ℕ} (owned : keep ≤ seq.blockTable.length) :
    (seq.withPrefix cfg keep).FullTable cfg := by
  change keep * cfg.blockSize = (seq.blockTable.take keep).length * cfg.blockSize
  rw [List.length_take, Nat.min_eq_left owned]

theorem sloAwarePlan_sound {ids : Finset SeqId} {kv : KvStore} {seqs : SeqId → Sequence}
    {i : SeqId} (memory : MemoryValid cfg ids seqs bm kv Sequence.numCachedTokens)
    (known : i ∈ ids) (uncompressed : (seqs i).kvCompressed = false) (budget : Option ℚ)
    (minReclaimBlocks : ℕ) :
    SoundPlan cfg bm (seqs i) minReclaimBlocks
      (sloAwarePlan cfg (seqs i) budget minReclaimBlocks) := by
  have admissible : Scheduler.Admissible cfg (seqs i)
      (sloAwarePlan cfg (seqs i) budget minReclaimBlocks) :=
    Scheduler.kvReclaimDecision_admissible cfg (seqs i) _
  rcases admissible with ⟨owned, complete⟩
  refine ⟨⟨owned, complete⟩, sloAwarePlan_asked cfg _ budget _, ?_⟩
  rcases memory.reclaimSuffix known uncompressed owned complete with ⟨bm', freed, reclaimed, -, -⟩
  refine ⟨bm', _, freed, reclaimed, rfl, ?_, ?_, rfl, withPrefix_fullTable owned⟩
  · change ((seqs i).blockTable.take _).length + _ = _
    rw [List.length_take, Nat.min_eq_left owned]
    exact Nat.add_sub_cancel' owned
  · change _ * cfg.blockSize + _ = _
    exact Nat.add_sub_cancel' complete

theorem Scheduler.preempt_fullTable {ids : Finset SeqId} {kv : KvStore} {s : Scheduler}
    {i : SeqId} (env : ScheduleEnv cfg)
    (memory : MemoryValid cfg ids s.seqs s.blockManager kv Sequence.numCachedTokens)
    (known : i ∈ ids) (uncompressed : (s.seqs i).kvCompressed = false) :
    ∃ s', s.preempt cfg env i = .ok s' ∧ (s'.seqs i).FullTable cfg := by
  rcases preempt_applies env memory known uncompressed with ⟨s', freed, preempted, request, -⟩
  refine ⟨s', preempted, ?_⟩
  rw [request]
  exact withPrefix_fullTable (kvReclaimPlan_admissible cfg _ _ _).owned

namespace System

variable {Allowed : System → Op cfg → Prop} {sys : System} {s : Scheduler} {i : SeqId}

/--
The plans for an uncompressed request, running ones in particular, are sound and keep no fewer
pages for a smaller budget, and its preemption raises nothing and leaves a full table.
-/
theorem sloAwarePlan_admissible_monotone (reachable : ReachableBy cfg Allowed sys)
    (passes : Passes cfg sys s) (known : i ∈ sys.known)
    (uncompressed : (s.seqs i).kvCompressed = false) (minReclaimBlocks : ℕ) :
    (∀ budget, SoundPlan cfg s.blockManager (s.seqs i) minReclaimBlocks
      (sloAwarePlan cfg (s.seqs i) budget minReclaimBlocks)) ∧
    (∀ budget, (sloAwarePlan cfg (s.seqs i) none minReclaimBlocks).keepBlocks ≤
      (sloAwarePlan cfg (s.seqs i) budget minReclaimBlocks).keepBlocks) ∧
    (∀ budget budget' : ℚ, budget ≤ budget' →
      (sloAwarePlan cfg (s.seqs i) (some budget') minReclaimBlocks).keepBlocks ≤
        (sloAwarePlan cfg (s.seqs i) (some budget) minReclaimBlocks).keepBlocks) ∧
    ∀ env, ∃ s', s.preempt cfg env i = .ok s' ∧ (s'.seqs i).FullTable cfg := by
  rcases passes.valid reachable.valid with ⟨held, batch, valid⟩
  have known' := List.mem_toFinset.mpr known
  refine ⟨?_, ?_, ?_, ?_⟩
  · intro budget
    exact sloAwarePlan_sound valid.memory known' uncompressed budget minReclaimBlocks
  · intro budget
    apply sloAwarePlan_keepBlocks_mono
    exact reclaimUrgency_none_le cfg budget
  · intro budget budget' le
    apply sloAwarePlan_keepBlocks_mono
    exact reclaimUrgency_antitone cfg le
  · intro env
    exact Scheduler.preempt_fullTable env valid.memory known' uncompressed

/-- A late request keeps more of its shared pages than one without a budget. -/
theorem sloAwarePlan_admissible_monotone_sharedPages :
    let plan := fun budget => sloAwarePlan halfKept (sharedPagesRun.scheduler.seqs 1) budget 1
    (plan none).keepBlocks ≤ (plan (some 0)).keepBlocks ∧
      (plan (some 250)).keepBlocks ≤ (plan (some 0)).keepBlocks ∧
      SoundPlan halfKept sharedPagesRun.scheduler.blockManager
        (sharedPagesRun.scheduler.seqs 1) 1 (plan (some 0)) := by
  have reachable : Reachable halfKept sharedPagesRun := ReachableBy.runOps .init (by decide +kernel)
  rcases sloAwarePlan_admissible_monotone reachable .between (i := 1) (by decide +kernel)
    (by decide +kernel) 1 with ⟨sound, unbounded, monotone, -⟩
  exact ⟨unbounded _, monotone 0 250 (by norm_num), sound _⟩

end System

end NanoVllm
