import NanoVllm.Basic
import Mathlib.Data.List.MinMax
import Mathlib.Data.Prod.Lex
import Mathlib.Algebra.Order.Ring.Rat
import Mathlib.Tactic.Linarith

/-!
# The transfer planner

`KVTransferPlanner` of `hierarchical_cache.py` compares the recomputation of a prompt behind the
local prefix with the restoration of the prefix each remote tier has. The cost of a restoration
is affine in the length of the restored prefix and starts above the recomputation, so the two
ends of the remote prefix are the only cut-offs which have to be compared.
-/

namespace NanoVllm

inductive CacheTier where
  | gpu
  | cpu
  | mooncake
  deriving DecidableEq, Repr

/-- `KVCacheGeometry`, with the check of `__post_init__`. -/
structure KvCacheGeometry where
  numLayers : ℤ
  numKvHeads : ℤ
  headDim : ℤ
  dtypeBytes : ℤ
  positive : 0 < numLayers ∧ 0 < numKvHeads ∧ 0 < headDim ∧ 0 < dtypeBytes

namespace KvCacheGeometry

def bytesPerToken (geometry : KvCacheGeometry) : ℤ :=
  2 * geometry.numLayers * geometry.numKvHeads * geometry.headDim * geometry.dtypeBytes

def sizeBytes (geometry : KvCacheGeometry) (numTokens : ℤ) : Py ℤ :=
  if numTokens < 0 then .error (.valueError "num_tokens must be non-negative")
  else .ok (geometry.bytesPerToken * numTokens)

theorem bytesPerToken_pos (geometry : KvCacheGeometry) : 0 < geometry.bytesPerToken := by
  rcases geometry.positive with ⟨layers, heads, dim, bytes⟩
  unfold bytesPerToken
  positivity

end KvCacheGeometry

/-- `StorageTierProfile`, with the checks of `__post_init__`. -/
structure StorageTierProfile where
  bandwidthGbps : ℚ
  fixedLatencyMs : ℚ
  congestionMultiplier : ℚ
  bandwidth_pos : 0 < bandwidthGbps
  latency_nonneg : 0 ≤ fixedLatencyMs
  congestion_ge : 1 ≤ congestionMultiplier

/-- `transfer_ms`. -/
def StorageTierProfile.transferMs (profile : StorageTierProfile) (sizeBytes : ℤ) : ℚ :=
  let wireMs := sizeBytes / (profile.bandwidthGbps * 1000000000) * 1000
  profile.fixedLatencyMs + wireMs * profile.congestionMultiplier

/-- `KVAccessPlan.action`. -/
inductive KvAccessAction where
  | local
  | recompute
  | restore
  deriving DecidableEq, Repr

structure KvAccessPlan where
  action : KvAccessAction
  sourceTier : CacheTier
  localCachedTokens : ℤ
  sourceCachedTokens : ℤ
  restoredTokens : ℤ
  recomputedTokens : ℤ
  transferBytes : ℤ
  transferMs : ℚ
  recomputeMs : ℚ
  totalMs : ℚ
  deriving DecidableEq, Repr

/-- The key of `min` in `plan`. -/
def KvAccessPlan.key (plan : KvAccessPlan) : ℚ ×ₗ ℤ ×ₗ ℤ :=
  toLex (plan.totalMs, toLex (plan.transferBytes, -plan.sourceCachedTokens))

/-- The computable order of the byte and token counts. -/
local instance intPreorder : Preorder ℤ := Int.instLinearOrder.toPreorder

structure KvTransferPlanner where
  geometry : KvCacheGeometry
  tierProfiles : CacheTier → Option StorageTierProfile

namespace KvTransferPlanner

/-- `_recompute_plan`. -/
def recomputePlan (totalTokens localCachedTokens : ℤ) (prefillMsPerToken : ℚ) : KvAccessPlan :=
  let recomputedTokens := totalTokens - localCachedTokens
  let recomputeMs := recomputedTokens * prefillMsPerToken
  { action := if recomputedTokens = 0 then .local else .recompute
    sourceTier := .gpu
    localCachedTokens := localCachedTokens
    sourceCachedTokens := localCachedTokens
    restoredTokens := 0
    recomputedTokens := recomputedTokens
    transferBytes := 0
    transferMs := 0
    recomputeMs := recomputeMs
    totalMs := recomputeMs }

/-- The candidate of one tier in `plan`. -/
def restorePlan (planner : KvTransferPlanner) (totalTokens localCachedTokens : ℤ)
    (prefillMsPerToken : ℚ) (tier : CacheTier) (profile : StorageTierProfile)
    (sourceCachedTokens : ℤ) : Py KvAccessPlan := do
  let restoredTokens := sourceCachedTokens - localCachedTokens
  let transferBytes ← planner.geometry.sizeBytes restoredTokens
  let transferMs := profile.transferMs transferBytes
  let recomputedTokens := totalTokens - sourceCachedTokens
  let recomputeMs := recomputedTokens * prefillMsPerToken
  .ok
    { action := .restore
      sourceTier := tier
      localCachedTokens := localCachedTokens
      sourceCachedTokens := sourceCachedTokens
      restoredTokens := restoredTokens
      recomputedTokens := recomputedTokens
      transferBytes := transferBytes
      transferMs := transferMs
      recomputeMs := recomputeMs
      totalMs := transferMs + recomputeMs }

/-- The loop over `cached_tokens_by_tier`, returning the candidates of the tiers. -/
def restorePlans (planner : KvTransferPlanner) (totalTokens localCachedTokens : ℤ)
    (prefillMsPerToken : ℚ) : List (CacheTier × ℤ) → Py (List KvAccessPlan)
  | [] => .ok []
  | (tier, sourceCachedTokens) :: rest =>
      if sourceCachedTokens < 0 then
        .error (.valueError "cached prefix lengths must be non-negative")
      else if tier = .gpu ∨ sourceCachedTokens ≤ localCachedTokens then
        planner.restorePlans totalTokens localCachedTokens prefillMsPerToken rest
      else if totalTokens < sourceCachedTokens then
        .error (.valueError "cached prefix cannot exceed the request length")
      else
        match planner.tierProfiles tier with
        | none => planner.restorePlans totalTokens localCachedTokens prefillMsPerToken rest
        | some profile => do
            let plan ← planner.restorePlan totalTokens localCachedTokens prefillMsPerToken tier
              profile sourceCachedTokens
            let plans ←
              planner.restorePlans totalTokens localCachedTokens prefillMsPerToken rest
            .ok (plan :: plans)

def plan (planner : KvTransferPlanner) (totalTokens localCachedTokens : ℤ)
    (cachedTokensByTier : List (CacheTier × ℤ)) (prefillMsPerToken : ℚ) : Py KvAccessPlan :=
  if totalTokens < 0 then .error (.valueError "total_tokens must be non-negative")
  else if ¬(0 ≤ localCachedTokens ∧ localCachedTokens ≤ totalTokens) then
    .error (.valueError "local_cached_tokens must be within the request length")
  else if prefillMsPerToken ≤ 0 then
    .error (.valueError "prefill_ms_per_token must be positive")
  else do
    let restores ← planner.restorePlans totalTokens localCachedTokens prefillMsPerToken
      cachedTokensByTier
    let recompute := recomputePlan totalTokens localCachedTokens prefillMsPerToken
    match (recompute :: restores).argmin KvAccessPlan.key with
    | none => .error (.valueError "min() arg is an empty sequence")
    | some plan => .ok plan

/-! ## Costs -/

/-- The cost of the recomputation of everything behind the local prefix. -/
def recomputeCostMs (totalTokens localCachedTokens : ℤ) (prefillMsPerToken : ℚ) : ℚ :=
  (totalTokens - localCachedTokens : ℤ) * prefillMsPerToken

/-- The cost of the restoration of a prefix and the recomputation of the rest. -/
def restoreCostMs (geometry : KvCacheGeometry) (profile : StorageTierProfile)
    (totalTokens localCachedTokens : ℤ) (prefillMsPerToken : ℚ) (sourceCachedTokens : ℤ) : ℚ :=
  profile.transferMs (geometry.bytesPerToken * (sourceCachedTokens - localCachedTokens)) +
    (totalTokens - sourceCachedTokens : ℤ) * prefillMsPerToken

/-- The time a token of a restored prefix spends on the wire. -/
def wireMsPerToken (geometry : KvCacheGeometry) (profile : StorageTierProfile) : ℚ :=
  geometry.bytesPerToken / (profile.bandwidthGbps * 1000000000) * 1000 *
    profile.congestionMultiplier

theorem restoreCostMs_eq (geometry : KvCacheGeometry) (profile : StorageTierProfile)
    (totalTokens localCachedTokens : ℤ) (prefillMsPerToken : ℚ) (sourceCachedTokens : ℤ) :
    restoreCostMs geometry profile totalTokens localCachedTokens prefillMsPerToken
        sourceCachedTokens =
      profile.fixedLatencyMs +
        (sourceCachedTokens - localCachedTokens : ℤ) * wireMsPerToken geometry profile +
        (totalTokens - sourceCachedTokens : ℤ) * prefillMsPerToken := by
  simp only [restoreCostMs, StorageTierProfile.transferMs, wireMsPerToken, Int.cast_mul]
  ring

/-- A cut-off inside the remote prefix costs at least as much as one of the two ends. -/
theorem min_le_restoreCostMs (geometry : KvCacheGeometry) (profile : StorageTierProfile)
    {totalTokens localCachedTokens sourceCachedTokens matchedTokens : ℤ} (prefillMsPerToken : ℚ)
    (longer : localCachedTokens ≤ sourceCachedTokens)
    (covered : sourceCachedTokens ≤ matchedTokens) :
    min (recomputeCostMs totalTokens localCachedTokens prefillMsPerToken)
        (restoreCostMs geometry profile totalTokens localCachedTokens prefillMsPerToken
          matchedTokens) ≤
      restoreCostMs geometry profile totalTokens localCachedTokens prefillMsPerToken
        sourceCachedTokens := by
  have latency := profile.latency_nonneg
  have longer' : (localCachedTokens : ℚ) ≤ sourceCachedTokens := Int.cast_le.mpr longer
  have covered' : (sourceCachedTokens : ℚ) ≤ matchedTokens := Int.cast_le.mpr covered
  simp only [restoreCostMs_eq, recomputeCostMs, Int.cast_sub]
  rcases le_total (wireMsPerToken geometry profile) prefillMsPerToken with cheap | expensive
  · -- Each further token is cheaper to restore.
    apply min_le_of_right_le
    have saved := mul_le_mul_of_nonneg_left cheap (sub_nonneg.mpr covered')
    linarith
  · apply min_le_of_left_le
    have saved := mul_le_mul_of_nonneg_left expensive (sub_nonneg.mpr longer')
    linarith

/-! ## The choice -/

/-- What the planner returns for the prefix of one remote tier. -/
inductive Chooses (planner : KvTransferPlanner) (profile : StorageTierProfile) (tier : CacheTier)
    (totalTokens localCachedTokens : ℤ) (prefillMsPerToken : ℚ) (matchedTokens : ℤ) :
    KvAccessPlan → Prop
  | recompute
      (cheapest : recomputeCostMs totalTokens localCachedTokens prefillMsPerToken ≤
        restoreCostMs planner.geometry profile totalTokens localCachedTokens prefillMsPerToken
          matchedTokens) :
      Chooses planner profile tier totalTokens localCachedTokens prefillMsPerToken matchedTokens
        (recomputePlan totalTokens localCachedTokens prefillMsPerToken)
  | restore {plan : KvAccessPlan}
      (planned : planner.restorePlan totalTokens localCachedTokens prefillMsPerToken tier profile
        matchedTokens = .ok plan)
      (cheaper : restoreCostMs planner.geometry profile totalTokens localCachedTokens
          prefillMsPerToken matchedTokens <
        recomputeCostMs totalTokens localCachedTokens prefillMsPerToken) :
      Chooses planner profile tier totalTokens localCachedTokens prefillMsPerToken matchedTokens
        plan

variable {planner : KvTransferPlanner} {profile : StorageTierProfile} {tier : CacheTier}
  {totalTokens localCachedTokens matchedTokens : ℤ} {prefillMsPerToken : ℚ}

theorem restorePlan_ok (longer : localCachedTokens < matchedTokens) :
    ∃ plan, planner.restorePlan totalTokens localCachedTokens prefillMsPerToken tier profile
        matchedTokens = .ok plan ∧ plan.action = .restore ∧ plan.sourceTier = tier ∧
      plan.sourceCachedTokens = matchedTokens ∧ 0 < plan.transferBytes ∧
      plan.totalMs = restoreCostMs planner.geometry profile totalTokens localCachedTokens
        prefillMsPerToken matchedTokens := by
  have restored : 0 < matchedTokens - localCachedTokens := sub_pos.mpr longer
  have size : planner.geometry.sizeBytes (matchedTokens - localCachedTokens) =
      .ok (planner.geometry.bytesPerToken * (matchedTokens - localCachedTokens)) :=
    if_neg (not_lt.mpr restored.le)
  simp only [restorePlan, size, Py.ok_bind]
  refine ⟨_, rfl, rfl, rfl, rfl, ?_, rfl⟩
  exact mul_pos planner.geometry.bytesPerToken_pos restored

theorem plan_chooses (remote : tier ≠ .gpu) (profiled : planner.tierProfiles tier = some profile)
    (nonneg : 0 ≤ localCachedTokens) (longer : localCachedTokens < matchedTokens)
    (covered : matchedTokens ≤ totalTokens) (positive : 0 < prefillMsPerToken) :
    ∃ plan, planner.plan totalTokens localCachedTokens [(tier, matchedTokens)]
        prefillMsPerToken = .ok plan ∧
      Chooses planner profile tier totalTokens localCachedTokens prefillMsPerToken
        matchedTokens plan := by
  rcases @restorePlan_ok planner profile tier totalTokens localCachedTokens matchedTokens
    prefillMsPerToken longer with ⟨restored, planned, -, -, -, bytes, cost⟩
  have candidates : planner.restorePlans totalTokens localCachedTokens prefillMsPerToken
      [(tier, matchedTokens)] = .ok [restored] := by
    simp only [restorePlans, profiled, planned, Py.ok_bind]
    rw [if_neg (by omega), if_neg (not_or.mpr ⟨remote, by omega⟩), if_neg (by omega)]
  simp only [plan, candidates, Py.ok_bind]
  rw [if_neg (by omega), if_neg (by omega), if_neg (not_le.mpr positive)]
  cases chosen : List.argmin KvAccessPlan.key
      [recomputePlan totalTokens localCachedTokens prefillMsPerToken, restored] with
  | none => exact absurd (List.argmin_eq_none.mp chosen) (List.cons_ne_nil _ _)
  | some best =>
    refine ⟨best, rfl, ?_⟩
    have mem := List.argmin_mem chosen
    simp only [List.mem_cons, List.not_mem_nil, or_false] at mem
    rcases mem with rfl | rfl
    · apply Chooses.recompute
      have least := List.le_of_mem_argmin (List.mem_cons_of_mem _ List.mem_cons_self) chosen
      rw [← cost]
      exact Prod.Lex.monotone_fst _ _ least
    · apply Chooses.restore planned
      have least := List.le_of_mem_argmin List.mem_cons_self chosen
      rw [← cost]
      -- A tie goes to the recomputation, which transfers nothing.
      rcases Prod.Lex.le_iff.mp least with cheaper | ⟨-, tied⟩
      · exact cheaper
      · rcases Prod.Lex.le_iff.mp tied with fewer | ⟨same, -⟩
        · exact absurd fewer (not_lt.mpr bytes.le)
        · exact absurd same bytes.ne'

end KvTransferPlanner

end NanoVllm
