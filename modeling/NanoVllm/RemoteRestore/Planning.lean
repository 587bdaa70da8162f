import NanoVllm.RemoteRestore
import NanoVllm.HierarchicalCache
import NanoVllm.BlockManager.Basic
import NanoVllm.Engine.Runs

/-!
# The restore decision

`plan_restore` matches the complete pages of a request, except the last page, against the remote
catalog and lets the planner choose between the recomputation and the restoration of the whole
match. No shorter remote prefix costs less than the choice.
-/

namespace NanoVllm

theorem RadixForest.length_matchKeys_le {K : Type} [DecidableEq K] (forest : RadixForest K)
    (keys : List K) (clock : ℕ) : (forest.matchKeys keys clock).2.2.length ≤ keys.length := by
  induction forest generalizing keys clock with
  | nil => simp [matchKeys]
  | cons key node children rest ihChildren ihRest =>
    cases keys with
    | nil => simp [matchKeys]
    | cons k ks =>
      have common := commonPrefixLength_le_right node.edgeKeys (k :: ks)
      simp only [matchKeys]
      split
      · split
        · simp
        · split
          · exact (List.length_take_le _ _).trans common
          · have below := ihChildren ((k :: ks).drop (commonPrefixLength node.edgeKeys (k :: ks)))
              (clock + 1)
            have edge := List.length_take_le (commonPrefixLength node.edgeKeys (k :: ks))
              node.blockIds
            rw [List.length_drop] at below
            rw [List.length_append]
            omega
      · exact ihRest (k :: ks) clock

namespace RemoteCatalog

theorem length_of_mapM {α β : Type} {f : α → Py β} {items : List α} {results : List β}
    (made : items.mapM f = .ok results) : results.length = items.length := by
  induction items generalizing results with
  | nil =>
    cases made
    rfl
  | cons item items ih =>
    rw [List.mapM_cons] at made
    rcases Py.exists_of_bind made with ⟨result, -, made⟩
    rcases Py.exists_of_bind made with ⟨results', rest, returned⟩
    cases returned
    rw [List.length_cons, List.length_cons, ih rest]

theorem RemotePrefixCatalog.length_matchKeys_le {catalog catalog' : RemotePrefixCatalog}
    {blockKeys : List BlockKey} {pages : List RemotePageDescriptor}
    (found : catalog.matchKeys blockKeys = .ok (catalog', pages)) :
    pages.length ≤ blockKeys.length := by
  simp only [RemotePrefixCatalog.matchKeys] at found
  rcases Py.exists_of_bind found with ⟨pages', described, returned⟩
  cases returned
  rw [length_of_mapM described]
  exact RadixForest.length_matchKeys_le _ _ _

end RemoteCatalog

namespace RemoteRestore

open KvTransferPlanner

/-- `RemoteRestoreCandidate`. -/
structure RemoteRestoreCandidate where
  pages : List RemoteCatalog.RemotePageDescriptor
  estimatedTotalMs : ℚ
  estimatedTransferBytes : ℤ

def RemoteRestoreCandidate.numBlocks (candidate : RemoteRestoreCandidate) : ℕ :=
  candidate.pages.length

/-- `plan_restore`; the match changes the access times of the catalog. -/
def Service.planRestore (service : Service) (planner : Option KvTransferPlanner) (cfg : Config)
    (seq : Sequence) (localCachedBlocks : ℕ) (prefillMsPerToken : ℚ) :
    Py (Service × Option RemoteRestoreCandidate) := do
  let cacheableBlocks := seq.numBlocks cfg - 1
  let (catalog, pages) ← service.catalog.matchKeys (seq.blockKeys cfg cacheableBlocks)
  let service := { service with catalog }
  if pages.length ≤ localCachedBlocks then .ok (service, none)
  else
    match planner with
    | none => .ok (service, some ⟨pages, 0, 0⟩)
    | some planner => do
        let plan ← planner.plan seq.numTokens ((localCachedBlocks * cfg.blockSize : ℕ) : ℤ)
          [(.mooncake, ((pages.length * cfg.blockSize : ℕ) : ℤ))] prefillMsPerToken
        if plan.action ≠ .restore ∨ plan.sourceTier ≠ .mooncake then .ok (service, none)
        else
          let sourceBlocks := plan.sourceCachedTokens / cfg.blockSize
          .ok (service, some {
            pages := pages.take sourceBlocks.toNat
            estimatedTotalMs := plan.totalMs
            estimatedTransferBytes := plan.transferBytes })

/-! ## Optimality -/

/-- The tokens of the first pages of a request. -/
def pageTokens (cfg : Config) (numBlocks : ℕ) : ℤ := ((numBlocks * cfg.blockSize : ℕ) : ℤ)

/-- The cost of a decision: without a candidate everything behind the local hit is recomputed. -/
def choiceCostMs (cfg : Config) (geometry : KvCacheGeometry) (profile : StorageTierProfile)
    (seq : Sequence) (localCachedBlocks : ℕ) (prefillMsPerToken : ℚ) :
    Option RemoteRestoreCandidate → ℚ
  | none => recomputeCostMs seq.numTokens (pageTokens cfg localCachedBlocks) prefillMsPerToken
  | some candidate =>
      restoreCostMs geometry profile seq.numTokens (pageTokens cfg localCachedBlocks)
        prefillMsPerToken (pageTokens cfg candidate.numBlocks)

/-- A decision which no other cut-off of the remote match beats. -/
structure OptimalChoice (cfg : Config) (geometry : KvCacheGeometry)
    (profile : StorageTierProfile) (seq : Sequence) (localCachedBlocks : ℕ)
    (prefillMsPerToken : ℚ) (pages : List RemoteCatalog.RemotePageDescriptor)
    (choice : Option RemoteRestoreCandidate) : Prop where
  recompute :
    choiceCostMs cfg geometry profile seq localCachedBlocks prefillMsPerToken choice ≤
      recomputeCostMs seq.numTokens (pageTokens cfg localCachedBlocks) prefillMsPerToken
  restore : ∀ numBlocks, localCachedBlocks < numBlocks → numBlocks ≤ pages.length →
    choiceCostMs cfg geometry profile seq localCachedBlocks prefillMsPerToken choice ≤
      restoreCostMs geometry profile seq.numTokens (pageTokens cfg localCachedBlocks)
        prefillMsPerToken (pageTokens cfg numBlocks)
  candidate : ∀ candidate, choice = some candidate →
    candidate.pages = pages ∧
      candidate.estimatedTotalMs =
        choiceCostMs cfg geometry profile seq localCachedBlocks prefillMsPerToken choice ∧
      candidate.estimatedTotalMs <
        recomputeCostMs seq.numTokens (pageTokens cfg localCachedBlocks) prefillMsPerToken ∧
      localCachedBlocks < candidate.numBlocks ∧ candidate.numBlocks < seq.numBlocks cfg

theorem pageTokens_lt {cfg : Config} {seq : Sequence} {numBlocks : ℕ}
    (short : numBlocks < seq.numBlocks cfg) : pageTokens cfg numBlocks < seq.numTokens := by
  have bound := (Nat.le_div_iff_mul_le cfg.blockSize_pos).mp (Nat.succ_le_of_lt short)
  have positive := cfg.blockSize_pos
  rw [Nat.succ_mul] at bound
  unfold pageTokens
  omega

variable {cfg : Config} {planner : KvTransferPlanner} {profile : StorageTierProfile}
  {seq : Sequence} {localCachedBlocks : ℕ} {prefillMsPerToken : ℚ}
  {pages : List RemoteCatalog.RemotePageDescriptor} {numBlocks : ℕ}

/-- The whole match is restored when that is cheaper than the recomputation. -/
theorem restoreCostMs_min_le (longer : localCachedBlocks < numBlocks)
    (covered : numBlocks ≤ pages.length) :
    min (recomputeCostMs seq.numTokens (pageTokens cfg localCachedBlocks) prefillMsPerToken)
        (restoreCostMs planner.geometry profile seq.numTokens (pageTokens cfg localCachedBlocks)
          prefillMsPerToken (pageTokens cfg pages.length)) ≤
      restoreCostMs planner.geometry profile seq.numTokens (pageTokens cfg localCachedBlocks)
        prefillMsPerToken (pageTokens cfg numBlocks) := by
  apply min_le_restoreCostMs
  · exact Int.ofNat_le.mpr (Nat.mul_le_mul_right _ longer.le)
  · exact Int.ofNat_le.mpr (Nat.mul_le_mul_right _ covered)

theorem optimalChoice_none
    (cheapest : recomputeCostMs seq.numTokens (pageTokens cfg localCachedBlocks)
        prefillMsPerToken ≤
      restoreCostMs planner.geometry profile seq.numTokens (pageTokens cfg localCachedBlocks)
        prefillMsPerToken (pageTokens cfg pages.length)) :
    OptimalChoice cfg planner.geometry profile seq localCachedBlocks prefillMsPerToken pages
      none where
  recompute := le_refl _
  restore := by
    intro numBlocks longer covered
    exact (le_min (le_refl _) cheapest).trans (restoreCostMs_min_le longer covered)
  candidate := nofun

theorem optimalChoice_some {candidate : RemoteRestoreCandidate}
    (matched : candidate.pages = pages)
    (cost : candidate.estimatedTotalMs = restoreCostMs planner.geometry profile seq.numTokens
      (pageTokens cfg localCachedBlocks) prefillMsPerToken (pageTokens cfg pages.length))
    (cheaper : restoreCostMs planner.geometry profile seq.numTokens
        (pageTokens cfg localCachedBlocks) prefillMsPerToken (pageTokens cfg pages.length) <
      recomputeCostMs seq.numTokens (pageTokens cfg localCachedBlocks) prefillMsPerToken)
    (longer : localCachedBlocks < pages.length) (tail : pages.length < seq.numBlocks cfg) :
    OptimalChoice cfg planner.geometry profile seq localCachedBlocks prefillMsPerToken pages
      (some candidate) := by
  have length : candidate.numBlocks = pages.length := congrArg List.length matched
  have choiceCost : choiceCostMs cfg planner.geometry profile seq localCachedBlocks
      prefillMsPerToken (some candidate) = restoreCostMs planner.geometry profile seq.numTokens
        (pageTokens cfg localCachedBlocks) prefillMsPerToken (pageTokens cfg pages.length) := by
    rw [choiceCostMs, length]
  refine ⟨?_, ?_, ?_⟩
  · rw [choiceCost]
    exact cheaper.le
  · intro numBlocks longer' covered
    rw [choiceCost]
    exact (le_min cheaper.le (le_refl _)).trans (restoreCostMs_min_le longer' covered)
  · rintro _ ⟨⟩
    rw [choiceCost, cost, length]
    exact ⟨matched, rfl, cheaper, longer, tail⟩

/--
Of the recomputation and the restoration of any part of the remote match, the decision is one of
least cost. A candidate meets the checks of `reserve_restore` and costs less than recomputing.
-/
theorem planRestore_optimal {service : Service} {catalog : RemoteCatalog.RemotePrefixCatalog}
    (profiled : planner.tierProfiles .mooncake = some profile) (positive : 0 < prefillMsPerToken)
    (found : service.catalog.matchKeys (seq.blockKeys cfg (seq.numBlocks cfg - 1)) =
      .ok (catalog, pages)) (longer : localCachedBlocks < pages.length) :
    ∃ choice, service.planRestore (some planner) cfg seq localCachedBlocks prefillMsPerToken =
        .ok ({ service with catalog }, choice) ∧
      OptimalChoice cfg planner.geometry profile seq localCachedBlocks prefillMsPerToken pages
        choice := by
  have matched := RemoteCatalog.RemotePrefixCatalog.length_matchKeys_le found
  have keys : (seq.blockKeys cfg (seq.numBlocks cfg - 1)).length = seq.numBlocks cfg - 1 := by
    simp [Sequence.blockKeys]
  have tail : pages.length < seq.numBlocks cfg := by omega
  have longerTokens : pageTokens cfg localCachedBlocks < pageTokens cfg pages.length :=
    Int.ofNat_lt.mpr (Nat.mul_lt_mul_of_pos_right longer cfg.blockSize_pos)
  rcases plan_chooses (show CacheTier.mooncake ≠ .gpu by decide) profiled
    (Int.natCast_nonneg _) longerTokens (pageTokens_lt tail).le positive with
    ⟨plan, planned, chooses⟩
  simp only [pageTokens] at planned
  simp only [Service.planRestore, found, Py.ok_bind, if_neg (not_le.mpr longer), planned]
  cases chooses with
  | recompute cheapest =>
    refine ⟨none, ?_, optimalChoice_none cheapest⟩
    rw [if_pos (Or.inr (by simp [KvTransferPlanner.recomputePlan]))]
  | restore restored cheaper =>
    rcases @restorePlan_ok planner profile .mooncake seq.numTokens _ _ prefillMsPerToken
      longerTokens with ⟨_, planned', action, tier, source, -, cost⟩
    cases restored.symm.trans planned'
    have blocks : (plan.sourceCachedTokens / cfg.blockSize).toNat = pages.length := by
      rw [source, pageTokens, ← Int.natCast_div, Nat.mul_div_cancel _ cfg.blockSize_pos,
        Int.toNat_natCast]
    refine ⟨some _, if_neg (by simp [action, tier]), optimalChoice_some ?_ cost cheaper longer tail⟩
    rw [blocks, List.take_length]

/-- A link of 0.1 GB/s with a latency of one millisecond. -/
def slowPlanner : KvTransferPlanner where
  geometry := ⟨28, 8, 128, 2, by decide⟩
  tierProfiles := fun tier =>
    if tier = .mooncake then some ⟨1 / 10, 1, 1, by norm_num, by norm_num, le_refl _⟩ else none

/-- The service after a prefix of two pages has been registered. -/
def twoPagesService : Py Service := do
  let catalog ← RemoteCatalog.RemotePrefixCatalog.empty.register [[1, 2], [3, 4]]
    [⟨"p", "a", 0, 0, RemoteCatalog.RemotePageDescriptor.named_p⟩, ⟨"q", "a", 0, 1, RemoteCatalog.RemotePageDescriptor.named_q⟩]
  .ok { coordinator := .initial fun _ => none, catalog, phase := .idle }

/-- A request whose first two pages are registered. -/
def twoPagesRequest : Sequence := .new 0 [1, 2, 3, 4, 5] 8 false default none

theorem planRestore_optimal_twoPages : ∃ service service' pages choice profile,
    twoPagesService = .ok service ∧ pages.length = 2 ∧
      slowPlanner.tierProfiles .mooncake = some profile ∧
      service.planRestore (some slowPlanner) (System.defaultConfig 2 5 2 (by decide))
        twoPagesRequest 1 (1 / 20) = .ok (service', choice) ∧
      OptimalChoice (System.defaultConfig 2 5 2 (by decide)) slowPlanner.geometry profile
        twoPagesRequest 1 (1 / 20) pages choice := by
  have registered : ∃ service catalog pages, twoPagesService = .ok service ∧ pages.length = 2 ∧
      service.catalog.matchKeys (twoPagesRequest.blockKeys (System.defaultConfig 2 5 2 (by decide))
        (twoPagesRequest.numBlocks (System.defaultConfig 2 5 2 (by decide)) - 1)) =
          .ok (catalog, pages) := ⟨_, _, _, rfl, rfl, rfl⟩
  rcases registered with ⟨service, catalog, pages, made, two, found⟩
  have longer : 1 < pages.length := by omega
  rcases planRestore_optimal (show slowPlanner.tierProfiles .mooncake = some _ from rfl)
    (show (0 : ℚ) < 1 / 20 by norm_num) found longer with ⟨choice, planned, optimal⟩
  exact ⟨service, _, pages, choice, _, made, two, rfl, planned, optimal⟩

end RemoteRestore

end NanoVllm
