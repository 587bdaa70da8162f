import NanoVllm.RemoteRestore.Planning

/-!
# The candidates of the service

A candidate of `plan_restore` is the whole remote match. It extends the local hit and leaves the
last page of the request to be computed, as `reserve_restore` checks it. So the service is one as
the scheduler sees it.
-/

namespace NanoVllm

namespace KvTransferPlanner

variable {planner : KvTransferPlanner} {tier : CacheTier} {totalTokens localCachedTokens : ℤ}
  {matchedTokens : ℤ} {prefillMsPerToken : ℚ} {plan : KvAccessPlan}

theorem source_of_restorePlan {profile : StorageTierProfile}
    (planned : planner.restorePlan totalTokens localCachedTokens prefillMsPerToken tier profile
      matchedTokens = .ok plan) : plan.sourceCachedTokens = matchedTokens := by
  rcases Py.exists_of_bind planned with ⟨transferBytes, -, returned⟩
  cases returned
  rfl

/-- A restoration from the only tier restores all of its prefix. -/
theorem source_of_restore
    (planned : planner.plan totalTokens localCachedTokens [(tier, matchedTokens)]
      prefillMsPerToken = .ok plan) (restores : plan.action = .restore) :
    plan.sourceCachedTokens = matchedTokens := by
  have computed : (recomputePlan totalTokens localCachedTokens prefillMsPerToken).action ≠
      .restore := by
    simp only [recomputePlan]
    split <;> simp
  unfold KvTransferPlanner.plan at planned
  split at planned
  · cases planned
  split at planned
  · cases planned
  split at planned
  · cases planned
  rcases Py.exists_of_bind planned with ⟨plans, listed, chosen⟩
  dsimp only at chosen
  split at chosen
  · cases chosen
  · next best chooses =>
    cases chosen
    rcases List.mem_cons.mp (List.argmin_mem chooses) with rfl | mem
    · exact absurd restores computed
    · simp only [restorePlans] at listed
      split at listed
      · cases listed
      split at listed
      · cases listed
        cases mem
      split at listed
      · cases listed
      split at listed
      · cases listed
        cases mem
      · rcases Py.exists_of_bind listed with ⟨only, made, returned⟩
        cases returned
        cases List.mem_singleton.mp mem
        exact source_of_restorePlan made

end KvTransferPlanner

namespace RemoteRestore

variable {cfg : Config} {planner : Option KvTransferPlanner} {service service' : Service}
  {seq : Sequence} {localCachedBlocks : ℕ} {prefillMsPerToken : ℚ}
  {candidate : RemoteRestoreCandidate}

/-- A candidate is the whole match of the pages which the request may take from a cache. -/
structure Service.Matched (service : Service) (cfg : Config) (seq : Sequence)
    (localCachedBlocks : ℕ) (candidate : RemoteRestoreCandidate) : Prop where
  pages : ∃ catalog, service.catalog.matchKeys (seq.blockKeys cfg (seq.numBlocks cfg - 1)) =
    .ok (catalog, candidate.pages)
  extendsLocal : localCachedBlocks < candidate.numBlocks
  tail : candidate.numBlocks < seq.numBlocks cfg

theorem Service.matched_of_planRestore
    (planned : service.planRestore planner cfg seq localCachedBlocks prefillMsPerToken =
      .ok (service', some candidate)) : service.Matched cfg seq localCachedBlocks candidate := by
  rcases Py.exists_of_bind planned with ⟨⟨catalog, pages⟩, matched, planned⟩
  have keys : (seq.blockKeys cfg (seq.numBlocks cfg - 1)).length = seq.numBlocks cfg - 1 := by
    simp [Sequence.blockKeys]
  have covered := RemoteCatalog.RemotePrefixCatalog.length_matchKeys_le matched
  dsimp only at planned
  split at planned
  · cases planned
  · next longer =>
    have extendsLocal := not_le.mp longer
    have tail : pages.length < seq.numBlocks cfg := by omega
    split at planned
    · cases planned
      exact ⟨⟨catalog, matched⟩, extendsLocal, tail⟩
    · rcases Py.exists_of_bind planned with ⟨plan, chosen, planned⟩
      split at planned
      · cases planned
      · next restores =>
        cases planned
        rw [not_or, not_not, not_not] at restores
        have whole : (plan.sourceCachedTokens / cfg.blockSize).toNat = pages.length := by
          rw [KvTransferPlanner.source_of_restore chosen restores.1, ← Int.natCast_div,
            Nat.mul_div_cancel _ cfg.blockSize_pos, Int.toNat_natCast]
        constructor
        · refine ⟨catalog, ?_⟩
          rw [whole, List.take_length]
          exact matched
        · rw [RemoteRestoreCandidate.numBlocks, whole, List.take_length]
          exact extendsLocal
        · rw [RemoteRestoreCandidate.numBlocks, whole, List.take_length]
          exact tail

/-- The first pages of a request. -/
def prefixPages (cfg : Config) (seq : Sequence) (numBlocks : ℕ) :
    List NanoVllm.RemotePageDescriptor :=
  (List.range numBlocks).map fun index =>
    { prefixTokenIds := seq.tokenIds.take ((index + 1) * cfg.blockSize), pageIndex := index }

/-- The service as the scheduler sees it. -/
def Service.restores (service : Service) (planner : Option KvTransferPlanner) (cfg : Config) :
    RestoreService cfg where
  planRestore seq localCachedBlocks prefillMsPerToken :=
    match service.planRestore planner cfg seq localCachedBlocks prefillMsPerToken with
    | .ok (_, some candidate) => some (prefixPages cfg seq candidate.numBlocks)
    | _ => none
  plan_valid := by
    intro seq localCachedBlocks prefillMsPerToken pages planned
    split at planned
    · next candidate chosen =>
      cases planned
      have matched := matched_of_planRestore chosen
      refine ⟨?_, ?_, ?_⟩
      · rw [prefixPages, List.length_map, List.length_range]
        exact matched.extendsLocal
      · rw [prefixPages, List.length_map, List.length_range]
        exact matched.tail
      · intro page index get
        rw [prefixPages, List.getElem?_map] at get
        rcases Option.map_eq_some_iff.mp get with ⟨index', listed, rfl⟩
        rcases List.getElem?_eq_some_iff.mp listed with ⟨_, same⟩
        rw [List.getElem_range] at same
        cases same
        exact ⟨rfl, rfl⟩
    · cases planned

end RemoteRestore

end NanoVllm
