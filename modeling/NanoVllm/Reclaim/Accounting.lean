import NanoVllm.Library.HighWater
import NanoVllm.Scheduler.Postprocess

/-!
# Recompute accounting

A reclaim adds the invalidated tokens to `pending_preemption_recompute_tokens`, reused tokens come
off it, and a prefill consumes it. `schedule()` only reclaims and reuses: what every part of it does
to the counters of one request is `GivesUp` or `Regains`. The pages of a reservation for a remote
restore are cached, but they do not come off the counter.
-/

namespace NanoVllm

open BlockManager HighWater

namespace Sequence

variable {cfg : Config} {seq seq' seq'' : Sequence}

/-- The cached tokens which come off the counter. -/
def creditedTokens (seq : Sequence) : ℕ :=
  if seq.status = .waitingForKv then 0 else seq.numCachedTokens

theorem creditedTokens_eq (notRestoring : seq.status ≠ .waitingForKv) :
    seq.creditedTokens = seq.numCachedTokens := if_neg notRestoring

/-- A request after a part of `schedule()` without a reclaim. -/
structure Regains (seq seq' : Sequence) : Prop where
  live : seq'.status.Live → seq.status.Live
  tokens : seq'.numTokens = seq.numTokens
  credited : seq.creditedTokens ≤ seq'.creditedTokens
  pending : seq'.pendingPreemptionRecomputeTokens =
    seq.pendingPreemptionRecomputeTokens - (seq'.creditedTokens - seq.creditedTokens)
  recomputed : seq'.kvRecomputedTokens = seq.kvRecomputedTokens

/-- A request after a reclaim. -/
structure GivesUp (seq seq' : Sequence) : Prop where
  live : seq'.status.Live → seq.status.Live
  tokens : seq'.numTokens = seq.numTokens
  credited : seq'.creditedTokens ≤ seq.numCachedTokens
  pending : seq'.pendingPreemptionRecomputeTokens =
    seq.pendingPreemptionRecomputeTokens + (seq.numCachedTokens - seq'.creditedTokens)
  recomputed : seq'.kvRecomputedTokens = seq.kvRecomputedTokens

theorem Regains.of_credited (live : seq'.status.Live → seq.status.Live)
    (tokens : seq'.numTokens = seq.numTokens)
    (credited : seq'.creditedTokens = seq.creditedTokens)
    (pending :
      seq'.pendingPreemptionRecomputeTokens = seq.pendingPreemptionRecomputeTokens)
    (recomputed : seq'.kvRecomputedTokens = seq.kvRecomputedTokens) : seq.Regains seq' := by
  refine ⟨live, tokens, credited.ge, ?_, recomputed⟩
  rw [pending, credited, Nat.sub_self, Nat.sub_zero]

/-- A request of which other fields change. -/
theorem Regains.of_same (status : seq'.status = seq.status)
    (tokens : seq'.numTokens = seq.numTokens)
    (cached : seq'.numCachedTokens = seq.numCachedTokens)
    (pending :
      seq'.pendingPreemptionRecomputeTokens = seq.pendingPreemptionRecomputeTokens)
    (recomputed : seq'.kvRecomputedTokens = seq.kvRecomputedTokens) : seq.Regains seq' := by
  refine .of_credited ?_ tokens ?_ pending recomputed
  · rw [status]
    exact id
  · rw [creditedTokens, creditedTokens, status, cached]

theorem Regains.refl (seq : Sequence) : seq.Regains seq := .of_same rfl rfl rfl rfl rfl

theorem Regains.trans (first : seq.Regains seq') (second : seq'.Regains seq'') :
    seq.Regains seq'' where
  live live := first.live (second.live live)
  tokens := second.tokens.trans first.tokens
  credited := first.credited.trans second.credited
  pending := by
    have credited := first.credited
    have credited' := second.credited
    rw [second.pending, first.pending]
    omega
  recomputed := second.recomputed.trans first.recomputed

/-- A request which is no reservation attaches cached tokens. -/
theorem Regains.of_attached (live : seq'.status.Live → seq.status.Live)
    (notRestoring : seq.status ≠ .waitingForKv) (notRestoring' : seq'.status ≠ .waitingForKv)
    (tokens : seq'.numTokens = seq.numTokens)
    (cached : seq.numCachedTokens ≤ seq'.numCachedTokens)
    (pending : seq'.pendingPreemptionRecomputeTokens =
      seq.pendingPreemptionRecomputeTokens - (seq'.numCachedTokens - seq.numCachedTokens))
    (recomputed : seq'.kvRecomputedTokens = seq.kvRecomputedTokens) : seq.Regains seq' := by
  have credited := creditedTokens_eq notRestoring
  have credited' := creditedTokens_eq notRestoring'
  refine ⟨live, tokens, ?_, ?_, recomputed⟩
  · rw [credited, credited']
    exact cached
  · rw [credited, credited']
    exact pending

theorem GivesUp.of_cached (status : seq'.status = seq.status)
    (notRestoring : seq.status ≠ .waitingForKv) (tokens : seq'.numTokens = seq.numTokens)
    (cached : seq'.numCachedTokens ≤ seq.numCachedTokens)
    (pending : seq'.pendingPreemptionRecomputeTokens =
      seq.pendingPreemptionRecomputeTokens + (seq.numCachedTokens - seq'.numCachedTokens))
    (recomputed : seq'.kvRecomputedTokens = seq.kvRecomputedTokens) : seq.GivesUp seq' := by
  have credited : seq'.creditedTokens = seq'.numCachedTokens :=
    creditedTokens_eq (status ▸ notRestoring)
  refine ⟨status ▸ id, tokens, ?_, ?_, recomputed⟩
  · rw [credited]
    exact cached
  · rw [credited]
    exact pending

end Sequence

namespace Scheduler

variable {cfg : Config} {env : ScheduleEnv cfg} {ids : Finset SeqId} {kv : KvStore}
  {s s' s'' : Scheduler} {i j : SeqId} {held batch : List SeqId} {now : ℚ}
  {log : List (SeqId × ℕ)} {counted : SeqId → ℕ}

/-- A part of `schedule()` without a reclaim. -/
def Regains (s s' : Scheduler) : Prop := ∀ j, (s.seqs j).Regains (s'.seqs j)

theorem Regains.of_seqs (same : s'.seqs = s.seqs) : Regains s s' := by
  intro j
  rw [same]
  exact .refl _

theorem Regains.of_update {seq : Sequence} (seqs : s'.seqs = Function.update s.seqs i seq)
    (regains : (s.seqs i).Regains seq) : Regains s s' := by
  intro j
  rw [seqs]
  by_cases self : j = i
  · subst self
    rwa [Function.update_self]
  · rw [Function.update_of_ne self]
    exact .refl _

theorem Regains.trans (first : Regains s s') (second : Regains s' s'') : Regains s s'' :=
  fun j => (first j).trans (second j)

/-- The counters of every request, with the log of the reclaims so far. -/
structure Accounted (ids : Finset SeqId) (log : List (SeqId × ℕ)) (counted : SeqId → ℕ)
    (s : Scheduler) : Prop where
  recomputed : ∀ i ∈ ids, (s.seqs i).kvRecomputedTokens = counted i
  pending : ∀ i ∈ ids, (s.seqs i).status.Live →
    (s.seqs i).pendingPreemptionRecomputeTokens =
        highest log i - (s.seqs i).creditedTokens
  below : ∀ i ∈ ids, (s.seqs i).status.Live → highest log i < (s.seqs i).numTokens
  fresh : ∀ i, i ∉ ids → highest log i = 0 ∧ counted i = 0

theorem Accounted.regains (accounted : Accounted ids log counted s) (regains : Regains s s') :
    Accounted ids log counted s' where
  recomputed i known := (regains i).recomputed.trans (accounted.recomputed i known)
  pending i known live := by
    have before := accounted.pending i known ((regains i).live live)
    rw [(regains i).pending, before]
    exact missing_regain (regains i).credited
  below i known live := by
    rw [(regains i).tokens]
    exact accounted.below i known ((regains i).live live)
  fresh := accounted.fresh

/-- The entry of the log for a reclaim of one request. -/
def reclaimEntry (s : Scheduler) (i : SeqId) : SeqId × ℕ := (i, (s.seqs i).numCachedTokens)

theorem Accounted.givesUp (accounted : Accounted ids log counted s) {seq : Sequence}
    (known : i ∈ ids) (seqs : s'.seqs = Function.update s.seqs i seq) (givesUp : (s.seqs i).GivesUp seq)
    (notRestoring : (s.seqs i).status ≠ .waitingForKv)
    (short : (s.seqs i).numCachedTokens < (s.seqs i).numTokens) :
    Accounted ids (log ++ [s.reclaimEntry i]) counted s' where
  recomputed j known := by
    rw [seqs]
    by_cases self : j = i
    · subst self
      rw [Function.update_self, givesUp.recomputed]
      exact accounted.recomputed j known
    · rw [Function.update_of_ne self]
      exact accounted.recomputed j known
  pending j known live := by
    rw [seqs] at live ⊢
    by_cases self : j = i
    · subst self
      rw [Function.update_self] at live ⊢
      have before := accounted.pending j known (givesUp.live live)
      rw [givesUp.pending, before, Sequence.creditedTokens_eq notRestoring, reclaimEntry,
        highest_concat_self]
      exact missing_lose givesUp.credited
    · rw [Function.update_of_ne self] at live ⊢
      rw [reclaimEntry, highest_concat_of_ne log self]
      exact accounted.pending j known live
  below j known live := by
    rw [seqs] at live ⊢
    by_cases self : j = i
    · subst self
      rw [Function.update_self] at live ⊢
      rw [reclaimEntry, highest_concat_self, givesUp.tokens]
      exact max_lt (accounted.below j known (givesUp.live live)) short
    · rw [Function.update_of_ne self] at live ⊢
      rw [reclaimEntry, highest_concat_of_ne log self]
      exact accounted.below j known live
  fresh j unknown := by
    have differ : j ≠ i := by
      rintro rfl
      exact unknown known
    rw [reclaimEntry, highest_concat_of_ne log differ]
    exact accounted.fresh j unknown

/-- One request gets new counters. -/
theorem Accounted.update (accounted : Accounted ids log counted s) {seq : Sequence}
    (known : i ∈ ids) (seqs : s'.seqs = Function.update s.seqs i seq)
    (live : seq.status.Live → seq.pendingPreemptionRecomputeTokens =
      highest log i - seq.creditedTokens ∧ highest log i < seq.numTokens) :
    Accounted ids log (Function.update counted i seq.kvRecomputedTokens) s' where
  recomputed j known := by
    rw [seqs]
    by_cases self : j = i
    · subst self
      rw [Function.update_self, Function.update_self]
    · rw [Function.update_of_ne self, Function.update_of_ne self]
      exact accounted.recomputed j known
  pending j known live' := by
    rw [seqs] at live' ⊢
    by_cases self : j = i
    · subst self
      rw [Function.update_self] at live' ⊢
      exact (live live').1
    · rw [Function.update_of_ne self] at live' ⊢
      exact accounted.pending j known live'
  below j known live' := by
    rw [seqs] at live' ⊢
    by_cases self : j = i
    · subst self
      rw [Function.update_self] at live' ⊢
      exact (live live').2
    · rw [Function.update_of_ne self] at live' ⊢
      exact accounted.below j known live'
  fresh j unknown := by
    have differ : j ≠ i := by
      rintro rfl
      exact unknown known
    rw [Function.update_of_ne differ]
    exact accounted.fresh j unknown

/-- A request ends. -/
theorem Accounted.ended (accounted : Accounted ids log counted s) {seq : Sequence}
    (known : i ∈ ids) (seqs : s'.seqs = Function.update s.seqs i seq)
    (dead : ¬seq.status.Live)
    (recomputed : seq.kvRecomputedTokens = (s.seqs i).kvRecomputedTokens) :
    Accounted ids log counted s' := by
  have updated := accounted.update known seqs fun live => absurd live dead
  rwa [recomputed, accounted.recomputed i known, Function.update_eq_self] at updated

/-! ## The parts of `schedule()` -/

theorem applyKvReclaim_givesUp {decision : KvReclaimDecision}
    (notRestoring : (s.seqs i).status ≠ .waitingForKv)
    (invalidated : decision.invalidatedTokens =
      (s.seqs i).numCachedTokens - decision.keepBlocks * cfg.blockSize)
    (applied : s.applyKvReclaim cfg i decision = .ok s') :
    ∃ seq, s'.seqs = Function.update s.seqs i seq ∧ (s.seqs i).GivesUp seq ∧
      seq.status = (s.seqs i).status := by
  rcases Py.exists_of_bind applied with ⟨⟨bm, seq, freed⟩, reclaimed, applied⟩
  cases applied
  rw [reclaimSuffix] at reclaimed
  split at reclaimed
  · cases reclaimed
  · split at reclaimed
    · cases reclaimed
    · next cached =>
      rcases Py.exists_of_bind reclaimed with ⟨bm', released, reclaimed⟩
      cases reclaimed
      refine ⟨_, rfl, .of_cached rfl notRestoring rfl (not_lt.mp cached) ?_ rfl, rfl⟩
      simp only [Sequence.recordKvReclaim, invalidated]

theorem kvReclaimPlan_invalidated (cfg : Config) (seq : Sequence) (budget : Option ℚ)
    (minReclaimBlocks : ℕ) :
    (kvReclaimPlan cfg seq budget minReclaimBlocks).invalidatedTokens = seq.numCachedTokens -
      (kvReclaimPlan cfg seq budget minReclaimBlocks).keepBlocks * cfg.blockSize := by
  rw [kvReclaimPlan]
  split <;> rfl

theorem reclaimFully_givesUp (notRestoring : (s.seqs i).status ≠ .waitingForKv)
    (reclaimed : s.reclaimFully cfg i = .ok s') :
    ∃ seq, s'.seqs = Function.update s.seqs i seq ∧ (s.seqs i).GivesUp seq := by
  rcases applyKvReclaim_givesUp notRestoring rfl reclaimed with ⟨seq, seqs, givesUp, -⟩
  exact ⟨seq, seqs, givesUp⟩

theorem deallocate_fields {bm bm' : BlockManager} {seq seq' : Sequence}
    (released : bm.deallocate seq = .ok (bm', seq')) : seq' = seq.withoutPages := by
  rw [deallocate] at released
  rcases Py.exists_of_bind released with ⟨bm₁, freed, released⟩
  cases released
  rfl

theorem preempt_givesUp (status : (s.seqs i).status = .running)
    (preempted : s.preempt cfg env i = .ok s') :
    ∃ seq, s'.seqs = Function.update s.seqs i seq ∧ (s.seqs i).GivesUp seq := by
  have notRestoring : (s.seqs i).status ≠ .waitingForKv := by
    rw [status]
    simp
  rw [preempt] at preempted
  have requeued : ∀ s₁ : Scheduler, (∃ seq, s₁.seqs = Function.update s.seqs i seq ∧
      (s.seqs i).GivesUp seq ∧ seq.status = (s.seqs i).status) →
      ∃ seq, Function.update s₁.seqs i (s₁.seqs i).preempted = Function.update s.seqs i seq ∧
        (s.seqs i).GivesUp seq := by
    rintro s₁ ⟨seq, seqs, givesUp, same⟩
    have credited : seq.preempted.creditedTokens = seq.creditedTokens := by
      have notRestoring' : seq.status ≠ .waitingForKv := same ▸ notRestoring
      rw [Sequence.creditedTokens_eq notRestoring']
      exact Sequence.creditedTokens_eq (fun same => by cases same)
    rw [seqs, Function.update_idem, Function.update_self]
    refine ⟨_, rfl, fun _ => status ▸ trivial, givesUp.tokens, ?_, ?_, givesUp.recomputed⟩
    · rw [credited]
      exact givesUp.credited
    · rw [credited]
      exact givesUp.pending
  split at preempted
  · rcases Py.exists_of_bind preempted with ⟨⟨bm, seq⟩, released, preempted⟩
    have fields := deallocate_fields released
    subst fields
    cases preempted
    apply requeued
    exact ⟨_, rfl, .of_cached rfl notRestoring rfl (Nat.zero_le _) rfl rfl, rfl⟩
  · dsimp only at preempted
    generalize planned : kvReclaimPlan cfg (s.seqs i) _ _ = plan at preempted
    rcases Py.exists_of_bind preempted with ⟨s₁, applied, preempted⟩
    cases preempted
    apply requeued
    refine applyKvReclaim_givesUp notRestoring ?_ applied
    rw [← planned]
    exact kvReclaimPlan_invalidated cfg _ _ _

/-! ### The parts without a reclaim -/

theorem canResume_regains {ready : Bool} (checked : s.canResume cfg i = .ok (s', ready)) :
    Regains s s' := by
  rw [canResume] at checked
  rcases Py.exists_of_bind checked with ⟨result, looked, checked⟩
  cases checked
  exact .of_seqs rfl

theorem compressKeepPositions_regains {bm bm' : BlockManager} {seq seq' : Sequence}
    {keep : ℕ → Bool} {dropped freed droppedTokens : ℕ}
    (compressed : bm.compressKeepPositions cfg seq keep =
      .ok (bm', seq', dropped, freed, droppedTokens)) : seq.Regains seq' := by
  rw [compressKeepPositions] at compressed
  split at compressed
  · cases compressed
    exact .refl _
  · rcases Py.exists_of_bind compressed with ⟨bm₁, released, compressed⟩
    cases compressed
    exact .of_same rfl rfl rfl rfl rfl

theorem maybeCompress_regains (compressed : s.maybeCompress cfg i = .ok s') : Regains s s' := by
  have recorded : ∀ result : Py (BlockManager × Sequence × ℕ × ℕ × ℕ),
      (∀ bm seq dropped freed droppedTokens,
        result = .ok (bm, seq, dropped, freed, droppedTokens) → (s.seqs i).Regains seq) →
      (result >>= fun (result : BlockManager × Sequence × ℕ × ℕ × ℕ) =>
        if result.2.2.1 = 0 then .ok s
        else .ok (s.put i result.1
          (result.2.1.recordKvCompression result.2.2.1 result.2.2.2.2))) = .ok s' →
      Regains s s' := by
    intro result regains recorded
    cases result with
    | error error => cases recorded
    | ok result =>
      rcases result with ⟨bm, seq, dropped, freed, droppedTokens⟩
      rw [Py.ok_bind] at recorded
      simp only at recorded
      split at recorded
      · cases recorded
        exact .of_seqs rfl
      · cases recorded
        apply Regains.of_update rfl
        exact (regains _ _ _ _ _ rfl).trans (.of_same rfl rfl rfl rfl rfl)
  rw [maybeCompress] at compressed
  split at compressed
  · cases compressed
    exact .of_seqs rfl
  · split at compressed
    · cases compressed
      exact .of_seqs rfl
    · split at compressed
      · refine recorded (s.blockManager.compressQueryAware cfg (s.seqs i)) ?_ compressed
        intro bm seq dropped freed droppedTokens result
        rcases compressQueryAware_cases cfg s.blockManager (s.seqs i) with none | ⟨keep, -, same⟩
        · rw [none] at result
          cases result
          exact .refl _
        · rw [same] at result
          exact compressKeepPositions_regains result
      · refine recorded (s.blockManager.compressSinkRecent cfg (s.seqs i)) ?_ compressed
        intro bm seq dropped freed droppedTokens result
        rcases compressSinkRecent_cases cfg s.blockManager (s.seqs i) with none | ⟨keep, -, same⟩
        · rw [none] at result
          cases result
          exact .refl _
        · rw [same] at result
          exact compressKeepPositions_regains result

theorem scheduleDecode_regains (decoded : s.scheduleDecode cfg i = .ok s') : Regains s s' := by
  rcases Py.exists_of_bind decoded with ⟨⟨bm, seq⟩, appended, decoded⟩
  cases decoded
  rw [mayAppend] at appended
  split at appended
  · rcases Py.exists_of_bind appended with ⟨result, allocated, appended⟩
    cases appended
    exact .of_update rfl (.of_same rfl rfl rfl rfl rfl)
  · cases appended
    exact .of_update rfl (.of_same rfl rfl rfl rfl rfl)

theorem allocate_fields {bm bm' : BlockManager} {seq seq' : Sequence} {n : ℕ}
    (allocated : bm.allocate cfg seq n = .ok (bm', seq')) :
    seq'.status = seq.status ∧ seq'.tokenIds = seq.tokenIds ∧
      seq'.numCachedTokens = n * cfg.blockSize ∧
      seq'.pendingPreemptionRecomputeTokens = seq.pendingPreemptionRecomputeTokens ∧
      seq'.kvRecomputedTokens = seq.kvRecomputedTokens ∧
      (0 < seq.numBlocks cfg → seq'.blockTable ≠ []) := by
  rw [allocate] at allocated
  split at allocated
  · cases allocated
  · simp only at allocated
    split at allocated
    · cases allocated
    · next announced =>
      rcases Py.exists_of_bind allocated with ⟨bm₁, acquired, allocated⟩
      rcases Py.exists_of_bind allocated with ⟨⟨bm₂, table⟩, taken, allocated⟩
      have length := allocateBlocks_length taken
      rw [not_not.mp announced] at length
      cases allocated
      refine ⟨rfl, rfl, rfl, rfl, rfl, ?_⟩
      rintro pages rfl
      rw [List.length_nil] at length
      omega

theorem recordReusedTokens_regains {seq seq' : Sequence} (status : seq'.status = seq.status)
    (notRestoring : seq.status ≠ .waitingForKv) (tokens : seq'.numTokens = seq.numTokens)
    (cached : seq.numCachedTokens ≤ seq'.numCachedTokens)
    (pending :
      seq'.pendingPreemptionRecomputeTokens = seq.pendingPreemptionRecomputeTokens)
    (recomputed : seq'.kvRecomputedTokens = seq.kvRecomputedTokens) :
    seq.Regains (seq'.recordReusedTokens (seq'.numCachedTokens - seq.numCachedTokens)) := by
  refine .of_attached (status ▸ id) notRestoring (status ▸ notRestoring) tokens cached ?_
    recomputed
  simp only [Sequence.recordReusedTokens, pending]

theorem startRemoteRestore_regains {n : ℕ} {started : Bool}
    (status : (s.seqs i).status = .waiting) (uncached : (s.seqs i).numCachedTokens = 0)
    (restored : s.startRemoteRestore cfg env i n now = .ok (s', started)) :
    Regains s s' ∧ (started = false → (s'.seqs i).status = .waiting ∧
      (s'.seqs i).numCachedTokens = 0) := by
  have credited : (s.seqs i).creditedTokens = 0 := by
    rw [Sequence.creditedTokens_eq (by rw [status]; simp), uncached]
  have live : (s.seqs i).status.Live := by
    rw [status]
    trivial
  rw [startRemoteRestore] at restored
  split at restored
  · cases restored
    exact ⟨.of_seqs rfl, fun _ => ⟨status, uncached⟩⟩
  · split at restored
    · cases restored
      exact ⟨.of_seqs rfl, fun _ => ⟨status, uncached⟩⟩
    · next pages planned =>
      rcases Py.exists_of_bind restored with ⟨⟨bm, seq, blockIds⟩, attached, restored⟩
      rw [reserveRestore] at attached
      split at attached
      · cases attached
      · next reserved =>
        rcases Py.exists_of_bind attached with ⟨⟨bm₁, seq₁⟩, allocated, attached⟩
        cases attached
        rcases allocate_fields allocated with
          ⟨status', tokenIds, -, pending, recomputed, owned⟩
        simp only [Py.ok_bind, Sequence.beginRemoteRestore, status', status, ne_eq,
          not_true_eq_false, if_false] at restored
        split at restored
        · next error submitted =>
          rw [abortRestore] at restored
          split at restored
          · next none =>
            exact absurd none (owned (Nat.zero_lt_of_lt (not_not.mp reserved).2))
          · cases released : bm.deallocate { seq with
                status := .waitingForKv
                remoteRestoreAttempted := true
                remoteRestoreStartedTime := some now
                remoteRestoreCompletedTime := none
                remoteRestoreError := none } with
            | error error =>
              rw [released] at restored
              cases restored
            | ok result =>
              rcases result with ⟨bm', seq'⟩
              have fields := deallocate_fields released
              subst fields
              rw [released, Py.ok_bind] at restored
              simp only [Sequence.failRemoteRestore, Sequence.withoutPages, ne_eq,
                not_true_eq_false, if_false, Py.ok_bind] at restored
              cases restored
              refine ⟨.of_update rfl ?_, ?_⟩
              swap
              · intro _
                simp [Scheduler.put]
              refine .of_credited (fun _ => live) (congrArg List.length tokenIds) ?_ pending
                recomputed
              rw [credited]
              rfl
        · cases restored
          refine ⟨.of_update rfl ?_, by simp⟩
          refine .of_credited (fun _ => live) (congrArg List.length tokenIds) ?_ pending
            recomputed
          rw [credited]
          rfl

theorem resume_fields {bm bm' : BlockManager} {seq seq' : Sequence} {reused : ℕ}
    (resumed : bm.resume cfg seq = .ok (bm', seq', reused)) :
    seq'.status = seq.status ∧ seq'.tokenIds = seq.tokenIds ∧
      seq'.numCachedTokens = seq.numCachedTokens + reused ∧
      seq'.pendingPreemptionRecomputeTokens = seq.pendingPreemptionRecomputeTokens ∧
      seq'.kvRecomputedTokens = seq.kvRecomputedTokens := by
  rw [resume] at resumed
  rcases Py.exists_of_bind resumed with ⟨⟨bm₁, suffix⟩, planned, resumed⟩
  simp only at resumed
  rcases Py.exists_of_bind resumed with ⟨bm₂, acquired, resumed⟩
  rcases Py.exists_of_bind resumed with ⟨result, taken, resumed⟩
  cases resumed
  exact ⟨rfl, rfl, rfl, rfl, rfl⟩

namespace PrefillState

variable {st : PrefillState} {control : PrefillControl} {remaining : ℕ}

theorem schedulePrefill_regains (status : (st.scheduler.seqs i).status = .waiting)
    (numTokens remaining : ℕ) (now : ℚ) :
    Scheduler.Regains st.scheduler (st.schedulePrefill i numTokens remaining now).scheduler := by
  rw [schedulePrefill]
  simp only
  split
  · refine .of_update rfl ?_
    refine .of_attached (fun _ => status ▸ trivial) ?_ nofun rfl (Nat.le_refl _) ?_ rfl
    · rw [status]
      nofun
    · simp only [Sequence.markScheduled, Nat.sub_self, Nat.sub_zero]
  · exact .of_update rfl (.of_same rfl rfl rfl rfl rfl)

/-- A request whose pages have been attached regains them, and is scheduled or not. -/
theorem attached_regains {seq : Sequence} {bm : BlockManager} {numTokens : ℕ}
    (status : seq.status = .waiting)
    (regains : (st.scheduler.seqs i).Regains seq) :
    Scheduler.Regains st.scheduler (st.scheduler.put i bm seq) ∧
      Scheduler.Regains st.scheduler
        (({ st with scheduler := st.scheduler.put i bm seq } : PrefillState).schedulePrefill i
          numTokens remaining now).scheduler := by
  have first : Scheduler.Regains st.scheduler (st.scheduler.put i bm seq) :=
    .of_update rfl regains
  refine ⟨first, first.trans (@schedulePrefill_regains i
    { st with scheduler := st.scheduler.put i bm seq } ?_ numTokens remaining now)⟩
  simp only [Scheduler.put, Function.update_self]
  exact status

theorem admitFresh_regains (status : (st.scheduler.seqs i).status = .waiting)
    (uncached : (st.scheduler.seqs i).numCachedTokens = 0)
    (admitted : st.admitFresh cfg env i remaining now = .ok control) :
    Scheduler.Regains st.scheduler control.state.scheduler := by
  rw [admitFresh] at admitted
  cases looked : st.scheduler.blockManager.canAllocate cfg (st.scheduler.seqs i) with
  | mk bm cached =>
    rw [looked] at admitted
    cases cached with
    | none =>
      cases admitted
      rw [(allocationBlocked_state _).1]
      exact .of_seqs rfl
    | some n =>
      simp only at admitted
      rcases Py.exists_of_bind admitted with ⟨forbidden, forbids, admitted⟩
      cases forbidden with
      | true =>
        cases admitted
        rw [deferBudget_state]
        exact .of_seqs rfl
      | false =>
        simp only [Bool.false_eq_true, if_false] at admitted
        rcases Py.exists_of_bind admitted with ⟨⟨s₁, started⟩, restored, admitted⟩
        simp only at admitted
        rcases @startRemoteRestore_regains cfg env { st.scheduler with blockManager := bm } s₁ i
          now n started status uncached restored with ⟨regains, waits⟩
        have first : Scheduler.Regains st.scheduler s₁ := regains
        cases started with
        | true =>
          cases admitted
          exact first
        | false =>
          rcases waits rfl with ⟨status₁, uncached₁⟩
          simp only [Bool.false_eq_true, if_false] at admitted
          split at admitted
          · cases admitted
            exact first
          · rcases Py.exists_of_bind admitted with ⟨⟨bm', seq⟩, allocated, admitted⟩
            rcases allocate_fields allocated with
              ⟨status', tokenIds, cached, pending, recomputed, -⟩
            cases admitted
            have attached : (s₁.seqs i).Regains (seq.recordReusedTokens
                (seq.numCachedTokens - (s₁.seqs i).numCachedTokens)) := by
              refine recordReusedTokens_regains status' ?_ (congrArg List.length tokenIds)
                ?_ pending recomputed
              · rw [status₁]
                nofun
              · rw [uncached₁]
                exact Nat.zero_le _
            exact first.trans (@attached_regains i now { st with scheduler := s₁ } remaining
              (seq.recordReusedTokens (seq.numCachedTokens - (s₁.seqs i).numCachedTokens))
              bm' _ (status'.trans status₁) attached).2

theorem admitResident_regains (status : (st.scheduler.seqs i).status = .waiting)
    (admitted : st.admitResident cfg i remaining now = .ok control) :
    Scheduler.Regains st.scheduler control.state.scheduler := by
  rw [admitResident] at admitted
  rcases Py.exists_of_bind admitted with ⟨⟨bm, seq, reused⟩, resumed, admitted⟩
  rcases resume_fields resumed with ⟨status', tokenIds, cached, pending, recomputed⟩
  simp only at admitted
  have reattached : (st.scheduler.seqs i).Regains (seq.recordReusedTokens reused) := by
    have exactly : reused = seq.numCachedTokens - (st.scheduler.seqs i).numCachedTokens := by
      omega
    rw [exactly]
    refine recordReusedTokens_regains status' ?_ (congrArg List.length tokenIds) ?_ pending
      recomputed
    · rw [status]
      nofun
    · omega
  have attached := @attached_regains i now st remaining (seq.recordReusedTokens reused) bm
    ((seq.recordReusedTokens reused).numTokens - (seq.recordReusedTokens reused).numCachedTokens)
    (status'.trans status) reattached
  split at admitted
  · cases admitted
    exact attached.1
  · cases admitted
    simp only [Scheduler.put, Function.update_self]
    exact attached.2

end PrefillState

end Scheduler

end NanoVllm
