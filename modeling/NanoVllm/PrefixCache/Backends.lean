import NanoVllm.PrefixCache.Operations
import NanoVllm.Engine.Runs

/-!
# The two prefix backends

A lookup returns the longest published chain of a request's pages, whichever backend keeps the
index, as long as no cached page is reallocated. The backends keep different pages for a path
which is published twice, and a request only re-attaches pages behind its own. So a resumption
may re-use more on one backend than on the other, and the same calls then publish different
paths. Where resumptions re-use the same, the same calls publish the same on both.
-/

namespace NanoVllm

open BlockManager PathIndex

variable {cfg : Config} {ids : Finset SeqId} {seqs : SeqId → Sequence}
  {calls : List (SeqId × BlockOp)} {s s' : ManagedRequests} {bm bm' bm₁ bm₂ : BlockManager}
  {i : SeqId} {seq seq' : Sequence} {op : BlockOp}

/-! ## One backend -/

namespace ManagedRequests

theorem Valid.step (valid : s.Valid cfg ids) (known : i ∈ ids) (step : s.Step cfg i op s') :
    s'.Valid cfg ids := by
  rcases Py.exists_of_bind step.returned with ⟨⟨bm, seq⟩, performed, result⟩
  cases result
  refine valid.update known (.of_perform valid known step.called performed ?_)
  simpa using step.keepsCached

theorem Run.valid (run : Run cfg ids seqs calls s) : s.Valid cfg ids := by
  induction run with
  | start unserved => exact .start unserved
  | step run known step ih => exact ih.step known step

/-- A lookup returns the longest published chain of all pages but the last. -/
theorem Run.length_lookupCachedBlocks (run : Run cfg ids seqs calls s) (seq : Sequence) :
    (s.blockManager.lookupCachedBlocks cfg seq).2.length =
      chainLength s.published (seq.blockKeys cfg (seq.numBlocks cfg - 1)) := by
  have matches' := lookupCachedBlocks_matches run.valid.index seq
  exact IsLongestMatch.length_eq_chainLength matches' run.valid.indexed

end ManagedRequests

/-! ## The same calls on both backends -/

/-- A configuration with another prefix backend. -/
def Config.withBackend (cfg : Config) (backend : PrefixCacheBackend) : Config :=
  { cfg with prefixCacheBackend := backend }

/-- Two records of a request which differ at most in the pages it owns. -/
structure Sequence.SameShape (seq seq' : Sequence) : Prop where
  length : seq'.blockTable.length = seq.blockTable.length
  fields : seq' = { seq with blockTable := seq'.blockTable }

theorem Sequence.SameShape.refl (seq : Sequence) : seq.SameShape seq := ⟨rfl, rfl⟩

/--
The same calls on both backends, where a resumption re-uses the same number of tokens on both.
-/
inductive Lockstep (cfg : Config) (ids : Finset SeqId) (seqs : SeqId → Sequence) :
    List (SeqId × BlockOp) → ManagedRequests → ManagedRequests → Prop
  | start (unserved : ∀ i ∈ ids, (seqs i).Unserved) :
      Lockstep cfg ids seqs [] (.start (cfg.withBackend .hash) seqs)
        (.start (cfg.withBackend .radix) seqs)
  | step {calls : List (SeqId × BlockOp)} {s t s' t' : ManagedRequests} {i : SeqId} {op : BlockOp}
      (both : Lockstep cfg ids seqs calls s t) (known : i ∈ ids)
      (hash : s.Step (cfg.withBackend .hash) i op s')
      (radix : t.Step (cfg.withBackend .radix) i op t')
      (reused : op = .resume → (t'.seqs i).numCachedTokens = (s'.seqs i).numCachedTokens) :
      Lockstep cfg ids seqs (calls ++ [(i, op)]) s' t'

variable {t t' : ManagedRequests} {b b' : PrefixCacheBackend} {table : List BlockId}

theorem Lockstep.hash_run (both : Lockstep cfg ids seqs calls s t) :
    ManagedRequests.Run (cfg.withBackend .hash) ids seqs calls s := by
  induction both with
  | start unserved => exact .start unserved
  | step _ known hash _ _ ih => exact ih.step known hash

theorem Lockstep.radix_run (both : Lockstep cfg ids seqs calls s t) :
    ManagedRequests.Run (cfg.withBackend .radix) ids seqs calls t := by
  induction both with
  | start unserved => exact .start unserved
  | step _ known _ radix _ ih => exact ih.step known radix

theorem BlockManager.commitRestoredPrefix_returned {n : ℕ}
    (returned : bm.commitRestoredPrefix cfg seq n = .ok (bm', seq')) :
    seq' = seq.committed cfg n := by
  simp only [commitRestoredPrefix] at returned
  split at returned
  · cases returned
  · split at returned
    · cases returned
    · split at returned
      · rcases Py.exists_of_bind returned with ⟨_, -, returned⟩
        cases returned
        rfl
      · cases returned
        rfl

namespace Sequence.SameShape

/-- A request of the same shape is the request with other pages. -/
theorem exists_table (same : seq.SameShape seq') : ∃ table : List BlockId,
    table.length = seq.blockTable.length ∧ seq' = { seq with blockTable := table } :=
  ⟨_, same.length, same.fields⟩

theorem publishes (same : seq.SameShape seq') (op : BlockOp) :
    op.publishes (cfg.withBackend b') seq' = op.publishes (cfg.withBackend b) seq := by
  rcases same.exists_table with ⟨table, length, rfl⟩
  cases op with
  | hashBlocks n => rfl
  | commitRestoredPrefix n => rfl
  | _ => rfl

/-- Admitted requests with equally many pages. -/
theorem admitted {n : ℕ} {table table' : List BlockId} (same : seq.SameShape seq')
    (length : table'.length = table.length) :
    (seq.admitted (cfg.withBackend b) table n).SameShape
      (seq'.admitted (cfg.withBackend b') table' n) := by
  rcases same.exists_table with ⟨_, -, rfl⟩
  exact ⟨length, rfl⟩

theorem reclaimSuffix {keep freed freed' : ℕ} {a a' : Sequence} (same : seq.SameShape seq')
    (left : bm.reclaimSuffix (cfg.withBackend b) seq keep = .ok (bm₁, a, freed))
    (right : bm'.reclaimSuffix (cfg.withBackend b') seq' keep = .ok (bm₂, a', freed')) :
    a.SameShape a' := by
  rcases same.exists_table with ⟨table, length, rfl⟩
  simp only [BlockManager.reclaimSuffix] at left right
  split at left
  · cases left
  · split at left
    · cases left
    · split at right
      · cases right
      · split at right
        · cases right
        · rcases Py.exists_of_bind left with ⟨_, -, left⟩
          rcases Py.exists_of_bind right with ⟨_, -, right⟩
          cases left
          cases right
          refine ⟨?_, rfl⟩
          simp [length]

theorem mayAppend {a a' : Sequence} (same : seq.SameShape seq')
    (left : bm.mayAppend (cfg.withBackend b) seq = .ok (bm₁, a))
    (right : bm'.mayAppend (cfg.withBackend b') seq' = .ok (bm₂, a')) : a.SameShape a' := by
  rcases same.exists_table with ⟨table, length, rfl⟩
  simp only [BlockManager.mayAppend] at left right
  split at left
  · next starts =>
    rw [if_pos] at right
    · rcases Py.exists_of_bind left with ⟨_, -, left⟩
      rcases Py.exists_of_bind right with ⟨_, -, right⟩
      cases left
      cases right
      refine ⟨?_, rfl⟩
      simp [length]
    · exact starts
  · next inside =>
    rw [if_neg] at right
    · cases left
      cases right
      exact same
    · exact inside

theorem commitRestoredPrefix {n : ℕ} {a a' : Sequence} (same : seq.SameShape seq')
    (left : bm.commitRestoredPrefix (cfg.withBackend b) seq n = .ok (bm₁, a))
    (right : bm'.commitRestoredPrefix (cfg.withBackend b') seq' n = .ok (bm₂, a')) :
    a.SameShape a' := by
  rw [commitRestoredPrefix_returned left, commitRestoredPrefix_returned right]
  rcases same.exists_table with ⟨table, length, rfl⟩
  exact ⟨length, rfl⟩

theorem advanced (same : seq.SameShape seq') (n : ℕ) :
    (({ seq with numScheduledTokens := n } : Sequence).advanced false).SameShape
      (({ seq' with numScheduledTokens := n } : Sequence).advanced false) := by
  rcases same.exists_table with ⟨table, length, rfl⟩
  exact ⟨length, rfl⟩

theorem appendToken (same : seq.SameShape seq') (tokenId : Token) (now : ℚ) :
    (seq.appendToken tokenId now).SameShape (seq'.appendToken tokenId now) := by
  rcases same.exists_table with ⟨table, length, rfl⟩
  exact ⟨length, rfl⟩

theorem withoutPages (same : seq.SameShape seq') :
    seq.withoutPages.SameShape seq'.withoutPages := by
  rcases same.exists_table with ⟨table, length, rfl⟩
  exact ⟨rfl, rfl⟩

/-- Dropping the same positions keeps the shapes the same. -/
theorem compressKeepPositions {keep : ℕ → Bool} {counts counts' : ℕ × ℕ × ℕ} {a a' : Sequence}
    (same : seq.SameShape seq')
    (left : bm.compressKeepPositions (cfg.withBackend b) seq keep = .ok (bm₁, a, counts))
    (right : bm'.compressKeepPositions (cfg.withBackend b') seq' keep = .ok (bm₂, a', counts')) :
    a.SameShape a' := by
  rcases same.exists_table with ⟨table, length, rfl⟩
  have kept : (keepPositions keep table).length = (keepPositions keep seq.blockTable).length :=
    keepPositions_length length
  have dropped : (keepPositions (fun index => !keep index) table).length =
      (keepPositions (fun index => !keep index) seq.blockTable).length :=
    keepPositions_length length
  simp only [BlockManager.compressKeepPositions, ← List.length_eq_zero_iff, dropped] at left right
  split at left
  · next nothing =>
    rw [if_pos nothing] at right
    cases left
    cases right
    exact same
  · next something =>
    rw [if_neg something] at right
    rcases Py.exists_of_bind left with ⟨bm₃, -, left⟩
    rcases Py.exists_of_bind right with ⟨bm₄, -, right⟩
    cases left
    cases right
    exact ⟨kept, rfl⟩

theorem compressSinkRecent {counts counts' : ℕ × ℕ × ℕ} {a a' : Sequence}
    (same : seq.SameShape seq')
    (left : bm.compressSinkRecent (cfg.withBackend b) seq = .ok (bm₁, a, counts))
    (right : bm'.compressSinkRecent (cfg.withBackend b') seq' = .ok (bm₂, a', counts')) :
    a.SameShape a' := by
  simp only [BlockManager.compressSinkRecent, same.length] at left right
  split at left
  · cases left
  · next windows =>
    rw [if_neg] at right
    · split at left
      · next short =>
        rw [if_pos] at right
        · cases left
          cases right
          exact same
        · exact short
      · next long =>
        rw [if_neg] at right
        · exact same.compressKeepPositions left right
        · exact long
    · exact windows

theorem importantPositions (same : seq.SameShape seq') :
    BlockManager.importantPositions (cfg.withBackend b') seq' =
      BlockManager.importantPositions (cfg.withBackend b) seq := by
  rcases same.exists_table with ⟨table, length, rfl⟩
  have candidates : candidatePositions (cfg.withBackend b') { seq with blockTable := table } =
      candidatePositions (cfg.withBackend b) seq := by
    simp [candidatePositions, Config.withBackend, length]
  have frequency : documentFrequency (cfg.withBackend b') { seq with blockTable := table } =
      documentFrequency (cfg.withBackend b) seq := by
    funext tokenId
    simp only [documentFrequency, candidates]
    rfl
  simp only [BlockManager.importantPositions, positionScore, candidates, frequency]
  rfl

theorem compressQueryAware {counts counts' : ℕ × ℕ × ℕ} {a a' : Sequence}
    (same : seq.SameShape seq')
    (left : bm.compressQueryAware (cfg.withBackend b) seq = .ok (bm₁, a, counts))
    (right : bm'.compressQueryAware (cfg.withBackend b') seq' = .ok (bm₂, a', counts')) :
    a.SameShape a' := by
  have important := @importantPositions cfg _ _ b b' same
  simp only [BlockManager.compressQueryAware, important, same.length] at left right
  split at left
  · cases left
  · next windows =>
    rw [if_neg] at right
    · split at left
      · next short =>
        rw [if_pos] at right
        · cases left
          cases right
          exact same
        · exact short
      · next long =>
        rw [if_neg] at right
        · exact same.compressKeepPositions left right
        · exact long
    · exact windows

/-- Resumptions which re-use equally many tokens leave requests of the same shape. -/
theorem resume {reused reused' : ℕ} {a a' : Sequence} (same : seq.SameShape seq')
    (index : bm.IndexValid (cfg.withBackend b)) (index' : bm'.IndexValid (cfg.withBackend b'))
    (owned : seq.blockTable.length ≤ seq.numBlocks cfg)
    (current : ResumePlanCurrent (cfg.withBackend b) bm seq)
    (current' : ResumePlanCurrent (cfg.withBackend b') bm' seq')
    (left : bm.resume (cfg.withBackend b) seq = .ok (bm₁, a, reused))
    (right : bm'.resume (cfg.withBackend b') seq' = .ok (bm₂, a', reused'))
    (cached : a'.numCachedTokens = a.numCachedTokens) : a.SameShape a' := by
  rcases same.exists_table with ⟨table, length, rfl⟩
  rcases resume_returned index owned current left with
    ⟨_, _, matched, blockTable, -, -, -, allocated, rfl⟩
  rcases resume_returned index' (length.trans_le owned) current' right with
    ⟨_, _, matched', blockTable', -, -, -, allocated', rfl⟩
  have grown := allocateBlocks_length allocated
  have grown' := allocateBlocks_length allocated'
  have sameSuffix : (resumeSuffix (cfg.withBackend b') { seq with blockTable := table }
      matched').length = (resumeSuffix (cfg.withBackend b) seq matched).length :=
    Nat.eq_of_mul_eq_mul_right cfg.blockSize_pos (Nat.add_left_cancel cached)
  have sameLength : blockTable'.length = blockTable.length := by
    rw [grown, grown', List.length_append, List.length_append, length, sameSuffix]
    rfl
  refine ⟨sameLength, ?_⟩
  simp only [sameLength, sameSuffix, length]
  rfl

/-- The same call on requests of the same shape leaves requests of the same shape. -/
theorem of_perform {t : ManagedRequests} {a a' : Sequence}
    (valid : s.Valid (cfg.withBackend b) ids) (valid' : t.Valid (cfg.withBackend b') ids)
    (known : i ∈ ids) (same : (s.seqs i).SameShape (t.seqs i))
    (called : op.Called (cfg.withBackend b) s.blockManager (s.seqs i))
    (called' : op.Called (cfg.withBackend b') t.blockManager (t.seqs i))
    (left : op.perform (cfg.withBackend b) s.blockManager (s.seqs i) = .ok (bm₁, a))
    (right : op.perform (cfg.withBackend b') t.blockManager (t.seqs i) = .ok (bm₂, a'))
    (reused : op = .resume → a'.numCachedTokens = a.numCachedTokens) : a.SameShape a' := by
  cases op with
  | canAllocate =>
    cases left
    cases right
    exact same
  | allocate numCachedBlocks =>
    rcases allocate_returned valid.index called left with
      ⟨_, _, matched, blockTable, -, length, -, -, -, allocated, rfl⟩
    rcases allocate_returned valid'.index called' right with
      ⟨_, _, matched', blockTable', -, length', -, -, -, allocated', rfl⟩
    apply same.admitted
    rw [allocateBlocks_length allocated, allocateBlocks_length allocated', length, length']
    rcases same.exists_table with ⟨table, -, fields⟩
    rw [fields]
    rfl
  | hashBlocks n =>
    rcases Py.exists_of_bind left with ⟨_, -, left⟩
    rcases Py.exists_of_bind right with ⟨_, -, right⟩
    cases left
    cases right
    exact same.advanced n
  | deallocate =>
    rcases Py.exists_of_bind left with ⟨_, -, left⟩
    rcases Py.exists_of_bind right with ⟨_, -, right⟩
    cases left
    cases right
    exact same.withoutPages
  | reclaimSuffix keep =>
    rcases Py.exists_of_bind left with ⟨⟨bm₃, c, freed⟩, reclaimed, left⟩
    rcases Py.exists_of_bind right with ⟨⟨bm₄, c', freed'⟩, reclaimed', right⟩
    cases left
    cases right
    exact same.reclaimSuffix reclaimed reclaimed'
  | canResume =>
    rcases Py.exists_of_bind left with ⟨_, -, left⟩
    rcases Py.exists_of_bind right with ⟨_, -, right⟩
    cases left
    cases right
    exact same
  | resume =>
    rcases Py.exists_of_bind left with ⟨⟨bm₃, c, n⟩, resumed, left⟩
    rcases Py.exists_of_bind right with ⟨⟨bm₄, c', n'⟩, resumed', right⟩
    cases left
    cases right
    exact same.resume valid.index valid'.index ((valid.ready i known).owned called.1) called.2
      called'.2 resumed resumed' (reused rfl)
  | commitRestoredPrefix numCached =>
    exact same.commitRestoredPrefix left right
  | compressSinkRecent =>
    rcases Py.exists_of_bind left with ⟨⟨bm₃, c, counts⟩, compressed, left⟩
    rcases Py.exists_of_bind right with ⟨⟨bm₄, c', counts'⟩, compressed', right⟩
    cases left
    cases right
    exact same.compressSinkRecent compressed compressed'
  | compressQueryAware =>
    rcases Py.exists_of_bind left with ⟨⟨bm₃, c, counts⟩, compressed, left⟩
    rcases Py.exists_of_bind right with ⟨⟨bm₄, c', counts'⟩, compressed', right⟩
    cases left
    cases right
    exact same.compressQueryAware compressed compressed'
  | appendToken tokenId now =>
    cases left
    cases right
    exact same.appendToken tokenId now
  | mayAppend => exact same.mayAppend left right

end Sequence.SameShape

namespace Lockstep

/-- Both backends serve requests of the same shape and have published the same paths. -/
theorem sameShape (both : Lockstep cfg ids seqs calls s t) :
    (∀ i, (s.seqs i).SameShape (t.seqs i)) ∧ t.published = s.published := by
  induction both with
  | start unserved => exact ⟨fun i => .refl (seqs i), rfl⟩
  | @step calls s t s' t' i op both known hash radix reused ih =>
    rcases ih with ⟨same, published⟩
    have valid := both.hash_run.valid
    have valid' := both.radix_run.valid
    rcases Py.exists_of_bind hash.returned with ⟨⟨bm, a⟩, performed, result⟩
    rcases Py.exists_of_bind radix.returned with ⟨⟨bm', a'⟩, performed', result'⟩
    cases result
    cases result'
    simp only [Function.update_self] at reused
    refine ⟨fun j => ?_, ?_⟩
    · by_cases self : j = i
      · subst self
        simp only [Function.update_self]
        exact .of_perform valid valid' known (same j) hash.called radix.called performed performed'
          reused
      · simp only [Function.update_of_ne self]
        exact same j
    · simp only [published]
      rw [(same i).publishes op]

/-- Lookups for a request match equally many pages on both backends. -/
theorem length_lookupCachedBlocks (both : Lockstep cfg ids seqs calls s t) (i : SeqId) :
    (t.blockManager.lookupCachedBlocks (cfg.withBackend .radix) (t.seqs i)).2.length =
      (s.blockManager.lookupCachedBlocks (cfg.withBackend .hash) (s.seqs i)).2.length := by
  rcases both.sameShape with ⟨same, published⟩
  rw [both.hash_run.length_lookupCachedBlocks, both.radix_run.length_lookupCachedBlocks,
    published, (same i).fields]
  rfl

end Lockstep

/--
On each backend a lookup matches the longest published chain of a request's pages without the
last. On both backends it matches equally many pages, if resumptions re-used equally many.
-/
theorem lookupCachedBlocks_published (cfg : Config) (ids : Finset SeqId)
    (seqs : SeqId → Sequence) (calls : List (SeqId × BlockOp)) :
    (∀ s, ManagedRequests.Run cfg ids seqs calls s → ∀ seq : Sequence,
      (s.blockManager.lookupCachedBlocks cfg seq).2.length =
        chainLength s.published (seq.blockKeys cfg (seq.numBlocks cfg - 1))) ∧
    ∀ s t, Lockstep cfg ids seqs calls s t → ∀ i,
      (s.blockManager.lookupCachedBlocks (cfg.withBackend .hash) (s.seqs i)).2.length =
        (t.blockManager.lookupCachedBlocks (cfg.withBackend .radix) (t.seqs i)).2.length := by
  constructor
  · intro s run seq
    exact run.length_lookupCachedBlocks seq
  · intro s t both i
    exact (both.length_lookupCachedBlocks i).symm

/-! ## Computed runs -/

namespace BlockManager

/-- Whether a page is certainly outside the prefix index. -/
def isClean (cfg : Config) (bm : BlockManager) (blockId : BlockId) : Bool :=
  match cfg.prefixCacheBackend with
  | .hash => (bm.blocks blockId).hash.isNone
  | .radix => !bm.radixCache.isIndexed blockId

theorem unindexed_of_isClean {blockId : BlockId} (index : bm.IndexValid cfg)
    (clean : bm.isClean cfg blockId = true) : bm.Unindexed cfg blockId := by
  intro path found
  cases backend : cfg.prefixCacheBackend with
  | hash =>
    simp only [isClean, backend] at clean
    rw [entry_hash backend, Option.bind_eq_some_iff] at found
    rcases found with ⟨h, -, stored⟩
    rw [index.hash_eq backend stored] at clean
    cases clean
  | radix =>
    simp only [isClean, backend] at clean
    rw [entry_radix backend] at found
    have indexed := (index.radix backend).isIndexed_iff.mpr ⟨path, found⟩
    rw [indexed] at clean
    cases clean

end BlockManager

/-- A check of some calls which implies what their callers have to make sure of. -/
def BlockOp.isCalled (cfg : Config) (bm : BlockManager) (seq : Sequence) : BlockOp → Bool
  | .allocate _ => bm.pendingMatches seq.seqId = none
  | .hashBlocks n => seq.numCachedTokens + n ≤ seq.numTokens ∧
      seq.numCachedTokens + n ≤ seq.blockTable.length * cfg.blockSize
  | .reclaimSuffix _ => seq.kvCompressed = false
  | .resume => seq.kvCompressed = false ∧ bm.pendingResumeMatches seq.seqId = none
  | _ => false

theorem BlockOp.called_of_isCalled (checked : op.isCalled cfg bm seq = true) :
    op.Called cfg bm seq := by
  cases op with
  | allocate n =>
    intro plan pending
    simp only [isCalled, decide_eq_true_eq] at checked
    rw [checked] at pending
    cases pending
  | hashBlocks n =>
    simp only [isCalled, decide_eq_true_eq] at checked
    exact ⟨checked.1, fun _ => checked.2⟩
  | reclaimSuffix keep => exact of_decide_eq_true (p := seq.kvCompressed = false) checked
  | resume =>
    simp only [isCalled, decide_eq_true_eq] at checked
    refine ⟨checked.1, fun plan pending => ?_⟩
    rw [checked.2] at pending
    cases pending
  | _ => cases checked

namespace ManagedRequests

/-- The state after a call, if the call passes the checks. -/
def checked (cfg : Config) (s : ManagedRequests) (i : SeqId) (op : BlockOp) :
    Option ManagedRequests :=
  match s.call cfg i op with
  | .error _ => none
  | .ok s' =>
      if op.isCalled cfg s.blockManager (s.seqs i) ∧
          (op.freshPages cfg (s.seqs i) (s'.seqs i)).all (s.blockManager.isClean cfg) then
        some s'
      else none

theorem Step.of_checked (valid : s.Valid cfg ids) (passed : s.checked cfg i op = some s') :
    s.Step cfg i op s' := by
  simp only [checked] at passed
  split at passed
  · cases passed
  · next s₁ returned =>
    split at passed
    · next tests =>
      cases passed
      rw [List.all_eq_true] at tests
      exact ⟨BlockOp.called_of_isCalled tests.1, returned,
        fun blockId mem => unindexed_of_isClean valid.index (tests.2 blockId mem)⟩
    · cases passed

/-- The state after several calls which pass the checks. -/
def checkedAll (cfg : Config) : ManagedRequests → List (SeqId × BlockOp) → Option ManagedRequests
  | s, [] => some s
  | s, (i, op) :: calls => (s.checked cfg i op).bind fun s' => checkedAll cfg s' calls

theorem Run.of_checkedAll {more : List (SeqId × BlockOp)} (run : Run cfg ids seqs calls s)
    (known : ∀ call ∈ more, call.1 ∈ ids) (passed : s.checkedAll cfg more = some s') :
    Run cfg ids seqs (calls ++ more) s' := by
  induction more generalizing calls s with
  | nil =>
    cases passed
    rwa [List.append_nil]
  | cons call more ih =>
    rcases call with ⟨i, op⟩
    rcases Option.bind_eq_some_iff.mp passed with ⟨s₁, first, rest⟩
    have step := run.step (known _ List.mem_cons_self) (.of_checked run.valid first)
    have longer := ih step (fun call mem => known call (List.mem_cons_of_mem _ mem)) rest
    rwa [List.append_assoc] at longer

end ManagedRequests

theorem Lockstep.of_checkedAll {more : List (SeqId × BlockOp)}
    (both : Lockstep cfg ids seqs calls s t) (known : ∀ call ∈ more, call.1 ∈ ids)
    (others : ∀ call ∈ more, call.2 ≠ .resume)
    (hash : s.checkedAll (cfg.withBackend .hash) more = some s')
    (radix : t.checkedAll (cfg.withBackend .radix) more = some t') :
    Lockstep cfg ids seqs (calls ++ more) s' t' := by
  induction more generalizing calls s t with
  | nil =>
    cases hash
    cases radix
    rwa [List.append_nil]
  | cons call more ih =>
    rcases call with ⟨i, op⟩
    rcases Option.bind_eq_some_iff.mp hash with ⟨s₁, first, rest⟩
    rcases Option.bind_eq_some_iff.mp radix with ⟨t₁, first', rest'⟩
    have step := both.step (known _ List.mem_cons_self) (.of_checked both.hash_run.valid first)
      (.of_checked both.radix_run.valid first')
      fun resumed => absurd resumed (others _ List.mem_cons_self)
    have longer := ih step (fun call mem => known call (List.mem_cons_of_mem _ mem))
      (fun call mem => others call (List.mem_cons_of_mem _ mem)) rest rest'
    rwa [List.append_assoc] at longer

/-- Two requests with the same prompt of seven tokens. -/
def samePrompt (i : SeqId) : Sequence :=
  .new i (List.replicate 7 1) 3 false
    { priority := 0, ttftSloMs := none, tpotSloMs := none, e2eSloMs := none } none

theorem samePrompt_unserved (i : SeqId) : (samePrompt i).Unserved := ⟨rfl, rfl, rfl, rfl⟩

/-- Sixteen pages of two tokens. -/
def sixteenPages : Config := System.defaultConfig 2 16 2 System.two_le_two

/-- One request publishes all its complete pages. -/
def publishedCalls : List (SeqId × BlockOp) := [(0, .allocate 0), (0, .hashBlocks 7)]

theorem lookupCachedBlocks_published_publishedCalls :
    ∃ s t, Lockstep sixteenPages {0, 1} samePrompt publishedCalls s t ∧
      chainLength s.published ((s.seqs 1).blockKeys (sixteenPages.withBackend .hash)
        ((s.seqs 1).numBlocks (sixteenPages.withBackend .hash) - 1)) = 3 ∧
      (t.blockManager.lookupCachedBlocks (sixteenPages.withBackend .radix)
        (t.seqs 1)).2.length = 3 := by
  have computed : ((ManagedRequests.start (sixteenPages.withBackend .hash) samePrompt).checkedAll
      (sixteenPages.withBackend .hash) publishedCalls).map (fun s =>
        (s.blockManager.lookupCachedBlocks (sixteenPages.withBackend .hash)
          (s.seqs 1)).2.length) = some 3 := by
    decide +kernel
  have computed' : ((ManagedRequests.start (sixteenPages.withBackend .radix) samePrompt).checkedAll
      (sixteenPages.withBackend .radix) publishedCalls).isSome = true := by
    decide +kernel
  rcases Option.map_eq_some_iff.mp computed with ⟨s, passed, length⟩
  rcases Option.isSome_iff_exists.mp computed' with ⟨t, passed'⟩
  have both : Lockstep sixteenPages {0, 1} samePrompt publishedCalls s t :=
    (Lockstep.start fun i _ => samePrompt_unserved i).of_checkedAll (by decide) (by decide)
      passed passed'
  have equal := (lookupCachedBlocks_published sixteenPages _ _ _).2 s t both 1
  have exact := (lookupCachedBlocks_published (sixteenPages.withBackend .hash) _ _ _).1 s
    both.hash_run (s.seqs 1)
  exact ⟨s, t, both, exact.symm.trans length, equal.symm.trans length⟩

/--
Both requests publish the same two pages, the first one loses all but its first page, resumes
and runs two more tokens.
-/
def resumedCalls : List (SeqId × BlockOp) :=
  [(0, .allocate 0), (1, .allocate 0), (0, .hashBlocks 4), (1, .hashBlocks 4),
    (0, .reclaimSuffix 1), (0, .resume), (0, .hashBlocks 2)]

theorem resumedCalls_run (backend : PrefixCacheBackend) (n : ℕ)
    (computed : ((ManagedRequests.start (sixteenPages.withBackend backend) samePrompt).checkedAll
      (sixteenPages.withBackend backend) resumedCalls).map (fun s =>
        (s.blockManager.lookupCachedBlocks (sixteenPages.withBackend backend)
          (s.seqs 1)).2.length) = some n) :
    ∃ s, ManagedRequests.Run (sixteenPages.withBackend backend) {0, 1} samePrompt resumedCalls s ∧
      (s.blockManager.lookupCachedBlocks (sixteenPages.withBackend backend)
        (s.seqs 1)).2.length = n := by
  rcases Option.map_eq_some_iff.mp computed with ⟨s, passed, length⟩
  refine ⟨s, ?_, length⟩
  exact (ManagedRequests.Run.start fun i _ => samePrompt_unserved i).of_checkedAll
    (by decide) passed

/--
The radix cache keeps the pages of the first request, which re-attaches its second page and
publishes a third one. The hash index has the second request's pages, so the first one computes
its second page again.
-/
theorem resumedCalls_diverge :
    ∃ s t, ManagedRequests.Run (sixteenPages.withBackend .hash) {0, 1} samePrompt resumedCalls s ∧
      ManagedRequests.Run (sixteenPages.withBackend .radix) {0, 1} samePrompt resumedCalls t ∧
      (s.blockManager.lookupCachedBlocks (sixteenPages.withBackend .hash)
        (s.seqs 1)).2.length = 2 ∧
      (t.blockManager.lookupCachedBlocks (sixteenPages.withBackend .radix)
        (t.seqs 1)).2.length = 3 := by
  rcases resumedCalls_run .hash 2 (by decide +kernel) with ⟨s, run, length⟩
  rcases resumedCalls_run .radix 3 (by decide +kernel) with ⟨t, run', length'⟩
  exact ⟨s, t, run, run', length, length'⟩

end NanoVllm
