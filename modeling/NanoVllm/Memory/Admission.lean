import NanoVllm.Memory.Growth

/-!
# Admission and resumption

The capacity checks and the operations they guard. A check leaves the memory alone and records
a plan; under the recorded plan the guarded operation raises nothing and attaches the longest
match of the request's pages.
-/

namespace NanoVllm

open PathIndex BlockManager

variable {cfg : Config} {ids : Finset SeqId} {seqs : SeqId → Sequence} {bm bm' : BlockManager}
  {kv : KvStore} {i : SeqId} {seq : Sequence} {matched : List BlockId}

/-- The longest match a lookup for a request returns. -/
def Matches (cfg : Config) (bm : BlockManager) (seq : Sequence) (matched : List BlockId) : Prop :=
  IsLongestMatch (bm.entry cfg) (seq.blockKeys cfg (seq.numBlocks cfg - 1)) matched

/-- Enough free pages for everything but the matched pages in use. -/
def Fits (cfg : Config) (bm : BlockManager) (seq : Sequence) (matched : List BlockId) : Prop :=
  seq.numBlocks cfg ≤ bm.freeBlockIds.length + bm.countUsed matched

namespace Matches

theorem entry (matches' : Matches cfg bm seq matched) {k : ℕ} {blockId : BlockId}
    (get : matched[k]? = some blockId) :
    bm.entry cfg (seq.blockKeys cfg (k + 1)) = some blockId := by
  have bound := matches'.length_le
  have short := (List.getElem?_eq_some_iff.mp get).1
  rw [Sequence.blockKeys_eq, Paging.length_pages] at bound
  have found := matches'.get k blockId get
  rwa [Sequence.blockKeys_eq, Paging.take_pages (by omega)] at found

theorem length_le (matches' : Matches cfg bm seq matched) :
    matched.length ≤ seq.numBlocks cfg - 1 := by
  have bound := IsLongestMatch.length_le matches'
  rwa [Sequence.blockKeys_eq, Paging.length_pages] at bound

theorem of_sameMemory (matches' : Matches cfg bm seq matched) (same : SameMemory cfg bm bm') :
    Matches cfg bm' seq matched :=
  matches'.agree fun _ _ => same.entry _

theorem unique {matched' : List BlockId} (matches' : Matches cfg bm seq matched)
    (matches'' : Matches cfg bm seq matched') : matched = matched' :=
  IsLongestMatch.unique matches' matches''

theorem distinct (matches' : Matches cfg bm seq matched) (index : bm.IndexValid cfg) :
    matched.Nodup := IsLongestMatch.nodup matches' index.entry_injective

end Matches

namespace BlockManager

theorem lookupCachedBlocks_matches (index : bm.IndexValid cfg) (seq : Sequence) :
    Matches cfg bm seq (bm.lookupCachedBlocks cfg seq).2 :=
  index.matchKeys_isLongestMatch _

theorem lookupCachedBlocks_sameMemory (cfg : Config) (bm : BlockManager) (seq : Sequence) :
    SameMemory cfg bm (bm.lookupCachedBlocks cfg seq).1 := matchKeys_sameMemory _

@[simp] theorem lookupCachedBlocks_pendingMatches (bm : BlockManager) (seq : Sequence) :
    (bm.lookupCachedBlocks cfg seq).1.pendingMatches = bm.pendingMatches :=
  matchKeys_pendingMatches _

@[simp] theorem lookupCachedBlocks_pendingResumeMatches (bm : BlockManager) (seq : Sequence) :
    (bm.lookupCachedBlocks cfg seq).1.pendingResumeMatches = bm.pendingResumeMatches :=
  matchKeys_pendingResumeMatches _

/-- The capacity check of an admission records the longest match if it fits. -/
theorem canAllocate_spec (index : bm.IndexValid cfg) (seq : Sequence) :
    ∃ bm' matched, Matches cfg bm seq matched ∧ SameMemory cfg bm bm' ∧
      bm'.pendingResumeMatches = bm.pendingResumeMatches ∧
      ((Fits cfg bm seq matched ∧ bm.canAllocate cfg seq = (bm', some matched.length) ∧
          bm'.pendingMatches = Function.update bm.pendingMatches seq.seqId (some matched)) ∨
        (¬Fits cfg bm seq matched ∧ bm.canAllocate cfg seq = (bm', none) ∧
          bm'.pendingMatches = Function.update bm.pendingMatches seq.seqId none)) := by
  have same := lookupCachedBlocks_sameMemory cfg bm seq
  have free := same.freeBlockIds
  have used : (bm.lookupCachedBlocks cfg seq).1.countUsed (bm.lookupCachedBlocks cfg seq).2 =
      bm.countUsed (bm.lookupCachedBlocks cfg seq).2 := by
    simp only [countUsed, same.usedBlockIds]
  let looked := bm.lookupCachedBlocks cfg seq
  by_cases fits : Fits cfg bm seq (bm.lookupCachedBlocks cfg seq).2
  · let planned := Function.update looked.1.pendingMatches seq.seqId (some looked.2)
    refine ⟨{ looked.1 with pendingMatches := planned }, looked.2,
      lookupCachedBlocks_matches index seq, same.trans (.of_plans _ _),
      matchKeys_pendingResumeMatches _, .inl ⟨fits, ?_, by simp [looked, planned]⟩⟩
    simp only [canAllocate]
    rw [if_neg]
    rw [free, used]
    unfold Fits at fits
    omega
  · refine ⟨looked.1.popPendingMatch seq.seqId, looked.2,
      lookupCachedBlocks_matches index seq, same.trans (.of_plans _ _),
      matchKeys_pendingResumeMatches _, .inr ⟨fits, ?_, by simp [looked, popPendingMatch]⟩⟩
    simp only [canAllocate]
    rw [if_pos]
    rw [free, used]
    unfold Fits at fits
    omega

/-- A usable plan for a request: none, or the longest match of its pages. -/
def PlanCurrent (cfg : Config) (bm : BlockManager) (seq : Sequence) : Prop :=
  ∀ plan, bm.pendingMatches seq.seqId = some plan → Matches cfg bm seq plan

/-- `allocate` uses the longest match, whether it was planned or not. -/
theorem plannedMatch_spec (index : bm.IndexValid cfg)
    (matches' : Matches cfg bm seq matched) (current : PlanCurrent cfg bm seq) :
    ∃ bm', bm.plannedMatch cfg seq matched.length = (bm', matched) ∧ SameMemory cfg bm bm' ∧
      bm'.pendingMatches = Function.update bm.pendingMatches seq.seqId none ∧
      bm'.pendingResumeMatches = bm.pendingResumeMatches := by
  have popped : SameMemory cfg bm (bm.popPendingMatch seq.seqId) := .of_plans _ _
  unfold plannedMatch
  split
  · next plan pending =>
    have same := (current plan pending).unique matches'
    rw [if_pos (congrArg List.length same), same]
    exact ⟨_, rfl, popped, rfl, rfl⟩
  · have looked := lookupCachedBlocks_matches (popped.index index) seq
    have same := looked.unique (matches'.of_sameMemory popped)
    exact ⟨_, Prod.ext rfl same, popped.trans (lookupCachedBlocks_sameMemory cfg _ seq),
      lookupCachedBlocks_pendingMatches _ seq, lookupCachedBlocks_pendingResumeMatches _ seq⟩

end BlockManager

/-- A request admitted with the given pages, of which the first `cachedBlocks` are cached. -/
def Sequence.admitted (cfg : Config) (seq : Sequence) (blockTable : List BlockId)
    (cachedBlocks : ℕ) : Sequence :=
  { seq with
    blockTable := blockTable
    kvBlockLogicalIndices := List.range (seq.numBlocks cfg)
    numCachedTokens := cachedBlocks * cfg.blockSize
    numPhysicalCachedTokens := cachedBlocks * cfg.blockSize }

/-- Pages in range are in use exactly when they are referenced. -/
theorem MemoryValid.countUsed_eq {computed : Sequence → ℕ}
    (valid : MemoryValid cfg ids seqs bm kv computed) (blockIds : List BlockId) :
    bm.countUsed blockIds = blockIds.countP (0 < tableRefs ids seqs ·) :=
  valid.pool.countUsed blockIds

theorem mem_range_zip {blockIds : List BlockId} {start logical : ℕ} {blockId : BlockId}
    (mem : (logical, blockId) ∈ (List.range' start blockIds.length).zip blockIds) :
    ∃ k, logical = start + k ∧ blockIds[k]? = some blockId := by
  obtain ⟨k, get⟩ := List.mem_iff_getElem?.mp mem
  rw [List.getElem?_zip_eq_some] at get
  obtain ⟨getLogical, getBlock⟩ := get
  have short := (List.getElem?_eq_some_iff.mp getBlock).1
  rw [List.getElem?_range' short, Option.some.injEq] at getLogical
  exact ⟨k, by omega, getBlock⟩

/-- An admitted request attaches its longest match and fresh pages. -/
theorem admitted_attaches {fresh : List BlockId} (table : seq.blockTable = [])
    (logical : seq.kvBlockLogicalIndices = []) (uncached : seq.numCachedTokens = 0)
    (matches' : Matches cfg bm seq matched) (distinct : matched.Nodup)
    (length : matched.length + fresh.length = seq.numBlocks cfg) :
    Attaches cfg bm seq (seq.admitted cfg (matched ++ fresh) matched.length) matched fresh
      (List.range' 0 matched.length) (List.range' matched.length fresh.length) where
  table := by rw [table]; rfl
  logical := by
    have split := List.range'_append_1 (s := 0) (m := matched.length) (n := fresh.length)
    rw [Nat.zero_add, length] at split
    rw [logical, List.nil_append, split, ← List.range_eq_range']
    rfl
  attachedLength := List.length_range'
  freshLength := List.length_range'
  increasing := List.pairwise_lt_range
  exact _ := by simp [Sequence.admitted, length]
  tokenIds := rfl
  seqId := rfl
  compressed := rfl
  cached_le := by rw [uncached]; exact Nat.zero_le _
  old _ _ _ mem := by simp [Sequence.pages, table] at mem
  distinct := by rw [table]; exact distinct
  matched logical' blockId mem := by
    obtain ⟨k, rfl, get⟩ := mem_range_zip mem
    rw [Nat.zero_add]
    exact ⟨matches'.entry get,
      Nat.mul_le_mul_right _ (List.getElem?_eq_some_iff.mp get).1⟩
  uncomputed logical' mem :=
    Nat.mul_le_mul_right _ (List.mem_range'_1.mp mem).1

/-- `allocate` within capacity raises nothing. -/
theorem MemoryValid.allocate
    (valid : MemoryValid cfg ids seqs bm kv Sequence.numCachedTokens) (known : i ∈ ids)
    (table : (seqs i).blockTable = []) (uncached : (seqs i).numCachedTokens = 0)
    (matches' : Matches cfg bm (seqs i) matched) (current : PlanCurrent cfg bm (seqs i))
    (fits : Fits cfg bm (seqs i) matched) :
    ∃ bm₀ bm' fresh, bm.allocate cfg (seqs i) matched.length =
        .ok (bm', (seqs i).admitted cfg (matched ++ fresh) matched.length) ∧
      fresh.length = (seqs i).numBlocks cfg - matched.length ∧
      MemoryValid cfg ids
        (Function.update seqs i ((seqs i).admitted cfg (matched ++ fresh) matched.length)) bm' kv
        Sequence.numCachedTokens ∧
      SameMemory cfg bm bm₀ ∧
      bm₀.pendingMatches = Function.update bm.pendingMatches (seqs i).seqId none ∧
      bm₀.pendingResumeMatches = bm.pendingResumeMatches ∧
      Allocates cfg bm₀ (addRefs (tableRefs ids seqs) matched) bm' fresh := by
  have memory := valid.request i known
  have logical : (seqs i).kvBlockLogicalIndices = [] :=
    List.eq_nil_of_length_eq_zero (by rw [memory.sameLength, table, List.length_nil])
  obtain ⟨bm₀, planned, same, popped, kept⟩ :=
    plannedMatch_spec valid.index matches' current
  have valid₀ := valid.sameMemory same
  have matches₀ := matches'.of_sameMemory same
  have distinct := matches₀.distinct valid₀.index
  have bound := matches₀.length_le
  have inRange : ∀ blockId ∈ matched, blockId < cfg.numBlocks := fun blockId mem => by
    obtain ⟨k, get⟩ := List.mem_iff_getElem?.mp mem
    exact (valid₀.cached _ _ (matches₀.entry get)).1
  have enough : (seqs i).numBlocks cfg - matched.length + matched.length ≤
      bm₀.freeBlockIds.length + matched.countP (0 < tableRefs ids seqs ·) := by
    rw [Fits, valid.countUsed_eq] at fits
    rw [same.freeBlockIds]
    omega
  obtain ⟨bm₁, bm', fresh, acquired, allocated, length, allocates⟩ :=
    valid₀.pool.grow valid₀.index matched _ inRange distinct enough matched
  refine ⟨bm₀, bm', fresh, ?_, length, ?_, same, popped, kept, allocates⟩
  · rw [BlockManager.allocate, if_neg (not_not.mpr table), planned]
    simp only [ne_eq, not_true_eq_false, if_false, acquired, Py.ok_bind, allocated]
    rfl
  · exact valid₀.grow known
      (admitted_attaches table logical uncached matches₀ distinct (by omega)) allocates

/-! ## Resumption -/

/-- The suffix a resumption re-attaches when a lookup returns a given match. -/
def resumeSuffix (cfg : Config) (seq : Sequence) (matched : List BlockId) : List BlockId :=
  resumableSuffix seq (seq.numBlocks cfg - seq.blockTable.length) matched

/-- Enough free pages for the missing pages of a request outside the re-attached ones in use. -/
def ResumeFits (cfg : Config) (bm : BlockManager) (seq : Sequence) (matched : List BlockId) :
    Prop :=
  seq.numBlocks cfg - seq.blockTable.length ≤
    bm.freeBlockIds.length + bm.countUsed (resumeSuffix cfg seq matched)

theorem resumeSuffix_cases (cfg : Config) (seq : Sequence) (matched : List BlockId) :
    resumeSuffix cfg seq matched = [] ∨
      matched.take (seq.blockTable.length + (seq.numBlocks cfg - seq.blockTable.length)) =
        seq.blockTable ++ resumeSuffix cfg seq matched := by
  simp only [resumeSuffix, resumableSuffix]
  split
  · exact .inl rfl
  · next retained =>
    rw [ne_eq, not_not] at retained
    refine .inr ?_
    conv_rhs => rw [← retained]
    have split := List.take_append_drop seq.blockTable.length
      (matched.take (seq.blockTable.length + (seq.numBlocks cfg - seq.blockTable.length)))
    rw [List.take_take, Nat.min_eq_left (Nat.le_add_right _ _)] at split
    have length := congrArg List.length retained
    simp only [List.length_take] at length
    rw [show (matched.take seq.blockTable.length).length = seq.blockTable.length by
      simp only [List.length_take]; omega]
    exact split.symm

theorem resumeSuffix_length_le (cfg : Config) (seq : Sequence) (matched : List BlockId) :
    (resumeSuffix cfg seq matched).length ≤ seq.numBlocks cfg - seq.blockTable.length := by
  rcases resumeSuffix_cases cfg seq matched with empty | taken
  · rw [empty]
    exact Nat.zero_le _
  · have := congrArg List.length taken
    simp only [List.length_take, List.length_append] at this
    omega

/-- A re-attached page holds its logical page of the request. -/
theorem resumeSuffix_entry (matches' : Matches cfg bm seq matched) {k : ℕ} {blockId : BlockId}
    (get : (resumeSuffix cfg seq matched)[k]? = some blockId) :
    bm.entry cfg (seq.blockKeys cfg (seq.blockTable.length + k + 1)) = some blockId := by
  rcases resumeSuffix_cases cfg seq matched with empty | taken
  · rw [empty] at get
    simp at get
  · refine matches'.entry ?_
    have get' : (matched.take (seq.blockTable.length +
        (seq.numBlocks cfg - seq.blockTable.length)))[seq.blockTable.length + k]? =
          some blockId := by
      rw [taken, List.getElem?_append_right (by omega), Nat.add_sub_cancel_left]
      exact get
    rw [List.getElem?_take] at get'
    split at get'
    · exact get'
    · cases get'

theorem resumeSuffix_distinct (cfg : Config) (matchedDistinct : matched.Nodup)
    (distinct : seq.blockTable.Nodup) :
    (seq.blockTable ++ resumeSuffix cfg seq matched).Nodup := by
  rcases resumeSuffix_cases cfg seq matched with empty | taken
  · rw [empty, List.append_nil]
    exact distinct
  · rw [← taken]
    exact (List.take_sublist _ _).nodup matchedDistinct

namespace BlockManager

/-- The capacity check of a resumption records the re-attachable suffix if it fits. -/
theorem canResume_spec (index : bm.IndexValid cfg)
    (owned : seq.blockTable.length ≤ seq.numBlocks cfg) :
    ∃ bm' matched, Matches cfg bm seq matched ∧ SameMemory cfg bm bm' ∧
      bm'.pendingMatches = bm.pendingMatches ∧
      ((ResumeFits cfg bm seq matched ∧ bm.canResume cfg seq = .ok (bm', true) ∧
          bm'.pendingResumeMatches = Function.update bm.pendingResumeMatches seq.seqId
            (some (resumeSuffix cfg seq matched))) ∨
        (¬ResumeFits cfg bm seq matched ∧ bm.canResume cfg seq = .ok (bm', false) ∧
          bm'.pendingResumeMatches =
            Function.update bm.pendingResumeMatches seq.seqId none)) := by
  have same := lookupCachedBlocks_sameMemory cfg bm seq
  have free := same.freeBlockIds
  let looked := bm.lookupCachedBlocks cfg seq
  have used : looked.1.countUsed (resumeSuffix cfg seq looked.2) =
      bm.countUsed (resumeSuffix cfg seq looked.2) := by
    simp only [looked, countUsed, same.usedBlockIds]
  by_cases fits : ResumeFits cfg bm seq looked.2
  · let planned := Function.update looked.1.pendingResumeMatches seq.seqId
      (some (resumeSuffix cfg seq looked.2))
    refine ⟨{ looked.1 with pendingResumeMatches := planned }, looked.2,
      lookupCachedBlocks_matches index seq, same.trans (.of_plans _ _),
      lookupCachedBlocks_pendingMatches _ seq, .inl ⟨fits, ?_, by simp [looked, planned]⟩⟩
    simp only [canResume]
    rw [if_neg (by omega), if_neg]
    · rfl
    · change ¬((looked.1.freeBlockIds.length : ℤ) < _ - (looked.1.countUsed (resumeSuffix cfg seq
        looked.2) : ℤ))
      rw [used, show looked.1.freeBlockIds = bm.freeBlockIds from free]
      unfold ResumeFits at fits
      omega
  · refine ⟨looked.1.popPendingResumeMatch seq.seqId, looked.2,
      lookupCachedBlocks_matches index seq, same.trans (.of_plans _ _),
      lookupCachedBlocks_pendingMatches _ seq,
      .inr ⟨fits, ?_, by simp [looked, popPendingResumeMatch]⟩⟩
    simp only [canResume]
    rw [if_neg (by omega), if_pos]
    · change (looked.1.freeBlockIds.length : ℤ) < _ - (looked.1.countUsed (resumeSuffix cfg seq
        looked.2) : ℤ)
      rw [used, show looked.1.freeBlockIds = bm.freeBlockIds from free]
      unfold ResumeFits at fits
      omega

end BlockManager

/-- A request resumed with a re-attached suffix and fresh pages. -/
def Sequence.resumed (cfg : Config) (seq : Sequence) (suffix fresh : List BlockId) : Sequence :=
  { seq with
    blockTable := seq.blockTable ++ suffix ++ fresh
    kvBlockLogicalIndices := seq.kvBlockLogicalIndices ++
      List.range' seq.kvBlockLogicalIndices.length (suffix.length + fresh.length)
    numCachedTokens := seq.numCachedTokens + suffix.length * cfg.blockSize
    numPhysicalCachedTokens := seq.numPhysicalCachedTokens + suffix.length * cfg.blockSize }

/-- A request which resumes attaches its suffix and fresh pages. -/
theorem resumed_attaches {suffix fresh : List BlockId} {refs : BlockId → ℕ} {n : ℕ}
    (memory : SeqMemory cfg bm kv refs n seq) (uncompressed : seq.kvCompressed = false)
    (complete : seq.blockTable.length < seq.numBlocks cfg →
      seq.numCachedTokens = seq.blockTable.length * cfg.blockSize)
    (length : suffix.length + fresh.length = seq.numBlocks cfg - seq.blockTable.length)
    (distinct : (seq.blockTable ++ suffix).Nodup)
    (found : ∀ k blockId, suffix[k]? = some blockId →
      bm.entry cfg (seq.blockKeys cfg (seq.blockTable.length + k + 1)) = some blockId) :
    Attaches cfg bm seq (seq.resumed cfg suffix fresh) suffix fresh
      (List.range' seq.blockTable.length suffix.length)
      (List.range' (seq.blockTable.length + suffix.length) fresh.length) := by
  have exact := memory.exact uncompressed
  have positive := cfg.blockSize_pos
  have logical : (seq.resumed cfg suffix fresh).kvBlockLogicalIndices =
      List.range (seq.blockTable.length + (suffix.length + fresh.length)) := by
    simp only [Sequence.resumed, exact, List.length_range]
    rw [List.range_eq_range', List.range_eq_range']
    have split := List.range'_append_1 (s := 0) (m := seq.blockTable.length)
      (n := suffix.length + fresh.length)
    rwa [Nat.zero_add] at split
  refine ⟨by simp [Sequence.resumed], ?_, List.length_range', List.length_range',
    logical ▸ List.pairwise_lt_range, fun _ => ?_, rfl, rfl, rfl, Nat.le_add_right _ _, ?_,
    distinct, ?_, ?_⟩
  · rw [List.range'_append_1, Sequence.resumed, exact, List.length_range]
  · rw [logical]
    simp [Sequence.resumed]
  · intro logical' blockId offset mem inPage computed
    have short := (List.of_mem_zip mem).1
    rw [exact, List.mem_range] at short
    by_cases none_attached : suffix.length = 0
    · simpa [Sequence.resumed, none_attached] using computed
    · rw [complete (by omega)]
      have := Nat.mul_le_mul_right cfg.blockSize (Nat.succ_le_of_lt short)
      rw [Nat.succ_mul] at this
      omega
  · intro logical' blockId mem
    obtain ⟨k, rfl, get⟩ := mem_range_zip mem
    have short := (List.getElem?_eq_some_iff.mp get).1
    refine ⟨found k blockId get, ?_⟩
    simp only [Sequence.resumed]
    rw [complete (by omega), ← Nat.add_mul]
    exact Nat.mul_le_mul_right _ (by omega)
  · intro logical' mem
    obtain ⟨lower, upper⟩ := List.mem_range'_1.mp mem
    simp only [Sequence.resumed]
    rw [complete (by omega), ← Nat.add_mul]
    exact Nat.mul_le_mul_right _ lower

/-- `resume` under a plan which fits raises nothing. -/
theorem MemoryValid.resume
    (valid : MemoryValid cfg ids seqs bm kv Sequence.numCachedTokens) (known : i ∈ ids)
    (uncompressed : (seqs i).kvCompressed = false)
    (owned : (seqs i).blockTable.length ≤ (seqs i).numBlocks cfg)
    (complete : (seqs i).blockTable.length < (seqs i).numBlocks cfg →
      (seqs i).numCachedTokens = (seqs i).blockTable.length * cfg.blockSize)
    (matches' : Matches cfg bm (seqs i) matched)
    (planned : bm.pendingResumeMatches (seqs i).seqId =
      some (resumeSuffix cfg (seqs i) matched))
    (fits : ResumeFits cfg bm (seqs i) matched) :
    ∃ bm' fresh, bm.resume cfg (seqs i) =
        .ok (bm', (seqs i).resumed cfg (resumeSuffix cfg (seqs i) matched) fresh,
          (resumeSuffix cfg (seqs i) matched).length * cfg.blockSize) ∧
      (resumeSuffix cfg (seqs i) matched).length + fresh.length =
        (seqs i).numBlocks cfg - (seqs i).blockTable.length ∧
      MemoryValid cfg ids (Function.update seqs i
        ((seqs i).resumed cfg (resumeSuffix cfg (seqs i) matched) fresh)) bm' kv
        Sequence.numCachedTokens ∧
      Allocates cfg (bm.popPendingResumeMatch (seqs i).seqId)
        (addRefs (tableRefs ids seqs) (resumeSuffix cfg (seqs i) matched)) bm' fresh := by
  have same : SameMemory cfg bm (bm.popPendingResumeMatch (seqs i).seqId) := .of_plans _ _
  have valid₀ := valid.sameMemory same
  have memory := valid₀.request i known
  have distinct := resumeSuffix_distinct cfg (matches'.distinct valid.index)
    memory.distinct
  have bound := resumeSuffix_length_le cfg (seqs i) matched
  have found : ∀ k blockId, (resumeSuffix cfg (seqs i) matched)[k]? = some blockId → _ :=
    fun k blockId => resumeSuffix_entry (matches'.of_sameMemory same)
  have inRange : ∀ blockId ∈ resumeSuffix cfg (seqs i) matched, blockId < cfg.numBlocks :=
    fun blockId mem => by
      obtain ⟨k, get⟩ := List.mem_iff_getElem?.mp mem
      exact (valid₀.cached _ _ (found k blockId get)).1
  have length : ((seqs i).blockTable ++ resumeSuffix cfg (seqs i) matched).length =
      (seqs i).blockTable.length + (resumeSuffix cfg (seqs i) matched).length :=
    List.length_append
  rw [ResumeFits, valid.countUsed_eq] at fits
  obtain ⟨bm₁, bm', fresh, acquired, allocated, freshLength, allocates⟩ :=
    valid₀.pool.grow valid₀.index (resumeSuffix cfg (seqs i) matched)
      ((seqs i).numBlocks cfg -
        ((seqs i).blockTable ++ resumeSuffix cfg (seqs i) matched).length) inRange
      (List.nodup_append.mp distinct).2.1 (by rw [length, same.freeBlockIds]; omega)
      ((seqs i).blockTable ++ resumeSuffix cfg (seqs i) matched)
  rw [length] at freshLength
  have total : (resumeSuffix cfg (seqs i) matched).length + fresh.length =
      (seqs i).numBlocks cfg - (seqs i).blockTable.length := by omega
  have attaches := resumed_attaches memory uncompressed complete total distinct found
  refine ⟨bm', fresh, ?_, total, valid₀.grow known attaches allocates, allocates⟩
  have added : ((seqs i).blockTable ++ resumeSuffix cfg (seqs i) matched ++ fresh).length -
      (seqs i).blockTable.length =
        (resumeSuffix cfg (seqs i) matched).length + fresh.length := by
    rw [List.length_append, length]
    omega
  simp only [BlockManager.resume, plannedResume, planned, Py.ok_bind, acquired, allocated, added]
  rfl

/-! ## The next page of a decoding request -/

/-- A request with one more page. -/
def Sequence.withPage (cfg : Config) (seq : Sequence) (blockId : BlockId) : Sequence :=
  { seq with
    blockTable := seq.blockTable ++ [blockId]
    kvBlockLogicalIndices := seq.kvBlockLogicalIndices ++ [seq.numBlocks cfg - 1] }

/-- `may_append` with a free page raises nothing. -/
theorem MemoryValid.mayAppend
    (valid : MemoryValid cfg ids seqs bm kv Sequence.numCachedTokens) (known : i ∈ ids)
    (starts : startsPage cfg (seqs i) = true) (free : bm.freeBlockIds ≠ [])
    (behind : ∀ logical ∈ (seqs i).kvBlockLogicalIndices, logical < (seqs i).numBlocks cfg - 1)
    (complete : (seqs i).kvCompressed = false →
      (seqs i).blockTable.length = (seqs i).numBlocks cfg - 1)
    (uncomputed : (seqs i).numCachedTokens ≤ ((seqs i).numBlocks cfg - 1) * cfg.blockSize) :
    ∃ bm' blockId, bm.mayAppend cfg (seqs i) = .ok (bm', (seqs i).withPage cfg blockId) ∧
      MemoryValid cfg ids (Function.update seqs i ((seqs i).withPage cfg blockId)) bm' kv
        Sequence.numCachedTokens ∧
      Allocates cfg bm (tableRefs ids seqs) bm' [blockId] := by
  have memory := valid.request i known
  obtain ⟨bm', blockId, allocated, allocates⟩ := valid.pool.allocateBlock valid.index free
  have attaches : Attaches cfg bm (seqs i) ((seqs i).withPage cfg blockId) [] [blockId] []
      [(seqs i).numBlocks cfg - 1] := by
    refine ⟨rfl, rfl, rfl, rfl, ?_, fun uncompressed => ?_, rfl, rfl, rfl, le_refl _,
      fun _ _ _ _ _ => id, ?_, by simp, fun logical mem => List.mem_singleton.mp mem ▸ uncomputed⟩
    · refine List.pairwise_append.mpr ⟨memory.increasing, List.pairwise_singleton _ _, ?_⟩
      simpa using behind
    · simp only [Sequence.withPage, List.length_append, List.length_singleton, List.range_succ]
      rw [← memory.exact uncompressed, complete uncompressed]
    · rw [List.append_nil]
      exact memory.distinct
  refine ⟨bm', blockId, ?_, valid.grow known attaches ?_, allocates⟩
  · rw [BlockManager.mayAppend, if_pos starts, allocated, Py.ok_bind]
    rfl
  · exact allocates

theorem mayAppend_of_not_starts (starts : startsPage cfg seq = false) :
    bm.mayAppend cfg seq = .ok (bm, seq) := by
  simp [BlockManager.mayAppend, starts]

end NanoVllm
