import NanoVllm.Compression.Alignment
import Mathlib.Algebra.BigOperators.Group.Finset.Basic
import Mathlib.Order.Interval.Finset.Nat

/-!
# The pages query-aware compression keeps

`compress_query_aware` keeps the sink and recent windows and the middle positions with the
greatest scores, for window sizes which may differ from those of the run. A token of the query
counts for a page with the inverse of the number of middle pages which contain it.
-/

namespace NanoVllm

open BlockManager

/-- The arguments of a `compress_query_aware` call. -/
structure CompressionWindows where
  sinkBlocks : ℕ
  recentBlocks : ℕ
  importanceBlocks : ℕ
  queryTokens : ℕ
  sinkBlocks_pos : 1 ≤ sinkBlocks
  recentBlocks_pos : 1 ≤ recentBlocks
  importanceBlocks_pos : 1 ≤ importanceBlocks
  queryTokens_pos : 1 ≤ queryTokens

/-- The configuration under which compression is called with the given arguments. -/
def Config.withWindows (cfg : Config) (windows : CompressionWindows) : Config :=
  { cfg with
    kvCompressionSinkBlocks := windows.sinkBlocks
    kvCompressionRecentBlocks := windows.recentBlocks
    kvCompressionImportanceBlocks := windows.importanceBlocks
    kvCompressionQueryTokens := windows.queryTokens
    sinkBlocks_pos := windows.sinkBlocks_pos
    recentBlocks_pos := windows.recentBlocks_pos
    importanceBlocks_pos := windows.importanceBlocks_pos
    queryTokens_pos := windows.queryTokens_pos }

namespace Sequence

/-- The table positions between the sink and the recent window. -/
def middlePositions (cfg : Config) (seq : Sequence) : Finset ℕ :=
  Finset.Ico cfg.kvCompressionSinkBlocks (seq.blockTable.length - cfg.kvCompressionRecentBlocks)

/-- The distinct tokens at the end of the prompt. -/
def queryTokens (cfg : Config) (seq : Sequence) : Finset Token :=
  (seq.promptTokenIds.drop (seq.numPromptTokens - cfg.kvCompressionQueryTokens)).toFinset

/-- The score of a middle position: rare query tokens weigh more. -/
def queryScore (cfg : Config) (seq : Sequence) (position : ℕ) : ℚ :=
  ∑ tokenId ∈ positionTokens cfg seq position ∩ seq.queryTokens cfg,
    1 / (((seq.middlePositions cfg).filter fun other =>
      tokenId ∈ positionTokens cfg seq other).card : ℚ)

/-- The positions which fill the budget best; of equal scores the later position is better. -/
structure MostImportant (cfg : Config) (seq : Sequence) (important : Finset ℕ) : Prop where
  middle : important ⊆ seq.middlePositions cfg
  budget : important.card = cfg.kvCompressionImportanceBlocks
  greatest : ∀ best ∈ important, ∀ other ∈ seq.middlePositions cfg, other ∉ important →
    toLex (seq.queryScore cfg other, other) < toLex (seq.queryScore cfg best, best)

/-- The positions in one of the windows or among the important ones. -/
def keeps (cfg : Config) (seq : Sequence) (important : Finset ℕ) (position : ℕ) : Bool :=
  position < cfg.kvCompressionSinkBlocks ||
    seq.blockTable.length ≤ position + cfg.kvCompressionRecentBlocks || position ∈ important

end Sequence

/-- The effect of a compression which keeps the positions satisfying a predicate. -/
structure CompressesTo (cfg : Config) (bm : BlockManager) (seq : Sequence) (keep : ℕ → Bool)
    (bm' : BlockManager) (seq' : Sequence) (droppedBlocks freedBlocks droppedTokens : ℕ) :
    Prop where
  record : seq' = { seq with
    blockTable := keepPositions keep seq.blockTable
    kvBlockLogicalIndices := keepPositions keep seq.kvBlockLogicalIndices
    numPhysicalCachedTokens := seq'.numPhysicalCachedTokens
    kvCompressed := true }
  physical : seq'.numPhysicalCachedTokens + droppedBlocks * cfg.blockSize =
    seq.numPhysicalCachedTokens
  droppedTokens : droppedTokens = droppedBlocks * cfg.blockSize
  droppedBlocks : seq'.blockTable.length + droppedBlocks = seq.blockTable.length
  freedBlocks : freedBlocks = bm'.freeBlockIds.length - bm.freeBlockIds.length
  refCount : ∀ blockId, (bm'.blocks blockId).refCount = (bm.blocks blockId).refCount -
    if blockId ∈ seq.blockTable ∧ blockId ∉ seq'.blockTable then 1 else 0
  pages : RefsOnly bm bm'

/-! ## Selection -/

section Selection

variable {α : Type} [LinearOrder α] {xs : List α} {count : ℕ} {best other : α}

/-- The first elements of a list in decreasing order exceed the remaining ones. -/
theorem lt_of_mem_take_insertionSort
    (selected : best ∈ (xs.insertionSort fun left right => right ≤ left).take count)
    (mem : other ∈ xs)
    (rejected : other ∉ (xs.insertionSort fun left right => right ≤ left).take count) :
    other < best := by
  have sorted := List.pairwise_insertionSort (fun left right : α => right ≤ left) xs
  have mem' : other ∈ xs.insertionSort fun left right => right ≤ left :=
    (List.perm_insertionSort _ xs).mem_iff.mpr mem
  rw [← List.take_append_drop count (xs.insertionSort _)] at sorted mem'
  have later := (List.mem_append.mp mem').resolve_left rejected
  apply lt_of_le_of_ne ((List.pairwise_append.mp sorted).2.2 best selected other later)
  rintro rfl
  exact rejected selected

end Selection

variable {cfg : Config} {seq : Sequence}

theorem mem_candidatePositions {position : ℕ} (long : cfg.kvCompressionSinkBlocks +
    cfg.kvCompressionRecentBlocks ≤ seq.blockTable.length) :
    position ∈ candidatePositions cfg seq ↔ position ∈ seq.middlePositions cfg := by
  simp only [candidatePositions, List.mem_filter, List.mem_range, Bool.and_eq_true,
    decide_eq_true_eq, Sequence.middlePositions, Finset.mem_Ico]
  omega

theorem candidatePositions_nodup : (candidatePositions cfg seq).Nodup :=
  List.nodup_range.filter _

theorem documentFrequency_eq (long : cfg.kvCompressionSinkBlocks +
    cfg.kvCompressionRecentBlocks ≤ seq.blockTable.length) (tokenId : Token) :
    documentFrequency cfg seq tokenId = ((seq.middlePositions cfg).filter fun other =>
      tokenId ∈ positionTokens cfg seq other).card := by
  rw [documentFrequency, List.countP_eq_length_filter,
    ← List.toFinset_card_of_nodup (candidatePositions_nodup.filter _)]
  congr 1
  ext position
  simp only [List.mem_toFinset, List.mem_filter, mem_candidatePositions long,
    decide_eq_true_eq, Finset.mem_filter]

/-- The scores of the source are the specified ones. -/
theorem positionScore_eq (long : cfg.kvCompressionSinkBlocks +
    cfg.kvCompressionRecentBlocks ≤ seq.blockTable.length)
    (prompt : seq.numPromptTokens ≤ seq.numTokens) (position : ℕ) :
    positionScore cfg seq position = seq.queryScore cfg position := by
  have length : seq.promptTokenIds.length = seq.numPromptTokens := by
    rw [Sequence.promptTokenIds, List.length_take]
    exact Nat.min_eq_left prompt
  simp only [positionScore, length, documentFrequency_eq long]
  change (((seq.block cfg _).dedup).map _).sum = _
  rw [Sequence.queryScore, ← Finset.filter_mem_eq_inter, Finset.sum_filter, positionTokens,
    ← List.sum_toFinset _ (List.nodup_dedup _)]
  congr 1
  ext tokenId
  simp only [List.mem_toFinset, List.mem_dedup]

/-- The positions with the greatest scores fill the budget. -/
theorem importantPositions_mostImportant (long : cfg.kvCompressionSinkBlocks +
    cfg.kvCompressionRecentBlocks + cfg.kvCompressionImportanceBlocks ≤ seq.blockTable.length)
    (prompt : seq.numPromptTokens ≤ seq.numTokens) :
    seq.MostImportant cfg (importantPositions cfg seq).toFinset := by
  have windows : cfg.kvCompressionSinkBlocks + cfg.kvCompressionRecentBlocks ≤
      seq.blockTable.length := by omega
  let entry (position : ℕ) := toLex (positionScore cfg seq position, position)
  let scored := (candidatePositions cfg seq).map entry
  let sorted := scored.insertionSort fun left right => right ≤ left
  have perm : sorted.Perm scored := List.perm_insertionSort _ scored
  have scored_entry : ∀ scoredEntry ∈ scored, entry (ofLex scoredEntry).2 = scoredEntry := by
    intro scoredEntry mem
    rcases List.mem_map.mp mem with ⟨position, -, rfl⟩
    rfl
  have selected_iff : ∀ position, position ∈ importantPositions cfg seq ↔
      entry position ∈ sorted.take cfg.kvCompressionImportanceBlocks := by
    intro position
    change position ∈ (sorted.take _).map _ ↔ _
    simp only [List.mem_map]
    constructor
    · rintro ⟨scoredEntry, mem, rfl⟩
      rw [scored_entry _ (perm.mem_iff.mp (List.mem_of_mem_take mem))]
      exact mem
    · intro mem
      exact ⟨_, mem, rfl⟩
  have candidate_iff : ∀ position,
      position ∈ candidatePositions cfg seq ↔ entry position ∈ scored := by
    intro position
    constructor
    · exact List.mem_map_of_mem
    · intro mem
      rcases List.mem_map.mp mem with ⟨other, mem', same⟩
      have : other = position := congrArg (fun e => (ofLex e).2) same
      exact this ▸ mem'
  have positions : sorted.map (fun scoredEntry => (ofLex scoredEntry).2) |>.Perm
      (candidatePositions cfg seq) := by
    have mapped := perm.map fun scoredEntry => (ofLex scoredEntry).2
    rw [List.map_map] at mapped
    simpa [Function.comp_def, entry] using mapped
  refine ⟨?_, ?_, ?_⟩
  · intro position mem
    rw [List.mem_toFinset, selected_iff] at mem
    rw [← mem_candidatePositions windows, candidate_iff]
    exact perm.mem_iff.mp (List.mem_of_mem_take mem)
  · have nodup : (importantPositions cfg seq).Nodup := by
      change ((sorted.take _).map _).Nodup
      rw [List.map_take]
      exact (positions.nodup_iff.mpr candidatePositions_nodup).take
    rw [List.toFinset_card_of_nodup nodup]
    change ((sorted.take _).map _).length = _
    have count : sorted.length = (seq.middlePositions cfg).card := by
      rw [← List.length_map (fun scoredEntry => (ofLex scoredEntry).2), positions.length_eq,
        ← List.toFinset_card_of_nodup candidatePositions_nodup]
      congr 1
      ext position
      rw [List.mem_toFinset, mem_candidatePositions windows]
    rw [List.length_map, List.length_take, count, Sequence.middlePositions, Nat.card_Ico]
    omega
  · intro best mem other mem' rejected
    rw [List.mem_toFinset, selected_iff] at mem rejected
    rw [← mem_candidatePositions windows, candidate_iff] at mem'
    have less := lt_of_mem_take_insertionSort mem mem' rejected
    simp only [entry, positionScore_eq windows prompt] at less
    exact less

/-! ## Compression -/

theorem keepPositions_length_eq {β : Type} (keep : ℕ → Bool) (xs : List β) :
    (keepPositions keep xs).length = ((Finset.range xs.length).filter (keep · = true)).card := by
  rw [keepPositions, List.length_map, ← List.countP_eq_length_filter]
  change xs.zipIdx.countP (keep ∘ Prod.snd) = _
  rw [← List.countP_map, List.zipIdx_map_snd, ← List.range_eq_range', List.countP_eq_length_filter,
    ← List.toFinset_card_of_nodup (List.nodup_range.filter _)]
  congr 1
  ext position
  simp

/-- The dropped positions are the middle ones which are not important. -/
theorem Sequence.MostImportant.dropped_length {important : Finset ℕ}
    (selects : seq.MostImportant cfg important) (long : cfg.kvCompressionSinkBlocks +
      cfg.kvCompressionRecentBlocks + cfg.kvCompressionImportanceBlocks ≤
        seq.blockTable.length) :
    (keepPositions (fun position => !seq.keeps cfg important position) seq.blockTable).length +
      (cfg.kvCompressionSinkBlocks + cfg.kvCompressionRecentBlocks +
        cfg.kvCompressionImportanceBlocks) = seq.blockTable.length := by
  have dropped : (Finset.range seq.blockTable.length).filter
      (fun position => (!seq.keeps cfg important position) = true) =
        seq.middlePositions cfg \ important := by
    ext position
    simp only [Sequence.keeps, Bool.not_eq_true', Bool.or_eq_false_iff, decide_eq_false_iff_not,
      Finset.mem_filter, Finset.mem_range, Finset.mem_sdiff, Sequence.middlePositions,
      Finset.mem_Ico, ← and_assoc]
    apply and_congr_left
    intro _
    omega
  have count := Finset.card_sdiff_add_card_eq_card selects.middle
  rw [keepPositions_length_eq, dropped]
  rw [selects.budget, Sequence.middlePositions, Nat.card_Ico] at count
  rw [Sequence.middlePositions]
  omega

/-- `compress_query_aware` keeps the windows and the important positions. -/
theorem compressQueryAware_eq (bm : BlockManager) (long : cfg.kvCompressionSinkBlocks +
    cfg.kvCompressionRecentBlocks + cfg.kvCompressionImportanceBlocks <
      seq.blockTable.length) :
    bm.compressQueryAware cfg seq = bm.compressKeepPositions cfg seq
      (seq.keeps cfg (importantPositions cfg seq).toFinset) := by
  have importance := cfg.importanceBlocks_pos
  have query := cfg.queryTokens_pos
  simp only [compressQueryAware]
  rw [if_neg (by omega), if_neg (by omega)]
  congr 1
  funext position
  simp only [Sequence.keeps, List.mem_toFinset]
  congr 2
  · congr 1
    exact propext (by omega)
  · exact decide_eq_decide.mpr (by omega)

theorem compressQueryAware_short (bm : BlockManager) (short : seq.blockTable.length ≤
    cfg.kvCompressionSinkBlocks + cfg.kvCompressionRecentBlocks +
      cfg.kvCompressionImportanceBlocks) :
    bm.compressQueryAware cfg seq = .ok (bm, seq, 0, 0, 0) := by
  have importance := cfg.importanceBlocks_pos
  have query := cfg.queryTokens_pos
  simp only [compressQueryAware]
  rw [if_neg (by omega), if_pos short]

theorem compressKeepPositions_freed {bm bm' : BlockManager} {seq' : Sequence} {keep : ℕ → Bool}
    {dropped freed tokens : ℕ}
    (compressed : bm.compressKeepPositions cfg seq keep = .ok (bm', seq', dropped, freed, tokens)) :
    freed = bm'.freeBlockIds.length - bm.freeBlockIds.length := by
  simp only [compressKeepPositions] at compressed
  split at compressed
  · cases compressed
    exact (Nat.sub_self _).symm
  · cases released : releaseBlocks
      (keepPositions (fun index => !keep index) seq.blockTable).reverse bm with
    | error error =>
      rw [released] at compressed
      cases compressed
    | ok bm₁ =>
      rw [released, Py.ok_bind] at compressed
      cases compressed
      rfl

/-- A compression which leaves a page drops whole pages of physical tokens. -/
theorem MemoryValid.compressesTo {ids : Finset SeqId} {seqs : SeqId → Sequence}
    {bm : BlockManager} {kv : KvStore} {i : SeqId}
    (valid : MemoryValid cfg ids seqs bm kv Sequence.numCachedTokens) (known : i ∈ ids)
    (running : (seqs i).Running cfg) (idle : (seqs i).numScheduledTokens = 0) (keep : ℕ → Bool)
    {dropped : ℕ} (count : (keepPositions (fun index => !keep index) (seqs i).blockTable).length =
      dropped) (some_dropped : 0 < dropped) (some_kept : dropped < (seqs i).blockTable.length) :
    ∃ bm' seq' freedBlocks droppedTokens,
      bm.compressKeepPositions cfg (seqs i) keep =
        .ok (bm', seq', dropped, freedBlocks, droppedTokens) ∧
      CompressesTo cfg bm (seqs i) keep bm' seq' dropped freedBlocks droppedTokens ∧
      MemoryValid cfg ids (Function.update seqs i seq') bm' kv Sequence.numCachedTokens := by
  have memory := valid.request i known
  have nonempty : keepPositions (fun index => !keep index) (seqs i).blockTable ≠ [] := by
    rw [← count] at some_dropped
    exact List.length_pos_iff.mp some_dropped
  rcases valid.compressKeepPositions known keep nonempty with
    ⟨bm', freed, compressed, memory', same⟩
  have lengths := (@keepPositions_perm _ keep (seqs i).blockTable).length_eq
  rw [List.length_append, count] at lengths
  have whole : dropped * cfg.blockSize ≤ (seqs i).numPhysicalCachedTokens := by
    rcases running.physical_eq memory.sameLength with ⟨-, physical⟩
    have computed : (seqs i).computedTokens = (seqs i).numCachedTokens := by
      rw [Sequence.computedTokens, idle, Nat.add_zero]
    rw [computed] at physical
    have fewer := Nat.mul_le_mul_right cfg.blockSize
      (show dropped ≤ (seqs i).blockTable.length - 1 by omega)
    have below := Nat.div_mul_le_self ((seqs i).numCachedTokens - 1) cfg.blockSize
    omega
  have tokens : min (dropped * cfg.blockSize) (seqs i).numPhysicalCachedTokens =
      dropped * cfg.blockSize := Nat.min_eq_left whole
  rw [count, tokens] at compressed
  refine ⟨bm', _, freed, _, compressed, ?_, memory'⟩
  refine ⟨rfl, ?_, rfl, lengths.symm, compressKeepPositions_freed compressed, ?_, same⟩
  · simp only [Sequence.compressed, count, tokens]
    exact Nat.sub_add_cancel whole
  · intro blockId
    have refs : _ = tableRefs ids seqs blockId + _ :=
      tableRefs_update known ((seqs i).compressed cfg keep) blockId
    have sublist : (keepPositions keep (seqs i).blockTable).Sublist (seqs i).blockTable :=
      keepPositions_sublist _
    simp only [memory'.pool.refCount, valid.pool.refCount]
    simp only [Sequence.compressed, memory.distinct.count,
      (sublist.nodup memory.distinct).count] at refs
    by_cases owned : blockId ∈ (seqs i).blockTable
    · by_cases stays : blockId ∈ keepPositions keep (seqs i).blockTable
      · simp [Sequence.compressed, owned, stays] at refs ⊢
        omega
      · simp [Sequence.compressed, owned, stays] at refs ⊢
        omega
    · have gone : blockId ∉ keepPositions keep (seqs i).blockTable :=
        fun mem => owned (sublist.subset mem)
      simp [Sequence.compressed, owned, gone] at refs ⊢
      omega

namespace System

variable {Allowed : System → Op cfg → Prop} {sys : System} {s : Scheduler} {i : SeqId}

/-- Compression reads existing logical pages only. -/
theorem IdleRunning.logical_lt (running : (s.seqs i).Running cfg)
    (aligned : (s.seqs i).Aligned cfg) (idle : (s.seqs i).numScheduledTokens = 0) :
    ∀ logical ∈ (s.seqs i).kvBlockLogicalIndices, logical < (s.seqs i).numBlocks cfg := by
  intro logical mem
  have nonempty := running.nonempty
  rw [Sequence.computedTokens, idle, Nat.add_zero] at nonempty
  have le := Paging.le_last_of_increasing aligned.increasing aligned.last mem
  rw [Sequence.cachedPages_eq nonempty, Nat.add_sub_cancel] at le
  rw [running.numBlocks_eq idle]
  have order := Nat.div_le_div_right (c := cfg.blockSize)
    (Nat.sub_le (s.seqs i).numCachedTokens 1)
  exact Nat.lt_succ_of_le (le.trans order)

/--
`compress_query_aware` does nothing within the budget. Otherwise it keeps the sink window, the
recent window and the most important positions between them, in order and in both lists, and
every dropped page loses one reference and one page of physical tokens.
-/
theorem queryAware_optimal (reachable : ReachableBy cfg Allowed sys) (passes : Passes cfg sys s)
    (idle : IdleRunning sys s i) (windows : CompressionWindows) :
    (∀ logical ∈ (s.seqs i).kvBlockLogicalIndices, logical < (s.seqs i).numBlocks cfg) ∧
    ((s.seqs i).blockTable.length ≤
        windows.sinkBlocks + windows.recentBlocks + windows.importanceBlocks →
      s.blockManager.compressQueryAware (cfg.withWindows windows) (s.seqs i) =
        .ok (s.blockManager, s.seqs i, 0, 0, 0)) ∧
    (windows.sinkBlocks + windows.recentBlocks + windows.importanceBlocks <
        (s.seqs i).blockTable.length →
      ∃ important bm' seq' droppedBlocks freedBlocks droppedTokens,
        s.blockManager.compressQueryAware (cfg.withWindows windows) (s.seqs i) =
          .ok (bm', seq', droppedBlocks, freedBlocks, droppedTokens) ∧
        (s.seqs i).MostImportant (cfg.withWindows windows) important ∧
        CompressesTo cfg s.blockManager (s.seqs i)
          ((s.seqs i).keeps (cfg.withWindows windows) important) bm' seq' droppedBlocks
          freedBlocks droppedTokens ∧
        seq'.blockTable.length =
          windows.sinkBlocks + windows.recentBlocks + windows.importanceBlocks ∧
        MemoryValid cfg sys.known.toFinset (Function.update s.seqs i seq') bm' sys.kv
          Sequence.numCachedTokens) := by
  rcases passes.valid reachable.valid with ⟨held, batch, valid⟩
  rcases idle with ⟨known, status, idle⟩
  have known' := List.mem_toFinset.mpr known
  rcases valid.running (valid.mem_running.mpr ⟨known', status⟩) with ⟨-, -, running⟩
  have aligned := running.aligned (valid.memory.request i known') idle
  refine ⟨IdleRunning.logical_lt running aligned idle, ?_, ?_⟩
  · intro short
    exact compressQueryAware_short _ short
  · intro long
    have wellFormed := valid.request i known'
    let important := (importantPositions (cfg.withWindows windows) (s.seqs i)).toFinset
    have selects : (s.seqs i).MostImportant (cfg.withWindows windows) important :=
      importantPositions_mostImportant (Nat.le_of_lt long) wellFormed.prompt_le
    have count := selects.dropped_length (Nat.le_of_lt long)
    have sink := windows.sinkBlocks_pos
    change _ + (windows.sinkBlocks + windows.recentBlocks + windows.importanceBlocks) = _ at count
    rcases valid.memory.compressesTo known' running idle
      ((s.seqs i).keeps (cfg.withWindows windows) important) rfl (by omega) (by omega) with
      ⟨bm', seq', freed, tokens, compressed, compresses, memory⟩
    refine ⟨important, bm', seq', _, freed, tokens, ?_, selects, compresses, ?_, memory⟩
    · rw [compressQueryAware_eq _ long]
      exact compressed
    · have total := compresses.droppedBlocks
      omega

/-- One page in every window. -/
def onePageWindows : CompressionWindows where
  sinkBlocks := 1
  recentBlocks := 1
  importanceBlocks := 1
  queryTokens := 1
  sinkBlocks_pos := one_le_one
  recentBlocks_pos := one_le_one
  importanceBlocks_pos := one_le_one
  queryTokens_pos := one_le_one

/-- A memory of ten pages. -/
def tenPages : Config := defaultConfig 2 10 2 two_le_two

/-- A running request with five pages. -/
def fivePagesRun : System := (init tenPages).runOps tenPages
  [.add (plainRequest 0 9 4) 0, .schedule (idleEnv _), .postprocess [5] 1 1]

theorem queryAware_optimal_fivePages :
    ∃ important bm' seq' droppedBlocks freedBlocks droppedTokens,
      fivePagesRun.scheduler.blockManager.compressQueryAware
          (tenPages.withWindows onePageWindows) (fivePagesRun.scheduler.seqs 0) =
        .ok (bm', seq', droppedBlocks, freedBlocks, droppedTokens) ∧
      (fivePagesRun.scheduler.seqs 0).MostImportant (tenPages.withWindows onePageWindows)
        important ∧
      seq'.blockTable.length = 3 := by
  have reachable : Reachable tenPages fivePagesRun :=
    ReachableBy.runOps .init (by decide +kernel)
  have running : IdleRunning fivePagesRun fivePagesRun.scheduler 0 := by
    refine ⟨?_, ?_, ?_⟩ <;> decide +kernel
  rcases (queryAware_optimal reachable .between running onePageWindows).2.2 (by decide +kernel) with
    ⟨important, bm', seq', dropped, freed, tokens, compressed, selects, -, length, -⟩
  exact ⟨important, bm', seq', dropped, freed, tokens, compressed, selects, length⟩

end System

end NanoVllm
