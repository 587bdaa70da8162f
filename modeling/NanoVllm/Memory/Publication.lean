import NanoVllm.Memory.Release

/-!
# Publishing pages

`hash_blocks` and `commit_restored_prefix` enter complete pages of a request into the prefix
index. The pages they enter were exclusive to the request and hold the KV of its own tokens, so
every entry of the index keeps holding exactly its path.
-/

namespace NanoVllm

open BlockManager

variable {cfg : Config} {ids : Finset SeqId} {seqs : SeqId → Sequence} {bm bm' : BlockManager}
  {kv : KvStore} {i : SeqId} {seq : Sequence}

/-- A complete page of an uncompressed request holds its path. -/
theorem SeqMemory.pageHolds {refs : BlockId → ℕ} {n logical : ℕ} {blockId : BlockId}
    (memory : SeqMemory cfg bm kv refs n seq) (uncompressed : seq.kvCompressed = false)
    (get : seq.blockTable[logical]? = some blockId)
    (complete : (logical + 1) * cfg.blockSize ≤ n) (inRange : n ≤ seq.numTokens) :
    PageHolds cfg kv blockId (seq.blockKeys cfg (logical + 1)) := by
  have mem := (memory.mem_pages_iff uncompressed).mpr get
  have long : (logical + 1) * cfg.blockSize ≤ seq.tokenIds.length := complete.trans inRange
  refine ⟨?_, Paging.full_pages long, fun offset inPage => ?_⟩
  · rw [← List.length_pos_iff, Sequence.blockKeys_eq, Paging.length_pages]
    exact Nat.succ_pos _
  · have bound : logical * cfg.blockSize + offset + 1 ≤ (logical + 1) * cfg.blockSize := by
      rw [Nat.add_mul, Nat.one_mul]
      omega
    obtain ⟨taint, slot, exact⟩ := memory.content logical blockId offset mem inPage (by omega)
    rw [uncompressed] at exact
    rw [Sequence.blockKeys_eq, Paging.length_pages, Nat.add_sub_cancel,
      Paging.take_flatten_pages bound, slot]
    simpa using exact

namespace BlockManager

/-! ## The hash chain -/

section PublishHashes

variable {blockId : BlockId} {tokens : BlockKey}

theorem updateBlock_hash_self (h : Option ℕ) :
    ((bm.updateBlock blockId h tokens).blocks blockId).hash = h := by
  simp [updateBlock, setBlock]

theorem updateBlock_of_ne {other : BlockId} (h : Option ℕ) (differ : other ≠ blockId) :
    (bm.updateBlock blockId h tokens).blocks other = bm.blocks other := by
  simp [updateBlock, setBlock, differ]

theorem updateBlock_refCount (h : Option ℕ) (other : BlockId) :
    ((bm.updateBlock blockId h tokens).blocks other).refCount = (bm.blocks other).refCount := by
  by_cases same : other = blockId
  · subst same
    simp [updateBlock, setBlock]
  · rw [updateBlock_of_ne h same]

end PublishHashes

/-- Changes which keep reference counts, lists and plans. -/
structure SamePool (bm bm' : BlockManager) : Prop where
  refCount : ∀ blockId, (bm'.blocks blockId).refCount = (bm.blocks blockId).refCount
  freeBlockIds : bm'.freeBlockIds = bm.freeBlockIds
  usedBlockIds : bm'.usedBlockIds = bm.usedBlockIds
  pendingMatches : bm'.pendingMatches = bm.pendingMatches
  pendingResumeMatches : bm'.pendingResumeMatches = bm.pendingResumeMatches

namespace SamePool

theorem refl (bm : BlockManager) : SamePool bm bm := ⟨fun _ => rfl, rfl, rfl, rfl, rfl⟩

theorem trans {bm'' : BlockManager} (first : SamePool bm bm') (second : SamePool bm' bm'') :
    SamePool bm bm'' where
  refCount blockId := (second.refCount blockId).trans (first.refCount blockId)
  freeBlockIds := second.freeBlockIds.trans first.freeBlockIds
  usedBlockIds := second.usedBlockIds.trans first.usedBlockIds
  pendingMatches := second.pendingMatches.trans first.pendingMatches
  pendingResumeMatches := second.pendingResumeMatches.trans first.pendingResumeMatches

theorem pool {refs : BlockId → ℕ} (same : SamePool bm bm') (valid : PoolValid cfg bm refs) :
    PoolValid cfg bm' refs where
  freeNodup := same.freeBlockIds ▸ valid.freeNodup
  mem_free := same.freeBlockIds ▸ valid.mem_free
  mem_used := same.usedBlockIds ▸ valid.mem_used
  refCount blockId := (same.refCount blockId).trans (valid.refCount blockId)
  lt_numBlocks := valid.lt_numBlocks

end SamePool

/-- One page published under the chained hash of its path. -/
def publishHash (cfg : Config) (bm : BlockManager) (path : List BlockKey) (blockId : BlockId)
    (tokens : BlockKey) : BlockManager :=
  { bm.updateBlock blockId (chainHash cfg (path ++ [tokens])) tokens with
    hashToBlockId := Function.update bm.hashToBlockId
      (cfg.pageHash.computeHash tokens (chainHash cfg path)) (some blockId) }

theorem publishHashes_cons (path : List BlockKey) (blockId : BlockId) (tokens : BlockKey)
    (pages : List (BlockId × BlockKey)) :
    publishHashes cfg ((blockId, tokens) :: pages) (chainHash cfg path) bm =
      publishHashes cfg pages (chainHash cfg (path ++ [tokens]))
        (bm.publishHash cfg path blockId tokens) := by
  simp only [publishHashes, publishHash, chainHash_append_singleton]
  rfl

theorem publishHash_samePool (path : List BlockKey) (blockId : BlockId) (tokens : BlockKey) :
    SamePool bm (bm.publishHash cfg path blockId tokens) :=
  ⟨updateBlock_refCount _, rfl, rfl, rfl, rfl⟩

theorem publishHash_entry (backend : cfg.prefixCacheBackend = .hash) {path other : List BlockKey}
    {blockId value : BlockId} {tokens : BlockKey}
    (found : (bm.publishHash cfg path blockId tokens).entry cfg other = some value) :
    bm.entry cfg other = some value ∨ (other = path ++ [tokens] ∧ value = blockId) := by
  rw [entry_hash backend, Option.bind_eq_some_iff] at found
  obtain ⟨h, chain, stored⟩ := found
  simp only [publishHash] at stored
  by_cases same : h = cfg.pageHash.computeHash tokens (chainHash cfg path)
  · subst same
    rw [Function.update_self, Option.some.injEq] at stored
    rw [← chainHash_append_singleton] at chain
    exact .inr ⟨chainHash_injective chain, stored.symm⟩
  · rw [Function.update_of_ne same] at stored
    rw [entry_hash backend, chain]
    exact .inl stored

theorem publishHash_valid (valid : bm.IndexValid cfg)
    (backend : cfg.prefixCacheBackend = .hash) {path : List BlockKey} {blockId : BlockId}
    {tokens : BlockKey} (clean : (bm.blocks blockId).hash = none ∨
      (bm.blocks blockId).hash = chainHash cfg (path ++ [tokens])) :
    (bm.publishHash cfg path blockId tokens).IndexValid cfg where
  radix radix := by rw [backend] at radix; cases radix
  hash _ h value stored := by
    simp only [publishHash] at stored ⊢
    have chain := chainHash_append_singleton cfg path tokens
    by_cases same : h = cfg.pageHash.computeHash tokens (chainHash cfg path)
    · subst same
      rw [Function.update_self, Option.some.injEq] at stored
      subst stored
      refine ⟨by simp [updateBlock, setBlock, chain], path ++ [tokens], chain, ?_⟩
      simp [updateBlock, setBlock]
    · rw [Function.update_of_ne same] at stored
      have differ : value ≠ blockId := by
        rintro rfl
        have hash := valid.hash_eq backend stored
        rw [hash, chain] at clean
        simp only [reduceCtorEq, Option.some.injEq, false_or] at clean
        exact same clean
      rw [updateBlock_of_ne _ differ]
      exact valid.hash backend h value stored

/-- Publishing a chain of pages under the paths which extend a given one. -/
theorem publishHashes_spec (backend : cfg.prefixCacheBackend = .hash)
    {pages : List (BlockId × BlockKey)} {path : List BlockKey} (valid : bm.IndexValid cfg)
    (distinct : (pages.map Prod.fst).Nodup)
    (clean : ∀ k blockId tokens, pages[k]? = some (blockId, tokens) →
      (bm.blocks blockId).hash = none ∨ (bm.blocks blockId).hash =
        chainHash cfg (path ++ (pages.map Prod.snd).take (k + 1))) :
    (publishHashes cfg pages (chainHash cfg path) bm).IndexValid cfg ∧
      SamePool bm (publishHashes cfg pages (chainHash cfg path) bm) ∧
      (∀ other value, (publishHashes cfg pages (chainHash cfg path) bm).entry cfg other =
        some value → bm.entry cfg other = some value ∨
          ∃ k tokens, pages[k]? = some (value, tokens) ∧
            other = path ++ (pages.map Prod.snd).take (k + 1)) ∧
      (∀ blockId, blockId ∉ pages.map Prod.fst →
        ((publishHashes cfg pages (chainHash cfg path) bm).blocks blockId).hash =
          (bm.blocks blockId).hash) ∧
      (∀ k blockId tokens, pages[k]? = some (blockId, tokens) →
        ((publishHashes cfg pages (chainHash cfg path) bm).blocks blockId).hash =
          chainHash cfg (path ++ (pages.map Prod.snd).take (k + 1))) := by
  induction pages generalizing bm path with
  | nil =>
    exact ⟨valid, .refl bm, fun _ _ found => .inl found, fun _ _ => rfl, by simp⟩
  | cons page pages ih =>
    obtain ⟨blockId, tokens⟩ := page
    rw [List.map_cons, List.nodup_cons] at distinct
    have firstClean := clean 0 blockId tokens rfl
    simp only [List.map_cons, List.take_succ_cons, List.take_zero] at firstClean
    have valid₁ := publishHash_valid valid backend firstClean
    have hash₁ : ∀ other, other ≠ blockId →
        ((bm.publishHash cfg path blockId tokens).blocks other).hash =
          (bm.blocks other).hash := fun other differ => by
      simp only [publishHash]
      rw [updateBlock_of_ne _ differ]
    have self₁ : ((bm.publishHash cfg path blockId tokens).blocks blockId).hash =
        chainHash cfg (path ++ [tokens]) := updateBlock_hash_self _
    have restPath : ∀ k, path ++ (tokens :: pages.map Prod.snd).take (k + 1 + 1) =
        path ++ [tokens] ++ (pages.map Prod.snd).take (k + 1) := fun k => by
      simp
    rw [publishHashes_cons]
    obtain ⟨valid₂, pool₂, entry₂, others₂, self₂⟩ :=
      ih valid₁ distinct.2 fun k other otherTokens get => by
        have differ : other ≠ blockId := by
          rintro rfl
          exact distinct.1 (List.mem_map.mpr ⟨_, List.mem_of_getElem? get, rfl⟩)
        rw [hash₁ other differ, ← restPath]
        exact clean (k + 1) other otherTokens get
    refine ⟨valid₂, (publishHash_samePool path blockId tokens).trans pool₂, ?_, ?_, ?_⟩
    · intro other value found
      rcases entry₂ other value found with old | ⟨k, otherTokens, get, rfl⟩
      · rcases publishHash_entry backend old with older | ⟨rfl, rfl⟩
        · exact .inl older
        · exact .inr ⟨0, tokens, rfl, by simp⟩
      · exact .inr ⟨k + 1, otherTokens, get, (restPath k).symm⟩
    · intro other absent
      simp only [List.map_cons, List.mem_cons, not_or] at absent
      rw [others₂ other absent.2, hash₁ other absent.1]
    · intro k other otherTokens get
      rcases k with _ | k
      · simp only [List.getElem?_cons_zero, Option.some.injEq, Prod.mk.injEq] at get
        obtain ⟨rfl, rfl⟩ := get
        rw [others₂ _ distinct.1, self₁]
        simp
      · rw [self₂ k other otherTokens get, ← restPath]
        rfl

/-! ## The pages of a request -/

section TablePages

variable {start stop : ℕ}

theorem tablePages_map_fst (owned : stop ≤ seq.blockTable.length) :
    (tablePages cfg seq start stop).map Prod.fst = (seq.blockTable.take stop).drop start := by
  rw [tablePages, List.map_drop, List.map_fst_zip]
  rw [Sequence.blockKeys_eq, Paging.length_pages, List.length_take]
  omega

theorem tablePages_map_snd (owned : stop ≤ seq.blockTable.length) :
    (tablePages cfg seq start stop).map Prod.snd = (seq.blockKeys cfg stop).drop start := by
  rw [tablePages, List.map_drop, List.map_snd_zip]
  rw [Sequence.blockKeys_eq, Paging.length_pages, List.length_take]
  omega

theorem tablePages_getElem? {k : ℕ} {blockId : BlockId} {tokens : BlockKey}
    (get : (tablePages cfg seq start stop)[k]? = some (blockId, tokens)) :
    start + k < stop ∧ seq.blockTable[start + k]? = some blockId := by
  rw [tablePages, List.getElem?_drop, List.getElem?_zip_eq_some] at get
  obtain ⟨getBlock, getKey⟩ := get
  have short := (List.getElem?_eq_some_iff.mp getKey).1
  rw [Sequence.blockKeys_eq, Paging.length_pages] at short
  rw [List.getElem?_take_of_lt short] at getBlock
  exact ⟨short, getBlock⟩

theorem exists_tablePages {l : ℕ} {blockId : BlockId} (lower : start ≤ l) (upper : l < stop)
    (get : seq.blockTable[l]? = some blockId) :
    ∃ tokens, (tablePages cfg seq start stop)[l - start]? = some (blockId, tokens) := by
  refine ⟨seq.block cfg l, ?_⟩
  rw [tablePages, List.getElem?_drop, Nat.add_sub_cancel' lower, List.getElem?_zip_eq_some,
    List.getElem?_take_of_lt upper]
  exact ⟨get, Paging.getElem?_pages upper⟩

/-- The path of a listed page. -/
theorem tablePages_path (owned : stop ≤ seq.blockTable.length) {k : ℕ}
    (short : start + k < stop) :
    seq.blockKeys cfg start ++ ((tablePages cfg seq start stop).map Prod.snd).take (k + 1) =
      seq.blockKeys cfg (start + k + 1) := by
  rw [tablePages_map_snd owned]
  simp only [Sequence.blockKeys_eq]
  have split := List.take_append_drop start
    ((Paging.pages cfg.blockSize seq.tokenIds stop).take (start + k + 1))
  rw [List.drop_take, List.take_take, Nat.min_eq_left (by omega), Paging.take_pages (by omega),
    Paging.take_pages (by omega)] at split
  rw [← split, show start + k + 1 - start = k + 1 by omega]

end TablePages

/-- The publication of the pages `start, ..., stop - 1` of a request. -/
structure Publishes (cfg : Config) (bm bm' : BlockManager) (seq : Sequence) (start stop : ℕ) :
    Prop where
  index : bm'.IndexValid cfg
  pool : SamePool bm bm'
  entries : ∀ path blockId, bm'.entry cfg path = some blockId →
    bm.entry cfg path = some blockId ∨ ∃ l, l < stop ∧ seq.blockTable[l]? = some blockId ∧
      path = seq.blockKeys cfg (l + 1)
  hash : ∀ blockId, (∀ l, start ≤ l → l < stop → seq.blockTable[l]? ≠ some blockId) →
    (bm'.blocks blockId).hash = (bm.blocks blockId).hash
  recorded : ∀ blockId h, (bm.blocks blockId).hash = some h →
    (bm'.blocks blockId).hash = some h
  sealed : cfg.prefixCacheBackend = .hash → ∀ l blockId, start ≤ l → l < stop →
    seq.blockTable[l]? = some blockId →
      (bm'.blocks blockId).hash = chainHash cfg (seq.blockKeys cfg (l + 1))

/-- Publishing in the hash index. -/
theorem publishHashes_publishes (start : ℕ) (backend : cfg.prefixCacheBackend = .hash)
    (valid : bm.IndexValid cfg) {stop : ℕ} (owned : stop ≤ seq.blockTable.length)
    (distinct : seq.blockTable.Nodup)
    (clean : ∀ l blockId, start ≤ l → l < stop → seq.blockTable[l]? = some blockId →
      (bm.blocks blockId).hash = none ∨
        (bm.blocks blockId).hash = chainHash cfg (seq.blockKeys cfg (l + 1))) :
    Publishes cfg bm (publishHashes cfg (tablePages cfg seq start stop)
      (chainHash cfg (seq.blockKeys cfg start)) bm) seq start stop := by
  have pageClean : ∀ k blockId tokens,
      (tablePages cfg seq start stop)[k]? = some (blockId, tokens) →
        (bm.blocks blockId).hash = none ∨ (bm.blocks blockId).hash =
          chainHash cfg (seq.blockKeys cfg start ++
            ((tablePages cfg seq start stop).map Prod.snd).take (k + 1)) :=
    fun k blockId tokens get => by
      obtain ⟨short, getBlock⟩ := tablePages_getElem? get
      rw [tablePages_path owned short]
      exact clean _ blockId (Nat.le_add_right _ _) short getBlock
  obtain ⟨index, pool, entries, others, self⟩ := publishHashes_spec backend valid (by
    rw [tablePages_map_fst owned]
    exact (List.drop_sublist _ _).nodup ((List.take_sublist _ _).nodup distinct)) pageClean
  generalize publishHashes cfg (tablePages cfg seq start stop)
    (chainHash cfg (seq.blockKeys cfg start)) bm = bm' at index pool entries others self ⊢
  have sealed : ∀ l blockId, start ≤ l → l < stop → seq.blockTable[l]? = some blockId →
      (bm'.blocks blockId).hash = chainHash cfg (seq.blockKeys cfg (l + 1)) := fun l blockId lower upper get => by
    obtain ⟨tokens, getPage⟩ := @exists_tablePages cfg _ _ _ _ _ lower upper get
    have := self _ blockId tokens getPage
    rwa [tablePages_path owned (by omega), show start + (l - start) + 1 = l + 1 by omega] at this
  refine ⟨index, pool, fun path blockId found => ?_, fun blockId absent => ?_,
    fun blockId h recorded => ?_, fun _ => sealed⟩
  · refine (entries path blockId found).imp_right ?_
    rintro ⟨k, tokens, get, rfl⟩
    obtain ⟨short, getBlock⟩ := tablePages_getElem? get
    exact ⟨start + k, short, getBlock, tablePages_path owned short⟩
  · refine others blockId fun mem => ?_
    rw [tablePages_map_fst owned] at mem
    obtain ⟨k, get⟩ := List.mem_iff_getElem?.mp mem
    rw [List.getElem?_drop, List.getElem?_take] at get
    split at get
    · exact absent (start + k) (Nat.le_add_right _ _) ‹_› get
    · cases get
  · by_cases mem : ∃ l, start ≤ l ∧ l < stop ∧ seq.blockTable[l]? = some blockId
    · obtain ⟨l, lower, upper, get⟩ := mem
      rcases clean l blockId lower upper get with none_recorded | own
      · rw [recorded] at none_recorded
        cases none_recorded
      · rw [sealed l blockId lower upper get, ← own, recorded]
    · rw [others blockId, recorded]
      intro listed
      rw [tablePages_map_fst owned] at listed
      obtain ⟨k, get⟩ := List.mem_iff_getElem?.mp listed
      rw [List.getElem?_drop, List.getElem?_take] at get
      split at get
      · exact mem ⟨start + k, Nat.le_add_right _ _, ‹_›, get⟩
      · cases get

/-! ## The radix path -/

theorem recordTokens_spec (pages : List (BlockId × BlockKey)) (bm : BlockManager) :
    SamePool bm (recordTokens pages bm) ∧ (recordTokens pages bm).radixCache = bm.radixCache ∧
      (∀ blockId, ((recordTokens pages bm).blocks blockId).hash =
        if blockId ∈ pages.map Prod.fst then none else (bm.blocks blockId).hash) := by
  induction pages generalizing bm with
  | nil => exact ⟨.refl bm, rfl, fun _ => rfl⟩
  | cons page pages ih =>
    obtain ⟨blockId, tokens⟩ := page
    obtain ⟨pool, radix, hash⟩ := ih (bm.updateBlock blockId none tokens)
    refine ⟨SamePool.trans ⟨updateBlock_refCount _, rfl, rfl, rfl, rfl⟩ pool, radix,
      fun other => ?_⟩
    rw [recordTokens, hash other]
    by_cases same : other = blockId
    · subst same
      simp [updateBlock_hash_self]
    · rw [updateBlock_of_ne none same]
      refine if_congr ?_ rfl rfl
      simp [same]

/-- Publishing in the radix cache. -/
theorem insertRadix_publishes (start : ℕ) (backend : cfg.prefixCacheBackend = .radix)
    (valid : bm.IndexValid cfg) {stop : ℕ} (owned : stop ≤ seq.blockTable.length)
    (distinct : seq.blockTable.Nodup)
    (clean : ∀ l blockId, start ≤ l → l < stop → seq.blockTable[l]? = some blockId →
      (bm.blocks blockId).hash = none)
    (fresh : ∀ l blockId, l < stop → seq.blockTable[l]? = some blockId →
      bm.entry cfg (seq.blockKeys cfg (l + 1)) = none → bm.Unindexed cfg blockId) :
    ∃ bm', (recordTokens (tablePages cfg seq start stop) bm).insertRadix cfg seq stop = .ok bm' ∧
      Publishes cfg bm bm' seq start stop := by
  obtain ⟨pool, radix, hash⟩ := recordTokens_spec (tablePages cfg seq start stop) bm
  have takeLength : (seq.blockKeys cfg stop).length = (seq.blockTable.take stop).length := by
    rw [Sequence.blockKeys_eq, Paging.length_pages, List.length_take]
    omega
  obtain ⟨cache, inserted, cacheValid, find⟩ := (valid.radix backend).insert takeLength
    ((List.take_sublist _ _).nodup distinct) fun l blockId get missing path found => by
      rw [List.getElem?_take] at get
      split at get
      · next short =>
        rw [Sequence.blockKeys_eq, Paging.take_pages (by omega), ← Sequence.blockKeys_eq,
          ← entry_radix backend] at missing
        exact fresh l blockId short get missing path ((entry_radix backend path).trans found)
      · cases get
  have noHash : ∀ blockId, (∃ l, start ≤ l ∧ l < stop ∧ seq.blockTable[l]? = some blockId) ↔
      blockId ∈ (tablePages cfg seq start stop).map Prod.fst := fun blockId => by
    rw [tablePages_map_fst owned, List.mem_iff_getElem?]
    constructor
    · rintro ⟨l, lower, upper, get⟩
      refine ⟨l - start, ?_⟩
      rwa [List.getElem?_drop, Nat.add_sub_cancel' lower, List.getElem?_take_of_lt upper]
    · rintro ⟨k, get⟩
      rw [List.getElem?_drop, List.getElem?_take] at get
      split at get
      · exact ⟨start + k, Nat.le_add_right _ _, ‹_›, get⟩
      · cases get
  refine ⟨{ recordTokens (tablePages cfg seq start stop) bm with radixCache := cache }, ?_,
    ⟨fun _ => cacheValid, fun hash => ?_⟩,
    ⟨pool.refCount, pool.freeBlockIds, pool.usedBlockIds, pool.pendingMatches,
      pool.pendingResumeMatches⟩, fun path blockId found => ?_, fun blockId absent => ?_,
    fun blockId h recorded => ?_, fun hash => ?_⟩
  · rw [insertRadix, radix, inserted]
    rfl
  · rw [backend] at hash
    cases hash
  · rw [entry_radix backend] at found ⊢
    change cache.find path = some blockId at found
    rw [find path, Option.or_eq_some_iff] at found
    refine found.imp_right fun ⟨_, new⟩ => ?_
    rw [RadixForest.insertedBlock] at new
    split at new
    · next inside =>
      obtain ⟨path_ne, isPrefix⟩ := inside
      have positive := List.length_pos_iff.mpr path_ne
      have bound := isPrefix.length_le
      rw [Sequence.blockKeys_eq, Paging.length_pages] at bound
      rw [List.getElem?_take_of_lt (by omega)] at new
      refine ⟨path.length - 1, by omega, new, ?_⟩
      rw [Nat.sub_add_cancel positive, Sequence.blockKeys_eq, ← Paging.take_pages bound,
        ← Sequence.blockKeys_eq]
      exact List.prefix_iff_eq_take.mp isPrefix
    · cases new
  · change ((recordTokens (tablePages cfg seq start stop) bm).blocks blockId).hash = _
    rw [hash blockId, if_neg]
    rw [← noHash]
    rintro ⟨l, lower, upper, get⟩
    exact absent l lower upper get
  · change ((recordTokens (tablePages cfg seq start stop) bm).blocks blockId).hash = _
    rw [hash blockId, if_neg, recorded]
    rw [← noHash]
    rintro ⟨l, lower, upper, get⟩
    rw [clean l blockId lower upper get] at recorded
    cases recorded
  · rw [backend] at hash
    cases hash

end BlockManager

/-! ## The memory invariant -/

/-- Publishing the complete pages of a request keeps the memory invariant. -/
theorem MemoryValid.publish {computed : Sequence → ℕ} {start stop : ℕ}
    (valid : MemoryValid cfg ids seqs bm kv computed) (known : i ∈ ids)
    (uncompressed : (seqs i).kvCompressed = false)
    (publishes : Publishes cfg bm bm' (seqs i) start stop)
    (stop_eq : stop = seq.numCachedTokens / cfg.blockSize)
    (start_le : start * cfg.blockSize ≤ (seqs i).numCachedTokens)
    (cached_le : (seqs i).numCachedTokens ≤ seq.numCachedTokens)
    (computed_le : seq.numCachedTokens ≤ computed (seqs i))
    (inRange : computed (seqs i) ≤ (seqs i).numTokens)
    (same : ({ seqs i with numCachedTokens := seq.numCachedTokens } : Sequence).SameKv seq)
    (computed_eq : computed seq ≤ computed (seqs i)) :
    MemoryValid cfg ids (Function.update seqs i seq) bm' kv computed := by
  have memory := valid.request i known
  obtain ⟨seqId, tokenIds, table, logical, -, compressed⟩ := same
  have refs := tableRefs_update_of_eq ids table
  have pages : seq.pages = (seqs i).pages := by rw [Sequence.pages, table, logical]; rfl
  have complete : ∀ l, l < stop → (l + 1) * cfg.blockSize ≤ seq.numCachedTokens := fun l short =>
    (Nat.le_div_iff_mul_le cfg.blockSize_pos).mp (stop_eq ▸ short)
  refine valid.update known (refs ▸ publishes.pool.pool valid.pool) publishes.index
    (fun path blockId found => ?_) ⟨fun blockId absent => ?_,
      fun blockId h _ recorded => publishes.recorded blockId h recorded,
      fun path blockId found => ?_⟩ (fun blockId mem => .inl (table ▸ mem)) ?_
  · rcases publishes.entries path blockId found with old | ⟨l, short, get, rfl⟩
    · exact .inl old
    · have bound := (complete l short).trans computed_le
      exact .inr ⟨valid.pool.lt_numBlocks blockId (tableRefs_pos known (List.mem_of_getElem? get)),
        memory.pageHolds uncompressed get bound inRange⟩
  · refine publishes.hash blockId fun l _ _ get => absent ?_
    exact List.mem_append_left _ (List.mem_of_getElem? get)
  · refine (publishes.entries path blockId found).imp_right ?_
    rintro ⟨l, short, get, rfl⟩
    exact List.mem_append_left _ (List.mem_of_getElem? get)
  · rw [refs]
    refine ⟨table ▸ memory.distinct, by rw [logical, table]; exact memory.sameLength,
      logical ▸ memory.increasing, ?_, ?_, ?_, ?_⟩
    · rw [logical, table, compressed]
      exact memory.exact
    · rw [pages]
      intro logical' blockId mem incomplete
      have get := (memory.mem_pages_iff uncompressed).mp mem
      have unpublished : ∀ l, l < stop → (seqs i).blockTable[l]? ≠ some blockId :=
        fun l short get' => by
          have same := (List.getElem?_inj (List.getElem?_eq_some_iff.mp get').1
            memory.distinct).mp (get'.trans get.symm)
          have := complete l short
          rw [same] at this
          omega
      obtain ⟨single, unindexed, noHash⟩ := memory.exclusive logical' blockId mem (by omega)
      refine ⟨single, fun path found => ?_, ?_⟩
      · rcases publishes.entries path blockId found with old | ⟨l, short, get', -⟩
        · exact unindexed path old
        · exact unpublished l short get'
      · rw [publishes.hash blockId fun l _ short => unpublished l short, noHash]
    · rw [pages, tokenIds, compressed, seqId]
      exact fun logical' blockId offset mem inPage short =>
        memory.content logical' blockId offset mem inPage (short.trans_le computed_eq)
    · rw [pages]
      intro backend _ logical' blockId mem complete'
      have get := (memory.mem_pages_iff uncompressed).mp mem
      simp only [Sequence.blockKeys_eq, tokenIds]
      by_cases old : logical' < start
      · have bound := Nat.mul_le_mul_right cfg.blockSize (Nat.succ_le_of_lt old)
        have hash := memory.sealed backend uncompressed logical' blockId mem
          (bound.trans start_le)
        rw [Sequence.blockKeys_eq, Paging.pages_succ, chainHash_append_singleton] at hash
        rw [Paging.pages_succ, chainHash_append_singleton]
        exact publishes.recorded blockId _ hash
      · refine publishes.sealed backend logical' blockId (by omega) ?_ get
        rw [stop_eq]
        exact (Nat.le_div_iff_mul_le cfg.blockSize_pos).mpr complete'

/-- A page outside the index stays unindexed until it is published. -/
theorem MemoryValid.unindexed_of_missing {computed : Sequence → ℕ}
    (valid : MemoryValid cfg ids seqs bm kv computed) (known : i ∈ ids)
    (uncompressed : (seqs i).kvCompressed = false) {l : ℕ} {blockId : BlockId}
    (get : (seqs i).blockTable[l]? = some blockId)
    (complete : (l + 1) * cfg.blockSize ≤ computed (seqs i))
    (inRange : computed (seqs i) ≤ (seqs i).numTokens)
    (missing : bm.entry cfg ((seqs i).blockKeys cfg (l + 1)) = none) :
    bm.Unindexed cfg blockId := fun path found => by
  have holds := (valid.cached path blockId found).2
  have own := (valid.request i known).pageHolds uncompressed get complete inRange
  rw [holds.unique own, missing] at found
  cases found

/-- The page before the first incomplete one carries the chained hash of the cached pages. -/
theorem SeqMemory.previousHash {refs : BlockId → ℕ} {n : ℕ}
    (memory : SeqMemory cfg bm kv refs n seq) (backend : cfg.prefixCacheBackend = .hash)
    (uncompressed : seq.kvCompressed = false)
    (owned : seq.numCachedTokens / cfg.blockSize ≤ seq.blockTable.length) :
    (if 0 < seq.numCachedTokens / cfg.blockSize then
      (seq.blockTable[seq.numCachedTokens / cfg.blockSize - 1]?).bind fun blockId =>
        (bm.blocks blockId).hash
    else none) = chainHash cfg (seq.blockKeys cfg (seq.numCachedTokens / cfg.blockSize)) := by
  by_cases first : 0 < seq.numCachedTokens / cfg.blockSize
  · have short : seq.numCachedTokens / cfg.blockSize - 1 < seq.blockTable.length := by omega
    have get := List.getElem?_eq_getElem short
    rw [if_pos first, get, Option.bind_some]
    have hash := memory.sealed backend uncompressed _ _
      ((memory.mem_pages_iff uncompressed).mpr get) (by
        rw [Nat.sub_add_cancel first]
        exact Nat.div_mul_le_self _ _)
    rwa [Nat.sub_add_cancel first] at hash
  · rw [if_neg first, Nat.eq_zero_of_not_pos first]
    rfl

/-- `hash_blocks` publishes the pages completed by the scheduled tokens and raises nothing. -/
theorem MemoryValid.hashBlocks {computed : Sequence → ℕ}
    (valid : MemoryValid cfg ids seqs bm kv computed) (known : i ∈ ids)
    (uncompressed : (seqs i).kvCompressed = false)
    (ran : computed (seqs i) = (seqs i).numCachedTokens + (seqs i).numScheduledTokens)
    (owned : (seqs i).numCachedTokens + (seqs i).numScheduledTokens ≤
      (seqs i).blockTable.length * cfg.blockSize)
    (inRange : (seqs i).numCachedTokens + (seqs i).numScheduledTokens ≤ (seqs i).numTokens) :
    ∃ bm', bm.hashBlocks cfg (seqs i) = .ok bm' ∧
      Publishes cfg bm bm' (seqs i) ((seqs i).numCachedTokens / cfg.blockSize)
        (((seqs i).numCachedTokens + (seqs i).numScheduledTokens) / cfg.blockSize) := by
  have memory := valid.request i known
  have positive := cfg.blockSize_pos
  have stop_le : ((seqs i).numCachedTokens + (seqs i).numScheduledTokens) / cfg.blockSize ≤
      (seqs i).blockTable.length := (Nat.div_le_div_right owned).trans
        (Nat.mul_div_cancel _ positive).le
  have clean : ∀ l blockId, (seqs i).numCachedTokens / cfg.blockSize ≤ l →
      (seqs i).blockTable[l]? = some blockId → (bm.blocks blockId).hash = none :=
    fun l blockId lower get => by
      have incomplete := (Nat.div_lt_iff_lt_mul positive).mp (Nat.lt_succ_of_le lower)
      exact (memory.exclusive l blockId ((memory.mem_pages_iff uncompressed).mpr get)
        incomplete).2.2
  simp only [BlockManager.hashBlocks, uncompressed, Bool.false_eq_true, if_false]
  by_cases nothing : (seqs i).numCachedTokens / cfg.blockSize =
      ((seqs i).numCachedTokens + (seqs i).numScheduledTokens) / cfg.blockSize
  · rw [if_pos nothing]
    exact ⟨bm, rfl, valid.index, .refl bm, fun _ _ found => .inl found, fun _ _ => rfl,
      fun _ _ recorded => recorded, fun _ l _ lower upper => by omega⟩
  rw [if_neg nothing, if_neg (by omega)]
  cases backend : cfg.prefixCacheBackend with
  | hash =>
    have start_le : (seqs i).numCachedTokens / cfg.blockSize ≤ (seqs i).blockTable.length :=
      (Nat.div_le_div_right (Nat.le_add_right _ _)).trans stop_le
    rw [memory.previousHash backend uncompressed start_le]
    exact ⟨_, rfl, publishHashes_publishes _ backend valid.index stop_le memory.distinct
      fun l blockId lower _ get => .inl (clean l blockId lower get)⟩
  | radix =>
    refine insertRadix_publishes _ backend valid.index stop_le memory.distinct
      (fun l blockId lower _ => clean l blockId lower) fun l blockId short get missing => ?_
    refine valid.unindexed_of_missing known uncompressed get ?_ (by omega) missing
    rw [ran]
    exact (Nat.le_div_iff_mul_le positive).mp short

/-- A request whose restored prefix has been committed. -/
def Sequence.committed (cfg : Config) (seq : Sequence) (numCachedBlocks : ℕ) : Sequence :=
  { seq with
    numCachedTokens := numCachedBlocks * cfg.blockSize
    numPhysicalCachedTokens := numCachedBlocks * cfg.blockSize }

/-- `commit_restored_prefix` publishes the imported pages and raises nothing. -/
theorem MemoryValid.commitRestoredPrefix {computed : Sequence → ℕ} {numLocal numCached : ℕ}
    (valid : MemoryValid cfg ids seqs bm kv computed) (known : i ∈ ids)
    (uncompressed : (seqs i).kvCompressed = false)
    (cachedLocal : (seqs i).numCachedTokens = numLocal * cfg.blockSize)
    (extends_local : numLocal < numCached) (tail : numCached < (seqs i).numBlocks cfg)
    (full : (seqs i).blockTable.length = (seqs i).numBlocks cfg)
    (imported : computed (seqs i) = numCached * cfg.blockSize)
    (inRange : numCached * cfg.blockSize ≤ (seqs i).numTokens)
    (computed_eq : computed ((seqs i).committed cfg numCached) = numCached * cfg.blockSize) :
    ∃ bm', bm.commitRestoredPrefix cfg (seqs i) numCached =
        .ok (bm', (seqs i).committed cfg numCached) ∧
      MemoryValid cfg ids (Function.update seqs i ((seqs i).committed cfg numCached)) bm' kv
        computed ∧
      SamePool bm bm' := by
  have memory := valid.request i known
  have positive := cfg.blockSize_pos
  have current : (seqs i).numCachedTokens / cfg.blockSize = numLocal := by
    rw [cachedLocal, Nat.mul_div_cancel _ positive]
  have cached_le : (seqs i).numCachedTokens ≤ numCached * cfg.blockSize := by
    rw [cachedLocal]
    exact Nat.mul_le_mul_right _ extends_local.le
  have finish : ∀ bm' start, start ≤ numLocal →
      Publishes cfg bm bm' (seqs i) start numCached →
        MemoryValid cfg ids (Function.update seqs i ((seqs i).committed cfg numCached)) bm' kv
          computed := fun bm' start start_le publishes => by
    refine valid.publish known uncompressed publishes ?_ ?_ cached_le imported.ge
      (imported.trans_le inRange) ⟨rfl, rfl, rfl, rfl, rfl, rfl⟩ (computed_eq.trans imported.symm).le
    · exact (Nat.mul_div_cancel _ positive).symm
    · rw [cachedLocal]
      exact Nat.mul_le_mul_right _ start_le
  have clean : ∀ l blockId, numLocal ≤ l → (seqs i).blockTable[l]? = some blockId →
      (bm.blocks blockId).hash = none := fun l blockId lower get => by
    refine (memory.exclusive l blockId ((memory.mem_pages_iff uncompressed).mpr get) ?_).2.2
    rw [cachedLocal]
    exact Nat.mul_lt_mul_of_pos_right (Nat.lt_succ_of_le lower) positive
  simp only [BlockManager.commitRestoredPrefix, current]
  rw [if_neg (by omega), if_neg (not_not.mpr full)]
  cases backend : cfg.prefixCacheBackend with
  | hash =>
    have publishes := publishHashes_publishes 0 backend valid.index
      (show numCached ≤ _ from full ▸ tail.le) memory.distinct fun l blockId _ _ get => by
        by_cases localPage : numLocal ≤ l
        · exact .inl (clean l blockId localPage get)
        · refine .inr (memory.sealed backend uncompressed l blockId
            ((memory.mem_pages_iff uncompressed).mpr get) ?_)
          rw [cachedLocal]
          exact Nat.mul_le_mul_right _ (by omega)
    exact ⟨_, rfl, finish _ 0 (Nat.zero_le _) publishes, publishes.pool⟩
  | radix =>
    obtain ⟨bm', inserted, publishes⟩ := insertRadix_publishes numLocal backend
      valid.index (show numCached ≤ _ from full ▸ tail.le) memory.distinct
      (fun l blockId lower _ => clean l blockId lower) fun l blockId short get missing => by
        refine valid.unindexed_of_missing known uncompressed get ?_ (imported.trans_le inRange)
          missing
        rw [imported]
        exact Nat.mul_le_mul_right _ short
    refine ⟨bm', ?_, finish _ numLocal (le_refl _) publishes, publishes.pool⟩
    simp only [inserted, Py.ok_bind]
    rfl

end NanoVllm
