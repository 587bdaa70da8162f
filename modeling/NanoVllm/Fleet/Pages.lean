import NanoVllm.Fleet

/-!
# Genuine pages

The descriptors of a prefix name its pages, and what is exported for them from a memory with the
bytes of the model is genuine. What is imported from genuine envelopes gives a memory these bytes
again. A stored catalog names what the catalog did.
-/

namespace NanoVllm

open Transfer RemoteRestore StorageBackend ModelRunner RemoteCatalog

variable {F : Type} {sharing : Sharing F} {member : Member sharing}

/-! ## Descriptors -/

theorem StorageBackend.uint32_of_encodePrefix {tokens : List Token} {data : List UInt8}
    (encoded : encodePrefix tokens = .ok data) :
    ∀ token ∈ tokens, 0 ≤ token ∧ token < 2 ^ 32 := by
  induction tokens generalizing data with
  | nil =>
    intro token mem
    cases mem
  | cons tokenId rest ih =>
    rcases encodePrefix_cons encoded with ⟨data', encodedRest, nonneg, fits, -⟩
    rw [List.forall_mem_cons]
    exact ⟨⟨nonneg, fits⟩, ih encodedRest⟩

theorem RemoteCatalog.RemotePageDescriptor.fields_of_new {objectKey identityDigest : String}
    {tpRank pageIndex : ℕ} {descriptor : RemoteCatalog.RemotePageDescriptor}
    (created : RemotePageDescriptor.new objectKey identityDigest tpRank pageIndex =
      .ok descriptor) :
    descriptor.objectKey = objectKey ∧ descriptor.identity = (identityDigest, tpRank) ∧
      descriptor.pageIndex = pageIndex := by
  unfold new at created
  split at created
  · split at created
    · cases created
    · cases created
      exact ⟨rfl, rfl, rfl⟩
  · cases created

namespace WritebackEnv

variable {cfg : Config} {env : WritebackEnv} {tokenIds : List Token}

theorem describePages_fields {indices : List ℕ}
    {descriptors : List RemoteCatalog.RemotePageDescriptor}
    (described : env.describePages cfg tokenIds indices = .ok descriptors) :
    descriptors.map RemoteCatalog.RemotePageDescriptor.pageIndex = indices ∧
      ∀ descriptor ∈ descriptors,
        makeKvPageKey env.blake2b env.kvCacheIdentity 0 descriptor.pageIndex
            (tokenIds.take ((descriptor.pageIndex + 1) * cfg.blockSize)) =
          .ok descriptor.objectKey ∧
        descriptor.identity = (env.kvCacheIdentity.digest env.blake2b, 0) := by
  induction indices generalizing descriptors with
  | nil =>
    cases described
    simp
  | cons index indices ih =>
    rcases Py.exists_of_bind described with ⟨objectKey, made, described⟩
    rcases Py.exists_of_bind described with ⟨created, new, described⟩
    rcases Py.exists_of_bind described with ⟨rest, describedRest, returned⟩
    cases returned
    rcases ih describedRest with ⟨places, each⟩
    rcases RemotePageDescriptor.fields_of_new new with ⟨isKey, identity, pageIndex⟩
    rw [List.map_cons, places, pageIndex, List.forall_mem_cons, isKey, identity, pageIndex]
    exact ⟨rfl, ⟨made, rfl⟩, each⟩

/-- The descriptors of a prefix with the pages which they name. -/
structure Described (env : WritebackEnv) (cfg : Config) (tokenIds : List Token) (numPages : ℕ)
    (blockKeys : List BlockKey) (descriptors : List RemoteCatalog.RemotePageDescriptor) : Prop where
  blockKeys : blockKeys = Paging.pages cfg.blockSize tokenIds numPages
  long : numPages * cfg.blockSize ≤ tokenIds.length
  places : descriptors.map RemoteCatalog.RemotePageDescriptor.pageIndex = List.range numPages
  each : ∀ descriptor ∈ descriptors,
    makeKvPageKey env.blake2b env.kvCacheIdentity 0 descriptor.pageIndex
        (tokenIds.take ((descriptor.pageIndex + 1) * cfg.blockSize)) =
      .ok descriptor.objectKey ∧
    descriptor.identity = (env.kvCacheIdentity.digest env.blake2b, 0)

theorem described {numPages : ℕ} {blockKeys : List BlockKey}
    {descriptors : List RemoteCatalog.RemotePageDescriptor}
    (returned : env.describeRemotePrefix cfg tokenIds numPages = .ok (blockKeys, descriptors)) :
    Described env cfg tokenIds numPages blockKeys descriptors := by
  unfold describeRemotePrefix at returned
  split at returned
  · cases returned
  · next long =>
    rcases Py.exists_of_bind returned with ⟨descriptors', describedPages, returned⟩
    cases returned
    rcases describePages_fields describedPages with ⟨places, each⟩
    rw [not_or, not_lt] at long
    exact ⟨rfl, long.2, places, each⟩

end WritebackEnv

theorem Member.eq_catalogKey {key : String} (isCatalog : member.catalogKey = some key) :
    key = sharing.catalogKey := by
  unfold catalogKey at isCatalog
  split at isCatalog
  · exact (Option.some.inj isCatalog).symm
  · cases isCatalog

namespace Sharing

/-- The descriptor at an index of a prefix names its page. -/
theorem describes_of_described {exported : BlockId → String → ℕ → Payload} {tokenIds : List Token}
    {numPages : ℕ} {blockKeys : List BlockKey}
    {descriptors : List RemoteCatalog.RemotePageDescriptor}
    (described : (member.writebackEnv exported).Described member.cfg tokenIds numPages blockKeys
      descriptors) : sharing.trust.Pages blockKeys descriptors := by
  intro i descriptor get
  have positive := member.cfg.blockSize_pos
  have place : (List.range numPages)[i]? = some descriptor.pageIndex := by
    rw [← described.places, List.getElem?_map, get]
    rfl
  rcases List.getElem?_eq_some_iff.mp place with ⟨short, isIndex⟩
  rw [List.length_range] at short
  rw [List.getElem_range] at isIndex
  rcases described.each descriptor (List.mem_of_getElem? get) with ⟨made, identity⟩
  rw [← isIndex] at made
  have pages := Nat.mul_le_mul_right member.cfg.blockSize (Nat.succ_le_of_lt short)
  have path : blockKeys.take (i + 1) = Paging.pages member.cfg.blockSize tokenIds (i + 1) := by
    rw [described.blockKeys, Paging.take_pages (Nat.succ_le_of_lt short)]
  have full : Paging.Full member.cfg.blockSize (blockKeys.take (i + 1)) := by
    rw [path]
    exact Paging.full_pages (pages.trans described.long)
  have flatten : (blockKeys.take (i + 1)).flatten =
      tokenIds.take ((i + 1) * member.cfg.blockSize) := by
    rw [path, Paging.flatten_pages]
  rcases makeKvPageKey_eq_ok made with ⟨-, -, data, -, -, encoded, -⟩
  have uint32 := uint32_of_encodePrefix encoded
  constructor
  · rw [path]
    exact List.ne_nil_of_length_pos (by simp)
  · rw [pageKey, flatten, ← isIndex]
    exact made
  · rw [path, Paging.length_pages, ← isIndex]
  · exact identity
  · intro block mem
    refine ⟨?_, ?_, ?_⟩
    · rw [← member.blockSize]
      exact full block mem
    · rw [← member.blockSize]
      exact positive
    · intro token inBlock
      apply uint32
      rw [← flatten]
      exact List.mem_flatten.mpr ⟨block, mem, inBlock⟩

/-! ## Objects -/

/-- The services may trust the objects of the backend. -/
theorem sound (sharing : Sharing F) (member : Member sharing) :
    sharing.trust.Sound sharing.shape.blockSize member.serviceConfig where
  checked path descriptor describes := describes.checked
  loads := by
    intro key bytes snapshot isCatalog genuine decoded
    exact genuine.catalog snapshot (Member.eq_catalogKey isCatalog) decoded
  saves := by
    intro key snapshot isCatalog good
    have same := Member.eq_catalogKey isCatalog
    constructor
    · intro pageIndex prefixTokenIds record made
      exact absurd same (makeKvPageKey_ne_catalogKey made sharing.catalogKey_made)
    · intro snapshot' _ decoded
      have written := RemoteCatalogSnapshotCodec.decode_encode sharing.catalogEnv snapshot
        (sharing.loadsBack snapshot)
      change RemoteCatalogSnapshotCodec.decode sharing.catalogEnv
        (RemoteCatalogSnapshotCodec.encode sharing.catalogEnv snapshot) = _ at decoded
      rw [written] at decoded
      cases decoded
      exact good

variable {kv : KvStore} {memory memory' : KvMemory sharing.shape} {blockId : BlockId}
  {pageIndex : ℕ} {tokens : List Token} {key : String} {envelope : Payload}

theorem pageBytes_of_represents (represents : kv.Represents sharing.model memory)
    (holds : ∀ offset < sharing.shape.blockSize,
      kv.Holds (blockId * sharing.shape.blockSize + offset)
        (tokens.take (pageIndex * sharing.shape.blockSize + offset + 1))) :
    sharing.PageBytes pageIndex tokens (memory.pageBytes blockId) := by
  intro offset inPage
  refine ⟨_, represents _ _ (holds offset inPage), fun plane inside => ?_⟩
  exact memory.page_pageBytes blockId inPage inside

/-- An envelope which is exported from a page with the bytes of the model is genuine. -/
theorem genuine_of_export
    (exported : exportKvPage sharing.pageEnv 0 memory blockId sharing.digest pageIndex =
      .ok envelope) (made : sharing.pageKey pageIndex tokens = .ok key)
    (bytes : sharing.PageBytes pageIndex tokens (memory.pageBytes blockId)) :
    sharing.Genuine key envelope where
  page := by
    intro pageIndex' tokens' record made' decoded
    rcases (makeKvPageKey_eq_iff made' made).mp rfl with ⟨-, -, sameIndex, rfl⟩
    cases Int.natCast_inj.mp sameIndex
    rw [payload_of_decode exported decoded]
    exact bytes
  catalog := by
    intro snapshot same
    exact absurd same (makeKvPageKey_ne_catalogKey made sharing.catalogKey_made)

end Sharing

/-! ## Write-backs -/

namespace WritebackEnv

variable {cfg : Config} {env : WritebackEnv} {trust : Trust} {pageSize : ℕ}
  {service service' : Service} {writebacks : List Writeback}

theorem trusted_writeBack (trusted : service.Trusted trust pageSize) {seq : Sequence}
    {completedPages : ℕ} {writeback : Option Writeback}
    (wrote : env.writeBack cfg service seq completedPages = (service', writeback))
    (pages : ∀ blockKeys descriptors,
      Described env cfg seq.tokenIds completedPages blockKeys descriptors →
        trust.Pages blockKeys descriptors)
    (good : ∀ written ∈ writeback,
      trust.Envelopes written.descriptors (env.envelopes written.pages)) :
    service'.Trusted trust pageSize := by
  unfold writeBack at wrote
  split at wrote
  · cases wrote
    exact trusted
  · next blockKeys descriptors returned =>
    have required := trusted.pagesRequiringWrite blockKeys descriptors
    split at wrote
    · next failed =>
      cases wrote
      rw [failed] at required
      exact required
    · next indices listed =>
      rw [listed] at required
      split at wrote
      · cases wrote
        exact required
      · next exported _ =>
        cases wrote
        exact required.submitWriteback (pages _ _ (described returned)) (good _ rfl)

/-- Write-backs of genuine pages keep what the service holds good. -/
theorem trusted_writeBackLoop (trusted : service.Trusted trust pageSize) {seqs : List Sequence}
    (looped : env.writeBackLoop cfg service seqs = .ok (service', writebacks))
    (pages : ∀ tokenIds numPages blockKeys descriptors,
      Described env cfg tokenIds numPages blockKeys descriptors →
        trust.Pages blockKeys descriptors)
    (good : ∀ written ∈ writebacks,
      trust.Envelopes written.descriptors (env.envelopes written.pages)) :
    service'.Trusted trust pageSize := by
  induction seqs generalizing service writebacks with
  | nil =>
    cases looped
    exact trusted
  | cons seq seqs ih =>
    unfold writeBackLoop at looped
    split at looped
    · exact ih trusted looped good
    · rcases Py.exists_of_bind looped with ⟨⟨previousPages, completedPages⟩, -, looped⟩
      dsimp only at looped
      split at looped
      · exact ih trusted looped good
      · rcases Py.exists_of_bind looped with ⟨⟨service₁, rest⟩, loopedRest, returned⟩
        cases returned
        simp only [List.mem_append, Option.mem_toList] at good
        apply ih _ loopedRest fun written mem => good written (.inr mem)
        exact trusted_writeBack trusted rfl (pages _ _) fun written mem => good written (.inl mem)

theorem trusted_enqueueRemoteWritebacks (trusted : service.Trusted trust pageSize)
    {seqs : List Sequence}
    (enqueued : env.enqueueRemoteWritebacks cfg service seqs = .ok (service', writebacks))
    (pages : ∀ tokenIds numPages blockKeys descriptors,
      Described env cfg tokenIds numPages blockKeys descriptors →
        trust.Pages blockKeys descriptors)
    (good : ∀ written ∈ writebacks,
      trust.Envelopes written.descriptors (env.envelopes written.pages)) :
    service'.Trusted trust pageSize := by
  unfold enqueueRemoteWritebacks at enqueued
  split at enqueued
  · exact trusted_writeBackLoop trusted enqueued pages good
  · cases enqueued
    exact trusted

end WritebackEnv

/-! ## Imports -/

/-- The pages of a list hold the entries of their prefixes, and all other pages are as before. -/
structure ImportsPages (sharing : Sharing F) (memory : KvMemory sharing.shape)
    (pages : List (NanoVllm.RemotePageDescriptor × BlockId)) (memory' : KvMemory sharing.shape) :
    Prop where
  page : ∀ page ∈ pages, ∀ offset < sharing.shape.blockSize,
    sharing.model.entry (page.1.prefixTokenIds.take
        (page.1.pageIndex * sharing.shape.blockSize + offset + 1)) =
      some (memory'.slot (page.2 * sharing.shape.blockSize + offset))
  others : ∀ slot, slot / sharing.shape.blockSize ∉ pages.map Prod.snd →
    memory'.slot slot = memory.slot slot

namespace Sharing

theorem block_of_offset {blockSize blockId offset : ℕ} (inPage : offset < blockSize) :
    (blockId * blockSize + offset) / blockSize = blockId := by
  rw [Nat.mul_comm, Nat.mul_add_div (Nat.zero_lt_of_lt inPage), Nat.div_eq_of_lt inPage,
    Nat.add_zero]

theorem importPages_spec {memory memory' : KvMemory sharing.shape}
    {entries : List ((NanoVllm.RemotePageDescriptor × BlockId) × Payload)}
    (imported : sharing.importPages memory entries = .ok memory')
    (distinct : ((entries.map Prod.fst).map Prod.snd).Nodup)
    (genuine : ∀ entry ∈ entries, ∃ key,
      sharing.pageKey entry.1.1.pageIndex entry.1.1.prefixTokenIds = .ok key ∧
        sharing.Genuine key entry.2) :
    ImportsPages sharing memory (entries.map Prod.fst) memory' := by
  induction entries generalizing memory with
  | nil =>
    cases imported
    constructor
    · intro page mem
      cases mem
    · intro slot _
      rfl
  | cons entry entries ih =>
    rcases entry with ⟨⟨page, blockId⟩, envelope⟩
    rw [List.map_cons, List.map_cons, List.nodup_cons] at distinct
    rw [List.forall_mem_cons] at genuine
    cases first : importKvPage sharing.pageEnv 0 memory blockId envelope sharing.digest
        page.pageIndex with
    | error error =>
      rw [importPages, first] at imported
      cases imported
    | ok memory₁ =>
      rw [importPages, first] at imported
      rcases importKvPage_eq_ok first with ⟨record, decoded, imports⟩
      rcases genuine.1 with ⟨key, made, isGenuine⟩
      have bytes := isGenuine.page _ _ record made decoded
      have rest := ih imported distinct.2 genuine.2
      constructor
      · rw [List.map_cons, List.forall_mem_cons]
        refine ⟨fun offset inPage => ?_, rest.page⟩
        rcases bytes offset inPage with ⟨slotBytes, entry, planes⟩
        have later := rest.others (blockId * sharing.shape.blockSize + offset) (by
          rw [block_of_offset inPage]
          exact distinct.1)
        rw [entry, later]
        congr 1
        apply SlotBytes.ext_planes
        intro plane inside
        rw [imports.page offset inPage plane inside]
        exact (planes plane inside).symm
      · intro slot outside
        rw [List.map_cons, List.map_cons, List.mem_cons, not_or] at outside
        rw [rest.others slot outside.2, imports.others slot outside.1]

end Sharing

/-- After an import the slots of the restored positions hold the bytes of their prefixes. -/
theorem ImportsPages.represents {state : PendingRestoreState} {seq : Sequence} {kv : KvStore}
    {memory memory' : KvMemory sharing.shape}
    (imports : ImportsPages sharing memory (state.pages.zip state.blockIds) memory')
    (valid : state.Valid member.cfg seq) (distinct : seq.blockTable.Nodup)
    (represents : kv.Represents sharing.model memory) :
    (kv.write (System.importWrites member.cfg state)).Represents sharing.model memory' := by
  have slots := valid.importWrites_distinct distinct
  have blockSize := member.blockSize
  intro slot tokens holds
  by_cases mem : slot ∈ (System.importWrites member.cfg state).map Prod.fst
  · rcases List.mem_map.mp mem with ⟨write, inWrites, rfl⟩
    rcases List.mem_flatMap.mp inWrites with ⟨⟨page, blockId⟩, inPages, inPage⟩
    rcases List.mem_map.mp inPage with ⟨offset, inRange, rfl⟩
    have entry := (KvStore.write_of_mem slots inWrites).symm.trans holds
    simp only [Option.some.injEq, KvSlot.mk.injEq, and_true] at entry
    rw [List.mem_range, blockSize] at inRange
    have imported := imports.page _ inPages offset inRange
    dsimp only at imported ⊢
    rw [← entry, blockSize]
    exact imported
  · have outside : slot / sharing.shape.blockSize ∉
        (state.pages.zip state.blockIds).map Prod.snd := by
      intro inBlocks
      apply mem
      rcases List.mem_map.mp inBlocks with ⟨page, inPages, block⟩
      have offset := Nat.mod_lt slot member.cfg.blockSize_pos
      refine List.mem_map.mpr ⟨_, List.mem_flatMap.mpr ⟨page, inPages, List.mem_map.mpr
        ⟨slot % member.cfg.blockSize, List.mem_range.mpr offset, rfl⟩⟩, ?_⟩
      dsimp only
      rw [block, ← blockSize, Nat.mul_comm]
      exact Nat.div_add_mod _ _
    rw [imports.others slot outside]
    apply represents
    exact (KvStore.write_of_not_mem mem).symm.trans holds

end NanoVllm
