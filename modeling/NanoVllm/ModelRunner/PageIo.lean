import NanoVllm.Basic
import NanoVllm.KvPage.RoundTrip
import NanoVllm.Library.Paging

/-!
# Pages of the KV cache as bytes

`TorchKVPageIO` copies the keys and the values which all layers have for one block from the cache to
bytes and back, and `export_kv_page` and `import_kv_page` put these bytes into an envelope. The cache
has the shape `[2, layers, blocks, block_size, kv_heads, head_dim]`. Here its first two axes are the
planes, and a cell is what the last two axes hold for a slot in a plane.

The checks of the constructor and the copies over pinned memory are left out.
-/

namespace NanoVllm

variable {F : Type}

/-- The sizes and the type of `kv_cache`, besides the number of its blocks. -/
structure KvCacheShape where
  numLayers : ℕ
  blockSize : ℕ
  numKvHeads : ℕ
  headDim : ℕ
  dtype : DType
  positive : 0 < numLayers ∧ 0 < blockSize ∧ 0 < numKvHeads ∧ 0 < headDim

namespace KvCacheShape

variable {shape : KvCacheShape}

/-- The keys and the values of each layer. -/
def numPlanes (shape : KvCacheShape) : ℕ := 2 * shape.numLayers

/-- The bytes of a slot in a plane. -/
def cellBytes (shape : KvCacheShape) : ℕ :=
  shape.numKvHeads * shape.headDim * shape.dtype.bytes.toNat

/-- The bytes of a block. -/
def nbytes (shape : KvCacheShape) : ℕ := shape.numPlanes * shape.blockSize * shape.cellBytes

theorem layout_positive (shape : KvCacheShape) (ops : FloatOps F) :
    (PyNumber.minimum ops (.int shape.numLayers : PyNumber F) [.int shape.blockSize,
      .int shape.numKvHeads, .int shape.headDim]).le ops (.int 0) = false := by
  have least := @PyNumber.minimum_int F ops shape.numLayers
    [(shape.blockSize : ℤ), (shape.numKvHeads : ℤ), (shape.headDim : ℤ)]
  have positive := shape.positive
  simp only [List.map_cons, List.map_nil, List.foldl_cons, List.foldl_nil] at least
  rw [least, ← Bool.not_eq_true, PyNumber.le_int, not_le]
  simp only [lt_min_iff]
  omega

/-- The layout of `TorchKVPageIO`. -/
def layout (shape : KvCacheShape) (ops : FloatOps F) : KVPageLayout ops where
  numLayers := .int shape.numLayers
  blockSize := .int shape.blockSize
  numKvHeads := .int shape.numKvHeads
  headDim := .int shape.headDim
  dtype := shape.dtype
  positive := shape.layout_positive ops

theorem nbytes_layout (shape : KvCacheShape) (ops : FloatOps F) :
    (shape.layout ops).nbytes = .ok (.int shape.nbytes) := by
  have bytes : shape.dtype.bytes = (shape.dtype.bytes.toNat : ℤ) := by
    cases shape.dtype <;> rfl
  have product := @KVPageLayout.nbytes_int F ops (shape.layout ops) _ _ _ _ rfl rfl rfl rfl
  rw [product]
  congr 2
  change 2 * (shape.numLayers : ℤ) * shape.blockSize * shape.numKvHeads * shape.headDim *
    shape.dtype.bytes = _
  rw [bytes, nbytes, numPlanes, cellBytes]
  push_cast
  ring

end KvCacheShape

/-- What goes wrong when a page is exported or imported. -/
inductive KvPageIoError where
  | indexError (message : String)
  | page (error : KVPageError)
  deriving DecidableEq, Repr

/-- What the cache holds for a slot. -/
@[ext] structure SlotBytes (shape : KvCacheShape) where
  plane : ℕ → List UInt8
  sized : ∀ p, (plane p).length = if p < shape.numPlanes then shape.cellBytes else 0

/-- The contents of `kv_cache`. -/
structure KvMemory (shape : KvCacheShape) where
  numBlocks : ℕ
  slot : ℕ → SlotBytes shape

namespace KvMemory

variable {shape : KvCacheShape} {payload : List UInt8}

/-- The bytes of a block, plane after plane. -/
def pageBytes (memory : KvMemory shape) (blockId : BlockId) : List UInt8 :=
  ((List.range (shape.numPlanes * shape.blockSize)).map fun index =>
    (memory.slot (blockId * shape.blockSize + index % shape.blockSize)).plane
      (index / shape.blockSize)).flatten

/-- `export_page`. -/
def exportPage (memory : KvMemory shape) (blockId : BlockId) :
    Except KvPageIoError (List UInt8) :=
  if memory.numBlocks ≤ blockId then
    .error (.indexError ("KV block id " ++ toString blockId ++ " is out of range"))
  else .ok (memory.pageBytes blockId)

theorem index_lt (slot : ℕ) {plane : ℕ} (inside : plane < shape.numPlanes) :
    plane * shape.blockSize + slot % shape.blockSize < shape.numPlanes * shape.blockSize := by
  have offset := Nat.mod_lt slot shape.positive.2.1
  have room := Nat.mul_le_mul_right shape.blockSize (Nat.succ_le_of_lt inside)
  rw [Nat.succ_mul] at room
  omega

/-- The bytes of a slot among those of its page. -/
def slotPlane (shape : KvCacheShape) (payload : List UInt8) (slot plane : ℕ) : List UInt8 :=
  if plane < shape.numPlanes then
    Paging.page shape.cellBytes payload (plane * shape.blockSize + slot % shape.blockSize)
  else []

theorem length_slotPlane (long : payload.length = shape.nbytes) (slot plane : ℕ) :
    (slotPlane shape payload slot plane).length =
      if plane < shape.numPlanes then shape.cellBytes else 0 := by
  unfold slotPlane
  split
  · next inside => exact Paging.length_page long.ge (index_lt slot inside)
  · rfl

/-- `import_page`. -/
def importPage (memory : KvMemory shape) (blockId : BlockId) (payload : List UInt8) :
    Except KvPageIoError (KvMemory shape) :=
  if long : payload.length = shape.nbytes then
    if memory.numBlocks ≤ blockId then
      .error (.indexError ("KV block id " ++ toString blockId ++ " is out of range"))
    else
      .ok { memory with
        slot := fun slot =>
          if slot / shape.blockSize = blockId then
            ⟨slotPlane shape payload slot, length_slotPlane long slot⟩
          else memory.slot slot }
  else .error (.page (.compatibility "KV page payload has the wrong size"))

end KvMemory

namespace ModelRunner

variable {shape : KvCacheShape}

/-- `_DEFAULT_MAX_PAYLOAD_BYTES`. -/
def maxPayloadBytes : ℤ := 8 * 1024 ^ 3

/-- `export_kv_page`. -/
def exportKvPage (env : PageEnv F) (rank : ℕ) (memory : KvMemory shape) (blockId : BlockId)
    (identityDigest : String) (pageIndex : ℕ) : Except KvPageIoError (List UInt8) := do
  let payload ← memory.exportPage blockId
  (do
    let metadata ← KVPageMetadata.new (.string identityDigest) (.number (.int rank))
      (.number (.int pageIndex)) (shape.layout env.ops)
    KVPageCodec.encode env metadata payload).mapError .page

/-- What `import_kv_page` expects of an envelope. -/
def expectations (env : PageEnv F) (rank : ℕ) (shape : KvCacheShape) (identityDigest : String)
    (pageIndex : ℕ) : PageExpectations env.ops where
  identityDigest := some identityDigest
  tpRank := some (.int rank)
  pageIndex := some (.int pageIndex)
  layout := some (shape.layout env.ops)

/-- `import_kv_page`, without the size which it returns. -/
def importKvPage (env : PageEnv F) (rank : ℕ) (memory : KvMemory shape) (blockId : BlockId)
    (envelope : List UInt8) (identityDigest : String) (pageIndex : ℕ) :
    Except KvPageIoError (KvMemory shape) := do
  let record ← (KVPageCodec.decode env envelope
    (expectations env rank shape identityDigest pageIndex) maxPayloadBytes).mapError .page
  memory.importPage blockId record.payload

end ModelRunner

/-! ## Bytes of a page -/

theorem SlotBytes.ext_planes {shape : KvCacheShape} {bytes bytes' : SlotBytes shape}
    (same : ∀ plane < shape.numPlanes, bytes.plane plane = bytes'.plane plane) : bytes = bytes' := by
  apply SlotBytes.ext
  funext plane
  by_cases inside : plane < shape.numPlanes
  · exact same plane inside
  · have none := bytes.sized plane
    have none' := bytes'.sized plane
    rw [if_neg inside] at none none'
    rw [List.eq_nil_of_length_eq_zero none, List.eq_nil_of_length_eq_zero none']

namespace KvMemory

variable {shape : KvCacheShape} {memory memory' other other' : KvMemory shape}
  {blockId blockId' : BlockId} {payload : List UInt8}

/-- The planes of a page are of one size. -/
theorem full_pageBytes (memory : KvMemory shape) (blockId : BlockId) :
    Paging.Full shape.cellBytes ((List.range (shape.numPlanes * shape.blockSize)).map fun index =>
      (memory.slot (blockId * shape.blockSize + index % shape.blockSize)).plane
        (index / shape.blockSize)) := by
  intro cell mem
  rcases List.mem_map.mp mem with ⟨index, inside, rfl⟩
  have plane : index / shape.blockSize < shape.numPlanes :=
    Nat.div_lt_of_lt_mul (by rw [Nat.mul_comm]; exact List.mem_range.mp inside)
  rw [SlotBytes.sized, if_pos plane]

theorem length_pageBytes (memory : KvMemory shape) (blockId : BlockId) :
    (memory.pageBytes blockId).length = shape.nbytes := by
  rw [pageBytes, (memory.full_pageBytes blockId).length_flatten, List.length_map,
    List.length_range, KvCacheShape.nbytes]

/-- What the bytes of a page hold for a slot in a plane. -/
theorem page_pageBytes (memory : KvMemory shape) (blockId : BlockId) {offset plane : ℕ}
    (inPage : offset < shape.blockSize) (inside : plane < shape.numPlanes) :
    Paging.page shape.cellBytes (memory.pageBytes blockId) (plane * shape.blockSize + offset) =
      (memory.slot (blockId * shape.blockSize + offset)).plane plane := by
  have bound := index_lt offset inside
  rw [Nat.mod_eq_of_lt inPage] at bound
  have low : (plane * shape.blockSize + offset) % shape.blockSize = offset := by
    rw [Nat.mul_comm, Nat.mul_add_mod, Nat.mod_eq_of_lt inPage]
  have high : (plane * shape.blockSize + offset) / shape.blockSize = plane := by
    rw [Nat.mul_comm, Nat.mul_add_div shape.positive.2.1, Nat.div_eq_of_lt inPage, Nat.add_zero]
  rw [pageBytes, (memory.full_pageBytes blockId).page_flatten (by simpa using bound),
    List.getElem_map, List.getElem_range, low, high]

/-- A page holds some bytes, and all other pages are as before. -/
structure Imports (memory : KvMemory shape) (blockId : BlockId) (payload : List UInt8)
    (memory' : KvMemory shape) : Prop where
  page : ∀ offset < shape.blockSize, ∀ plane < shape.numPlanes,
    (memory'.slot (blockId * shape.blockSize + offset)).plane plane =
      Paging.page shape.cellBytes payload (plane * shape.blockSize + offset)
  others : ∀ slot, slot / shape.blockSize ≠ blockId → memory'.slot slot = memory.slot slot
  numBlocks : memory'.numBlocks = memory.numBlocks

theorem imports_of_importPage (imported : memory.importPage blockId payload = .ok memory') :
    payload.length = shape.nbytes ∧ blockId < memory.numBlocks ∧
      Imports memory blockId payload memory' := by
  unfold importPage at imported
  split at imported
  · next long =>
    split at imported
    · cases imported
    · next inRange =>
      cases imported
      refine ⟨long, not_le.mp inRange, ?_, ?_, rfl⟩
      · intro offset inPage plane inside
        have block : (blockId * shape.blockSize + offset) / shape.blockSize = blockId := by
          rw [Nat.mul_comm, Nat.mul_add_div shape.positive.2.1, Nat.div_eq_of_lt inPage,
            Nat.add_zero]
        have low : (blockId * shape.blockSize + offset) % shape.blockSize = offset := by
          rw [Nat.mul_comm, Nat.mul_add_mod, Nat.mod_eq_of_lt inPage]
        dsimp only
        rw [if_pos block]
        change slotPlane _ _ _ _ = _
        rw [slotPlane, if_pos inside, low]
      · intro slot outside
        exact if_neg outside
  · cases imported

theorem importPage_ok (memory : KvMemory shape) (long : payload.length = shape.nbytes)
    (inRange : blockId < memory.numBlocks) :
    ∃ memory', memory.importPage blockId payload = .ok memory' ∧
      Imports memory blockId payload memory' := by
  cases imported : memory.importPage blockId payload with
  | error error =>
    rw [importPage, dif_pos long, if_neg (not_le.mpr inRange)] at imported
    cases imported
  | ok memory' => exact ⟨memory', rfl, (imports_of_importPage imported).2.2⟩

/-- The bytes of a page are those which were imported last. -/
theorem Imports.pageBytes (long : payload.length = shape.nbytes)
    (imports : Imports memory blockId payload memory') : memory'.pageBytes blockId = payload := by
  have cells : memory'.pageBytes blockId =
      (Paging.pages shape.cellBytes payload (shape.numPlanes * shape.blockSize)).flatten := by
    rw [KvMemory.pageBytes, Paging.pages]
    congr 1
    apply List.map_congr_left
    intro index mem
    have plane : index / shape.blockSize < shape.numPlanes :=
      Nat.div_lt_of_lt_mul (by rw [Nat.mul_comm]; exact List.mem_range.mp mem)
    have whole : index / shape.blockSize * shape.blockSize + index % shape.blockSize = index := by
      rw [Nat.mul_comm]
      exact Nat.div_add_mod _ _
    rw [imports.page _ (Nat.mod_lt index shape.positive.2.1) _ plane, whole]
  have all : payload.length ≤ shape.numPlanes * shape.blockSize * shape.cellBytes := long.le
  rw [cells, Paging.flatten_pages, List.take_of_length_le all]

/-- A page holds in all layers what another one does, and all other pages are as before. -/
structure Copies (memory : KvMemory shape) (blockId : BlockId) (other : KvMemory shape)
    (blockId' : BlockId) (other' : KvMemory shape) : Prop where
  page : ∀ offset < shape.blockSize,
    other'.slot (blockId' * shape.blockSize + offset) =
      memory.slot (blockId * shape.blockSize + offset)
  others : ∀ slot, slot / shape.blockSize ≠ blockId' → other'.slot slot = other.slot slot

theorem Imports.copies (imports : Imports other blockId' (memory.pageBytes blockId) other') :
    Copies memory blockId other blockId' other' where
  page := by
    intro offset inPage
    apply SlotBytes.ext_planes
    intro plane inside
    rw [imports.page offset inPage plane inside, memory.page_pageBytes blockId inPage inside]
  others := imports.others

end KvMemory

/-! ## Envelopes of pages -/

namespace KVPageCodec

variable {env : PageEnv F} {metadata : KVPageMetadata env.ops}
  {blob header header' payload payload' : List UInt8}

theorem envelope_of_encode (encoded : encode env metadata payload = .ok blob) :
    IsEnvelope env blob (env.dumps metadata.toDict) payload := by
  rcases ok_of_bind encoded with ⟨nbytes, -, encoded⟩
  rcases ok_of_ite encoded with ⟨-, encoded⟩
  rcases ok_of_ite encoded with ⟨-, encoded⟩
  rcases ok_of_bind encoded with ⟨head, packed, encoded⟩
  cases encoded
  refine ⟨head, packed, ?_⟩
  simp only [List.append_assoc]

theorem parseHeader_dumps
    (roundTrips : env.loads (env.dumps metadata.toDict) = .ok metadata.toDict) :
    parseHeader env (env.dumps metadata.toDict) = .ok metadata.toDict := by
  have ascii : ((env.dumps metadata.toDict).all fun byte => byte < 128) = true := by
    rw [List.all_eq_true]
    intro byte mem
    exact decide_eq_true (env.dumps_ascii _ byte mem)
  rw [parseHeader, if_pos ascii, roundTrips]

/-- The pieces of an envelope are determined by its bytes. -/
theorem IsEnvelope.unique (envelope : IsEnvelope env blob header payload)
    (envelope' : IsEnvelope env blob header' payload') : header = header' ∧ payload = payload' := by
  rcases envelope.pieces with ⟨head, packed, shape⟩
  rcases envelope'.pieces with ⟨head', packed', shape'⟩
  have long := PageHead.length_pack rfl packed
  have long' := PageHead.length_pack rfl packed'
  rcases List.append_inj (shape.symm.trans shape') (long.trans long'.symm) with ⟨rfl, rest⟩
  have sizes : headOf header payload = headOf header' payload' :=
    (PageHead.unpack_pack rfl packed).symm.trans (PageHead.unpack_pack rfl packed')
  rcases List.append_inj rest (congrArg PageHead.headerSize sizes) with ⟨rfl, rest⟩
  exact ⟨rfl, (List.append_inj rest (congrArg PageHead.payloadSize sizes)).1⟩

end KVPageCodec

namespace ModelRunner

variable {shape : KvCacheShape} {env : PageEnv F} {rank rank' pageIndex pageIndex' : ℕ}
  {memory other other' : KvMemory shape} {blockId blockId' : BlockId}
  {identityDigest identityDigest' : String} {envelope : List UInt8}

theorem ok_of_mapError {α ε ε' : Type} {result : Except ε α} {wrap : ε → ε'} {value : α}
    (ok : result.mapError wrap = .ok value) : result = .ok value := by
  cases result with
  | error error => cases ok
  | ok value' =>
    cases ok
    rfl

theorem int_nonneg (ops : FloatOps F) (n : ℕ) :
    (PyNumber.int n : PyNumber F).lt ops (.int 0) = false := by
  rw [← Bool.not_eq_true, PyNumber.lt_int]
  omega

/-- The metadata with which a page is exported. -/
def pageMetadata (env : PageEnv F) (rank : ℕ) (shape : KvCacheShape) (identityDigest : String)
    (pageIndex : ℕ) (identity : identityDigest ≠ "" ∧ isAscii identityDigest = true) :
    KVPageMetadata env.ops where
  identityDigest := identityDigest
  tpRank := .int rank
  pageIndex := .int pageIndex
  layout := shape.layout env.ops
  identity := identity
  nonneg := ⟨int_nonneg env.ops rank, int_nonneg env.ops pageIndex⟩

theorem exportKvPage_eq_ok
    (exported : exportKvPage env rank memory blockId identityDigest pageIndex = .ok envelope) :
    blockId < memory.numBlocks ∧
      ∃ identity, KVPageCodec.encode env
        (pageMetadata env rank shape identityDigest pageIndex identity)
          (memory.pageBytes blockId) = .ok envelope := by
  cases page : memory.exportPage blockId with
  | error error =>
    rw [exportKvPage, page] at exported
    cases exported
  | ok payload =>
    rw [exportKvPage, page] at exported
    rcases KVPageCodec.ok_of_bind (ok_of_mapError exported) with ⟨metadata, made, encoded⟩
    unfold KvMemory.exportPage at page
    split at page
    · cases page
    · next inRange =>
      cases page
      unfold KVPageMetadata.new at made
      dsimp only [Json.number?] at made
      split at made
      · next identity =>
        split at made
        · cases made
          exact ⟨not_le.mp inRange, identity, encoded⟩
        · cases made
      · cases made

/-- Whatever is decoded from an exported page are the bytes of the page. -/
theorem payload_of_decode
    (exported : exportKvPage env rank memory blockId identityDigest pageIndex = .ok envelope)
    {expected : PageExpectations env.ops} {limit : ℤ} {record : KVPageRecord env.ops}
    (decoded : KVPageCodec.decode env envelope expected limit = .ok record) :
    record.payload = memory.pageBytes blockId := by
  rcases exportKvPage_eq_ok exported with ⟨-, _, encoded⟩
  rcases KVPageCodec.envelope_of_decode decoded with ⟨header, payload, isEnvelope, body⟩
  rw [(KVPageCodec.decodeBody_eq body).1]
  exact (isEnvelope.unique (KVPageCodec.envelope_of_encode encoded)).2

/-- What is imported are the bytes of the record in the envelope. -/
theorem importKvPage_eq_ok
    (imported : importKvPage env rank other blockId' envelope identityDigest pageIndex =
      .ok other') :
    ∃ record, KVPageCodec.decode env envelope
        (expectations env rank shape identityDigest pageIndex) maxPayloadBytes = .ok record ∧
      KvMemory.Imports other blockId' record.payload other' := by
  cases decoded : KVPageCodec.decode env envelope
      (expectations env rank shape identityDigest pageIndex) maxPayloadBytes with
  | error error =>
    rw [importKvPage, decoded] at imported
    cases imported
  | ok record =>
    rw [importKvPage, decoded] at imported
    exact ⟨record, rfl, (KvMemory.imports_of_importPage imported).2.2⟩

theorem expectations_agree (identity : identityDigest ≠ "" ∧ isAscii identityDigest = true) :
    (expectations env rank shape identityDigest pageIndex).Agrees
      (pageMetadata env rank shape identityDigest pageIndex identity) := by
  constructor
  · rintro _ ⟨⟩
    rfl
  · rintro _ ⟨⟩
    exact PyNumber.eq_int.mpr rfl
  · rintro _ ⟨⟩
    exact PyNumber.eq_int.mpr rfl
  · rintro _ ⟨⟩
    simp [KVPageLayout.eq, pageMetadata, KvCacheShape.layout, PyNumber.eq_int]

/-- The page of an envelope is the only one which it can be imported as. -/
theorem eq_of_agrees {identity : identityDigest ≠ "" ∧ isAscii identityDigest = true}
    (agrees : (expectations env rank' shape identityDigest' pageIndex').Agrees
      (pageMetadata env rank shape identityDigest pageIndex identity)) :
    rank' = rank ∧ identityDigest' = identityDigest ∧ pageIndex' = pageIndex := by
  have sameRank := PyNumber.eq_int.mp (agrees.tpRank _ rfl)
  have sameIndex := PyNumber.eq_int.mp (agrees.pageIndex _ rfl)
  exact ⟨Int.natCast_inj.mp sameRank, agrees.identityDigest _ rfl, Int.natCast_inj.mp sameIndex⟩

/--
A page of one cache is exported and imported into a page of another one bit by bit, in all layers
and without a change of the other pages, and it is exported from there as the same envelope. No
envelope is imported as another page than the one which it was exported as.
-/
theorem page_moves (identity : identityDigest ≠ "" ∧ isAscii identityDigest = true)
    (roundTrips : env.loads (env.dumps
      (pageMetadata env rank shape identityDigest pageIndex identity).toDict) =
        .ok (pageMetadata env rank shape identityDigest pageIndex identity).toDict)
    (small : (env.dumps (pageMetadata env rank shape identityDigest pageIndex identity).toDict
      ).length ≤ KVPageCodec.maxHeaderBytes)
    (limit : (shape.nbytes : ℤ) ≤ maxPayloadBytes) (inRange : blockId < memory.numBlocks) :
    ∃ envelope, exportKvPage env rank memory blockId identityDigest pageIndex = .ok envelope ∧
      ∀ (other : KvMemory shape) (blockId' : BlockId),
        (blockId' < other.numBlocks → ∃ other',
          importKvPage env rank other blockId' envelope identityDigest pageIndex = .ok other' ∧
          KvMemory.Copies memory blockId other blockId' other' ∧
          exportKvPage env rank other' blockId' identityDigest pageIndex = .ok envelope) ∧
        ∀ rank' identityDigest' pageIndex' other',
          importKvPage env rank' other blockId' envelope identityDigest' pageIndex' = .ok other' →
            rank' = rank ∧ identityDigest' = identityDigest ∧ pageIndex' = pageIndex := by
  have long := memory.length_pageBytes blockId
  have nbytes := shape.nbytes_layout env.ops
  have short : shape.nbytes < 2 ^ 64 := by
    rw [maxPayloadBytes] at limit
    omega
  have positive : (0 : ℤ) < maxPayloadBytes := by decide
  rcases KVPageCodec.encode_eq nbytes long short small with ⟨envelope, encoded, isEnvelope⟩
  have exports : ∀ {cache : KvMemory shape} {block : BlockId}, block < cache.numBlocks →
      cache.pageBytes block = memory.pageBytes blockId →
        exportKvPage env rank cache block identityDigest pageIndex = .ok envelope := by
    intro cache block inside same
    have new := KVPageMetadata.new_eq
      (pageMetadata env rank shape identityDigest pageIndex identity)
    change KVPageMetadata.new (.string identityDigest) (.number (.int rank))
      (.number (.int pageIndex)) (shape.layout env.ops) = _ at new
    rw [exportKvPage, KvMemory.exportPage, if_neg (not_le.mpr inside), same]
    change Except.mapError _ (_ >>= _) = _
    rw [new]
    change Except.mapError KvPageIoError.page (KVPageCodec.encode env
      (pageMetadata env rank shape identityDigest pageIndex identity) _) = _
    rw [encoded]
    rfl
  have decodes : ∀ expected, KVPageCodec.decode env envelope expected maxPayloadBytes =
      KVPageCodec.decodeBody env expected shape.nbytes
        (env.dumps (pageMetadata env rank shape identityDigest pageIndex identity).toDict)
        (memory.pageBytes blockId) := by
    intro expected
    rw [← long] at limit ⊢
    exact KVPageCodec.decode_of_envelope isEnvelope small positive limit
  refine ⟨envelope, exports inRange rfl, fun other blockId' => ⟨fun inside => ?_, ?_⟩⟩
  · rcases other.importPage_ok long inside with ⟨other', imported, imports⟩
    have decoded := @KVPageCodec.decodeBody_toDict F env (memory.pageBytes blockId) _ _ _
      roundTrips nbytes (expectations_agree identity)
    refine ⟨other', ?_, imports.copies, exports ?_ (imports.pageBytes long)⟩
    · rw [importKvPage, decodes, decoded]
      exact imported
    · rw [imports.numBlocks]
      exact inside
  · intro rank' identityDigest' pageIndex' other' imported
    rcases importKvPage_eq_ok imported with ⟨record, decoded, -⟩
    rw [decodes] at decoded
    rcases KVPageCodec.decodeBody_eq decoded with ⟨-, ⟨value, parsed, read⟩, -, agrees⟩
    have same := KVPageCodec.parseHeader_dumps roundTrips
    rw [same] at parsed
    cases parsed
    rw [KVPageMetadata.fromDict_toDict] at read
    rw [← Except.ok.inj read] at agrees
    exact eq_of_agrees agrees

/-- The shape of `smallLayout`. -/
def smallShape : KvCacheShape where
  numLayers := 1
  blockSize := 1
  numKvHeads := 1
  headDim := 1
  dtype := .float16
  positive := ⟨Nat.one_pos, Nat.one_pos, Nat.one_pos, Nat.one_pos⟩

theorem length_numbered (slot plane : ℕ) :
    (if plane < smallShape.numPlanes then [slot.toUInt8, slot.toUInt8] else []).length =
      if plane < smallShape.numPlanes then smallShape.cellBytes else 0 := by
  split <;> rfl

/-- Two pages, which hold their numbers. -/
def numberedMemory : KvMemory smallShape where
  numBlocks := 2
  slot := fun slot =>
    ⟨fun plane => if plane < smallShape.numPlanes then [slot.toUInt8, slot.toUInt8] else [],
      length_numbered slot⟩

theorem page_moves_small : ∃ envelope other',
    exportKvPage KVPageCodec.smallEnv 0 numberedMemory 1 "a" 0 = .ok envelope ∧
      importKvPage KVPageCodec.smallEnv 0 numberedMemory 0 envelope "a" 0 = .ok other' ∧
      KvMemory.Copies numberedMemory 1 numberedMemory 0 other' := by
  have identity : "a" ≠ "" ∧ isAscii "a" = true := by decide
  have small : (KVPageCodec.smallEnv.dumps
      (pageMetadata KVPageCodec.smallEnv 0 smallShape "a" 0 identity).toDict).length ≤
        KVPageCodec.maxHeaderBytes := by
    change KVPageCodec.smallText.toUTF8.data.toList.length ≤ KVPageCodec.maxHeaderBytes
    decide +kernel
  have limit : (smallShape.nbytes : ℤ) ≤ maxPayloadBytes := by decide
  have inRange : 1 < numberedMemory.numBlocks := Nat.one_lt_two
  rcases page_moves identity rfl small limit inRange with ⟨envelope, exported, moves⟩
  rcases (moves numberedMemory 0).1 Nat.two_pos with ⟨other', imported, copies, -⟩
  exact ⟨envelope, other', exported, imported, copies⟩

end ModelRunner

end NanoVllm
