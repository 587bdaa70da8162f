import NanoVllm.KvPage

/-!
# The page envelope round trip

`decode` succeeds exactly on envelopes: a prefix which names the sizes of the header and the
payload, these two, and the checksum of everything before it. What remains is the header, which
`to_dict` and `from_dict` carry from one process to the other.
-/

namespace NanoVllm

variable {F : Type}

/-! ## The prefix -/

namespace PageHead

variable {head : PageHead} {bytes : List UInt8}

theorem pack_eq (packed : head.pack = .ok bytes) :
    (head.version < 2 ^ 16 ∧ head.headerSize < 2 ^ 32 ∧ head.payloadSize < 2 ^ 64) ∧
      bytes = head.magic ++ (Bytes.littleEndian 2 head.version ++
        (Bytes.littleEndian 4 head.headerSize ++ Bytes.littleEndian 8 head.payloadSize)) := by
  unfold pack at packed
  split at packed
  · next fits =>
    cases packed
    refine ⟨fits, ?_⟩
    simp only [List.append_assoc]
  · cases packed

theorem length_pack (magic : head.magic.length = 8) (packed : head.pack = .ok bytes) :
    bytes.length = size := by
  rw [(pack_eq packed).2]
  simp [magic, size]

theorem unpack_pack (magic : head.magic.length = 8) (packed : head.pack = .ok bytes) :
    unpack bytes = head := by
  obtain ⟨⟨version, header, payload⟩, rfl⟩ := pack_eq packed
  have widths := @Bytes.length_littleEndian
  have first : Bytes.slice 0 8 (head.magic ++ (Bytes.littleEndian 2 head.version ++
      (Bytes.littleEndian 4 head.headerSize ++ Bytes.littleEndian 8 head.payloadSize))) =
        head.magic :=
    @Bytes.slice_of_append [] head.magic _ 0 8 rfl (by rw [magic])
  have second : Bytes.slice 8 10 (head.magic ++ (Bytes.littleEndian 2 head.version ++
      (Bytes.littleEndian 4 head.headerSize ++ Bytes.littleEndian 8 head.payloadSize))) =
        Bytes.littleEndian 2 head.version :=
    Bytes.slice_of_append magic (by rw [widths])
  have third : Bytes.slice 10 14 (head.magic ++ (Bytes.littleEndian 2 head.version ++
      (Bytes.littleEndian 4 head.headerSize ++ Bytes.littleEndian 8 head.payloadSize))) =
        Bytes.littleEndian 4 head.headerSize := by
    rw [← List.append_assoc]
    exact Bytes.slice_of_append (by rw [List.length_append, magic, widths]) (by rw [widths])
  have fourth : Bytes.slice 14 22 (head.magic ++ (Bytes.littleEndian 2 head.version ++
      (Bytes.littleEndian 4 head.headerSize ++ Bytes.littleEndian 8 head.payloadSize))) =
        Bytes.littleEndian 8 head.payloadSize := by
    rw [← List.append_assoc, ← List.append_assoc, ← List.append_nil (Bytes.littleEndian 8 _)]
    exact Bytes.slice_of_append (by simp [magic]) (by rw [widths])
  rw [unpack, first, second, third, fourth, Bytes.ofLittleEndian_littleEndian (by omega),
    Bytes.ofLittleEndian_littleEndian (by omega), Bytes.ofLittleEndian_littleEndian (by omega)]

theorem pack_unpack (long : bytes.length = size) : (unpack bytes).pack = .ok bytes := by
  have long' : 22 ≤ bytes.length := long.ge
  have whole : Bytes.slice 0 22 bytes = bytes := by
    rw [Bytes.slice, List.drop_zero]
    exact List.take_of_length_le long.le
  have version := @Bytes.ofLittleEndian_slice_lt bytes 8 10 (by omega)
  have header := @Bytes.ofLittleEndian_slice_lt bytes 10 14 (by omega)
  have payload := @Bytes.ofLittleEndian_slice_lt bytes 14 22 (by omega)
  have fits : (unpack bytes).version < 2 ^ 16 ∧ (unpack bytes).headerSize < 2 ^ 32 ∧
      (unpack bytes).payloadSize < 2 ^ 64 := ⟨version, header, payload⟩
  rw [pack, if_pos fits]
  have versionBytes := @Bytes.littleEndian_slice bytes 8 10 (by omega)
  have headerBytes := @Bytes.littleEndian_slice bytes 10 14 (by omega)
  have payloadBytes := @Bytes.littleEndian_slice bytes 14 22 (by omega)
  simp only [unpack] at versionBytes headerBytes payloadBytes ⊢
  rw [versionBytes, headerBytes, payloadBytes, Bytes.slice_append_slice (by omega) (by omega),
    Bytes.slice_append_slice (by omega) (by omega), Bytes.slice_append_slice (by omega) (by omega),
    whole]

end PageHead

/-! ## Envelopes -/

namespace KVPageCodec

variable {env : PageEnv F} {blob header payload : List UInt8} {maxPayloadBytes : ℤ}
  {expected : PageExpectations env.ops} {record : KVPageRecord env.ops}

/-- A check which has passed. -/
theorem ok_of_ite {α : Type} {condition : Prop} [Decidable condition] {error : KVPageError}
    {rest : Except KVPageError α} {result : α}
    (ok : (if condition then .error error else rest) = .ok result) :
    ¬condition ∧ rest = .ok result := by
  split at ok
  · cases ok
  · next passed => exact ⟨passed, ok⟩

theorem ok_of_bind {α β : Type} {first : Except KVPageError α}
    {next : α → Except KVPageError β} {result : β} (ok : (first >>= next) = .ok result) :
    ∃ value, first = .ok value ∧ next value = .ok result := by
  cases first with
  | error error => cases ok
  | ok value => exact ⟨value, rfl, ok⟩

/-- The prefix of an envelope. -/
def headOf (header payload : List UInt8) : PageHead where
  magic := magic
  version := version
  headerSize := header.length
  payloadSize := payload.length

/-- The prefix, the header, the payload and the checksum of these three, and nothing else. -/
structure IsEnvelope (env : PageEnv F) (blob header payload : List UInt8) : Prop where
  pieces : ∃ head, (headOf header payload).pack = .ok head ∧
    blob = head ++ (header ++ (payload ++ env.blake2b (head ++ (header ++ payload))))

/-- `decode` reads the header and the payload of an envelope within the limits. -/
theorem decode_of_envelope (envelope : IsEnvelope env blob header payload)
    (small : header.length ≤ maxHeaderBytes) (positive : 0 < maxPayloadBytes)
    (limit : (payload.length : ℤ) ≤ maxPayloadBytes) :
    decode env blob expected maxPayloadBytes =
      decodeBody env expected payload.length header payload := by
  obtain ⟨head, packed, rfl⟩ := envelope.pieces
  have long : head.length = PageHead.size := PageHead.length_pack rfl packed
  have checksum := env.blake2b_length (head ++ (header ++ payload))
  set digest := env.blake2b (head ++ (header ++ payload)) with digest_def
  have front : (head ++ (header ++ (payload ++ digest))).take PageHead.size = head := by
    rw [← long, List.take_left]
  have unpacked : PageHead.unpack ((head ++ (header ++ (payload ++ digest))).take PageHead.size) =
      headOf header payload := by
    rw [front]
    exact PageHead.unpack_pack rfl packed
  have total : (head ++ (header ++ (payload ++ digest))).length =
      PageHead.size + header.length + payload.length + checksumSize := by
    simp only [List.length_append, long, checksum, checksumSize]
    omega
  have before : (head ++ (header ++ (payload ++ digest))).take
      (PageHead.size + header.length + payload.length + checksumSize - checksumSize) =
        head ++ (header ++ payload) := by
    rw [Nat.add_sub_cancel, ← long, ← List.append_assoc header, ← List.append_assoc head,
      List.take_left']
    simp only [List.length_append]
    omega
  have after : (head ++ (header ++ (payload ++ digest))).drop
      (PageHead.size + header.length + payload.length + checksumSize - checksumSize) =
        digest := by
    rw [Nat.add_sub_cancel, ← long, ← List.append_assoc header, ← List.append_assoc head,
      List.drop_left']
    simp only [List.length_append]
    omega
  have headerSlice : Bytes.slice PageHead.size (PageHead.size + header.length)
      (head ++ (header ++ (payload ++ digest))) = header :=
    Bytes.slice_of_append long rfl
  have payloadSlice : Bytes.slice (PageHead.size + header.length)
      (PageHead.size + header.length + payload.length + checksumSize - checksumSize)
        (head ++ (header ++ (payload ++ digest))) = payload := by
    rw [← List.append_assoc]
    refine Bytes.slice_of_append ?_ (Nat.add_sub_cancel _ _).symm
    rw [List.length_append, long]
  unfold decode
  rw [if_neg (by rw [total]; omega), if_neg (by omega)]
  simp only [unpacked, headOf, ne_eq, not_true_eq_false, if_false, if_neg (not_lt.mpr small),
    if_neg (not_lt.mpr limit), total, before, after, headerSlice, payloadSlice,
    ← digest_def]

/-- `decode` refuses a blob by its format, or the blob is an envelope within the limits. -/
theorem decode_cases (positive : 0 < maxPayloadBytes) :
    (∃ message, decode env blob expected maxPayloadBytes = .error (.format message)) ∨
      ∃ header payload, IsEnvelope env blob header payload ∧ header.length ≤ maxHeaderBytes ∧
        (payload.length : ℤ) ≤ maxPayloadBytes ∧
        decode env blob expected maxPayloadBytes =
          decodeBody env expected payload.length header payload := by
  simp only [decode]
  set head := PageHead.unpack (blob.take PageHead.size) with head_def
  by_cases truncated : blob.length < PageHead.size + checksumSize
  · exact .inl ⟨_, if_pos truncated⟩
  rw [if_neg truncated, if_neg (not_le.mpr positive)]
  by_cases sameMagic : head.magic = magic
  swap
  · exact .inl ⟨_, if_pos sameMagic⟩
  rw [if_neg (not_not.mpr sameMagic)]
  by_cases sameVersion : head.version = version
  swap
  · exact .inl ⟨_, if_pos sameVersion⟩
  rw [if_neg (not_not.mpr sameVersion)]
  by_cases small : maxHeaderBytes < head.headerSize
  · exact .inl ⟨_, if_pos small⟩
  rw [if_neg small]
  by_cases limit : maxPayloadBytes < head.payloadSize
  · exact .inl ⟨_, if_pos limit⟩
  rw [if_neg limit, Nat.add_sub_cancel]
  set payloadStart := PageHead.size + head.headerSize
  by_cases total : blob.length = payloadStart + head.payloadSize + checksumSize
  swap
  · exact .inl ⟨_, if_pos total⟩
  rw [if_neg (not_not.mpr total)]
  by_cases checksum : env.blake2b (blob.take (payloadStart + head.payloadSize)) =
      blob.drop (payloadStart + head.payloadSize)
  swap
  · exact .inl ⟨_, if_pos checksum⟩
  rw [if_neg (not_not.mpr checksum)]
  set header := Bytes.slice PageHead.size payloadStart blob with header_def
  set payload := Bytes.slice payloadStart (payloadStart + head.payloadSize) blob
  have headerLength : header.length = head.headerSize := by
    rw [Bytes.length_slice (by omega)]
    omega
  have payloadLength : payload.length = head.payloadSize := by
    rw [Bytes.length_slice (by omega)]
    omega
  have headEq : headOf header payload = head := by
    rw [headOf, headerLength, payloadLength, ← sameMagic, ← sameVersion]
  have front : (blob.take PageHead.size).length = PageHead.size := by
    rw [List.length_take]
    omega
  have body : blob.take PageHead.size ++ (header ++ payload) =
      blob.take (payloadStart + head.payloadSize) := by
    have first : blob.take PageHead.size = Bytes.slice 0 PageHead.size blob := rfl
    have whole : blob.take (payloadStart + head.payloadSize) =
        Bytes.slice 0 (payloadStart + head.payloadSize) blob := rfl
    rw [first, whole, Bytes.slice_append_slice (by omega) (by omega),
      Bytes.slice_append_slice (by omega) (by omega)]
  refine .inr ⟨header, payload, ⟨blob.take PageHead.size, ?_, ?_⟩, ?_, ?_, ?_⟩
  · rw [headEq]
    exact PageHead.pack_unpack front
  · rw [body, checksum, ← List.append_assoc header, ← List.append_assoc, body,
      List.take_append_drop]
  · rw [headerLength]
    exact not_lt.mp small
  · rw [payloadLength]
    exact not_lt.mp limit
  · rw [payloadLength]

/-- Whatever `decode` accepts is an envelope. -/
theorem envelope_of_decode (decoded : decode env blob expected maxPayloadBytes = .ok record) :
    ∃ header payload, IsEnvelope env blob header payload ∧
      decodeBody env expected payload.length header payload = .ok record := by
  have positive : 0 < maxPayloadBytes := by
    simp only [decode] at decoded
    exact not_le.mp (ok_of_ite (ok_of_ite decoded).2).1
  rcases decode_cases positive with ⟨message, refused⟩ | ⟨header, payload, envelope, -, -, body⟩
  · cases decoded.symm.trans refused
  · exact ⟨header, payload, envelope, body.symm.trans decoded⟩

end KVPageCodec

/-! ## The header -/

namespace KVPageLayout

variable {ops : FloatOps F}

theorem canonicalDtype_name (dtype : DType) :
    canonicalDtype (.string dtype.name : Json F) = .ok dtype := by
  dsimp only [canonicalDtype]
  rw [DType.canonical_name]

theorem new_eq (layout : KVPageLayout ops) :
    new ops (.number layout.numLayers) (.number layout.blockSize) (.number layout.numKvHeads)
      (.number layout.headDim) (.string layout.dtype.name) = .ok layout := by
  simp only [new, Json.number?]
  rw [dif_pos layout.positive, canonicalDtype_name]
  rfl

theorem fromDict_toDict (layout : KVPageLayout ops) : fromDict ops layout.toDict = .ok layout := by
  have names : Json.hasFields [("block_size", .number layout.blockSize),
      ("dtype", .string layout.dtype.name), ("head_dim", .number layout.headDim),
      ("num_kv_heads", .number layout.numKvHeads), ("num_layers", .number layout.numLayers)]
      ["num_layers", "block_size", "num_kv_heads", "head_dim", "dtype"] = true := by
    simp [Json.hasFields]
  simp only [toDict, fromDict, names, Bool.not_true, Bool.false_eq_true, if_false, Json.field?]
  simp [List.lookup_cons, new_eq]

/-- The number of bytes of a layout whose dimensions are integers. -/
theorem nbytes_int {layout : KVPageLayout ops} {numLayers blockSize numKvHeads headDim : ℤ}
    (layers : layout.numLayers = .int numLayers) (block : layout.blockSize = .int blockSize)
    (heads : layout.numKvHeads = .int numKvHeads) (dim : layout.headDim = .int headDim) :
    layout.nbytes =
      .ok (.int (2 * numLayers * blockSize * numKvHeads * headDim * layout.dtype.bytes)) := by
  have product := @PyNumber.prod_int F ops [2, numLayers, blockSize, numKvHeads, headDim]
  simp only [List.map_cons, List.map_nil, List.foldl_cons, List.foldl_nil] at product
  simp only [nbytes, layers, block, heads, dim, product]
  rfl

end KVPageLayout

namespace KVPageMetadata

variable {ops : FloatOps F}

theorem new_eq (metadata : KVPageMetadata ops) :
    new (.string metadata.identityDigest) (.number metadata.tpRank) (.number metadata.pageIndex)
      metadata.layout = .ok metadata := by
  simp only [new, dif_pos metadata.identity, Json.number?, dif_pos metadata.nonneg]

theorem fromDict_toDict (metadata : KVPageMetadata ops) :
    fromDict ops metadata.toDict = .ok metadata := by
  have names : Json.hasFields [("identity_digest", .string metadata.identityDigest),
      ("layout", metadata.layout.toDict), ("page_index", .number metadata.pageIndex),
      ("tp_rank", .number metadata.tpRank)]
      ["identity_digest", "tp_rank", "page_index", "layout"] = true := by
    simp [Json.hasFields]
  simp only [toDict, fromDict, names, Bool.not_true, Bool.false_eq_true, if_false, Json.field?]
  simp [List.lookup_cons, KVPageLayout.fromDict_toDict, new_eq, bind, Except.bind]

/-- The fields of a metadata record have the annotated types. -/
structure Typed (metadata : KVPageMetadata ops) : Prop where
  tpRank : ∃ n : ℤ, metadata.tpRank = .int n
  pageIndex : ∃ n : ℤ, metadata.pageIndex = .int n
  numLayers : ∃ n : ℤ, metadata.layout.numLayers = .int n
  blockSize : ∃ n : ℤ, metadata.layout.blockSize = .int n
  numKvHeads : ∃ n : ℤ, metadata.layout.numKvHeads = .int n
  headDim : ∃ n : ℤ, metadata.layout.headDim = .int n

end KVPageMetadata

namespace PageExpectations

variable {ops : FloatOps F}

/-- Every expected value equals the field of the metadata. -/
structure Agrees (expected : PageExpectations ops) (metadata : KVPageMetadata ops) : Prop where
  identityDigest : ∀ value ∈ expected.identityDigest, value = metadata.identityDigest
  tpRank : ∀ value ∈ expected.tpRank, value.eq ops metadata.tpRank = true
  pageIndex : ∀ value ∈ expected.pageIndex, value.eq ops metadata.pageIndex = true
  layout : ∀ value ∈ expected.layout, value.eq metadata.layout = true

end PageExpectations

theorem expectedOr_eq_true {α : Type} {same : α → α → Bool} {expected : Option α} {actual : α} :
    expectedOr same expected actual = true ↔ ∀ value ∈ expected, same value actual = true := by
  cases expected <;> simp [expectedOr]

namespace KVPageCodec

variable {env : PageEnv F} {blob header payload : List UInt8} {maxPayloadBytes : ℤ}
  {expected : PageExpectations env.ops} {metadata : KVPageMetadata env.ops}
  {record : KVPageRecord env.ops}

theorem checkCompatibility_eq {ops : FloatOps F} {metadata : KVPageMetadata ops}
    {expected : PageExpectations ops} :
    checkCompatibility metadata expected = .ok () ↔ expected.Agrees metadata := by
  unfold checkCompatibility
  constructor
  · intro checked
    obtain ⟨identityDigest, checked⟩ := ok_of_ite checked
    obtain ⟨tpRank, checked⟩ := ok_of_ite checked
    obtain ⟨pageIndex, checked⟩ := ok_of_ite checked
    obtain ⟨layout, -⟩ := ok_of_ite checked
    simp only [Bool.not_eq_true', Bool.not_eq_false, expectedOr_eq_true, decide_eq_true_eq] at identityDigest tpRank pageIndex layout
    exact ⟨identityDigest, tpRank, pageIndex, layout⟩
  · rintro ⟨identityDigest, tpRank, pageIndex, layout⟩
    have identity : expectedOr (fun a b => decide (a = b)) expected.identityDigest
        metadata.identityDigest = true := by
      refine expectedOr_eq_true.mpr fun value mem => ?_
      rw [identityDigest value mem, decide_eq_true_eq]
    rw [identity, expectedOr_eq_true.mpr tpRank, expectedOr_eq_true.mpr pageIndex,
      expectedOr_eq_true.mpr layout]
    rfl

end KVPageCodec

/-! ## The round trip -/

/-- A byte string of Python, whose length is below `sys.maxsize`. -/
abbrev PyBytes := { bytes : List UInt8 // bytes.length < 2 ^ 63 }

/-- A layout of integers has a positive number of bytes. -/
theorem KVPageMetadata.Typed.nbytes_pos {ops : FloatOps F} {metadata : KVPageMetadata ops}
    (typed : metadata.Typed) {n : ℤ} (nbytes : metadata.layout.nbytes = .ok (.int n)) : 0 < n := by
  obtain ⟨-, -, ⟨numLayers, layers⟩, ⟨blockSize, block⟩, ⟨numKvHeads, heads⟩, ⟨headDim, dim⟩⟩ := typed
  rw [KVPageLayout.nbytes_int layers block heads dim, Except.ok.injEq, PyNumber.int.injEq] at nbytes
  have positive := metadata.layout.positive
  have least := @PyNumber.minimum_int F ops numLayers [blockSize, numKvHeads, headDim]
  simp only [List.map_cons, List.map_nil, List.foldl_cons, List.foldl_nil] at least
  rw [layers, block, heads, dim, least, ← Bool.not_eq_true, PyNumber.le_int, not_le] at positive
  simp only [lt_min_iff] at positive
  obtain ⟨⟨⟨layersPos, blockPos⟩, headsPos⟩, dimPos⟩ := positive
  have dtypePos : 0 < metadata.layout.dtype.bytes := by
    cases metadata.layout.dtype <;> decide
  have layerBytes := Int.mul_pos (show (0 : ℤ) < 2 by decide) layersPos
  rw [← nbytes]
  exact Int.mul_pos (Int.mul_pos (Int.mul_pos (Int.mul_pos layerBytes blockPos) headsPos) dimPos)
    dtypePos

namespace KVPageCodec

variable {env : PageEnv F} {header payload : List UInt8} {maxPayloadBytes : ℤ}
  {expected : PageExpectations env.ops} {metadata : KVPageMetadata env.ops}
  {record : KVPageRecord env.ops}

theorem decodeBody_eq {payloadSize : ℕ}
    (decoded : decodeBody env expected payloadSize header payload = .ok record) :
    record.payload = payload ∧
      (∃ value, parseHeader env header = .ok value ∧
        KVPageMetadata.fromDict env.ops value = .ok record.metadata) ∧
      (∃ nbytes, record.metadata.layout.nbytes = .ok nbytes ∧
        nbytes.eq env.ops (.int payloadSize) = true) ∧
      expected.Agrees record.metadata := by
  obtain ⟨value, parsed, decoded⟩ := ok_of_bind decoded
  obtain ⟨metadata, read, decoded⟩ := ok_of_bind decoded
  obtain ⟨nbytes, size, decoded⟩ := ok_of_bind decoded
  obtain ⟨same, decoded⟩ := ok_of_ite decoded
  obtain ⟨_, checked, decoded⟩ := ok_of_bind decoded
  cases decoded
  rw [Bool.not_eq_true', Bool.not_eq_false] at same
  exact ⟨rfl, ⟨value, parsed, read⟩, ⟨nbytes, size, same⟩, checkCompatibility_eq.mp checked⟩

/-- The header which `encode` writes is read back. -/
theorem decodeBody_toDict {n : ℕ}
    (roundTrips : env.loads (env.dumps metadata.toDict) = .ok metadata.toDict)
    (nbytes : metadata.layout.nbytes = .ok (.int n)) (agrees : expected.Agrees metadata) :
    decodeBody env expected n (env.dumps metadata.toDict) payload = .ok ⟨metadata, payload⟩ := by
  have ascii : ((env.dumps metadata.toDict).all fun byte => byte < 128) = true := by
    rw [List.all_eq_true]
    intro byte mem
    exact decide_eq_true (env.dumps_ascii _ byte mem)
  have parsed : parseHeader env (env.dumps metadata.toDict) = .ok metadata.toDict := by
    rw [parseHeader, if_pos ascii, roundTrips]
  have same : (PyNumber.int (n : ℤ)).eq env.ops (.int n) = true := PyNumber.eq_int.mpr rfl
  unfold decodeBody
  rw [parsed]
  change (KVPageMetadata.fromDict env.ops metadata.toDict >>= _) = _
  rw [KVPageMetadata.fromDict_toDict]
  change (metadata.layout.nbytes >>= _) = _
  rw [nbytes]
  change (if (!(PyNumber.int (n : ℤ)).eq env.ops (.int n)) = true then _ else
    (checkCompatibility metadata expected >>= _)) = _
  rw [same, checkCompatibility_eq.mpr agrees]
  rfl

/-- `encode` of a payload of the size of its layout. -/
theorem encode_eq {n : ℕ} (nbytes : metadata.layout.nbytes = .ok (.int n))
    (size : payload.length = n) (short : n < 2 ^ 64)
    (small : (env.dumps metadata.toDict).length ≤ maxHeaderBytes) :
    ∃ blob, encode env metadata payload = .ok blob ∧
      IsEnvelope env blob (env.dumps metadata.toDict) payload := by
  subst size
  have same : (PyNumber.int (payload.length : ℤ)).eq env.ops (.int payload.length) = true :=
    PyNumber.eq_int.mpr rfl
  have fits : (headOf (env.dumps metadata.toDict) payload).version < 2 ^ 16 ∧
      (headOf (env.dumps metadata.toDict) payload).headerSize < 2 ^ 32 ∧
      (headOf (env.dumps metadata.toDict) payload).payloadSize < 2 ^ 64 := by
    refine ⟨?_, ?_, short⟩
    · change 1 < 2 ^ 16
      decide
    unfold maxHeaderBytes at small
    change (env.dumps metadata.toDict).length < 2 ^ 32
    omega
  obtain ⟨head, packed⟩ : ∃ head, (headOf (env.dumps metadata.toDict) payload).pack = .ok head :=
    ⟨_, if_pos fits⟩
  refine ⟨_, ?_, ⟨head, packed, rfl⟩⟩
  unfold encode
  rw [nbytes]
  change (if (!(PyNumber.int (payload.length : ℤ)).eq env.ops (.int payload.length)) = true then _
    else _) = _
  rw [same]
  change (if maxHeaderBytes < (env.dumps metadata.toDict).length then _ else
    ((headOf (env.dumps metadata.toDict) payload).pack >>= _)) = _
  rw [if_neg (not_lt.mpr small), packed]
  change Except.ok _ = Except.ok _
  simp only [List.append_assoc]

/--
The page envelope. A record which `encode` wrote is read back, and whatever `decode` accepts is
an envelope of its payload which agrees with its layout and with every expectation.
-/
theorem encode_decode (env : PageEnv F) :
    (∀ (metadata : KVPageMetadata env.ops) (payload : PyBytes)
        (expected : PageExpectations env.ops) (maxPayloadBytes : ℤ), metadata.Typed →
      env.loads (env.dumps metadata.toDict) = .ok metadata.toDict →
      metadata.layout.nbytes = .ok (.int payload.val.length) →
      (env.dumps metadata.toDict).length ≤ maxHeaderBytes →
      (payload.val.length : ℤ) ≤ maxPayloadBytes → expected.Agrees metadata →
      ∃ blob, encode env metadata payload.val = .ok blob ∧
        decode env blob expected maxPayloadBytes = .ok ⟨metadata, payload.val⟩) ∧
    (∀ (blob : List UInt8) (expected : PageExpectations env.ops) (maxPayloadBytes : ℤ)
        (record : KVPageRecord env.ops),
      decode env blob expected maxPayloadBytes = .ok record →
      (∃ header value, IsEnvelope env blob header record.payload ∧
          parseHeader env header = .ok value ∧
          KVPageMetadata.fromDict env.ops value = .ok record.metadata) ∧
        (∃ nbytes, record.metadata.layout.nbytes = .ok nbytes ∧
          nbytes.eq env.ops (.int record.payload.length) = true) ∧
        expected.Agrees record.metadata) := by
  constructor
  · rintro metadata ⟨payload, short⟩ expected maxPayloadBytes typed roundTrips nbytes small limit
      agrees
    have positive := typed.nbytes_pos nbytes
    obtain ⟨blob, encoded, envelope⟩ := encode_eq nbytes rfl (short.trans (by decide)) small
    refine ⟨blob, encoded, ?_⟩
    rw [decode_of_envelope envelope small (positive.trans_le limit) limit]
    exact decodeBody_toDict roundTrips nbytes agrees
  · intro blob expected maxPayloadBytes record decoded
    obtain ⟨header, payload, envelope, body⟩ := envelope_of_decode decoded
    obtain ⟨rfl, ⟨value, parsed, read⟩, nbytes, agrees⟩ := decodeBody_eq body
    exact ⟨⟨header, value, envelope, parsed, read⟩, nbytes, agrees⟩

/-- A layout of one layer, one token and one head of one `float16` number. -/
def smallLayout (ops : FloatOps Empty) : KVPageLayout ops where
  numLayers := .int 1
  blockSize := .int 1
  numKvHeads := .int 1
  headDim := .int 1
  dtype := .float16
  positive := by rfl

/-- Metadata of the first page. -/
def smallMetadata (ops : FloatOps Empty) : KVPageMetadata ops where
  identityDigest := "a"
  tpRank := .int 0
  pageIndex := .int 0
  layout := smallLayout ops
  identity := by decide
  nonneg := ⟨rfl, rfl⟩

/-- No operation involves a floating-point number when there is none. -/
def noFloats : FloatOps Empty where
  ofInt := fun _ => none
  mul := fun x _ => x
  lt := fun _ _ => false
  le := fun _ _ => false
  eq := fun _ _ => false

/-- The JSON text of `smallMetadata`. -/
def smallText : String :=
  "\x7b\"identity_digest\":\"a\",\"layout\":\x7b\"block_size\":1,\"dtype\":\"float16\",\"head_dim\":1," ++
    "\"num_kv_heads\":1,\"num_layers\":1\x7d,\"page_index\":0,\"tp_rank\":0\x7d"

/-- The JSON module on the header of `smallMetadata`, with a constant as the hash. -/
def smallEnv : PageEnv Empty where
  ops := noFloats
  dumps := fun _ => smallText.toUTF8.data.toList
  loads := fun _ => .ok (smallMetadata noFloats).toDict
  blake2b := fun _ => List.replicate 16 0
  dumps_ascii := by
    intro _ byte mem
    have all : (smallText.toUTF8.data.toList.all fun byte => byte < 128) = true := by
      decide +kernel
    exact of_decide_eq_true (List.all_eq_true.mp all byte mem)
  blake2b_length := fun _ => rfl

theorem encode_decode_small :
    (∃ blob, encode smallEnv (smallMetadata noFloats) [1, 2, 3, 4] = .ok blob ∧
      decode smallEnv blob ⟨some "a", none, none, none⟩ 4 =
        .ok ⟨smallMetadata noFloats, [1, 2, 3, 4]⟩) ∧
    ∀ blob record, decode smallEnv blob ⟨none, none, none, none⟩ 4 = .ok record →
      ∃ header value, IsEnvelope smallEnv blob header record.payload ∧
        parseHeader smallEnv header = .ok value ∧
        KVPageMetadata.fromDict noFloats value = .ok record.metadata := by
  have roundTrip := encode_decode smallEnv
  constructor
  · have typed : (smallMetadata noFloats).Typed :=
      ⟨⟨0, rfl⟩, ⟨0, rfl⟩, ⟨1, rfl⟩, ⟨1, rfl⟩, ⟨1, rfl⟩, ⟨1, rfl⟩⟩
    have small : (smallEnv.dumps (smallMetadata noFloats).toDict).length ≤ maxHeaderBytes := by
      decide +kernel
    have agrees : PageExpectations.Agrees ⟨some "a", none, none, none⟩ (smallMetadata noFloats) := by
      constructor
      · rintro _ ⟨⟩
        rfl
      all_goals rintro _ ⟨⟩
    exact roundTrip.1 (smallMetadata noFloats) ⟨[1, 2, 3, 4], by decide⟩ _ 4 typed rfl rfl small
      (by decide) agrees
  · intro blob record decoded
    exact (roundTrip.2 blob _ 4 record decoded).1

end KVPageCodec

end NanoVllm
