import NanoVllm.Library.Bytes
import NanoVllm.Library.Json

/-!
# The KV page envelope

A stored KV page is a fixed-size prefix, a JSON header with the metadata, the payload and a
checksum. `KVPageLayout` and `KVPageMetadata` check their fields when they are built, so the
checks are fields here. Their constructors accept whatever numbers the header holds; a field
annotated as an integer may be a boolean or a floating-point number.

The JSON module and `blake2b` are parameters. The text of a `TypeError` and the values in the
texts of mismatches are left out.
-/

namespace NanoVllm

/-- The exceptions of the page codec. -/
inductive KVPageError where
  | format (message : String)
  | compatibility (message : String)
  | valueError (message : String)
  | typeError
  | attributeError
  | overflowError
  | structError
  | jsonError
  deriving DecidableEq, Repr

/-- The text of an exception. -/
def KVPageError.message : KVPageError → String
  | .format message => message
  | .compatibility message => message
  | .valueError message => message
  | .typeError => ""
  | .attributeError => ""
  | .overflowError => ""
  | .structError => ""
  | .jsonError => ""

/-- What goes wrong in `json.loads`. -/
inductive JsonLoadsError where
  | decodeError
  | other
  deriving DecidableEq, Repr

/--
The JSON module and the hash function as the page codec calls them. `ensure_ascii=True` makes
the header ASCII, and `digest_size=16` fixes the length of a checksum.
-/
structure PageEnv (F : Type) where
  ops : FloatOps F
  dumps : Json F → List UInt8
  loads : List UInt8 → Except JsonLoadsError (Json F)
  blake2b : List UInt8 → List UInt8
  dumps_ascii : ∀ value, ∀ byte ∈ dumps value, byte < 128
  blake2b_length : ∀ bytes, (blake2b bytes).length = 16

/-- The keys of `_DTYPE_BYTES`. -/
inductive DType where
  | float16
  | bfloat16
  | float32
  deriving DecidableEq, Repr

namespace DType

/-- `_DTYPE_BYTES`. -/
def bytes : DType → ℤ
  | float16 => 2
  | bfloat16 => 2
  | float32 => 4

def name : DType → String
  | float16 => "float16"
  | bfloat16 => "bfloat16"
  | float32 => "float32"

/-- `str.removeprefix`. -/
def removeHead (head s : String) : String :=
  if head.toList.isPrefixOf s.toList then String.ofList (s.toList.drop head.toList.length) else s

/-- The table `aliases` of `canonical_dtype`. -/
def aliases : String → String
  | "half" => "float16"
  | "fp16" => "float16"
  | "bf16" => "bfloat16"
  | "float" => "float32"
  | "fp32" => "float32"
  | s => s

/-- `canonical_dtype` of a string. -/
def canonical? (dtype : String) : Option DType :=
  match aliases (removeHead "numpy." (removeHead "torch." dtype)) with
  | "float16" => some float16
  | "bfloat16" => some bfloat16
  | "float32" => some float32
  | _ => none

theorem canonical_name (dtype : DType) : canonical? dtype.name = some dtype := by
  cases dtype <;> decide

end DType

variable {F : Type}

/-- `canonical_dtype`. The text of a value which is not a string is never a dtype. -/
def canonicalDtype : Json F → Except KVPageError DType
  | .string s =>
      match DType.canonical? s with
      | none => .error (.valueError ("unsupported KV page dtype: " ++ s))
      | some dtype => .ok dtype
  | _ => .error (.valueError "unsupported KV page dtype")

/-- `KVPageLayout`. -/
structure KVPageLayout (ops : FloatOps F) where
  numLayers : PyNumber F
  blockSize : PyNumber F
  numKvHeads : PyNumber F
  headDim : PyNumber F
  dtype : DType
  positive :
    (PyNumber.minimum ops numLayers [blockSize, numKvHeads, headDim]).le ops (.int 0) = false

namespace KVPageLayout

variable {ops : FloatOps F}

/-- The constructor with `__post_init__`. -/
def new (ops : FloatOps F) (numLayers blockSize numKvHeads headDim dtype : Json F) :
    Except KVPageError (KVPageLayout ops) :=
  match numLayers.number?, blockSize.number?, numKvHeads.number?, headDim.number? with
  | some numLayers, some blockSize, some numKvHeads, some headDim =>
      if positive : (PyNumber.minimum ops numLayers [blockSize, numKvHeads, headDim]).le ops
          (.int 0) = false then do
        let dtype ← canonicalDtype dtype
        .ok { numLayers, blockSize, numKvHeads, headDim, dtype, positive }
      else .error (.valueError "KV page layout dimensions must be positive")
  | _, _, _, _ => .error .typeError

/-- `nbytes`. -/
def nbytes (layout : KVPageLayout ops) : Except KVPageError (PyNumber F) :=
  match (do
    let product ← PyNumber.prod? ops
      [.int 2, layout.numLayers, layout.blockSize, layout.numKvHeads, layout.headDim]
    product.mul? ops (.int layout.dtype.bytes)) with
  | none => .error .overflowError
  | some nbytes => .ok nbytes

/-- `to_dict`, in the order of `sort_keys=True`. -/
def toDict (layout : KVPageLayout ops) : Json F :=
  .object [("block_size", .number layout.blockSize), ("dtype", .string layout.dtype.name),
    ("head_dim", .number layout.headDim), ("num_kv_heads", .number layout.numKvHeads),
    ("num_layers", .number layout.numLayers)]

/-- `from_dict`. -/
def fromDict (ops : FloatOps F) : Json F → Except KVPageError (KVPageLayout ops)
  | .object fields =>
      if !Json.hasFields fields
          ["num_layers", "block_size", "num_kv_heads", "head_dim", "dtype"] then
        .error (.format "KV page layout fields are invalid")
      else
        match Json.field? fields "num_layers", Json.field? fields "block_size",
          Json.field? fields "num_kv_heads", Json.field? fields "head_dim",
          Json.field? fields "dtype" with
        | some numLayers, some blockSize, some numKvHeads, some headDim, some dtype =>
            match new ops numLayers blockSize numKvHeads headDim dtype with
            | .error error => .error (.format ("invalid KV page layout: " ++ error.message))
            | .ok layout => .ok layout
        | _, _, _, _, _ => .error (.format "KV page layout fields are invalid")
  | _ => .error (.format "KV page layout must be an object")

/-- The dataclass comparison `a == b`. -/
def eq (a b : KVPageLayout ops) : Bool :=
  a.numLayers.eq ops b.numLayers && a.blockSize.eq ops b.blockSize &&
    a.numKvHeads.eq ops b.numKvHeads && a.headDim.eq ops b.headDim && a.dtype = b.dtype

end KVPageLayout

/-- `str.isascii`. -/
def isAscii (s : String) : Bool := s.toList.all fun c => c.toNat < 128

/-- `KVPageMetadata`. -/
structure KVPageMetadata (ops : FloatOps F) where
  identityDigest : String
  tpRank : PyNumber F
  pageIndex : PyNumber F
  layout : KVPageLayout ops
  identity : identityDigest ≠ "" ∧ isAscii identityDigest = true
  nonneg : tpRank.lt ops (.int 0) = false ∧ pageIndex.lt ops (.int 0) = false

namespace KVPageMetadata

variable {ops : FloatOps F}

/-- Python's truth value of a document. -/
def truthy (ops : FloatOps F) : Json F → Bool
  | .null => false
  | .number n => !n.eq ops (.int 0)
  | .string s => s ≠ ""
  | .array items => !items.isEmpty
  | .object fields => !fields.isEmpty

/-- The constructor with `__post_init__`. Only strings have `isascii`. -/
def new (identityDigest tpRank pageIndex : Json F) (layout : KVPageLayout ops) :
    Except KVPageError (KVPageMetadata ops) :=
  match identityDigest with
  | .string identityDigest =>
      if identity : identityDigest ≠ "" ∧ isAscii identityDigest = true then
        match tpRank.number?, pageIndex.number? with
        | some tpRank, some pageIndex =>
            if nonneg : tpRank.lt ops (.int 0) = false ∧ pageIndex.lt ops (.int 0) = false then
              .ok { identityDigest, tpRank, pageIndex, layout, identity, nonneg }
            else .error (.valueError "tp_rank and page_index must be non-negative")
        | some tpRank, none =>
            if tpRank.lt ops (.int 0) then
              .error (.valueError "tp_rank and page_index must be non-negative")
            else .error .typeError
        | none, _ => .error .typeError
      else .error (.valueError "identity_digest must be a non-empty ASCII string")
  | identityDigest =>
      if truthy ops identityDigest then .error .attributeError
      else .error (.valueError "identity_digest must be a non-empty ASCII string")

/-- `to_dict`, in the order of `sort_keys=True`. -/
def toDict (metadata : KVPageMetadata ops) : Json F :=
  .object [("identity_digest", .string metadata.identityDigest),
    ("layout", metadata.layout.toDict), ("page_index", .number metadata.pageIndex),
    ("tp_rank", .number metadata.tpRank)]

/-- The `except` clause of `from_dict`, which catches `TypeError` and `ValueError`. -/
def wrapError : KVPageError → KVPageError
  | .format message => .format message
  | .compatibility message => .format ("invalid KV page metadata: " ++ message)
  | .valueError message => .format ("invalid KV page metadata: " ++ message)
  | .typeError => .format "invalid KV page metadata: "
  | .attributeError => .attributeError
  | .overflowError => .overflowError
  | .structError => .structError
  | .jsonError => .jsonError

/-- `from_dict`. -/
def fromDict (ops : FloatOps F) : Json F → Except KVPageError (KVPageMetadata ops)
  | .object fields =>
      if !Json.hasFields fields ["identity_digest", "tp_rank", "page_index", "layout"] then
        .error (.format "KV page metadata fields are invalid")
      else
        match Json.field? fields "identity_digest", Json.field? fields "tp_rank",
          Json.field? fields "page_index", Json.field? fields "layout" with
        | some identityDigest, some tpRank, some pageIndex, some layout =>
            match (do
              let layout ← KVPageLayout.fromDict ops layout
              new identityDigest tpRank pageIndex layout) with
            | .error error => .error (wrapError error)
            | .ok metadata => .ok metadata
        | _, _, _, _ => .error (.format "KV page metadata fields are invalid")
  | _ => .error (.format "KV page metadata must be an object")

end KVPageMetadata

/-- `KVPageRecord`. -/
structure KVPageRecord (ops : FloatOps F) where
  metadata : KVPageMetadata ops
  payload : List UInt8

/-- The fields of the prefix `<8sHIQ`. -/
structure PageHead where
  magic : List UInt8
  version : ℕ
  headerSize : ℕ
  payloadSize : ℕ
  deriving DecidableEq, Repr

namespace PageHead

/-- `_PREFIX.size`. -/
def size : ℕ := 22

/-- `_PREFIX.pack`. -/
def pack (head : PageHead) : Except KVPageError (List UInt8) :=
  if head.version < 2 ^ 16 ∧ head.headerSize < 2 ^ 32 ∧ head.payloadSize < 2 ^ 64 then
    .ok (head.magic ++ Bytes.littleEndian 2 head.version ++
      Bytes.littleEndian 4 head.headerSize ++ Bytes.littleEndian 8 head.payloadSize)
  else .error .structError

/-- `_PREFIX.unpack`. -/
def unpack (bytes : List UInt8) : PageHead where
  magic := Bytes.slice 0 8 bytes
  version := Bytes.ofLittleEndian (Bytes.slice 8 10 bytes)
  headerSize := Bytes.ofLittleEndian (Bytes.slice 10 14 bytes)
  payloadSize := Bytes.ofLittleEndian (Bytes.slice 14 22 bytes)

end PageHead

/-- The optional arguments of `decode`. -/
structure PageExpectations (ops : FloatOps F) where
  identityDigest : Option String
  tpRank : Option (PyNumber F)
  pageIndex : Option (PyNumber F)
  layout : Option (KVPageLayout ops)

/-- Whether no expected value differs from the actual one. -/
def expectedOr {α : Type} (same : α → α → Bool) (expected : Option α) (actual : α) : Bool :=
  match expected with
  | none => true
  | some expected => same expected actual

namespace KVPageCodec

/-- `_MAGIC`, the bytes of `NVKVPAGE`. -/
def magic : List UInt8 := [78, 86, 75, 86, 80, 65, 71, 69]

/-- `_VERSION`. -/
def version : ℕ := 1

/-- `_CHECKSUM_SIZE`. -/
def checksumSize : ℕ := 16

/-- `_MAX_HEADER_BYTES`. -/
def maxHeaderBytes : ℕ := 64 * 1024

/-- `encode`. -/
def encode (env : PageEnv F) (metadata : KVPageMetadata env.ops) (payload : List UInt8) :
    Except KVPageError (List UInt8) := do
  let nbytes ← metadata.layout.nbytes
  if !(PyNumber.int payload.length).eq env.ops nbytes then
    .error (.compatibility "KV page payload has the wrong size")
  else
    let header := env.dumps metadata.toDict
    if maxHeaderBytes < header.length then .error (.format "KV page header is too large")
    else do
      let head ← PageHead.pack {
        magic, version, headerSize := header.length, payloadSize := payload.length }
      .ok (head ++ header ++ payload ++ env.blake2b (head ++ header ++ payload))

/-- The header of an envelope. -/
def parseHeader (env : PageEnv F) (header : List UInt8) : Except KVPageError (Json F) :=
  if header.all fun byte => byte < 128 then
    match env.loads header with
    | .error .decodeError => .error (.format "KV page header is not valid JSON")
    | .error .other => .error .jsonError
    | .ok value => .ok value
  else .error (.format "KV page header is not valid JSON")

/-- `_check_compatibility`. -/
def checkCompatibility {ops : FloatOps F} (metadata : KVPageMetadata ops)
    (expected : PageExpectations ops) : Except KVPageError Unit :=
  if !expectedOr (fun a b => decide (a = b)) expected.identityDigest metadata.identityDigest then
    .error (.compatibility "KV page identity mismatch")
  else if !expectedOr (PyNumber.eq ops) expected.tpRank metadata.tpRank then
    .error (.compatibility "KV page TP rank mismatch")
  else if !expectedOr (PyNumber.eq ops) expected.pageIndex metadata.pageIndex then
    .error (.compatibility "KV page page index mismatch")
  else if !expectedOr KVPageLayout.eq expected.layout metadata.layout then
    .error (.compatibility "KV page layout mismatch")
  else .ok ()

/-- The part of `decode` after the checksum. -/
def decodeBody (env : PageEnv F) (expected : PageExpectations env.ops) (payloadSize : ℕ)
    (header payload : List UInt8) : Except KVPageError (KVPageRecord env.ops) := do
  let value ← parseHeader env header
  let metadata ← KVPageMetadata.fromDict env.ops value
  let nbytes ← metadata.layout.nbytes
  if !nbytes.eq env.ops (.int payloadSize) then
    .error (.format "KV page layout byte size does not match the encoded payload")
  else do
    checkCompatibility metadata expected
    .ok { metadata, payload }

/-- `decode`. -/
def decode (env : PageEnv F) (blob : List UInt8) (expected : PageExpectations env.ops)
    (maxPayloadBytes : ℤ) : Except KVPageError (KVPageRecord env.ops) :=
  if blob.length < PageHead.size + checksumSize then
    .error (.format "KV page envelope is truncated")
  else if maxPayloadBytes ≤ 0 then
    .error (.valueError "max_payload_bytes must be positive")
  else
    let head := PageHead.unpack (blob.take PageHead.size)
    if head.magic ≠ magic then .error (.format "KV page magic is invalid")
    else if head.version ≠ version then
      .error (.format ("unsupported KV page version: " ++ toString head.version))
    else if maxHeaderBytes < head.headerSize then
      .error (.format "KV page header is too large")
    else if maxPayloadBytes < head.payloadSize then
      .error (.format "KV page payload exceeds the configured limit")
    else
      let expectedSize := PageHead.size + head.headerSize + head.payloadSize + checksumSize
      if blob.length ≠ expectedSize then
        .error (.format ("KV page envelope has " ++ toString blob.length ++ " bytes, expected " ++
          toString expectedSize))
      else
        let checksumStart := expectedSize - checksumSize
        if env.blake2b (blob.take checksumStart) ≠ blob.drop checksumStart then
          .error (.format "KV page checksum mismatch")
        else
          let payloadStart := PageHead.size + head.headerSize
          decodeBody env expected head.payloadSize
            (Bytes.slice PageHead.size payloadStart blob)
            (Bytes.slice payloadStart checksumStart blob)

end KVPageCodec

end NanoVllm
