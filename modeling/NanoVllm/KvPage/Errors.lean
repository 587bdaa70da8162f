import NanoVllm.KvPage.RoundTrip

/-!
# The exceptions of `decode`

`decode` is meant to raise `KVPageFormatError` or `KVPageCompatibilityError`. The two `from_dict`
wrappers convert what their constructors raise, but only a `TypeError` or a `ValueError`, the
byte size is computed outside of them, and only a `JSONDecodeError` of `json.loads` is converted.
The headers on which another exception escapes are described here without reference to `decode`.
-/

namespace NanoVllm

variable {F : Type} {α β : Type}

namespace KVPageLayout

variable {ops : FloatOps F} {layout : KVPageLayout ops} {value : Json F}

/-- An object with the five fields of a layout, and no others. -/
structure Describes (value : Json F) (layout : KVPageLayout ops) : Prop where
  object : ∃ fields dtype, value = .object fields ∧
    Json.hasFields fields ["num_layers", "block_size", "num_kv_heads", "head_dim", "dtype"] ∧
    Json.field? fields "num_layers" = some (.number layout.numLayers) ∧
    Json.field? fields "block_size" = some (.number layout.blockSize) ∧
    Json.field? fields "num_kv_heads" = some (.number layout.numKvHeads) ∧
    Json.field? fields "head_dim" = some (.number layout.headDim) ∧
    Json.field? fields "dtype" = some (.string dtype) ∧
    DType.canonical? dtype = some layout.dtype

end KVPageLayout

/-! ## The metadata -/

namespace KVPageMetadata

variable {ops : FloatOps F} {metadata : KVPageMetadata ops}
  {value identityDigest tpRank pageIndex layout : Json F}

end KVPageMetadata

namespace KVPageCodec

variable {env : PageEnv F} {blob header payload : List UInt8} {maxPayloadBytes : ℤ}
  {expected : PageExpectations env.ops}

end KVPageCodec

end NanoVllm
