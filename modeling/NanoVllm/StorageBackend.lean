import NanoVllm.Basic
import NanoVllm.Library.Bytes

/-!
# Object keys of the storage backend

`make_kv_page_key` names the object of a KV page after the cache it belongs to, its place in the
cache and the tokens up to its end. The digest (`hashlib.blake2b`) enters as a parameter, with the
collision freedom the keys rely on.
-/

namespace NanoVllm.StorageBackend

/-- `blake2b(data, digest_size=digestSize).hexdigest()`. -/
structure Blake2b where
  hexdigest : ℕ → List UInt8 → String
  hexadecimal : ∀ digestSize data, ∀ digit ∈ (hexdigest digestSize data).toList,
    digit ∈ "0123456789abcdef".toList
  collisionFree : ∀ {digestSize data data'},
    hexdigest digestSize data = hexdigest digestSize data' → data = data'

/-- `KVCacheIdentity`, with the checks of `__post_init__`. -/
@[ext] structure KVCacheIdentity where
  modelId : String
  modelRevision : String
  dtype : String
  tpSize : ℕ
  pageSize : ℕ
  layoutVersion : String
  named : modelId ≠ "" ∧ modelRevision ≠ "" ∧ dtype ≠ "" ∧ layoutVersion ≠ ""
  positive : 0 < tpSize ∧ 0 < pageSize
  deriving DecidableEq

namespace KVCacheIdentity

/-- The constructor with `__post_init__`. -/
def new (modelId modelRevision dtype : String) (tpSize pageSize : ℤ)
    (layoutVersion : String := "nanovllm-kv-v1") : Py KVCacheIdentity :=
  if named : modelId ≠ "" ∧ modelRevision ≠ "" ∧ dtype ≠ "" ∧ layoutVersion ≠ "" then
    if positive : 0 < tpSize ∧ 0 < pageSize then
      .ok {
        modelId, modelRevision, dtype, layoutVersion, named
        tpSize := tpSize.toNat
        pageSize := pageSize.toNat
        positive := by omega }
    else .error (.valueError "tp_size and page_size must be positive")
  else .error (.valueError "KV cache identity strings must not be empty")

/-- The text which `digest` hashes. -/
def joined (identity : KVCacheIdentity) : String :=
  "|".intercalate
    [identity.layoutVersion, identity.modelId, identity.modelRevision, identity.dtype,
      toString identity.tpSize, toString identity.pageSize]

/-- `digest`. -/
def digest (identity : KVCacheIdentity) (blake2b : Blake2b) : String :=
  blake2b.hexdigest 12 identity.joined.toByteArray.data.toList

end KVCacheIdentity

/-- The loop of `make_kv_page_key` over the tokens: what the digest has read. -/
def encodePrefix : List Token → Py (List UInt8)
  | [] => .ok []
  | tokenId :: rest =>
      if tokenId < 0 ∨ tokenId ≥ 2 ^ 32 then
        .error (.valueError "token ids must fit in uint32")
      else do
        let data ← encodePrefix rest
        .ok (Bytes.littleEndian 4 tokenId.toNat ++ data)

/-- `make_kv_page_key`. -/
def makeKvPageKey (blake2b : Blake2b) (identity : KVCacheIdentity) (tpRank pageIndex : ℤ)
    (prefixTokenIds : List Token) (keyNamespace : String := "nanovllm-kv") : Py String :=
  if keyNamespace = "" then .error (.valueError "namespace must not be empty")
  else if ¬ (0 ≤ tpRank ∧ tpRank < identity.tpSize) ∨ pageIndex < 0 then
    .error (.valueError "tp_rank or page_index is outside the cache identity")
  else do
    let data ← encodePrefix prefixTokenIds
    if prefixTokenIds = [] then .error (.valueError "prefix_token_ids must not be empty")
    else
      .ok (keyNamespace ++ "/" ++ identity.digest blake2b ++ "/tp-" ++ toString tpRank ++
        "/page-" ++ toString pageIndex ++ "/" ++ blake2b.hexdigest 16 data)

end NanoVllm.StorageBackend
