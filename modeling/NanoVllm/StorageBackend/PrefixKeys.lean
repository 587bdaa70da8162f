import NanoVllm.RemoteCatalog.Pages
import NanoVllm.StorageBackend.PageKey

/-!
# The keys of a prefix

`LLMEngine._describe_remote_prefix` names the pages of a prefix by their place and by the tokens
up to their end. The pages of one prefix have different places and so different keys.
-/

namespace NanoVllm.StorageBackend

variable {blake2b : Blake2b} {identity : KVCacheIdentity} {tokenIds : List Token}

/-- The descriptor of the page at an index. -/
def describePage (blake2b : Blake2b) (identity : KVCacheIdentity) (blockSize : ℕ)
    (tokenIds : List Token) (index : ℕ) : Py RemoteCatalog.RemotePageDescriptor := do
  let objectKey ← makeKvPageKey blake2b identity 0 index (tokenIds.take ((index + 1) * blockSize))
  RemoteCatalog.RemotePageDescriptor.new objectKey (identity.digest blake2b) 0 index

/-- `LLMEngine._describe_remote_prefix`. -/
def describeRemotePrefix (blake2b : Blake2b) (identity : KVCacheIdentity) (blockSize : ℕ)
    (tokenIds : List Token) (numPages : ℤ) :
    Py (List BlockKey × List RemoteCatalog.RemotePageDescriptor) :=
  if numPages ≤ 0 ∨ (tokenIds.length : ℤ) < numPages * blockSize then
    .error (.valueError "token_ids do not contain every remote KV page")
  else do
    let blockKeys := (List.range numPages.toNat).map fun index =>
      (tokenIds.drop (index * blockSize)).take blockSize
    let descriptors ← (List.range numPages.toNat).mapM
      (describePage blake2b identity blockSize tokenIds)
    .ok (blockKeys, descriptors)

theorem describePage_eq_ok {blockSize index : ℕ} {page : RemoteCatalog.RemotePageDescriptor}
    (described : describePage blake2b identity blockSize tokenIds index = .ok page) :
    makeKvPageKey blake2b identity 0 index (tokenIds.take ((index + 1) * blockSize)) =
      .ok page.objectKey := by
  rcases Py.exists_of_bind described with ⟨objectKey, made, described⟩
  unfold RemoteCatalog.RemotePageDescriptor.new at described
  split at described
  · split at described
    · cases described
    · cases described
      exact made
  · cases described

/-- Pages at different indexes have different keys. -/
theorem describePage_inj {blockSize index index' : ℕ}
    {page page' : RemoteCatalog.RemotePageDescriptor}
    (described : describePage blake2b identity blockSize tokenIds index = .ok page)
    (described' : describePage blake2b identity blockSize tokenIds index' = .ok page')
    (sameKey : page.objectKey = page'.objectKey) : index = index' := by
  have parts := (makeKvPageKey_eq_iff (describePage_eq_ok described)
    (describePage_eq_ok described')).mp sameKey
  exact Int.natCast_inj.mp parts.2.2.1

theorem mapM_describePage_nodup {blockSize : ℕ} {indexes : List ℕ}
    {descriptors : List RemoteCatalog.RemotePageDescriptor} (distinct : indexes.Nodup)
    (described : indexes.mapM (describePage blake2b identity blockSize tokenIds) =
      .ok descriptors) : (descriptors.map (·.objectKey)).Nodup := by
  induction indexes generalizing descriptors with
  | nil =>
    cases described
    exact List.nodup_nil
  | cons index indexes ih =>
    rw [List.nodup_cons] at distinct
    rw [List.mapM_cons] at described
    rcases Py.exists_of_bind described with ⟨page, describedPage, described⟩
    rcases Py.exists_of_bind described with ⟨pages, describedPages, described⟩
    cases described
    rw [List.map_cons, List.nodup_cons]
    refine ⟨?_, ih distinct.2 describedPages⟩
    intro member
    rcases List.mem_map.mp member with ⟨page', memberPage, sameKey⟩
    rcases RemoteCatalog.exists_of_mem_mapM describedPages memberPage with
      ⟨index', memberIndex, describedPage'⟩
    have sameIndex := describePage_inj describedPage' describedPage sameKey
    rw [sameIndex] at memberIndex
    exact distinct.1 memberIndex

/-- The pages of a prefix have different keys. -/
theorem describeRemotePrefix_nodup {blockSize : ℕ} {numPages : ℤ} {blockKeys : List BlockKey}
    {descriptors : List RemoteCatalog.RemotePageDescriptor}
    (described : describeRemotePrefix blake2b identity blockSize tokenIds numPages =
      .ok (blockKeys, descriptors)) : (descriptors.map (·.objectKey)).Nodup := by
  unfold describeRemotePrefix at described
  split at described
  · cases described
  · rcases Py.exists_of_bind described with ⟨descriptors', describedPages, described⟩
    cases described
    exact mapM_describePage_nodup List.nodup_range describedPages

/-! ## The key of the catalog -/

/-- `make_kv_catalog_key`. -/
def makeKvCatalogKey (blake2b : Blake2b) (identity : KVCacheIdentity) (tpRank : ℤ)
    (keyNamespace : String := "nanovllm-kv") : Py String :=
  if keyNamespace = "" then .error (.valueError "namespace must not be empty")
  else if ¬ (0 ≤ tpRank ∧ tpRank < identity.tpSize) then
    .error (.valueError "tp_rank is outside the cache identity")
  else
    .ok (keyNamespace ++ "/" ++ identity.digest blake2b ++ "/tp-" ++ toString tpRank ++
      "/catalog-v1")

theorem makeKvCatalogKey_eq_ok {tpRank : ℤ} {keyNamespace key : String}
    (made : makeKvCatalogKey blake2b identity tpRank keyNamespace = .ok key) :
    ∃ rank : ℕ, key.toList = keyNamespace.toList ++ '/' :: ((identity.digest blake2b).toList ++
      '/' :: ("tp-".toList ++ ((toString rank).toList ++ '/' :: "catalog-v1".toList))) := by
  rw [makeKvCatalogKey] at made
  split at made
  · cases made
  · split at made
    · cases made
    · rename_i inside
      cases made
      rcases Int.eq_ofNat_of_zero_le (not_not.mp inside).1 with ⟨rank, rfl⟩
      refine ⟨rank, ?_⟩
      simp only [String.toList_append, toString_natCast]
      simp

/-- No page has the key of the catalog. -/
theorem makeKvPageKey_ne_catalogKey {tpRank tpRank' pageIndex : ℤ} {tokens : List Token}
    {identity' : KVCacheIdentity} {keyNamespace key key' : String}
    (made : makeKvPageKey blake2b identity tpRank pageIndex tokens keyNamespace = .ok key)
    (made' : makeKvCatalogKey blake2b identity' tpRank' keyNamespace = .ok key') : key ≠ key' := by
  rcases makeKvPageKey_eq_ok made with ⟨rank, index, data, -, -, -, text⟩
  rcases makeKvCatalogKey_eq_ok made' with ⟨rank', text'⟩
  rintro rfl
  have sameParts := List.append_cancel_left (text.symm.trans text')
  rcases Delimited.cut_inj (blake2b.slash_notMem _ _) (blake2b.slash_notMem _ _)
    (List.cons.inj sameParts).2 with ⟨-, sameParts⟩
  have sameParts := List.append_cancel_left sameParts
  rcases Delimited.cut_inj (notMem_toString (by decide) _) (notMem_toString (by decide) _)
    sameParts with ⟨-, sameParts⟩
  cases sameParts

end NanoVllm.StorageBackend
