import NanoVllm.ModelRunner.WriteIsolation
import NanoVllm.RemoteRestore
import NanoVllm.StorageBackend.PageKey

/-!
# Write-backs

After the run of a batch `_enqueue_remote_writebacks` exports pages which the run has completed and
hands them to the remote restore service, under keys made of the tokens up to the end of the page.
An exception in the treatment of one request is recorded and ends that treatment only. Without a
service nothing is exported. The records of failures are left out.
-/

namespace NanoVllm

open RemoteRestore StorageBackend

/-- `completed_kv_page_span`. -/
def completedKvPageSpan (numCachedTokens numScheduledTokens blockSize : ℕ) : Py (ℕ × ℕ) :=
  if blockSize = 0 then
    .error (.valueError "token counts must be non-negative and block_size positive")
  else .ok (numCachedTokens / blockSize, (numCachedTokens + numScheduledTokens) / blockSize)

/-- What write-backs read of the engine, besides the page size. -/
structure WritebackEnv where
  remoteKvWriteback : Bool
  remoteKvMinPrefixBlocks : ℕ
  kvCacheIdentity : KVCacheIdentity
  blake2b : Blake2b
  /-- `export_kv_page(block_id, identity_digest, page_index)` of the model runner. -/
  exportKvPage : BlockId → String → ℕ → Transfer.Payload

/-- The pages exported for one request, by their indices, with the descriptors of its prefix. -/
structure Writeback where
  descriptors : List RemoteCatalog.RemotePageDescriptor
  pages : List (ℕ × BlockId)

namespace WritebackEnv

variable {cfg : Config} {env : WritebackEnv}

/-- The descriptors of some pages of a prefix. -/
def describePages (env : WritebackEnv) (cfg : Config) (tokenIds : List Token) :
    List ℕ → Py (List RemoteCatalog.RemotePageDescriptor)
  | [] => .ok []
  | index :: indices => do
      let objectKey ← makeKvPageKey env.blake2b env.kvCacheIdentity 0 index
        (tokenIds.take ((index + 1) * cfg.blockSize))
      let descriptor ← RemoteCatalog.RemotePageDescriptor.new objectKey
        (env.kvCacheIdentity.digest env.blake2b) 0 index
      let descriptors ← env.describePages cfg tokenIds indices
      .ok (descriptor :: descriptors)

/-- `_describe_remote_prefix`. -/
def describeRemotePrefix (env : WritebackEnv) (cfg : Config) (tokenIds : List Token)
    (numPages : ℕ) : Py (List BlockKey × List RemoteCatalog.RemotePageDescriptor) :=
  if numPages = 0 ∨ tokenIds.length < numPages * cfg.blockSize then
    .error (.valueError "token_ids do not contain every remote KV page")
  else do
    let descriptors ← env.describePages cfg tokenIds (List.range numPages)
    .ok ((List.range numPages).map fun index =>
      (tokenIds.drop (index * cfg.blockSize)).take cfg.blockSize, descriptors)

/-- The pages which are exported, with their indices. -/
def exportPages (seq : Sequence) : List ℕ → Py (List (ℕ × BlockId))
  | [] => .ok []
  | index :: required => do
      let blockId ← ModelRunner.tableEntry seq index
      let pages ← exportPages seq required
      .ok ((index, blockId) :: pages)

/-- The exported envelopes of some pages. -/
def envelopes (env : WritebackEnv) (pages : List (ℕ × BlockId)) : Envelopes := fun index =>
  (pages.lookup index).map fun blockId =>
    env.exportKvPage blockId (env.kvCacheIdentity.digest env.blake2b) index

/-- The `try` block of the loop over the requests. -/
def writeBack (env : WritebackEnv) (cfg : Config) (service : Service) (seq : Sequence)
    (completedPages : ℕ) : Service × Option Writeback :=
  match env.describeRemotePrefix cfg seq.tokenIds completedPages with
  | .error _ => (service, none)
  | .ok (blockKeys, descriptors) =>
      match service.pagesRequiringWrite blockKeys descriptors with
      | (service, .error _) => (service, none)
      | (service, .ok required) =>
          match exportPages seq required with
          | .error _ => (service, none)
          | .ok pages =>
              ((service.submitWriteback blockKeys descriptors (env.envelopes pages)).1,
                some { descriptors, pages })

/-- The loop over the requests of a batch. -/
def writeBackLoop (env : WritebackEnv) (cfg : Config) :
    Service → List Sequence → Py (Service × List Writeback)
  | service, [] => .ok (service, [])
  | service, seq :: seqs =>
      if seq.kvCompressed then env.writeBackLoop cfg service seqs
      else do
        let (previousPages, completedPages) ←
          completedKvPageSpan seq.numCachedTokens seq.numScheduledTokens cfg.blockSize
        if completedPages = previousPages ∨ completedPages < env.remoteKvMinPrefixBlocks then
          env.writeBackLoop cfg service seqs
        else do
          let (service, writeback) := env.writeBack cfg service seq completedPages
          let (service, writebacks) ← env.writeBackLoop cfg service seqs
          .ok (service, writeback.toList ++ writebacks)

/-- `_enqueue_remote_writebacks`, with what it has exported. -/
def enqueueRemoteWritebacks (env : WritebackEnv) (cfg : Config) (service : Service)
    (seqs : List Sequence) : Py (Service × List Writeback) :=
  if env.remoteKvWriteback then env.writeBackLoop cfg service seqs else .ok (service, [])

end WritebackEnv

/-! ## What is exported -/

theorem RemoteCatalog.RemotePageDescriptor.objectKey_new {objectKey identityDigest : String}
    {tpRank pageIndex : ℤ} {descriptor : RemoteCatalog.RemotePageDescriptor}
    (created : RemotePageDescriptor.new objectKey identityDigest tpRank pageIndex =
      .ok descriptor) : descriptor.objectKey = objectKey := by
  unfold new at created
  split at created
  · split at created
    · cases created
    · cases created
      rfl
  · cases created

namespace WritebackEnv

variable {cfg : Config} {env : WritebackEnv}

theorem describePages_getElem? {tokenIds : List Token} {indices : List ℕ}
    {descriptors : List RemoteCatalog.RemotePageDescriptor}
    (described : env.describePages cfg tokenIds indices = .ok descriptors) {k : ℕ}
    {descriptor : RemoteCatalog.RemotePageDescriptor} (get : descriptors[k]? = some descriptor) :
    ∃ index, indices[k]? = some index ∧
      makeKvPageKey env.blake2b env.kvCacheIdentity 0 index
        (tokenIds.take ((index + 1) * cfg.blockSize)) = .ok descriptor.objectKey := by
  induction indices generalizing descriptors k with
  | nil =>
    cases described
    simp at get
  | cons first indices ih =>
    rcases Py.exists_of_bind described with ⟨objectKey, made, described⟩
    rcases Py.exists_of_bind described with ⟨created, new, described⟩
    rcases Py.exists_of_bind described with ⟨rest, describedRest, returned⟩
    cases returned
    cases k with
    | zero =>
      cases get
      refine ⟨first, rfl, ?_⟩
      rw [made, RemoteCatalog.RemotePageDescriptor.objectKey_new new]
    | succ k => exact ih describedRest get

/-- A described page has its place in the prefix, and a key made of the tokens up to its end. -/
theorem describeRemotePrefix_getElem? {tokenIds : List Token} {numPages : ℕ}
    {blockKeys : List BlockKey} {descriptors : List RemoteCatalog.RemotePageDescriptor}
    (described : env.describeRemotePrefix cfg tokenIds numPages = .ok (blockKeys, descriptors))
    {index : ℕ} {descriptor : RemoteCatalog.RemotePageDescriptor}
    (get : descriptors[index]? = some descriptor) :
    index < numPages ∧
      makeKvPageKey env.blake2b env.kvCacheIdentity 0 index
        (tokenIds.take ((index + 1) * cfg.blockSize)) = .ok descriptor.objectKey := by
  unfold describeRemotePrefix at described
  split at described
  · cases described
  · rcases Py.exists_of_bind described with ⟨descriptors', describedAll, returned⟩
    cases returned
    rcases describePages_getElem? describedAll get with ⟨index', inRange, made⟩
    rcases List.getElem?_eq_some_iff.mp inRange with ⟨short, same⟩
    rw [List.length_range] at short
    rw [List.getElem_range] at same
    rw [← same] at made
    exact ⟨short, made⟩

/-- The pages which `pages_requiring_write` returns are among the described ones. -/
theorem mem_requirePages {service : Service}
    {pages : List (RemoteCatalog.RemotePageDescriptor × ℕ)} {index : ℕ}
    (mem : index ∈ (service.requirePages pages).2) : ∃ descriptor, (descriptor, index) ∈ pages := by
  induction pages generalizing service with
  | nil => cases mem
  | cons page pages ih =>
    have further : ∀ {service : Service}, index ∈ (service.requirePages pages).2 →
        ∃ descriptor, (descriptor, index) ∈ page :: pages := by
      intro service mem
      rcases ih mem with ⟨descriptor, listed⟩
      exact ⟨descriptor, List.mem_cons_of_mem _ listed⟩
    rcases page with ⟨descriptor, first⟩
    unfold Service.requirePages at mem
    split at mem
    · cases mem with
      | head => exact ⟨descriptor, List.mem_cons_self⟩
      | tail _ mem => exact further mem
    · split at mem
      · cases mem with
        | head => exact ⟨descriptor, List.mem_cons_self⟩
        | tail _ mem => exact further mem
      · exact further mem

theorem mem_pagesRequiringWrite {service service' : Service} {blockKeys : List BlockKey}
    {descriptors : List RemoteCatalog.RemotePageDescriptor} {required : List ℕ}
    (returned : service.pagesRequiringWrite blockKeys descriptors = (service', .ok required))
    {index : ℕ} (mem : index ∈ required) : ∃ descriptor, descriptors[index]? = some descriptor := by
  unfold Service.pagesRequiringWrite at returned
  split at returned
  · cases returned
  · split at returned
    · cases returned
    · cases returned
      rcases mem_requirePages mem with ⟨descriptor, described⟩
      refine ⟨descriptor, ?_⟩
      exact List.mem_zipIdx_iff_getElem?.mp (List.mem_of_mem_drop described)

theorem exportPages_getElem? {seq : Sequence} {required : List ℕ} {pages : List (ℕ × BlockId)}
    (exported : exportPages seq required = .ok pages) {index : ℕ} {blockId : BlockId}
    (mem : (index, blockId) ∈ pages) :
    index ∈ required ∧ seq.blockTable[index]? = some blockId := by
  induction required generalizing pages with
  | nil =>
    cases exported
    cases mem
  | cons first required ih =>
    rcases Py.exists_of_bind exported with ⟨blockId', entry, exported⟩
    rcases Py.exists_of_bind exported with ⟨rest, exportedRest, returned⟩
    cases returned
    cases mem with
    | head =>
      refine ⟨List.mem_cons_self, ?_⟩
      unfold ModelRunner.tableEntry at entry
      split at entry
      · cases entry
      · next get =>
        cases entry
        exact get
    | tail _ mem =>
      rcases ih exportedRest mem with ⟨required, get⟩
      exact ⟨List.mem_cons_of_mem _ required, get⟩

/-- What is exported for one request: completed pages of it, under the keys of their prefixes. -/
structure Exports (env : WritebackEnv) (cfg : Config) (seq : Sequence) (writeback : Writeback) :
    Prop where
  uncompressed : seq.kvCompressed = false
  page : ∀ index blockId, (index, blockId) ∈ writeback.pages →
    (index + 1) * cfg.blockSize ≤ seq.computedTokens ∧ seq.blockTable[index]? = some blockId ∧
      ∃ descriptor, writeback.descriptors[index]? = some descriptor ∧
        makeKvPageKey env.blake2b env.kvCacheIdentity 0 index
          (seq.tokenIds.take ((index + 1) * cfg.blockSize)) = .ok descriptor.objectKey

theorem writeBack_exports {service service' : Service} {seq : Sequence} {writeback : Writeback}
    (uncompressed : seq.kvCompressed = false)
    (wrote : env.writeBack cfg service seq (seq.computedTokens / cfg.blockSize) =
      (service', some writeback)) : Exports env cfg seq writeback := by
  unfold writeBack at wrote
  split at wrote
  · cases wrote
  · next blockKeys descriptors described =>
    split at wrote
    · cases wrote
    · next required requires =>
      split at wrote
      · cases wrote
      · next pages exported =>
        cases wrote
        refine ⟨uncompressed, fun index blockId mem => ?_⟩
        rcases exportPages_getElem? exported mem with ⟨required, entry⟩
        rcases mem_pagesRequiringWrite requires required with ⟨descriptor, get⟩
        rcases describeRemotePrefix_getElem? described get with ⟨short, made⟩
        refine ⟨?_, entry, descriptor, get, made⟩
        exact (Nat.le_div_iff_mul_le cfg.blockSize_pos).mp short

theorem writeBackLoop_exports (env : WritebackEnv) (service : Service) (seqs : List Sequence) :
    ∃ service' writebacks, env.writeBackLoop cfg service seqs = .ok (service', writebacks) ∧
      ∀ writeback ∈ writebacks, ∃ seq ∈ seqs, Exports env cfg seq writeback := by
  induction seqs generalizing service with
  | nil => exact ⟨service, [], rfl, nofun⟩
  | cons seq seqs ih =>
    have skipped : ∃ service' writebacks, env.writeBackLoop cfg service seqs =
        .ok (service', writebacks) ∧
          ∀ writeback ∈ writebacks, ∃ other ∈ seq :: seqs, Exports env cfg other writeback := by
      rcases ih service with ⟨service', writebacks, looped, exports⟩
      refine ⟨service', writebacks, looped, fun writeback mem => ?_⟩
      rcases exports writeback mem with ⟨other, listed, exported⟩
      exact ⟨other, List.mem_cons_of_mem _ listed, exported⟩
    unfold writeBackLoop
    split
    · exact skipped
    · next uncompressed =>
      simp only [completedKvPageSpan, cfg.blockSize_pos.ne', if_false, Py.ok_bind]
      split
      · exact skipped
      · cases wrote : env.writeBack cfg service seq
          ((seq.numCachedTokens + seq.numScheduledTokens) / cfg.blockSize) with
        | mk service₁ writeback =>
          rcases ih service₁ with ⟨service', writebacks, looped, exports⟩
          refine ⟨service', writeback.toList ++ writebacks, ?_, fun written mem => ?_⟩
          · simp only [looped, Py.ok_bind]
          · rcases List.mem_append.mp mem with own | later
            · cases Option.mem_toList.mp own
              refine ⟨seq, List.mem_cons_self, writeBack_exports ?_ wrote⟩
              exact Bool.eq_false_of_not_eq_true uncompressed
            · rcases exports written later with ⟨other, listed, exported⟩
              exact ⟨other, List.mem_cons_of_mem _ listed, exported⟩

/-- The write-backs of a batch never raise, and each belongs to a request of the batch. -/
theorem enqueueRemoteWritebacks_exports (env : WritebackEnv) (service : Service)
    (seqs : List Sequence) :
    ∃ service' writebacks,
      env.enqueueRemoteWritebacks cfg service seqs = .ok (service', writebacks) ∧
        ∀ writeback ∈ writebacks, ∃ seq ∈ seqs, Exports env cfg seq writeback := by
  unfold enqueueRemoteWritebacks
  split
  · exact writeBackLoop_exports env service seqs
  · exact ⟨service, [], rfl, nofun⟩

end WritebackEnv

end NanoVllm
