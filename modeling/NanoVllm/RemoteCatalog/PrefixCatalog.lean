import NanoVllm.RemoteCatalog.Codec

/-!
# The catalog and its map

`RemotePrefixCatalog` gives each registered page a handle, indexes the handles in a radix tree
and keeps the descriptors of the handles which the tree took. To its clients it is a map from
token prefixes to descriptors: `register` adds the prefixes which are missing, `match` reads a
longest match and `snapshot` lists the leaves.
-/

namespace NanoVllm.RemoteCatalog

open PathIndex

/-- `RemotePageDescriptor`. -/
@[ext] structure RemotePageDescriptor where
  objectKey : String
  identityDigest : String
  tpRank : ℕ
  pageIndex : ℕ
  named : objectKey ≠ "" ∧ identityDigest ≠ ""

namespace RemotePageDescriptor

instance : DecidableEq RemotePageDescriptor := fun page page' =>
  decidable_of_iff (page.objectKey = page'.objectKey ∧ page.identityDigest = page'.identityDigest ∧
    page.tpRank = page'.tpRank ∧ page.pageIndex = page'.pageIndex) RemotePageDescriptor.ext_iff.symm

theorem named_p : "p" ≠ "" ∧ "a" ≠ "" := by decide

theorem named_q : "q" ≠ "" ∧ "a" ≠ "" := by decide

/-- The constructor with `__post_init__`. -/
def new (objectKey identityDigest : String) (tpRank pageIndex : ℤ) : Py RemotePageDescriptor :=
  if named : objectKey ≠ "" ∧ identityDigest ≠ "" then
    if tpRank < 0 ∨ pageIndex < 0 then
      .error (.valueError "tp_rank and page_index must be non-negative")
    else
      .ok { objectKey, identityDigest, tpRank := tpRank.toNat, pageIndex := pageIndex.toNat, named }
  else .error (.valueError "remote page keys and identities must not be empty")

/-- The model identity and TP rank of a page. -/
def identity (descriptor : RemotePageDescriptor) : String × ℕ :=
  (descriptor.identityDigest, descriptor.tpRank)

end RemotePageDescriptor

/-- The state of `RemotePrefixCatalog`. -/
structure RemotePrefixCatalog where
  index : RadixPrefixCache BlockKey
  descriptors : ℕ → Option RemotePageDescriptor
  nextHandle : ℕ
  identity : Option (String × ℕ)

namespace RemotePrefixCatalog

/-- `RemotePrefixCatalog()`. -/
def empty : RemotePrefixCatalog where
  index := .empty
  descriptors := fun _ => none
  nextHandle := 0
  identity := none

/-- Store the descriptors under their handles and drop the handles which the tree did not take. -/
def storeDescriptors (stored : ℕ → Option RemotePageDescriptor)
    (index : RadixPrefixCache BlockKey) (pages : List (ℕ × RemotePageDescriptor)) (handle : ℕ) :
    Option RemotePageDescriptor :=
  match pages.lookup handle with
  | some descriptor => if index.isIndexed handle then some descriptor else none
  | none => stored handle

/-- `register`. -/
def register (catalog : RemotePrefixCatalog) (blockKeys : List BlockKey)
    (descriptors : List RemotePageDescriptor) : Py RemotePrefixCatalog :=
  if blockKeys.length ≠ descriptors.length then
    .error (.valueError "block keys and remote descriptors must have the same length")
  else if blockKeys = [] then .ok catalog
  else if descriptors.map RemotePageDescriptor.pageIndex ≠ List.range descriptors.length then
    .error (.valueError "remote descriptor page indexes must start at zero")
  else
    match (descriptors.map RemotePageDescriptor.identity).dedup with
    | [identity] =>
        if catalog.identity ≠ none ∧ catalog.identity ≠ some identity then
          .error (.valueError "remote catalog identity does not match its existing entries")
        else do
          let handles := List.range' catalog.nextHandle blockKeys.length
          let index ← catalog.index.insert blockKeys handles
          .ok {
            index
            descriptors := storeDescriptors catalog.descriptors index (handles.zip descriptors)
            nextHandle := catalog.nextHandle + blockKeys.length
            identity := some identity }
    | _ =>
        .error (.valueError "a remote prefix must belong to one model identity and TP rank")

/-- `self.descriptors[handle]`. -/
def descriptor (catalog : RemotePrefixCatalog) (handle : ℕ) : Py RemotePageDescriptor :=
  match catalog.descriptors handle with
  | none => .error (.keyError (toString handle))
  | some descriptor => .ok descriptor

/-- `match`. -/
def matchKeys (catalog : RemotePrefixCatalog) (blockKeys : List BlockKey) :
    Py (RemotePrefixCatalog × List RemotePageDescriptor) := do
  let (index, handles) := catalog.index.matchKeys blockKeys
  let pages ← handles.mapM catalog.descriptor
  .ok ({ catalog with index }, pages)

/-- The record of the page of a handle. -/
def pageRecord (catalog : RemotePrefixCatalog) (handle : ℕ) : Py CatalogPageRecord := do
  let page ← catalog.descriptor handle
  CatalogPageRecord.new (.string page.objectKey : Json Empty) (.string page.identityDigest)
    (intValue page.tpRank) (intValue page.pageIndex)

/-- The record of a leaf. -/
def prefixRecord (catalog : RemotePrefixCatalog) (leaf : List BlockKey × List ℕ) :
    Py CatalogPrefixRecord := do
  let pages ← leaf.2.mapM catalog.pageRecord
  CatalogPrefixRecord.new (leaf.1.map (List.map (intValue : ℤ → Json Empty))) pages

/-- `snapshot`. -/
def snapshot (catalog : RemotePrefixCatalog) : Py (Option RemoteCatalogSnapshot) :=
  match catalog.identity with
  | none => .ok none
  | some (identityDigest, tpRank) => do
      let prefixes ← (catalog.index.root.leavesBelow [] []).mapM catalog.prefixRecord
      let snapshot ← RemoteCatalogSnapshot.new (.string identityDigest : Json Empty)
        (intValue tpRank) prefixes
      .ok (some snapshot)

/-- The descriptor of a page record. -/
def pageDescriptor (page : CatalogPageRecord) : Py RemotePageDescriptor :=
  RemotePageDescriptor.new page.objectKey page.identityDigest page.tpRank page.pageIndex

/-- Register one prefix of a snapshot. -/
def mergeRecord (catalog : RemotePrefixCatalog) (record : CatalogPrefixRecord) :
    Py RemotePrefixCatalog := do
  let descriptors ← record.pages.mapM pageDescriptor
  catalog.register record.blockKeys descriptors

/-- `merge_snapshot`. -/
def mergeSnapshot (catalog : RemotePrefixCatalog) (snapshot : RemoteCatalogSnapshot) :
    Py (RemotePrefixCatalog × ℕ) :=
  if catalog.identity ≠ none ∧
      catalog.identity ≠ some (snapshot.identityDigest, snapshot.tpRank) then
    .error (.valueError "snapshot identity does not match the existing catalog")
  else do
    let catalog ← snapshot.prefixes.foldlM mergeRecord catalog
    .ok (catalog, snapshot.prefixes.length)

/-- The descriptor of a token prefix, the map which the operations are specified by. -/
def page (catalog : RemotePrefixCatalog) (path : List BlockKey) : Option RemotePageDescriptor :=
  (catalog.index.find path).bind catalog.descriptors

end RemotePrefixCatalog

end NanoVllm.RemoteCatalog
