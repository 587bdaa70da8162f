import NanoVllm.RemoteCatalog.Map

/-!
# The catalog survives its snapshot

A snapshot lists the leaves of the catalog's map in increasing order, so it depends on the map
alone, and merging it into an empty catalog rebuilds the map.
-/

namespace NanoVllm.RemoteCatalog

open PathIndex

/-- The record of a descriptor. -/
def recordOf (descriptor : RemotePageDescriptor) : CatalogPageRecord where
  objectKey := descriptor.objectKey
  identityDigest := descriptor.identityDigest
  tpRank := descriptor.tpRank
  pageIndex := descriptor.pageIndex
  named := descriptor.named

/-- The descriptor of a record. -/
def descriptorOf (page : CatalogPageRecord) : RemotePageDescriptor where
  objectKey := page.objectKey
  identityDigest := page.identityDigest
  tpRank := page.tpRank
  pageIndex := page.pageIndex
  named := page.named

/-- The leaf which a prefix record describes. -/
def CatalogPrefixRecord.leaf (record : CatalogPrefixRecord) :
    List BlockKey × List RemotePageDescriptor :=
  (record.blockKeys, record.pages.map descriptorOf)

theorem CatalogPrefixRecord.leaf_injective {record record' : CatalogPrefixRecord}
    (same : record.leaf = record'.leaf) : record = record' := by
  rcases Prod.ext_iff.mp same with ⟨blockKeys, pages⟩
  refine CatalogPrefixRecord.ext blockKeys ?_
  have back : ∀ pages : List CatalogPageRecord,
      (pages.map descriptorOf).map recordOf = pages := by
    intro pages
    rw [List.map_map]
    exact List.map_id _
  have mapped := congrArg (List.map recordOf) pages
  simp only [leaf] at mapped
  rwa [back, back] at mapped

theorem CatalogPrefixRecord.exists_page (record : CatalogPrefixRecord) :
    ∃ page, page ∈ record.pages := by
  refine List.exists_mem_of_ne_nil _ fun empty => record.nonempty ?_
  have sameLength := record.sameLength
  rw [empty] at sameLength
  exact List.length_eq_zero_iff.mp sameLength

theorem mapM_ok {α β γ E : Type} {f : α → Except E β} {g : β → γ} {h : α → γ} {items : List α}
    (returns : ∀ item ∈ items, ∃ result, f item = .ok result ∧ g result = h item) :
    ∃ results, items.mapM f = .ok results ∧ results.map g = items.map h := by
  induction items with
  | nil => exact ⟨[], rfl, rfl⟩
  | cons item items ih =>
    rw [List.forall_mem_cons] at returns
    rcases returns.1 with ⟨result, first, same⟩
    rcases ih returns.2 with ⟨results, rest, sameRest⟩
    refine ⟨result :: results, ?_, by rw [List.map_cons, List.map_cons, same, sameRest]⟩
    rw [List.mapM_cons, first, rest]
    rfl

theorem dedup_length_eq_one {sizes : List ℕ} {size : ℕ} (nonempty : sizes ≠ [])
    (all : ∀ size' ∈ sizes, size' = size) : sizes.dedup.length = 1 := by
  rw [RemotePrefixCatalog.dedup_eq_singleton nonempty all]
  rfl

namespace RemotePrefixCatalog

variable {pageSize : ℕ} {catalog catalog' : RemotePrefixCatalog}

/-! ## Snapshots -/

theorem pageRecord_eq {handle : ℕ} {descriptor : RemotePageDescriptor}
    (stored : catalog.descriptors handle = some descriptor) :
    catalog.pageRecord handle = .ok (recordOf descriptor) := by
  have first : catalog.descriptor handle = .ok descriptor := by
    rw [RemotePrefixCatalog.descriptor, stored]
  rw [pageRecord, first]
  exact CatalogPageRecord.new_self (recordOf descriptor)

theorem mapM_pageRecord {handles : List ℕ} {pages : List RemotePageDescriptor}
    (same : pages.map some = handles.map catalog.descriptors) :
    handles.mapM catalog.pageRecord = .ok (pages.map recordOf) := by
  induction handles generalizing pages with
  | nil =>
    cases List.map_eq_nil_iff.mp same
    rfl
  | cons handle handles ih =>
    cases pages with
    | nil => cases same
    | cons page pages =>
      rw [List.map_cons, List.map_cons, List.cons.injEq] at same
      rw [List.mapM_cons, pageRecord_eq same.1.symm, ih same.2]
      rfl

/-- A path of the map with the descriptors along it makes a prefix record. -/
theorem Valid.exists_record (valid : catalog.Valid pageSize) {path : List BlockKey} {pages : List RemotePageDescriptor}
    (found : catalog.page path ≠ none) (along : Along catalog.page path pages) :
    ∃ record : CatalogPrefixRecord, record.blockKeys = path ∧ record.pages = pages.map recordOf := by
  have path_ne : path ≠ [] := by
    rintro rfl
    exact found Valid.page_nil
  have sizes : ∀ size ∈ path.map List.length, size = pageSize := by
    intro size mem
    rcases List.mem_map.mp mem with ⟨block, isBlock, rfl⟩
    exact (valid.checked path found block isBlock).size
  refine ⟨⟨path, pages.map recordOf, path_ne, ?_, ⟨?_, ?_⟩, ?_, ?_⟩, rfl, rfl⟩
  · rw [List.length_map, along.length_eq]
  · exact dedup_length_eq_one (by simpa using path_ne) sizes
  · intro zero
    rcases List.exists_mem_of_ne_nil path path_ne with ⟨block, mem⟩
    have positive := (valid.checked path found block mem).positive
    exact absurd (sizes 0 zero) (by omega)
  · intro i page get
    rw [List.getElem?_map] at get
    rcases Option.map_eq_some_iff.mp get with ⟨descriptor, stored, rfl⟩
    have short := (List.getElem?_eq_some_iff.mp stored).1
    have index := valid.pageIndex _ descriptor (along.get i descriptor stored)
    rw [List.length_take] at index
    have bound := along.length_eq
    change descriptor.pageIndex = i
    omega
  · exact fun block mem => (valid.checked path found block mem).uint32

/-- A leaf of the tree with the descriptors of its handles. -/
def describe (catalog : RemotePrefixCatalog) (leaf : List BlockKey × List ℕ) :
    List BlockKey × List RemotePageDescriptor :=
  (leaf.1, leaf.2.filterMap catalog.descriptors)

theorem Valid.describe_along (valid : catalog.Valid pageSize)
    {leaf : List BlockKey × List ℕ} (along : Along catalog.index.find leaf.1 leaf.2) :
    (catalog.describe leaf).2.map some = leaf.2.map catalog.descriptors ∧
      Along catalog.page leaf.1 (catalog.describe leaf).2 := by
  have stored : ∀ handle ∈ leaf.2, catalog.descriptors handle ≠ none := by
    intro handle mem
    rcases List.getElem?_of_mem mem with ⟨i, get⟩
    exact (valid.described handle).mpr ⟨_, along.get i handle get⟩
  rcases mapM_descriptor stored with ⟨pages, -, same⟩
  have described : (catalog.describe leaf).2 = pages := by
    have joined := congrArg (List.filterMap id) same
    rw [List.filterMap_map, List.filterMap_map] at joined
    rw [Function.id_comp, Function.id_comp, List.filterMap_some] at joined
    exact joined.symm
  have length_eq : pages.length = leaf.2.length := by simpa using congrArg List.length same
  rw [described]
  refine ⟨same, length_eq.trans along.length_eq, ?_⟩
  intro i descriptor get
  rw [getElem?_of_map_some same] at get
  rcases Option.bind_eq_some_iff.mp get with ⟨handle, get, found⟩
  rw [page, along.get i handle get]
  exact found

theorem Valid.isLeaf_page (valid : catalog.Valid pageSize) {path : List BlockKey}
    (isLeaf : IsLeaf catalog.index.find path) : IsLeaf catalog.page path := by
  constructor
  · rw [ne_eq, valid.page_eq_none_iff]
    exact isLeaf.1
  · intro key
    rw [valid.page_eq_none_iff]
    exact isLeaf.2 key

/-- Each leaf of the tree makes the record of its descriptors. -/
theorem Valid.prefixRecord (valid : catalog.Valid pageSize)
    {leaf : List BlockKey × List ℕ} (mem : leaf ∈ catalog.index.root.leavesBelow [] []) :
    ∃ record, catalog.prefixRecord leaf = .ok record ∧ record.leaf = catalog.describe leaf := by
  have lists := valid.index.wellFormed.listsLeaves
  rcases valid.describe_along (lists.along leaf mem) with ⟨same, along⟩
  have isLeaf := valid.isLeaf_page (lists.isLeaf leaf mem)
  rcases valid.exists_record isLeaf.1 along with ⟨record, blockKeys, recordPages⟩
  refine ⟨record, ?_, Prod.ext blockKeys ?_⟩
  · have rebuilt := CatalogPrefixRecord.new_self (F := Empty) record
    rw [blockKeys, recordPages] at rebuilt
    rw [RemotePrefixCatalog.prefixRecord, mapM_pageRecord same]
    exact rebuilt
  · change record.pages.map descriptorOf = _
    rw [recordPages, List.map_map]
    exact List.map_id _

/-- The walk lists the leaves of the map. -/
theorem Valid.listsLeaves (valid : catalog.Valid pageSize) :
    ListsLeaves catalog.page
      ((catalog.index.root.leavesBelow [] []).map catalog.describe) := by
  have lists := valid.index.wellFormed.listsLeaves
  constructor
  · rw [List.forall_mem_map]
    exact fun leaf mem => (valid.describe_along (lists.along leaf mem)).2
  · rw [List.forall_mem_map]
    exact fun leaf mem => valid.isLeaf_page (lists.isLeaf leaf mem)
  · intro path found
    rw [ne_eq, valid.page_eq_none_iff] at found
    rcases lists.covers path found with ⟨leaf, mem, isPrefix⟩
    exact ⟨_, List.mem_map_of_mem mem, isPrefix⟩
  · rw [List.pairwise_map]
    exact lists.increasing

/-- What a snapshot says about a catalog. -/
structure Snapshots (catalog : RemotePrefixCatalog) (snapshot : RemoteCatalogSnapshot) :
    Prop where
  identity : catalog.identity = some (snapshot.identityDigest, snapshot.tpRank)
  leaves : ListsLeaves catalog.page (snapshot.prefixes.map CatalogPrefixRecord.leaf)

theorem leaf_value_page {record : CatalogPrefixRecord} {page : CatalogPageRecord}
    (along : Along catalog.page record.leaf.1 record.leaf.2) (mem : page ∈ record.pages) :
    ∃ path, catalog.page path = some (descriptorOf page) := by
  rcases List.getElem?_of_mem (List.mem_map_of_mem (f := descriptorOf) mem) with ⟨i, get⟩
  exact ⟨_, along.get i _ get⟩

/-- A catalog which is not empty has a snapshot of its leaves. -/
theorem Valid.snapshot (valid : catalog.Valid pageSize) (identity_ne : catalog.identity ≠ none) :
    ∃ snapshot, catalog.snapshot = .ok (some snapshot) ∧ Snapshots catalog snapshot := by
  rcases Option.ne_none_iff_exists'.mp identity_ne with ⟨⟨identityDigest, tpRank⟩, identity⟩
  rcases mapM_ok fun leaf mem => valid.prefixRecord mem with ⟨records, made, leaves⟩
  have lists := valid.listsLeaves
  rw [← leaves] at lists
  have sameIdentity : ∀ record ∈ records, ∀ page ∈ record.pages,
      page.identityDigest = identityDigest ∧ page.tpRank = tpRank := by
    intro record recordMem page pageMem
    have along := lists.along _ (List.mem_map_of_mem recordMem)
    rcases leaf_value_page along pageMem with ⟨path, found⟩
    have same := valid.identified path _ found
    rw [identity] at same
    cases same
    exact ⟨rfl, rfl⟩
  rcases valid.present identity_ne with ⟨path, found⟩
  rcases lists.covers path found with ⟨leaf, mem, -⟩
  rcases List.mem_map.mp mem with ⟨record, recordMem, -⟩
  have identified : identityDigest ≠ "" := by
    rcases record.exists_page with ⟨page, pageMem⟩
    rw [← (sameIdentity record recordMem page pageMem).1]
    exact page.named.2
  have onePageSize :
      ((records.flatMap CatalogPrefixRecord.blockKeys).map List.length).dedup.length = 1 := by
    refine @dedup_length_eq_one _ pageSize ?_ ?_
    · rcases List.exists_mem_of_ne_nil _ record.nonempty with ⟨block, blockMem⟩
      have inside : block ∈ records.flatMap CatalogPrefixRecord.blockKeys :=
        List.mem_flatMap.mpr ⟨record, recordMem, blockMem⟩
      exact List.ne_nil_of_mem (List.mem_map_of_mem inside)
    · intro size sizeMem
      rcases List.mem_map.mp sizeMem with ⟨block, blockMem, rfl⟩
      rcases List.mem_flatMap.mp blockMem with ⟨record, recordMem, blockMem⟩
      have isLeaf := lists.isLeaf _ (List.mem_map_of_mem recordMem)
      exact (valid.checked _ isLeaf.1 block blockMem).size
  let snapshot : RemoteCatalogSnapshot :=
    ⟨identityDigest, tpRank, records, identified, List.ne_nil_of_mem recordMem, onePageSize,
      sameIdentity⟩
  refine ⟨snapshot, ?_, identity, lists⟩
  rw [RemotePrefixCatalog.snapshot, identity]
  dsimp only
  rw [made]
  change (RemoteCatalogSnapshot.new (F := Empty) (.string snapshot.identityDigest)
    (intValue snapshot.tpRank) snapshot.prefixes >>= _) = _
  rw [RemoteCatalogSnapshot.new_self]
  rfl

/-- A snapshot depends on the map alone. -/
theorem Snapshots.unique {snapshot snapshot' : RemoteCatalogSnapshot}
    (closed : PrefixClosed catalog.page) (snapshots : Snapshots catalog snapshot)
    (snapshots' : Snapshots catalog' snapshot') (same : catalog'.page = catalog.page) :
    snapshot = snapshot' := by
  have lists' := snapshots'.leaves
  rw [same] at lists'
  have prefixes : snapshot.prefixes = snapshot'.prefixes :=
    List.map_injective_iff.mpr (fun _ _ => CatalogPrefixRecord.leaf_injective)
      (snapshots.leaves.unique lists' closed)
  rcases List.exists_mem_of_ne_nil _ snapshot.nonempty with ⟨record, mem⟩
  rcases record.exists_page with ⟨page, pageMem⟩
  have identity := snapshot.sameIdentity record mem page pageMem
  have identity' := snapshot'.sameIdentity record (prefixes ▸ mem) page pageMem
  exact RemoteCatalogSnapshot.ext (identity.1.symm.trans identity'.1)
    (identity.2.symm.trans identity'.2) prefixes

/-! ## Merging -/

/-- The record checks on the prefixes of a snapshot, for the page size of a catalog. -/
def SnapshotChecked (pageSize : ℕ) (snapshot : RemoteCatalogSnapshot) : Prop :=
  ∀ record ∈ snapshot.prefixes, ∀ block ∈ record.blockKeys, block.length = pageSize

theorem pageDescriptor_eq (page : CatalogPageRecord) :
    pageDescriptor page = .ok (descriptorOf page) := by
  rw [pageDescriptor, RemotePageDescriptor.new, dif_pos page.named, if_neg (by omega)]
  rfl

theorem mapM_pageDescriptor (pages : List CatalogPageRecord) :
    pages.mapM pageDescriptor = .ok (pages.map descriptorOf) := by
  induction pages with
  | nil => rfl
  | cons page pages ih =>
    rw [List.mapM_cons, pageDescriptor_eq, ih]
    rfl

/-- A record of a compatible snapshot passes the checks of `register`. -/
theorem accepts_record {record : CatalogPrefixRecord} {identity : String × ℕ}
    (compatible : catalog.identity = none ∨ catalog.identity = some identity)
    (sameIdentity : ∀ page ∈ record.pages, (page.identityDigest, page.tpRank) = identity) :
    catalog.Accepts record.blockKeys (record.pages.map descriptorOf) identity := by
  refine ⟨?_, record.nonempty, ?_, ?_, compatible⟩
  · rw [List.length_map, record.sameLength]
  · rw [List.map_map, List.length_map]
    refine List.ext_getElem (by simp) fun i short short' => ?_
    simp only [List.length_map] at short
    rw [List.getElem_map, List.getElem_range]
    exact record.indexed i _ (List.getElem?_eq_getElem short)
  · rw [List.forall_mem_map]
    exact sameIdentity

theorem mergeRecord_eq (record : CatalogPrefixRecord) :
    catalog.mergeRecord record =
      catalog.register record.blockKeys (record.pages.map descriptorOf) := by
  rw [mergeRecord, mapM_pageDescriptor]
  rfl

/-- A record of a compatible snapshot is registered. -/
theorem Valid.mergeRecord (valid : catalog.Valid pageSize) {record : CatalogPrefixRecord}
    {identity : String × ℕ} (compatible : catalog.identity = none ∨ catalog.identity = some identity)
    (sameIdentity : ∀ page ∈ record.pages, (page.identityDigest, page.tpRank) = identity)
    (sizes : ∀ block ∈ record.blockKeys, block.length = pageSize) :
    ∃ catalog', catalog.mergeRecord record = .ok catalog' ∧ catalog'.Valid pageSize ∧
      catalog'.identity = some identity ∧
      catalog'.page = insertPath catalog.page record.leaf.1 record.leaf.2 := by
  have accepts := accepts_record compatible sameIdentity
  have checked : ∀ block ∈ record.blockKeys, BlockChecked pageSize block := by
    intro block mem
    refine ⟨sizes block mem, Nat.pos_of_ne_zero ?_, record.uint32 block mem⟩
    rintro rfl
    exact record.onePageSize.2 (List.mem_map.mpr ⟨block, mem, sizes block mem⟩)
  rcases valid.consistent.register_accepts accepts with ⟨catalog', registered, registers⟩
  refine ⟨catalog', ?_, registers.valid accepts valid checked, registers.identity,
    registers.page_eq valid.consistent⟩
  rw [mergeRecord_eq, registered]

theorem Valid.mergeRecords (valid : catalog.Valid pageSize) {records : List CatalogPrefixRecord}
    {identity : String × ℕ} (compatible : catalog.identity = none ∨ catalog.identity = some identity)
    (sameIdentity : ∀ record ∈ records, ∀ page ∈ record.pages,
      (page.identityDigest, page.tpRank) = identity)
    (sizes : ∀ record ∈ records, ∀ block ∈ record.blockKeys, block.length = pageSize) :
    ∃ catalog', records.foldlM RemotePrefixCatalog.mergeRecord catalog = .ok catalog' ∧
      catalog'.Valid pageSize ∧
      catalog'.page = insertPaths catalog.page (records.map CatalogPrefixRecord.leaf) := by
  induction records generalizing catalog with
  | nil => exact ⟨catalog, rfl, valid, rfl⟩
  | cons record records ih =>
    rw [List.forall_mem_cons] at sameIdentity sizes
    rcases valid.mergeRecord compatible sameIdentity.1 sizes.1 with
      ⟨catalog₁, merged, valid₁, identity₁, page₁⟩
    rcases ih valid₁ (.inr identity₁) sameIdentity.2 sizes.2 with ⟨catalog', rest, valid', page'⟩
    refine ⟨catalog', ?_, valid', ?_⟩
    · rw [List.foldlM_cons, merged]
      exact rest
    · rw [page', page₁]
      rfl

/-- Merging a snapshot of the same identity and page size inserts its leaves. -/
theorem Valid.mergeSnapshot (valid : catalog.Valid pageSize) {snapshot : RemoteCatalogSnapshot}
    (compatible : catalog.identity = none ∨
      catalog.identity = some (snapshot.identityDigest, snapshot.tpRank))
    (checked : SnapshotChecked pageSize snapshot) :
    ∃ catalog', catalog.mergeSnapshot snapshot = .ok (catalog', snapshot.prefixes.length) ∧
      catalog'.Valid pageSize ∧
      catalog'.page = insertPaths catalog.page (snapshot.prefixes.map CatalogPrefixRecord.leaf) := by
  have sameIdentity : ∀ record ∈ snapshot.prefixes, ∀ page ∈ record.pages,
      (page.identityDigest, page.tpRank) = (snapshot.identityDigest, snapshot.tpRank) := by
    intro record mem page pageMem
    rcases snapshot.sameIdentity record mem page pageMem with ⟨identity, rank⟩
    rw [identity, rank]
  rcases valid.mergeRecords compatible sameIdentity checked with ⟨catalog', merged, valid', page'⟩
  refine ⟨catalog', ?_, valid', page'⟩
  rw [RemotePrefixCatalog.mergeSnapshot, if_neg fun both => compatible.elim both.1 both.2, merged]
  rfl

/-- Merging a snapshot into an empty catalog rebuilds the catalog it was taken of. -/
theorem Snapshots.merge {snapshot : RemoteCatalogSnapshot} (valid : catalog.Valid pageSize)
    (snapshots : Snapshots catalog snapshot) :
    ∃ merged, empty.mergeSnapshot snapshot = .ok (merged, snapshot.prefixes.length) ∧
      merged.Valid pageSize ∧ merged.page = catalog.page := by
  have lists := snapshots.leaves
  have checked : SnapshotChecked pageSize snapshot := by
    intro record mem block blockMem
    have isLeaf := lists.isLeaf _ (List.mem_map_of_mem mem)
    exact (valid.checked _ isLeaf.1 block blockMem).size
  rcases empty_valid.mergeSnapshot (.inl rfl) checked with ⟨merged, isMerged, mergedValid, page⟩
  refine ⟨merged, isMerged, mergedValid, ?_⟩
  rw [page, show empty.page = fun _ => none from funext empty_page]
  exact insertPaths_none lists.along lists.covers Valid.page_nil

/-! ## Every catalog -/

/-- The operations which build a catalog, and lookups between them. -/
inductive CatalogOp where
  | register (blockKeys : List BlockKey) (descriptors : List RemotePageDescriptor)
  | mergeSnapshot (snapshot : RemoteCatalogSnapshot)
  | matchKeys (blockKeys : List BlockKey)

/-- The record checks on the prefixes of an operation. -/
def CatalogOp.Checked (pageSize : ℕ) : CatalogOp → Prop
  | .register blockKeys _ => ∀ block ∈ blockKeys, BlockChecked pageSize block
  | .mergeSnapshot snapshot => SnapshotChecked pageSize snapshot
  | .matchKeys _ => True

/-- An operation on the catalog. One which raises does not change it. -/
def apply (catalog : RemotePrefixCatalog) : CatalogOp → RemotePrefixCatalog
  | .register blockKeys descriptors =>
      match catalog.register blockKeys descriptors with
      | .ok catalog' => catalog'
      | .error _ => catalog
  | .mergeSnapshot snapshot =>
      match catalog.mergeSnapshot snapshot with
      | .ok (catalog', _) => catalog'
      | .error _ => catalog
  | .matchKeys blockKeys =>
      match catalog.matchKeys blockKeys with
      | .ok (catalog', _) => catalog'
      | .error _ => catalog

/-- The catalogs built by any sequence of operations on prefixes of one page size. -/
inductive Built (pageSize : ℕ) : RemotePrefixCatalog → Prop
  | empty : Built pageSize .empty
  | step {catalog : RemotePrefixCatalog} {op : CatalogOp} (built : Built pageSize catalog)
      (checked : op.Checked pageSize) : Built pageSize (catalog.apply op)

theorem Valid.apply (valid : catalog.Valid pageSize) {op : CatalogOp}
    (checked : op.Checked pageSize) : (catalog.apply op).Valid pageSize := by
  cases op with
  | register blockKeys descriptors =>
    rw [RemotePrefixCatalog.apply]
    split
    · next registered => exact valid.register checked registered
    · exact valid
  | mergeSnapshot snapshot =>
    by_cases compatible : catalog.identity = none ∨
        catalog.identity = some (snapshot.identityDigest, snapshot.tpRank)
    · rcases valid.mergeSnapshot compatible checked with ⟨catalog', merged, valid', -⟩
      rw [RemotePrefixCatalog.apply, merged]
      exact valid'
    · rw [RemotePrefixCatalog.apply, RemotePrefixCatalog.mergeSnapshot,
        if_pos (not_or.mp compatible)]
      exact valid
  | matchKeys blockKeys =>
    rcases valid.matchKeys blockKeys with ⟨catalog', pages, matched, -, valid', -⟩
    rw [RemotePrefixCatalog.apply, matched]
    exact valid'

theorem Built.valid (built : Built pageSize catalog) : catalog.Valid pageSize := by
  induction built with
  | empty => exact empty_valid
  | step _ checked ih => exact ih.apply checked

/-! ## The round trip -/

/-- Catalogs with the same map return the same descriptors. -/
theorem Valid.matchKeys_eq {pageSize' : ℕ} (valid : catalog.Valid pageSize)
    (valid' : catalog'.Valid pageSize') (same : catalog'.page = catalog.page)
    (blockKeys : List BlockKey) :
    ∃ after after' pages, catalog.matchKeys blockKeys = .ok (after, pages) ∧
      catalog'.matchKeys blockKeys = .ok (after', pages) := by
  rcases valid.matchKeys blockKeys with ⟨after, pages, matched, longest, -⟩
  rcases valid'.matchKeys blockKeys with ⟨after', pages', matched', longest', -⟩
  rw [same] at longest'
  cases longest.unique longest'
  exact ⟨after, after', pages, matched, matched'⟩

/-- Catalogs with the same map have the same snapshot. -/
theorem Snapshots.snapshot_eq {pageSize' : ℕ} {snapshot : RemoteCatalogSnapshot}
    (valid : catalog.Valid pageSize) (snapshots : Snapshots catalog snapshot)
    (valid' : catalog'.Valid pageSize') (same : catalog'.page = catalog.page) :
    catalog'.snapshot = .ok (some snapshot) := by
  have identity_ne : catalog.identity ≠ none := by
    rw [snapshots.identity]
    exact nofun
  rcases valid.present identity_ne with ⟨path, found⟩
  rcases Option.ne_none_iff_exists'.mp found with ⟨descriptor, stored⟩
  rw [← same] at stored
  have identity' := valid'.identified path descriptor stored
  rcases valid'.snapshot (by rw [identity']; exact nofun) with ⟨snapshot', taken, snapshots'⟩
  rw [taken, snapshots.unique valid.page_closed snapshots' same]

open RemoteCatalogSnapshotCodec in
/--
The snapshot of a catalog in which a page has been registered survives its encoding and
determines the catalog: merging it into an empty catalog rebuilds every match, and any catalog
with the same pages, however it was built, encodes to the same bytes.
-/
theorem snapshot_roundTrip {F : Type} (env : CatalogEnv F) (built : Built pageSize catalog) :
    (catalog.snapshot = .ok none ∧ ∀ path, catalog.page path = none) ∨
      ∃ snapshot, catalog.snapshot = .ok (some snapshot) ∧
        (env.loads (env.dumps (envelope env snapshot)) = .ok (envelope env snapshot) →
          decode env (encode env snapshot) = .ok snapshot) ∧
        (∃ merged, empty.mergeSnapshot snapshot = .ok (merged, snapshot.prefixes.length) ∧
          (∀ blockKeys, ∃ after after' pages, catalog.matchKeys blockKeys = .ok (after, pages) ∧
            merged.matchKeys blockKeys = .ok (after', pages)) ∧
          ∃ snapshot', merged.snapshot = .ok (some snapshot') ∧
            encode env snapshot' = encode env snapshot) ∧
        ∀ (pageSize' : ℕ) (catalog' : RemotePrefixCatalog), Built pageSize' catalog' →
          catalog'.page = catalog.page → ∃ snapshot', catalog'.snapshot = .ok (some snapshot') ∧
            encode env snapshot' = encode env snapshot := by
  have valid := built.valid
  cases identity : catalog.identity with
  | none =>
    refine .inl ⟨by rw [RemotePrefixCatalog.snapshot, identity], fun path => ?_⟩
    by_contra found
    rcases Option.ne_none_iff_exists'.mp found with ⟨descriptor, stored⟩
    have some := valid.identified path descriptor stored
    rw [identity] at some
    cases some
  | some _ =>
    rcases valid.snapshot (by rw [identity]; exact nofun) with ⟨snapshot, taken, snapshots⟩
    rcases snapshots.merge valid with ⟨merged, isMerged, mergedValid, samePages⟩
    refine .inr ⟨snapshot, taken, decode_encode env snapshot, ⟨merged, isMerged, ?_, ?_⟩, ?_⟩
    · exact valid.matchKeys_eq mergedValid samePages
    · exact ⟨snapshot, snapshots.snapshot_eq valid mergedValid samePages, rfl⟩
    · intro pageSize' catalog' built' same
      exact ⟨snapshot, snapshots.snapshot_eq valid built'.valid same, rfl⟩

/-- A catalog of one prefix of two pages. -/
def twoPages : RemotePrefixCatalog :=
  empty.apply (.register [[1, 2], [3, 4]] [⟨"p", "a", 0, 0, RemotePageDescriptor.named_p⟩, ⟨"q", "a", 0, 1, RemotePageDescriptor.named_q⟩])

theorem twoPages_built : Built 2 twoPages := by
  refine .step .empty ?_
  intro block mem
  simp only [List.mem_cons, List.not_mem_nil, or_false] at mem
  rcases mem with rfl | rfl
  · exact ⟨rfl, by decide, by decide⟩
  · exact ⟨rfl, by decide, by decide⟩

/-- The snapshot of `twoPages`. -/
def twoPagesSnapshot : RemoteCatalogSnapshot where
  identityDigest := "a"
  tpRank := 0
  prefixes := [{
    blockKeys := [[1, 2], [3, 4]]
    pages := [⟨"p", "a", 0, 0, by decide⟩, ⟨"q", "a", 0, 1, by decide⟩]
    nonempty := by decide
    sameLength := rfl
    onePageSize := by decide
    indexed := by
      intro i page get
      match i with
      | 0 =>
        cases get
        rfl
      | 1 =>
        cases get
        rfl
    uint32 := by decide }]
  identified := by decide
  nonempty := nofun
  onePageSize := rfl
  sameIdentity := by decide

/-- The JSON text of the payload of `twoPages`. -/
def twoPagesPayload : String :=
  "\x7b\"identity_digest\":\"a\",\"prefixes\":[\x7b\"block_keys\":[[1,2],[3,4]],\"pages\":[" ++
    "\x7b\"identity_digest\":\"a\",\"object_key\":\"p\",\"page_index\":0,\"tp_rank\":0\x7d," ++
    "\x7b\"identity_digest\":\"a\",\"object_key\":\"q\",\"page_index\":1,\"tp_rank\":0\x7d" ++
    "]\x7d],\"tp_rank\":0\x7d"

/-- The checksum of `twoPagesPayload`. -/
def twoPagesChecksum : String := "9582dc62e080a7796ac27591e43c380e"

open RemoteCatalogSnapshotCodec in
/-- The JSON module and the hash function on the documents of `twoPages`. -/
def twoPagesEnv : CatalogEnv Empty where
  dumps := fun
    | .object [_, _, _] => twoPagesPayload.toUTF8.data.toList
    | _ => ("\x7b\"checksum\":\"" ++ twoPagesChecksum ++ "\",\"payload\":" ++ twoPagesPayload ++
        ",\"schema\":\"nanovllm-remote-prefix-catalog\",\"version\":1\x7d").toUTF8.data.toList
  loads := fun _ => .ok (.object [
    ("checksum", .string twoPagesChecksum),
    ("payload", payload twoPagesSnapshot),
    ("schema", .string catalogSchema),
    ("version", .number (.int catalogVersion))])
  hexdigest := fun _ => twoPagesChecksum
  hexdigest_ascii := by
    intro _ c mem
    have all : (twoPagesChecksum.toList.all fun c => c.toNat < 128) = true := by decide +kernel
    exact of_decide_eq_true (List.all_eq_true.mp all c mem)

open RemoteCatalogSnapshotCodec in
theorem snapshot_roundTrip_twoPages :
    twoPages.snapshot = .ok (some twoPagesSnapshot) ∧
      decode twoPagesEnv (encode twoPagesEnv twoPagesSnapshot) = .ok twoPagesSnapshot ∧
      ∃ merged, empty.mergeSnapshot twoPagesSnapshot = .ok (merged, 1) ∧
        ∃ snapshot', merged.snapshot = .ok (some snapshot') ∧
          encode twoPagesEnv snapshot' = encode twoPagesEnv twoPagesSnapshot := by
  have taken : twoPages.snapshot = .ok (some twoPagesSnapshot) := by rfl
  rcases snapshot_roundTrip twoPagesEnv twoPages_built with ⟨absent, -⟩ | ⟨snapshot, taken', decoded,
    ⟨merged, isMerged, -, remerged⟩, -⟩
  · rw [taken] at absent
    cases absent
  · rw [taken] at taken'
    cases taken'
    exact ⟨taken, decoded rfl, merged, isMerged, remerged⟩

end RemotePrefixCatalog

end NanoVllm.RemoteCatalog
