import NanoVllm.RemoteCatalog.RoundTrip

/-!
# The pages a catalog names

What `register`, `merge_snapshot` and `snapshot` do to the descriptors of a catalog, whatever
blocks it holds: a path which has a page keeps it, a new page comes from the arguments, and a
snapshot names pages of the catalog only.
-/

namespace NanoVllm.RemoteCatalog

open PathIndex

theorem exists_of_mem_mapM {α β E : Type} {f : α → Except E β} {items : List α}
    {results : List β} (made : items.mapM f = .ok results) {result : β} (mem : result ∈ results) :
    ∃ item ∈ items, f item = .ok result := by
  induction items generalizing results with
  | nil =>
    cases made
    cases mem
  | cons item items ih =>
    rw [List.mapM_cons] at made
    cases first : f item with
    | error error =>
      rw [first] at made
      cases made
    | ok head =>
      cases rest : items.mapM f with
      | error error =>
        rw [first, rest] at made
        cases made
      | ok tail =>
        rw [first, rest] at made
        cases made
        rcases List.mem_cons.mp mem with rfl | mem
        · exact ⟨item, List.mem_cons_self, first⟩
        · rcases ih rest mem with ⟨item', mem', made'⟩
          exact ⟨item', List.mem_cons_of_mem _ mem', made'⟩

variable {F : Type}

theorem CatalogPrefixRecord.pages_of_new {blocks : List (List (Json F))}
    {pages : List CatalogPageRecord} {record : CatalogPrefixRecord}
    (made : CatalogPrefixRecord.new blocks pages = .ok record) : record.pages = pages := by
  unfold CatalogPrefixRecord.new at made
  split at made
  · cases made
  · split at made
    · cases made
    · split at made
      · cases made
      · cases made
        rfl

theorem RemoteCatalogSnapshot.prefixes_of_new {identityDigest tpRank : Json F}
    {prefixes : List CatalogPrefixRecord} {snapshot : RemoteCatalogSnapshot}
    (made : RemoteCatalogSnapshot.new identityDigest tpRank prefixes = .ok snapshot) :
    snapshot.prefixes = prefixes := by
  unfold RemoteCatalogSnapshot.new at made
  split at made
  · split at made
    · cases made
    · split at made
      · split at made
        · cases made
          rfl
        · cases made
      · cases made
  · cases made

namespace RemotePrefixCatalog

variable {catalog catalog' : RemotePrefixCatalog} {blockKeys : List BlockKey}
  {descriptors : List RemotePageDescriptor}

/-- The descriptors after a registration. -/
structure Adds (catalog : RemotePrefixCatalog) (blockKeys : List BlockKey)
    (descriptors : List RemotePageDescriptor) (catalog' : RemotePrefixCatalog) : Prop where
  consistent : catalog'.Consistent
  kept : ∀ path page, catalog.page path = some page → catalog'.page path = some page
  added : ∀ path page, catalog'.page path = some page → catalog.page path = some page ∨
    ∃ i, catalog.page path = none ∧ path = blockKeys.take (i + 1) ∧ descriptors[i]? = some page

theorem Consistent.register (consistent : catalog.Consistent)
    (registered : catalog.register blockKeys descriptors = .ok catalog') :
    Adds catalog blockKeys descriptors catalog' := by
  rcases register_eq_ok registered with ⟨-, rfl⟩ | ⟨identity, accepts⟩
  · exact ⟨consistent, fun _ _ found => found, fun _ _ found => .inl found⟩
  · rcases consistent.register_accepts accepts with ⟨catalog'', registered', registers⟩
    rw [registered] at registered'
    cases registered'
    have pageEq := registers.page_eq consistent
    refine ⟨registers.consistent accepts consistent, ?_, ?_⟩
    · intro path page found
      rw [pageEq, insertPath_of_found found]
    · intro path page found
      rw [pageEq, insertPath] at found
      cases old : catalog.page path with
      | some page' =>
        rw [old, Option.some_or] at found
        exact .inl found
      | none =>
        rw [old, Option.none_or, Option.ite_none_right_eq_some] at found
        rcases found with ⟨⟨path_ne, isPrefix⟩, get⟩
        have positive := List.length_pos_iff.mpr path_ne
        refine .inr ⟨path.length - 1, rfl, ?_, get⟩
        rw [Nat.sub_add_cancel positive]
        exact List.prefix_iff_eq_take.mp isPrefix

/-- The descriptors after the registration of the records of a snapshot. -/
structure Merges (catalog : RemotePrefixCatalog) (records : List CatalogPrefixRecord)
    (catalog' : RemotePrefixCatalog) : Prop where
  consistent : catalog'.Consistent
  kept : ∀ path page, catalog.page path = some page → catalog'.page path = some page
  added : ∀ path page, catalog'.page path = some page → catalog.page path = some page ∨
    ∃ record ∈ records, ∃ named ∈ record.pages, descriptorOf named = page

theorem Consistent.mergeRecords {records : List CatalogPrefixRecord}
    (consistent : catalog.Consistent)
    (merged : records.foldlM mergeRecord catalog = .ok catalog') :
    Merges catalog records catalog' := by
  induction records generalizing catalog with
  | nil =>
    cases merged
    exact ⟨consistent, fun _ _ found => found, fun _ _ found => .inl found⟩
  | cons record records ih =>
    rw [List.foldlM_cons] at merged
    rcases Py.exists_of_bind merged with ⟨catalog₁, first, merged⟩
    rw [mergeRecord_eq] at first
    have adds := consistent.register first
    have merges := ih adds.consistent merged
    refine ⟨merges.consistent, ?_, ?_⟩
    · exact fun path page found => merges.kept path page (adds.kept path page found)
    · intro path page found
      rcases merges.added path page found with between | ⟨record', mem, named, memPages, same⟩
      · rcases adds.added path page between with old | ⟨i, -, -, get⟩
        · exact .inl old
        · rcases List.mem_map.mp (List.mem_of_getElem? get) with ⟨named, memPages, same⟩
          exact .inr ⟨record, List.mem_cons_self, named, memPages, same⟩
      · exact .inr ⟨record', List.mem_cons_of_mem _ mem, named, memPages, same⟩

theorem Consistent.mergeSnapshot {snapshot : RemoteCatalogSnapshot} {count : ℕ}
    (consistent : catalog.Consistent)
    (merged : catalog.mergeSnapshot snapshot = .ok (catalog', count)) :
    Merges catalog snapshot.prefixes catalog' := by
  unfold RemotePrefixCatalog.mergeSnapshot at merged
  split at merged
  · cases merged
  · rcases Py.exists_of_bind merged with ⟨catalog'', records, merged⟩
    cases merged
    exact consistent.mergeRecords records

/-- `merge_snapshot` raises only before it registers anything. -/
theorem Consistent.mergeSnapshot_ok {snapshot : RemoteCatalogSnapshot}
    (consistent : catalog.Consistent)
    (compatible : catalog.identity = none ∨
      catalog.identity = some (snapshot.identityDigest, snapshot.tpRank)) :
    ∃ catalog', catalog.mergeSnapshot snapshot = .ok (catalog', snapshot.prefixes.length) := by
  have all {records : List CatalogPrefixRecord} {start : RemotePrefixCatalog}
      (startConsistent : start.Consistent)
      (startCompatible : start.identity = none ∨
        start.identity = some (snapshot.identityDigest, snapshot.tpRank))
      (same : ∀ record ∈ records, ∀ page ∈ record.pages,
        (page.identityDigest, page.tpRank) = (snapshot.identityDigest, snapshot.tpRank)) :
      ∃ merged, records.foldlM mergeRecord start = .ok merged := by
    induction records generalizing start with
    | nil => exact ⟨start, rfl⟩
    | cons record records ih =>
      rw [List.forall_mem_cons] at same
      have accepts := accepts_record startCompatible same.1
      rcases startConsistent.register_accepts accepts with ⟨next, registered, registers⟩
      rcases ih (registers.consistent accepts startConsistent) (.inr registers.identity) same.2
        with ⟨merged, rest⟩
      refine ⟨merged, ?_⟩
      rw [List.foldlM_cons, mergeRecord_eq, registered]
      exact rest
  have same : ∀ record ∈ snapshot.prefixes, ∀ page ∈ record.pages,
      (page.identityDigest, page.tpRank) = (snapshot.identityDigest, snapshot.tpRank) := by
    intro record mem page memPages
    rcases snapshot.sameIdentity record mem page memPages with ⟨identity, rank⟩
    rw [identity, rank]
  rcases all consistent compatible same with ⟨merged, records⟩
  refine ⟨merged, ?_⟩
  rw [RemotePrefixCatalog.mergeSnapshot, if_neg fun both => compatible.elim both.1 both.2, records]
  rfl

/-- A page record is made of a descriptor of the catalog. -/
theorem Consistent.pageRecord (consistent : catalog.Consistent) {handle : ℕ}
    {record : CatalogPageRecord} (made : catalog.pageRecord handle = .ok record) :
    ∃ path, catalog.page path = some (descriptorOf record) := by
  cases stored : catalog.descriptors handle with
  | none =>
    have missing : catalog.descriptor handle = .error (.keyError (toString handle)) := by
      rw [RemotePrefixCatalog.descriptor, stored]
    rw [RemotePrefixCatalog.pageRecord, missing] at made
    cases made
  | some descriptor =>
    rw [pageRecord_eq stored] at made
    cases made
    rcases (consistent.described handle).mp (by rw [stored]; exact Option.some_ne_none _)
      with ⟨path, found⟩
    refine ⟨path, ?_⟩
    rw [page, found]
    exact stored

/-- A snapshot names pages of the catalog only. -/
theorem Consistent.snapshot_page (consistent : catalog.Consistent)
    {snapshot : RemoteCatalogSnapshot} (taken : catalog.snapshot = .ok (some snapshot))
    {record : CatalogPrefixRecord} (mem : record ∈ snapshot.prefixes) {named : CatalogPageRecord}
    (memPages : named ∈ record.pages) : ∃ path, catalog.page path = some (descriptorOf named) := by
  unfold RemotePrefixCatalog.snapshot at taken
  split at taken
  · cases taken
  · rename_i identityDigest tpRank identity
    rcases Py.exists_of_bind taken with ⟨records, made, taken⟩
    rcases Py.exists_of_bind taken with ⟨snapshot', built, taken⟩
    cases taken
    rw [RemoteCatalogSnapshot.prefixes_of_new built] at mem
    rcases exists_of_mem_mapM made mem with ⟨leaf, -, madeRecord⟩
    rcases Py.exists_of_bind madeRecord with ⟨pages, madePages, newRecord⟩
    rw [CatalogPrefixRecord.pages_of_new newRecord] at memPages
    rcases exists_of_mem_mapM madePages memPages with ⟨handle, -, madePage⟩
    exact consistent.pageRecord madePage

end RemotePrefixCatalog

end NanoVllm.RemoteCatalog
