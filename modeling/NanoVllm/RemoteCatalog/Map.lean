import NanoVllm.RemoteCatalog.PrefixCatalog

/-!
# The catalog as a map of paths

The invariant of the catalog, and what `register` and `match` do to the map from token prefixes
to descriptors: `register` inserts the missing prefixes of its path, `match` reads the longest
match.
-/

namespace NanoVllm.RemoteCatalog

open PathIndex

/-- The record checks on a token block. -/
structure BlockChecked (pageSize : ℕ) (block : BlockKey) : Prop where
  size : block.length = pageSize
  positive : 0 < pageSize
  uint32 : ∀ token ∈ block, 0 ≤ token ∧ token < 2 ^ 32

namespace RemotePrefixCatalog

/-- The tree and the descriptors agree, whatever the blocks and the records are. -/
structure Consistent (catalog : RemotePrefixCatalog) : Prop where
  index : catalog.index.Valid
  closed : PrefixClosed catalog.index.find
  described : ∀ handle, catalog.descriptors handle ≠ none ↔
    ∃ path, catalog.index.find path = some handle
  handle_lt : ∀ handle, catalog.descriptors handle ≠ none → handle < catalog.nextHandle

/-- The invariant of the catalog. -/
structure Valid (pageSize : ℕ) (catalog : RemotePrefixCatalog) : Prop where
  index : catalog.index.Valid
  closed : PrefixClosed catalog.index.find
  described : ∀ handle, catalog.descriptors handle ≠ none ↔
    ∃ path, catalog.index.find path = some handle
  handle_lt : ∀ handle, catalog.descriptors handle ≠ none → handle < catalog.nextHandle
  identified : ∀ path descriptor, catalog.page path = some descriptor →
    catalog.identity = some descriptor.identity
  pageIndex : ∀ path descriptor, catalog.page path = some descriptor →
    descriptor.pageIndex + 1 = path.length
  checked : ∀ path, catalog.page path ≠ none → ∀ block ∈ path, BlockChecked pageSize block
  present : catalog.identity ≠ none → ∃ path, catalog.page path ≠ none

variable {pageSize : ℕ} {catalog catalog' : RemotePrefixCatalog} {blockKeys : List BlockKey}
  {descriptors : List RemotePageDescriptor}

theorem empty_page (path : List BlockKey) : empty.page path = none := by
  simp [page, empty, RadixPrefixCache.find, RadixPrefixCache.empty]

theorem empty_valid : empty.Valid pageSize where
  index := RadixPrefixCache.empty_valid
  closed := by
    intro path path' _ _ found
    exact absurd (RadixForest.find_nil path) found
  described := by
    intro handle
    simp [empty, RadixPrefixCache.find, RadixPrefixCache.empty]
  handle_lt := by
    intro handle stored
    exact absurd rfl stored
  identified := by
    intro path descriptor found
    rw [empty_page] at found
    cases found
  pageIndex := by
    intro path descriptor found
    rw [empty_page] at found
    cases found
  checked := by
    intro path found
    exact absurd (empty_page path) found
  present := by
    intro identity
    exact absurd rfl identity

theorem Valid.consistent (valid : catalog.Valid pageSize) : catalog.Consistent where
  index := valid.index
  closed := valid.closed
  described := valid.described
  handle_lt := valid.handle_lt

theorem Consistent.page_eq_none_iff (consistent : catalog.Consistent) {path : List BlockKey} :
    catalog.page path = none ↔ catalog.index.find path = none := by
  rw [page]
  cases found : catalog.index.find path with
  | none => simp
  | some handle =>
    have stored := (consistent.described handle).mpr ⟨path, found⟩
    simp [stored]

namespace Valid

theorem page_eq_none_iff (valid : catalog.Valid pageSize) {path : List BlockKey} :
    catalog.page path = none ↔ catalog.index.find path = none :=
  valid.consistent.page_eq_none_iff

theorem page_closed (valid : catalog.Valid pageSize) : PrefixClosed catalog.page := by
  intro path path' path'_ne isPrefix found
  rw [ne_eq, valid.page_eq_none_iff] at found ⊢
  exact valid.closed path path' path'_ne isPrefix found

theorem page_nil : catalog.page [] = none := by
  simp [page, RadixPrefixCache.find]

end Valid

/-! ## Registration -/

/-- What `register` checks of a path which is not empty. -/
structure Accepts (catalog : RemotePrefixCatalog) (blockKeys : List BlockKey)
    (descriptors : List RemotePageDescriptor) (identity : String × ℕ) : Prop where
  sameLength : blockKeys.length = descriptors.length
  nonempty : blockKeys ≠ []
  indexed : descriptors.map RemotePageDescriptor.pageIndex = List.range descriptors.length
  oneIdentity : ∀ descriptor ∈ descriptors, descriptor.identity = identity
  compatible : catalog.identity = none ∨ catalog.identity = some identity

theorem lookup_zip_range' {α : Type} (start : ℕ) (values : List α) (handle : ℕ) :
    ((List.range' start values.length).zip values).lookup handle =
      if start ≤ handle then values[handle - start]? else none := by
  induction values generalizing start with
  | nil => simp
  | cons value values ih =>
    rw [List.length_cons, List.range'_succ, List.zip_cons_cons, List.lookup_cons, ih]
    by_cases first : handle = start
    · subst first
      simp
    · have differ : (handle == start) = false := by simpa using first
      rw [differ]
      by_cases after : start ≤ handle
      · have position : handle - start = handle - (start + 1) + 1 := by omega
        rw [if_pos (by omega : start + 1 ≤ handle), if_pos after, position,
          List.getElem?_cons_succ]
      · rw [if_neg (by omega), if_neg after]

/-- The handles of a registration are fresh. -/
theorem Consistent.freshIds (consistent : catalog.Consistent) (n : ℕ) :
    catalog.index.FreshIds blockKeys (List.range' catalog.nextHandle n) where
  fresh := by
    intro i handle get _ path found
    have stored := (consistent.described handle).mpr ⟨path, found⟩
    have bound := consistent.handle_lt handle stored
    have mem := List.mem_of_getElem? get
    rw [List.mem_range'_1] at mem
    omega
  distinct := by
    intro i j handle get get' _ _
    rcases List.getElem?_eq_some_iff.mp get with ⟨_, rfl⟩
    rcases List.getElem?_eq_some_iff.mp get' with ⟨_, same⟩
    exact ((List.nodup_range' (n := n)).getElem_inj_iff.mp same).symm

/-- The catalog after an accepted registration. -/
structure Registers (catalog : RemotePrefixCatalog) (blockKeys : List BlockKey)
    (descriptors : List RemotePageDescriptor) (identity : String × ℕ)
    (catalog' : RemotePrefixCatalog) : Prop where
  index : catalog'.index.Valid
  find : catalog'.index.find = insertPath catalog.index.find blockKeys
    (List.range' catalog.nextHandle blockKeys.length)
  descriptors : ∀ handle, catalog'.descriptors handle =
    if catalog.nextHandle ≤ handle ∧ handle < catalog.nextHandle + blockKeys.length then
      if catalog'.index.isIndexed handle then descriptors[handle - catalog.nextHandle]? else none
    else catalog.descriptors handle
  nextHandle : catalog'.nextHandle = catalog.nextHandle + blockKeys.length
  identity : catalog'.identity = some identity

theorem dedup_eq_singleton {α : Type} [DecidableEq α] {values : List α} {value : α}
    (nonempty : values ≠ []) (all : ∀ value' ∈ values, value' = value) :
    values.dedup = [value] := by
  have repeated : values = List.replicate values.length value :=
    List.eq_replicate_of_mem all
  rw [repeated]
  exact List.replicate_dedup (by simpa using nonempty)

theorem Consistent.register_accepts (consistent : catalog.Consistent) {identity : String × ℕ}
    (accepts : catalog.Accepts blockKeys descriptors identity) :
    ∃ catalog', catalog.register blockKeys descriptors = .ok catalog' ∧
      Registers catalog blockKeys descriptors identity catalog' := by
  rcases consistent.index.insert_ok (consistent.freshIds blockKeys.length)
    List.length_range'.symm List.nodup_range' with ⟨index, inserted, indexValid, find⟩
  have identities : (descriptors.map RemotePageDescriptor.identity).dedup = [identity] := by
    refine dedup_eq_singleton ?_ ?_
    · intro none
      have empty := congrArg List.length (List.map_eq_nil_iff.mp none)
      rw [← accepts.sameLength] at empty
      exact accepts.nonempty (List.length_eq_zero_iff.mp empty)
    · intro other mem
      rcases List.mem_map.mp mem with ⟨descriptor, isPage, rfl⟩
      exact accepts.oneIdentity descriptor isPage
  have compatible : ¬(catalog.identity ≠ none ∧ catalog.identity ≠ some identity) := by
    rintro ⟨some, other⟩
    exact accepts.compatible.elim some other
  let handles := List.range' catalog.nextHandle blockKeys.length
  refine ⟨⟨index, storeDescriptors catalog.descriptors index (handles.zip descriptors),
    catalog.nextHandle + blockKeys.length, some identity⟩, ?_, ?_⟩
  · unfold register
    rw [if_neg (not_not.mpr accepts.sameLength), if_neg accepts.nonempty,
      if_neg (not_not.mpr accepts.indexed), identities]
    dsimp only
    rw [if_neg compatible, inserted]
    rfl
  · refine ⟨indexValid, find, ?_, rfl, rfl⟩
    intro handle
    have lookup := lookup_zip_range' catalog.nextHandle descriptors handle
    rw [← accepts.sameLength] at lookup
    change storeDescriptors catalog.descriptors index
      ((List.range' catalog.nextHandle blockKeys.length).zip descriptors) handle = _
    rw [storeDescriptors, lookup]
    by_cases after : catalog.nextHandle ≤ handle
    · rw [if_pos after]
      by_cases before : handle < catalog.nextHandle + blockKeys.length
      · have short : handle - catalog.nextHandle < descriptors.length := by
          rw [← accepts.sameLength]
          omega
        rw [if_pos ⟨after, before⟩, List.getElem?_eq_getElem short]
      · have long : descriptors[handle - catalog.nextHandle]? = none := by
          rw [List.getElem?_eq_none_iff, ← accepts.sameLength]
          omega
        rw [if_neg fun both => before both.2, long]
    · rw [if_neg after, if_neg fun both => after both.1]

/-- What makes `register` return. -/
theorem register_eq_ok (registered : catalog.register blockKeys descriptors = .ok catalog') :
    (blockKeys = [] ∧ catalog' = catalog) ∨
      ∃ identity, catalog.Accepts blockKeys descriptors identity := by
  unfold register at registered
  split at registered
  · cases registered
  · next sameLength =>
    split at registered
    · next empty =>
      cases registered
      exact .inl ⟨empty, rfl⟩
    · next nonempty =>
      split at registered
      · cases registered
      · next indexed =>
        split at registered
        · next identity identities =>
          split at registered
          · cases registered
          · next compatible =>
            refine .inr ⟨identity, not_not.mp sameLength, nonempty, not_not.mp indexed, ?_, ?_⟩
            · intro descriptor mem
              have inside := List.mem_dedup.mpr
                (List.mem_map_of_mem (f := RemotePageDescriptor.identity) mem)
              rw [identities] at inside
              exact List.mem_singleton.mp inside
            · by_contra incompatible
              exact compatible (not_or.mp incompatible)
        · cases registered

namespace Registers

variable {identity : String × ℕ}
  (registers : Registers catalog blockKeys descriptors identity catalog')

include registers

/-- A handle which was in the tree keeps its descriptor. -/
theorem descriptors_old (consistent : catalog.Consistent) {path : List BlockKey} {handle : ℕ}
    (found : catalog.index.find path = some handle) :
    catalog'.descriptors handle = catalog.descriptors handle := by
  have bound := consistent.handle_lt handle ((consistent.described handle).mpr ⟨path, found⟩)
  rw [registers.descriptors, if_neg (by omega)]

/-- A handle which the tree took has its descriptor. -/
theorem descriptors_new {path : List BlockKey} {i : ℕ} (short : i < blockKeys.length)
    (found : catalog'.index.find path = some (catalog.nextHandle + i)) :
    catalog'.descriptors (catalog.nextHandle + i) = descriptors[i]? := by
  have indexed := registers.index.isIndexed_iff.mpr ⟨path, found⟩
  rw [registers.descriptors, if_pos (by omega), if_pos indexed, Nat.add_sub_cancel_left]

/-- Where a path of the new tree comes from. -/
theorem find_eq_some {path : List BlockKey} {handle : ℕ}
    (found : catalog'.index.find path = some handle) :
    catalog.index.find path = some handle ∨
      catalog.index.find path = none ∧ path ≠ [] ∧ path <+: blockKeys ∧
        handle = catalog.nextHandle + (path.length - 1) := by
  rw [registers.find, insertPath] at found
  cases old : catalog.index.find path with
  | some handle' =>
    rw [old] at found
    exact .inl found
  | none =>
    rw [old, Option.none_or, Option.ite_none_right_eq_some] at found
    rcases found with ⟨⟨path_ne, isPrefix⟩, get⟩
    rcases List.getElem?_eq_some_iff.mp get with ⟨_, rfl⟩
    exact .inr ⟨rfl, path_ne, isPrefix, by rw [List.getElem_range', Nat.one_mul]⟩

/-- `register` inserts the missing prefixes of its path. -/
theorem page_eq (consistent : catalog.Consistent) :
    catalog'.page = insertPath catalog.page blockKeys descriptors := by
  funext path
  cases old : catalog.index.find path with
  | some handle =>
    have found : catalog'.index.find path = some handle := by
      rw [registers.find, insertPath_of_found old]
    have same : catalog'.page path = catalog.page path := by
      rw [page, page, found, old]
      exact registers.descriptors_old consistent old
    have present : catalog.page path ≠ none := by
      rw [ne_eq, consistent.page_eq_none_iff, old]
      exact nofun
    rcases Option.ne_none_iff_exists'.mp present with ⟨descriptor, stored⟩
    rw [same, stored, insertPath_of_found stored]
  | none =>
    have absent := consistent.page_eq_none_iff.mpr old
    rw [insertPath, absent, Option.none_or]
    by_cases inside : path ≠ [] ∧ path <+: blockKeys
    · have positive := List.length_pos_iff.mpr inside.1
      have bound := inside.2.length_le
      have short : path.length - 1 < blockKeys.length := by omega
      have found : catalog'.index.find path =
          some (catalog.nextHandle + (path.length - 1)) := by
        rw [registers.find, insertPath, old, Option.none_or, if_pos inside,
          List.getElem?_range' short, Nat.one_mul]
      rw [if_pos inside, page, found]
      exact registers.descriptors_new short found
    · have found : catalog'.index.find path = none := by
        rw [registers.find, insertPath, old, Option.none_or, if_neg inside]
      rw [if_neg inside, page, found]
      rfl

/-- The tree and the descriptors still agree. -/
theorem consistent (accepts : catalog.Accepts blockKeys descriptors identity)
    (consistent : catalog.Consistent) : catalog'.Consistent := by
  constructor
  · exact registers.index
  · rw [registers.find]
    exact consistent.closed.insertPath List.length_range'.symm
  · intro handle
    constructor
    · intro stored
      rw [registers.descriptors] at stored
      split at stored
      · split at stored
        · next indexed => exact registers.index.isIndexed_iff.mp indexed
        · exact absurd rfl stored
      · rcases (consistent.described handle).mp stored with ⟨path, found⟩
        refine ⟨path, ?_⟩
        rw [registers.find, insertPath_of_found found]
    · rintro ⟨path, found⟩
      rcases registers.find_eq_some found with old | ⟨-, path_ne, isPrefix, rfl⟩
      · rw [registers.descriptors_old consistent old]
        exact (consistent.described handle).mpr ⟨path, old⟩
      · have positive := List.length_pos_iff.mpr path_ne
        have bound := isPrefix.length_le
        have sameLength := accepts.sameLength
        rw [registers.descriptors_new (by omega) found, ne_eq, List.getElem?_eq_none_iff]
        omega
  · intro handle stored
    rw [registers.descriptors] at stored
    rw [registers.nextHandle]
    split at stored
    · next range => exact range.2
    · exact Nat.lt_of_lt_of_le (consistent.handle_lt handle stored) (Nat.le_add_right _ _)

/-- The invariant survives, if the blocks of the path pass the record checks. -/
theorem valid (accepts : catalog.Accepts blockKeys descriptors identity)
    (valid : catalog.Valid pageSize)
    (checked : ∀ block ∈ blockKeys, BlockChecked pageSize block) : catalog'.Valid pageSize := by
  have pageEq := registers.page_eq valid.consistent
  have newPage : ∀ path descriptor, catalog'.page path = some descriptor →
      catalog.page path = some descriptor ∨
        (path ≠ [] ∧ path <+: blockKeys) ∧ descriptors[path.length - 1]? = some descriptor := by
    intro path descriptor found
    rw [pageEq, insertPath] at found
    cases old : catalog.page path with
    | some _ =>
      rw [old] at found
      exact .inl found
    | none =>
      rw [old, Option.none_or, Option.ite_none_right_eq_some] at found
      exact .inr found
  have consistent := registers.consistent accepts valid.consistent
  refine ⟨consistent.index, consistent.closed, consistent.described, consistent.handle_lt,
    ?_, ?_, ?_, ?_⟩
  · intro path descriptor found
    rw [registers.identity]
    rcases newPage path descriptor found with old | ⟨-, get⟩
    · have same := valid.identified path descriptor old
      rcases accepts.compatible with none | some
      · rw [none] at same
        cases same
      · rw [← some, same]
    · rw [accepts.oneIdentity descriptor (List.mem_of_getElem? get)]
  · intro path descriptor found
    rcases newPage path descriptor found with old | ⟨⟨path_ne, -⟩, get⟩
    · exact valid.pageIndex path descriptor old
    · have positive := List.length_pos_iff.mpr path_ne
      have index := congrArg (·[path.length - 1]?) accepts.indexed
      have short := (List.getElem?_eq_some_iff.mp get).1
      simp only [List.getElem?_map, get, Option.map_some, List.getElem?_range short,
        Option.some.injEq] at index
      omega
  · intro path found block mem
    rw [pageEq, insertPath_ne_none_iff accepts.sameLength] at found
    rcases found with old | ⟨-, isPrefix⟩
    · exact valid.checked path old block mem
    · exact checked block (isPrefix.subset mem)
  · intro _
    refine ⟨blockKeys, ?_⟩
    rw [pageEq, insertPath_ne_none_iff accepts.sameLength]
    exact .inr ⟨accepts.nonempty, List.prefix_refl _⟩

end Registers

/-- `register` of a path with checked blocks, when it returns. -/
theorem Valid.register (valid : catalog.Valid pageSize)
    (checked : ∀ block ∈ blockKeys, BlockChecked pageSize block)
    (registered : catalog.register blockKeys descriptors = .ok catalog') :
    catalog'.Valid pageSize := by
  rcases register_eq_ok registered with ⟨-, rfl⟩ | ⟨identity, accepts⟩
  · exact valid
  · rcases valid.consistent.register_accepts accepts with ⟨catalog'', registered', registers⟩
    rw [registered] at registered'
    cases registered'
    exact registers.valid accepts valid checked

/-! ## Matching -/

theorem mapM_descriptor {handles : List ℕ}
    (stored : ∀ handle ∈ handles, catalog.descriptors handle ≠ none) :
    ∃ pages, handles.mapM catalog.descriptor = .ok pages ∧
      pages.map some = handles.map catalog.descriptors := by
  induction handles with
  | nil => exact ⟨[], rfl, rfl⟩
  | cons handle handles ih =>
    rw [List.forall_mem_cons] at stored
    rcases Option.ne_none_iff_exists'.mp stored.1 with ⟨descriptor, found⟩
    rcases ih stored.2 with ⟨pages, read, same⟩
    refine ⟨descriptor :: pages, ?_, ?_⟩
    · have first : catalog.descriptor handle = .ok descriptor := by
        rw [RemotePrefixCatalog.descriptor, found]
      rw [List.mapM_cons, first, read]
      rfl
    · rw [List.map_cons, List.map_cons, found, same]

theorem getElem?_of_map_some {α β : Type} {f : α → Option β} {as : List α} {bs : List β}
    (same : bs.map some = as.map f) (i : ℕ) : bs[i]? = as[i]?.bind f := by
  have get := congrArg (·[i]?) same
  simp only [List.getElem?_map] at get
  cases left : bs[i]? with
  | none =>
    rw [left] at get
    cases right : as[i]? with
    | none => rfl
    | some a =>
      rw [right] at get
      cases get
  | some b =>
    rw [left] at get
    cases right : as[i]? with
    | none =>
      rw [right] at get
      cases get
    | some a =>
      rw [right] at get
      exact Option.some.inj get

/-- `match` reads the longest match of the map, and changes only the order of use. -/
theorem Consistent.matchKeys (consistent : catalog.Consistent) (blockKeys : List BlockKey) :
    ∃ catalog' pages, catalog.matchKeys blockKeys = .ok (catalog', pages) ∧
      IsLongestMatch catalog.page blockKeys pages ∧ catalog'.Consistent ∧
      catalog'.page = catalog.page ∧ catalog'.identity = catalog.identity := by
  have longest := RadixPrefixCache.matchKeys_isLongestMatch consistent.index blockKeys
  have stored : ∀ handle ∈ (catalog.index.matchKeys blockKeys).2,
      catalog.descriptors handle ≠ none := by
    intro handle mem
    rcases List.getElem?_of_mem mem with ⟨i, get⟩
    exact (consistent.described handle).mpr ⟨_, longest.get i handle get⟩
  rcases mapM_descriptor stored with ⟨pages, read, same⟩
  have length_eq : pages.length = (catalog.index.matchKeys blockKeys).2.length := by
    simpa using congrArg List.length same
  have find : (catalog.index.matchKeys blockKeys).1.find = catalog.index.find :=
    funext (RadixPrefixCache.matchKeys_find blockKeys)
  have pageEq : RemotePrefixCatalog.page
      { catalog with index := (catalog.index.matchKeys blockKeys).1 } = catalog.page := by
    funext path
    rw [page, page, ← find]
  refine ⟨{ catalog with index := (catalog.index.matchKeys blockKeys).1 }, pages, ?_, ?_, ?_,
    pageEq, rfl⟩
  · change ((catalog.index.matchKeys blockKeys).2.mapM catalog.descriptor >>= _) = _
    rw [read]
    rfl
  · constructor
    · rw [length_eq]
      exact longest.length_le
    · intro i descriptor get
      rw [getElem?_of_map_some same] at get
      rcases Option.bind_eq_some_iff.mp get with ⟨handle, get, found⟩
      rw [page, longest.get i handle get]
      exact found
    · rw [length_eq]
      intro short
      exact consistent.page_eq_none_iff.mpr (longest.stop short)
  · refine ⟨consistent.index.matchKeys blockKeys, ?_, ?_, consistent.handle_lt⟩
    · rw [find]
      exact consistent.closed
    · rw [find]
      exact consistent.described

/-- `match` reads the longest match of the map and does not change it. -/
theorem Valid.matchKeys (valid : catalog.Valid pageSize) (blockKeys : List BlockKey) :
    ∃ catalog' pages, catalog.matchKeys blockKeys = .ok (catalog', pages) ∧
      IsLongestMatch catalog.page blockKeys pages ∧ catalog'.Valid pageSize ∧
      catalog'.page = catalog.page := by
  rcases valid.consistent.matchKeys blockKeys with
    ⟨catalog', pages, read, longest, consistent, pageEq, identity⟩
  refine ⟨catalog', pages, read, longest, ⟨consistent.index, consistent.closed,
    consistent.described, consistent.handle_lt, ?_, ?_, ?_, ?_⟩, pageEq⟩
  · rw [pageEq, identity]
    exact valid.identified
  · rw [pageEq]
    exact valid.pageIndex
  · rw [pageEq]
    exact valid.checked
  · rw [pageEq, identity]
    exact valid.present

end RemotePrefixCatalog

end NanoVllm.RemoteCatalog
