import NanoVllm.Radix.Insert

/-!
# Removal from the radix prefix cache

Removing a block removes the entries of all paths through it and no others. Compression of the
ancestors changes the shape of the tree only.
-/

namespace NanoVllm

namespace RadixTables

theorem dropLocations_of_mem {tables : RadixTables} {blockIds : List BlockId} {blockId : BlockId}
    (dropped : blockId ∈ blockIds) :
    (tables.dropLocations blockIds).blockLocations blockId = none := if_pos dropped

theorem dropLocations_of_not_mem {tables : RadixTables} {blockIds : List BlockId}
    {blockId : BlockId} (kept : blockId ∉ blockIds) :
    (tables.dropLocations blockIds).blockLocations blockId = tables.blockLocations blockId :=
  if_neg kept

@[simp] theorem dropLocations_nextNode (tables : RadixTables) (blockIds : List BlockId) :
    (tables.dropLocations blockIds).nextNode = tables.nextNode := rfl

end RadixTables

namespace RadixForest

variable {K : Type}

/-! ## Compression -/

/-- The change made by `_compress` at one node. -/
inductive Compresses : RadixNode K → RadixForest K → RadixTables →
    RadixNode K → RadixForest K → RadixTables → Prop where
  | done (node : RadixNode K) (children : RadixForest K) (tables : RadixTables) :
      Compresses node children tables node children tables
  | absorb {key : K} {node child node' : RadixNode K} {grandchildren children' : RadixForest K}
      {tables tables' : RadixTables}
      (compresses : Compresses
        { node with
          edgeKeys := node.edgeKeys ++ child.edgeKeys
          blockIds := node.blockIds ++ child.blockIds
          lastAccess := tables.clock + 1 }
        grandchildren
        (tables.indexNode node.nodeId child.blockIds node.blockIds.length).touch
        node' children' tables') :
      Compresses node (.cons key child grandchildren .nil) tables node' children' tables'

theorem compressNode_compresses (node : RadixNode K) (children : RadixForest K)
    (tables : RadixTables) :
    Compresses node children tables (compressNode node children tables).1
      (compressNode node children tables).2.1 (compressNode node children tables).2.2 := by
  fun_induction compressNode node children tables with
  | case1 node key child grandchildren tables ih => exact .absorb ih
  | case2 node children tables => exact .done node children tables

namespace Compresses

variable {node node' : RadixNode K} {children children' rest : RadixForest K}
  {tables tables' : RadixTables}

theorem wellFormed (compresses : Compresses node children tables node' children' tables')
    {key : K} (wellFormed : (cons key node children rest).WellFormed) :
    (cons key node' children' rest).WellFormed := by
  induction compresses with
  | done => exact wellFormed
  | absorb compresses ih =>
    obtain ⟨headKey, edgeLength, distinct, ⟨childHead, childLength, -, grand, -⟩, rest⟩ :=
      wellFormed
    refine ih ⟨?_, ?_, distinct, grand, rest⟩
    · simp [List.head?_append, headKey]
    · simp [edgeLength, childLength]

theorem allBlockIds_eq (compresses : Compresses node children tables node' children' tables') :
    node'.blockIds ++ children'.allBlockIds = node.blockIds ++ children.allBlockIds := by
  induction compresses with
  | done => rfl
  | absorb compresses ih => simpa [allBlockIds] using ih

theorem nodeId_eq (compresses : Compresses node children tables node' children' tables') :
    node'.nodeId = node.nodeId := by
  induction compresses with
  | done => rfl
  | absorb compresses ih => exact ih

theorem nodeIds_sublist (compresses : Compresses node children tables node' children' tables') :
    children'.nodeIds.Sublist children.nodeIds := by
  induction compresses with
  | done => exact .refl _
  | absorb compresses ih =>
    simp only [nodeIds, List.append_nil]
    exact ih.cons _

theorem nextNode_eq (compresses : Compresses node children tables node' children' tables') :
    tables'.nextNode = tables.nextNode := by
  induction compresses with
  | done => rfl
  | absorb compresses ih => simpa using ih

theorem blockLocations_of_not_mem
    (compresses : Compresses node children tables node' children' tables') {blockId : BlockId}
    (absent : blockId ∉ children.allBlockIds) :
    tables'.blockLocations blockId = tables.blockLocations blockId := by
  induction compresses with
  | done => rfl
  | absorb compresses ih =>
    simp only [allBlockIds, List.append_nil, List.mem_append, not_or] at absent
    rw [ih absent.2, RadixTables.touch_blockLocations,
      RadixTables.indexNode_of_not_mem absent.1]

theorem located (compresses : Compresses node children tables node' children' tables')
    (onEdge : tables.LocatesFrom node.nodeId 0 node.blockIds) (below : children.Located tables)
    (distinct : (node.blockIds ++ children.allBlockIds).Nodup) :
    tables'.LocatesFrom node'.nodeId 0 node'.blockIds ∧ children'.Located tables' := by
  induction compresses with
  | done => exact ⟨onEdge, below⟩
  | @absorb key node child node' grandchildren children' tables tables' compresses ih =>
    obtain ⟨onChild, belowChild, -⟩ := below
    simp only [allBlockIds, List.append_nil] at distinct
    have distinct' : (node.blockIds ++ child.blockIds ++ grandchildren.allBlockIds).Nodup := by
      simpa using distinct
    simp only [List.nodup_append, List.mem_append] at distinct
    obtain ⟨nodeDistinct, ⟨childDistinct, grandDistinct, childGrand⟩, apart⟩ := distinct
    refine ih ?_ (belowChild.mono fun blockId stored => ?_) distinct'
    · intro i blockId get
      rw [List.getElem?_append] at get
      split at get
      · rw [RadixTables.touch_blockLocations, RadixTables.indexNode_of_not_mem]
        · exact onEdge i blockId get
        · exact fun mem => apart _ (List.mem_of_getElem? get) _ (.inl mem) rfl
      · rw [RadixTables.touch_blockLocations,
          RadixTables.indexNode_locatesFrom tables childDistinct _ blockId get]
        congr 2
        omega
    · rw [RadixTables.touch_blockLocations, RadixTables.indexNode_of_not_mem]
      exact fun mem => childGrand _ mem _ stored rfl

variable [DecidableEq K]

theorem find_eq (compresses : Compresses node children tables node' children' tables')
    {key : K} (wellFormed : (cons key node children rest).WellFormed) (path : List K) :
    (cons key node' children' rest).find path = (cons key node children rest).find path := by
  induction compresses with
  | done => rfl
  | @absorb childKey node child node' grandchildren children' tables tables' compresses ih =>
    obtain ⟨headKey, edgeLength, distinct, ⟨childHead, childLength, absent, grand, -⟩, restWF⟩ :=
      id wellFormed
    rw [ih ⟨by simp [List.head?_append, headKey], by simp [edgeLength, childLength], distinct,
      grand, restWF⟩]
    obtain ⟨childTail, childEdge⟩ := List.head?_eq_some_iff.mp childHead
    rcases path_cases key node.edgeKeys path with
      rfl | ⟨path_ne, inside⟩ | ⟨below, below_ne, rfl⟩ | ⟨ks', rfl, notInside, notOutside⟩ |
        ⟨k', ks', rfl, differ, notInside, notOutside⟩
    · simp
    · have bound := inside.length_le
      have positive := List.length_pos_iff.mpr path_ne
      rw [find_cons_inside headKey path_ne inside, find_cons_inside (by
        simp [List.head?_append, headKey]) path_ne (inside.trans (List.prefix_append _ _))]
      exact List.getElem?_append_left (by omega)
    · rw [find_cons_below headKey below_ne, find_common headKey
        (congrArg (node.edgeKeys ++ ·) childEdge) below_ne]
      refine find_congr_node childEdge.symm ?_ below
      simp [← edgeLength]
    · rw [find_cons_branch notInside notOutside]
      refine find_cons_branch (not_prefix_append notInside notOutside) fun outside => ?_
      exact notOutside ((List.prefix_append _ _).trans outside)
    · rw [find_cons_beside differ, find_cons_beside differ]

end Compresses

/-! ## Removal -/

/-- The ways in which `remove_block` changes a children dictionary. -/
inductive Removes (blockId : BlockId) : RadixForest K → RadixTables →
    RadixForest K → RadixTables → Prop where
  | drop {key : K} {node : RadixNode K} {children rest : RadixForest K} {tables : RadixTables}
      (get : node.blockIds[0]? = some blockId) :
      Removes blockId (.cons key node children rest) tables rest
        (tables.dropLocations (node.blockIds ++ children.allBlockIds))
  | cut {key : K} {node : RadixNode K} {children rest : RadixForest K} {tables : RadixTables}
      {index : ℕ} (positive : index ≠ 0) (get : node.blockIds[index]? = some blockId) :
      Removes blockId (.cons key node children rest) tables
        (.cons key { node with edgeKeys := node.edgeKeys.take index,
                               blockIds := node.blockIds.take index } .nil rest)
        (tables.dropLocations (children.allBlockIds ++ node.blockIds.drop index))
  | deeper {key : K} {node node' : RadixNode K} {children removed children' rest : RadixForest K}
      {tables tables' tables'' : RadixTables}
      (removes : Removes blockId children tables removed tables')
      (compresses : Compresses node removed tables' node' children' tables'') :
      Removes blockId (.cons key node children rest) tables (.cons key node' children' rest)
        tables''
  | beside {key : K} {node : RadixNode K} {children rest rest' : RadixForest K}
      {tables tables' : RadixTables} (removes : Removes blockId rest tables rest' tables') :
      Removes blockId (.cons key node children rest) tables (.cons key node children rest') tables'

theorem Holds.mem_nodeIds {forest : RadixForest K} {nodeId index : ℕ} {blockId : BlockId}
    (holds : forest.Holds nodeId index blockId) : nodeId ∈ forest.nodeIds := by
  induction forest with
  | nil => exact holds.elim
  | cons key node children rest ihChildren ihRest =>
    simp only [nodeIds, List.cons_append, List.mem_cons, List.mem_append]
    rcases holds with ⟨same, -⟩ | holds | holds
    · exact .inl same.symm
    · exact .inr (.inl (ihChildren holds))
    · exact .inr (.inr (ihRest holds))

/-- `remove_block` at the location of a block performs one of the listed changes. -/
theorem removeAt_removes {forest : RadixForest K} {nodeId index : ℕ} {blockId : BlockId}
    (holds : forest.Holds nodeId index blockId) (distinct : forest.nodeIds.Nodup)
    (tables : RadixTables) :
    Removes blockId forest tables (forest.removeAt nodeId index tables).1
      (forest.removeAt nodeId index tables).2 := by
  induction forest with
  | nil => exact holds.elim
  | cons key node children rest ihChildren ihRest =>
    simp only [nodeIds, List.cons_append, List.nodup_cons, List.mem_append, not_or,
      List.nodup_append] at distinct
    obtain ⟨⟨notBelow, notBeside⟩, childrenDistinct, restDistinct, apart⟩ := distinct
    simp only [removeAt]
    rcases holds with ⟨same, get⟩ | holds | holds
    · rw [if_pos same]
      split
      · next first =>
        subst first
        exact .drop get
      · next positive => exact .cut positive get
    · have mem := holds.mem_nodeIds
      have differ : node.nodeId ≠ nodeId := fun same => notBelow (same ▸ mem)
      rw [if_neg differ, if_pos mem]
      exact .deeper (ihChildren holds childrenDistinct) (compressNode_compresses _ _ _)
    · have mem := holds.mem_nodeIds
      have differ : node.nodeId ≠ nodeId := fun same => notBeside (same ▸ mem)
      rw [if_neg differ, if_neg fun mem' => apart _ mem' _ mem rfl]
      exact .beside (ihRest holds restDistinct)

namespace Removes

variable {forest forest' : RadixForest K} {tables tables' : RadixTables} {blockId : BlockId}

theorem dictKeys_sublist (removes : Removes blockId forest tables forest' tables') :
    forest'.dictKeys.Sublist forest.dictKeys := by
  induction removes with
  | drop => exact List.sublist_cons_self _ _
  | cut => exact .refl _
  | deeper => exact .refl _
  | beside _ ih => exact ih.cons_cons _

theorem wellFormed (removes : Removes blockId forest tables forest' tables')
    (wellFormed : forest.WellFormed) : forest'.WellFormed := by
  induction removes with
  | drop => exact wellFormed.2.2.2.2
  | @cut key node children rest tables index positive get =>
    obtain ⟨headKey, edgeLength, distinct, -, rest⟩ := wellFormed
    refine ⟨?_, ?_, distinct, trivial, rest⟩
    · obtain ⟨tail, edge⟩ := List.head?_eq_some_iff.mp headKey
      obtain ⟨index, rfl⟩ := Nat.exists_eq_succ_of_ne_zero positive
      simp [edge]
    · simp [edgeLength]
  | deeper removes compresses ih =>
    obtain ⟨headKey, edgeLength, distinct, children, rest⟩ := wellFormed
    exact compresses.wellFormed ⟨headKey, edgeLength, distinct, ih children, rest⟩
  | beside removes ih =>
    obtain ⟨headKey, edgeLength, distinct, children, rest⟩ := wellFormed
    exact ⟨headKey, edgeLength, fun mem => distinct (removes.dictKeys_sublist.subset mem),
      children, ih rest⟩

theorem allBlockIds_sublist (removes : Removes blockId forest tables forest' tables') :
    forest'.allBlockIds.Sublist forest.allBlockIds := by
  induction removes with
  | drop => exact List.sublist_append_right _ _
  | @cut key node children rest tables index positive get =>
    simp only [allBlockIds, List.append_nil]
    exact ((List.take_sublist _ _).trans (List.sublist_append_left _ _)).append (.refl _)
  | deeper removes compresses ih =>
    simp only [allBlockIds, compresses.allBlockIds_eq]
    exact (ih.append_left _).append (.refl _)
  | beside removes ih => exact ih.append_left _

theorem nodeIds_sublist (removes : Removes blockId forest tables forest' tables') :
    forest'.nodeIds.Sublist forest.nodeIds := by
  induction removes with
  | drop => exact List.sublist_append_right _ _
  | cut => exact (List.sublist_append_right _ _).cons_cons _
  | deeper removes compresses ih =>
    simp only [nodeIds, compresses.nodeId_eq]
    exact ((compresses.nodeIds_sublist.trans ih).append (.refl _)).cons_cons _
  | beside removes ih => exact ih.append_left _

theorem nextNode_eq (removes : Removes blockId forest tables forest' tables') :
    tables'.nextNode = tables.nextNode := by
  induction removes with
  | drop => rfl
  | cut => rfl
  | deeper removes compresses ih => rw [compresses.nextNode_eq, ih]
  | beside removes ih => exact ih

theorem blockLocations_of_not_mem (removes : Removes blockId forest tables forest' tables')
    {other : BlockId} (absent : other ∉ forest.allBlockIds) :
    tables'.blockLocations other = tables.blockLocations other := by
  induction removes with
  | drop =>
    simp only [allBlockIds, List.mem_append, not_or] at absent
    exact RadixTables.dropLocations_of_not_mem (by simp [absent])
  | cut =>
    simp only [allBlockIds, List.mem_append, not_or] at absent
    refine RadixTables.dropLocations_of_not_mem ?_
    simp only [List.mem_append, not_or]
    exact ⟨absent.1.2, fun mem => absent.1.1 (List.mem_of_mem_drop mem)⟩
  | deeper removes compresses ih =>
    simp only [allBlockIds, List.mem_append, not_or] at absent
    rw [compresses.blockLocations_of_not_mem fun mem =>
      absent.1.2 (removes.allBlockIds_sublist.subset mem), ih absent.1.2]
  | beside removes ih =>
    simp only [allBlockIds, List.mem_append, not_or] at absent
    exact ih absent.2

/-- Removed blocks leave the reverse index. -/
theorem blockLocations_of_removed (removes : Removes blockId forest tables forest' tables')
    {other : BlockId} (stored : other ∈ forest.allBlockIds)
    (removed : other ∉ forest'.allBlockIds) : tables'.blockLocations other = none := by
  induction removes with
  | drop =>
    simp only [allBlockIds, List.mem_append] at stored
    refine RadixTables.dropLocations_of_mem ?_
    simpa [removed] using stored
  | @cut key node children rest tables index positive get =>
    simp only [allBlockIds, List.mem_append, List.append_nil, not_or] at stored removed
    refine RadixTables.dropLocations_of_mem ?_
    rcases stored with (onEdge | below) | beside
    · rw [← List.take_append_drop index node.blockIds, List.mem_append] at onEdge
      rcases onEdge with kept | cut
      · exact absurd kept removed.1
      · exact List.mem_append_right _ cut
    · simp [below]
    · exact absurd beside removed.2
  | deeper removes compresses ih =>
    simp only [allBlockIds, compresses.allBlockIds_eq, List.mem_append, not_or] at stored removed
    rw [compresses.blockLocations_of_not_mem removed.1.2]
    exact ih (by simpa [removed] using stored) removed.1.2
  | beside removes ih =>
    simp only [allBlockIds, List.mem_append, not_or] at stored removed
    exact ih (by simpa [removed] using stored) removed.2

theorem located (removes : Removes blockId forest tables forest' tables')
    (located : forest.Located tables) (distinct : forest.allBlockIds.Nodup) :
    forest'.Located tables' := by
  induction removes with
  | drop =>
    simp only [allBlockIds, List.nodup_append, List.mem_append] at distinct
    refine located.2.2.mono fun other stored => RadixTables.dropLocations_of_not_mem ?_
    rw [List.mem_append]
    exact fun mem => distinct.2.2 _ mem _ stored rfl
  | @cut key node children rest tables index positive get =>
    obtain ⟨onEdge, below, beside⟩ := located
    simp only [allBlockIds, List.nodup_append, List.mem_append] at distinct
    obtain ⟨⟨edgeDistinct, childrenDistinct, edgeChildren⟩, restDistinct, apart⟩ := distinct
    refine ⟨fun i other getOther => ?_, trivial, beside.mono fun other stored => ?_⟩
    · have short := (List.getElem?_eq_some_iff.mp getOther).1
      simp only [List.length_take] at short
      rw [List.getElem?_take_of_lt (by omega)] at getOther
      rw [RadixTables.dropLocations_of_not_mem]
      · exact onEdge i other getOther
      · rw [List.mem_append]
        rintro (mem | mem)
        · exact edgeChildren _ (List.mem_of_getElem? getOther) _ mem rfl
        · obtain ⟨j, getLater⟩ := List.mem_iff_getElem?.mp mem
          rw [List.getElem?_drop, ← getOther] at getLater
          have same := (List.getElem?_inj (by omega) edgeDistinct).mp getLater.symm
          omega
    · refine RadixTables.dropLocations_of_not_mem ?_
      rw [List.mem_append]
      rintro (mem | mem)
      · exact apart _ (.inr mem) _ stored rfl
      · exact apart _ (.inl (List.mem_of_mem_drop mem)) _ stored rfl
  | @deeper key node node' children removed children' rest tables tables' tables'' removes
      compresses ih =>
    obtain ⟨onEdge, below, beside⟩ := located
    simp only [allBlockIds, List.nodup_append, List.mem_append] at distinct
    obtain ⟨⟨edgeDistinct, childrenDistinct, edgeChildren⟩, restDistinct, apart⟩ := distinct
    have subset := removes.allBlockIds_sublist.subset
    have compressed := compresses.located (onEdge.mono fun other stored =>
        removes.blockLocations_of_not_mem fun mem => edgeChildren _ stored _ mem rfl)
      (ih below childrenDistinct) (List.nodup_append.mpr ⟨edgeDistinct,
        removes.allBlockIds_sublist.nodup childrenDistinct,
        fun a mem b mem' => edgeChildren a mem b (subset mem')⟩)
    refine ⟨compressed.1, compressed.2, beside.mono fun other stored => ?_⟩
    rw [compresses.blockLocations_of_not_mem fun mem => apart _ (.inr (subset mem)) _ stored rfl,
      removes.blockLocations_of_not_mem fun mem => apart _ (.inr mem) _ stored rfl]
  | beside removes ih =>
    obtain ⟨onEdge, below, beside⟩ := located
    simp only [allBlockIds, List.nodup_append, List.mem_append] at distinct
    obtain ⟨-, restDistinct, apart⟩ := distinct
    refine ⟨onEdge.mono fun other stored => ?_, below.mono fun other stored => ?_,
      ih beside restDistinct⟩
    · exact removes.blockLocations_of_not_mem fun mem => apart _ (.inl stored) _ mem rfl
    · exact removes.blockLocations_of_not_mem fun mem => apart _ (.inr stored) _ mem rfl

variable [DecidableEq K]

omit [DecidableEq K] in
theorem mem_allBlockIds (removes : Removes blockId forest tables forest' tables') :
    blockId ∈ forest.allBlockIds := by
  induction removes with
  | drop get => simp [allBlockIds, List.mem_of_getElem? get]
  | cut _ get => simp [allBlockIds, List.mem_of_getElem? get]
  | deeper _ _ ih => simp [allBlockIds, ih]
  | beside _ ih => simp [allBlockIds, ih]

theorem find_cut_eq_some_iff {key : K} {node : RadixNode K} {children rest : RadixForest K}
    {index : ℕ} (wellFormed : (cons key node children rest).WellFormed)
    (distinct : (cons key node children rest).allBlockIds.Nodup) (positive : index ≠ 0)
    (get : node.blockIds[index]? = some blockId) (path : List K) (value : BlockId) :
    (cons key { node with edgeKeys := node.edgeKeys.take index,
                          blockIds := node.blockIds.take index } .nil rest).find path =
        some value ↔
      (cons key node children rest).find path = some value ∧ ∀ ancestor, ancestor <+: path →
        (cons key node children rest).find ancestor ≠ some blockId := by
  obtain ⟨headKey, edgeLength, absent, -, -⟩ := wellFormed
  simp only [allBlockIds, List.nodup_append, List.mem_append] at distinct
  obtain ⟨⟨edgeDistinct, -, -⟩, -, apart⟩ := distinct
  have bound := (List.getElem?_eq_some_iff.mp get).1
  have cutHead : (node.edgeKeys.take index).head? = some key := by
    obtain ⟨tail, edge⟩ := List.head?_eq_some_iff.mp headKey
    obtain ⟨index, rfl⟩ := Nat.exists_eq_succ_of_ne_zero positive
    simp [edge]
  have cutPrefix : node.edgeKeys.take index <+: node.edgeKeys := List.take_prefix _ _
  have reaches : ∀ path : List K, node.edgeKeys.take (index + 1) <+: path →
      ∃ ancestor, ancestor <+: path ∧
        (cons key node children rest).find ancestor = some blockId := fun path through => by
    refine ⟨_, through, ?_⟩
    rw [find_cons_inside headKey (by rw [← List.length_pos_iff, List.length_take]; omega)
      (List.take_prefix _ _), List.length_take, Nat.min_eq_left (by omega), Nat.add_sub_cancel]
    exact get
  rcases path_cases key (node.edgeKeys.take index) path with
    rfl | ⟨path_ne, inside⟩ | ⟨below, below_ne, rfl⟩ | ⟨ks, rfl, notInside, notOutside⟩ |
      ⟨k, ks, rfl, differ, notInside, notOutside⟩
  · simp
  · have short := inside.length_le
    have nonempty := List.length_pos_iff.mpr path_ne
    rw [List.length_take] at short
    rw [find_cons_inside cutHead path_ne inside,
      find_cons_inside headKey path_ne (inside.trans cutPrefix),
      List.getElem?_take_of_lt (by omega)]
    refine ⟨fun found => ⟨found, fun ancestor isPrefix hit => ?_⟩, fun both => both.1⟩
    have ancestor_ne : ancestor ≠ [] := by rintro rfl; simp at hit
    have nonempty' := List.length_pos_iff.mpr ancestor_ne
    have shorter := isPrefix.length_le
    rw [find_cons_inside headKey ancestor_ne (isPrefix.trans (inside.trans cutPrefix)),
      ← get] at hit
    have same := (List.getElem?_inj (by omega) edgeDistinct).mp hit
    omega
  · rw [find_cons_below cutHead below_ne, find_nil]
    refine ⟨by simp, fun both => ?_⟩
    rcases both with ⟨found, avoids⟩
    have longer := List.length_pos_iff.mpr below_ne
    rcases find_cons_eq_some found with ⟨-, inside, -⟩ | ⟨deeper, path, -⟩ | beside
    · have same := List.prefix_iff_eq_take.mp inside
      obtain ⟨ancestor, isPrefix, hit⟩ := reaches (node.edgeKeys.take index ++ below) (by
        rw [same]
        refine List.take_prefix_take_left ?_
        rw [List.length_append, List.length_take]
        omega)
      exact absurd hit (avoids ancestor isPrefix)
    · obtain ⟨ancestor, isPrefix, hit⟩ := reaches (node.edgeKeys.take index ++ below) (by
        rw [path]
        exact (List.take_prefix _ _).trans (List.prefix_append _ _))
      exact absurd hit (avoids ancestor isPrefix)
    · obtain ⟨tail, edge⟩ := List.head?_eq_some_iff.mp cutHead
      rw [edge, List.cons_append, find_eq_none_of_not_mem absent] at beside
      cases beside
  · rw [find_cons_branch notInside notOutside, find_cons_branch]
    · simp
    · exact fun inside => (List.prefix_or_prefix_of_prefix inside cutPrefix).elim notInside
        notOutside
    · exact fun outside => notOutside (cutPrefix.trans outside)
  · rw [find_cons_beside differ, find_cons_beside differ]
    refine ⟨fun found => ⟨found, fun ancestor isPrefix hit => ?_⟩, fun both => both.1⟩
    rw [find_ancestor_beside differ isPrefix] at hit
    exact apart _ (.inl (List.mem_of_getElem? get)) _ (mem_allBlockIds_of_find hit) rfl

/-- Removal keeps exactly the entries whose path does not go through the removed block. -/
theorem find_eq_some_iff (removes : Removes blockId forest tables forest' tables')
    (wellFormed : forest.WellFormed) (distinct : forest.allBlockIds.Nodup) (path : List K)
    (value : BlockId) :
    forest'.find path = some value ↔
      forest.find path = some value ∧ ∀ ancestor, ancestor <+: path →
        forest.find ancestor ≠ some blockId := by
  induction removes generalizing path with
  | @drop key node children rest tables get =>
    obtain ⟨headKey, edgeLength, absent, -, -⟩ := wellFormed
    simp only [allBlockIds, List.nodup_append, List.mem_append] at distinct
    cases path with
    | nil => simp
    | cons k ks =>
      by_cases same : key = k
      · subst same
        rw [find_eq_none_of_not_mem absent]
        refine ⟨by simp, fun both => absurd ?_ (both.2 [key] (by simp))⟩
        obtain ⟨tail, edge⟩ := List.head?_eq_some_iff.mp headKey
        rw [find_cons_inside headKey (List.cons_ne_nil _ _) (by simp [edge])]
        exact get
      · rw [find_cons_beside same]
        refine ⟨fun found => ⟨found, fun ancestor isPrefix hit => ?_⟩, fun both => both.1⟩
        rw [find_ancestor_beside same isPrefix] at hit
        exact distinct.2.2 _ (.inl (List.mem_of_getElem? get)) _ (mem_allBlockIds_of_find hit)
          rfl
  | cut positive get => exact find_cut_eq_some_iff wellFormed distinct positive get path value
  | @deeper key node node' children removed children' rest tables tables' tables'' removes
      compresses ih =>
    obtain ⟨headKey, edgeLength, absent, childrenWellFormed, restWellFormed⟩ := wellFormed
    rw [compresses.find_eq ⟨headKey, edgeLength, absent, removes.wellFormed childrenWellFormed,
      restWellFormed⟩]
    simp only [allBlockIds, List.nodup_append, List.mem_append] at distinct
    obtain ⟨⟨edgeDistinct, childrenDistinct, edgeChildren⟩, -, apart⟩ := distinct
    have stored := removes.mem_allBlockIds
    have avoidsEdge : ∀ ancestor, ancestor <+: node.edgeKeys →
        (cons key node children rest).find ancestor ≠ some blockId :=
      fun ancestor inside hit => by
        have ancestor_ne : ancestor ≠ [] := by rintro rfl; simp at hit
        rw [find_cons_inside headKey ancestor_ne inside] at hit
        exact edgeChildren _ (List.mem_of_getElem? hit) _ stored rfl
    rcases path_cases key node.edgeKeys path with
      rfl | ⟨path_ne, inside⟩ | ⟨below, below_ne, rfl⟩ | ⟨ks, rfl, notInside, notOutside⟩ |
        ⟨k, ks, rfl, differ, notInside, notOutside⟩
    · simp
    · rw [find_cons_inside headKey path_ne inside, find_cons_inside headKey path_ne inside]
      exact ⟨fun found => ⟨found, fun ancestor isPrefix =>
        avoidsEdge ancestor (isPrefix.trans inside)⟩, fun both => both.1⟩
    · rw [find_cons_below headKey below_ne, find_cons_below headKey below_ne,
        ih childrenWellFormed childrenDistinct]
      refine and_congr_right fun _ => ⟨fun avoids ancestor isPrefix => ?_,
        fun avoids ancestor isPrefix hit => ?_⟩
      · rcases List.prefix_or_prefix_of_prefix isPrefix (List.prefix_append _ _) with
          inside | ⟨rest', rfl⟩
        · exact avoidsEdge ancestor inside
        · by_cases rest_ne : rest' = []
          · subst rest_ne
            exact avoidsEdge _ (by simp)
          · rw [find_cons_below headKey rest_ne]
            exact avoids rest' ((List.prefix_append_right_inj _).mp isPrefix)
      · have ancestor_ne : ancestor ≠ [] := by rintro rfl; simp at hit
        refine avoids (node.edgeKeys ++ ancestor)
          ((List.prefix_append_right_inj _).mpr isPrefix) ?_
        rw [find_cons_below headKey ancestor_ne, hit]
    · rw [find_cons_branch notInside notOutside, find_cons_branch notInside notOutside]
      simp
    · rw [find_cons_beside differ, find_cons_beside differ]
      refine ⟨fun found => ⟨found, fun ancestor isPrefix hit => ?_⟩, fun both => both.1⟩
      rw [find_ancestor_beside differ isPrefix] at hit
      exact apart _ (.inr stored) _ (mem_allBlockIds_of_find hit) rfl
  | @beside key node children rest rest' tables tables' removes ih =>
    obtain ⟨headKey, edgeLength, absent, childrenWellFormed, restWellFormed⟩ := wellFormed
    simp only [allBlockIds, List.nodup_append, List.mem_append] at distinct
    obtain ⟨-, restDistinct, apart⟩ := distinct
    have stored := removes.mem_allBlockIds
    cases path with
    | nil => simp
    | cons k ks =>
      by_cases same : key = k
      · subst same
        have equal : (cons key node children rest').find (key :: ks) =
            (cons key node children rest).find (key :: ks) := by
          simp only [find_cons, if_true]
        rw [equal]
        refine ⟨fun found => ⟨found, fun ancestor isPrefix hit => ?_⟩, fun both => both.1⟩
        rcases find_cons_eq_some hit with ⟨-, -, getEdge⟩ | ⟨below, -, foundBelow⟩ | foundBeside
        · exact apart _ (.inl (List.mem_of_getElem? getEdge)) _ stored rfl
        · exact apart _ (.inr (mem_allBlockIds_of_find foundBelow)) _ stored rfl
        · cases ancestor with
          | nil => simp at hit
          | cons k' ks' =>
            rw [(List.cons_prefix_cons.mp isPrefix).1, find_eq_none_of_not_mem absent]
              at foundBeside
            cases foundBeside
      · rw [find_cons_beside same, find_cons_beside same, ih restWellFormed restDistinct]
        refine and_congr_right fun _ => forall_congr' fun ancestor => ?_
        refine imp_congr_right fun isPrefix => ?_
        rw [find_ancestor_beside same isPrefix]

end Removes

end RadixForest

end NanoVllm
