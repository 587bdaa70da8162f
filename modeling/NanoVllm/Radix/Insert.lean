import NanoVllm.Radix.Lookup

/-!
# Insertion into the radix prefix cache

`Inserts` lists the ways in which `insert` changes a children dictionary. Every fact about
insertion is an induction over it: the map grows by the missing prefixes of the inserted path,
existing entries stay, and the reverse index locates the stored blocks.
-/

namespace NanoVllm

namespace RadixTables

/-- Every block of a list of positions is located there. -/
def LocatesFrom (tables : RadixTables) (nodeId start : ℕ) (blockIds : List BlockId) : Prop :=
  ∀ i blockId, blockIds[i]? = some blockId →
    tables.blockLocations blockId = some (nodeId, start + i)

@[simp] theorem touch_blockLocations (tables : RadixTables) :
    tables.touch.blockLocations = tables.blockLocations := rfl

@[simp] theorem touch_nextNode (tables : RadixTables) :
    tables.touch.nextNode = tables.nextNode := rfl

@[simp] theorem newNode_blockLocations (tables : RadixTables) :
    tables.newNode.blockLocations = tables.blockLocations := rfl

@[simp] theorem newNode_nextNode (tables : RadixTables) :
    tables.newNode.nextNode = tables.nextNode + 1 := rfl

@[simp] theorem indexNode_nextNode (tables : RadixTables) (nodeId : ℕ) (blockIds : List BlockId)
    (start : ℕ) : (tables.indexNode nodeId blockIds start).nextNode = tables.nextNode := by
  induction blockIds generalizing tables start with
  | nil => rfl
  | cons blockId blockIds ih => simp [indexNode, ih]

theorem indexNode_of_not_mem {tables : RadixTables} {nodeId : ℕ} {blockIds : List BlockId}
    {start : ℕ} {blockId : BlockId} (absent : blockId ∉ blockIds) :
    (tables.indexNode nodeId blockIds start).blockLocations blockId =
      tables.blockLocations blockId := by
  induction blockIds generalizing tables start with
  | nil => rfl
  | cons first blockIds ih =>
    simp only [List.mem_cons, not_or] at absent
    rw [indexNode, ih absent.2]
    exact Function.update_of_ne absent.1 _ _

theorem indexNode_locatesFrom (tables : RadixTables) {nodeId : ℕ} {blockIds : List BlockId}
    {start : ℕ} (distinct : blockIds.Nodup) :
    (tables.indexNode nodeId blockIds start).LocatesFrom nodeId start blockIds := by
  induction blockIds generalizing tables start with
  | nil => intro i blockId get; simp at get
  | cons first blockIds ih =>
    rw [List.nodup_cons] at distinct
    intro i blockId get
    rcases i with _ | i
    · simp only [List.getElem?_cons_zero, Option.some.injEq] at get
      subst get
      rw [indexNode, indexNode_of_not_mem distinct.1]
      simp
    · rw [indexNode, ih _ distinct.2 i blockId (by simpa using get)]
      congr 2
      omega

theorem LocatesFrom.mono {tables tables' : RadixTables} {nodeId start : ℕ}
    {blockIds : List BlockId} (located : tables.LocatesFrom nodeId start blockIds)
    (same : ∀ blockId ∈ blockIds,
      tables'.blockLocations blockId = tables.blockLocations blockId) :
    tables'.LocatesFrom nodeId start blockIds := fun i blockId get => by
  rw [same blockId (List.mem_of_getElem? get)]
  exact located i blockId get

end RadixTables

namespace RadixForest

variable {K : Type}

/-- The reverse index locates every block of the forest. -/
def Located (tables : RadixTables) : RadixForest K → Prop
  | .nil => True
  | .cons _ node children rest =>
      tables.LocatesFrom node.nodeId 0 node.blockIds ∧ children.Located tables ∧
        rest.Located tables

theorem Located.mono {forest : RadixForest K} {tables tables' : RadixTables}
    (located : forest.Located tables)
    (same : ∀ blockId ∈ forest.allBlockIds,
      tables'.blockLocations blockId = tables.blockLocations blockId) :
    forest.Located tables' := by
  induction forest with
  | nil => trivial
  | cons key node children rest ihChildren ihRest =>
    simp only [allBlockIds, List.mem_append] at same
    obtain ⟨onEdge, below, beside⟩ := located
    exact ⟨onEdge.mono fun blockId stored => same blockId (.inl (.inl stored)),
      ihChildren below fun blockId stored => same blockId (.inl (.inr stored)),
      ihRest beside fun blockId stored => same blockId (.inr stored)⟩

theorem Located.touch {forest : RadixForest K} {tables : RadixTables}
    (located : forest.Located tables) : forest.Located tables.touch :=
  located.mono fun _ _ => rfl

@[simp] theorem eraseAccess_located (forest : RadixForest K) (tables : RadixTables) :
    forest.eraseAccess.Located tables ↔ forest.Located tables := by
  induction forest with
  | nil => rfl
  | cons key node children rest ihChildren ihRest =>
    simp [eraseAccess, Located, ihChildren, ihRest]

/-- The reverse index points to the node which holds a block. -/
theorem Located.holds {forest : RadixForest K} {tables : RadixTables}
    (located : forest.Located tables) {blockId : BlockId} (stored : blockId ∈ forest.allBlockIds) :
    ∃ nodeId index, tables.blockLocations blockId = some (nodeId, index) ∧
      forest.Holds nodeId index blockId := by
  induction forest with
  | nil => simp [allBlockIds] at stored
  | cons key node children rest ihChildren ihRest =>
    obtain ⟨onEdge, below, beside⟩ := located
    simp only [allBlockIds, List.mem_append] at stored
    rcases stored with (storedEdge | storedBelow) | storedBeside
    · obtain ⟨index, get⟩ := List.mem_iff_getElem?.mp storedEdge
      refine ⟨node.nodeId, index, ?_, .inl ⟨rfl, get⟩⟩
      simpa using onEdge index blockId get
    · obtain ⟨nodeId, index, location, holds⟩ := ihChildren below storedBelow
      exact ⟨nodeId, index, location, .inr (.inl holds)⟩
    · obtain ⟨nodeId, index, location, holds⟩ := ihRest beside storedBeside
      exact ⟨nodeId, index, location, .inr (.inr holds)⟩

/-- The ways in which `insert` changes a children dictionary. -/
inductive Inserts : RadixForest K → List K → List BlockId → RadixTables →
    RadixForest K → RadixTables → Prop where
  | done (forest : RadixForest K) (blockIds : List BlockId) (tables : RadixTables) :
      Inserts forest [] blockIds tables forest tables
  | leaf (k : K) (ks : List K) (blockIds : List BlockId) (tables : RadixTables) :
      Inserts .nil (k :: ks) blockIds tables
        (.cons k { nodeId := tables.nextNode, edgeKeys := k :: ks, blockIds := blockIds,
                   lastAccess := tables.clock + 1 } .nil .nil)
        (tables.newNode.indexNode tables.nextNode blockIds 0).touch
  | follow {key : K} {node : RadixNode K} {children children' rest : RadixForest K}
      {below : List K} {blockIds : List BlockId} {tables tables' : RadixTables}
      (headKey : node.edgeKeys.head? = some key)
      (inserts : Inserts children below (blockIds.drop node.edgeKeys.length) tables.touch
        children' tables') :
      Inserts (.cons key node children rest) (node.edgeKeys ++ below) blockIds tables
        (.cons key { node with lastAccess := tables.clock + 1 } children' rest) tables'
  | inside {key : K} {node : RadixNode K} {children rest : RadixForest K} {keys : List K}
      {blockIds : List BlockId} {tables : RadixTables} (headKey : keys.head? = some key)
      (inside : keys <+: node.edgeKeys) :
      Inserts (.cons key node children rest) keys blockIds tables
        (.cons key { node with lastAccess := tables.clock + 1 } children rest) tables.touch
  | split {key lowerKey branchKey : K} {common lowerKeys branchKeys : List K}
      {node : RadixNode K} {children rest : RadixForest K} {blockIds : List BlockId}
      {tables tables' tables'' : RadixTables}
      (headKey : common.head? = some key)
      (edge : node.edgeKeys = common ++ lowerKey :: lowerKeys) (differ : lowerKey ≠ branchKey)
      (tables'_eq : tables' = ((tables.newNode.indexNode tables.nextNode
        (node.blockIds.take common.length) 0).indexNode node.nodeId
          (node.blockIds.drop common.length) 0).touch)
      (tables''_eq : tables'' = (tables'.newNode.indexNode tables'.nextNode
        (blockIds.drop common.length) 0).touch) :
      Inserts (.cons key node children rest) (common ++ branchKey :: branchKeys) blockIds tables
        (.cons key { nodeId := tables.nextNode, edgeKeys := common,
                     blockIds := node.blockIds.take common.length,
                     lastAccess := tables.clock + 1 }
          (.cons lowerKey { node with edgeKeys := lowerKey :: lowerKeys,
                                      blockIds := node.blockIds.drop common.length } children
            (.cons branchKey { nodeId := tables'.nextNode, edgeKeys := branchKey :: branchKeys,
                               blockIds := blockIds.drop common.length,
                               lastAccess := tables'.clock + 1 } .nil .nil)) rest)
        tables''
  | beside {key k : K} {ks : List K} {node : RadixNode K} {children rest rest' : RadixForest K}
      {blockIds : List BlockId} {tables tables' : RadixTables} (differ : key ≠ k)
      (inserts : Inserts rest (k :: ks) blockIds tables rest' tables') :
      Inserts (.cons key node children rest) (k :: ks) blockIds tables
        (.cons key node children rest') tables'

variable [DecidableEq K]

/-- `insert` performs one of the listed changes. -/
theorem insertKeys_inserts {forest : RadixForest K} (wellFormed : forest.WellFormed)
    (keys : List K) (blockIds : List BlockId) (tables : RadixTables) :
    Inserts forest keys blockIds tables (forest.insertKeys keys blockIds tables).1
      (forest.insertKeys keys blockIds tables).2 := by
  induction forest generalizing keys blockIds tables with
  | nil =>
    cases keys with
    | nil => simpa [insertKeys] using .done _ _ _
    | cons k ks => simpa [insertKeys] using .leaf k ks blockIds tables
  | cons key node children rest ihChildren ihRest =>
    obtain ⟨headKey, sameLength, distinct, childrenWellFormed, restWellFormed⟩ := wellFormed
    cases keys with
    | nil => simpa [insertKeys] using .done _ _ _
    | cons k ks =>
      by_cases same : key = k
      · subst same
        simp only [insertKeys, if_true]
        split
        · next complete =>
          obtain ⟨below, path⟩ := commonPrefixLength_eq_left_iff.mp complete
          rw [complete, ← path, List.drop_left]
          exact .follow headKey (ihChildren childrenWellFormed _ _ _)
        · next incomplete =>
          split
          · next inside =>
            exact .inside rfl (commonPrefixLength_eq_right_iff.mp inside)
          · next outside =>
            obtain ⟨common, lowerKey, lowerKeys, branchKey, branchKeys, differ, edge, path,
              commonLength⟩ := exists_branch incomplete outside
            rw [← commonLength, path, edge, List.take_left, List.drop_left, List.drop_left]
            refine .split ?_ edge differ rfl rfl
            rw [edge, List.head?_append] at headKey
            cases common with
            | nil =>
              simp only [List.nil_append, List.cons.injEq] at path
              simp_all
            | cons first common => simpa using headKey
      · simp only [insertKeys, if_neg same]
        exact .beside same (ihRest restWellFormed _ _ _)

/-! ## The map after an insertion -/

section InsertedBlock

variable {keys path : List K} {blockIds : List BlockId}

/-- The block which an insertion offers for a path. -/
def insertedBlock (keys : List K) (blockIds : List BlockId) (path : List K) : Option BlockId :=
  if path ≠ [] ∧ path <+: keys then blockIds[path.length - 1]? else none

theorem insertedBlock_outside (outside : ¬path <+: keys) :
    insertedBlock keys blockIds path = none :=
  if_neg fun both => outside both.2

theorem insertedBlock_inside (path_ne : path ≠ []) (inside : path <+: keys) :
    insertedBlock keys blockIds path = blockIds[path.length - 1]? :=
  if_pos ⟨path_ne, inside⟩

theorem insertedBlock_append (first below : List K) (blockIds : List BlockId) {path : List K}
    (path_ne : path ≠ []) :
    insertedBlock (first ++ below) blockIds (first ++ path) =
      insertedBlock below (blockIds.drop first.length) path := by
  have positive := List.length_pos_iff.mpr path_ne
  by_cases inside : path <+: below
  · rw [insertedBlock_inside path_ne inside,
      insertedBlock_inside (by simp [path_ne]) ((List.prefix_append_right_inj _).mpr inside),
      List.getElem?_drop, List.length_append]
    congr 1
    omega
  · rw [insertedBlock_outside inside, insertedBlock_outside
      fun inside' => inside ((List.prefix_append_right_inj _).mp inside')]

end InsertedBlock

namespace Inserts

variable {forest forest' : RadixForest K} {keys path : List K} {blockIds : List BlockId}
  {tables tables' : RadixTables}

omit [DecidableEq K] in
theorem dictKeys_subset (inserts : Inserts forest keys blockIds tables forest' tables') :
    ∀ key ∈ forest'.dictKeys, key ∈ forest.dictKeys ∨ keys.head? = some key := by
  induction inserts with
  | done => exact fun key mem => .inl mem
  | leaf k ks => simp [dictKeys]
  | follow => exact fun key mem => .inl mem
  | inside => exact fun key mem => .inl mem
  | split => exact fun key mem => .inl mem
  | beside differ _ ih =>
    intro key mem
    simp only [dictKeys, List.mem_cons] at mem ⊢
    rcases mem with rfl | mem
    · exact .inl (.inl rfl)
    · exact (ih key mem).imp .inr id

omit [DecidableEq K] in
theorem wellFormed (inserts : Inserts forest keys blockIds tables forest' tables')
    (wellFormed : forest.WellFormed) (sameLength : keys.length = blockIds.length) :
    forest'.WellFormed := by
  induction inserts with
  | done => exact wellFormed
  | leaf k ks => simp [WellFormed, dictKeys, sameLength]
  | follow headKey _ ih =>
    obtain ⟨_, edgeLength, distinct, children, rest⟩ := wellFormed
    refine ⟨headKey, edgeLength, distinct, ih children ?_, rest⟩
    simp only [List.length_append, List.length_drop] at sameLength ⊢
    omega
  | inside => exact wellFormed
  | @split key lowerKey branchKey common lowerKeys branchKeys node children rest blockIds _ _ _
      headKey edge differ =>
    obtain ⟨_, edgeLength, distinct, children, rest⟩ := wellFormed
    have bound := congrArg List.length edge
    simp only [List.length_append, List.length_cons] at bound sameLength
    refine ⟨headKey, ?_, distinct, ⟨rfl, ?_, ?_, children, ⟨rfl, ?_, by simp [dictKeys],
      trivial, trivial⟩⟩, rest⟩
    · simp only [List.length_take]
      omega
    · simp only [List.length_drop, List.length_cons]
      omega
    · simpa [dictKeys] using differ
    · simp only [List.length_drop, List.length_cons]
      omega
  | beside differ inserts ih =>
    obtain ⟨headKey, edgeLength, distinct, children, rest⟩ := wellFormed
    refine ⟨headKey, edgeLength, fun mem => ?_, children, ih rest sameLength⟩
    rcases inserts.dictKeys_subset _ mem with mem | head
    · exact distinct mem
    · simp only [List.head?_cons, Option.some.injEq] at head
      exact differ head.symm

theorem find_leaf {k : K} {node : RadixNode K} (headKey : node.edgeKeys.head? = some k) :
    (cons k node .nil .nil).find path = insertedBlock node.edgeKeys node.blockIds path := by
  rcases path_cases k node.edgeKeys path with
    rfl | ⟨path_ne, inside⟩ | ⟨below, below_ne, rfl⟩ | ⟨ks, rfl, notInside, notOutside⟩ |
      ⟨k', ks, rfl, differ, notInside, notOutside⟩
  · simp [insertedBlock]
  · rw [find_cons_inside headKey path_ne inside, insertedBlock_inside path_ne inside]
  · rw [find_cons_below headKey below_ne, find_nil,
      insertedBlock_outside (append_not_inside below_ne)]
  · rw [find_cons_branch notInside notOutside, insertedBlock_outside notInside]
  · rw [find_cons_beside differ, find_nil, insertedBlock_outside notInside]

theorem find_split {lowerKey branchKey : K} {below : List K} {lower branch : RadixNode K}
    {children : RadixForest K} (branchHead : branch.edgeKeys.head? = some branchKey)
    (differ : lowerKey ≠ branchKey) :
    (cons lowerKey lower children (cons branchKey branch .nil .nil)).find below =
      ((cons lowerKey lower children .nil).find below).or
        (insertedBlock branch.edgeKeys branch.blockIds below) := by
  cases below with
  | nil => simp [insertedBlock]
  | cons k ks =>
    by_cases same : lowerKey = k
    · subst same
      have outside : ¬lowerKey :: ks <+: branch.edgeKeys := fun inside => by
        obtain ⟨tail, edge⟩ := List.head?_eq_some_iff.mp branchHead
        rw [edge] at inside
        exact differ (List.cons_prefix_cons.mp inside).1
      rw [insertedBlock_outside outside, Option.or_none]
      simp only [find_cons, if_true]
    · rw [find_cons_beside same, find_cons_beside same, find_nil, Option.none_or,
        find_leaf branchHead]

/-- Insertion keeps every entry and adds the missing prefixes of the inserted path. -/
theorem find_eq (inserts : Inserts forest keys blockIds tables forest' tables')
    (wellFormed : forest.WellFormed) (path : List K) :
    forest'.find path = (forest.find path).or (insertedBlock keys blockIds path) := by
  induction inserts generalizing path with
  | done forest =>
    cases path with
    | nil => simp [insertedBlock]
    | cons k ks => rw [insertedBlock_outside (by simp), Option.or_none]
  | leaf k ks blockIds tables => rw [find_leaf rfl, find_nil, Option.none_or]
  | @follow key node children children' rest below blockIds tables tables' headKey inserts ih =>
    obtain ⟨_, edgeLength, distinct, childrenWellFormed, restWellFormed⟩ := wellFormed
    rw [find_access]
    rcases path_cases key node.edgeKeys path with
      rfl | ⟨path_ne, inside⟩ | ⟨below', below_ne, rfl⟩ | ⟨ks', rfl, notInside, notOutside⟩ |
        ⟨k', ks', rfl, differ, notInside, notOutside⟩
    · simp [insertedBlock]
    · have bound := inside.length_le
      have positive := List.length_pos_iff.mpr path_ne
      rw [find_cons_inside headKey path_ne inside, find_cons_inside headKey path_ne inside,
        List.getElem?_eq_getElem (by omega), Option.some_or]
    · rw [find_cons_below headKey below_ne, find_cons_below headKey below_ne,
        ih childrenWellFormed, insertedBlock_append _ _ _ below_ne]
    · rw [find_cons_branch notInside notOutside, find_cons_branch notInside notOutside,
        insertedBlock_outside (not_prefix_append notInside notOutside), Option.none_or]
    · rw [find_cons_beside differ, find_cons_beside differ,
        insertedBlock_outside (not_prefix_append notInside notOutside), Option.or_none]
  | @inside key node children rest keys blockIds tables headKey inside =>
    obtain ⟨headKey', edgeLength, -⟩ := wellFormed
    rw [find_access]
    by_cases inserted : path ≠ [] ∧ path <+: keys
    · have prefixEdge := inserted.2.trans inside
      have bound := prefixEdge.length_le
      have positive := List.length_pos_iff.mpr inserted.1
      rw [find_cons_inside headKey' inserted.1 prefixEdge,
        List.getElem?_eq_getElem (by omega), Option.some_or]
    · rw [insertedBlock, if_neg inserted, Option.or_none]
  | @split key lowerKey branchKey common lowerKeys branchKeys node children rest blockIds tables
      tables' _ headKey edge differ =>
    obtain ⟨edgeHead, edgeLength, distinct, childrenWellFormed, restWellFormed⟩ := wellFormed
    have edgeLength' := congrArg List.length edge
    simp only [List.length_append, List.length_cons] at edgeLength'
    have commonEdge : common <+: node.edgeKeys := ⟨_, edge.symm⟩
    rcases path_cases key common path with
      rfl | ⟨path_ne, inside⟩ | ⟨below, below_ne, rfl⟩ | ⟨ks', rfl, notInside, notOutside⟩ |
        ⟨k', ks', rfl, differ', notInside, notOutside⟩
    · simp [insertedBlock]
    · have bound := inside.length_le
      have positive := List.length_pos_iff.mpr path_ne
      rw [find_cons_inside headKey path_ne inside,
        find_cons_inside edgeHead path_ne (inside.trans commonEdge),
        List.getElem?_take_of_lt (by omega), List.getElem?_eq_getElem (by omega),
        Option.some_or]
    · rw [find_cons_below headKey below_ne, insertedBlock_append _ _ _ below_ne,
        find_common headKey edge below_ne]
      exact find_split rfl differ
    · rw [find_cons_branch notInside notOutside,
        insertedBlock_outside (not_prefix_append notInside notOutside), Option.or_none,
        find_cons_branch (by rw [edge]; exact not_prefix_append notInside notOutside)
          fun outside => notOutside (commonEdge.trans outside)]
    · rw [find_cons_beside differ', find_cons_beside differ',
        insertedBlock_outside (not_prefix_append notInside notOutside), Option.or_none]
  | @beside key k ks node children rest rest' blockIds tables tables' differ inserts ih =>
    obtain ⟨headKey, edgeLength, distinct, childrenWellFormed, restWellFormed⟩ := wellFormed
    cases path with
    | nil => simp [insertedBlock]
    | cons k' ks' =>
      by_cases same : key = k'
      · subst same
        rw [insertedBlock_outside fun inside => differ (List.cons_prefix_cons.mp inside).1,
          Option.or_none]
        simp only [find_cons, if_true]
      · rw [find_cons_beside same, find_cons_beside same, ih restWellFormed]

/-- Insertion stores the blocks of the missing prefixes and keeps all others. -/
theorem allBlockIds_perm (inserts : Inserts forest keys blockIds tables forest' tables')
    (wellFormed : forest.WellFormed) (sameLength : keys.length = blockIds.length) :
    ∃ m, (∀ i, m ≤ i → i < keys.length → forest.find (keys.take (i + 1)) = none) ∧
      forest'.allBlockIds.Perm (forest.allBlockIds ++ blockIds.drop m) := by
  induction inserts with
  | done forest blockIds =>
    refine ⟨0, fun i _ short => by simp at short, ?_⟩
    simp only [List.length_nil] at sameLength
    rw [List.eq_nil_of_length_eq_zero sameLength.symm]
    simp
  | leaf k ks blockIds =>
    exact ⟨0, fun i _ _ => by simp, by simp [allBlockIds]⟩
  | @follow key node children children' rest below blockIds tables tables' headKey inserts ih =>
    obtain ⟨_, edgeLength, distinct, childrenWellFormed, restWellFormed⟩ := wellFormed
    obtain ⟨m, absent, perm⟩ := ih childrenWellFormed (by
      simp only [List.length_append, List.length_drop] at sameLength ⊢
      omega)
    refine ⟨node.edgeKeys.length + m, fun i lower short => ?_, ?_⟩
    · simp only [List.length_append] at short
      rw [show i + 1 = node.edgeKeys.length + (i - node.edgeKeys.length + 1) by omega,
        List.take_length_add_append, find_cons_below headKey]
      · exact absent _ (by omega) (by omega)
      · rw [← List.length_pos_iff, List.length_take]
        omega
    · simp only [allBlockIds]
      rw [List.drop_drop] at perm
      refine ((perm.append_left _).append_right _).trans ?_
      simp only [List.append_assoc]
      exact (List.perm_append_comm.append_left _).append_left _
  | @inside key node children rest keys blockIds =>
    refine ⟨keys.length, fun i lower short => by omega, ?_⟩
    rw [sameLength, List.drop_length, List.append_nil]
    simp [allBlockIds]
  | @split key lowerKey branchKey common lowerKeys branchKeys node children rest blockIds tables
      tables' _ headKey edge differ =>
    refine ⟨common.length, fun i lower short => ?_, ?_⟩
    · rw [show i + 1 = common.length + (i - common.length + 1) by omega,
        List.take_length_add_append, List.take_succ_cons,
        find_common headKey edge (List.cons_ne_nil _ _), find_cons_beside differ, find_nil]
    · simp only [allBlockIds, List.append_nil]
      rw [← List.append_assoc (node.blockIds.take _), ← List.append_assoc (node.blockIds.take _),
        List.take_append_drop]
      simp only [List.append_assoc]
      exact (List.perm_append_comm.append_left _).append_left _
  | beside differ inserts ih =>
    obtain ⟨headKey, edgeLength, distinct, childrenWellFormed, restWellFormed⟩ := wellFormed
    obtain ⟨m, absent, perm⟩ := ih restWellFormed sameLength
    refine ⟨m, fun i lower short => ?_, ?_⟩
    · rw [List.take_succ_cons, find_cons_beside differ]
      exact absent i lower short
    · simp only [allBlockIds, List.append_assoc]
      exact (perm.append_left _).append_left _

omit [DecidableEq K] in
/-- Insertion keeps the nodes and gives new nodes fresh identities. -/
theorem nodeIds_perm (inserts : Inserts forest keys blockIds tables forest' tables') :
    tables.nextNode ≤ tables'.nextNode ∧ forest'.nodeIds.Perm
      (forest.nodeIds ++ List.range' tables.nextNode (tables'.nextNode - tables.nextNode)) := by
  induction inserts with
  | done => simp
  | leaf => simp [nodeIds]
  | @follow key node children children' rest below blockIds tables tables' headKey inserts ih =>
    obtain ⟨grows, perm⟩ := ih
    refine ⟨grows, ?_⟩
    simp only [nodeIds, List.cons_append]
    refine .cons _ ((perm.append_right _).trans ?_)
    simp only [List.append_assoc]
    exact List.perm_append_comm.append_left _
  | inside => simp [nodeIds]
  | @split key lowerKey branchKey common lowerKeys branchKeys node children rest blockIds tables
      tables' tables'' headKey edge differ tables'_eq tables''_eq =>
    have next : tables'.nextNode = tables.nextNode + 1 := by simp [tables'_eq]
    have next' : tables''.nextNode = tables.nextNode + 2 := by simp [tables''_eq, next]
    refine ⟨by omega, ?_⟩
    rw [next', next, Nat.add_sub_cancel_left]
    simp only [nodeIds, List.cons_append, List.append_nil, List.range']
    rw [List.perm_iff_count]
    intro a
    simp only [List.count_cons, List.count_append, List.count_nil]
    omega
  | beside differ inserts ih =>
    obtain ⟨grows, perm⟩ := ih
    refine ⟨grows, ?_⟩
    simp only [nodeIds, List.cons_append, List.append_assoc]
    exact .cons _ (perm.append_left _)

omit [DecidableEq K] in
/-- Insertion leaves the locations of foreign blocks alone. -/
theorem blockLocations_of_not_mem
    (inserts : Inserts forest keys blockIds tables forest' tables') {blockId : BlockId}
    (absent : blockId ∉ forest'.allBlockIds) :
    tables'.blockLocations blockId = tables.blockLocations blockId := by
  induction inserts with
  | done => rfl
  | leaf k ks blockIds tables =>
    simp only [allBlockIds, List.append_nil] at absent
    simp [RadixTables.indexNode_of_not_mem absent]
  | follow headKey inserts ih =>
    simp only [allBlockIds, List.mem_append, not_or] at absent
    rw [ih absent.1.2, RadixTables.touch_blockLocations]
  | inside => rfl
  | split headKey edge differ tables'_eq tables''_eq =>
    simp only [allBlockIds, List.mem_append, List.append_nil, not_or] at absent
    obtain ⟨⟨upper, ⟨lower, children⟩, branch⟩, rest⟩ := absent
    simp [tables''_eq, tables'_eq, RadixTables.indexNode_of_not_mem upper,
      RadixTables.indexNode_of_not_mem lower, RadixTables.indexNode_of_not_mem branch]
  | beside differ inserts ih =>
    simp only [allBlockIds, List.mem_append, not_or] at absent
    exact ih absent.2

omit [DecidableEq K] in
/-- Insertion keeps the reverse index exact. -/
theorem located (inserts : Inserts forest keys blockIds tables forest' tables')
    (located : forest.Located tables) (distinct : forest'.allBlockIds.Nodup) :
    forest'.Located tables' := by
  induction inserts with
  | done => exact located
  | leaf k ks blockIds tables =>
    simp only [allBlockIds, List.append_nil] at distinct
    exact ⟨RadixTables.indexNode_locatesFrom _ distinct, trivial, trivial⟩
  | follow headKey inserts ih =>
    obtain ⟨onEdge, below, beside⟩ := located
    simp only [allBlockIds, List.nodup_append, List.mem_append] at distinct
    obtain ⟨⟨edgeDistinct, childrenDistinct, edgeChildren⟩, restDistinct, apart⟩ := distinct
    refine ⟨onEdge.mono fun blockId stored => ?_, ih below.touch childrenDistinct,
      beside.mono fun blockId stored => ?_⟩
    · exact inserts.blockLocations_of_not_mem fun mem => edgeChildren _ stored _ mem rfl
    · exact inserts.blockLocations_of_not_mem fun mem => apart _ (.inr mem) _ stored rfl
  | inside => exact located.touch
  | @split key lowerKey branchKey common lowerKeys branchKeys node children rest blockIds tables
      tables' tables'' headKey edge differ tables'_eq tables''_eq =>
    obtain ⟨onEdge, below, beside⟩ := located
    simp only [allBlockIds, List.nodup_append, List.mem_append, List.append_nil] at distinct
    obtain ⟨⟨upperDistinct, ⟨⟨lowerDistinct, -, lowerChildren⟩, branchDistinct, apartBranch⟩,
      upperApart⟩, -, apartRest⟩ := distinct
    have location : ∀ blockId, blockId ∉ blockIds.drop common.length →
        tables''.blockLocations blockId = ((tables.newNode.indexNode tables.nextNode
          (node.blockIds.take common.length) 0).indexNode node.nodeId
            (node.blockIds.drop common.length) 0).blockLocations blockId := fun blockId absent => by
      simp [tables''_eq, tables'_eq, RadixTables.indexNode_of_not_mem absent]
    have old : ∀ blockId, blockId ∉ blockIds.drop common.length →
        blockId ∉ node.blockIds.drop common.length → blockId ∉ node.blockIds.take common.length →
        tables''.blockLocations blockId = tables.blockLocations blockId :=
      fun blockId notBranch notLower notUpper => by
        rw [location blockId notBranch, RadixTables.indexNode_of_not_mem notLower,
          RadixTables.indexNode_of_not_mem notUpper, RadixTables.newNode_blockLocations]
    refine ⟨?_, ⟨?_, ?_, ?_, trivial, trivial⟩, ?_⟩
    · refine (RadixTables.indexNode_locatesFrom tables.newNode upperDistinct).mono
        fun blockId stored => ?_
      rw [location blockId fun mem => upperApart _ stored _ (.inr mem) rfl,
        RadixTables.indexNode_of_not_mem fun mem => upperApart _ stored _ (.inl (.inl mem)) rfl]
    · refine (RadixTables.indexNode_locatesFrom (tables.newNode.indexNode tables.nextNode
        (node.blockIds.take common.length) 0) lowerDistinct).mono
          fun blockId stored => ?_
      exact location blockId fun mem => apartBranch _ (.inl stored) _ mem rfl
    · refine below.mono fun blockId stored => old blockId ?_ ?_ ?_
      · exact fun mem => apartBranch _ (.inr stored) _ mem rfl
      · exact fun mem => lowerChildren _ mem _ stored rfl
      · exact fun mem => upperApart _ mem _ (.inl (.inr stored)) rfl
    · rw [tables''_eq]
      exact RadixTables.indexNode_locatesFrom _ branchDistinct
    · refine beside.mono fun blockId stored => old blockId ?_ ?_ ?_
      · exact fun mem => apartRest _ (.inr (.inr mem)) _ stored rfl
      · exact fun mem => apartRest _ (.inr (.inl (.inl mem))) _ stored rfl
      · exact fun mem => apartRest _ (.inl mem) _ stored rfl
  | beside differ inserts ih =>
    obtain ⟨onEdge, below, beside⟩ := located
    simp only [allBlockIds, List.nodup_append, List.mem_append] at distinct
    obtain ⟨⟨edgeDistinct, childrenDistinct, edgeChildren⟩, restDistinct, apart⟩ := distinct
    refine ⟨onEdge.mono fun blockId stored => ?_, below.mono fun blockId stored => ?_,
      ih beside restDistinct⟩
    · exact inserts.blockLocations_of_not_mem fun mem => apart _ (.inl stored) _ mem rfl
    · exact inserts.blockLocations_of_not_mem fun mem => apart _ (.inr stored) _ mem rfl

end Inserts

end RadixForest

end NanoVllm
