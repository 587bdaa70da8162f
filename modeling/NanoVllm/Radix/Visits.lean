import NanoVllm.Radix.Validate

/-!
# The nodes which the operations of the radix cache touch

`match` and `insert` touch the nodes which their traversal enters. `remove_block` enters no node,
but `_compress` touches the nodes into which it merges a child. Every other node keeps its access
time.
-/

namespace NanoVllm

namespace RadixForest

variable {K : Type}

/-- The nodes below a children dictionary. -/
def nodes : RadixForest K → List (RadixNode K)
  | .nil => []
  | .cons _ node children rest => node :: children.nodes ++ rest.nodes

/-- The nodes without children. -/
def leaves : RadixForest K → List (RadixNode K)
  | .nil => []
  | .cons _ node .nil rest => node :: rest.leaves
  | .cons _ _ children rest => children.leaves ++ rest.leaves

/-- The number of children which are left once `remove_block` has cut at a position. -/
def childrenLeft (nodeId index : ℕ) : RadixForest K → ℕ
  | .nil => 0
  | .cons _ node _ rest =>
      if node.nodeId = nodeId then (if index = 0 then 0 else 1) + rest.childCount
      else 1 + rest.childrenLeft nodeId index

/--
The nodes into which `remove_block` merges a child: the ancestors of the place of the cut which
are left with exactly one.
-/
def merging (nodeId index : ℕ) : RadixForest K → List (RadixNode K)
  | .nil => []
  | .cons _ node children rest =>
      if node.nodeId = nodeId then []
      else if nodeId ∈ children.nodeIds then
        (if children.childrenLeft nodeId index = 1 then [node] else []) ++
          children.merging nodeId index
      else rest.merging nodeId index

variable [DecidableEq K]

/-- The pages of the nodes which the traversal of `match` enters. -/
def matchVisits : RadixForest K → List K → List BlockId
  | .nil, _ => []
  | .cons _ _ _ _, [] => []
  | .cons key node children rest, k :: ks =>
      if key = k then
        let common := commonPrefixLength node.edgeKeys (k :: ks)
        if common = 0 then []
        else if common < node.edgeKeys.length then node.blockIds
        else node.blockIds ++ children.matchVisits ((k :: ks).drop common)
      else rest.matchVisits (k :: ks)

/--
The pages of the nodes which the traversal of `insert` enters. Where it splits a node these are
the pages of the upper part and of the new branch.
-/
def insertVisits : RadixForest K → List K → List BlockId → List BlockId
  | _, [], _ => []
  | .nil, _ :: _, blockIds => blockIds
  | .cons key node children rest, k :: ks, blockIds =>
      if key = k then
        let common := commonPrefixLength node.edgeKeys (k :: ks)
        if common = node.edgeKeys.length then
          node.blockIds ++ children.insertVisits ((k :: ks).drop common) (blockIds.drop common)
        else if common = (k :: ks).length then node.blockIds
        else node.blockIds.take common ++ blockIds.drop common
      else rest.insertVisits (k :: ks) blockIds

end RadixForest

namespace RadixTables

@[simp] theorem touch_clock (tables : RadixTables) : tables.touch.clock = tables.clock + 1 := rfl

@[simp] theorem newNode_clock (tables : RadixTables) : tables.newNode.clock = tables.clock := rfl

@[simp] theorem dropLocations_clock (tables : RadixTables) (blockIds : List BlockId) :
    (tables.dropLocations blockIds).clock = tables.clock := rfl

@[simp] theorem indexNode_clock (tables : RadixTables) (nodeId : ℕ) (blockIds : List BlockId)
    (start : ℕ) : (tables.indexNode nodeId blockIds start).clock = tables.clock := by
  induction blockIds generalizing tables start with
  | nil => rfl
  | cons blockId blockIds ih => simp [indexNode, ih]

end RadixTables

namespace RadixForest

variable {K : Type} {forest : RadixForest K} {node : RadixNode K}

theorem mem_nodes_of_leaf (isLeaf : node ∈ forest.leaves) : node ∈ forest.nodes := by
  induction forest with
  | nil => cases isLeaf
  | cons key first children rest ihChildren ihRest =>
    cases children with
    | nil =>
      simp only [leaves, nodes, List.mem_cons, List.cons_append, List.nil_append] at isLeaf ⊢
      exact isLeaf.imp id ihRest
    | cons childKey child grandchildren siblings =>
      simp only [leaves, List.mem_append] at isLeaf
      rw [nodes, List.cons_append, List.mem_cons, List.mem_append]
      exact .inr (isLeaf.imp ihChildren ihRest)

theorem mem_allBlockIds_of_node (mem : node ∈ forest.nodes) {blockId : BlockId}
    (stored : blockId ∈ node.blockIds) : blockId ∈ forest.allBlockIds := by
  induction forest with
  | nil => cases mem
  | cons key first children rest ihChildren ihRest =>
    simp only [nodes, allBlockIds, List.cons_append, List.mem_cons, List.mem_append] at mem ⊢
    rcases mem with rfl | below | beside
    · exact .inl (.inl stored)
    · exact .inl (.inr (ihChildren below))
    · exact .inr (ihRest beside)

theorem exists_node {blockId : BlockId} (stored : blockId ∈ forest.allBlockIds) :
    ∃ node ∈ forest.nodes, blockId ∈ node.blockIds := by
  induction forest with
  | nil => cases stored
  | cons key first children rest ihChildren ihRest =>
    simp only [allBlockIds, List.mem_append] at stored
    rcases stored with (onEdge | below) | beside
    · exact ⟨first, by simp [nodes], onEdge⟩
    · rcases ihChildren below with ⟨node, mem, stored⟩
      exact ⟨node, by simp [nodes, mem], stored⟩
    · rcases ihRest beside with ⟨node, mem, stored⟩
      exact ⟨node, by simp [nodes, mem], stored⟩

/-- A page is stored in one node only. -/
theorem node_unique (distinct : forest.allBlockIds.Nodup) {other : RadixNode K}
    (mem : node ∈ forest.nodes) (mem' : other ∈ forest.nodes) {blockId : BlockId}
    (stored : blockId ∈ node.blockIds) (stored' : blockId ∈ other.blockIds) : node = other := by
  induction forest with
  | nil => cases mem
  | cons key first children rest ihChildren ihRest =>
    simp only [allBlockIds, List.nodup_append, List.mem_append] at distinct
    rcases distinct with ⟨⟨-, childrenDistinct, edgeApart⟩, restDistinct, apart⟩
    simp only [nodes, List.cons_append, List.mem_cons, List.mem_append] at mem mem'
    rcases mem with rfl | below | beside <;> rcases mem' with rfl | below' | beside'
    · rfl
    · exact absurd rfl (edgeApart _ stored _ (mem_allBlockIds_of_node below' stored'))
    · exact absurd rfl (apart _ (.inl stored) _ (mem_allBlockIds_of_node beside' stored'))
    · exact absurd rfl (edgeApart _ stored' _ (mem_allBlockIds_of_node below stored))
    · exact ihChildren childrenDistinct below below'
    · exact absurd rfl (apart _ (.inr (mem_allBlockIds_of_node below stored)) _
        (mem_allBlockIds_of_node beside' stored'))
    · exact absurd rfl (apart _ (.inl stored') _ (mem_allBlockIds_of_node beside stored))
    · exact absurd rfl (apart _ (.inr (mem_allBlockIds_of_node below' stored')) _
        (mem_allBlockIds_of_node beside stored))
    · exact ihRest restDistinct beside beside'

theorem WellFormed.blockIds_ne (wellFormed : forest.WellFormed) (mem : node ∈ forest.nodes) :
    node.blockIds ≠ [] := by
  induction forest with
  | nil => cases mem
  | cons key first children rest ihChildren ihRest =>
    rcases wellFormed with ⟨headKey, sameLength, -, childrenWellFormed, restWellFormed⟩
    simp only [nodes, List.cons_append, List.mem_cons, List.mem_append] at mem
    rcases mem with rfl | below | beside
    · intro empty
      rw [empty, List.length_nil, eq_comm, List.length_eq_zero_iff] at sameLength
      simp [sameLength] at headKey
    · exact ihChildren childrenWellFormed below
    · exact ihRest restWellFormed beside

/-! ## Candidates -/

/-- The deepest eligible page of a node. -/
def IsDeepest (eligible : Finset BlockId) (blockIds : List BlockId) (blockId : BlockId) : Prop :=
  ∃ above below, blockIds = above ++ blockId :: below ∧ blockId ∈ eligible ∧
    ∀ other ∈ below, other ∉ eligible

theorem isDeepest_iff {eligible : Finset BlockId} {blockIds : List BlockId} {blockId : BlockId} :
    blockIds.reverse.find? (· ∈ eligible) = some blockId ↔
      IsDeepest eligible blockIds blockId := by
  rw [List.find?_eq_some_iff_append]
  constructor
  · rintro ⟨isEligible, below, above, split, deeper⟩
    refine ⟨above.reverse, below.reverse, ?_, by simpa using isEligible, ?_⟩
    · simpa using congrArg List.reverse split
    · intro other mem
      simpa using deeper other (List.mem_reverse.mp mem)
  · rintro ⟨above, below, rfl, isEligible, deeper⟩
    refine ⟨by simpa using isEligible, below.reverse, above.reverse, by simp, ?_⟩
    intro other mem
    simpa using deeper other (List.mem_reverse.mp mem)

theorem exists_isDeepest {eligible : Finset BlockId} {blockIds : List BlockId} {blockId : BlockId}
    (mem : blockId ∈ blockIds) (isEligible : blockId ∈ eligible) :
    ∃ deepest, IsDeepest eligible blockIds deepest := by
  cases found : blockIds.reverse.find? (· ∈ eligible) with
  | some deepest => exact ⟨deepest, isDeepest_iff.mp found⟩
  | none =>
    have absent := List.find?_eq_none.mp found blockId (List.mem_reverse.mpr mem)
    simp [isEligible] at absent

theorem mem_leafCandidates {eligible : Finset BlockId} {candidate : ℕ × BlockId} :
    candidate ∈ forest.leafCandidates eligible ↔
      ∃ leaf ∈ forest.leaves, leaf.lastAccess = candidate.1 ∧
        IsDeepest eligible leaf.blockIds candidate.2 := by
  induction forest with
  | nil => simp [leafCandidates, leaves]
  | cons key first children rest ihChildren ihRest =>
    cases children with
    | nil =>
      simp only [leafCandidates, leaves, List.mem_append, List.mem_map, Option.mem_toList,
        isDeepest_iff, ihRest, List.mem_cons, or_and_right, exists_or,
        exists_eq_left]
      apply or_congr _ Iff.rfl
      constructor
      · rintro ⟨deepest, isDeepest, rfl⟩
        exact ⟨rfl, isDeepest⟩
      · rintro ⟨access, isDeepest⟩
        exact ⟨candidate.2, isDeepest, Prod.ext access rfl⟩
    | cons childKey child grandchildren siblings =>
      rw [leafCandidates, leaves, List.mem_append, ihChildren, ihRest]
      · simp only [List.mem_append, or_and_right, exists_or]
      · simp
      · simp

/-! ## Traversals -/

/-- How a traversal changes a node: it enters and touches it, or keeps its access time. -/
def Aged (nodes : List (RadixNode K)) (clock clock' : ℕ) (visits : List BlockId)
    (node' : RadixNode K) : Prop :=
  (clock < node'.lastAccess ∧ node'.lastAccess ≤ clock' ∧ node'.blockIds ⊆ visits) ∨
    ∃ node ∈ nodes, node'.lastAccess = node.lastAccess ∧ node'.blockIds ⊆ node.blockIds ∧
      ∀ blockId ∈ node'.blockIds, blockId ∉ visits

/-- What `match` and `insert` do to a tree when they visit some pages. -/
structure Traverses (forest forest' : RadixForest K) (clock clock' : ℕ)
    (visits : List BlockId) : Prop where
  clock_le : clock ≤ clock'
  visits_subset : visits ⊆ forest'.allBlockIds
  aged : forest'.allBlockIds.Nodup → ∀ node' ∈ forest'.nodes,
    Aged forest.nodes clock clock' visits node'

section Traverses

variable {children children' rest rest' : RadixForest K} {key : K}
  {olds olds' : List (RadixNode K)} {clock clock' : ℕ} {visits more : List BlockId}
  {tables tables' : RadixTables}

theorem Aged.mono (aged : Aged olds clock clock' visits node) (subset : olds ⊆ olds')
    {before : ℕ} (le : before ≤ clock) (visits_subset : visits ⊆ more)
    (apart : ∀ blockId ∈ node.blockIds, blockId ∈ more → blockId ∈ visits) :
    Aged olds' before clock' more node := by
  rcases aged with ⟨after, until_, entered⟩ | ⟨old, mem, access, pages, missed⟩
  · exact .inl ⟨Nat.lt_of_le_of_lt le after, until_, List.Subset.trans entered visits_subset⟩
  · exact .inr ⟨old, subset mem, access, pages, fun blockId stored visited =>
      missed blockId stored (apart blockId stored visited)⟩

theorem Aged.kept (mem : node ∈ olds) (apart : ∀ blockId ∈ node.blockIds, blockId ∉ visits) :
    Aged olds clock clock' visits node :=
  .inr ⟨node, mem, rfl, List.Subset.refl _, apart⟩

theorem Traverses.refl (forest : RadixForest K) (clock : ℕ) :
    Traverses forest forest clock clock [] where
  clock_le := le_rfl
  visits_subset := List.nil_subset _
  aged _ _ mem := .kept mem (by simp)

/-- The traversal enters the first child and goes on below it. -/
theorem Traverses.follow (below : Traverses children children' (clock + 1) clock' visits)
    (node : RadixNode K) :
    Traverses (cons key node children rest)
      (cons key { node with lastAccess := clock + 1 } children' rest) clock clock'
      (node.blockIds ++ visits) where
  clock_le := (Nat.le_succ clock).trans below.clock_le
  visits_subset := by
    simp only [allBlockIds, List.append_subset]
    constructor
    · simp
    · intro blockId visited
      simp [below.visits_subset visited]
  aged := by
    intro distinct node' mem
    simp only [allBlockIds, List.nodup_append, List.mem_append] at distinct
    rcases distinct with ⟨⟨-, childrenDistinct, edgeApart⟩, -, apart⟩
    simp only [nodes, List.cons_append, List.mem_cons, List.mem_append] at mem
    rcases mem with rfl | below' | beside
    · exact .inl ⟨Nat.lt_succ_self clock, below.clock_le, List.subset_append_left _ _⟩
    · apply (below.aged childrenDistinct node' below').mono
      · intro other mem'
        simp [nodes, mem']
      · exact Nat.le_succ clock
      · exact List.subset_append_right _ _
      · intro blockId stored visited
        rcases List.mem_append.mp visited with onEdge | visited
        · exact absurd rfl (edgeApart _ onEdge _ (mem_allBlockIds_of_node below' stored))
        · exact visited
    · refine .kept (by simp [nodes, beside]) ?_
      intro blockId stored visited
      have visited' : blockId ∈ node.blockIds ∨ blockId ∈ children'.allBlockIds :=
        (List.mem_append.mp visited).imp id fun mem => below.visits_subset mem
      exact apart _ visited' _ (mem_allBlockIds_of_node beside stored) rfl

/-- The traversal ends inside the edge of the first child. -/
theorem Traverses.enter (node : RadixNode K) (children rest : RadixForest K) (key : K)
    (clock : ℕ) :
    Traverses (cons key node children rest)
      (cons key { node with lastAccess := clock + 1 } children rest) clock (clock + 1)
      node.blockIds := by
  have entered : Traverses (cons key node children rest)
      (cons key { node with lastAccess := clock + 1 } children rest) clock (clock + 1)
      (node.blockIds ++ []) := (Traverses.refl children (clock + 1)).follow node
  rwa [List.append_nil] at entered

/-- The traversal goes on in the other children. -/
theorem Traverses.beside (traverses : Traverses rest rest' clock clock' visits)
    (node : RadixNode K) :
    Traverses (cons key node children rest) (cons key node children rest') clock clock'
      visits where
  clock_le := traverses.clock_le
  visits_subset := by
    intro blockId visited
    simp [allBlockIds, traverses.visits_subset visited]
  aged := by
    intro distinct node' mem
    simp only [allBlockIds, List.nodup_append, List.mem_append] at distinct
    rcases distinct with ⟨-, restDistinct, apart⟩
    simp only [nodes, List.cons_append, List.mem_cons, List.mem_append] at mem
    rcases mem with rfl | below | beside
    · refine .kept (by simp [nodes]) ?_
      intro blockId stored visited
      exact apart _ (.inl stored) _ (traverses.visits_subset visited) rfl
    · refine .kept (by simp [nodes, below]) ?_
      intro blockId stored visited
      exact apart _ (.inr (mem_allBlockIds_of_node below stored)) _
        (traverses.visits_subset visited) rfl
    · apply (traverses.aged restDistinct node' beside).mono
      · intro other mem'
        simp [nodes, mem']
      · exact le_rfl
      · exact List.Subset.refl _
      · exact fun blockId _ visited => visited

/-- The traversal leaves the edge of the first child, which is split there. -/
theorem Traverses.split {upper lower branch : RadixNode K} {lowerKey branchKey : K}
    (upperAccess : upper.lastAccess = clock + 1) (branchAccess : branch.lastAccess = clock + 2)
    (lowerAccess : lower.lastAccess = node.lastAccess)
    (lowerPages : lower.blockIds ⊆ node.blockIds) :
    Traverses (cons key node children rest)
      (cons key upper (cons lowerKey lower children (cons branchKey branch nil nil)) rest) clock
      (clock + 2) (upper.blockIds ++ branch.blockIds) where
  clock_le := Nat.le_add_right clock 2
  visits_subset := by
    intro blockId visited
    rcases List.mem_append.mp visited with inUpper | inBranch
    · simp [allBlockIds, inUpper]
    · simp [allBlockIds, inBranch]
  aged := by
    intro distinct node' mem
    simp only [allBlockIds, List.nodup_append, List.mem_append, List.append_nil] at distinct
    rcases distinct with ⟨⟨-, ⟨-, -, branchApart⟩, upperApart⟩, -, apart⟩
    simp only [nodes, List.cons_append, List.mem_cons, List.mem_append, List.nil_append,
      List.not_mem_nil, or_false] at mem
    rcases mem with rfl | rfl | (below | rfl) | beside
    · exact .inl ⟨by omega, by omega, List.subset_append_left _ _⟩
    · refine .inr ⟨node, by simp [nodes], lowerAccess, lowerPages, ?_⟩
      intro blockId stored visited
      rcases List.mem_append.mp visited with inUpper | inBranch
      · exact upperApart _ inUpper _ (.inl (.inl stored)) rfl
      · exact branchApart _ (.inl stored) _ inBranch rfl
    · refine .kept (by simp [nodes, below]) ?_
      intro blockId stored visited
      have stored' := mem_allBlockIds_of_node below stored
      rcases List.mem_append.mp visited with inUpper | inBranch
      · exact upperApart _ inUpper _ (.inl (.inr stored')) rfl
      · exact branchApart _ (.inr stored') _ inBranch rfl
    · exact .inl ⟨by omega, by omega, List.subset_append_right _ _⟩
    · refine .kept (by simp [nodes, beside]) ?_
      intro blockId stored visited
      have stored' := mem_allBlockIds_of_node beside stored
      rcases List.mem_append.mp visited with inUpper | inBranch
      · exact apart _ (.inl inUpper) _ stored' rfl
      · exact apart _ (.inr (.inr inBranch)) _ stored' rfl

end Traverses

section Operations

variable [DecidableEq K]

theorem matchKeys_traverses (forest : RadixForest K) (keys : List K) (clock : ℕ) :
    Traverses forest (forest.matchKeys keys clock).1 clock (forest.matchKeys keys clock).2.1
      (forest.matchVisits keys) := by
  induction forest generalizing keys clock with
  | nil =>
    cases keys with
    | nil => exact .refl _ _
    | cons k ks => exact .refl _ _
  | cons key node children rest ihChildren ihRest =>
    cases keys with
    | nil => exact .refl _ _
    | cons k ks =>
      simp only [matchKeys, matchVisits]
      by_cases same : key = k
      · simp only [if_pos same]
        by_cases apart : commonPrefixLength node.edgeKeys (k :: ks) = 0
        · simp only [if_pos apart]
          exact .refl _ _
        · simp only [if_neg apart]
          by_cases inside : commonPrefixLength node.edgeKeys (k :: ks) < node.edgeKeys.length
          · simp only [if_pos inside]
            exact .enter _ _ _ _ _
          · simp only [if_neg inside]
            exact (ihChildren _ _).follow node
      · simp only [if_neg same]
        exact (ihRest _ _).beside node

theorem insertKeys_traverses {forest : RadixForest K} (wellFormed : forest.WellFormed)
    (keys : List K) (blockIds : List BlockId) (tables : RadixTables) :
    Traverses forest (forest.insertKeys keys blockIds tables).1 tables.clock
      (forest.insertKeys keys blockIds tables).2.clock
      (forest.insertVisits keys blockIds) := by
  induction forest generalizing keys blockIds tables with
  | nil =>
    cases keys with
    | nil => exact .refl _ _
    | cons k ks =>
      simp only [insertKeys, insertVisits, RadixTables.touch_clock, RadixTables.indexNode_clock,
        RadixTables.newNode_clock]
      constructor
      · exact Nat.le_succ _
      · simp [allBlockIds]
      · intro _ node' mem
        simp only [nodes, List.append_nil, List.mem_singleton] at mem
        subst mem
        exact .inl ⟨Nat.lt_succ_self _, le_rfl, List.Subset.refl _⟩
  | cons key node children rest ihChildren ihRest =>
    rcases wellFormed with ⟨headKey, -, -, childrenWellFormed, restWellFormed⟩
    cases keys with
    | nil => exact .refl _ _
    | cons k ks =>
      by_cases same : key = k
      · subst same
        simp only [insertKeys, insertVisits, if_true]
        by_cases complete : commonPrefixLength node.edgeKeys (key :: ks) = node.edgeKeys.length
        · simp only [if_pos complete]
          exact (ihChildren childrenWellFormed _ _ _).follow node
        · by_cases inside : commonPrefixLength node.edgeKeys (key :: ks) = (key :: ks).length
          · simp only [if_neg complete, if_pos inside, RadixTables.touch_clock]
            exact .enter _ _ _ _ _
          · simp only [if_neg complete, if_neg inside]
            rcases exists_branch complete inside with
              ⟨common, lowerKey, lowerKeys, branchKey, branchKeys, -, edge, path, commonLength⟩
            rw [← commonLength, path, edge, List.drop_left, List.drop_left]
            simp only [RadixTables.touch_clock, RadixTables.indexNode_clock,
              RadixTables.newNode_clock]
            exact .split rfl rfl rfl (List.drop_subset _ _)
      · simp only [insertKeys, insertVisits, if_neg same]
        exact (ihRest restWellFormed _ _ _).beside node

end Operations

/-! ## Removals -/

section Removal

variable {node' : RadixNode K} {children children' : RadixForest K} {tables tables' : RadixTables}

theorem compressNode_of_ne (several : children.childCount ≠ 1) (node : RadixNode K)
    (tables : RadixTables) : compressNode node children tables = (node, children, tables) := by
  cases children with
  | nil => rfl
  | cons key child grandchildren rest =>
    cases rest with
    | nil => exact absurd rfl several
    | cons => rfl

theorem Compresses.clock_le (compresses : Compresses node children tables node' children' tables') :
    tables.clock ≤ tables'.clock := by
  induction compresses with
  | done => exact le_rfl
  | absorb _ ih =>
    simp only [RadixTables.touch_clock, RadixTables.indexNode_clock] at ih
    omega

theorem Compresses.nodes_subset
    (compresses : Compresses node children tables node' children' tables') :
    children'.nodes ⊆ children.nodes := by
  induction compresses with
  | done => exact List.Subset.refl _
  | absorb _ ih =>
    intro other mem
    simp [nodes, ih mem]

theorem Compresses.pages_subset
    (compresses : Compresses node children tables node' children' tables') :
    node.blockIds ⊆ node'.blockIds := by
  induction compresses with
  | done => exact List.Subset.refl _
  | absorb _ ih => exact List.Subset.trans (List.subset_append_left _ _) ih

/-- A node which absorbs a child is touched. -/
theorem Compresses.touched (compresses : Compresses node children tables node' children' tables') :
    node' = node ∨ (tables.clock < node'.lastAccess ∧ node'.lastAccess ≤ tables'.clock) := by
  induction compresses with
  | done => exact .inl rfl
  | absorb compresses ih =>
    have le := compresses.clock_le
    simp only [RadixTables.touch_clock, RadixTables.indexNode_clock] at ih le
    rcases ih with rfl | ⟨after, until_⟩
    · exact .inr ⟨Nat.lt_succ_self _, le⟩
    · exact .inr ⟨by omega, until_⟩

theorem removeAt_of_not_mem {forest : RadixForest K} {nodeId index : ℕ}
    (absent : nodeId ∉ forest.nodeIds) :
    forest.removeAt nodeId index tables = (forest, tables) := by
  induction forest generalizing tables with
  | nil => rfl
  | cons key node children rest _ ihRest =>
    simp only [nodeIds, List.cons_append, List.mem_cons, List.mem_append, not_or] at absent
    rcases absent with ⟨elsewhere, notBelow, notBeside⟩
    simp [removeAt, Ne.symm elsewhere, notBelow, ihRest notBeside]

theorem removeAt_childCount {forest : RadixForest K} (distinct : forest.nodeIds.Nodup)
    (nodeId index : ℕ) (tables : RadixTables) :
    (forest.removeAt nodeId index tables).1.childCount = forest.childrenLeft nodeId index := by
  induction forest generalizing tables with
  | nil => rfl
  | cons key node children rest _ ihRest =>
    simp only [nodeIds, List.cons_append, List.nodup_cons, List.mem_append, not_or,
      List.nodup_append] at distinct
    rcases distinct with ⟨-, -, restDistinct, apart⟩
    simp only [removeAt, childrenLeft]
    by_cases here : node.nodeId = nodeId
    · simp only [if_pos here]
      by_cases first : index = 0
      · simp [first]
      · simp [first, childCount, dictKeys, Nat.add_comm]
    · simp only [if_neg here]
      by_cases inside : nodeId ∈ children.nodeIds
      · have outside : nodeId ∉ rest.nodeIds := fun mem => apart _ inside _ mem rfl
        have same : rest.removeAt nodeId index tables = (rest, tables) := removeAt_of_not_mem outside
        have left := ihRest restDistinct tables
        rw [same] at left
        simp [inside, ← left, childCount, dictKeys, Nat.add_comm]
      · simp only [if_neg inside, ← ihRest restDistinct tables]
        simp [childCount, dictKeys, Nat.add_comm]

/-- How a removal changes a node: it merges a child into it, or keeps its access time. -/
def Cut (olds merging : List (RadixNode K)) (clock clock' : ℕ) (node' : RadixNode K) : Prop :=
  (clock < node'.lastAccess ∧ node'.lastAccess ≤ clock' ∧
      ∃ node ∈ merging, node.blockIds ⊆ node'.blockIds) ∨
    ∃ node ∈ olds, node'.lastAccess = node.lastAccess ∧ node'.blockIds ⊆ node.blockIds

theorem Cut.mono {olds olds' merging merging' : List (RadixNode K)} {clock clock' later : ℕ}
    (cut : Cut olds merging clock clock' node) (subset : olds ⊆ olds')
    (merging_subset : merging ⊆ merging') (le : clock' ≤ later) :
    Cut olds' merging' clock later node := by
  rcases cut with ⟨after, until_, old, mem, pages⟩ | ⟨old, mem, access, pages⟩
  · exact .inl ⟨after, until_.trans le, old, merging_subset mem, pages⟩
  · exact .inr ⟨old, subset mem, access, pages⟩

theorem Cut.kept {olds merging : List (RadixNode K)} {clock clock' : ℕ} (mem : node ∈ olds) :
    Cut olds merging clock clock' node :=
  .inr ⟨node, mem, rfl, List.Subset.refl _⟩

theorem removeAt_cut {forest : RadixForest K} (distinct : forest.nodeIds.Nodup)
    (nodeId index : ℕ) (tables : RadixTables) :
    tables.clock ≤ (forest.removeAt nodeId index tables).2.clock ∧
      ∀ node' ∈ (forest.removeAt nodeId index tables).1.nodes,
        Cut forest.nodes (forest.merging nodeId index) tables.clock
          (forest.removeAt nodeId index tables).2.clock node' := by
  induction forest generalizing tables with
  | nil => exact ⟨le_rfl, nofun⟩
  | cons key node children rest ihChildren ihRest =>
    simp only [nodeIds, List.cons_append, List.nodup_cons, List.mem_append, not_or,
      List.nodup_append] at distinct
    rcases distinct with ⟨-, childrenDistinct, restDistinct, -⟩
    simp only [removeAt, merging]
    by_cases here : node.nodeId = nodeId
    · simp only [if_pos here]
      by_cases first : index = 0
      · simp only [if_pos first]
        refine ⟨le_rfl, ?_⟩
        intro node' mem
        exact .kept (by simp [nodes, mem])
      · simp only [if_neg first]
        refine ⟨le_rfl, ?_⟩
        intro node' mem
        simp only [nodes, List.cons_append, List.nil_append, List.mem_cons] at mem
        rcases mem with rfl | beside
        · exact .inr ⟨node, by simp [nodes], rfl, List.take_subset _ _⟩
        · exact .kept (by simp [nodes, beside])
    · simp only [if_neg here]
      by_cases inside : nodeId ∈ children.nodeIds
      · simp only [if_pos inside]
        rcases ihChildren childrenDistinct tables with ⟨le, cut⟩
        have compresses := compressNode_compresses node (children.removeAt nodeId index tables).1
          (children.removeAt nodeId index tables).2
        have le' := compresses.clock_le
        refine ⟨le.trans le', ?_⟩
        intro node' mem
        simp only [nodes, List.cons_append, List.mem_cons, List.mem_append] at mem
        rcases mem with rfl | below | beside
        · rcases compresses.touched with same | ⟨after, until_⟩
          · rw [same]
            exact .kept (by simp [nodes])
          · by_cases single : children.childrenLeft nodeId index = 1
            · exact .inl ⟨Nat.lt_of_le_of_lt le after, until_, node, by simp [single],
                compresses.pages_subset⟩
            · have unchanged := compressNode_of_ne
                ((removeAt_childCount childrenDistinct nodeId index tables).trans_ne single) node
                (children.removeAt nodeId index tables).2
              rw [unchanged]
              exact .kept (by simp [nodes])
        · apply (cut node' (compresses.nodes_subset below)).mono
          · intro other mem'
            simp [nodes, mem']
          · exact List.subset_append_right _ _
          · exact le'
        · exact .kept (by simp [nodes, beside])
      · simp only [if_neg inside]
        rcases ihRest restDistinct tables with ⟨le, cut⟩
        refine ⟨le, ?_⟩
        intro node' mem
        simp only [nodes, List.cons_append, List.mem_cons, List.mem_append] at mem
        rcases mem with rfl | below | beside
        · exact .kept (by simp [nodes])
        · exact .kept (by simp [nodes, below])
        · apply (cut node' beside).mono
          · intro other mem'
            simp [nodes, mem']
          · exact List.Subset.refl _
          · exact le_rfl

end Removal

end RadixForest

end NanoVllm
