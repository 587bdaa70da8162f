import NanoVllm.Library.PathLeaves
import NanoVllm.Radix.Lookup

/-!
# The leaves of the radix cache

The walk of `snapshot` over the tree, which visits the children of a node in the order of their
edges and stops at the nodes without children. On a well-formed tree it lists the leaves of the
map `find` in increasing order.
-/

namespace NanoVllm

open PathIndex

namespace RadixForest

variable {K : Type}

/-- `not node.children`. -/
def isEmpty : RadixForest K → Bool
  | .nil => true
  | .cons _ _ _ _ => false

variable [LinearOrder K]

/-- `sorted(..., key=lambda item: item.edge_keys)`, for the children together with their leaves. -/
def sortByEdge {α : Type} (entries : List (List K × α)) : List (List K × α) :=
  entries.insertionSort fun left right => left.1 ≤ right.1

/-- For each child its edge and the leaves which `visit` reaches from it. -/
def leafEntries : RadixForest K → List K → List BlockId →
    List (List K × List (List K × List BlockId))
  | .nil, _, _ => []
  | .cons _ node children rest, parentKeys, parentHandles =>
      let blockKeys := parentKeys ++ node.edgeKeys
      let handles := parentHandles ++ node.blockIds
      let leaves :=
        if children.isEmpty then [(blockKeys, handles)]
        else (sortByEdge (children.leafEntries blockKeys handles)).flatMap Prod.snd
      (node.edgeKeys, leaves) :: rest.leafEntries parentKeys parentHandles

/-- The leaves below a children dictionary in the order of the walk. -/
def leavesBelow (forest : RadixForest K) (parentKeys : List K) (parentHandles : List BlockId) :
    List (List K × List BlockId) :=
  (sortByEdge (forest.leafEntries parentKeys parentHandles)).flatMap Prod.snd

variable {forest : RadixForest K}

/-- A leaf seen from the parent of its tree. -/
def extend (keys : List K) (handles : List BlockId) (leaf : List K × List BlockId) :
    List K × List BlockId :=
  (keys ++ leaf.1, handles ++ leaf.2)

omit [LinearOrder K] in
theorem extend_extend (keys keys' : List K) (handles handles' : List BlockId) :
    extend keys handles ∘ extend keys' handles' = extend (keys ++ keys') (handles ++ handles') := by
  funext leaf
  simp [extend]

theorem sortByEdge_map {α β : Type} (entries : List (List K × α)) (f : α → β) :
    sortByEdge (entries.map (Prod.map id f)) = (sortByEdge entries).map (Prod.map id f) := by
  refine (List.map_insertionSort _ _ _ _ ?_).symm
  exact fun left _ right _ => Iff.rfl

theorem sortByEdge_flatMap {α β : Type} (entries : List (List K × List α)) (f : α → β) :
    (sortByEdge (entries.map (Prod.map id (List.map f)))).flatMap Prod.snd =
      ((sortByEdge entries).flatMap Prod.snd).map f := by
  rw [sortByEdge_map, List.flatMap_map, List.map_flatMap]
  rfl

theorem leafEntries_extend (keys : List K) (handles : List BlockId) :
    forest.leafEntries keys handles =
      (forest.leafEntries [] []).map (Prod.map id (List.map (extend keys handles))) := by
  induction forest generalizing keys handles with
  | nil => rfl
  | cons key node children rest ihChildren ihRest =>
    simp only [leafEntries, List.nil_append, List.map_cons, ihRest keys handles]
    congr 1
    refine Prod.ext rfl ?_
    simp only [Prod.map_snd]
    cases children.isEmpty with
    | true => rfl
    | false =>
      simp only [Bool.false_eq_true, ↓reduceIte]
      rw [ihChildren (keys ++ node.edgeKeys), ihChildren node.edgeKeys, sortByEdge_flatMap,
        sortByEdge_flatMap, List.map_map, extend_extend]

theorem leavesBelow_extend (keys : List K) (handles : List BlockId) :
    forest.leavesBelow keys handles = (forest.leavesBelow [] []).map (extend keys handles) := by
  rw [leavesBelow, leafEntries_extend, sortByEdge_flatMap]
  rfl

theorem mem_leavesBelow {leaf : List K × List BlockId} :
    leaf ∈ forest.leavesBelow [] [] ↔ ∃ entry ∈ forest.leafEntries [] [], leaf ∈ entry.2 := by
  simp [leavesBelow, sortByEdge, List.mem_flatMap]

/-- The entries have the dictionary keys as the heads of their edges. -/
theorem leafEntries_heads (wellFormed : forest.WellFormed) (keys : List K)
    (handles : List BlockId) :
    (forest.leafEntries keys handles).map (fun entry => entry.1.head?) =
      forest.dictKeys.map some := by
  induction forest with
  | nil => rfl
  | cons key node children rest _ ihRest =>
    rcases wellFormed with ⟨headKey, -, -, -, restWellFormed⟩
    simp only [leafEntries, dictKeys, List.map_cons, headKey, ihRest restWellFormed]

omit [LinearOrder K] in
theorem WellFormed.nodup_dictKeys (wellFormed : forest.WellFormed) : forest.dictKeys.Nodup := by
  induction forest with
  | nil => exact List.nodup_nil
  | cons key node children rest _ ihRest =>
    rcases wellFormed with ⟨-, -, absent, -, restWellFormed⟩
    exact List.nodup_cons.mpr ⟨absent, ihRest restWellFormed⟩

/-! ## The leaves of one child -/

variable [DecidableEq K]

section Child

omit [LinearOrder K]

variable {key : K} {node : RadixNode K} {children rest : RadixForest K}

/-- The values along the edge of a child and on along a path of its children. -/
theorem along_edge (headKey : node.edgeKeys.head? = some key)
    (sameLength : node.blockIds.length = node.edgeKeys.length) {path : List K}
    {handles : List BlockId} (along : Along children.find path handles) :
    Along (cons key node children rest).find (node.edgeKeys ++ path)
      (node.blockIds ++ handles) where
  length_eq := by
    have := along.length_eq
    simp only [List.length_append]
    omega
  get i value get := by
    by_cases inside : i < node.edgeKeys.length
    · rw [List.getElem?_append_left (by omega)] at get
      have cut : (node.edgeKeys ++ path).take (i + 1) = node.edgeKeys.take (i + 1) :=
        List.take_append_of_le_length (by omega)
      have cut_ne : node.edgeKeys.take (i + 1) ≠ [] := by
        intro empty
        have := congrArg List.length empty
        simp only [List.length_take, List.length_nil] at this
        omega
      rw [cut, find_cons_inside headKey cut_ne (List.take_prefix _ _), List.length_take,
        Nat.min_eq_left (by omega), Nat.add_sub_cancel, get]
    · rw [List.getElem?_append_right (by omega), sameLength] at get
      have short := (List.getElem?_eq_some_iff.mp get).1
      have bound := along.length_eq
      have cut : (node.edgeKeys ++ path).take (i + 1) =
          node.edgeKeys ++ path.take (i - node.edgeKeys.length + 1) := by
        rw [List.take_append, List.take_of_length_le (by omega)]
        congr 2
        omega
      have cut_ne : path.take (i - node.edgeKeys.length + 1) ≠ [] := by
        intro empty
        have := congrArg List.length empty
        simp only [List.length_take, List.length_nil] at this
        omega
      rw [cut, find_cons_below headKey cut_ne]
      exact along.get _ value get

/-- A path beside the first child is looked up in the other children. -/
theorem along_beside (absent : key ∉ rest.dictKeys) {k : K} (mem : k ∈ rest.dictKeys)
    {path : List K} {handles : List BlockId} (headKey : path.head? = some k)
    (along : Along rest.find path handles) :
    Along (cons key node children rest).find path handles := by
  refine along.congr fun i short => ?_
  have differ : key ≠ k := by
    rintro rfl
    exact absent mem
  rcases List.head?_eq_some_iff.mp headKey with ⟨ks, rfl⟩
  rw [List.take_succ_cons]
  exact find_cons_beside differ

theorem isLeaf_beside (absent : key ∉ rest.dictKeys) {k : K} (mem : k ∈ rest.dictKeys)
    {path : List K} (headKey : path.head? = some k) (isLeaf : IsLeaf rest.find path) :
    IsLeaf (cons key node children rest).find path := by
  have differ : key ≠ k := by
    rintro rfl
    exact absent mem
  rcases List.head?_eq_some_iff.mp headKey with ⟨ks, rfl⟩
  constructor
  · rw [find_cons_beside differ]
    exact isLeaf.1
  · intro key'
    rw [List.cons_append, find_cons_beside differ]
    exact isLeaf.2 key'

theorem isLeaf_edge (headKey : node.edgeKeys.head? = some key) {path : List K}
    (path_ne : path ≠ []) (isLeaf : IsLeaf children.find path) :
    IsLeaf (cons key node children rest).find (node.edgeKeys ++ path) := by
  constructor
  · rw [find_cons_below headKey path_ne]
    exact isLeaf.1
  · intro key'
    rw [List.append_assoc, find_cons_below headKey (by simp)]
    exact isLeaf.2 key'

end Child

/-! ## The whole tree -/

/-- The leaves listed for a child: paths which start with its key. -/
structure ListsChild (find : List K → Option BlockId) (key : K)
    (leaves : List (List K × List BlockId)) : Prop where
  heads : ∀ leaf ∈ leaves, leaf.1.head? = some key
  along : ∀ leaf ∈ leaves, Along find leaf.1 leaf.2
  isLeaf : ∀ leaf ∈ leaves, IsLeaf find leaf.1
  increasing : leaves.Pairwise fun left right => left.1 < right.1

/-- What `visit` reaches from the children of a node. -/
structure ListsChildren (forest : RadixForest K) : Prop where
  child : ∀ entry ∈ forest.leafEntries [] [], ∃ key ∈ forest.dictKeys,
    entry.1.head? = some key ∧ ListsChild forest.find key entry.2
  covers : ∀ path, forest.find path ≠ none →
    ∃ entry ∈ forest.leafEntries [] [], ∃ leaf ∈ entry.2, path <+: leaf.1

omit [DecidableEq K] in
theorem lt_of_heads {left right edge edge' : List K} {key key' : K} (differ : key ≠ key')
    (ordered : edge ≤ edge') (edgeHead : edge.head? = some key)
    (edgeHead' : edge'.head? = some key') (leftHead : left.head? = some key)
    (rightHead : right.head? = some key') : left < right := by
  rcases List.head?_eq_some_iff.mp edgeHead with ⟨_, rfl⟩
  rcases List.head?_eq_some_iff.mp edgeHead' with ⟨_, rfl⟩
  rcases List.head?_eq_some_iff.mp leftHead with ⟨_, rfl⟩
  rcases List.head?_eq_some_iff.mp rightHead with ⟨_, rfl⟩
  have below : key < key' := by
    by_contra above
    have swapped : key' < key := lt_of_le_of_ne (not_lt.mp above) (Ne.symm differ)
    exact absurd ordered (not_le.mpr (List.Lex.rel swapped))
  exact List.Lex.rel below

/-- Sorting the children by their edges sorts the leaves below them. -/
theorem ListsChildren.listsLeaves (lists : forest.ListsChildren)
    (wellFormed : forest.WellFormed) : ListsLeaves forest.find (forest.leavesBelow [] []) where
  along leaf mem := by
    rcases mem_leavesBelow.mp mem with ⟨entry, entryMem, leafMem⟩
    rcases lists.child entry entryMem with ⟨key, -, -, child⟩
    exact child.along leaf leafMem
  isLeaf leaf mem := by
    rcases mem_leavesBelow.mp mem with ⟨entry, entryMem, leafMem⟩
    rcases lists.child entry entryMem with ⟨key, -, -, child⟩
    exact child.isLeaf leaf leafMem
  covers path found := by
    rcases lists.covers path found with ⟨entry, entryMem, leaf, leafMem, isPrefix⟩
    exact ⟨leaf, mem_leavesBelow.mpr ⟨entry, entryMem, leafMem⟩, isPrefix⟩
  increasing := by
    rw [leavesBelow, List.pairwise_flatMap]
    have permuted : (sortByEdge (forest.leafEntries [] [])).Perm (forest.leafEntries [] []) :=
      List.perm_insertionSort _ _
    constructor
    · intro entry mem
      rcases lists.child entry (permuted.mem_iff.mp mem) with ⟨key, -, -, child⟩
      exact child.increasing
    · have heads := (permuted.map fun entry => entry.1.head?).nodup_iff.mpr (by
        rw [leafEntries_heads wellFormed]
        exact wellFormed.nodup_dictKeys.map (Option.some_injective K))
      have sorted : (sortByEdge (forest.leafEntries [] [])).Pairwise fun left right =>
          left.1 ≤ right.1 := by
        refine @List.pairwise_insertionSort _ _ _ ⟨?_⟩ ⟨?_⟩ _
        · exact fun left right => le_total left.1 right.1
        · exact fun left middle right => le_trans
      refine (sorted.and (List.pairwise_map.mp heads)).imp_of_mem ?_
      rintro entry entry' mem mem' ⟨ordered, differ⟩ leaf leafMem leaf' leafMem'
      rcases lists.child entry (permuted.mem_iff.mp mem) with ⟨key, -, head, child⟩
      rcases lists.child entry' (permuted.mem_iff.mp mem') with ⟨key', -, head', child'⟩
      refine lt_of_heads ?_ ordered head head' (child.heads leaf leafMem)
        (child'.heads leaf' leafMem')
      rintro rfl
      exact differ (head.trans head'.symm)

omit [LinearOrder K] in
/-- A tree with a child has a path. -/
theorem WellFormed.exists_path {key : K} {node : RadixNode K} {children rest : RadixForest K}
    (wellFormed : (cons key node children rest).WellFormed) :
    (cons key node children rest).find [key] ≠ none := by
  rcases wellFormed with ⟨headKey, sameLength, -, -, -⟩
  rcases List.head?_eq_some_iff.mp headKey with ⟨tail, edge⟩
  have inside : [key] <+: node.edgeKeys := ⟨tail, edge.symm⟩
  rw [find_cons_inside headKey (by simp) inside]
  simp only [List.length_singleton, Nat.sub_self, ne_eq, List.getElem?_eq_none_iff, not_le]
  rw [sameLength, edge]
  exact Nat.succ_pos _

/-- The leaves of the first child: its edge if it has no children, and the leaves below it. -/
def childLeaves (node : RadixNode K) (children : RadixForest K) :
    List (List K × List BlockId) :=
  if children.isEmpty then [(node.edgeKeys, node.blockIds)]
  else (children.leavesBelow [] []).map (extend node.edgeKeys node.blockIds)

section FirstChild

variable {key : K} {node : RadixNode K} {children rest : RadixForest K}

omit [DecidableEq K] in
theorem leafEntries_cons : (cons key node children rest).leafEntries [] [] =
    (node.edgeKeys, childLeaves node children) :: rest.leafEntries [] [] := by
  rw [childLeaves, ← leavesBelow_extend]
  rfl

theorem childLeaves_listsChild (headKey : node.edgeKeys.head? = some key)
    (sameLength : node.blockIds.length = node.edgeKeys.length)
    (lists : ListsLeaves children.find (children.leavesBelow [] [])) :
    ListsChild (cons key node children rest).find key (childLeaves node children) := by
  have edge_ne : node.edgeKeys ≠ [] := by
    rintro empty
    rw [empty] at headKey
    cases headKey
  cases children with
  | nil =>
    have along : Along (cons key node nil rest).find node.edgeKeys node.blockIds := by
      have onEdge : Along (cons key node nil rest).find (node.edgeKeys ++ [])
          (node.blockIds ++ []) := along_edge headKey sameLength .nil
      rwa [List.append_nil, List.append_nil] at onEdge
    constructor
    · simpa [childLeaves, isEmpty] using headKey
    · simpa [childLeaves, isEmpty] using along
    · simp only [childLeaves, isEmpty, ↓reduceIte, List.mem_singleton, forall_eq]
      constructor
      · rw [along.value_eq edge_ne (List.prefix_refl _), ne_eq, List.getElem?_eq_none_iff]
        have := List.length_pos_iff.mpr edge_ne
        omega
      · intro key'
        rw [find_cons_below headKey (by simp), find_nil]
    · simp [childLeaves, isEmpty]
  | cons childKey child grandchildren siblings =>
    have unfolded : childLeaves node (cons childKey child grandchildren siblings) =
        ((cons childKey child grandchildren siblings).leavesBelow [] []).map
          (extend node.edgeKeys node.blockIds) := rfl
    rw [unfolded]
    constructor
    · rw [List.forall_mem_map]
      intro leaf mem
      rw [extend, List.head?_append_of_ne_nil _ edge_ne, headKey]
    · rw [List.forall_mem_map]
      exact fun leaf mem => along_edge headKey sameLength (lists.along leaf mem)
    · rw [List.forall_mem_map]
      intro leaf mem
      refine isLeaf_edge headKey ?_ (lists.isLeaf leaf mem)
      intro empty
      exact (lists.isLeaf leaf mem).1 (by rw [empty, find_empty])
    · rw [List.pairwise_map]
      exact lists.increasing.imp fun less => List.Lex.append_left _ less _

/-- The paths inside and below the first edge are covered by the leaves of the first child. -/
theorem childLeaves_covers (childrenWellFormed : children.WellFormed)
    (lists : ListsLeaves children.find (children.leavesBelow [] [])) {path : List K}
    (inside : path <+: node.edgeKeys ∨
      ∃ below, path = node.edgeKeys ++ below ∧ children.find below ≠ none) :
    ∃ leaf ∈ childLeaves node children, path <+: leaf.1 := by
  cases children with
  | nil =>
    refine ⟨(node.edgeKeys, node.blockIds), by simp [childLeaves, isEmpty], ?_⟩
    rcases inside with inside | ⟨below, -, found⟩
    · exact inside
    · exact absurd (find_nil below) found
  | cons childKey child grandchildren siblings =>
    have covered : ∀ below, (cons childKey child grandchildren siblings).find below ≠ none →
        ∃ leaf ∈ childLeaves node (cons childKey child grandchildren siblings),
          node.edgeKeys ++ below <+: leaf.1 := by
      intro below found
      rcases lists.covers below found with ⟨leaf, mem, isPrefix⟩
      refine ⟨extend node.edgeKeys node.blockIds leaf, List.mem_map_of_mem mem, ?_⟩
      exact (List.prefix_append_right_inj _).mpr isPrefix
    rcases inside with inside | ⟨below, rfl, found⟩
    · rcases covered _ childrenWellFormed.exists_path with ⟨leaf, mem, isPrefix⟩
      exact ⟨leaf, mem, inside.trans ((List.prefix_append _ _).trans isPrefix)⟩
    · exact covered below found

theorem listsChildren_cons (wellFormed : (cons key node children rest).WellFormed)
    (childLists : ListsLeaves children.find (children.leavesBelow [] []))
    (restLists : rest.ListsChildren) : (cons key node children rest).ListsChildren := by
  rcases wellFormed with ⟨headKey, sameLength, absent, childrenWellFormed, -⟩
  constructor
  · rw [leafEntries_cons, List.forall_mem_cons]
    constructor
    · exact ⟨key, by simp [dictKeys], headKey,
        childLeaves_listsChild headKey sameLength childLists⟩
    · intro entry mem
      rcases restLists.child entry mem with ⟨k, kMem, head, child⟩
      refine ⟨k, by simp [dictKeys, kMem], head, child.heads, ?_, ?_, child.increasing⟩
      · exact fun leaf mem => along_beside absent kMem (child.heads leaf mem)
          (child.along leaf mem)
      · exact fun leaf mem => isLeaf_beside absent kMem (child.heads leaf mem)
          (child.isLeaf leaf mem)
  · intro path found
    rcases Option.ne_none_iff_exists'.mp found with ⟨blockId, stored⟩
    rw [leafEntries_cons]
    have firstOrRest : (path <+: node.edgeKeys ∨
        ∃ below, path = node.edgeKeys ++ below ∧ children.find below ≠ none) ∨
        rest.find path ≠ none := by
      rcases find_cons_eq_some stored with ⟨-, inside, -⟩ | ⟨below, path_eq, found⟩ | beside
      · exact .inl (.inl inside)
      · exact .inl (.inr ⟨below, path_eq, by simp [found]⟩)
      · exact .inr (by simp [beside])
    rcases firstOrRest with first | beside
    · rcases childLeaves_covers childrenWellFormed childLists first with ⟨leaf, mem, isPrefix⟩
      exact ⟨_, List.mem_cons_self, leaf, mem, isPrefix⟩
    · rcases restLists.covers path beside with ⟨entry, mem, leaf, leafMem, isPrefix⟩
      exact ⟨entry, List.mem_cons_of_mem _ mem, leaf, leafMem, isPrefix⟩

end FirstChild

theorem listsChildren (wellFormed : forest.WellFormed) : forest.ListsChildren := by
  induction forest with
  | nil =>
    constructor
    · intro entry mem
      cases mem
    · intro path found
      exact absurd (find_nil path) found
  | cons key node children rest ihChildren ihRest =>
    have parts := wellFormed
    rcases parts with ⟨-, -, -, childrenWellFormed, restWellFormed⟩
    exact listsChildren_cons wellFormed
      ((ihChildren childrenWellFormed).listsLeaves childrenWellFormed) (ihRest restWellFormed)

/-- The walk lists the leaves of the map. -/
theorem WellFormed.listsLeaves (wellFormed : forest.WellFormed) :
    ListsLeaves forest.find (forest.leavesBelow [] []) :=
  (listsChildren wellFormed).listsLeaves wellFormed

end RadixForest

end NanoVllm
