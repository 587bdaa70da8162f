import NanoVllm.Radix.Basic
import NanoVllm.Library.PathIndex
import Mathlib.Data.List.Infix

/-!
# Lookups in the radix prefix cache

The forest is specified by the map `find` from paths of page keys to blocks. This file states
when a forest is well formed, relates its blocks to the map, and proves that `match` returns
the longest match of the map and changes nothing but access times.
-/

namespace NanoVllm

open PathIndex

section CommonPrefixLength

variable {K : Type} [DecidableEq K]

theorem commonPrefixLength_le_left (left right : List K) :
    commonPrefixLength left right ≤ left.length := by
  fun_induction commonPrefixLength left right with
  | case1 lefts right rights ih => simpa using ih
  | case2 => simp
  | case3 => simp

theorem commonPrefixLength_le_right (left right : List K) :
    commonPrefixLength left right ≤ right.length := by
  fun_induction commonPrefixLength left right with
  | case1 lefts right rights ih => simpa using ih
  | case2 => simp
  | case3 => simp

theorem take_commonPrefixLength (left right : List K) :
    left.take (commonPrefixLength left right) = right.take (commonPrefixLength left right) := by
  fun_induction commonPrefixLength left right with
  | case1 lefts right rights ih => simpa using ih
  | case2 => simp
  | case3 => simp

/-- Behind the common prefix the two lists differ. -/
theorem getElem?_commonPrefixLength_ne {left right : List K}
    (left_lt : commonPrefixLength left right < left.length)
    (right_lt : commonPrefixLength left right < right.length) :
    left[commonPrefixLength left right]? ≠ right[commonPrefixLength left right]? := by
  fun_induction commonPrefixLength left right with
  | case1 lefts right rights ih =>
    simp only [List.length_cons, Nat.add_lt_add_iff_right] at left_lt right_lt
    simpa using ih left_lt right_lt
  | case2 => simpa using ‹_›
  | case3 left right notBoth =>
    cases left with
    | nil => simp at left_lt
    | cons left lefts =>
      cases right with
      | nil => simp at right_lt
      | cons right rights => exact absurd rfl (notBoth left lefts right rights rfl)

theorem commonPrefixLength_eq_right_iff {left right : List K} :
    commonPrefixLength left right = right.length ↔ right <+: left := by
  constructor
  · intro complete
    have same := take_commonPrefixLength left right
    rw [complete, List.take_length] at same
    rw [← same]
    exact List.take_prefix _ _
  · rintro ⟨suffix, rfl⟩
    induction right with
    | nil => cases suffix <;> simp [commonPrefixLength]
    | cons right rights ih => simpa [commonPrefixLength] using ih

theorem commonPrefixLength_comm (left right : List K) :
    commonPrefixLength left right = commonPrefixLength right left := by
  fun_induction commonPrefixLength left right with
  | case1 lefts right rights ih => simpa [commonPrefixLength] using ih
  | case2 left lefts right rights differ =>
    simp [commonPrefixLength, Ne.symm differ]
  | case3 left right notBoth =>
    cases left with
    | nil => cases right <;> simp [commonPrefixLength]
    | cons left lefts =>
      cases right with
      | nil => simp [commonPrefixLength]
      | cons right rights => exact absurd rfl (notBoth left lefts right rights rfl)

theorem commonPrefixLength_eq_left_iff {left right : List K} :
    commonPrefixLength left right = left.length ↔ left <+: right := by
  rw [commonPrefixLength_comm, commonPrefixLength_eq_right_iff]

/-- Two lists of which neither is a prefix of the other branch behind a common part. -/
theorem exists_branch {left right : List K}
    (left_ne : commonPrefixLength left right ≠ left.length)
    (right_ne : commonPrefixLength left right ≠ right.length) :
    ∃ common leftKey lefts rightKey rights, leftKey ≠ rightKey ∧
      left = common ++ leftKey :: lefts ∧ right = common ++ rightKey :: rights ∧
        common.length = commonPrefixLength left right := by
  fun_induction commonPrefixLength left right with
  | case1 lefts right rights ih =>
    simp only [List.length_cons, ne_eq, Nat.add_right_cancel_iff] at left_ne right_ne
    obtain ⟨common, leftKey, lefts', rightKey, rights', differ, rfl, rfl, sameLength⟩ :=
      ih left_ne right_ne
    exact ⟨right :: common, leftKey, lefts', rightKey, rights', differ, rfl, rfl, by
      simp [sameLength]⟩
  | case2 left lefts right rights differ =>
    exact ⟨[], left, lefts, right, rights, differ, rfl, rfl, rfl⟩
  | case3 left right notBoth =>
    cases left with
    | nil => simp at left_ne
    | cons left lefts =>
      cases right with
      | nil => simp at right_ne
      | cons right rights => exact absurd rfl (notBoth left lefts right rights rfl)

end CommonPrefixLength

namespace RadixForest

variable {K : Type}

/-- The dictionary keys of a children dictionary. -/
def dictKeys : RadixForest K → List K
  | .nil => []
  | .cons key _ _ rest => key :: rest.dictKeys

/--
The structural invariant: an edge starts with its dictionary key and has one block for each
of its keys, and the keys of a dictionary are distinct.
-/
def WellFormed : RadixForest K → Prop
  | .nil => True
  | .cons key node children rest =>
      node.edgeKeys.head? = some key ∧ node.blockIds.length = node.edgeKeys.length ∧
        key ∉ rest.dictKeys ∧ children.WellFormed ∧ rest.WellFormed

/-- Whether a node of the forest stores a block at a position of its edge. -/
def Holds : RadixForest K → ℕ → ℕ → BlockId → Prop
  | .nil, _, _, _ => False
  | .cons _ node children rest, nodeId, index, blockId =>
      (node.nodeId = nodeId ∧ node.blockIds[index]? = some blockId) ∨
        children.Holds nodeId index blockId ∨ rest.Holds nodeId index blockId

/-- The forest without its access times. -/
def eraseAccess : RadixForest K → RadixForest K
  | .nil => .nil
  | .cons key node children rest =>
      .cons key { node with lastAccess := 0 } children.eraseAccess rest.eraseAccess

@[simp] theorem eraseAccess_dictKeys (forest : RadixForest K) :
    forest.eraseAccess.dictKeys = forest.dictKeys := by
  induction forest with
  | nil => rfl
  | cons key node children rest _ ih => simp [eraseAccess, dictKeys, ih]

@[simp] theorem eraseAccess_wellFormed (forest : RadixForest K) :
    forest.eraseAccess.WellFormed ↔ forest.WellFormed := by
  induction forest with
  | nil => rfl
  | cons key node children rest ihChildren ihRest =>
    simp [eraseAccess, WellFormed, ihChildren, ihRest]

@[simp] theorem eraseAccess_allBlockIds (forest : RadixForest K) :
    forest.eraseAccess.allBlockIds = forest.allBlockIds := by
  induction forest with
  | nil => rfl
  | cons key node children rest ihChildren ihRest =>
    simp [eraseAccess, allBlockIds, ihChildren, ihRest]

@[simp] theorem eraseAccess_nodeIds (forest : RadixForest K) :
    forest.eraseAccess.nodeIds = forest.nodeIds := by
  induction forest with
  | nil => rfl
  | cons key node children rest ihChildren ihRest =>
    simp [eraseAccess, nodeIds, ihChildren, ihRest]

@[simp] theorem eraseAccess_holds (forest : RadixForest K) (nodeId index : ℕ)
    (blockId : BlockId) :
    forest.eraseAccess.Holds nodeId index blockId ↔ forest.Holds nodeId index blockId := by
  induction forest with
  | nil => rfl
  | cons key node children rest ihChildren ihRest =>
    simp [eraseAccess, Holds, ihChildren, ihRest]

variable [DecidableEq K]

@[simp] theorem find_nil (keys : List K) : (nil : RadixForest K).find keys = none := by
  simp [find]

@[simp] theorem find_empty (forest : RadixForest K) : forest.find [] = none := by
  cases forest <;> simp [find]

theorem find_cons {key : K} {node : RadixNode K} {children rest : RadixForest K} {k : K}
    {ks : List K} :
    (cons key node children rest).find (k :: ks) =
      if key = k then
        if k :: ks <+: node.edgeKeys then node.blockIds[ks.length]?
        else if node.edgeKeys <+: k :: ks then
          children.find ((k :: ks).drop node.edgeKeys.length)
        else none
      else rest.find (k :: ks) := by
  simp only [find, commonPrefixLength_eq_right_iff, commonPrefixLength_eq_left_iff]
  split
  · split
    · next inside =>
      rw [commonPrefixLength_eq_right_iff.mpr inside]
      simp
    · split
      · next outside => rw [commonPrefixLength_eq_left_iff.mpr outside]
      · rfl
  · rfl

/-- A path which is found starts with a key of the dictionary. -/
theorem find_eq_none_of_not_mem {forest : RadixForest K} {k : K} {ks : List K}
    (absent : k ∉ forest.dictKeys) : forest.find (k :: ks) = none := by
  induction forest with
  | nil => simp
  | cons key node children rest _ ih =>
    simp only [dictKeys, List.mem_cons, not_or] at absent
    rw [find_cons, if_neg (Ne.symm absent.1), ih absent.2]

/-- Where a path which is found ends: inside the first edge, below it, or beside it. -/
theorem find_cons_eq_some {key : K} {node : RadixNode K} {children rest : RadixForest K}
    {path : List K} {blockId : BlockId}
    (found : (cons key node children rest).find path = some blockId) :
    (path ≠ [] ∧ path <+: node.edgeKeys ∧ node.blockIds[path.length - 1]? = some blockId) ∨
      (∃ below, path = node.edgeKeys ++ below ∧ children.find below = some blockId) ∨
      rest.find path = some blockId := by
  cases path with
  | nil => simp at found
  | cons k ks =>
    rw [find_cons] at found
    split at found
    · split at found
      · next inside => exact .inl ⟨by simp, inside, by simpa using found⟩
      · split at found
        · next outside =>
          obtain ⟨below, path_eq⟩ := outside
          rw [← path_eq, List.drop_left] at found
          exact .inr (.inl ⟨below, path_eq.symm, found⟩)
        · cases found
    · exact .inr (.inr found)

theorem mem_allBlockIds_of_find {forest : RadixForest K} {keys : List K} {blockId : BlockId}
    (found : forest.find keys = some blockId) : blockId ∈ forest.allBlockIds := by
  induction forest generalizing keys with
  | nil => simp at found
  | cons key node children rest ihChildren ihRest =>
    simp only [allBlockIds, List.mem_append]
    rcases find_cons_eq_some found with ⟨_, _, get⟩ | ⟨below, _, foundBelow⟩ | beside
    · exact .inl (.inl (List.mem_of_getElem? get))
    · exact .inl (.inr (ihChildren foundBelow))
    · exact .inr (ihRest beside)

theorem WellFormed.exists_find {forest : RadixForest K} (wellFormed : forest.WellFormed)
    {blockId : BlockId} (stored : blockId ∈ forest.allBlockIds) :
    ∃ keys, forest.find keys = some blockId := by
  induction forest with
  | nil => simp [allBlockIds] at stored
  | cons key node children rest ihChildren ihRest =>
    obtain ⟨headKey, sameLength, distinct, childrenWellFormed, restWellFormed⟩ := wellFormed
    rw [List.head?_eq_some_iff] at headKey
    obtain ⟨tail, edge⟩ := headKey
    simp only [allBlockIds, List.mem_append] at stored
    rcases stored with (onEdge | below) | beside
    · obtain ⟨index, bound, get⟩ := List.mem_iff_getElem.mp onEdge
      refine ⟨node.edgeKeys.take (index + 1), ?_⟩
      have inside : node.edgeKeys.take (index + 1) <+: node.edgeKeys := List.take_prefix _ _
      rw [edge] at inside sameLength ⊢
      simp only [List.take_succ_cons] at inside ⊢
      rw [find_cons, if_pos rfl, edge, if_pos inside, List.length_take]
      simp only [List.length_cons] at sameLength
      rw [Nat.min_eq_left (by omega), List.getElem?_eq_getElem bound, get]
    · obtain ⟨keys, found⟩ := ihChildren childrenWellFormed below
      cases keys with
      | nil => simp at found
      | cons k ks =>
        refine ⟨node.edgeKeys ++ k :: ks, ?_⟩
        have notInside : ¬node.edgeKeys ++ k :: ks <+: node.edgeKeys := fun inside => by
          have := inside.length_le
          simp at this
        have outside : node.edgeKeys <+: node.edgeKeys ++ k :: ks := List.prefix_append _ _
        rw [edge] at notInside outside ⊢
        rw [List.cons_append] at notInside outside ⊢
        rw [find_cons, if_pos rfl, edge, if_neg notInside, if_pos outside, ← List.cons_append,
          List.drop_left]
        exact found
    · obtain ⟨keys, found⟩ := ihRest restWellFormed beside
      cases keys with
      | nil => simp at found
      | cons k ks =>
        refine ⟨k :: ks, ?_⟩
        rw [find_cons, if_neg ?_, found]
        rintro rfl
        rw [find_eq_none_of_not_mem distinct] at found
        cases found

/-- Without duplicate blocks every block has one path. -/
theorem find_injective {forest : RadixForest K} (distinct : forest.allBlockIds.Nodup) :
    InjectiveIndex forest.find := by
  induction forest with
  | nil => intro path path' value found; simp at found
  | cons key node children rest ihChildren ihRest =>
    intro path path' value found found'
    simp only [allBlockIds, List.nodup_append, List.mem_append] at distinct
    obtain ⟨⟨edgeDistinct, childrenDistinct, edgeChildren⟩, restDistinct, apart⟩ := distinct
    rcases find_cons_eq_some found with ⟨nonempty, inside, get⟩ | ⟨below, rfl, foundBelow⟩ | beside
    · rcases find_cons_eq_some found' with
        ⟨nonempty', inside', get'⟩ | ⟨below', rfl, foundBelow'⟩ | beside'
      · have sameIndex := (List.getElem?_inj (List.getElem?_eq_some_iff.mp get).1
          edgeDistinct).mp (get.trans get'.symm)
        have positive := List.length_pos_iff.mpr nonempty
        have positive' := List.length_pos_iff.mpr nonempty'
        rw [List.prefix_iff_eq_take.mp inside, List.prefix_iff_eq_take.mp inside',
          show path.length = path'.length by omega]
      · exact absurd rfl (edgeChildren _ (List.mem_of_getElem? get) _
          (mem_allBlockIds_of_find foundBelow'))
      · exact absurd rfl (apart _ (.inl (List.mem_of_getElem? get)) _
          (mem_allBlockIds_of_find beside'))
    · rcases find_cons_eq_some found' with
        ⟨_, _, get'⟩ | ⟨below', rfl, foundBelow'⟩ | beside'
      · exact absurd rfl (edgeChildren _ (List.mem_of_getElem? get') _
          (mem_allBlockIds_of_find foundBelow))
      · rw [ihChildren childrenDistinct _ _ _ foundBelow foundBelow']
      · exact absurd rfl (apart _ (.inr (mem_allBlockIds_of_find foundBelow)) _
          (mem_allBlockIds_of_find beside'))
    · rcases find_cons_eq_some found' with
        ⟨_, _, get'⟩ | ⟨below', rfl, foundBelow'⟩ | beside'
      · exact absurd rfl (apart _ (.inl (List.mem_of_getElem? get')) _
          (mem_allBlockIds_of_find beside))
      · exact absurd rfl (apart _ (.inr (mem_allBlockIds_of_find foundBelow')) _
          (mem_allBlockIds_of_find beside))
      · exact ihRest restDistinct _ _ _ beside beside'

@[simp] theorem eraseAccess_find (forest : RadixForest K) (keys : List K) :
    forest.eraseAccess.find keys = forest.find keys := by
  induction forest generalizing keys with
  | nil => rfl
  | cons key node children rest ihChildren ihRest =>
    cases keys with
    | nil => simp
    | cons k ks => simp only [eraseAccess, find_cons, ihChildren, ihRest]

/-- `match` changes nothing but access times. -/
theorem matchKeys_eraseAccess (forest : RadixForest K) (keys : List K) (clock : ℕ) :
    (forest.matchKeys keys clock).1.eraseAccess = forest.eraseAccess := by
  induction forest generalizing keys clock with
  | nil => simp [matchKeys]
  | cons key node children rest ihChildren ihRest =>
    cases keys with
    | nil => simp [matchKeys]
    | cons k ks =>
      simp only [matchKeys]
      split
      · split
        · rfl
        · split
          · rfl
          · simp [eraseAccess, ihChildren]
      · simp [eraseAccess, ihRest]

/-- Inside the first edge the prefixes of a path are found at their positions. -/
theorem find_take_of_le_common {key : K} {node : RadixNode K} {children rest : RadixForest K}
    {ks : List K} {n : ℕ} (short : n < commonPrefixLength node.edgeKeys (key :: ks)) :
    (cons key node children rest).find ((key :: ks).take (n + 1)) = node.blockIds[n]? := by
  have bound := commonPrefixLength_le_right node.edgeKeys (key :: ks)
  have inside : (key :: ks).take (n + 1) <+: node.edgeKeys := by
    have common := take_commonPrefixLength node.edgeKeys (key :: ks)
    have := congrArg (List.take (n + 1)) common
    rw [List.take_take, List.take_take, Nat.min_eq_left (by omega)] at this
    rw [← this]
    exact List.take_prefix _ _
  rw [List.take_succ_cons] at inside ⊢
  rw [find_cons, if_pos rfl, if_pos inside, List.length_take]
  simp only [List.length_cons] at bound
  rw [Nat.min_eq_left (by omega)]

/-- Below a complete edge a path continues in the children. -/
theorem find_cons_below {key : K} {node : RadixNode K} {children rest : RadixForest K}
    {below : List K} (headKey : node.edgeKeys.head? = some key) (below_ne : below ≠ []) :
    (cons key node children rest).find (node.edgeKeys ++ below) = children.find below := by
  rw [List.head?_eq_some_iff] at headKey
  obtain ⟨tail, edge⟩ := headKey
  have notInside : ¬node.edgeKeys ++ below <+: node.edgeKeys := fun inside => by
    have := inside.length_le
    have := List.length_pos_iff.mpr below_ne
    rw [List.length_append] at *
    omega
  have outside : node.edgeKeys <+: node.edgeKeys ++ below := List.prefix_append _ _
  rw [edge, List.cons_append] at notInside outside ⊢
  rw [find_cons, if_pos rfl, edge, if_neg notInside, if_pos outside, ← List.cons_append,
    List.drop_left]

/-- A path which ends or leaves inside the first edge matches its common part. -/
theorem find_edge_isLongestMatch {key : K} {node : RadixNode K} {children rest : RadixForest K}
    {ks : List K} (sameLength : node.blockIds.length = node.edgeKeys.length)
    (inside : commonPrefixLength node.edgeKeys (key :: ks) < node.edgeKeys.length) :
    IsLongestMatch (cons key node children rest).find (key :: ks)
      (node.blockIds.take (commonPrefixLength node.edgeKeys (key :: ks))) where
  length_le := by
    have := commonPrefixLength_le_right node.edgeKeys (key :: ks)
    simp only [List.length_take]
    omega
  get i value get := by
    have short := (List.getElem?_eq_some_iff.mp get).1
    simp only [List.length_take] at short
    rw [List.getElem?_take_of_lt (by omega)] at get
    rw [find_take_of_le_common (by omega), get]
  stop short := by
    rw [List.length_take, Nat.min_eq_left (by omega)] at short ⊢
    have differ := getElem?_commonPrefixLength_ne inside short
    have notInside : ¬(key :: ks).take (commonPrefixLength node.edgeKeys (key :: ks) + 1) <+:
        node.edgeKeys := by
      rintro ⟨suffix, edge⟩
      refine differ ?_
      generalize commonPrefixLength node.edgeKeys (key :: ks) = common at short edge
      rw [← edge, List.getElem?_append_left (by simp only [List.length_take]; omega),
        List.getElem?_take_of_lt (by omega)]
    have notOutside : ¬node.edgeKeys <+:
        (key :: ks).take (commonPrefixLength node.edgeKeys (key :: ks) + 1) := fun outside => by
      have := commonPrefixLength_eq_left_iff.mpr (outside.trans (List.take_prefix _ _))
      omega
    rw [List.take_succ_cons] at notInside notOutside ⊢
    rw [find_cons, if_pos rfl, if_neg notInside, if_neg notOutside]

theorem find_cons_inside {key : K} {node : RadixNode K} {children rest : RadixForest K}
    {path : List K} (headKey : node.edgeKeys.head? = some key) (path_ne : path ≠ [])
    (inside : path <+: node.edgeKeys) :
    (cons key node children rest).find path = node.blockIds[path.length - 1]? := by
  cases path with
  | nil => exact absurd rfl path_ne
  | cons k ks =>
    obtain ⟨suffix, edge⟩ := id inside
    rw [← edge] at headKey
    simp only [List.cons_append, List.head?_cons, Option.some.injEq] at headKey
    rw [find_cons, if_pos headKey.symm, if_pos inside, List.length_cons, Nat.add_sub_cancel]

theorem find_cons_branch {key : K} {node : RadixNode K} {children rest : RadixForest K}
    {ks : List K} (notInside : ¬key :: ks <+: node.edgeKeys)
    (notOutside : ¬node.edgeKeys <+: key :: ks) :
    (cons key node children rest).find (key :: ks) = none := by
  rw [find_cons, if_pos rfl, if_neg notInside, if_neg notOutside]

theorem find_cons_beside {key k : K} {node : RadixNode K} {children rest : RadixForest K}
    {ks : List K} (differ : key ≠ k) :
    (cons key node children rest).find (k :: ks) = rest.find (k :: ks) := by
  rw [find_cons, if_neg differ]

/-- The ancestors of a path beside a node are not below the node. -/
theorem find_ancestor_beside {key k : K} {node : RadixNode K} {children rest : RadixForest K}
    {ks ancestor : List K} (differ : key ≠ k) (isPrefix : ancestor <+: k :: ks) :
    (cons key node children rest).find ancestor = rest.find ancestor := by
  cases ancestor with
  | nil => simp
  | cons k' ks' =>
    rw [(List.cons_prefix_cons.mp isPrefix).1, find_cons_beside differ]

/-- Lookups read the edge and the blocks of a node, not its identity or access time. -/
theorem find_congr_node {key : K} {node node' : RadixNode K} {children rest : RadixForest K}
    (edgeKeys : node'.edgeKeys = node.edgeKeys) (blockIds : node'.blockIds = node.blockIds)
    (path : List K) :
    (cons key node' children rest).find path = (cons key node children rest).find path := by
  cases path with
  | nil => simp
  | cons k ks => simp only [find_cons, edgeKeys, blockIds]

theorem find_access {key : K} {node : RadixNode K} {children rest : RadixForest K}
    {lastAccess : ℕ} {path : List K} :
    (cons key { node with lastAccess := lastAccess } children rest).find path =
      (cons key node children rest).find path := by
  refine find_congr_node ?_ ?_ path <;> rfl

omit [DecidableEq K] in
/-- How a path can lie relative to an edge: inside, below, branching off, or beside. -/
theorem path_cases (key : K) (edge path : List K) :
    path = [] ∨ (path ≠ [] ∧ path <+: edge) ∨ (∃ below, below ≠ [] ∧ path = edge ++ below) ∨
      (∃ ks, path = key :: ks ∧ ¬path <+: edge ∧ ¬edge <+: path) ∨
      (∃ k ks, path = k :: ks ∧ key ≠ k ∧ ¬path <+: edge ∧ ¬edge <+: path) := by
  cases path with
  | nil => exact .inl rfl
  | cons k ks =>
    by_cases inside : k :: ks <+: edge
    · exact .inr (.inl ⟨by simp, inside⟩)
    · by_cases outside : edge <+: k :: ks
      · obtain ⟨below, path⟩ := outside
        refine .inr (.inr (.inl ⟨below, ?_, path.symm⟩))
        rintro rfl
        rw [← path, List.append_nil] at inside
        exact inside (List.prefix_refl _)
      · by_cases same : key = k
        · exact .inr (.inr (.inr (.inl ⟨ks, by rw [same], inside, outside⟩)))
        · exact .inr (.inr (.inr (.inr ⟨k, ks, rfl, same, inside, outside⟩)))

omit [DecidableEq K] in
theorem append_not_inside {edge below : List K} (below_ne : below ≠ []) :
    ¬edge ++ below <+: edge := fun inside => by
  have bound := inside.length_le
  have positive := List.length_pos_iff.mpr below_ne
  rw [List.length_append] at bound
  omega

omit [DecidableEq K] in
/-- A path which branches off an edge is no prefix of a continuation of the edge. -/
theorem not_prefix_append {edge below path : List K} (notInside : ¬path <+: edge)
    (notOutside : ¬edge <+: path) : ¬path <+: edge ++ below := fun inside =>
  (List.prefix_or_prefix_of_prefix inside (List.prefix_append edge below)).elim notInside
    notOutside

/-- The entries behind a part of an edge are those of the rest of the edge. -/
theorem find_common {key lowerKey : K} {common lowerKeys below : List K} {node : RadixNode K}
    {children rest : RadixForest K} (headKey : common.head? = some key)
    (edge : node.edgeKeys = common ++ lowerKey :: lowerKeys) (below_ne : below ≠ []) :
    (cons key node children rest).find (common ++ below) =
      (cons lowerKey { node with edgeKeys := lowerKey :: lowerKeys,
                                 blockIds := node.blockIds.drop common.length }
        children .nil).find below := by
  have positive := List.length_pos_iff.mpr below_ne
  have edgeHead : node.edgeKeys.head? = some key := by simp [edge, List.head?_append, headKey]
  have branch : ∀ path, ¬path <+: lowerKey :: lowerKeys → ¬lowerKey :: lowerKeys <+: path →
      (cons key node children rest).find (common ++ path) = none := fun path notIn notOut => by
    obtain ⟨tail, rfl⟩ := List.head?_eq_some_iff.mp headKey
    refine find_cons_branch (fun inside => notIn ?_) fun outside => notOut ?_
    · rw [edge] at inside
      exact (List.prefix_append_right_inj (key :: tail)).mp inside
    · rw [edge] at outside
      exact (List.prefix_append_right_inj (key :: tail)).mp outside
  rcases path_cases lowerKey (lowerKey :: lowerKeys) below with
    rfl | ⟨_, inside⟩ | ⟨deeper, deeper_ne, rfl⟩ | ⟨ks, rfl, notInside, notOutside⟩ |
      ⟨k, ks, rfl, differ, notInside, notOutside⟩
  · exact absurd rfl below_ne
  · rw [find_cons_inside rfl below_ne inside, find_cons_inside edgeHead (by simp [below_ne])
      (by rw [edge]; exact (List.prefix_append_right_inj _).mpr inside), List.getElem?_drop,
      List.length_append]
    congr 1
    omega
  · rw [find_cons_below rfl deeper_ne, ← List.append_assoc, ← edge,
      find_cons_below edgeHead deeper_ne]
  · rw [branch _ notInside notOutside, find_cons_branch notInside notOutside]
  · rw [branch _ notInside notOutside, find_cons_beside differ, find_nil]

/-- `match` returns the longest match of the map. -/
theorem matchKeys_isLongestMatch {forest : RadixForest K} (wellFormed : forest.WellFormed)
    (keys : List K) (clock : ℕ) :
    IsLongestMatch forest.find keys (forest.matchKeys keys clock).2.2 := by
  induction forest generalizing keys clock with
  | nil => exact ⟨by simp [matchKeys], by simp [matchKeys], by simp⟩
  | cons key node children rest ihChildren ihRest =>
    obtain ⟨headKey, sameLength, distinct, childrenWellFormed, restWellFormed⟩ := wellFormed
    cases keys with
    | nil => exact ⟨by simp [matchKeys], by simp [matchKeys], by simp [matchKeys]⟩
    | cons k ks =>
      by_cases same : key = k
      · subst same
        have positive : commonPrefixLength node.edgeKeys (key :: ks) ≠ 0 := by
          rw [List.head?_eq_some_iff] at headKey
          obtain ⟨tail, edge⟩ := headKey
          simp [edge, commonPrefixLength]
        have boundLeft := commonPrefixLength_le_left node.edgeKeys (key :: ks)
        have boundRight := commonPrefixLength_le_right node.edgeKeys (key :: ks)
        simp only [matchKeys, if_true, if_neg positive]
        split
        · next inside => exact find_edge_isLongestMatch sameLength inside
        · next complete =>
          have whole : commonPrefixLength node.edgeKeys (key :: ks) = node.edgeKeys.length := by
            omega
          have firstLength : (node.blockIds.take
              (commonPrefixLength node.edgeKeys (key :: ks))).length = node.edgeKeys.length := by
            simp only [List.length_take]
            omega
          refine IsLongestMatch.append children.find (by omega) ?_ ?_ ?_
          · intro i value get
            have short := (List.getElem?_eq_some_iff.mp get).1
            rw [List.getElem?_take_of_lt (by omega)] at get
            rw [find_take_of_le_common (by omega), get]
          · intro i short
            obtain ⟨below, path⟩ := commonPrefixLength_eq_left_iff.mp whole
            rw [firstLength, ← path, List.drop_left, List.take_append,
              List.take_of_length_le (by omega), Nat.add_assoc, Nat.add_sub_cancel_left]
            refine find_cons_below headKey ?_
            have := congrArg List.length path
            simp only [List.length_append] at this
            rw [← List.length_pos_iff, List.length_take]
            omega
          · rw [firstLength, ← whole]
            exact ihChildren childrenWellFormed _ _
      · simp only [matchKeys, if_neg same]
        refine (ihRest restWellFormed _ _).agree fun i _ => ?_
        rw [List.take_succ_cons, find_cons, if_neg same]

end RadixForest

end NanoVllm
