import NanoVllm.Library.Recency
import NanoVllm.Radix.Visits
import Mathlib.Data.Finset.Lattice.Fold
import Mathlib.Order.Lattice.Nat

/-!
# Recency of the leaves of the radix cache

`lru_leaf_block` evicts a page of the leaf with the least `last_access`. Beside a run of the cache
this file records which call visited each page last, where a call visits the pages of the nodes
which its traversal enters. The access times follow the visits as long as `_compress` merges a
child only into a node which was visited last. Another merge makes its node look more recently
used than nodes which were visited after it.
-/

namespace NanoVllm

/-- The last call which visited a page of the node. -/
def RadixNode.visited {K : Type} (lastVisit : BlockId → ℕ) (node : RadixNode K) : ℕ :=
  node.blockIds.toFinset.sup lastVisit

/-- The pages of a node are visited together, and a merged node when any of its parts was. -/
def RadixForest.settle {K : Type} (forest : RadixForest K) (lastVisit : BlockId → ℕ)
    (blockId : BlockId) : ℕ :=
  match forest.nodes.find? fun node => blockId ∈ node.blockIds with
  | some node => node.visited lastVisit
  | none => lastVisit blockId

/-- The pages which a call visits. -/
def RadixPrefixCache.visits {K : Type} [DecidableEq K] (cache : RadixPrefixCache K) :
    RadixOp K → List BlockId
  | .insert keys blockIds =>
      match cache.insert keys blockIds with
      | .ok _ => cache.root.insertVisits keys blockIds
      | .error _ => []
  | .lookup keys => cache.root.matchVisits keys
  | .removeBlock _ => []

/-- A cache together with the number of calls so far and the last one which visited each page. -/
structure VisitedCache (K : Type) where
  cache : RadixPrefixCache K
  calls : ℕ
  lastVisit : BlockId → ℕ

namespace VisitedCache

variable {K : Type}

def empty : VisitedCache K where
  cache := .empty
  calls := 0
  lastVisit _ := 0

/-- The last call which visited a node. -/
def visited (state : VisitedCache K) (node : RadixNode K) : ℕ := node.visited state.lastVisit

variable [DecidableEq K]

/-- A call of the cache, recorded. -/
def apply (state : VisitedCache K) (op : RadixOp K) : VisitedCache K where
  cache := state.cache.apply op
  calls := state.calls + 1
  lastVisit := (state.cache.apply op).root.settle fun blockId =>
    if blockId ∈ state.cache.visits op then state.calls + 1 else state.lastVisit blockId

/-- The recorded caches reached by calls which satisfy a condition. -/
inductive ReachableBy (Allowed : VisitedCache K → RadixOp K → Prop) : VisitedCache K → Prop
  | empty : ReachableBy Allowed .empty
  | step {state : VisitedCache K} {op : RadixOp K} (reachable : ReachableBy Allowed state)
      (allowed : Allowed state op) : ReachableBy Allowed (state.apply op)

/-- No page of the tree was visited after a node into which the call merges a child. -/
def MergesLatest (state : VisitedCache K) : RadixOp K → Prop
  | .removeBlock blockId =>
      ∀ nodeId index, state.cache.tables.blockLocations blockId = some (nodeId, index) →
        ∀ node ∈ state.cache.root.merging nodeId index,
          ∀ other ∈ state.cache.root.allBlockIds, state.lastVisit other ≤ state.visited node
  | .insert _ _ => True
  | .lookup _ => True

end VisitedCache

namespace RadixForest

variable {K : Type} {forest : RadixForest K} {node : RadixNode K}

theorem settle_eq (distinct : forest.allBlockIds.Nodup) (lastVisit : BlockId → ℕ)
    (mem : node ∈ forest.nodes) {blockId : BlockId} (stored : blockId ∈ node.blockIds) :
    forest.settle lastVisit blockId = node.visited lastVisit := by
  rw [settle]
  split
  · next found isFound =>
    have holds : blockId ∈ found.blockIds := by simpa using List.find?_some isFound
    rw [node_unique distinct (List.mem_of_find?_eq_some isFound) mem holds stored]
  · next missing =>
    have absent := List.find?_eq_none.mp missing node mem
    simp [stored] at absent

end RadixForest

namespace RadixPrefixCache

variable {K : Type} [DecidableEq K] {cache : RadixPrefixCache K}

theorem Valid.insert_traverses (valid : cache.Valid) (keys : List K) (blockIds : List BlockId) :
    RadixForest.Traverses cache.root (cache.apply (.insert keys blockIds)).root cache.tables.clock
      (cache.apply (.insert keys blockIds)).tables.clock
      (cache.visits (.insert keys blockIds)) := by
  cases inserted : cache.insert keys blockIds with
  | error raised =>
    simp only [RadixPrefixCache.apply, visits, inserted]
    exact .refl _ _
  | ok cache' =>
    simp only [RadixPrefixCache.apply, visits, inserted]
    simp only [RadixPrefixCache.insert] at inserted
    split at inserted
    · cases inserted
    · split at inserted
      · next empty =>
        cases inserted
        subst empty
        cases cache.root <;> exact .refl _ _
      · split at inserted
        · cases inserted
        · cases inserted
          exact RadixForest.insertKeys_traverses valid.wellFormed keys blockIds cache.tables

end RadixPrefixCache

namespace RadixNode

variable {K : Type} {node other : RadixNode K} {lastVisit lastVisit' : BlockId → ℕ} {call : ℕ}

theorem le_visited {blockId : BlockId} (stored : blockId ∈ node.blockIds) :
    lastVisit blockId ≤ node.visited lastVisit :=
  Finset.le_sup (List.mem_toFinset.mpr stored)

theorem visited_le (bounded : ∀ blockId ∈ node.blockIds, lastVisit blockId ≤ call) :
    node.visited lastVisit ≤ call := by
  apply Finset.sup_le
  intro blockId stored
  exact bounded blockId (List.mem_toFinset.mp stored)

theorem visited_eq (stores : node.blockIds ≠ [])
    (same : ∀ blockId ∈ node.blockIds, lastVisit blockId = call) :
    node.visited lastVisit = call := by
  apply le_antisymm
  · exact visited_le fun blockId stored => (same blockId stored).le
  · rcases List.exists_mem_of_ne_nil _ stores with ⟨blockId, stored⟩
    rw [← same blockId stored]
    exact le_visited stored

end RadixNode

namespace VisitedCache

variable {K : Type} [DecidableEq K] {state : VisitedCache K} {op : RadixOp K}

/-- The last visits before the pages of a node are settled on one of them. -/
def stamp (state : VisitedCache K) (op : RadixOp K) (blockId : BlockId) : ℕ :=
  if blockId ∈ state.cache.visits op then state.calls + 1 else state.lastVisit blockId

theorem lastVisit_apply (valid : (state.apply op).cache.Valid) {node : RadixNode K}
    (mem : node ∈ (state.apply op).cache.root.nodes) {blockId : BlockId}
    (stored : blockId ∈ node.blockIds) :
    (state.apply op).lastVisit blockId = node.visited (state.stamp op) :=
  RadixForest.settle_eq valid.distinctBlocks _ mem stored

theorem visited_apply (valid : (state.apply op).cache.Valid) {node : RadixNode K}
    (mem : node ∈ (state.apply op).cache.root.nodes) :
    (state.apply op).visited node = node.visited (state.stamp op) :=
  RadixNode.visited_eq (valid.wellFormed.blockIds_ne mem) fun _ stored =>
    lastVisit_apply valid mem stored

/-- The access times of the tree are in the order of the recorded visits. -/
structure Recent (state : VisitedCache K) : Prop where
  accessed : ∀ node ∈ state.cache.root.nodes, node.lastAccess ≤ state.cache.tables.clock
  bounded : ∀ node ∈ state.cache.root.nodes, state.visited node ≤ state.calls
  uniform : ∀ node ∈ state.cache.root.nodes, ∀ blockId ∈ node.blockIds,
    state.lastVisit blockId = state.visited node
  ordered : Recency.Ordered state.cache.root.nodes state.visited RadixNode.lastAccess

/-- A call which touches only nodes that no other was visited after keeps the order. -/
theorem Recent.step (recent : state.Recent) (valid : (state.apply op).cache.Valid)
    (le : state.cache.tables.clock ≤ (state.apply op).cache.tables.clock)
    (changes : ∀ node' ∈ (state.apply op).cache.root.nodes,
      (state.cache.tables.clock < node'.lastAccess ∧
          node'.lastAccess ≤ (state.apply op).cache.tables.clock ∧
          node'.visited (state.stamp op) ≤ state.calls + 1 ∧
          ∀ other ∈ (state.apply op).cache.root.nodes,
            other.visited (state.stamp op) ≤ node'.visited (state.stamp op)) ∨
        ∃ node ∈ state.cache.root.nodes, node'.lastAccess = node.lastAccess ∧
          node'.visited (state.stamp op) = state.visited node) :
    (state.apply op).Recent where
  accessed node' mem := by
    rcases changes node' mem with ⟨-, until_, -⟩ | ⟨node, mem', access, -⟩
    · exact until_
    · rw [access]
      exact (recent.accessed node mem').trans le
  bounded node' mem := by
    rw [visited_apply valid mem]
    rcases changes node' mem with ⟨-, -, bounded, -⟩ | ⟨node, mem', -, visited⟩
    · exact bounded
    · rw [visited]
      exact (recent.bounded node mem').trans (Nat.le_succ _)
  uniform node' mem blockId stored := by
    rw [visited_apply valid mem, lastVisit_apply valid mem stored]
  ordered := by
    apply recent.ordered.step recent.accessed
    intro node' mem
    rw [visited_apply valid mem]
    rcases changes node' mem with ⟨after, -, -, latest⟩ | kept
    · refine .inl ⟨after, ?_⟩
      intro other mem'
      rw [visited_apply valid mem']
      exact latest other mem'
    · exact .inr kept

/-- A traversal visits the nodes it touches, and these are the latest then. -/
theorem Recent.traverse (recent : state.Recent) (valid : (state.apply op).cache.Valid)
    (traverses : RadixForest.Traverses state.cache.root (state.apply op).cache.root
      state.cache.tables.clock (state.apply op).cache.tables.clock (state.cache.visits op)) :
    (state.apply op).Recent := by
  have aged := traverses.aged valid.distinctBlocks
  have entered : ∀ node' ∈ (state.apply op).cache.root.nodes,
      node'.blockIds ⊆ state.cache.visits op →
        node'.visited (state.stamp op) = state.calls + 1 := by
    intro node' mem visited
    apply RadixNode.visited_eq (valid.wellFormed.blockIds_ne mem)
    intro blockId stored
    exact if_pos (visited stored)
  have kept : ∀ node' ∈ (state.apply op).cache.root.nodes, ∀ node ∈ state.cache.root.nodes,
      node'.blockIds ⊆ node.blockIds →
        (∀ blockId ∈ node'.blockIds, blockId ∉ state.cache.visits op) →
          node'.visited (state.stamp op) = state.visited node := by
    intro node' mem node mem' pages missed
    apply RadixNode.visited_eq (valid.wellFormed.blockIds_ne mem)
    intro blockId stored
    rw [stamp, if_neg (missed blockId stored)]
    exact recent.uniform node mem' blockId (pages stored)
  have bounded : ∀ node' ∈ (state.apply op).cache.root.nodes,
      node'.visited (state.stamp op) ≤ state.calls + 1 := by
    intro node' mem
    rcases aged node' mem with ⟨-, -, visited⟩ | ⟨node, mem', -, pages, missed⟩
    · exact (entered node' mem visited).le
    · rw [kept node' mem node mem' pages missed]
      exact (recent.bounded node mem').trans (Nat.le_succ _)
  apply recent.step valid traverses.clock_le
  intro node' mem
  rcases aged node' mem with ⟨after, until_, visited⟩ | ⟨node, mem', access, pages, missed⟩
  · refine .inl ⟨after, until_, bounded node' mem, ?_⟩
    intro other mem'
    rw [entered node' mem visited]
    exact bounded other mem'
  · exact .inr ⟨node, mem', access, kept node' mem node mem' pages missed⟩

/-- A removal touches the nodes into which it merges a child, and no others. -/
theorem Recent.remove {blockId : BlockId} (recent : state.Recent) (valid : state.cache.Valid)
    (latest : state.MergesLatest (.removeBlock blockId)) :
    (state.apply (.removeBlock blockId)).Recent := by
  have valid' : (state.apply (.removeBlock blockId)).cache.Valid :=
    (valid.removeBlock blockId).1
  cases location : state.cache.tables.blockLocations blockId with
  | none =>
    have same : (state.apply (.removeBlock blockId)).cache = state.cache := by
      simp [apply, RadixPrefixCache.apply, RadixPrefixCache.removeBlock, location]
    apply recent.traverse valid'
    rw [same]
    exact .refl _ _
  | some place =>
    rcases place with ⟨nodeId, index⟩
    have result : (state.apply (.removeBlock blockId)).cache =
        { root := (state.cache.root.removeAt nodeId index state.cache.tables).1
          tables := (state.cache.root.removeAt nodeId index state.cache.tables).2 } := by
      simp [apply, RadixPrefixCache.apply, RadixPrefixCache.removeBlock, location]
    have stamped : state.stamp (.removeBlock blockId) = state.lastVisit := by
      funext other
      simp [stamp, RadixPrefixCache.visits]
    have subset : (state.apply (.removeBlock blockId)).cache.root.allBlockIds ⊆
        state.cache.root.allBlockIds := by
      rcases valid.located.holds (valid.exact blockId (by simp [location])) with
        ⟨nodeId', index', location', holds⟩
      rw [location] at location'
      cases location'
      rw [result]
      exact (RadixForest.removeAt_removes holds valid.distinctNodes _).allBlockIds_sublist.subset
    rcases RadixForest.removeAt_cut valid.distinctNodes nodeId index state.cache.tables with
      ⟨le, cut⟩
    apply recent.step valid'
    · rw [result]
      exact le
    rw [stamped]
    intro node' mem
    have stores := valid'.wellFormed.blockIds_ne mem
    rcases cut node' (by rwa [result] at mem) with
      ⟨after, until_, node, merging, pages⟩ | ⟨node, mem', access, pages⟩
    · have mergedLatest := latest nodeId index location node merging
      have visited_le : state.visited node ≤ node'.visited state.lastVisit :=
        RadixNode.visited_le fun other stored => RadixNode.le_visited (pages stored)
      refine .inl ⟨after, by rwa [result], ?_, ?_⟩
      · apply RadixNode.visited_le
        intro page stored
        rcases RadixForest.exists_node
          (subset (RadixForest.mem_allBlockIds_of_node mem stored)) with ⟨old, mem', stored'⟩
        rw [recent.uniform old mem' page stored']
        exact (recent.bounded old mem').trans (Nat.le_succ _)
      · intro other mem'
        apply (RadixNode.visited_le _).trans visited_le
        intro page stored
        exact mergedLatest page (subset (RadixForest.mem_allBlockIds_of_node mem' stored))
    · refine .inr ⟨node, mem', access, RadixNode.visited_eq stores ?_⟩
      intro page stored
      exact recent.uniform node mem' page (pages stored)

/-! ## Runs -/

/-- The ids which an `insert` newly indexes are fresh, and merges touch the latest nodes only. -/
def KeepsOrder (state : VisitedCache K) (op : RadixOp K) : Prop :=
  state.cache.Fresh op ∧ state.MergesLatest op

theorem ReachableBy.cache {Allowed : VisitedCache K → RadixOp K → Prop}
    (reachable : ReachableBy Allowed state)
    (fresh : ∀ state op, Allowed state op → state.cache.Fresh op) :
    RadixPrefixCache.ReachableBy RadixPrefixCache.Fresh state.cache := by
  induction reachable with
  | empty => exact .empty
  | step _ allowed ih => exact .step ih (fresh _ _ allowed)

omit [DecidableEq K] in
theorem empty_recent : (empty : VisitedCache K).Recent where
  accessed := nofun
  bounded := nofun
  uniform := nofun
  ordered := nofun

theorem ReachableBy.recent (reachable : ReachableBy KeepsOrder state) : state.Recent := by
  induction reachable with
  | empty => exact empty_recent
  | @step state op reachable allowed ih =>
    have before := reachable.cache fun _ _ allowed => allowed.1
    have after := RadixPrefixCache.ReachableBy.step before allowed.1
    have valid := (before.valid fun _ _ fresh => fresh).1
    have valid' : (state.apply op).cache.Valid := (after.valid fun _ _ fresh => fresh).1
    cases op with
    | insert keys blockIds => exact ih.traverse valid' (valid.insert_traverses keys blockIds)
    | lookup keys =>
      exact ih.traverse valid' (state.cache.root.matchKeys_traverses keys state.cache.tables.clock)
    | removeBlock blockId => exact ih.remove valid allowed.2

/--
A page is the deepest eligible page of a leaf, and no leaf with an eligible page was last visited
strictly earlier.
-/
def OldestTail (state : VisitedCache K) (eligible : Finset BlockId) (blockId : BlockId) : Prop :=
  ∃ leaf ∈ state.cache.root.leaves, RadixForest.IsDeepest eligible leaf.blockIds blockId ∧
    ∀ other ∈ state.cache.root.leaves, (∃ page ∈ other.blockIds, page ∈ eligible) →
      ¬state.visited other < state.visited leaf

omit [DecidableEq K] in
theorem Recent.oldestTail (recent : state.Recent) {eligible : Finset BlockId} {blockId : BlockId}
    (picked : state.cache.lruLeafBlock eligible = some blockId) :
    state.OldestTail eligible blockId := by
  rcases Option.map_eq_some_iff.mp picked with ⟨candidate, isLeast, rfl⟩
  rcases RadixForest.mem_leafCandidates.mp (List.argmin_mem isLeast) with
    ⟨leaf, isLeaf, access, isDeepest⟩
  refine ⟨leaf, isLeaf, isDeepest, ?_⟩
  rintro other isLeaf' ⟨page, stored, isEligible⟩
  rcases RadixForest.exists_isDeepest stored isEligible with ⟨deepest, isDeepest'⟩
  apply recent.ordered.not_earlier (RadixForest.mem_nodes_of_leaf isLeaf)
    (RadixForest.mem_nodes_of_leaf isLeaf')
  rw [access]
  have isCandidate : (other.lastAccess, deepest) ∈
      state.cache.root.leafCandidates eligible :=
    RadixForest.mem_leafCandidates.mpr ⟨other, isLeaf', rfl, isDeepest'⟩
  exact Recency.fst_le_of_argmin isLeast isCandidate

omit [DecidableEq K] in
theorem lruLeafBlock_eq_none_iff {cache : RadixPrefixCache K} {eligible : Finset BlockId} :
    cache.lruLeafBlock eligible = none ↔
      ∀ leaf ∈ cache.root.leaves, ∀ page ∈ leaf.blockIds, page ∉ eligible := by
  rw [RadixPrefixCache.lruLeafBlock, Option.map_eq_none_iff, List.argmin_eq_none,
    List.eq_nil_iff_forall_not_mem]
  constructor
  · intro none leaf isLeaf page stored isEligible
    rcases RadixForest.exists_isDeepest stored isEligible with ⟨deepest, isDeepest⟩
    apply none (leaf.lastAccess, deepest)
    exact RadixForest.mem_leafCandidates.mpr ⟨leaf, isLeaf, rfl, isDeepest⟩
  · intro none candidate mem
    rcases RadixForest.mem_leafCandidates.mp mem with
      ⟨leaf, isLeaf, -, above, below, split, isEligible, -⟩
    exact none leaf isLeaf candidate.2 (by simp [split]) isEligible

/--
In a run whose removals merge a child only into a node which no page of the tree was visited
after, `lru_leaf_block` returns the tail of a leaf which was visited least recently, and no leaf
has a later access time than a leaf which was visited after it.
-/
theorem lruLeafBlock_oldestTail (reachable : ReachableBy KeepsOrder state) :
    (∀ eligible,
      (state.cache.lruLeafBlock eligible = none →
        ∀ leaf ∈ state.cache.root.leaves, ∀ page ∈ leaf.blockIds, page ∉ eligible) ∧
      ∀ blockId, state.cache.lruLeafBlock eligible = some blockId →
        state.OldestTail eligible blockId) ∧
    ∀ leaf ∈ state.cache.root.leaves, ∀ other ∈ state.cache.root.leaves,
      state.visited leaf < state.visited other → leaf.lastAccess < other.lastAccess := by
  have recent := reachable.recent
  refine ⟨fun eligible => ⟨lruLeafBlock_eq_none_iff.mp, fun blockId => recent.oldestTail⟩, ?_⟩
  intro leaf isLeaf other isLeaf'
  exact recent.ordered leaf (RadixForest.mem_nodes_of_leaf isLeaf) other
    (RadixForest.mem_nodes_of_leaf isLeaf')

/-- Ids which are not stored yet are fresh. -/
theorem fresh_insert {cache : RadixPrefixCache K} {keys : List K} {blockIds : List BlockId}
    (distinct : blockIds.Nodup)
    (unstored : ∀ i ∈ List.range blockIds.length, cache.find (keys.take (i + 1)) = none →
      blockIds.getD i 0 ∉ cache.root.allBlockIds) : cache.Fresh (.insert keys blockIds) where
  fresh i blockId get absent path found := by
    have short := (List.getElem?_eq_some_iff.mp get).1
    apply unstored i (List.mem_range.mpr short) absent
    rw [List.getD_eq_getElem?_getD, get]
    exact RadixForest.mem_allBlockIds_of_find found
  distinct i j blockId get get' _ _ := by
    have short := (List.getElem?_eq_some_iff.mp get).1
    exact (List.getElem?_inj short distinct).mp (get.trans get'.symm)

/-- Two paths which share their first page, inserted one after the other. -/
def twoBranches : VisitedCache BlockKey :=
  ((empty : VisitedCache BlockKey).apply (.insert [[1], [2]] [1, 2])).apply
    (.insert [[1], [3]] [1, 3])

theorem twoBranches_reachable : ReachableBy KeepsOrder twoBranches := by
  refine .step (.step .empty ⟨fresh_insert ?_ ?_, trivial⟩) ⟨fresh_insert ?_ ?_, trivial⟩
  all_goals decide

/-- The second branch is removed at once, and a third path is inserted. -/
def mergedAtOnce : VisitedCache BlockKey :=
  (twoBranches.apply (.removeBlock 3)).apply (.insert [[4]] [4])

theorem lruLeafBlock_oldestTail_mergedAtOnce :
    mergedAtOnce.cache.lruLeafBlock {2, 4} = some 2 ∧ mergedAtOnce.OldestTail {2, 4} 2 := by
  have picked : mergedAtOnce.cache.lruLeafBlock {2, 4} = some 2 := by decide +kernel
  have merges : twoBranches.MergesLatest (.removeBlock 3) := by
    intro nodeId index location
    have place : twoBranches.cache.tables.blockLocations 3 = some (3, 0) := by decide
    rw [place] at location
    cases location
    decide
  have reachable : ReachableBy KeepsOrder mergedAtOnce := by
    refine .step (.step twoBranches_reachable ⟨trivial, merges⟩) ⟨fresh_insert ?_ ?_, trivial⟩
    all_goals decide
  exact ⟨picked, ((lruLeafBlock_oldestTail reachable).1 {2, 4}).2 2 picked⟩

/-- A third path is inserted before the second branch is removed. -/
def mergedLater : VisitedCache BlockKey :=
  (twoBranches.apply (.insert [[4]] [4])).apply (.removeBlock 3)

/--
The merged leaf holds page 2 and was visited by the second call, the leaf of page 4 by the third.
The removal touches the merged leaf, and page 4 is evicted first.
-/
theorem merge_outranks_later_visit :
    ReachableBy (fun state op => state.cache.Fresh op) mergedLater ∧
      mergedLater.cache.lruLeafBlock {2, 4} = some 4 ∧ ¬mergedLater.OldestTail {2, 4} 4 ∧
      ∃ leaf ∈ mergedLater.cache.root.leaves, ∃ other ∈ mergedLater.cache.root.leaves,
        mergedLater.visited leaf < mergedLater.visited other ∧
          other.lastAccess < leaf.lastAccess := by
  have earlier : ∀ leaf ∈ mergedLater.cache.root.leaves, 4 ∈ leaf.blockIds →
      ∃ other ∈ mergedLater.cache.root.leaves,
        (∃ page ∈ other.blockIds, page ∈ ({2, 4} : Finset BlockId)) ∧
          mergedLater.visited other < mergedLater.visited leaf := by
    decide +kernel
  refine ⟨?_, by decide +kernel, ?_, by decide +kernel⟩
  · have reachable : ReachableBy (fun state op => state.cache.Fresh op) twoBranches := by
      refine .step (.step .empty (fresh_insert ?_ ?_)) (fresh_insert ?_ ?_)
      all_goals decide
    refine .step (.step reachable (fresh_insert ?_ ?_)) trivial
    all_goals decide
  · rintro ⟨leaf, isLeaf, ⟨above, below, split, -, -⟩, notEarlier⟩
    rcases earlier leaf isLeaf (by simp [split]) with ⟨other, isLeaf', isEligible, before⟩
    exact notEarlier other isLeaf' isEligible before

end VisitedCache

end NanoVllm
