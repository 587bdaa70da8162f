import NanoVllm.Basic
import Mathlib.Data.List.MinMax
import Mathlib.Data.Prod.Lex
import Mathlib.Data.Finset.Basic

/-!
# The radix prefix cache

`RadixPrefixCache` is a path-compressed prefix index whose symbols are page-sized token
blocks. The children dictionary of a node is a `RadixForest`: one entry for each child, with
the dictionary key, the node and the children of that node. A node keeps the identity it was
created with (`nodeId`), since `block_locations` refers to nodes by identity. The parent of a
node is the entry its forest is nested in, so parent pointers are not fields.
-/

namespace NanoVllm

/-- The fields of a radix node besides its parent and its children. -/
structure RadixNode (K : Type) where
  nodeId : ℕ
  edgeKeys : List K
  blockIds : List BlockId
  lastAccess : ℕ
  deriving DecidableEq, Repr

/-- A children dictionary, in insertion order. -/
inductive RadixForest (K : Type) where
  | nil
  | cons (key : K) (node : RadixNode K) (children rest : RadixForest K)
  deriving DecidableEq, Repr

/-- The reverse index, the access clock and the supply of node identities. -/
structure RadixTables where
  blockLocations : BlockId → Option (ℕ × ℕ)
  clock : ℕ
  nextNode : ℕ

namespace RadixTables

/-- Advance the access clock; the touched node takes the new reading. -/
def touch (tables : RadixTables) : RadixTables :=
  { tables with clock := tables.clock + 1 }

/-- `_index_node`, starting at position `start` of the node. -/
def indexNode (tables : RadixTables) (nodeId : ℕ) : List BlockId → ℕ → RadixTables
  | [], _ => tables
  | blockId :: blockIds, start =>
      RadixTables.indexNode
        { tables with
          blockLocations := Function.update tables.blockLocations blockId (some (nodeId, start)) }
        nodeId blockIds (start + 1)

/-- Take a fresh node identity. -/
def newNode (tables : RadixTables) : RadixTables :=
  { tables with nextNode := tables.nextNode + 1 }

/-- Remove blocks from the reverse index. -/
def dropLocations (tables : RadixTables) (blockIds : List BlockId) : RadixTables :=
  { tables with
    blockLocations := fun blockId =>
      if blockId ∈ blockIds then none else tables.blockLocations blockId }

end RadixTables

/-- `_common_prefix_length`. -/
def commonPrefixLength {K : Type} [DecidableEq K] : List K → List K → ℕ
  | left :: lefts, right :: rights =>
      if left = right then commonPrefixLength lefts rights + 1 else 0
  | _, _ => 0

namespace RadixForest

variable {K : Type}

/-- The block ids stored below a children dictionary. -/
def allBlockIds : RadixForest K → List BlockId
  | .nil => []
  | .cons _ node children rest => node.blockIds ++ children.allBlockIds ++ rest.allBlockIds

/-- The identities of the nodes below a children dictionary. -/
def nodeIds : RadixForest K → List ℕ
  | .nil => []
  | .cons _ node children rest => node.nodeId :: children.nodeIds ++ rest.nodeIds

variable [DecidableEq K]

/--
The block stored for a path of page keys. The engine never computes it: it is the map which
`match`, `insert` and `remove_block` are specified by.
-/
def find : RadixForest K → List K → Option BlockId
  | .nil, _ => none
  | .cons _ _ _ _, [] => none
  | .cons key node children rest, k :: ks =>
      if key = k then
        let common := commonPrefixLength node.edgeKeys (k :: ks)
        if common = (k :: ks).length then node.blockIds[common - 1]?
        else if common = node.edgeKeys.length then children.find ((k :: ks).drop common)
        else none
      else rest.find (k :: ks)

/-- The loop of `match`, returning the touched nodes, the clock and the matched blocks. -/
def matchKeys : RadixForest K → List K → ℕ → RadixForest K × ℕ × List BlockId
  | .nil, _, clock => (.nil, clock, [])
  | .cons key node children rest, [], clock => (.cons key node children rest, clock, [])
  | .cons key node children rest, k :: ks, clock =>
      if key = k then
        let common := commonPrefixLength node.edgeKeys (k :: ks)
        if common = 0 then (.cons key node children rest, clock, [])
        else
          let touched := { node with lastAccess := clock + 1 }
          if common < node.edgeKeys.length then
            (.cons key touched children rest, clock + 1, node.blockIds.take common)
          else
            let result := children.matchKeys ((k :: ks).drop common) (clock + 1)
            (.cons key touched result.1 rest, result.2.1, node.blockIds.take common ++ result.2.2)
      else
        let result := rest.matchKeys (k :: ks) clock
        (.cons key node children result.1, result.2.1, result.2.2)

/--
The loop of `insert` at a children dictionary. A missing key creates a leaf; a complete edge
is followed; a path which ends inside an edge changes nothing; a path which leaves an edge
splits it.
-/
def insertKeys : RadixForest K → List K → List BlockId → RadixTables →
    RadixForest K × RadixTables
  | forest, [], _, tables => (forest, tables)
  | .nil, k :: ks, blockIds, tables =>
      let leaf : RadixNode K :=
        { nodeId := tables.nextNode, edgeKeys := k :: ks, blockIds := blockIds,
          lastAccess := tables.clock + 1 }
      (.cons k leaf .nil .nil, (tables.newNode.indexNode leaf.nodeId blockIds 0).touch)
  | .cons key node children rest, k :: ks, blockIds, tables =>
      if key = k then
        let common := commonPrefixLength node.edgeKeys (k :: ks)
        if common = node.edgeKeys.length then
          let touched := { node with lastAccess := tables.clock + 1 }
          let result :=
            children.insertKeys ((k :: ks).drop common) (blockIds.drop common) tables.touch
          (.cons key touched result.1 rest, result.2)
        else if common = (k :: ks).length then
          (.cons key { node with lastAccess := tables.clock + 1 } children rest, tables.touch)
        else
          let upper : RadixNode K :=
            { nodeId := tables.nextNode, edgeKeys := node.edgeKeys.take common,
              blockIds := node.blockIds.take common, lastAccess := tables.clock + 1 }
          let lower : RadixNode K :=
            { node with
              edgeKeys := node.edgeKeys.drop common, blockIds := node.blockIds.drop common }
          let split := ((tables.newNode.indexNode upper.nodeId upper.blockIds 0).indexNode
            lower.nodeId lower.blockIds 0).touch
          let branch : RadixNode K :=
            { nodeId := split.nextNode, edgeKeys := (k :: ks).drop common,
              blockIds := blockIds.drop common, lastAccess := split.clock + 1 }
          let tables' := (split.newNode.indexNode branch.nodeId branch.blockIds 0).touch
          match lower.edgeKeys, branch.edgeKeys with
          | lowerKey :: _, branchKey :: _ =>
              (.cons key upper (.cons lowerKey lower children
                (.cons branchKey branch .nil .nil)) rest, tables')
          | _, _ => (.cons key node children rest, tables)
      else
        let result := rest.insertKeys (k :: ks) blockIds tables
        (.cons key node children result.1, result.2)

omit [DecidableEq K] in
/-- `_compress` at one node: absorb the only child as long as there is exactly one. -/
def compressNode : RadixNode K → RadixForest K → RadixTables →
    RadixNode K × RadixForest K × RadixTables
  | node, .cons _ child grandchildren .nil, tables =>
      compressNode
        { node with
          edgeKeys := node.edgeKeys ++ child.edgeKeys
          blockIds := node.blockIds ++ child.blockIds
          lastAccess := tables.clock + 1 }
        grandchildren
        (tables.indexNode node.nodeId child.blockIds node.blockIds.length).touch
  | node, children, tables => (node, children, tables)

omit [DecidableEq K] in
/--
The body of `remove_block` for the block at `index` of node `nodeId`: drop the node or cut its
edge, drop everything below, and compress the ancestors on the way up.
-/
def removeAt (nodeId index : ℕ) : RadixForest K → RadixTables → RadixForest K × RadixTables
  | .nil, tables => (.nil, tables)
  | .cons key node children rest, tables =>
      if node.nodeId = nodeId then
        if index = 0 then
          (rest, tables.dropLocations (node.blockIds ++ children.allBlockIds))
        else
          (.cons key
            { node with
              edgeKeys := node.edgeKeys.take index, blockIds := node.blockIds.take index }
            .nil rest,
            tables.dropLocations (children.allBlockIds ++ node.blockIds.drop index))
      else if nodeId ∈ children.nodeIds then
        let removed := children.removeAt nodeId index tables
        let compressed := compressNode node removed.1 removed.2
        (.cons key compressed.1 compressed.2.1 rest, compressed.2.2)
      else
        let result := rest.removeAt nodeId index tables
        (.cons key node children result.1, result.2)

omit [DecidableEq K] in
/-- The candidates of `lru_leaf_block`: for each leaf its access time and last eligible block. -/
def leafCandidates (eligible : Finset BlockId) : RadixForest K → List (ℕ × BlockId)
  | .nil => []
  | .cons _ node .nil rest =>
      ((node.blockIds.reverse.find? (· ∈ eligible)).toList.map (node.lastAccess, ·)) ++
        rest.leafCandidates eligible
  | .cons _ _ children rest =>
      children.leafCandidates eligible ++ rest.leafCandidates eligible

end RadixForest

/-- The radix cache: the children of the root and the tables. -/
structure RadixPrefixCache (K : Type) where
  root : RadixForest K
  tables : RadixTables

namespace RadixPrefixCache

variable {K : Type}

/-- The empty cache. The root node has identity `0`. -/
def empty : RadixPrefixCache K where
  root := .nil
  tables := { blockLocations := fun _ => none, clock := 0, nextNode := 1 }

/-- Whether a block is in `block_locations`. -/
def isIndexed (cache : RadixPrefixCache K) (blockId : BlockId) : Bool :=
  (cache.tables.blockLocations blockId).isSome

/-- `remove_block`. -/
def removeBlock (cache : RadixPrefixCache K) (blockId : BlockId) : RadixPrefixCache K × Bool :=
  match cache.tables.blockLocations blockId with
  | none => (cache, false)
  | some (nodeId, index) =>
      let removed := cache.root.removeAt nodeId index cache.tables
      ({ root := removed.1, tables := removed.2 }, true)

/-- `lru_leaf_block`. -/
def lruLeafBlock (cache : RadixPrefixCache K) (eligible : Finset BlockId) : Option BlockId :=
  ((cache.root.leafCandidates eligible).argmin (fun candidate => toLex candidate)).map Prod.snd

variable [DecidableEq K]

/-- The block stored for a path of page keys. -/
def find (cache : RadixPrefixCache K) (keys : List K) : Option BlockId := cache.root.find keys

/-- `match`. -/
def matchKeys (cache : RadixPrefixCache K) (keys : List K) : RadixPrefixCache K × List BlockId :=
  let result := cache.root.matchKeys keys cache.tables.clock
  ({ root := result.1, tables := { cache.tables with clock := result.2.1 } }, result.2.2)

/-- `insert`. -/
def insert (cache : RadixPrefixCache K) (keys : List K) (blockIds : List BlockId) :
    Py (RadixPrefixCache K) :=
  if keys.length ≠ blockIds.length then
    .error (.valueError "keys and block_ids must have the same length")
  else if keys = [] then .ok cache
  else if ¬blockIds.Nodup then
    .error (.valueError "a radix path cannot contain duplicate block ids")
  else
    let result := cache.root.insertKeys keys blockIds cache.tables
    .ok { root := result.1, tables := result.2 }

end RadixPrefixCache

end NanoVllm
