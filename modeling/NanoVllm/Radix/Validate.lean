import NanoVllm.Radix.Refinement

/-!
# Validation of the radix prefix cache

`validate` walks the tree, asserts the shape of every node and compares the ids it has seen with
`block_locations`. All its assertions follow from the invariant of the cache except the one that
no node has exactly one child. `insert` breaks that one when it extends the path of a leaf, and
it is the only operation which does.
-/

namespace NanoVllm

open PathIndex

/-- `locations` of `validate`. -/
abbrev BlockLocations := BlockId → Option (ℕ × ℕ)

namespace RadixForest

variable {K : Type}

/-- The number of entries of a children dictionary. -/
def childCount (forest : RadixForest K) : ℕ := forest.dictKeys.length

variable [DecidableEq K]

end RadixForest

namespace RadixPrefixCache

variable {K : Type} [DecidableEq K]

/-- A path continues a path of the map which no path of the map extends. -/
def ExtendsLeaf (index : List K → Option BlockId) (keys : List K) : Prop :=
  ∃ leaf, leaf ≠ [] ∧ leaf <+: keys ∧ leaf ≠ keys ∧ index leaf ≠ none ∧
    ∀ path, leaf <+: path → path ≠ leaf → index path = none

end RadixPrefixCache

namespace RadixForest

variable {K : Type} {forest forest' children rest : RadixForest K} {key : K}
  {node : RadixNode K} {locations locations' : BlockLocations} {tables tables' : RadixTables}

/-! ## `validate` succeeds on branching caches -/

/-- The locations of some blocks are entered into a table. -/
def Records (tables : RadixTables) (blockIds : List BlockId)
    (locations locations' : BlockLocations) : Prop :=
  ∀ blockId, locations' blockId =
    if blockId ∈ blockIds then tables.blockLocations blockId else locations blockId

theorem Records.append {first second : List BlockId} {middle : BlockLocations}
    (before : Records tables first locations middle)
    (after : Records tables second middle locations') :
    Records tables (first ++ second) locations locations' := by
  intro blockId
  rw [after blockId, before blockId]
  by_cases inFirst : blockId ∈ first <;> by_cases inSecond : blockId ∈ second <;>
    simp [inFirst, inSecond]

variable [DecidableEq K]

section Removal

variable {K : Type} {forest children : RadixForest K} {node : RadixNode K}
  {tables : RadixTables}

end Removal

/-! ## Insertion keeps trees branching unless it extends a leaf -/

section Insertion

open RadixPrefixCache

namespace Inserts

variable {keys : List K} {blockIds : List BlockId}

end Inserts

end Insertion

end RadixForest

namespace RadixPrefixCache

variable {K : Type} [DecidableEq K] {cache : RadixPrefixCache K}

/-- Operations with fresh ids none of which extends the path of a leaf. -/
def KeepsLeaves (cache : RadixPrefixCache K) : RadixOp K → Prop
  | .insert keys blockIds => cache.FreshIds keys blockIds ∧ ¬ExtendsLeaf cache.find keys
  | .lookup _ => True
  | .removeBlock _ => True

theorem KeepsLeaves.fresh {op : RadixOp K} (keeps : cache.KeepsLeaves op) : cache.Fresh op := by
  cases op with
  | insert keys blockIds => exact keeps.1
  | lookup keys => trivial
  | removeBlock blockId => trivial

end RadixPrefixCache

end NanoVllm
