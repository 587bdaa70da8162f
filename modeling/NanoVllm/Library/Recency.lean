import Mathlib.Data.List.MinMax
import Mathlib.Data.Prod.Lex
import Mathlib.Tactic.Common

/-!
# Recency stamps

A collection whose items carry a stamp, which is meant to tell how recently an item was visited.
A step may stamp some items anew and keep, cut or drop the others. The stamps stay in the order
of the visits as long as no item gets a new stamp while another one was visited later.
-/

namespace Recency

variable {α β : Type*}

/-- An item which was visited earlier than another one has the smaller stamp. -/
def Ordered (items : List α) (visited stamp : α → ℕ) : Prop :=
  ∀ x ∈ items, ∀ y ∈ items, visited x < visited y → stamp x < stamp y

variable {items : List α} {items' : List β} {visited stamp : α → ℕ} {visited' stamp' : β → ℕ}
  {clock : ℕ}

theorem Ordered.step (ordered : Ordered items visited stamp)
    (bounded : ∀ x ∈ items, stamp x ≤ clock)
    (changes : ∀ y ∈ items', (clock < stamp' y ∧ ∀ z ∈ items', visited' z ≤ visited' y) ∨
      ∃ x ∈ items, stamp' y = stamp x ∧ visited' y = visited x) :
    Ordered items' visited' stamp' := by
  intro y mem z mem' earlier
  rcases changes y mem with ⟨-, latest⟩ | ⟨x, xMem, stampY, visitedY⟩
  · exact absurd (latest z mem') (not_le.mpr earlier)
  rcases changes z mem' with ⟨stamped, -⟩ | ⟨w, wMem, stampZ, visitedZ⟩
  · calc stamp' y = stamp x := stampY
      _ ≤ clock := bounded x xMem
      _ < stamp' z := stamped
  · rw [stampY, stampZ]
    apply ordered x xMem w wMem
    rwa [visitedY, visitedZ] at earlier

/-- No item was visited before an item with the least stamp. -/
theorem Ordered.not_earlier (ordered : Ordered items visited stamp) {x y : α} (mem : x ∈ items)
    (mem' : y ∈ items) (least : stamp x ≤ stamp y) : ¬visited y < visited x := by
  intro earlier
  exact absurd (ordered y mem' x mem earlier) (not_lt.mpr least)

/-- The least pair in the lexicographic order has the least first component. -/
theorem fst_le_of_argmin {γ δ : Type*} [LinearOrder γ] [LinearOrder δ] {pairs : List (γ × δ)}
    {least pair : γ × δ} (isLeast : least ∈ pairs.argmin fun entry => toLex entry)
    (mem : pair ∈ pairs) : least.1 ≤ pair.1 := by
  have below := List.le_of_mem_argmin mem isLeast
  rcases Prod.Lex.le_iff.mp below with less | ⟨same, -⟩
  · exact less.le
  · exact same.le

end Recency
