import Mathlib.Algebra.BigOperators.Group.List.Basic
import Mathlib.Algebra.Ring.Int.Defs
import Mathlib.Data.Int.Order.Basic
import Mathlib.Tactic.Common

/-!
# Python values read from JSON

The values which Python's `json` module reads and writes, with the arithmetic Python does on
their numbers. A boolean counts as an integer. Floating-point numbers are a parameter together
with the operations which involve one; on integers the operations are exact.
-/

/-- The numbers of a JSON document. -/
inductive PyNumber (F : Type) where
  | bool (b : Bool)
  | int (n : ℤ)
  | float (x : F)
  deriving DecidableEq, Repr

/-- A JSON document. Objects list their fields in the order of the text. -/
inductive Json (F : Type) where
  | null
  | number (n : PyNumber F)
  | string (s : String)
  | array (items : List (Json F))
  | object (fields : List (String × Json F))

/-- Conversion of integers, which may overflow, and the operations with a floating-point operand. -/
structure FloatOps (F : Type) where
  ofInt : ℤ → Option F
  mul : F → F → F
  lt : PyNumber F → PyNumber F → Bool
  le : PyNumber F → PyNumber F → Bool
  eq : PyNumber F → PyNumber F → Bool

namespace PyNumber

variable {F : Type} {ops : FloatOps F}

/-- The value of a number which is not a floating-point number. -/
def toInt? : PyNumber F → Option ℤ
  | bool b => some (if b then 1 else 0)
  | int n => some n
  | float _ => none

/-- The floating-point value of a number. -/
def toFloat? (ops : FloatOps F) : PyNumber F → Option F
  | bool b => ops.ofInt (if b then 1 else 0)
  | int n => ops.ofInt n
  | float x => some x

/-- `a < b`. -/
def lt (ops : FloatOps F) (a b : PyNumber F) : Bool :=
  match a.toInt?, b.toInt? with
  | some m, some n => m < n
  | _, _ => ops.lt a b

/-- `a <= b`. -/
def le (ops : FloatOps F) (a b : PyNumber F) : Bool :=
  match a.toInt?, b.toInt? with
  | some m, some n => m ≤ n
  | _, _ => ops.le a b

/-- `a == b`. -/
def eq (ops : FloatOps F) (a b : PyNumber F) : Bool :=
  match a.toInt?, b.toInt? with
  | some m, some n => m = n
  | _, _ => ops.eq a b

/-- `a * b`, unless the conversion of an integer overflows. -/
def mul? (ops : FloatOps F) (a b : PyNumber F) : Option (PyNumber F) :=
  match a.toInt?, b.toInt? with
  | some m, some n => some (int (m * n))
  | _, _ => do
      let x ← a.toFloat? ops
      let y ← b.toFloat? ops
      some (float (ops.mul x y))

/-- `min(first, *rest)`. -/
def minimum (ops : FloatOps F) (first : PyNumber F) (rest : List (PyNumber F)) : PyNumber F :=
  rest.foldl (fun least n => if n.lt ops least then n else least) first

/-- `math.prod(numbers)`. -/
def prod? (ops : FloatOps F) (numbers : List (PyNumber F)) : Option (PyNumber F) :=
  numbers.foldlM (fun product n => product.mul? ops n) (int 1)

theorem eq_int {m n : ℤ} : (int m : PyNumber F).eq ops (int n) = true ↔ m = n := by
  simp [eq, toInt?]

theorem le_int {m n : ℤ} : (int m : PyNumber F).le ops (int n) = true ↔ m ≤ n := by
  simp [le, toInt?]

theorem lt_int {m n : ℤ} : (int m : PyNumber F).lt ops (int n) = true ↔ m < n := by
  simp [lt, toInt?]

theorem minimum_int (first : ℤ) (rest : List ℤ) :
    minimum ops (int first : PyNumber F) (rest.map int) = int (rest.foldl min first) := by
  unfold minimum
  induction rest generalizing first with
  | nil => rfl
  | cons n rest ih =>
    rw [List.map_cons, List.foldl_cons, List.foldl_cons, ← ih]
    congr 1
    by_cases less : n < first
    · rw [if_pos (lt_int.mpr less), min_eq_right (le_of_lt less)]
    · rw [if_neg fun lesser => less (lt_int.mp lesser), min_eq_left (not_lt.mp less)]

theorem prod_int (numbers : List ℤ) :
    prod? ops (numbers.map (int : ℤ → PyNumber F)) = some (int (numbers.foldl (· * ·) 1)) := by
  unfold prod?
  generalize (1 : ℤ) = start
  induction numbers generalizing start with
  | nil => rfl
  | cons n numbers ih =>
    rw [List.map_cons, List.foldlM_cons, List.foldl_cons]
    exact ih (start * n)

/--
A product of numbers overflows: the integers before its first floating-point number multiply to
one which does not fit into a float, or a later integer does not.
-/
def Overflows (ops : FloatOps F) (numbers : List (PyNumber F)) : Prop :=
  ∃ before x after, ∃ ns : List ℤ, numbers = before ++ float x :: after ∧ before.map toInt? = ns.map some ∧
    (ops.ofInt ns.prod = none ∨ ∃ n ∈ after, n.toFloat? ops = none)

end PyNumber

namespace Json

variable {F : Type}

/-- `fields[name]` of an object with such a field. -/
def field? (fields : List (String × Json F)) (name : String) : Option (Json F) :=
  fields.lookup name

/-- `set(fields) == set(names)`. -/
def hasFields (fields : List (String × Json F)) (names : List String) : Bool :=
  (fields.all fun field => field.1 ∈ names) && names.all fun name => name ∈ fields.map Prod.fst

/-- The number which a value is. -/
def number? : Json F → Option (PyNumber F)
  | number n => some n
  | _ => none

end Json
