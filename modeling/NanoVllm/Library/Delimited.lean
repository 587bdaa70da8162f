import Mathlib.Data.List.Basic
import Mathlib.Data.List.Count
import Mathlib.Tactic.Common

/-!
# Fields joined by a separator

A join forgets where one field ends and the next begins when a field holds the separator itself.
What it keeps are the pieces between the separators: two lists of fields join to the same text
exactly if they have the same pieces, and the fields can be read off once it is known how many
separators each of them holds.
-/

namespace Delimited

variable {α : Type} [DecidableEq α] {separator : α}

/-- The pieces between the separators, field after field. -/
def pieces (separator : α) (fields : List (List α)) : List (List α) :=
  fields.flatMap (List.splitOn separator)

@[simp] theorem pieces_nil : pieces separator [] = [] := rfl

@[simp] theorem pieces_cons (field : List α) (fields : List (List α)) :
    pieces separator (field :: fields) = field.splitOn separator ++ pieces separator fields := rfl

theorem pieces_append (fields fields' : List (List α)) :
    pieces separator (fields ++ fields') = pieces separator fields ++ pieces separator fields' := by
  simp [pieces]

/-- Fields without separators are their own pieces. -/
theorem pieces_eq_self {fields : List (List α)} (free : ∀ field ∈ fields, separator ∉ field) :
    pieces separator fields = fields := by
  induction fields with
  | nil => rfl
  | cons field fields ih =>
    have split : field.splitOn separator = [field] :=
      List.splitOn_eq_singleton (free field List.mem_cons_self)
    have rest := ih fun other member => free other (List.mem_cons_of_mem _ member)
    simp [split, rest]

theorem eq_of_splitOn {field field' : List α}
    (sameSplit : field.splitOn separator = field'.splitOn separator) : field = field' := by
  have joined : [separator].intercalate (field.splitOn separator) = field :=
    List.intercalate_splitOn separator
  rw [← joined, sameSplit, List.intercalate_splitOn]

theorem splitOn_intercalate {fields : List (List α)} (nonempty : fields ≠ []) :
    List.splitOn separator ([separator].intercalate fields) = pieces separator fields := by
  induction fields with
  | nil => exact absurd rfl nonempty
  | cons field fields ih =>
    cases fields with
    | nil => simp
    | cons next fields =>
      have rest := ih (List.cons_ne_nil _ _)
      rw [List.intercalate_cons_cons, List.append_assoc, List.singleton_append,
        List.splitOn_append_cons_self, rest]
      rfl

/-- Two joins agree exactly if the pieces do. -/
theorem intercalate_eq_iff {fields fields' : List (List α)} (nonempty : fields ≠ [])
    (nonempty' : fields' ≠ []) :
    [separator].intercalate fields = [separator].intercalate fields' ↔
      pieces separator fields = pieces separator fields' := by
  constructor
  · intro sameJoin
    rw [← splitOn_intercalate nonempty, ← splitOn_intercalate nonempty', sameJoin]
  · intro samePieces
    have sameSplit := (splitOn_intercalate nonempty).trans
      (samePieces.trans (splitOn_intercalate nonempty').symm)
    exact eq_of_splitOn sameSplit

theorem length_splitOn (field : List α) :
    (field.splitOn separator).length = field.count separator + 1 := by
  induction field with
  | nil => simp
  | cons symbol field ih =>
    rw [List.splitOn_cons_eq_if_modifyHead, List.count_cons]
    split
    · simp [ih]
    · simp [ih]

/-- The pieces and the number of separators in each field determine the fields. -/
theorem eq_of_pieces {fields fields' : List (List α)}
    (samePieces : pieces separator fields = pieces separator fields')
    (sameCounts : fields.map (List.count separator) = fields'.map (List.count separator)) :
    fields = fields' := by
  induction fields generalizing fields' with
  | nil =>
    rw [List.map_nil, eq_comm, List.map_eq_nil_iff] at sameCounts
    exact sameCounts.symm
  | cons field fields ih =>
    cases fields' with
    | nil => cases sameCounts
    | cons field' fields' =>
      rw [List.map_cons, List.map_cons, List.cons.injEq] at sameCounts
      rw [pieces_cons, pieces_cons] at samePieces
      have sameLength : (field.splitOn separator).length = (field'.splitOn separator).length := by
        rw [length_splitOn, length_splitOn, sameCounts.1]
      rcases List.append_inj samePieces sameLength with ⟨sameFirst, sameRest⟩
      rw [eq_of_splitOn sameFirst, ih sameRest sameCounts.2]

/-- Texts agree up to their first separator and after it. -/
theorem cut_inj {first first' rest rest' : List α} (free : separator ∉ first)
    (free' : separator ∉ first')
    (sameText : first ++ separator :: rest = first' ++ separator :: rest') :
    first = first' ∧ rest = rest' := by
  have sameSplit := congrArg (List.splitOn separator) sameText
  rw [List.splitOn_append_cons_self_of_not_mem free,
    List.splitOn_append_cons_self_of_not_mem free', List.cons.injEq] at sameSplit
  rcases sameSplit with ⟨rfl, -⟩
  simpa using sameText

end Delimited
