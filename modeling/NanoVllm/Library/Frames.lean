import Mathlib.Data.List.Basic
import Mathlib.Data.List.Flatten
import Mathlib.Tactic.Common

/-!
# Frames read from the pieces of a text

A text is cut from the left at each occurrence of a separator, which may have several symbols. A
reader which gets the text in pieces keeps what remains of each piece for the next one. It finds the
frames of the whole text, wherever the pieces end, also within a separator.
-/

namespace Frames

variable {α : Type*} [DecidableEq α] {separator frame text first rest : List α}

/-- The frames with one more symbol in front. -/
def push (symbol : α) : List (List α) × List α → List (List α) × List α
  | ([], rest) => ([], symbol :: rest)
  | (frame :: frames, rest) => ((symbol :: frame) :: frames, rest)

/--
The frames before each separator, and the rest of the text after the last one. The first symbols
belong to the separator of the previous frame.
-/
def cutFrom (separator : List α) : ℕ → List α → List (List α) × List α
  | _, [] => ([], [])
  | skipped + 1, _ :: text => cutFrom separator skipped text
  | 0, symbol :: text =>
      if separator <+: symbol :: text then
        let cut := cutFrom separator (separator.length - 1) text
        ([] :: cut.1, cut.2)
      else push symbol (cutFrom separator 0 text)

/-- The frames of a text, and the rest after the last separator. -/
def cut (separator : List α) (text : List α) : List (List α) × List α := cutFrom separator 0 text

end Frames
