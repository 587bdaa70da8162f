import Mathlib.Data.List.Infix
import Mathlib.Data.List.TakeWhile
import Mathlib.Tactic.Common

/-!
# Stable decodings

A decoder maps growing inputs to texts whose end may still change. It is stable when the text
before its first bad symbol never changes. Then what has been emitted before the first bad
symbol of an input is the start of the text of every longer input.
-/

namespace StableDecoding

variable {τ α : Type*} {decode : List τ → List α} {bad : α → Bool} {tokens tokens' : List τ}
  {emitted text : List α}

/-- The text before the first bad symbol. -/
def cut (bad : α → Bool) (text : List α) : List α := text.takeWhile fun symbol => !bad symbol

/-- The text before the first bad symbol stays when the input grows. -/
def Stable (decode : List τ → List α) (bad : α → Bool) : Prop :=
  ∀ tokens tokens', tokens <+: tokens' → cut bad (decode tokens) <+: decode tokens'

theorem cut_prefix (bad : α → Bool) (text : List α) : cut bad text <+: text :=
  List.takeWhile_prefix _

theorem not_bad_of_mem_cut {symbol : α} (mem : symbol ∈ cut bad text) : bad symbol = false := by
  simpa using List.mem_takeWhile_imp mem

/-- A prefix without bad symbols ends before the first one. -/
theorem prefix_cut (start : emitted <+: text) (good : ∀ symbol ∈ emitted, bad symbol = false) :
    emitted <+: cut bad text := by
  induction emitted generalizing text with
  | nil => exact List.nil_prefix
  | cons symbol emitted ih =>
    cases text with
    | nil => cases List.prefix_nil.mp start
    | cons other text =>
      rcases List.cons_prefix_cons.mp start with ⟨rfl, rest⟩
      have first := good symbol List.mem_cons_self
      have below := ih rest fun symbol mem => good symbol (List.mem_cons_of_mem _ mem)
      rw [cut, List.takeWhile_cons_of_pos (by simp [first])]
      exact List.cons_prefix_cons.mpr ⟨rfl, below⟩

/-- What has been emitted of the text of an input. -/
structure Emitted (decode : List τ → List α) (bad : α → Bool) (tokens : List τ)
    (emitted : List α) : Prop where
  good : ∀ symbol ∈ emitted, bad symbol = false
  starts : ∀ tokens', tokens <+: tokens' → emitted <+: decode tokens'

theorem Emitted.nil (tokens : List τ) : Emitted decode bad tokens [] where
  good := nofun
  starts := fun _ _ => List.nil_prefix

theorem Emitted.grow (before : Emitted decode bad tokens emitted)
    (grows : tokens <+: tokens') : Emitted decode bad tokens' emitted where
  good := before.good
  starts := fun longer continues => before.starts longer (grows.trans continues)

/-- The next piece begins where the emitted text ends. -/
theorem Emitted.prefix_cut (before : Emitted decode bad tokens emitted)
    (grows : tokens <+: tokens') : emitted <+: cut bad (decode tokens') :=
  StableDecoding.prefix_cut (before.starts tokens' grows) before.good

theorem Emitted.of_cut (stable : Stable decode bad) (tokens : List τ) :
    Emitted decode bad tokens (cut bad (decode tokens)) where
  good := fun _ mem => not_bad_of_mem_cut mem
  starts := fun tokens' continues => stable tokens tokens' continues

end StableDecoding
