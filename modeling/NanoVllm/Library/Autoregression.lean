import Mathlib.Data.List.Basic
import Mathlib.Tactic.Common

/-!
# Generating one token after the other

A model extends a history by one token after the other, until a token stops it or a limit is
reached. The beginning of a completion is extended by the next token, or it is complete with it.
-/

namespace Autoregression

variable {α : Type*} {next : List α → α} {stop : α → Bool} {limit : ℕ} {prompt done : List α}

/-- The completion of a history: at most `limit` tokens, and none after a token which stops. -/
def complete (next : List α → α) (stop : α → Bool) : ℕ → List α → List α
  | 0, _ => []
  | limit + 1, history =>
      if stop (next history) then [next history]
      else next history :: complete next stop limit (history ++ [next history])

/-- Some tokens begin the completion of a prompt, and more follow. -/
structure Begins (next : List α → α) (stop : α → Bool) (limit : ℕ) (prompt done : List α) :
    Prop where
  short : done.length < limit
  rest : complete next stop limit prompt =
    done ++ complete next stop (limit - done.length) (prompt ++ done)

theorem Begins.start (positive : 0 < limit) : Begins next stop limit prompt [] where
  short := positive
  rest := by simp

theorem Begins.step (begins : Begins next stop limit prompt done) :
    complete next stop limit prompt = done ++
      if stop (next (prompt ++ done)) then [next (prompt ++ done)]
      else next (prompt ++ done) :: complete next stop (limit - (done.length + 1))
        (prompt ++ done ++ [next (prompt ++ done)]) := by
  have short := begins.short
  rw [begins.rest, show limit - done.length = limit - (done.length + 1) + 1 by omega]
  rfl

/-- The next token completes a beginning if it stops the model or reaches the limit. -/
theorem Begins.last (begins : Begins next stop limit prompt done)
    (ends : stop (next (prompt ++ done)) = true ∨ done.length + 1 = limit) :
    complete next stop limit prompt = done ++ [next (prompt ++ done)] := by
  rw [begins.step]
  split
  · rfl
  next goesOn =>
  rw [ends.resolve_left goesOn, Nat.sub_self]
  rfl

/-- The next token extends a beginning otherwise. -/
theorem Begins.extend (begins : Begins next stop limit prompt done)
    (goesOn : stop (next (prompt ++ done)) = false) (room : done.length + 1 ≠ limit) :
    Begins next stop limit prompt (done ++ [next (prompt ++ done)]) where
  short := by
    have short := begins.short
    rw [List.length_append, List.length_singleton]
    omega
  rest := by
    rw [begins.step, if_neg (by rw [goesOn]; exact Bool.false_ne_true)]
    simp

/-- A completion ends with a token which stops the model, or it has the length of the limit. -/
theorem complete_ends (positive : 0 < limit) : ∃ last ∈ (complete next stop limit prompt).getLast?,
    stop last = true ∨ (complete next stop limit prompt).length = limit := by
  induction limit generalizing prompt with
  | zero => exact absurd positive (Nat.lt_irrefl 0)
  | succ limit ih =>
    rw [complete]
    split
    · next stops => exact ⟨_, rfl, .inl stops⟩
    · rcases Nat.eq_zero_or_pos limit with rfl | more
      · exact ⟨_, rfl, .inr rfl⟩
      · rcases @ih (prompt ++ [next prompt]) more with ⟨last, ends, either⟩
        refine ⟨last, ?_, either.imp_right (congrArg (· + 1))⟩
        rw [Option.mem_def, List.getLast?_cons, ends]
        rfl

/-- Models which generate the same tokens after known ones make the same completions. -/
theorem complete_congr {next' : List α → α} {known : α → Prop}
    (same : ∀ history, (∀ token ∈ history, known token) → next history = next' history)
    (samples : ∀ history, known (next history)) (mem : ∀ token ∈ prompt, known token) (limit : ℕ) :
    complete next stop limit prompt = complete next' stop limit prompt := by
  induction limit generalizing prompt with
  | zero => rfl
  | succ limit ih =>
    have later : ∀ token ∈ prompt ++ [next prompt], known token := by
      rw [List.forall_mem_append, List.forall_mem_singleton]
      exact ⟨mem, samples prompt⟩
    rw [complete, complete, ← same prompt mem, ih later]

end Autoregression
