import Mathlib.Data.List.Basic
import Mathlib.Data.List.TakeDrop
import Mathlib.Tactic.Common

/-!
# Models with a cache

A model reads some tokens after a cache of what it has made of the tokens before. It adds an entry
for each token and samples the next one. Its laws say that it is causal and that it can be resumed:
an entry depends on the tokens up to its position, however they are cut into runs.
-/

/-- A causal model which can be resumed from its cache, at the position after it. -/
structure CachedModel (K T : Type*) where
  run : List K → ℕ → List T → List K × T
  length_run : ∀ cache position tokens, (run cache position tokens).1.length = tokens.length
  causal : ∀ first rest, (run [] 0 (first ++ rest)).1.take first.length = (run [] 0 first).1
  resumed : ∀ first rest, rest ≠ [] → run (run [] 0 first).1 first.length rest =
    ((run [] 0 (first ++ rest)).1.drop first.length, (run [] 0 (first ++ rest)).2)

namespace CachedModel

variable {K T : Type*} {model : CachedModel K T} {tokens rest : List T} {cache : List K}
  {position : ℕ}

/-- The cache of some tokens which the model reads in one run. -/
def entries (model : CachedModel K T) (tokens : List T) : List K := (model.run [] 0 tokens).1

/-- The token which the model samples after some tokens. -/
def next (model : CachedModel K T) (tokens : List T) : T := (model.run [] 0 tokens).2

/-- The entry of the last of some tokens. -/
def entry (model : CachedModel K T) (tokens : List T) : Option K := (model.entries tokens).getLast?

theorem length_entries (model : CachedModel K T) (tokens : List T) :
    (model.entries tokens).length = tokens.length := model.length_run _ _ _

theorem take_entries (model : CachedModel K T) (tokens : List T) (n : ℕ) :
    (model.entries tokens).take n = model.entries (tokens.take n) := by
  have causal := model.causal (tokens.take n) (tokens.drop n)
  rw [List.take_append_drop, List.length_take] at causal
  rcases Nat.le_total n tokens.length with short | long
  · rw [Nat.min_eq_left short] at causal
    exact causal
  · rw [List.take_of_length_le long, List.take_of_length_le]
    rw [length_entries]
    exact long

/-- The entry at a position is that of the tokens up to there. -/
theorem getElem?_entries (model : CachedModel K T) (inside : position < tokens.length) :
    (model.entries tokens)[position]? = model.entry (tokens.take (position + 1)) := by
  have upTo : position + 1 ≤ tokens.length := inside
  rw [entry, ← take_entries, List.getLast?_eq_getElem?, List.length_take, length_entries,
    Nat.min_eq_left upTo, Nat.add_sub_cancel, List.getElem?_take_of_lt (Nat.lt_succ_self position)]

/-- A cache is that of some tokens if each entry is that of the tokens up to its position. -/
theorem eq_entries (sameLength : cache.length = tokens.length)
    (each : ∀ position < tokens.length,
      cache[position]? = model.entry (tokens.take (position + 1))) :
    cache = model.entries tokens := by
  apply List.ext_getElem?
  intro position
  rcases Nat.lt_or_ge position tokens.length with inside | outside
  · rw [each position inside, model.getElem?_entries inside]
  · rw [List.getElem?_eq_none (by omega), List.getElem?_eq_none]
    rw [length_entries]
    exact outside

/-- The entries which a run adds to the cache of the tokens before. -/
theorem getElem?_run (model : CachedModel K T) (first : List T) (more : rest ≠ [])
    (inside : position < rest.length) :
    (model.run (model.entries first) first.length rest).1[position]? =
      model.entry ((first ++ rest).take (first.length + position + 1)) := by
  rw [entries, model.resumed first rest more, List.getElem?_drop]
  apply model.getElem?_entries
  rw [List.length_append]
  exact Nat.add_lt_add_left inside _

/-- The token which a run samples is that after all tokens. -/
theorem sampled_run (model : CachedModel K T) (first : List T) (more : rest ≠ []) :
    (model.run (model.entries first) first.length rest).2 = model.next (first ++ rest) := by
  rw [entries, model.resumed first rest more, next]

/-- Runs of some chunks after a cache, with the token which each of them samples. -/
def runChunks (model : CachedModel K T) (cache : List K) : List (List T) → List K × List T
  | [] => (cache, [])
  | chunk :: chunks =>
      let ran := model.run cache cache.length chunk
      let rest := model.runChunks (cache ++ ran.1) chunks
      (rest.1, ran.2 :: rest.2)

/-- A run makes the entries of its tokens after those of the tokens before. -/
theorem entries_append (model : CachedModel K T) (first : List T) (more : rest ≠ []) :
    model.entries first ++ (model.run (model.entries first) first.length rest).1 =
      model.entries (first ++ rest) := by
  have resumed := model.resumed first rest more
  rw [← entries, ← entries] at resumed
  have before := model.take_entries (first ++ rest) first.length
  rw [List.take_left] at before
  rw [resumed, ← before]
  exact List.take_append_drop _ _

/-- However some tokens are cut, the chunks make the entries of all, and sample what follows. -/
theorem runChunks_eq (model : CachedModel K T) (first : List T) {chunks : List (List T)}
    (nonempty : ∀ chunk ∈ chunks, chunk ≠ []) :
    model.runChunks (model.entries first) chunks =
      (model.entries (first ++ chunks.flatten),
        chunks.inits.tail.map fun upTo => model.next (first ++ upTo.flatten)) := by
  induction chunks generalizing first with
  | nil => simp [runChunks]
  | cons chunk chunks ih =>
    rw [List.forall_mem_cons] at nonempty
    have rest := ih (first ++ chunk) nonempty.2
    have sampled := model.sampled_run first nonempty.1
    have length := model.length_entries first
    simp only [runChunks, length, sampled, model.entries_append first nonempty.1, rest]
    cases chunks with
    | nil => simp
    | cons next chunks => simp [List.append_assoc]

/-- A model of one layer: its entries are made of the tokens at their positions. -/
def oneLayer (encode : ℕ → T → K) (sample : List K → T) : CachedModel K T where
  run cache position tokens :=
    let made := (tokens.zipIdx position).map fun token => encode token.2 token.1
    (made, sample (cache ++ made))
  length_run := by simp
  causal := by
    intro first rest
    simp [List.zipIdx_append]
  resumed := by
    intro first rest _
    simp [List.zipIdx_append]

end CachedModel
