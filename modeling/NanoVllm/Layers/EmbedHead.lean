import NanoVllm.Layers.Linear

/-!
# Embeddings and the head in shards

Each rank holds a part of the vocabulary. The embedding of a token is on one rank only, and the
others add zeros to it; the logits of the ranks are joined on rank 0.

On the device an index outside of the weight fails an assertion; here it has no row.
-/

namespace NanoVllm.Layers

open Paging Sharding

variable {R : Type} [Semiring R]

/-- `F.embedding`. -/
def embedding (weight : List (List R)) (x : Token) : List R := weight.getD x.toNat []

/-- The part of a rank in the output of `VocabParallelEmbedding.forward`. -/
def VocabParallelEmbedding.part (tpSize : ℕ) (weights : PerRank (List (List R))) (x : Token)
    (rank : ℕ) : List R :=
  let weight := weights rank
  if 1 < tpSize then
    let vocabStartIdx : ℤ := weight.length * rank
    let vocabEndIdx : ℤ := vocabStartIdx + weight.length
    let mask := if x ≥ vocabStartIdx ∧ x < vocabEndIdx then 1 else 0
    (embedding weight (mask * (x - vocabStartIdx))).map fun y =>
      (if x ≥ vocabStartIdx ∧ x < vocabEndIdx then 1 else 0) * y
  else embedding weight x

/-- `VocabParallelEmbedding.forward`. -/
def VocabParallelEmbedding.forward (tpSize : ℕ) (weights : PerRank (List (List R))) (x : Token) :
    PerRank (List R) :=
  let y := part tpSize weights x
  if 1 < tpSize then fun _ => total ((List.range tpSize).map y) else y

/-- `ParallelLMHead.forward` at one of the last positions: what rank 0 returns. -/
def ParallelLMHead.forward (tpSize : ℕ) (weights : PerRank (List (List R)))
    (x : PerRank (List R)) : List R :=
  let logits := fun rank => apply (weights rank) (x rank)
  if 1 < tpSize then ((List.range tpSize).map logits).flatten else logits 0

/-! ## What the ranks compute together -/

variable {tpSize rank size width : ℕ} {weight : List (List R)} {x : Token} {row : List R}

theorem add_zeros (sized : row.length = width) : add row (List.replicate width 0) = row := by
  apply List.ext_getElem
  · simp [add, sized]
  · intro i _ _
    simp [add]

theorem zeros_add (sized : row.length = width) : add (List.replicate width 0) row = row := by
  apply List.ext_getElem
  · simp [add, sized]
  · intro i _ _
    simp [add]

theorem foldl_add_zeros (sized : row.length = width) {ys : List (List R)}
    (zeros : ∀ y ∈ ys, y = List.replicate width 0) : ys.foldl add row = row := by
  induction ys with
  | nil => rfl
  | cons y ys ih =>
    rw [List.forall_mem_cons] at zeros
    rw [List.foldl_cons, zeros.1, add_zeros sized]
    exact ih zeros.2

/-- A sum in which one rank only has something to add. -/
theorem foldl_add_one (sized : row.length = width) {ranks : List ℕ} (distinct : ranks.Nodup)
    {hot : ℕ} (mem : hot ∈ ranks) :
    (ranks.map fun r => if r = hot then row else List.replicate width 0).foldl add
      (List.replicate width 0) = row := by
  induction ranks with
  | nil => cases mem
  | cons r ranks ih =>
    rw [List.nodup_cons] at distinct
    rw [List.map_cons, List.foldl_cons]
    by_cases isHot : r = hot
    · rw [if_pos isHot, zeros_add sized]
      apply foldl_add_zeros sized
      intro y listed
      rcases List.mem_map.mp listed with ⟨other, inRanks, rfl⟩
      apply if_neg
      rintro rfl
      exact distinct.1 (isHot ▸ inRanks)
    · rw [if_neg isHot, add_zeros (List.length_replicate)]
      exact ih distinct.2 ((List.mem_cons.mp mem).resolve_left (Ne.symm isHot))

theorem total_one (sized : row.length = width) {hot : ℕ} (inside : hot < tpSize) :
    total ((List.range tpSize).map fun r => if r = hot then row else List.replicate width 0) =
      row := by
  have sum := foldl_add_one sized List.nodup_range (List.mem_range.mpr inside)
  cases tpSize with
  | zero => cases inside
  | succ more =>
    rw [List.range_succ_eq_map, List.map_cons] at sum ⊢
    rw [List.foldl_cons, zeros_add] at sum
    · exact sum
    · split
      · exact sized
      · exact List.length_replicate

theorem VocabParallelEmbedding.part_shard (long : weight.length = tpSize * size)
    (wide : ∀ row ∈ weight, row.length = width) {token : ℕ} (known : token < tpSize * size)
    (several : 1 < tpSize) (inside : rank < tpSize) :
    part tpSize (page size weight) token rank =
      if rank = token / size then embedding weight token else List.replicate width 0 := by
  have length : (page size weight rank).length = size := length_page long.ge inside
  have positive : 0 < size := Nat.pos_of_ne_zero fun zero => by
    rw [zero, Nat.mul_zero] at known
    cases known
  have bounds : ((token : ℤ) ≥ size * rank ∧ (token : ℤ) < size * rank + size) ↔
      rank = token / size := by
    have place : rank = token / size ↔ size * rank ≤ token ∧ token ≤ size * rank + size - 1 := by
      rw [eq_comm, Nat.div_eq_iff positive, Nat.mul_comm size]
    rw [place]
    omega
  unfold part
  dsimp only
  rw [if_pos several, length]
  by_cases isHot : rank = token / size
  · have offset : ((1 : ℤ) * (token - size * rank)).toNat = token % size := by
      have parts := Nat.div_add_mod token size
      rw [← isHot] at parts
      rw [one_mul]
      omega
    have found : (page size weight rank)[token % size]? = weight[token]? := by
      rw [getElem?_page (Nat.mod_lt _ positive), isHot, Nat.div_add_mod']
    simp only [if_pos (bounds.mpr isHot), if_pos isHot, one_mul, List.map_id']
    simp only [one_mul] at offset
    rw [embedding, offset, List.getD_eq_getElem?_getD, found, embedding,
      List.getD_eq_getElem?_getD, Int.toNat_natCast]
  · simp only [if_neg (mt bounds.mp isHot), if_neg isHot, zero_mul]
    have first : 0 < (page size weight rank).length := positive.trans_eq length.symm
    have mem : (page size weight rank)[0] ∈ weight :=
      List.mem_of_mem_drop (List.mem_of_mem_take (List.getElem_mem first))
    have getFirst : embedding (page size weight rank) 0 = (page size weight rank)[0] := by
      simp [embedding, first]
    rw [getFirst, List.map_const', wide _ mem]

/-- Every rank gets the row of a token of the vocabulary. -/
theorem VocabParallelEmbedding.forward_shard (long : weight.length = tpSize * size)
    (wide : ∀ row ∈ weight, row.length = width) (inside : rank < tpSize)
    (known : 0 ≤ x ∧ x < (tpSize * size : ℕ)) :
    forward tpSize (page size weight) x rank = embedding weight x := by
  rcases Int.eq_ofNat_of_zero_le known.1 with ⟨token, rfl⟩
  have small : token < tpSize * size := Int.ofNat_lt.mp known.2
  unfold forward
  split
  · next several =>
    have parts : (List.range tpSize).map (part tpSize (page size weight) token) =
        (List.range tpSize).map fun r =>
          if r = token / size then embedding weight token else List.replicate width 0 := by
      apply List.map_congr_left
      intro r mem
      exact part_shard long wide small several (List.mem_range.mp mem)
    have row : (embedding weight token).length = width := by
      have inWeight : token < weight.length := long ▸ small
      have get : embedding weight token = weight[token] := by simp [embedding, inWeight]
      rw [get]
      exact wide _ (List.getElem_mem inWeight)
    dsimp only
    rw [parts]
    apply total_one row
    rw [Nat.mul_comm] at small
    exact Nat.div_lt_of_lt_mul small
  · have only : tpSize = 1 := by omega
    subst only
    cases Nat.lt_one_iff.mp inside
    rw [part, if_neg (lt_irrefl 1), page_zero, List.take_of_length_le]
    rw [long, Nat.one_mul]

/-- The logits of the shards are those of the whole head. -/
theorem ParallelLMHead.forward_shard (long : weight.length = tpSize * size) (positive : 0 < tpSize)
    {hidden : List R} {xs : PerRank (List R)} (same : ∀ rank < tpSize, xs rank = hidden) :
    forward tpSize (page size weight) xs = apply weight hidden := by
  have joined : ((List.range tpSize).map fun r => apply (page size weight r) (xs r)).flatten =
      apply weight hidden := by
    have shards : (List.range tpSize).map (fun r => apply (page size weight r) (xs r)) =
        pages size (apply weight hidden) tpSize := by
      apply List.map_congr_left
      intro r mem
      rw [same r (List.mem_range.mp mem), apply_page]
    rw [shards, flatten_pages, List.take_of_length_le]
    rw [length_apply, long]
  unfold forward
  dsimp only
  split
  · exact joined
  · have only : tpSize = 1 := by omega
    subst only
    simpa using joined

end NanoVllm.Layers
