import NanoVllm.Basic
import NanoVllm.Library.Sharding

/-!
# Linear layers in shards

The layers of a tensor parallel group. Each rank copies its shard of a loaded weight into its own
parameter, and the ranks together compute what one rank with the whole weight does.

A tensor is the list of its entries along its first axis, and the layers act on one token. The
numbers are those of a field, so rounding is left out. A parameter is never broadcast when it is
copied.
-/

namespace NanoVllm.Layers

open Paging Sharding

variable {α R : Type}

/-! ## Tensors -/

/-- `tensor.narrow(0, start, length)`. -/
def narrow (tensor : List α) (start length : ℕ) : Py (List α) :=
  if start + length ≤ tensor.length then .ok ((tensor.drop start).take length)
  else
    .error (.runtimeError ("start (" ++ toString start ++ ") + length (" ++ toString length ++
      ") exceeds dimension size (" ++ toString tensor.length ++ ")."))

/-- The entry of `tensor.chunk(chunks, 0)` at an index. -/
def chunk (tensor : List α) (chunks i : ℕ) : Py (List α) :=
  let size := (tensor.length + chunks - 1) / chunks
  if i * size < tensor.length ∨ (tensor.length = 0 ∧ i < chunks) then .ok (page size tensor i)
  else .error (.indexError "tuple index out of range")

/-- `param.copy_(source)`. -/
def copy (param source : List α) : Py (List α) :=
  if source.length = param.length then .ok source
  else
    .error (.runtimeError ("The size of tensor a (" ++ toString param.length ++
      ") must match the size of tensor b (" ++ toString source.length ++
      ") at non-singleton dimension 0"))

/-- `param.narrow(0, start, length).copy_(source)`: the parameter after it. -/
def copyInto (param : List α) (start length : ℕ) (source : List α) : Py (List α) := do
  let view ← narrow param start length
  let copied ← copy view source
  .ok (param.take start ++ copied ++ param.drop (start + length))

/-- `divide`. -/
def divide (numerator denominator : ℕ) : Py ℕ :=
  if numerator % denominator = 0 then .ok (numerator / denominator) else .error .assertionError

/-! ## Loading -/

/-- `ColumnParallelLinear.weight_loader`, and that of `VocabParallelEmbedding`. -/
def ColumnParallelLinear.weightLoader (rank : ℕ) (param loadedWeight : List α) :
    Py (List α) := do
  let shardSize := param.length
  let shard ← narrow loadedWeight (rank * shardSize) shardSize
  copy param shard

/-- `MergedColumnParallelLinear.weight_loader`. -/
def MergedColumnParallelLinear.weightLoader (outputSizes : List ℕ) (tpSize rank : ℕ)
    (param loadedWeight : List α) (loadedShardId : ℕ) : Py (List α) := do
  let shardOffset := (outputSizes.take loadedShardId).sum / tpSize
  match outputSizes[loadedShardId]? with
  | none => .error (.indexError "list index out of range")
  | some outputSize =>
      let shard ← chunk loadedWeight tpSize rank
      copyInto param shardOffset (outputSize / tpSize) shard

/-- `loaded_shard_id` of `QKVParallelLinear`. -/
inductive QKVShardId where
  | q
  | k
  | v
  deriving DecidableEq, Repr

/-- `QKVParallelLinear.weight_loader`, where the numbers of heads are those of the rank. -/
def QKVParallelLinear.weightLoader (headSize numHeads numKvHeads tpSize rank : ℕ)
    (param loadedWeight : List α) (loadedShardId : QKVShardId) : Py (List α) := do
  let shardSize := match loadedShardId with
    | .q => numHeads * headSize
    | .k => numKvHeads * headSize
    | .v => numKvHeads * headSize
  let shardOffset := match loadedShardId with
    | .q => 0
    | .k => numHeads * headSize
    | .v => numHeads * headSize + numKvHeads * headSize
  let shard ← chunk loadedWeight tpSize rank
  copyInto param shardOffset shardSize shard

/-- `RowParallelLinear.weight_loader` of a weight, where the parameter has some input size. -/
def RowParallelLinear.weightLoader (rank inputSize : ℕ) (param loadedWeight : List (List R)) :
    Py (List (List R)) := do
  let shard ← loadedWeight.mapM fun row => narrow row (rank * inputSize) inputSize
  copy param shard

/-- `RowParallelLinear.weight_loader` of a bias. -/
def RowParallelLinear.biasLoader (param loadedBias : List R) : Py (List R) :=
  copy param loadedBias

/-! ## Layers -/

/-- What every rank holds. -/
abbrev PerRank (α : Type) := ℕ → α

/-- The parameters of a linear layer. -/
structure Linear (R : Type) where
  weight : List (List R)
  bias : Option (List R)

/-! ## Shards -/

/-- The shard of a column parallel layer. -/
def Linear.shard (size : ℕ) (layer : Linear R) (rank : ℕ) : Linear R where
  weight := page size layer.weight rank
  bias := layer.bias.map fun bias => page size bias rank

/-- The shards of the columns on all ranks, with the whole bias on each. -/
def RowParallelLinear.shard (size : ℕ) (layer : Linear R) (rank : ℕ) : Linear R where
  weight := layer.weight.map fun row => page size row rank
  bias := layer.bias

/-- The layer with the rows of one layer before those of another one. -/
def Linear.merge (first second : Linear R) : Linear R where
  weight := first.weight ++ second.weight
  bias := first.bias.bind fun bias => second.bias.map (bias ++ ·)

/-- A layer has the given number of rows, and a bias exactly if it is said to. -/
structure Linear.Sized (layer : Linear R) (size : ℕ) (biased : Bool) : Prop where
  rows : layer.weight.length = size
  biased : layer.bias.isSome = biased
  bias : ∀ bias ∈ layer.bias, bias.length = size

/-- The shard of a rank is as large as those of the others. -/
theorem Linear.Sized.shard {layer : Linear R} {tpSize rank size : ℕ} {biased : Bool}
    (sized : layer.Sized (tpSize * size) biased) (inside : rank < tpSize) :
    (layer.shard size rank).Sized size biased where
  rows := length_page sized.rows.ge inside
  biased := by simp [Linear.shard, sized.biased]
  bias := by
    intro bias mem
    rcases Option.map_eq_some_iff.mp mem with ⟨whole, isBias, rfl⟩
    exact length_page (sized.bias whole isBias).ge inside

theorem Linear.Sized.merge {first second : Linear R} {size size' : ℕ} {biased : Bool}
    (sized : first.Sized size biased) (sized' : second.Sized size' biased) :
    (first.merge second).Sized (size + size') biased where
  rows := by simp [Linear.merge, sized.rows, sized'.rows]
  biased := by
    have both := sized.biased.trans sized'.biased.symm
    rcases first with ⟨weight, bias⟩
    rcases second with ⟨weight', bias'⟩
    cases bias with
    | none => exact sized.biased
    | some bias =>
      cases bias' with
      | none => cases both
      | some bias' => exact sized.biased
  bias := by
    intro bias mem
    rcases Option.bind_eq_some_iff.mp mem with ⟨one, isOne, joined⟩
    rcases Option.map_eq_some_iff.mp joined with ⟨other, isOther, rfl⟩
    rw [List.length_append, sized.bias one isOne, sized'.bias other isOther]

/-! ## What the loaders do -/

section Loading

variable {tpSize rank size : ℕ} {param loaded : List α}

theorem narrow_page (long : loaded.length = tpSize * size) (inside : rank < tpSize) :
    narrow loaded (rank * size) size = .ok (page size loaded rank) := by
  have room := Nat.mul_le_mul_right size (Nat.succ_le_of_lt inside)
  rw [Nat.succ_mul, ← long] at room
  rw [narrow, if_pos room, page]

theorem chunk_page (long : loaded.length = tpSize * size) (inside : rank < tpSize) :
    chunk loaded tpSize rank = .ok (page size loaded rank) := by
  have positive : 0 < tpSize := Nat.zero_lt_of_lt inside
  have ceil : (tpSize * size + tpSize - 1) / tpSize = size := by
    have upper : tpSize * size + tpSize - 1 < (size + 1) * tpSize := by
      rw [Nat.succ_mul, Nat.mul_comm size]
      exact Nat.sub_lt (Nat.add_pos_right _ positive) Nat.one_pos
    apply Nat.le_antisymm
    · exact Nat.lt_succ_iff.mp ((Nat.div_lt_iff_lt_mul positive).mpr upper)
    · rw [Nat.le_div_iff_mul_le positive, Nat.mul_comm size]
      omega
  rw [chunk, long, ceil]
  apply if_pos
  rcases Nat.eq_zero_or_pos size with rfl | sized
  · simp [inside]
  · exact .inl (Nat.mul_lt_mul_of_pos_right inside sized)

theorem copy_eq (sameLength : loaded.length = param.length) : copy param loaded = .ok loaded :=
  if_pos sameLength

/-- A rank of a column parallel layer keeps its shard of the rows. -/
theorem ColumnParallelLinear.weightLoader_eq (long : loaded.length = tpSize * size)
    (sized : param.length = size) (inside : rank < tpSize) :
    ColumnParallelLinear.weightLoader rank param loaded = .ok (page size loaded rank) := by
  have fits : tpSize * size ≤ loaded.length := long.ge
  have sameLength := (length_page fits inside).trans sized.symm
  rw [ColumnParallelLinear.weightLoader, sized, narrow_page long inside, Py.ok_bind,
    copy_eq sameLength]

/-- Blocks of a parameter, which are loaded one by one. -/
structure Blocks (sizes : List ℕ) (param : List α) (blocks : List (List α)) : Prop where
  sizes : blocks.map List.length = sizes
  joined : param = blocks.flatten

variable {sizes : List ℕ} {blocks : List (List α)}

theorem Blocks.length (isBlocks : Blocks sizes param blocks) : param.length = sizes.sum := by
  rw [isBlocks.joined, List.length_flatten, isBlocks.sizes]

/-- A copy into the place of a block. -/
theorem Blocks.copyInto (isBlocks : Blocks sizes param blocks) {i : ℕ} {source : List α}
    (get : sizes[i]? = some size) (sized : source.length = size) :
    ∃ param', copyInto param (sizes.take i).sum size source = .ok param' ∧
      Blocks sizes param' (blocks.set i source) := by
  rw [← isBlocks.sizes, List.getElem?_map] at get
  rcases Option.map_eq_some_iff.mp get with ⟨block, getBlock, rfl⟩
  rcases List.getElem?_eq_some_iff.mp getBlock with ⟨inside, rfl⟩
  have start : (sizes.take i).sum = (blocks.take i).flatten.length := by
    rw [← isBlocks.sizes, ← List.map_take, List.length_flatten]
  have split : param =
      (blocks.take i).flatten ++ (blocks[i] ++ (blocks.drop (i + 1)).flatten) := by
    have parts := congrArg List.flatten (List.take_append_drop i blocks)
    rw [List.flatten_append, List.drop_eq_getElem_cons inside, List.flatten_cons] at parts
    rw [isBlocks.joined, parts]
  have view : narrow param (blocks.take i).flatten.length blocks[i].length = .ok blocks[i] := by
    have room : (blocks.take i).flatten.length + blocks[i].length ≤ param.length := by
      rw [split, List.length_append, List.length_append, ← Nat.add_assoc]
      exact Nat.le_add_right _ _
    rw [narrow, if_pos room, split, List.drop_left, List.take_left]
  have before : param.take (blocks.take i).flatten.length = (blocks.take i).flatten := by
    rw [split, List.take_left]
  have behind : param.drop ((blocks.take i).flatten.length + blocks[i].length) =
      (blocks.drop (i + 1)).flatten := by
    rw [split, ← List.drop_drop, List.drop_left, List.drop_left]
  refine ⟨(blocks.take i).flatten ++ source ++ (blocks.drop (i + 1)).flatten, ?_, ?_, ?_⟩
  · rw [start, Layers.copyInto, view, Py.ok_bind, copy_eq sized, Py.ok_bind, before, behind]
  · rw [List.map_set, sized, ← List.map_set, List.set_getElem_self, isBlocks.sizes]
  · rw [List.set_eq_take_append_cons_drop, if_pos inside, List.flatten_append, List.flatten_cons,
      List.append_assoc]

end Loading

/-! ## What the layers compute -/

variable [Semiring R]

/-- `F.linear`, as in `ReplicatedLinear` and `ColumnParallelLinear`. -/
def Linear.forward (layer : Linear R) (x : List R) : List R :=
  match layer.bias with
  | none => apply layer.weight x
  | some bias => add (apply layer.weight x) bias

/-- The part of a rank in the output of a row parallel layer; only rank 0 adds the bias. -/
def RowParallelLinear.part (layers : PerRank (Linear R)) (x : PerRank (List R)) (rank : ℕ) :
    List R :=
  if rank = 0 then (layers rank).forward (x rank) else apply (layers rank).weight (x rank)

/-- `RowParallelLinear.forward`. -/
def RowParallelLinear.forward (tpSize : ℕ) (layers : PerRank (Linear R))
    (x : PerRank (List R)) : PerRank (List R) :=
  if 1 < tpSize then fun _ => total ((List.range tpSize).map (part layers x)) else part layers x

section Forward

variable {tpSize rank size : ℕ} {weight : List (List R)} {bias : Option (List R)} {x : List R}

/-- A rank of a column parallel layer computes its shard of the values. -/
theorem Linear.forward_shard (size : ℕ) (layer : Linear R) (rank : ℕ) (x : List R) :
    (layer.shard size rank).forward x = page size (layer.forward x) rank := by
  rcases layer with ⟨weight, bias⟩
  cases bias with
  | none => exact apply_page weight x rank
  | some bias =>
    simp only [forward, shard, Option.map_some, add, page_zipWith, apply_page]

theorem Linear.Sized.length_forward {layer : Linear R} {biased : Bool}
    (sized : layer.Sized size biased) (x : List R) : (layer.forward x).length = size := by
  rcases layer with ⟨weight, bias⟩
  cases bias with
  | none => exact length_apply.trans sized.rows
  | some bias =>
    have rows : weight.length = size := sized.rows
    have entries : bias.length = size := sized.bias bias rfl
    simp [Linear.forward, add, rows, entries]

/-- The values of one layer come before those of the other one. -/
theorem Linear.forward_merge {first second : Linear R} {size' : ℕ} {biased : Bool}
    (sized : first.Sized size biased) (sized' : second.Sized size' biased) (x : List R) :
    (first.merge second).forward x = first.forward x ++ second.forward x := by
  have both := sized.biased.trans sized'.biased.symm
  rcases first with ⟨weight, bias⟩
  rcases second with ⟨weight', bias'⟩
  cases bias with
  | none =>
    cases bias' with
    | none => exact apply_append weight weight' x
    | some bias' => cases both
  | some bias =>
    cases bias' with
    | none => cases both
    | some bias' =>
      have sameLength : (apply weight x).length = bias.length := by
        rw [length_apply, sized.rows, sized.bias bias rfl]
      simp only [forward, merge, Option.bind_some, Option.map_some, apply_append, add]
      exact List.zipWith_append sameLength

theorem foldl_add_bias (ys : List (List R)) (y bias : List R) :
    ys.foldl add (add y bias) = add (ys.foldl add y) bias := by
  induction ys generalizing y with
  | nil => rfl
  | cons next ys ih =>
    have swapped : add (add y bias) next = add (add y next) bias := by
      apply List.ext_getElem
      · simp only [add, List.length_zipWith]
        omega
      · intro i _ _
        simp only [add, List.getElem_zipWith]
        exact add_right_comm _ _ _
    rw [List.foldl_cons, swapped, ih, List.foldl_cons]

/-- The parts of all ranks add up to the values of the whole layer. -/
theorem RowParallelLinear.total_parts (layer : Linear R) (positive : 0 < tpSize)
    (long : x.length = tpSize * size) {xs : PerRank (List R)}
    (sharded : ∀ rank < tpSize, xs rank = page size x rank) :
    total ((List.range tpSize).map (part (RowParallelLinear.shard size layer) xs)) =
      layer.forward x := by
  have products := total_apply_pages layer.weight positive long.le
  rcases Nat.exists_eq_succ_of_ne_zero positive.ne' with ⟨more, rfl⟩
  rw [List.range_succ_eq_map, List.map_cons, List.map_map, total] at products ⊢
  have others : (List.range more).map (part (RowParallelLinear.shard size layer) xs ∘ Nat.succ) =
      (List.range more).map ((fun r => apply (layer.weight.map fun row => page size row r)
        (page size x r)) ∘ Nat.succ) := by
    apply List.map_congr_left
    intro r mem
    have behind := sharded (r + 1) (Nat.succ_lt_succ (List.mem_range.mp mem))
    rw [Function.comp, part, if_neg (Nat.succ_ne_zero r), behind]
    rfl
  rw [others, part, if_pos rfl, sharded 0 positive]
  rcases layer with ⟨weight, bias⟩
  cases bias with
  | none => exact products
  | some bias =>
    refine (foldl_add_bias _ _ bias).trans ?_
    exact congrArg (add · bias) products

/-- A row parallel layer computes on every rank what the whole layer does. -/
theorem RowParallelLinear.forward_shard (layer : Linear R) (inside : rank < tpSize)
    (long : x.length = tpSize * size) {xs : PerRank (List R)}
    (sharded : ∀ rank < tpSize, xs rank = page size x rank) :
    RowParallelLinear.forward tpSize (RowParallelLinear.shard size layer) xs rank =
      layer.forward x := by
  have sum := total_parts layer (Nat.zero_lt_of_lt inside) long sharded
  unfold RowParallelLinear.forward
  split
  · exact sum
  · have only : tpSize = 1 := by omega
    subst only
    cases Nat.lt_one_iff.mp inside
    exact sum

end Forward

end NanoVllm.Layers
