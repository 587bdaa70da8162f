import Mathlib.Data.List.SplitLengths
import Mathlib.Data.Nat.ModEq
import NanoVllm.Models.TensorParallel

/-!
# Loading the shards

The shards of a parameter are copied one by one, in the order in which the files of the checkpoint
hold them. Whatever this order is and whatever the parameters held before, a rank ends up with the
layer which `LayerWeights.load` describes.
-/

namespace NanoVllm.Layers

open Paging

variable {α ι : Type}

/-- The weight loader of a parameter is called for some shards in order. -/
def loadShards (weightLoader : List α → List α → ι → Py (List α)) (param : List α) :
    List (ι × List α) → Py (List α)
  | [] => .ok param
  | (shardId, loadedWeight) :: rest => do
      let param ← weightLoader param loadedWeight shardId
      loadShards weightLoader param rest

theorem exists_blocks {sizes : List ℕ} {param : List α} (sized : param.length = sizes.sum) :
    ∃ blocks, Blocks sizes param blocks :=
  ⟨sizes.splitLengths param, List.map_splitLengths_length param sizes sized.ge,
    (List.flatten_splitLengths param sizes sized.le).symm⟩

/-- A weight loader copies each shard into the place of its block. -/
structure LoadsBlocks (weightLoader : List α → List α → ι → Py (List α)) (sizes : List ℕ)
    (index : ι → ℕ) (weights shards : ι → List α) : Prop where
  distinct : Function.Injective index
  loads : ∀ param blocks shardId, Blocks sizes param blocks → index shardId < sizes.length →
    ∃ param', weightLoader param (weights shardId) shardId = .ok param' ∧
      Blocks sizes param' (blocks.set (index shardId) (shards shardId))

namespace LoadsBlocks

variable {weightLoader : List α → List α → ι → Py (List α)} {sizes : List ℕ} {index : ι → ℕ}
  {weights shards : ι → List α}

/-- The blocks which have been loaded are the shards. -/
theorem loadShards_ok (isLoader : LoadsBlocks weightLoader sizes index weights shards)
    (ids : List ι) {param : List α} {blocks : List (List α)} (isBlocks : Blocks sizes param blocks)
    {done : List ι} (loaded : ∀ id ∈ done, blocks[index id]? = some (shards id))
    (inside : ∀ id ∈ ids, index id < sizes.length) :
    ∃ param' blocks', loadShards weightLoader param (ids.map fun id => (id, weights id)) =
        .ok param' ∧ Blocks sizes param' blocks' ∧
      ∀ id ∈ done ++ ids, blocks'[index id]? = some (shards id) := by
  induction ids generalizing param blocks done with
  | nil =>
    refine ⟨param, blocks, rfl, isBlocks, ?_⟩
    rw [List.append_nil]
    exact loaded
  | cons id ids ih =>
    rw [List.forall_mem_cons] at inside
    rcases isLoader.loads param blocks id isBlocks inside.1 with ⟨param', loads, isBlocks'⟩
    have length : blocks.length = sizes.length := by
      rw [← isBlocks.sizes, List.length_map]
    have now : ∀ other ∈ done ++ [id],
        (blocks.set (index id) (shards id))[index other]? = some (shards other) := by
      intro other mem
      by_cases same : index id = index other
      · cases isLoader.distinct same
        rw [List.getElem?_set_self (length ▸ inside.1)]
      · rw [List.getElem?_set_ne same]
        apply loaded
        rcases List.mem_append.mp mem with before | last
        · exact before
        · exact absurd (congrArg index (List.mem_singleton.mp last).symm) same
    rcases ih isBlocks' now inside.2 with ⟨final, blocks', rest, isBlocks'', all⟩
    refine ⟨final, blocks', ?_, isBlocks'', ?_⟩
    · rw [List.map_cons, loadShards, loads, Py.ok_bind, rest]
    · rw [List.append_assoc] at all
      exact all

/-- After all shards the parameter consists of them, in the order of their places. -/
theorem loadShards_all (isLoader : LoadsBlocks weightLoader sizes index weights shards)
    {ids places : List ι} (listed : places.map index = List.range sizes.length)
    (all : ∀ id ∈ places, id ∈ ids) (inside : ∀ id ∈ ids, index id < sizes.length)
    {param : List α} (sized : param.length = sizes.sum) :
    loadShards weightLoader param (ids.map fun id => (id, weights id)) =
      .ok (places.map shards).flatten := by
  rcases exists_blocks sized with ⟨blocks, isBlocks⟩
  have nothing : ∀ id ∈ ([] : List ι), blocks[index id]? = some (shards id) := by simp
  rcases isLoader.loadShards_ok ids isBlocks nothing inside with
    ⟨param', blocks', loads, isBlocks', loaded⟩
  rw [loads, isBlocks'.joined]
  congr 2
  have length : blocks'.length = sizes.length := by
    rw [← isBlocks'.sizes, List.length_map]
  have many : places.length = sizes.length := by
    rw [← List.length_map (f := index), listed, List.length_range]
  apply List.ext_getElem?
  intro i
  rw [List.getElem?_map]
  rcases Nat.lt_or_ge i sizes.length with short | long
  · have place : places[i]? = some places[i] := List.getElem?_eq_getElem (many ▸ short)
    have isIndex : index places[i] = i := by
      have same := congrArg (·[i]?) listed
      rw [List.getElem?_map, place, List.getElem?_range short] at same
      exact Option.some.inj same
    have mem : places[i] ∈ [] ++ ids := all _ (List.getElem_mem _)
    have block := loaded _ mem
    rw [isIndex] at block
    rw [block, place]
    rfl
  · rw [List.getElem?_eq_none (length ▸ long), List.getElem?_eq_none (many ▸ long)]
    rfl

end LoadsBlocks

/-! ## The loaders -/

variable {R : Type} {tpSize rank : ℕ}

/-- The place of a shard among the rows of `qkv_proj`. -/
def QKVShardId.index : QKVShardId → ℕ
  | .q => 0
  | .k => 1
  | .v => 2

/-- The number of rows of a shard. -/
def QKVShardId.size (headSize numHeads numKvHeads : ℕ) : QKVShardId → ℕ
  | .q => numHeads * headSize
  | .k => numKvHeads * headSize
  | .v => numKvHeads * headSize

theorem QKVParallelLinear.loadsBlocks {headSize numHeads numKvHeads : ℕ}
    {weights : QKVShardId → List α} (inside : rank < tpSize)
    (long : ∀ id, (weights id).length = tpSize * id.size headSize numHeads numKvHeads) :
    LoadsBlocks (weightLoader headSize numHeads numKvHeads tpSize rank)
      [numHeads * headSize, numKvHeads * headSize, numKvHeads * headSize] QKVShardId.index weights
      fun id => page (id.size headSize numHeads numKvHeads) (weights id) rank where
  distinct := by
    intro id id' same
    cases id <;> cases id' <;> first | rfl | cases same
  loads := by
    intro param blocks id isBlocks _
    have shard := chunk_page (long id) inside
    have sized := length_page (long id).ge inside
    have get : [numHeads * headSize, numKvHeads * headSize, numKvHeads * headSize][id.index]? =
        some (id.size headSize numHeads numKvHeads) := by
      cases id <;> rfl
    rcases isBlocks.copyInto get sized with ⟨param', copied, isBlocks'⟩
    refine ⟨param', ?_, isBlocks'⟩
    unfold weightLoader
    simp only [shard, Py.ok_bind]
    rw [← copied]
    cases id <;> simp [QKVShardId.index, QKVShardId.size]

theorem sum_div {sizes : List ℕ} (divides : ∀ size ∈ sizes, tpSize ∣ size) :
    sizes.sum / tpSize = (sizes.map (· / tpSize)).sum := by
  induction sizes with
  | nil => simp
  | cons size sizes ih =>
    rw [List.forall_mem_cons] at divides
    rw [List.sum_cons, Nat.add_div_of_dvd_right divides.1, ih divides.2, List.map_cons,
      List.sum_cons]

theorem MergedColumnParallelLinear.loadsBlocks {outputSizes : List ℕ} {weights : ℕ → List α}
    (divides : ∀ size ∈ outputSizes, tpSize ∣ size) (inside : rank < tpSize)
    (long : ∀ i size, outputSizes[i]? = some size → (weights i).length = size) :
    LoadsBlocks (weightLoader outputSizes tpSize rank) (outputSizes.map (· / tpSize)) id weights
      fun i => page (outputSizes.getD i 0 / tpSize) (weights i) rank where
  distinct := Function.injective_id
  loads := by
    intro param blocks i isBlocks short
    rw [List.length_map] at short
    have get : outputSizes[i]? = some outputSizes[i] := List.getElem?_eq_getElem short
    have isSize : outputSizes.getD i 0 = outputSizes[i] := by
      rw [List.getD_eq_getElem?_getD, get, Option.getD_some]
    have whole := Nat.mul_div_cancel' (divides _ (List.getElem_mem short))
    have rows : (weights i).length = tpSize * (outputSizes[i] / tpSize) :=
      (long i _ get).trans whole.symm
    have start : (outputSizes.take i).sum / tpSize =
        ((outputSizes.map (· / tpSize)).take i).sum := by
      rw [← List.map_take]
      apply sum_div
      intro size mem
      exact divides size (List.mem_of_mem_take mem)
    have getPart : (outputSizes.map (· / tpSize))[i]? = some (outputSizes[i] / tpSize) := by
      rw [List.getElem?_map, get]
      rfl
    rcases isBlocks.copyInto getPart (length_page rows.ge inside) with
      ⟨param', copied, isBlocks'⟩
    refine ⟨param', ?_, ?_⟩
    · rw [weightLoader]
      simp only [get, chunk_page rows inside, Py.ok_bind, start]
      exact copied
    · rw [isSize]
      exact isBlocks'

/-- A rank of a row parallel layer keeps its shard of the columns. -/
theorem RowParallelLinear.weightLoader_eq {size : ℕ} {param loaded : List (List R)}
    (inside : rank < tpSize) (long : ∀ row ∈ loaded, row.length = tpSize * size)
    (sameLength : loaded.length = param.length) :
    RowParallelLinear.weightLoader rank size param loaded =
      .ok (loaded.map fun row => page size row rank) := by
  have rows : loaded.mapM (fun row => narrow row (rank * size) size) =
      (.ok (loaded.map fun row => page size row rank) : Py (List (List R))) := by
    clear sameLength
    induction loaded with
    | nil => rfl
    | cons row loaded ih =>
      rw [List.forall_mem_cons] at long
      rw [List.mapM_cons, narrow_page long.1 inside, ih long.2]
      rfl
  rw [weightLoader, rows, Py.ok_bind, copy_eq]
  rw [List.length_map]
  exact sameLength

end NanoVllm.Layers

namespace NanoVllm.Models

open Paging Layers

variable {R : Type} {config : Qwen3Config R} {tpSize rank : ℕ}

/-- The projection whose tensors have the given shard id. -/
def LayerWeights.projection (weights : LayerWeights R) : QKVShardId → Linear R
  | .q => weights.qProj
  | .k => weights.kProj
  | .v => weights.vProj

/-- The matrix whose rows have the given shard id. -/
def LayerWeights.gateUp (weights : LayerWeights R) : ℕ → List (List R)
  | 0 => weights.gateProj.weight
  | _ => weights.upProj.weight

variable (config) in
/-- The number of rows of `qkv_proj` on a rank. -/
def qkvSize (tpSize : ℕ) : ℕ :=
  [config.numAttentionHeads / tpSize * config.headDim,
    config.numKeyValueHeads / tpSize * config.headDim,
    config.numKeyValueHeads / tpSize * config.headDim].sum

/-- The weight loaders of a layer make the layer of a rank, from any parameters of its sizes. -/
structure LayerWeights.Loads (config : Qwen3Config R) (tpSize rank : ℕ)
    (weights : LayerWeights R) : Prop where
  qkvWeight : ∀ {ids : List QKVShardId} {param : List (List R)}, (∀ id, id ∈ ids) →
    param.length = qkvSize config tpSize →
    loadShards (QKVParallelLinear.weightLoader config.headDim (config.numAttentionHeads / tpSize)
        (config.numKeyValueHeads / tpSize) tpSize rank) param
        (ids.map fun id => (id, (weights.projection id).weight)) =
      .ok (weights.load config tpSize rank).selfAttn.qkvProj.weight
  qkvBias : ∀ {ids : List QKVShardId} {param : List R} {biases : QKVShardId → List R},
    (∀ id, id ∈ ids) → param.length = qkvSize config tpSize →
    (∀ id, (weights.projection id).bias = some (biases id)) → ∃ bias,
      loadShards (QKVParallelLinear.weightLoader config.headDim (config.numAttentionHeads / tpSize)
        (config.numKeyValueHeads / tpSize) tpSize rank) param
        (ids.map fun id => (id, biases id)) = .ok bias ∧
      (weights.load config tpSize rank).selfAttn.qkvProj.bias = some bias
  gateUpWeight : ∀ {ids : List ℕ} {param : List (List R)}, (∀ id, id ∈ ids ↔ id < 2) →
    param.length = config.intermediateSize / tpSize + config.intermediateSize / tpSize →
    loadShards (MergedColumnParallelLinear.weightLoader
        [config.intermediateSize, config.intermediateSize] tpSize rank) param
        (ids.map fun id => (id, weights.gateUp id)) =
      .ok (weights.load config tpSize rank).gateUpProj.weight
  oWeight : ∀ {param : List (List R)}, param.length = weights.oProj.weight.length →
    RowParallelLinear.weightLoader rank (config.numAttentionHeads / tpSize * config.headDim) param
      weights.oProj.weight = .ok (weights.load config tpSize rank).selfAttn.oProj.weight
  downWeight : ∀ {param : List (List R)}, param.length = weights.downProj.weight.length →
    RowParallelLinear.weightLoader rank (config.intermediateSize / tpSize) param
      weights.downProj.weight = .ok (weights.load config tpSize rank).downProj.weight

/-- The weight loaders make the model of a rank. -/
structure Weights.Loads (config : Qwen3Config R) (tpSize rank : ℕ) (weights : Weights R) :
    Prop where
  embedTokens : ∀ {param : List (List R)}, param.length = config.vocabSize / tpSize →
    ColumnParallelLinear.weightLoader rank param weights.embedTokens =
      .ok ((weights.load config tpSize).embedTokens rank)
  layers : ∀ layer ∈ weights.layers, layer.Loads config tpSize rank
  lmHead : ∀ {param : List (List R)}, param.length = config.vocabSize / tpSize →
    ColumnParallelLinear.weightLoader rank param weights.lmHead =
      .ok ((weights.load config tpSize).lmHead rank)

namespace LayerWeights

variable {weights : LayerWeights R}

theorem Shaped.sized_projection (shaped : weights.Shaped config)
    (shardable : Shardable config tpSize) (id : QKVShardId) :
    (weights.projection id).Sized (tpSize * id.size config.headDim
      (config.numAttentionHeads / tpSize) (config.numKeyValueHeads / tpSize))
        config.attentionBias := by
  have heads := Nat.mul_div_cancel' shardable.heads
  have kvHeads := Nat.mul_div_cancel' shardable.kvHeads
  cases id with
  | q =>
    rw [QKVShardId.size, ← Nat.mul_assoc, heads]
    exact shaped.q
  | k =>
    rw [QKVShardId.size, ← Nat.mul_assoc, kvHeads]
    exact shaped.k
  | v =>
    rw [QKVShardId.size, ← Nat.mul_assoc, kvHeads]
    exact shaped.v

theorem Shaped.loads_layer (shaped : weights.Shaped config) (shardable : Shardable config tpSize)
    (inside : rank < tpSize) : weights.Loads config tpSize rank where
  qkvWeight := by
    intro ids param all sized
    have isLoader := QKVParallelLinear.loadsBlocks inside fun id =>
      (shaped.sized_projection shardable id).rows
    have loads := @LoadsBlocks.loadShards_all _ _ _ _ _ _ _ isLoader ids [.q, .k, .v] rfl
      (fun id _ => all id) (by intro id _; cases id <;> simp [QKVShardId.index]) param sized
    rw [loads]
    simp [LayerWeights.load, attention, Linear.merge, Linear.shard, projection, QKVShardId.size]
  qkvBias := by
    intro ids param biases all sized biased
    have isLoader := QKVParallelLinear.loadsBlocks inside fun id =>
      (shaped.sized_projection shardable id).bias _ (biased id)
    have loads := @LoadsBlocks.loadShards_all _ _ _ _ _ _ _ isLoader ids [.q, .k, .v] rfl
      (fun id _ => all id) (by intro id _; cases id <;> simp [QKVShardId.index]) param sized
    refine ⟨_, loads, ?_⟩
    have q : weights.qProj.bias = some (biases .q) := biased .q
    have k : weights.kProj.bias = some (biases .k) := biased .k
    have v : weights.vProj.bias = some (biases .v) := biased .v
    simp [LayerWeights.load, attention, Linear.merge, Linear.shard, q, k, v, QKVShardId.size]
  gateUpWeight := by
    intro ids param all sized
    have divides : ∀ size ∈ [config.intermediateSize, config.intermediateSize], tpSize ∣ size := by
      simp [shardable.intermediate]
    have long : ∀ i size, [config.intermediateSize, config.intermediateSize][i]? = some size →
        (weights.gateUp i).length = size := by
      intro i size get
      cases i with
      | zero => exact shaped.gate.rows.trans (Option.some.inj get)
      | succ i =>
        cases i with
        | zero => exact shaped.up.rows.trans (Option.some.inj get)
        | succ i => simp at get
    have isLoader := MergedColumnParallelLinear.loadsBlocks divides inside long
    have loads := @LoadsBlocks.loadShards_all _ _ _ _ _ _ _ isLoader ids [0, 1] rfl
      (fun id mem => (all id).mpr (by simp at mem; omega)) (fun id mem => (all id).mp mem) param
      (by simpa using sized)
    rw [loads]
    simp [LayerWeights.load, Linear.merge, Linear.shard, gateUp]
  oWeight := by
    intro param sized
    have long := shaped.o
    rw [← Nat.mul_div_cancel' shardable.heads, Nat.mul_assoc] at long
    exact RowParallelLinear.weightLoader_eq inside long sized.symm
  downWeight := by
    intro param sized
    have long := shaped.down
    rw [← Nat.mul_div_cancel' shardable.intermediate] at long
    exact RowParallelLinear.weightLoader_eq inside long sized.symm

end LayerWeights

/--
The weight loaders raise nothing on a checkpoint of the right shapes, and in whichever order the
shards of a parameter come, a rank has loaded its model.
-/
theorem Weights.loads {weights : Weights R} (shaped : weights.Shaped config)
    (shardable : Shardable config tpSize) (inside : rank < tpSize) :
    weights.Loads config tpSize rank where
  embedTokens := by
    intro param sized
    have long := shaped.embedTokens.trans (Nat.mul_div_cancel' shardable.vocab).symm
    exact ColumnParallelLinear.weightLoader_eq long sized inside
  layers := fun layer mem => (shaped.layers layer mem).loads_layer shardable inside
  lmHead := by
    intro param sized
    have long := shaped.lmHead.trans (Nat.mul_div_cancel' shardable.vocab).symm
    exact ColumnParallelLinear.weightLoader_eq long sized inside

theorem Weights.loads_pair : pairWeights.Loads pairConfig 2 1 :=
  Weights.loads pairWeights_shaped pairConfig_shardable Nat.one_lt_two

end NanoVllm.Models
