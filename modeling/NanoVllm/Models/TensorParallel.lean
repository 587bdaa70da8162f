import NanoVllm.Models.Qwen3

/-!
# The model in shards

Each rank holds its heads, its part of the intermediate size and its part of the vocabulary. On
every rank the hidden states of a token are those of the model on one rank, and the keys and values
are those of its heads. So the ranks sample the same token after any runs.
-/

namespace NanoVllm.Models

open Paging Sharding Layers

variable {R : Type} {config : Qwen3Config R} {tpSize rank : ℕ}

/-! ## Weights -/

/-- The weights of a layer in the checkpoint. -/
structure LayerWeights (R : Type) where
  qProj : Linear R
  kProj : Linear R
  vProj : Linear R
  oProj : Linear R
  qNorm : Option (List R)
  kNorm : Option (List R)
  gateProj : Linear R
  upProj : Linear R
  downProj : Linear R
  inputLayernorm : List R
  postAttentionLayernorm : List R

/-- The weights in the checkpoint. -/
structure Weights (R : Type) where
  embedTokens : List (List R)
  layers : List (LayerWeights R)
  norm : List R
  lmHead : List (List R)

/-- What the constructors assert of the sizes, and flash-attn of the heads. -/
structure Shardable (config : Qwen3Config R) (tpSize : ℕ) : Prop where
  positive : 0 < tpSize
  vocab : tpSize ∣ config.vocabSize
  intermediate : tpSize ∣ config.intermediateSize
  heads : tpSize ∣ config.numAttentionHeads
  kvHeads : tpSize ∣ config.numKeyValueHeads
  grouped : config.numKeyValueHeads ∣ config.numAttentionHeads

/-- Every head of a rank sees the head of its group among those of the rank. -/
theorem Shardable.group_head (shardable : Shardable config tpSize) {head : ℕ}
    (inside : head < config.numAttentionHeads / tpSize) :
    let group := config.numAttentionHeads / config.numKeyValueHeads
    config.numAttentionHeads / tpSize / (config.numKeyValueHeads / tpSize) = group ∧
      head / group < config.numKeyValueHeads / tpSize ∧
      (rank * (config.numAttentionHeads / tpSize) + head) / group =
        rank * (config.numKeyValueHeads / tpSize) + head / group := by
  have heads := Nat.mul_div_cancel' shardable.heads
  have kvHeads := Nat.mul_div_cancel' shardable.kvHeads
  have grouped := shardable.grouped
  rw [← heads, ← kvHeads] at grouped
  have same : config.numAttentionHeads / config.numKeyValueHeads =
      config.numAttentionHeads / tpSize / (config.numKeyValueHeads / tpSize) := by
    rw [← heads, ← kvHeads, Nat.mul_div_mul_left _ _ shardable.positive,
      Nat.mul_div_cancel_left _ shardable.positive, Nat.mul_div_cancel_left _ shardable.positive]
  have cut := Nat.mul_div_cancel' (Nat.dvd_of_mul_dvd_mul_left shardable.positive grouped)
  dsimp only
  rw [← same] at cut ⊢
  have positive : 0 < config.numAttentionHeads / config.numKeyValueHeads := by
    apply Nat.pos_of_ne_zero
    intro zero
    rw [zero, Nat.mul_zero] at cut
    rw [← cut] at inside
    cases inside
  refine ⟨rfl, ?_, ?_⟩
  · apply Nat.div_lt_of_lt_mul
    rw [Nat.mul_comm, cut]
    exact inside
  · rw [← cut, ← Nat.mul_assoc, Nat.add_comm, Nat.add_mul_div_right _ _ positive, Nat.add_comm]

/-- The weights of a layer have the shapes of the configuration. -/
structure LayerWeights.Shaped (config : Qwen3Config R) (weights : LayerWeights R) : Prop where
  q : weights.qProj.Sized (config.numAttentionHeads * config.headDim) config.attentionBias
  k : weights.kProj.Sized (config.numKeyValueHeads * config.headDim) config.attentionBias
  v : weights.vProj.Sized (config.numKeyValueHeads * config.headDim) config.attentionBias
  o : ∀ row ∈ weights.oProj.weight, row.length = config.numAttentionHeads * config.headDim
  gate : weights.gateProj.Sized config.intermediateSize false
  up : weights.upProj.Sized config.intermediateSize false
  down : ∀ row ∈ weights.downProj.weight, row.length = config.intermediateSize

/-- The weights have the shapes of the configuration. -/
structure Weights.Shaped (config : Qwen3Config R) (weights : Weights R) : Prop where
  embedTokens : weights.embedTokens.length = config.vocabSize
  wide : ∀ row ∈ weights.embedTokens, row.length = config.hiddenSize
  layers : ∀ layer ∈ weights.layers, layer.Shaped config
  lmHead : weights.lmHead.length = config.vocabSize

/-! ## Shards -/

variable (config) in
/-- The attention of a rank, with the shards which the weight loaders copy. -/
def LayerWeights.attention (tpSize : ℕ) (weights : LayerWeights R) (rank : ℕ) :
    Qwen3Attention R where
  numHeads := config.numAttentionHeads / tpSize
  numKvHeads := config.numKeyValueHeads / tpSize
  qkvProj :=
    (weights.qProj.shard (config.numAttentionHeads / tpSize * config.headDim) rank).merge
      ((weights.kProj.shard (config.numKeyValueHeads / tpSize * config.headDim) rank).merge
        (weights.vProj.shard (config.numKeyValueHeads / tpSize * config.headDim) rank))
  oProj := RowParallelLinear.shard (config.numAttentionHeads / tpSize * config.headDim)
    weights.oProj rank
  qNorm := weights.qNorm
  kNorm := weights.kNorm

variable (config) in
/-- The layer of a rank. -/
def LayerWeights.load (tpSize : ℕ) (weights : LayerWeights R) : PerRank (Qwen3DecoderLayer R) :=
  fun rank =>
  { selfAttn := weights.attention config tpSize rank
    gateUpProj := (weights.gateProj.shard (config.intermediateSize / tpSize) rank).merge
      (weights.upProj.shard (config.intermediateSize / tpSize) rank)
    downProj := RowParallelLinear.shard (config.intermediateSize / tpSize) weights.downProj rank
    inputLayernorm := weights.inputLayernorm
    postAttentionLayernorm := weights.postAttentionLayernorm }

variable (config) in
/-- The model on some ranks. -/
def Weights.load (tpSize : ℕ) (weights : Weights R) : Qwen3ForCausalLM R where
  embedTokens := page (config.vocabSize / tpSize) weights.embedTokens
  layers := weights.layers.map (LayerWeights.load config tpSize)
  norm := fun _ => weights.norm
  lmHead := page (config.vocabSize / tpSize) weights.lmHead

/-- The keys and the values of the heads of a rank. -/
def KV.shard (size : ℕ) (kv : KV R) (rank : ℕ) : KV R where
  keys := page size kv.keys rank
  values := page size kv.values rank

/-- The heads of a rank attend to what they attend to among all heads. -/
theorem Qwen3Attention.attend_shard {kernels : Kernels R config.headDim}
    (shardable : Shardable config tpSize) (inside : rank < tpSize)
    (q : List (List R)) (seen : List (KV R)) :
    Qwen3Attention.attend kernels (config.numAttentionHeads / tpSize)
        (config.numKeyValueHeads / tpSize) (page (config.numAttentionHeads / tpSize) q rank)
        (seen.map fun kv => kv.shard (config.numKeyValueHeads / tpSize) rank) =
      page (config.numAttentionHeads / tpSize)
        (Qwen3Attention.attend kernels config.numAttentionHeads config.numKeyValueHeads q seen)
        rank := by
  have room : (rank + 1) * (config.numAttentionHeads / tpSize) ≤ config.numAttentionHeads := by
    have more := Nat.mul_le_mul_right (config.numAttentionHeads / tpSize)
      (Nat.succ_le_of_lt inside)
    rw [Nat.mul_div_cancel' shardable.heads] at more
    exact more
  rw [Qwen3Attention.attend, Qwen3Attention.attend, page_map, page_range room, List.map_map]
  apply List.map_congr_left
  intro head mem
  have inHeads := List.mem_range.mp mem
  rcases @Shardable.group_head _ config tpSize rank shardable head inHeads with
    ⟨same, kvHead, place⟩
  have entries : ∀ kv : KV R,
      ((kv.shard (config.numKeyValueHeads / tpSize) rank).keys.getD
          (head / (config.numAttentionHeads / config.numKeyValueHeads)) [],
        (kv.shard (config.numKeyValueHeads / tpSize) rank).values.getD
          (head / (config.numAttentionHeads / config.numKeyValueHeads)) []) =
      (kv.keys.getD ((rank * (config.numAttentionHeads / tpSize) + head) /
          (config.numAttentionHeads / config.numKeyValueHeads)) [],
        kv.values.getD ((rank * (config.numAttentionHeads / tpSize) + head) /
          (config.numAttentionHeads / config.numKeyValueHeads)) []) := by
    intro kv
    simp only [List.getD_eq_getElem?_getD, KV.shard, getElem?_page kvHead, place]
  simp only [Function.comp, same, List.map_map, List.getD_eq_getElem?_getD,
    getElem?_page inHeads]
  congr 1
  apply List.map_congr_left
  intro kv _
  have entry := entries kv
  simp only [List.getD_eq_getElem?_getD] at entry
  exact entry

theorem Qwen3Attention.full_attend (kernels : Kernels R config.headDim) (numKvHeads : ℕ)
    (q : List (List R)) (seen : List (KV R)) :
    Full config.headDim
      (Qwen3Attention.attend kernels config.numAttentionHeads numKvHeads q seen) := by
  intro head mem
  rcases List.mem_map.mp mem with ⟨i, -, rfl⟩
  exact kernels.length_attend _ _

theorem Shardable.one (shardable : Shardable config tpSize) : Shardable config 1 where
  positive := Nat.one_pos
  vocab := Nat.one_dvd _
  intermediate := Nat.one_dvd _
  heads := Nat.one_dvd _
  kvHeads := Nat.one_dvd _
  grouped := shardable.grouped

/-! ## What the ranks hold -/

/-- On every rank the hidden states are those of the model on one rank. -/
def SameHidden (tpSize : ℕ) (xs xs' : PerRank (Hidden R)) : Prop :=
  ∀ rank < tpSize, xs rank = xs' 0

/-- Every rank keeps the keys and the values of its heads, and one rank keeps all of them. -/
structure Shards (config : Qwen3Config R) (tpSize : ℕ) (kv kv' : PerRank (KV R)) : Prop where
  whole : (kv' 0).shard config.numKeyValueHeads 0 = kv' 0
  shard : ∀ rank < tpSize, kv rank = (kv' 0).shard (config.numKeyValueHeads / tpSize) rank

theorem Shards.seen {seen seen' : List (PerRank (KV R))}
    (related : List.Forall₂ (Shards config tpSize) seen seen') (inside : rank < tpSize) :
    seen.map (fun kv => kv rank) = (seen'.map fun kv => kv 0).map fun kv =>
      kv.shard (config.numKeyValueHeads / tpSize) rank := by
  induction related with
  | nil => rfl
  | cons first _ ih =>
    rw [List.map_cons, List.map_cons, List.map_cons, ih, first.shard rank inside]

theorem Shards.seen_whole {seen seen' : List (PerRank (KV R))}
    (related : List.Forall₂ (Shards config tpSize) seen seen') :
    ∀ rank < 1, seen'.map (fun kv => kv rank) = (seen'.map fun kv => kv 0).map fun kv =>
      kv.shard (config.numKeyValueHeads / 1) rank := by
  intro rank inside
  cases Nat.lt_one_iff.mp inside
  rw [Nat.div_one]
  induction related with
  | nil => rfl
  | cons first _ ih => rw [List.map_cons, List.map_cons, first.whole, ← ih]

/-! ## One layer -/

variable [Field R]

/-- The query of all heads of a layer. -/
def LayerWeights.queries (kernels : Kernels R config.headDim) (weights : LayerWeights R)
    (position : ℕ) (x : List R) : List (List R) :=
  rotated kernels weights.qNorm position
    (pages config.headDim (weights.qProj.forward x) config.numAttentionHeads)

/-- The keys and the values of all heads of a layer. -/
def LayerWeights.keysValues (kernels : Kernels R config.headDim) (weights : LayerWeights R)
    (position : ℕ) (x : List R) : KV R where
  keys := rotated kernels weights.kNorm position
    (pages config.headDim (weights.kProj.forward x) config.numKeyValueHeads)
  values := pages config.headDim (weights.vProj.forward x) config.numKeyValueHeads

namespace LayerWeights

variable {position : ℕ} {weights : LayerWeights R} {x : List R}
  {kernels : Kernels R config.headDim}

theorem rotated_page (norm : Option (List R)) (size : ℕ) (heads : List (List R)) :
    rotated kernels norm position (page size heads rank) =
      page size (rotated kernels norm position heads) rank := by
  cases norm with
  | none => simp [rotated, page_map]
  | some weight => simp [rotated, page_map]

/-- A rank projects a token to its heads. -/
theorem project_attention (shaped : weights.Shaped config) (shardable : Shardable config tpSize)
    (inside : rank < tpSize) :
    (weights.attention config tpSize rank).project kernels position x =
      (page (config.numAttentionHeads / tpSize) (weights.queries kernels position x) rank,
        (weights.keysValues kernels position x).shard (config.numKeyValueHeads / tpSize) rank) := by
  have heads := Nat.mul_div_cancel' shardable.heads
  have kvHeads := Nat.mul_div_cancel' shardable.kvHeads
  have q := shaped.q
  have k := shaped.k
  have v := shaped.v
  rw [← heads, Nat.mul_assoc] at q
  rw [← kvHeads, Nat.mul_assoc] at k v
  have qkv : (weights.attention config tpSize rank).qkvProj.forward x =
      page (config.numAttentionHeads / tpSize * config.headDim) (weights.qProj.forward x) rank ++
        (page (config.numKeyValueHeads / tpSize * config.headDim) (weights.kProj.forward x) rank ++
          page (config.numKeyValueHeads / tpSize * config.headDim) (weights.vProj.forward x)
            rank) := by
    rw [attention, Linear.forward_merge (q.shard inside) ((k.shard inside).merge (v.shard inside)),
      Linear.forward_merge (k.shard inside) (v.shard inside), Linear.forward_shard,
      Linear.forward_shard, Linear.forward_shard]
  have lengthQ := length_page (q.length_forward x).ge inside
  have lengthK := length_page (k.length_forward x).ge inside
  have lengthV := length_page (v.length_forward x).ge inside
  have numHeads : (weights.attention config tpSize rank).numHeads =
      config.numAttentionHeads / tpSize := rfl
  have numKvHeads : (weights.attention config tpSize rank).numKvHeads =
      config.numKeyValueHeads / tpSize := rfl
  have qNorm : (weights.attention config tpSize rank).qNorm = weights.qNorm := rfl
  have kNorm : (weights.attention config tpSize rank).kNorm = weights.kNorm := rfl
  simp only [Qwen3Attention.project, qkv, numHeads, numKvHeads, qNorm, kNorm]
  rw [← List.drop_drop, List.take_left' lengthQ, List.drop_left' lengthQ, List.take_left' lengthK,
    List.drop_left' lengthK, List.take_of_length_le lengthV.le, pages_page_eq _ inside,
    pages_page_eq _ inside, pages_page_eq _ inside, heads, kvHeads, rotated_page, rotated_page]
  rfl

/-- What all heads of a layer attend to. -/
def attended (kernels : Kernels R config.headDim) (weights : LayerWeights R) (position : ℕ)
    (x : List R) (seen : List (KV R)) : List R :=
  (Qwen3Attention.attend kernels config.numAttentionHeads config.numKeyValueHeads
    (weights.queries kernels position x) seen).flatten

theorem length_attended (kernels : Kernels R config.headDim) (weights : LayerWeights R)
    (position : ℕ) (x : List R) (seen : List (KV R)) :
    (weights.attended kernels position x seen).length =
      config.numAttentionHeads * config.headDim := by
  rw [attended, (Qwen3Attention.full_attend kernels _ _ _).length_flatten, Qwen3Attention.attend,
    List.length_map, List.length_range]

/-- The values between the projections of the MLP. -/
def activated {headDim : ℕ} (kernels : Kernels R headDim) (weights : LayerWeights R)
    (x : List R) : List R :=
  List.zipWith (fun gate up => kernels.silu gate * up) (weights.gateProj.forward x)
    (weights.upProj.forward x)

/-- The input of the attention of a layer, and the residual. -/
def inputNormed (kernels : Kernels R config.headDim) (weights : LayerWeights R) (x : Hidden R) :
    List R × List R :=
  addRmsNorm kernels config.rmsNormEps weights.inputLayernorm x.1 x.2

/-- The input of the MLP of a layer, and the residual. -/
def postNormed (kernels : Kernels R config.headDim) (weights : LayerWeights R) (position : ℕ)
    (x : Hidden R) (seen : List (KV R)) : List R × List R :=
  let normed := weights.inputNormed kernels x
  addRmsNorm kernels config.rmsNormEps weights.postAttentionLayernorm
    (weights.oProj.forward (weights.attended kernels position normed.1 seen)) (some normed.2)

/-- What a layer makes of a token. -/
def output (kernels : Kernels R config.headDim) (weights : LayerWeights R) (position : ℕ)
    (x : Hidden R) (seen : List (KV R)) : Hidden R :=
  let normed := weights.postNormed kernels position x seen
  (weights.downProj.forward (weights.activated kernels normed.1), some normed.2)

theorem Shaped.length_activated (shaped : weights.Shaped config)
    (kernels : Kernels R config.headDim) (x : List R) :
    (weights.activated kernels x).length = config.intermediateSize := by
  rw [activated, List.length_zipWith, shaped.gate.length_forward, shaped.up.length_forward,
    Nat.min_self]

/-- A rank activates its part of the intermediate values. -/
theorem activated_load (shaped : weights.Shaped config) (shardable : Shardable config tpSize)
    (inside : rank < tpSize) (x : List R) :
    siluAndMul kernels ((weights.load config tpSize rank).gateUpProj.forward x) =
      page (config.intermediateSize / tpSize) (weights.activated kernels x) rank := by
  have intermediate := Nat.mul_div_cancel' shardable.intermediate
  have gate := shaped.gate
  have up := shaped.up
  rw [← intermediate] at gate up
  have values : (weights.load config tpSize rank).gateUpProj.forward x =
      page (config.intermediateSize / tpSize) (weights.gateProj.forward x) rank ++
        page (config.intermediateSize / tpSize) (weights.upProj.forward x) rank := by
    rw [load, Linear.forward_merge (gate.shard inside) (up.shard inside), Linear.forward_shard,
      Linear.forward_shard]
  have lengthGate := length_page (gate.length_forward x).ge inside
  have lengthUp := length_page (up.length_forward x).ge inside
  have half : (config.intermediateSize / tpSize + config.intermediateSize / tpSize + 1) / 2 =
      config.intermediateSize / tpSize := by omega
  simp only [siluAndMul, values, List.length_append, lengthGate, lengthUp, half]
  rw [List.take_left' lengthGate, List.drop_left' lengthGate, activated, page_zipWith]

variable {xs : PerRank (Hidden R)} {hidden : Hidden R} {seen : List (PerRank (KV R))}
  {all : List (KV R)}

theorem inputNormed_load (same : xs rank = hidden) :
    Qwen3DecoderLayer.inputNormed kernels (weights.load config tpSize) xs rank =
      weights.inputNormed kernels hidden := by
  rw [Qwen3DecoderLayer.inputNormed, same]
  rfl

/-- Every rank attends to the values of its heads. -/
theorem attended_load (shaped : weights.Shaped config) (shardable : Shardable config tpSize)
    (inside : rank < tpSize) (same : xs rank = hidden)
    (shards : seen.map (fun kv => kv rank) =
      all.map fun kv => kv.shard (config.numKeyValueHeads / tpSize) rank) :
    Qwen3DecoderLayer.attended kernels (weights.load config tpSize) position xs seen rank =
      page (config.numAttentionHeads / tpSize * config.headDim)
        (weights.attended kernels position (weights.inputNormed kernels hidden).1 all) rank := by
  have full : Full config.headDim (Qwen3Attention.attend kernels config.numAttentionHeads
      config.numKeyValueHeads (weights.queries kernels position
        (weights.inputNormed kernels hidden).1) all) :=
    Qwen3Attention.full_attend kernels _ _ _
  have layer : (weights.load config tpSize rank).selfAttn = weights.attention config tpSize rank :=
    rfl
  have numHeads : (weights.attention config tpSize rank).numHeads =
      config.numAttentionHeads / tpSize := rfl
  have numKvHeads : (weights.attention config tpSize rank).numKvHeads =
      config.numKeyValueHeads / tpSize := rfl
  simp only [Qwen3DecoderLayer.attended, layer, inputNormed_load same, numHeads, numKvHeads,
    project_attention shaped shardable inside, shards]
  rw [Qwen3Attention.attend_shard shardable inside, attended, full.page_flatten_mul]

theorem postNormed_load (shaped : weights.Shaped config) (shardable : Shardable config tpSize)
    (inside : rank < tpSize) (same : ∀ rank < tpSize, xs rank = hidden)
    (shards : ∀ rank < tpSize, seen.map (fun kv => kv rank) =
      all.map fun kv => kv.shard (config.numKeyValueHeads / tpSize) rank) :
    Qwen3DecoderLayer.postNormed kernels tpSize (weights.load config tpSize) position xs seen rank =
      weights.postNormed kernels position hidden all := by
  have long := weights.length_attended kernels position (weights.inputNormed kernels hidden).1 all
  rw [← Nat.mul_div_cancel' shardable.heads, Nat.mul_assoc] at long
  have projected : RowParallelLinear.forward tpSize
      (fun rank => (weights.load config tpSize rank).selfAttn.oProj)
      (Qwen3DecoderLayer.attended kernels (weights.load config tpSize) position xs seen) rank =
        weights.oProj.forward (weights.attended kernels position
          (weights.inputNormed kernels hidden).1 all) :=
    RowParallelLinear.forward_shard weights.oProj inside long fun rank inside =>
      attended_load shaped shardable inside (same rank inside) (shards rank inside)
  simp only [Qwen3DecoderLayer.postNormed, projected, inputNormed_load (same rank inside)]
  rfl

/-- Every rank computes what the whole layer does. -/
theorem output_load (shaped : weights.Shaped config) (shardable : Shardable config tpSize)
    (inside : rank < tpSize) (same : ∀ rank < tpSize, xs rank = hidden)
    (shards : ∀ rank < tpSize, seen.map (fun kv => kv rank) =
      all.map fun kv => kv.shard (config.numKeyValueHeads / tpSize) rank) :
    (Qwen3DecoderLayer.forward kernels tpSize (weights.load config tpSize)).output position xs seen
      rank = weights.output kernels position hidden all := by
  have normed : ∀ rank < tpSize,
      Qwen3DecoderLayer.postNormed kernels tpSize (weights.load config tpSize) position xs seen
        rank = weights.postNormed kernels position hidden all :=
    fun rank inside => postNormed_load shaped shardable inside same shards
  have length := shaped.length_activated kernels (weights.postNormed kernels position hidden all).1
  rw [← Nat.mul_div_cancel' shardable.intermediate] at length
  have down : RowParallelLinear.forward tpSize
      (fun rank => (weights.load config tpSize rank).downProj)
      (fun rank => siluAndMul kernels ((weights.load config tpSize rank).gateUpProj.forward
        (Qwen3DecoderLayer.postNormed kernels tpSize (weights.load config tpSize) position xs seen
          rank).1)) rank =
      weights.downProj.forward
        (weights.activated kernels (weights.postNormed kernels position hidden all).1) := by
    apply RowParallelLinear.forward_shard weights.downProj inside length
    intro rank inside
    rw [normed rank inside, activated_load shaped shardable inside]
  simp only [Qwen3DecoderLayer.forward, output, down, normed rank inside]

theorem keysValues_load (shaped : weights.Shaped config) (shardable : Shardable config tpSize)
    (inside : rank < tpSize) (same : xs rank = hidden) :
    (Qwen3DecoderLayer.forward kernels tpSize (weights.load config tpSize)).entry position xs
      rank = (weights.keysValues kernels position (weights.inputNormed kernels hidden).1).shard
        (config.numKeyValueHeads / tpSize) rank := by
  have layer : (weights.load config tpSize rank).selfAttn = weights.attention config tpSize rank :=
    rfl
  simp only [Qwen3DecoderLayer.forward, layer, inputNormed_load same,
    project_attention shaped shardable inside]

end LayerWeights

/-! ## The model -/

theorem LayerWeights.keysValues_whole {kernels : Kernels R config.headDim}
    {weights : LayerWeights R} {position : ℕ} {x : List R} :
    (weights.keysValues kernels position x).shard config.numKeyValueHeads 0 =
      weights.keysValues kernels position x := by
  have values : (weights.keysValues kernels position x).values.length =
      config.numKeyValueHeads := length_pages _
  have keys : (weights.keysValues kernels position x).keys.length = config.numKeyValueHeads := by
    rw [keysValues]
    cases norm : weights.kNorm <;> simp [rotated]
  rw [KV.shard, page_zero, page_zero, List.take_of_length_le keys.le,
    List.take_of_length_le values.le]

/-- A layer in shards simulates the layer on one rank. -/
theorem LayerWeights.simulates (kernels : Kernels R config.headDim) {weights : LayerWeights R}
    (shaped : weights.Shaped config) (shardable : Shardable config tpSize) :
    CausalLayer.Simulates (Shards config tpSize) (SameHidden tpSize)
      (Qwen3DecoderLayer.forward kernels tpSize (weights.load config tpSize))
      (Qwen3DecoderLayer.forward kernels 1 (weights.load config 1)) where
  entry := by
    intro position xs xs' same
    have whole : (Qwen3DecoderLayer.forward kernels 1 (weights.load config 1)).entry position xs'
        0 = weights.keysValues kernels position (weights.inputNormed kernels (xs' 0)).1 := by
      rw [keysValues_load shaped shardable.one Nat.one_pos rfl, Nat.div_one, keysValues_whole]
    constructor
    · rw [whole, keysValues_whole]
    · intro rank inside
      rw [whole, keysValues_load shaped shardable inside (same rank inside)]
  output := by
    intro position xs xs' seen seen' same related rank inside
    have one : ∀ rank < 1, xs' rank = xs' 0 := by
      intro rank inside
      rw [Nat.lt_one_iff.mp inside]
    rw [output_load shaped shardable inside same fun rank inside => Shards.seen related inside]
    exact (output_load shaped shardable.one Nat.one_pos one (Shards.seen_whole related)).symm

namespace Weights

variable {weights : Weights R}

/-- Every rank gets the embedding of a token of the vocabulary. -/
theorem embed_load (shaped : weights.Shaped config) (shardable : Shardable config tpSize)
    (inside : rank < tpSize) {token : Token} (known : 0 ≤ token ∧ token < config.vocabSize) :
    Qwen3ForCausalLM.embed tpSize (weights.load config tpSize) token rank =
      (embedding weights.embedTokens token, none) := by
  have vocab := Nat.mul_div_cancel' shardable.vocab
  have long : weights.embedTokens.length = tpSize * (config.vocabSize / tpSize) :=
    shaped.embedTokens.trans vocab.symm
  rw [← vocab] at known
  exact congrArg (·, none) (VocabParallelEmbedding.forward_shard long shaped.wide inside known)

/-- The logits are those of the whole head. -/
theorem computeLogits_load (kernels : Kernels R config.headDim) (shaped : weights.Shaped config)
    (shardable : Shardable config tpSize) {xs : PerRank (Hidden R)} {hidden : Hidden R}
    (same : ∀ rank < tpSize, xs rank = hidden) :
    Qwen3ForCausalLM.computeLogits kernels tpSize (weights.load config tpSize) xs =
      apply weights.lmHead
        (addRmsNorm kernels config.rmsNormEps weights.norm hidden.1 hidden.2).1 := by
  have long : weights.lmHead.length = tpSize * (config.vocabSize / tpSize) :=
    shaped.lmHead.trans (Nat.mul_div_cancel' shardable.vocab).symm
  apply ParallelLMHead.forward_shard long shardable.positive
  intro rank inside
  rw [same rank inside]
  rfl

/-- The model in shards simulates the model on one rank. -/
theorem simulates (kernels : Kernels R config.headDim) (shaped : weights.Shaped config)
    (shardable : Shardable config tpSize) :
    CausalLayer.SimulatesModel (Shards config tpSize) (SameHidden tpSize)
      ((weights.load config tpSize).layers.map (Qwen3DecoderLayer.forward kernels tpSize))
      ((weights.load config 1).layers.map (Qwen3DecoderLayer.forward kernels 1))
      (Qwen3ForCausalLM.embed tpSize (weights.load config tpSize))
      (Qwen3ForCausalLM.embed 1 (weights.load config 1))
      (Qwen3ForCausalLM.sample kernels tpSize (weights.load config tpSize))
      (Qwen3ForCausalLM.sample kernels 1 (weights.load config 1))
      fun token => 0 ≤ token ∧ token < config.vocabSize where
  stack := by
    simp only [load, List.map_map, List.forall₂_map_left_iff, List.forall₂_map_right_iff,
      List.forall₂_same]
    intro layer mem
    exact LayerWeights.simulates kernels (shaped.layers layer mem) shardable
  embedded := by
    intro token known rank inside
    rw [embed_load shaped shardable inside known,
      embed_load shaped shardable.one Nat.one_pos known]
  sampled := by
    intro xs xs' same
    have one : ∀ rank < 1, xs' rank = xs' 0 := by
      intro rank inside
      rw [Nat.lt_one_iff.mp inside]
    simp only [Qwen3ForCausalLM.sample, computeLogits_load kernels shaped shardable same,
      computeLogits_load kernels shaped shardable.one one]
  nothing := rfl

/--
However a text is cut into runs, the ranks sample after each run what one rank samples after a run
of all tokens up to there, and each keeps the keys and the values of its heads.
-/
theorem tensor_parallel (kernels : Kernels R config.headDim) (shaped : weights.Shaped config)
    (shardable : Shardable config tpSize) {chunks : List (List Token)}
    (nonempty : ∀ chunk ∈ chunks, chunk ≠ [])
    (known : ∀ chunk ∈ chunks, ∀ token ∈ chunk, 0 ≤ token ∧ token < config.vocabSize) :
    List.Forall₂ (List.Forall₂ (Shards config tpSize))
        (((weights.load config tpSize).cachedModel kernels tpSize).runChunks [] chunks).1
        (((weights.load config 1).cachedModel kernels 1).entries chunks.flatten) ∧
      (((weights.load config tpSize).cachedModel kernels tpSize).runChunks [] chunks).2 =
        chunks.inits.tail.map fun upTo =>
          ((weights.load config 1).cachedModel kernels 1).next upTo.flatten := by
  have related := (simulates kernels shaped shardable).runChunks known .nil
  have plain := ((weights.load config 1).cachedModel kernels 1).runChunks_eq [] nonempty
  have nothing : ((weights.load config 1).cachedModel kernels 1).entries [] = [] :=
    List.length_eq_zero_iff.mp (CachedModel.length_entries _ [])
  rw [nothing] at plain
  simp only [List.nil_append] at plain
  have entries := congrArg Prod.fst plain
  have sampled := congrArg Prod.snd plain
  dsimp only at entries sampled
  rw [← entries, ← sampled]
  exact related

end Weights

/-! ## Two ranks -/

/-- A model with two heads of one number each. -/
def pairConfig : Qwen3Config ℚ where
  vocabSize := 2
  hiddenSize := 1
  intermediateSize := 2
  numAttentionHeads := 2
  numKeyValueHeads := 2
  headDim := 1
  rmsNormEps := 1
  attentionBias := false

theorem length_sum (_query : List ℚ) (seen : List (List ℚ × List ℚ)) :
    [(seen.map fun kv => kv.2.headI).sum].length = pairConfig.headDim := rfl

/-- Functions without roots, where each head adds the values which it sees. -/
def pairKernels : Kernels ℚ pairConfig.headDim where
  rsqrt := fun x => 1 / x
  silu := fun x => x
  cosSin := fun position => ([(position : ℚ)], [1])
  attend := fun _ seen => [(seen.map fun kv => kv.2.headI).sum]
  length_attend := length_sum
  sampler := fun logits => if logits.headI < 2 then 1 else 0

/-- Weights of a model with one layer. -/
def pairWeights : Weights ℚ where
  embedTokens := [[1], [2]]
  layers := [{
    qProj := ⟨[[1], [2]], none⟩
    kProj := ⟨[[3], [4]], none⟩
    vProj := ⟨[[5], [6]], none⟩
    oProj := ⟨[[1, 2]], none⟩
    qNorm := some [1]
    kNorm := some [1]
    gateProj := ⟨[[1], [1]], none⟩
    upProj := ⟨[[1], [3]], none⟩
    downProj := ⟨[[2, 1]], none⟩
    inputLayernorm := [1]
    postAttentionLayernorm := [1] }]
  norm := [1]
  lmHead := [[1], [2]]

theorem pairWeights_shaped : pairWeights.Shaped pairConfig where
  embedTokens := rfl
  wide := by decide
  layers := by
    intro layer mem
    cases List.mem_singleton.mp mem
    refine ⟨?_, ?_, ?_, by decide, ?_, ?_, by decide⟩ <;> constructor <;> simp [pairConfig]
  lmHead := rfl

theorem pairConfig_shardable : Shardable pairConfig 2 := by
  constructor <;> decide

/-- A prompt of two tokens, and a token after it. -/
theorem Weights.tensor_parallel_pair :
    (((pairWeights.load pairConfig 2).cachedModel pairKernels 2).runChunks [] [[0, 1], [1]]).2 =
      [((pairWeights.load pairConfig 1).cachedModel pairKernels 1).next [0, 1],
        ((pairWeights.load pairConfig 1).cachedModel pairKernels 1).next [0, 1, 1]] :=
  (Weights.tensor_parallel pairKernels pairWeights_shaped pairConfig_shardable
    (by decide) (by decide)).2

end NanoVllm.Models
