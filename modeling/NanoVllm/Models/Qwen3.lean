import Mathlib.Algebra.Field.Defs
import NanoVllm.Layers.EmbedHead
import NanoVllm.Library.CausalStack

/-!
# The model

`Qwen3ForCausalLM` on the ranks of a tensor parallel group. Only attention looks at other positions
than its own, and it does so through the keys and the values which a layer keeps for a position. So
the decoder layers are a stack of causal layers, over what all ranks hold.

The functions of PyTorch on numbers, the tables of the rotary embedding, the sampler and the
attention of flash-attn to the keys and values of one head are parameters. A key and a value have
the shape `[num_kv_heads, head_dim]`.
-/

namespace NanoVllm.Models

open Paging Sharding Layers

variable {R : Type} [Field R]

/-- The fields of the configuration which the model reads. -/
structure Qwen3Config (R : Type) where
  vocabSize : ℕ
  hiddenSize : ℕ
  intermediateSize : ℕ
  numAttentionHeads : ℕ
  numKeyValueHeads : ℕ
  headDim : ℕ
  rmsNormEps : R
  attentionBias : Bool

/-- The functions which the layers call. -/
structure Kernels (R : Type) (headDim : ℕ) where
  rsqrt : R → R
  silu : R → R
  /-- The two halves of a row of `cos_sin_cache`. -/
  cosSin : ℕ → List R × List R
  /-- The attention of a query to the keys and the values of a head. -/
  attend : List R → List (List R × List R) → List R
  length_attend : ∀ query seen, (attend query seen).length = headDim
  /-- The token which is sampled from some logits. -/
  sampler : List R → Token

/-- The keys and the values of a position, by heads. -/
structure KV (R : Type) where
  keys : List (List R)
  values : List (List R)
  deriving DecidableEq

/-! ## Layers without weights in shards -/

/-- `RMSNorm.forward`: the normed vector, and the residual. -/
def rmsNorm {headDim : ℕ} (kernels : Kernels R headDim) (eps : R) (weight x : List R) : List R :=
  let var := (x.map fun y => y ^ 2).sum / (x.length : R)
  List.zipWith (· * ·) (x.map (· * kernels.rsqrt (var + eps))) weight

/-- `RMSNorm.forward` with a residual, if there is one. -/
def addRmsNorm {headDim : ℕ} (kernels : Kernels R headDim) (eps : R) (weight x : List R)
    (residual : Option (List R)) : List R × List R :=
  match residual with
  | none => (rmsNorm kernels eps weight x, x)
  | some residual => (rmsNorm kernels eps weight (add x residual), add x residual)

/-- `apply_rotary_emb`. -/
def applyRotaryEmb (x cos sin : List R) : List R :=
  let half := (x.length + 1) / 2
  let x1 := x.take half
  let x2 := x.drop half
  let y1 := List.zipWith (· - ·) (List.zipWith (· * ·) x1 cos) (List.zipWith (· * ·) x2 sin)
  let y2 := List.zipWith (· + ·) (List.zipWith (· * ·) x2 cos) (List.zipWith (· * ·) x1 sin)
  y1 ++ y2

/-- `SiluAndMul.forward`. -/
def siluAndMul {headDim : ℕ} (kernels : Kernels R headDim) (x : List R) : List R :=
  let half := (x.length + 1) / 2
  List.zipWith (fun x y => kernels.silu x * y) (x.take half) (x.drop half)

/-! ## The layers of a rank -/

/-- `Qwen3Attention`. -/
structure Qwen3Attention (R : Type) where
  numHeads : ℕ
  numKvHeads : ℕ
  qkvProj : Linear R
  oProj : Linear R
  qNorm : Option (List R)
  kNorm : Option (List R)

/-- `Qwen3DecoderLayer`. -/
structure Qwen3DecoderLayer (R : Type) where
  selfAttn : Qwen3Attention R
  gateUpProj : Linear R
  downProj : Linear R
  inputLayernorm : List R
  postAttentionLayernorm : List R

variable {config : Qwen3Config R}

/-- The norm and the rotary embedding of the heads of a query or of a key. -/
def rotated (kernels : Kernels R config.headDim) (norm : Option (List R)) (position : ℕ)
    (heads : List (List R)) : List (List R) :=
  let normed := match norm with
    | none => heads
    | some weight => heads.map (rmsNorm kernels config.rmsNormEps weight)
  normed.map fun head =>
    applyRotaryEmb head (kernels.cosSin position).1 (kernels.cosSin position).2

namespace Qwen3Attention

/-- The query of a token, and its key and value. -/
def project (kernels : Kernels R config.headDim) (attn : Qwen3Attention R) (position : ℕ)
    (hiddenStates : List R) : List (List R) × KV R :=
  let qSize := attn.numHeads * config.headDim
  let kvSize := attn.numKvHeads * config.headDim
  let qkv := attn.qkvProj.forward hiddenStates
  let q := pages config.headDim (qkv.take qSize) attn.numHeads
  let k := pages config.headDim ((qkv.drop qSize).take kvSize) attn.numKvHeads
  let v := pages config.headDim ((qkv.drop (qSize + kvSize)).take kvSize) attn.numKvHeads
  (rotated kernels attn.qNorm position q,
    { keys := rotated kernels attn.kNorm position k, values := v })

/-- `self.attn`: a head of the query sees the head of the keys and values of its group. -/
def attend (kernels : Kernels R config.headDim) (numHeads numKvHeads : ℕ) (q : List (List R))
    (seen : List (KV R)) : List (List R) :=
  (List.range numHeads).map fun head =>
    let kvHead := head / (numHeads / numKvHeads)
    kernels.attend (q.getD head [])
      (seen.map fun kv => (kv.keys.getD kvHead [], kv.values.getD kvHead []))

end Qwen3Attention

/-! ## The layers on all ranks -/

/-- `hidden_states` and `residual` of a token. -/
abbrev Hidden (R : Type) := List R × Option (List R)

namespace Qwen3DecoderLayer

variable (kernels : Kernels R config.headDim) (tpSize : ℕ) (layers : PerRank (Qwen3DecoderLayer R))

/-- `input_layernorm` on a rank. -/
def inputNormed (x : PerRank (Hidden R)) (rank : ℕ) : List R × List R :=
  addRmsNorm kernels config.rmsNormEps (layers rank).inputLayernorm (x rank).1 (x rank).2

/-- The output of the attention of a rank, without `o_proj`. -/
def attended (position : ℕ) (x : PerRank (Hidden R)) (seen : List (PerRank (KV R))) (rank : ℕ) :
    List R :=
  let attn := (layers rank).selfAttn
  let projected := attn.project kernels position (inputNormed kernels layers x rank).1
  (Qwen3Attention.attend kernels attn.numHeads attn.numKvHeads projected.1
    (seen.map fun kv => kv rank)).flatten

/-- `post_attention_layernorm` on a rank. -/
def postNormed (position : ℕ) (x : PerRank (Hidden R)) (seen : List (PerRank (KV R)))
    (rank : ℕ) : List R × List R :=
  let hiddenStates := RowParallelLinear.forward tpSize (fun rank => (layers rank).selfAttn.oProj)
    (attended kernels layers position x seen)
  addRmsNorm kernels config.rmsNormEps (layers rank).postAttentionLayernorm (hiddenStates rank)
    (some (inputNormed kernels layers x rank).2)

/-- `forward`: the keys and values of a token, and its hidden states behind those seen. -/
def forward : CausalLayer (PerRank (KV R)) (PerRank (Hidden R)) where
  entry position x rank :=
    ((layers rank).selfAttn.project kernels position (inputNormed kernels layers x rank).1).2
  output position x seen rank :=
    let normed := postNormed kernels tpSize layers position x seen
    let activated := fun rank =>
      siluAndMul kernels ((layers rank).gateUpProj.forward (normed rank).1)
    (RowParallelLinear.forward tpSize (fun rank => (layers rank).downProj) activated rank,
      some (normed rank).2)

end Qwen3DecoderLayer

/-- `Qwen3ForCausalLM` on all ranks. -/
structure Qwen3ForCausalLM (R : Type) where
  embedTokens : PerRank (List (List R))
  layers : List (PerRank (Qwen3DecoderLayer R))
  norm : PerRank (List R)
  lmHead : PerRank (List (List R))

namespace Qwen3ForCausalLM

variable (kernels : Kernels R config.headDim) (tpSize : ℕ) (model : Qwen3ForCausalLM R)

/-- `embed_tokens`. -/
def embed (token : Token) : PerRank (Hidden R) := fun rank =>
  (VocabParallelEmbedding.forward tpSize model.embedTokens token rank, none)

/-- `norm` and `compute_logits` at the last position of a request: the logits of rank 0. -/
def computeLogits (x : PerRank (Hidden R)) : List R :=
  ParallelLMHead.forward tpSize model.lmHead fun rank =>
    (addRmsNorm kernels config.rmsNormEps (model.norm rank) (x rank).1 (x rank).2).1

/-- The token which is sampled at the last position. -/
def sample : Option (PerRank (Hidden R)) → Token
  | none => 0
  | some x => kernels.sampler (computeLogits kernels tpSize model x)

/-- `forward` and `compute_logits`, with the keys and values of the positions before. -/
def cachedModel : CachedModel (List (PerRank (KV R))) Token :=
  CausalLayer.toModel (model.layers.map (Qwen3DecoderLayer.forward kernels tpSize))
    (embed tpSize model) (sample kernels tpSize model)

end Qwen3ForCausalLM

end NanoVllm.Models
