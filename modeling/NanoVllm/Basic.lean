import Mathlib.Data.Rat.Floor
import Mathlib.Data.List.Basic
import Mathlib.Tactic.Common

/-!
# Identifiers, exceptions and configuration

The vocabulary shared by every module of the serving engine: token and page identifiers,
the Python exceptions the engine can raise, and the configuration record.

Times and latency budgets are exact rationals; the engine computes them in floating point.
The page hash (`xxhash.xxh64`) is third-party code, so it enters as a parameter of the
configuration together with the collision freedom the prefix cache relies on.
-/

namespace NanoVllm

/-- A token identifier. -/
abbrev Token := ℤ

/-- The index of a physical KV page. -/
abbrev BlockId := ℕ

/-- A request identifier, drawn from `Sequence.counter`. -/
abbrev SeqId := ℕ

/-- The tokens of one page, the symbol of the prefix index. -/
abbrev BlockKey := List Token

/-- The exceptions raised by the engine, with the texts of the explicit `raise` statements. -/
inductive PyError where
  | valueError (message : String)
  | runtimeError (message : String)
  | indexError (message : String)
  | keyError (message : String)
  | assertionError
  | loopLimit
  deriving DecidableEq, Repr

/-- A computation which may raise. -/
abbrev Py := Except PyError

theorem Py.ok_bind {α β : Type} (a : α) (f : α → Py β) : (Except.ok a : Py α) >>= f = f a := rfl

/-- The first of two steps which return has returned. -/
theorem Py.exists_of_bind {α β : Type} {x : Py α} {f : α → Py β} {b : β}
    (returned : x >>= f = .ok b) : ∃ a, x = .ok a ∧ f a = .ok b := by
  cases x with
  | error error => cases returned
  | ok a => exact ⟨a, rfl, returned⟩

/-- What is known of the result of a call holds of the value it has returned. -/
theorem Py.of_ok {α : Type} {result : Py α} {a : α} {P : α → Prop} (returned : result = .ok a)
    (spec : ∃ b, result = .ok b ∧ P b) : P a := by
  rcases spec with ⟨b, same, holds⟩
  rw [returned] at same
  cases same
  exact holds

theorem Py.of_ok_pair {α β : Type} {result : Py (α × β)} {a : α} {b : β} {P : α → β → Prop}
    (returned : result = .ok (a, b)) (spec : ∃ c d, result = .ok (c, d) ∧ P c d) : P a b := by
  rcases spec with ⟨c, d, same, holds⟩
  rw [returned] at same
  cases same
  exact holds

/-- An exception which `except Exception` catches. -/
structure PyException where
  typeName : String
  text : String
  deriving DecidableEq, Repr

/-- `f"{type(exc).__name__}: {exc}"`. -/
def PyException.describe (exc : PyException) : String := exc.typeName ++ ": " ++ exc.text

/-- The third-party page hash: the tokens of a page chained to the hash of the previous page. -/
structure PageHash where
  computeHash : BlockKey → Option ℕ → ℕ
  collisionFree : ∀ {tokens tokens' prefixHash prefixHash'},
    computeHash tokens prefixHash = computeHash tokens' prefixHash' →
      tokens = tokens' ∧ prefixHash = prefixHash'

/-- `prefix_cache_backend`. -/
inductive PrefixCacheBackend where
  | hash
  | radix
  deriving DecidableEq, Repr

/-- `scheduling_policy`. -/
inductive SchedulingPolicyName where
  | fcfs
  | pals
  deriving DecidableEq, Repr

/-- `kv_reclaim_policy`. -/
inductive KvReclaimPolicyName where
  | recompute
  | sloAware
  deriving DecidableEq, Repr

/-- `kv_compression_policy`. -/
inductive KvCompressionPolicyName where
  | none
  | sinkRecent
  | queryAware
  deriving DecidableEq, Repr

/--
The fields of `Config` read by the scheduler, with the checks of `Config.__post_init__` and
of the constructors of the scheduler and its policies. `Config` accepts multiples of 256 as
page sizes; only `2 ≤ blockSize` matters.
-/
structure Config where
  maxNumSeqs : ℕ
  maxNumActiveSeqs : Option ℕ
  kvAdmissionLookahead : ℕ
  maxNumBatchedTokens : ℕ
  eos : Token
  blockSize : ℕ
  numBlocks : ℕ
  prefixCacheBackend : PrefixCacheBackend
  pageHash : PageHash
  schedulingPolicy : SchedulingPolicyName
  qosBestEffortSloMs : ℚ
  qosPriorityBoostMs : ℚ
  qosAgingMsPerStep : ℚ
  qosPrefillMsPerToken : ℚ
  qosDecodeMsPerToken : ℚ
  qosEwmaAlpha : ℚ
  kvReclaimPolicy : KvReclaimPolicyName
  kvReclaimMinKeepRatio : ℚ
  kvReclaimMaxKeepRatio : ℚ
  kvReclaimBudgetScaleMs : ℚ
  kvReclaimTargetFreeBlocks : ℕ
  kvCompressionPolicy : KvCompressionPolicyName
  kvCompressionSinkBlocks : ℕ
  kvCompressionRecentBlocks : ℕ
  kvCompressionImportanceBlocks : ℕ
  kvCompressionQueryTokens : ℕ
  kvCompressionTriggerFreeRatio : ℚ
  two_le_blockSize : 2 ≤ blockSize
  maxNumActiveSeqs_pos : ∀ limit, maxNumActiveSeqs = some limit → 1 ≤ limit
  keepRatios : 0 ≤ kvReclaimMinKeepRatio ∧ kvReclaimMinKeepRatio ≤ kvReclaimMaxKeepRatio ∧
    kvReclaimMaxKeepRatio ≤ 1
  budgetScale_pos : 0 < kvReclaimBudgetScaleMs
  sinkBlocks_pos : 1 ≤ kvCompressionSinkBlocks
  recentBlocks_pos : 1 ≤ kvCompressionRecentBlocks
  importanceBlocks_pos : 1 ≤ kvCompressionImportanceBlocks
  queryTokens_pos : 1 ≤ kvCompressionQueryTokens

namespace Config

theorem blockSize_pos (cfg : Config) : 0 < cfg.blockSize := by
  have := cfg.two_le_blockSize
  omega

end Config

end NanoVllm
