import NanoVllm.Qos
import Mathlib.Tactic.Linarith

/-!
# Aging

The raw budget of a request is the least slack of its deadlines: the target of a deadline less the
elapsed time and the work which is left until it is met. Priority and aging are credits on top of
it. The elapsed time and the aging credit grow alike for all requests, so a request which arrived
enough steps after another one never gets the smaller budget.
-/

namespace NanoVllm

variable {cfg : Config} {estimator : ExecutionTimeEstimator} {seq x y : Sequence}
  {step : ℕ} {now : ℚ}

/-! ## Deadlines -/

/-- A latency target, and the work which is estimated to be left until it is met. -/
structure Deadline where
  target : ℚ
  work : ℚ
  deriving DecidableEq, Repr

/-- What is left of the target. -/
def Deadline.slack (deadline : Deadline) (elapsedMs : ℚ) : ℚ :=
  deadline.target - elapsedMs - deadline.work

/-- The deadline of the first token, or of the next one. -/
def tokenDeadline (estimator : ExecutionTimeEstimator) (seq : Sequence) : Option Deadline :=
  match seq.firstTokenTime with
  | none => seq.qos.ttftSloMs.map fun slo => ⟨slo, estimator.remainingPrefillMs seq⟩
  | some firstTokenTime =>
      seq.qos.tpotSloMs.map fun slo =>
        ⟨(firstTokenTime - seq.arrivalTime.getD 0) * 1000 + seq.numCompletionTokens * slo,
          if seq.isPrefill then estimator.remainingPrefillMs seq
          else estimator.decodeMsPerToken⟩

/-- The deadline of the last token. -/
def endDeadline (estimator : ExecutionTimeEstimator) (seq : Sequence) : Option Deadline :=
  seq.qos.e2eSloMs.map fun slo => ⟨slo, remainingToFinishMs estimator seq⟩

/-- The deadlines which apply to a request, or the best-effort one. -/
def deadlines (cfg : Config) (estimator : ExecutionTimeEstimator) (seq : Sequence) :
    List Deadline :=
  match tokenDeadline estimator seq, endDeadline estimator seq with
  | some next, some last => [next, last]
  | some next, none => [next]
  | none, some last => [last]
  | none, none => [⟨cfg.qosBestEffortSloMs, remainingToFinishMs estimator seq⟩]

theorem tokenBudgetMs_eq (estimator : ExecutionTimeEstimator) (seq : Sequence) (elapsedMs : ℚ) :
    tokenBudgetMs estimator seq elapsedMs =
      (tokenDeadline estimator seq).map fun deadline => deadline.slack elapsedMs := by
  unfold tokenBudgetMs tokenDeadline
  cases seq.firstTokenTime with
  | none => simp [Option.map_map, Function.comp_def, Deadline.slack]
  | some firstTokenTime => simp [Option.map_map, Function.comp_def, Deadline.slack]

/-- The raw budget is the least slack. -/
theorem rawBudgetMs_isLeast (cfg : Config) (estimator : ExecutionTimeEstimator) (seq : Sequence)
    (elapsedMs : ℚ) :
    IsLeast {slack | ∃ deadline ∈ deadlines cfg estimator seq, slack = deadline.slack elapsedMs}
      (rawBudgetMs cfg estimator seq elapsedMs) := by
  have endBudget : (seq.qos.e2eSloMs.map fun slo =>
      slo - elapsedMs - remainingToFinishMs estimator seq) =
        (endDeadline estimator seq).map fun deadline => deadline.slack elapsedMs := by
    simp [endDeadline, Option.map_map, Function.comp_def, Deadline.slack]
  simp only [rawBudgetMs, deadlines, tokenBudgetMs_eq, endBudget]
  cases tokenDeadline estimator seq with
  | none =>
    cases endDeadline estimator seq with
    | none => simp [IsLeast, lowerBounds, Deadline.slack]
    | some last => simp [IsLeast, lowerBounds]
  | some next =>
    cases endDeadline estimator seq with
    | none => simp [IsLeast, lowerBounds]
    | some last =>
      simp only [Option.map_some]
      constructor
      · rcases min_choice (next.slack elapsedMs) (last.slack elapsedMs) with isNext | isLast
        · exact ⟨next, by simp, isNext⟩
        · exact ⟨last, by simp, isLast⟩
      · rintro slack ⟨deadline, member, rfl⟩
        simp only [List.mem_cons, List.not_mem_nil, or_false] at member
        rcases member with rfl | rfl
        · exact min_le_left _ _
        · exact min_le_right _ _

/-! ## Estimates -/

/-- The estimates are not negative. -/
structure ExecutionTimeEstimator.Nonneg (estimator : ExecutionTimeEstimator) : Prop where
  prefillMsPerToken : 0 ≤ estimator.prefillMsPerToken
  decodeMsPerToken : 0 ≤ estimator.decodeMsPerToken

theorem remainingPrefillMs_nonneg (nonneg : estimator.Nonneg) (seq : Sequence) :
    0 ≤ estimator.remainingPrefillMs seq :=
  mul_nonneg (Nat.cast_nonneg _) nonneg.prefillMsPerToken

theorem remainingToFinishMs_nonneg (nonneg : estimator.Nonneg) (seq : Sequence) :
    0 ≤ remainingToFinishMs estimator seq := by
  unfold remainingToFinishMs
  dsimp only
  split
  · apply add_nonneg (remainingPrefillMs_nonneg nonneg seq)
    exact mul_nonneg (Nat.cast_nonneg _) nonneg.decodeMsPerToken
  · exact mul_nonneg (Nat.cast_nonneg _) nonneg.decodeMsPerToken

theorem mem_deadlines {deadline : Deadline} (member : deadline ∈ deadlines cfg estimator seq) :
    tokenDeadline estimator seq = some deadline ∨ endDeadline estimator seq = some deadline ∨
      deadline = ⟨cfg.qosBestEffortSloMs, remainingToFinishMs estimator seq⟩ := by
  unfold deadlines at member
  split at member
  · rename_i next last isNext isLast
    simp only [List.mem_cons, List.not_mem_nil, or_false] at member
    rcases member with rfl | rfl
    · exact .inl isNext
    · exact .inr (.inl isLast)
  · rename_i next isNext _
    rw [List.mem_singleton] at member
    exact .inl (member ▸ isNext)
  · rename_i last _ isLast
    rw [List.mem_singleton] at member
    exact .inr (.inl (member ▸ isLast))
  · rw [List.mem_singleton] at member
    exact .inr (.inr member)

/-- No deadline has less than no work left. -/
theorem work_nonneg (nonneg : estimator.Nonneg) {deadline : Deadline}
    (member : deadline ∈ deadlines cfg estimator seq) : 0 ≤ deadline.work := by
  rcases mem_deadlines member with isNext | isLast | rfl
  · unfold tokenDeadline at isNext
    split at isNext
    · rcases Option.map_eq_some_iff.mp isNext with ⟨slo, -, rfl⟩
      exact remainingPrefillMs_nonneg nonneg seq
    · rcases Option.map_eq_some_iff.mp isNext with ⟨slo, -, rfl⟩
      dsimp only
      split
      · exact remainingPrefillMs_nonneg nonneg seq
      · exact nonneg.decodeMsPerToken
  · rcases Option.map_eq_some_iff.mp isLast with ⟨slo, -, rfl⟩
    exact remainingToFinishMs_nonneg nonneg seq
  · exact remainingToFinishMs_nonneg nonneg seq

/-! ## Budgets -/

/-- The targets of a request are at most `bound`. -/
def TargetsAtMost (cfg : Config) (estimator : ExecutionTimeEstimator) (seq : Sequence)
    (bound : ℚ) : Prop :=
  ∀ deadline ∈ deadlines cfg estimator seq, deadline.target ≤ bound

/-- The estimated remaining work of a request is at most `bound`. -/
def WorkAtMost (cfg : Config) (estimator : ExecutionTimeEstimator) (seq : Sequence)
    (bound : ℚ) : Prop :=
  ∀ deadline ∈ deadlines cfg estimator seq, deadline.work ≤ bound

/-- The targets of a request are not negative. -/
def TargetsNonneg (cfg : Config) (estimator : ExecutionTimeEstimator) (seq : Sequence) : Prop :=
  ∀ deadline ∈ deadlines cfg estimator seq, 0 ≤ deadline.target

/-- `elapsed_ms`. -/
def elapsedMs (seq : Sequence) (now : ℚ) : ℚ := max 0 ((now - seq.arrivalTime.getD 0) * 1000)

theorem palsBudgetMs_eq (arrived : seq.arrivalStep ≤ step) :
    palsBudgetMs cfg estimator seq step now =
      rawBudgetMs cfg estimator seq (elapsedMs seq now) -
        seq.qos.priority * cfg.qosPriorityBoostMs -
          (step - seq.arrivalStep) * cfg.qosAgingMsPerStep := by
  rw [palsBudgetMs, Nat.cast_sub arrived]
  rfl

theorem rawBudgetMs_le (nonneg : estimator.Nonneg) {bound : ℚ}
    (targets : TargetsAtMost cfg estimator seq bound) (elapsed : ℚ) :
    rawBudgetMs cfg estimator seq elapsed ≤ bound - elapsed := by
  rcases (rawBudgetMs_isLeast cfg estimator seq elapsed).1 with ⟨deadline, member, isSlack⟩
  have target := targets deadline member
  have work := work_nonneg nonneg member
  rw [isSlack, Deadline.slack]
  linarith

theorem le_rawBudgetMs {bound : ℚ} (targets : TargetsNonneg cfg estimator seq)
    (work : WorkAtMost cfg estimator seq bound) (elapsed : ℚ) :
    -elapsed - bound ≤ rawBudgetMs cfg estimator seq elapsed := by
  rcases (rawBudgetMs_isLeast cfg estimator seq elapsed).1 with ⟨deadline, member, isSlack⟩
  have target := targets deadline member
  have left := work deadline member
  rw [isSlack, Deadline.slack]
  linarith

theorem elapsedMs_le (earlier : x.arrivalTime.getD 0 ≤ y.arrivalTime.getD 0) (now : ℚ) :
    elapsedMs y now ≤ elapsedMs x now := by
  apply max_le_max le_rfl
  linarith

/-- A request which arrived enough steps earlier has the smaller budget. -/
theorem palsBudgetMs_lt {targetBound workBound : ℚ} (nonneg : estimator.Nonneg)
    (earlierTime : x.arrivalTime.getD 0 ≤ y.arrivalTime.getD 0)
    (earlierStep : x.arrivalStep ≤ y.arrivalStep) (arrived : y.arrivalStep ≤ step)
    (targets : TargetsAtMost cfg estimator x targetBound)
    (work : WorkAtMost cfg estimator y workBound) (targetsNonneg : TargetsNonneg cfg estimator y)
    (aged : targetBound + workBound +
        ((y.qos.priority : ℚ) - x.qos.priority) * cfg.qosPriorityBoostMs <
      ((y.arrivalStep : ℚ) - x.arrivalStep) * cfg.qosAgingMsPerStep) :
    palsBudgetMs cfg estimator x step now < palsBudgetMs cfg estimator y step now := by
  have upper := rawBudgetMs_le nonneg targets (elapsedMs x now)
  have lower := le_rawBudgetMs targetsNonneg work (elapsedMs y now)
  have elapsed := elapsedMs_le earlierTime now
  rw [palsBudgetMs_eq (earlierStep.trans arrived), palsBudgetMs_eq arrived]
  linarith

/-! ## Selections -/

section Selections

variable {seqs : SeqId → Sequence} {i j : SeqId} {queue waiting running : List SeqId}

/-- Nobody in the queue has a smaller budget than the selected request. -/
theorem palsBudgetMs_le_of_selectNext (pals : cfg.schedulingPolicy = .pals)
    (selected : selectNext cfg estimator seqs step now queue = some j) (member : i ∈ queue) :
    palsBudgetMs cfg estimator (seqs j) step now ≤ palsBudgetMs cfg estimator (seqs i) step now := by
  rw [selectNext, pals] at selected
  have least := List.le_of_mem_argmin member selected
  rcases Prod.Lex.le_iff.mp least with less | ⟨same, -⟩
  · exact less.le
  · exact same.le

theorem exists_selectNext (pals : cfg.schedulingPolicy = .pals) (member : i ∈ queue) :
    ∃ j, selectNext cfg estimator seqs step now queue = some j := by
  cases selected : selectNext cfg estimator seqs step now queue with
  | some j => exact ⟨j, rfl⟩
  | none =>
    rw [selectNext, pals] at selected
    rw [List.argmin_eq_none.mp selected] at member
    cases member

/-- The policy does not prefer one request to another one. -/
structure NeverPrefers (cfg : Config) (estimator : ExecutionTimeEstimator)
    (seqs : SeqId → Sequence) (step : ℕ) (now : ℚ) (j i : SeqId) : Prop where
  /-- Neither `select_waiting` nor `select_running` chooses it where the other one waits too. -/
  selected : ∀ {queue : List SeqId}, i ∈ queue →
    selectNext cfg estimator seqs step now queue ≠ some j
  /-- A prefill of the other one goes before its decoding. -/
  prefills : ∀ {waiting running : List SeqId}, i ∈ waiting →
    selectNext cfg estimator seqs step now running = some j →
      shouldSchedulePrefill cfg estimator seqs step now waiting running = true
  /-- A decoding of the other one goes before its prefill. -/
  decodes : ∀ {waiting running : List SeqId}, i ∈ running →
    selectNext cfg estimator seqs step now waiting = some j →
      shouldSchedulePrefill cfg estimator seqs step now waiting running = false

theorem neverPrefers_of_lt (pals : cfg.schedulingPolicy = .pals)
    (less : palsBudgetMs cfg estimator (seqs i) step now <
      palsBudgetMs cfg estimator (seqs j) step now) :
    NeverPrefers cfg estimator seqs step now j i where
  selected member selected :=
    absurd (palsBudgetMs_le_of_selectNext pals selected member) (not_le.mpr less)
  prefills := by
    intro waiting running member selected
    have chosen : ∃ k, selectNext cfg estimator seqs step now waiting = some k :=
      exists_selectNext pals member
    rcases chosen with ⟨k, selected'⟩
    have urgent := palsBudgetMs_le_of_selectNext pals selected' member
    simp only [shouldSchedulePrefill, pals, selected, selected', decide_eq_true_eq]
    exact urgent.trans less.le
  decodes := by
    intro waiting running member selected
    have chosen : ∃ k, selectNext cfg estimator seqs step now running = some k :=
      exists_selectNext pals member
    rcases chosen with ⟨k, selected'⟩
    have urgent := palsBudgetMs_le_of_selectNext pals selected' member
    simp only [shouldSchedulePrefill, pals, selected, selected', decide_eq_false_iff_not, not_le]
    exact urgent.trans_lt less

end Selections

end NanoVllm
