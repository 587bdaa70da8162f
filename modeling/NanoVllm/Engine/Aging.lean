import NanoVllm.Engine.Runs
import NanoVllm.Qos.Aging

/-!
# Aging bounds overtaking

The clock of the engine does not go back, so no request gets its first token before it has
arrived, and no latency target is negative. A request is then overtaken only by requests which
arrive within a bounded number of steps after it.
-/

namespace NanoVllm

/-- The checks of `RequestQoS.__post_init__` on the targets. -/
structure RequestQoS.Checked (qos : RequestQoS) : Prop where
  ttft : ∀ slo, qos.ttftSloMs = some slo → 0 < slo
  tpot : ∀ slo, qos.tpotSloMs = some slo → 0 < slo
  e2e : ∀ slo, qos.e2eSloMs = some slo → 0 < slo

namespace Sequence

/-- A request with checked targets, which has arrived before its first token. -/
structure Timed (seq : Sequence) : Prop where
  checked : seq.qos.Checked
  arrived : ∃ arrival, seq.arrivalTime = some arrival ∧
    ∀ firstToken, seq.firstTokenTime = some firstToken → arrival ≤ firstToken

/-- What `postprocess` leaves of the targets and times of a request. -/
structure Stamped (now : ℚ) (seq seq' : Sequence) : Prop where
  qos : seq'.qos = seq.qos
  arrivalTime : seq'.arrivalTime = seq.arrivalTime
  firstTokenTime : seq'.firstTokenTime = seq.firstTokenTime ∨
    seq.firstTokenTime = none ∧ seq'.firstTokenTime = some now

variable {now : ℚ} {seq seq' seq'' : Sequence}

theorem Stamped.refl (now : ℚ) (seq : Sequence) : Stamped now seq seq := ⟨rfl, rfl, .inl rfl⟩

theorem Stamped.trans (first : Stamped now seq seq') (second : Stamped now seq' seq'') :
    Stamped now seq seq'' := by
  refine ⟨second.qos.trans first.qos, second.arrivalTime.trans first.arrivalTime, ?_⟩
  rcases second.firstTokenTime with same | ⟨none', some'⟩
  · rw [same]
    exact first.firstTokenTime
  · rcases first.firstTokenTime with same | ⟨-, stamped⟩
    · exact .inr ⟨same ▸ none', some'⟩
    · rw [stamped] at none'
      cases none'

theorem Stamped.of_request (same : Scheduler.SameRequest seq seq') : Stamped now seq seq' :=
  ⟨same.qos, same.arrivalTime, .inl same.firstTokenTime⟩

theorem Stamped.appendToken (now : ℚ) (seq : Sequence) (tokenId : Token) :
    Stamped now seq (seq.appendToken tokenId now) := by
  refine ⟨rfl, rfl, ?_⟩
  change (seq.firstTokenTime <|> some now) = seq.firstTokenTime ∨
    seq.firstTokenTime = none ∧ (seq.firstTokenTime <|> some now) = some now
  cases seq.firstTokenTime with
  | none => exact .inr ⟨rfl, rfl⟩
  | some firstToken => exact .inl rfl

theorem Stamped.ended (now : ℚ) (seq : Sequence) : Stamped now seq (seq.ended now) :=
  ⟨rfl, rfl, .inl rfl⟩

theorem Stamped.update {seqs : SeqId → Sequence} {i : SeqId} (stamped : Stamped now (seqs i) seq)
    (j : SeqId) : Stamped now (seqs j) (Function.update seqs i seq j) := by
  by_cases same : j = i
  · subst same
    rwa [Function.update_self]
  · rw [Function.update_of_ne same]
    exact .refl now _

theorem Timed.stamped (timed : seq.Timed) (stamped : Stamped now seq seq')
    (arrivedBefore : ∀ arrival, seq.arrivalTime = some arrival → arrival ≤ now) : seq'.Timed := by
  rcases timed.arrived with ⟨arrival, isArrival, before⟩
  refine ⟨stamped.qos.symm ▸ timed.checked, arrival, stamped.arrivalTime.trans isArrival, ?_⟩
  intro firstToken isFirst
  rcases stamped.firstTokenTime with same | ⟨-, stampedNow⟩
  · exact before firstToken (same.symm.trans isFirst)
  · rw [stampedNow] at isFirst
    cases isFirst
    exact arrivedBefore arrival isArrival

/-- The targets of a timed request are not negative. -/
theorem Timed.targetsNonneg {cfg : Config} {estimator : ExecutionTimeEstimator}
    (timed : seq.Timed) (bestEffort : 0 < cfg.qosBestEffortSloMs) :
    TargetsNonneg cfg estimator seq := by
  intro deadline member
  rcases timed.arrived with ⟨arrival, isArrival, before⟩
  rcases mem_deadlines member with isNext | isLast | rfl
  · unfold tokenDeadline at isNext
    split at isNext
    · rcases Option.map_eq_some_iff.mp isNext with ⟨slo, isSlo, rfl⟩
      exact (timed.checked.ttft slo isSlo).le
    · rename_i firstToken isFirst
      rcases Option.map_eq_some_iff.mp isNext with ⟨slo, isSlo, rfl⟩
      have waited := before firstToken isFirst
      have positive := timed.checked.tpot slo isSlo
      rw [isArrival]
      apply add_nonneg
      · exact mul_nonneg (sub_nonneg.mpr waited) (by norm_num)
      · exact mul_nonneg (Nat.cast_nonneg _) positive.le
  · rcases Option.map_eq_some_iff.mp isLast with ⟨slo, isSlo, rfl⟩
    exact (timed.checked.e2e slo isSlo).le
  · exact bestEffort.le

end Sequence

namespace Scheduler

open Sequence (Stamped)

variable {cfg : Config} {now : ℚ} {isPrefill : Bool} {s s' : Scheduler}

theorem deallocate_stamped {bm bm' : BlockManager} {seq seq' : Sequence}
    (deallocated : bm.deallocate seq = .ok (bm', seq')) : Stamped now seq seq' := by
  rcases Py.exists_of_bind deallocated with ⟨released, -, returned⟩
  cases returned
  exact ⟨rfl, rfl, .inl rfl⟩

theorem postprocessSeq_stamped {i : SeqId} {tokenId : Token}
    (processed : s.postprocessSeq cfg now isPrefill i tokenId = .ok s') (j : SeqId) :
    Stamped now (s.seqs j) (s'.seqs j) := by
  cases hashed : s.blockManager.hashBlocks cfg (s.seqs i) with
  | error error =>
    unfold Scheduler.postprocessSeq at processed
    dsimp only at processed
    rw [hashed] at processed
    cases processed
  | ok bm' =>
    rw [postprocessSeq_eq s bm' hashed] at processed
    have advanced : Stamped now (s.seqs i) ((s.seqs i).advanced isPrefill) :=
      .of_request (Sequence.advanced_sameRequest _ _)
    have appended := advanced.trans (.appendToken now _ tokenId)
    dsimp only at processed
    split at processed
    · cases processed
      exact advanced.update j
    · split at processed
      · rcases Py.exists_of_bind processed with ⟨⟨bm, seq⟩, deallocated, processed⟩
        have ended := appended.trans (.ended now _)
        dsimp only at processed
        split at processed
        · cases processed
        · rcases Py.exists_of_bind processed with ⟨checked, -, processed⟩
          cases processed
          exact (ended.trans (deallocate_stamped deallocated)).update j
      · cases processed
        exact appended.update j

theorem postprocessLoop_stamped {events : List (SeqId × Token)}
    (processed : postprocessLoop cfg now isPrefill events s = .ok s') (j : SeqId) :
    Stamped now (s.seqs j) (s'.seqs j) := by
  induction events generalizing s with
  | nil =>
    cases processed
    exact .refl now _
  | cons event events ih =>
    rcases Py.exists_of_bind processed with ⟨s₁, first, rest⟩
    exact (postprocessSeq_stamped first j).trans (ih rest)

end Scheduler

namespace System

variable {cfg : Config} {sys sys' : System} {op : Op cfg} {i x y : SeqId}

/-- The engine adds checked requests without an arrival time, and its clock does not go back:
when a batch is postprocessed, all requests have arrived. -/
def ClockForward (sys : System) : Op cfg → Prop
  | .add request _ => request.arrivalTime = none ∧ request.qos.Checked
  | .postprocess _ _ now => ∀ i ∈ sys.known, ∀ arrival,
      (sys.scheduler.seqs i).arrivalTime = some arrival → arrival ≤ now
  | _ => True

/-- Only `postprocess` gives a request its first token. -/
theorem Steps.stamped (steps : Steps cfg sys op sys') (enabled : sys.Enabled op)
    (known : i ∈ sys.known) (notPostprocess : ∀ tokenIds elapsedMs now,
      op ≠ .postprocess tokenIds elapsedMs now) (now : ℚ) :
    Sequence.Stamped now (sys.scheduler.seqs i) (sys'.scheduler.seqs i) := by
  cases steps with
  | @add request now =>
    have other : request.seqId ≠ i := by
      rintro rfl
      exact enabled.2 known
    apply Sequence.Stamped.of_request
    simpa [Scheduler.add, Scheduler.setSeq, Request.toSequence, Sequence.new, Sequence.markArrived,
      other.symm] using Scheduler.SameRequest.refl _
  | schedule idle schedules =>
    rcases schedules.follows with ⟨stepId, -, follows⟩
    exact .of_request (follows.request i)
  | postprocess flying written sampled processes => exact absurd rfl (notPostprocess _ _ _)
  | runFailed => exact .refl now _
  | @cancel j ended s' _ _ cancels =>
    have cancelled : Sequence.Stamped now (sys.scheduler.seqs j)
        (Scheduler.cancelledSeq (sys.scheduler.seqs j) ended) := ⟨rfl, rfl, .inl rfl⟩
    change Sequence.Stamped now _ (s'.seqs i)
    rw [cancels.seqs]
    exact cancelled.update i
  | cancelNothing => exact .refl now _
  | @completeRemoteRestore _ _ s' _ ends =>
    change Sequence.Stamped now _ (s'.seqs i)
    rw [ends.seqs]
    exact (Sequence.Stamped.of_request ends.request).update i
  | @failRemoteRestore _ _ _ _ s' _ ends =>
    change Sequence.Stamped now _ (s'.seqs i)
    rw [ends.seqs]
    exact (Sequence.Stamped.of_request ends.request).update i

/-- `postprocess` gives first tokens at its reading of the clock. -/
theorem stamped_of_postprocess {tokenIds : List Token} {elapsedMs now : ℚ}
    (stepped : sys.step cfg (.postprocess tokenIds elapsedMs now) = .ok sys') (i : SeqId) :
    Sequence.Stamped now (sys.scheduler.seqs i) (sys'.scheduler.seqs i) := by
  dsimp only [System.step] at stepped
  split at stepped
  · cases stepped
  · rcases Py.exists_of_bind stepped with ⟨ran, run, stepped⟩
    rcases Py.exists_of_bind stepped with ⟨scheduler, processed, stepped⟩
    rcases Py.exists_of_bind run with ⟨writes, -, run⟩
    cases run
    cases stepped
    exact Scheduler.postprocessLoop_stamped processed i

/-- Every request which has been added is timed. -/
theorem timed_of_reachable (reachable : ReachableBy cfg ClockForward sys) :
    ∀ i ∈ sys.known, (sys.scheduler.seqs i).Timed := by
  induction reachable with
  | init => nofun
  | @step sys sys' op reachable enabled allowed stepped timed =>
    intro i known
    rcases reachable.valid.step enabled with ⟨sys'', stepped', -, steps⟩
    rw [stepped] at stepped'
    cases stepped'
    rcases steps.known_or_added known with old | ⟨request, now, rfl, self⟩
    · rcases postprocess_or_other op with ⟨tokenIds, elapsedMs, now, rfl⟩ | other
      · exact (timed i old).stamped (stamped_of_postprocess stepped i) (allowed i old)
      · -- The first token stays as it is, so any time after the arrival will do.
        rcases (timed i old).arrived with ⟨arrival, isArrival, -⟩
        apply (timed i old).stamped (steps.stamped enabled old other arrival)
        intro arrival' isArrival'
        rw [isArrival] at isArrival'
        cases isArrival'
        exact le_rfl
    · rw [self]
      refine ⟨allowed.2, now, ?_, nofun⟩
      change (request.arrivalTime <|> some now) = some now
      rw [allowed.1]
      rfl

/--
A request is overtaken only by requests which arrive within a bounded number of steps after it.
The bound counts the targets of the request, the estimated work of the other one, and the credit
which the other one has for its priority.
-/
theorem aging_bounds_overtaking {estimator : ExecutionTimeEstimator} {targetBound workBound : ℚ}
    {step : ℕ} (pals : cfg.schedulingPolicy = .pals) (bestEffort : 0 < cfg.qosBestEffortSloMs)
    (aging : 0 < cfg.qosAgingMsPerStep) (nonneg : estimator.Nonneg)
    (reachable : ReachableBy cfg ClockForward sys) (known : y ∈ sys.known)
    (earlierTime : (sys.scheduler.seqs x).arrivalTime.getD 0 ≤
      (sys.scheduler.seqs y).arrivalTime.getD 0)
    (earlierStep : (sys.scheduler.seqs x).arrivalStep ≤ (sys.scheduler.seqs y).arrivalStep)
    (targets : TargetsAtMost cfg estimator (sys.scheduler.seqs x) targetBound)
    (work : WorkAtMost cfg estimator (sys.scheduler.seqs y) workBound)
    (later : (sys.scheduler.seqs y).arrivalStep ≤ step) (now : ℚ) :
    let seqs := sys.scheduler.seqs
    let credit := targetBound + workBound +
      (((seqs y).qos.priority : ℚ) - (seqs x).qos.priority) * cfg.qosPriorityBoostMs
    (credit < (((seqs y).arrivalStep : ℚ) - (seqs x).arrivalStep) * cfg.qosAgingMsPerStep →
      palsBudgetMs cfg estimator (seqs x) step now < palsBudgetMs cfg estimator (seqs y) step now ∧
        NeverPrefers cfg estimator seqs step now y x) ∧
    (¬ NeverPrefers cfg estimator seqs step now y x →
      ((seqs y).arrivalStep : ℚ) ≤ (seqs x).arrivalStep + credit / cfg.qosAgingMsPerStep) := by
  intro seqs credit
  have targetsNonneg : TargetsNonneg cfg estimator (seqs y) :=
    (timed_of_reachable reachable y known).targetsNonneg bestEffort
  have overtaken (aged : credit <
      (((seqs y).arrivalStep : ℚ) - (seqs x).arrivalStep) * cfg.qosAgingMsPerStep) :
      palsBudgetMs cfg estimator (seqs x) step now < palsBudgetMs cfg estimator (seqs y) step now :=
    palsBudgetMs_lt nonneg earlierTime earlierStep later targets work targetsNonneg aged
  constructor
  · intro aged
    exact ⟨overtaken aged, neverPrefers_of_lt pals (overtaken aged)⟩
  · intro prefers
    by_contra tooLate
    apply prefers
    apply neverPrefers_of_lt pals
    apply overtaken
    rw [not_le, ← lt_sub_iff_add_lt', div_lt_iff₀ aging] at tooLate
    exact tooLate

/-- A configuration with a best-effort target of one millisecond, which ages requests by a second a
step. -/
def agingConfig : Config :=
  { defaultConfig 4 8 4 two_le_four with
    schedulingPolicy := .pals
    qosBestEffortSloMs := 1
    qosAgingMsPerStep := 1000 }

/-- Two requests which arrive in consecutive steps. -/
def agingOps : List (Op agingConfig) :=
  [.add (plainRequest 0 1 1) 0, .schedule (idleEnv _), .add (plainRequest 1 1 1) 0]

theorem aging_bounds_overtaking_consecutive :
    ∃ sys, ReachableBy agingConfig ClockForward sys ∧ 0 ∈ sys.known ∧ 1 ∈ sys.known ∧
      NeverPrefers agingConfig ⟨1 / 20, 5⟩ sys.scheduler.seqs 1 0 1 0 := by
  have unchecked : (plainRequest 0 1 1).qos.Checked := ⟨nofun, nofun, nofun⟩
  have enabled : EnabledAll agingConfig ClockForward (init agingConfig) agingOps :=
    ⟨⟨by decide, rfl, unchecked⟩, ⟨rfl, trivial⟩, ⟨by decide +kernel, rfl, unchecked⟩, trivial⟩
  have reachable := ReachableBy.init.runOps enabled
  refine ⟨_, reachable, by decide +kernel, by decide +kernel, ?_⟩
  have targets : TargetsAtMost agingConfig ⟨1 / 20, 5⟩
      ((runOps agingConfig (init agingConfig) agingOps).scheduler.seqs 0) 1 := by
    unfold TargetsAtMost
    decide +kernel
  have work : WorkAtMost agingConfig ⟨1 / 20, 5⟩
      ((runOps agingConfig (init agingConfig) agingOps).scheduler.seqs 1) (1 / 20) := by
    unfold WorkAtMost
    decide +kernel
  have result := aging_bounds_overtaking rfl (by decide +kernel) (by decide +kernel)
    ⟨by norm_num, by norm_num⟩ reachable (by decide +kernel) (by decide +kernel)
    (by decide +kernel) targets work (show _ ≤ 1 by decide +kernel) 0
  exact (result.1 (by decide +kernel)).2

end System

end NanoVllm
