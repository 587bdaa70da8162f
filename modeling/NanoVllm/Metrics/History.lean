import NanoVllm.Engine.Refinement
import NanoVllm.Engine.Termination
import NanoVllm.Metrics

/-!
# The history of the request metrics

In every run the history lists each finished request once, with the metrics it has finished with,
and `metrics()` returns their summary also when it keeps the summary between its calls.
-/

namespace NanoVllm

theorem Sequence.metrics_of_check {seq : Sequence} (checked : seq.checkMetrics = .ok ()) :
    ∃ metrics, seq.metrics = .ok metrics ∧ metrics.seqId = seq.seqId := by
  unfold Sequence.checkMetrics at checked
  split at checked
  · cases checked
  next known =>
  rw [not_or, not_or] at known
  rcases Option.ne_none_iff_exists'.mp known.1 with ⟨arrivalTime, arrived⟩
  rcases Option.ne_none_iff_exists'.mp known.2.1 with ⟨firstTokenTime, sampled⟩
  rcases Option.ne_none_iff_exists'.mp known.2.2 with ⟨finishedTime, finished⟩
  refine ⟨seq.metricsAt arrivalTime firstTokenTime finishedTime, ?_, rfl⟩
  rw [Sequence.metrics, arrived, sampled, finished]

namespace Scheduler

variable {cfg : Config} {ids : Finset SeqId} {kv : KvStore} {s s' : Scheduler} {i : SeqId}
  {tokenId : Token} {now : ℚ} {isPrefill : Bool} {known : SeqId → Prop}
  {history history' : MetricsHistory}

/-- A request which `postprocess` finishes has its metrics. -/
theorem postprocessSeq_metrics (live : (s.seqs i).status.Live)
    (processed : s.postprocessSeq cfg now isPrefill i tokenId = .ok s')
    (finished : (s'.seqs i).status = .finished) :
    ∃ metrics, (s'.seqs i).metrics = .ok metrics ∧ metrics.seqId = (s'.seqs i).seqId := by
  have notEnded : ∀ {bm : BlockManager} {seq : Sequence}, seq.status = (s.seqs i).status →
      ((s.put i bm seq).seqs i).status ≠ .finished := by
    intro bm seq same ended
    have self : (s.put i bm seq).seqs i = seq := Function.update_self _ _ _
    rw [self, same] at ended
    rw [ended] at live
    exact live
  have advanced : ((s.seqs i).advanced isPrefill).status = (s.seqs i).status := by
    cases isPrefill <;> rfl
  rcases Py.exists_of_bind processed with ⟨bm', hashed, -⟩
  rw [postprocessSeq_eq s bm' hashed] at processed
  dsimp only at processed
  split at processed
  · cases processed
    exact absurd finished (notEnded advanced)
  split at processed
  · rcases Py.exists_of_bind processed with ⟨⟨bm, seq⟩, -, processed⟩
    dsimp only at processed
    split at processed
    · cases processed
    rcases Py.exists_of_bind processed with ⟨_, checked, returned⟩
    cases returned
    change ∃ metrics, (Function.update s.seqs i seq i).metrics = .ok metrics ∧
      metrics.seqId = (Function.update s.seqs i seq i).seqId
    rw [Function.update_self]
    exact Sequence.metrics_of_check checked
  · cases processed
    exact absurd finished (notEnded advanced)

/-- The history has the metrics of the finished requests, each once. -/
structure HasMetrics (known : SeqId → Prop) (s : Scheduler) (history : MetricsHistory) : Prop where
  byId : ∀ i metrics, history.metricsBySeqId i = some metrics ↔
    known i ∧ (s.seqs i).status = .finished ∧ (s.seqs i).metrics = .ok metrics
  measured : ∀ i, known i → (s.seqs i).status = .finished → history.metricsBySeqId i ≠ none
  named : ∀ i metrics, history.metricsBySeqId i = some metrics → metrics.seqId = i
  distinct : (history.completedMetrics.map RequestMetrics.seqId).Nodup
  listed : ∀ metrics, metrics ∈ history.completedMetrics ↔
    history.metricsBySeqId metrics.seqId = some metrics

/-- A step which finishes no request keeps the history. -/
theorem HasMetrics.of_same {known' : SeqId → Prop} (has : HasMetrics known s history)
    (finished : ∀ i, known i → (s.seqs i).status = .finished → s'.seqs i = s.seqs i)
    (known_finished : ∀ i, known' i ∧ (s'.seqs i).status = .finished ↔
      known i ∧ (s.seqs i).status = .finished) : HasMetrics known' s' history where
  byId i metrics := by
    rw [has.byId, ← and_assoc, ← and_assoc, known_finished]
    apply and_congr_right
    intro ended
    rw [finished i ended.1 ended.2]
  measured i isKnown ended := by
    rcases (known_finished i).mp ⟨isKnown, ended⟩ with ⟨old, before⟩
    exact has.measured i old before
  named := has.named
  distinct := has.distinct
  listed := has.listed

/-- A request which finishes enters the history. -/
theorem HasMetrics.record (has : HasMetrics known s history) {metrics : RequestMetrics}
    (others : ∀ j, j ≠ i → s'.seqs j = s.seqs j) (isKnown : known i)
    (notBefore : (s.seqs i).status ≠ .finished) (finished : (s'.seqs i).status = .finished)
    (measured : (s'.seqs i).metrics = .ok metrics) (named : metrics.seqId = i) :
    HasMetrics known s' (history.record i metrics) := by
  have absent : history.metricsBySeqId i = none := by
    by_contra present
    rcases Option.ne_none_iff_exists'.mp present with ⟨old, entry⟩
    exact notBefore ((has.byId i old).mp entry).2.1
  have differ : ∀ old ∈ history.completedMetrics, old.seqId ≠ i := by
    intro old mem same
    have entry := (has.listed old).mp mem
    rw [same, absent] at entry
    cases entry
  constructor
  · intro j metrics'
    by_cases self : j = i
    · subst self
      rw [MetricsHistory.record_self, measured]
      constructor
      · intro entry
        cases entry
        exact ⟨isKnown, finished, rfl⟩
      · rintro ⟨-, -, same⟩
        cases same
        rfl
    · rw [MetricsHistory.record_of_ne self, others j self]
      exact has.byId j metrics'
  · intro j isKnown' ended
    by_cases self : j = i
    · subst self
      rw [MetricsHistory.record_self]
      exact Option.some_ne_none _
    · rw [others j self] at ended
      rw [MetricsHistory.record_of_ne self]
      exact has.measured j isKnown' ended
  · intro j metrics' entry
    by_cases self : j = i
    · subst self
      rw [MetricsHistory.record_self] at entry
      cases entry
      exact named
    · rw [MetricsHistory.record_of_ne self] at entry
      exact has.named j metrics' entry
  · rw [MetricsHistory.record_completed, List.map_append, List.map_singleton, named]
    apply List.Nodup.append has.distinct (List.nodup_singleton _)
    intro j mem self
    rw [List.mem_singleton] at self
    rcases List.mem_map.mp mem with ⟨old, mem', same⟩
    exact differ old mem' (same.trans self)
  · intro metrics'
    rw [MetricsHistory.record_completed, List.mem_append, List.mem_singleton]
    by_cases self : metrics'.seqId = i
    · rw [self, MetricsHistory.record_self, Option.some_inj]
      constructor
      · rintro (mem | same)
        · exact absurd self (differ metrics' mem)
        · exact same.symm
      · intro same
        exact .inr same.symm
    · rw [MetricsHistory.record_of_ne self, ← has.listed]
      apply or_iff_left
      rintro rfl
      exact self named

/-- The loop of `postprocess` keeps the metrics of the requests which it finishes. -/
theorem recordLoop_spec (now : ℚ) (isPrefill : Bool) (events : List (SeqId × Token)) :
    ∀ (s : Scheduler) (history : MetricsHistory),
      Valid cfg ids kv Sequence.computedTokens [] (events.map Prod.fst) s →
      (∀ i ∈ events.map Prod.fst, isPrefill = false →
        (s.seqs i).computedTokens = (s.seqs i).numTokens) →
      HasMetrics (· ∈ ids) s history →
      ∃ s' history', postprocessLoop cfg now isPrefill events s = .ok s' ∧
        recordLoop cfg now isPrefill events (s, history) = .ok (s', history') ∧
        history.completedMetrics <+: history'.completedMetrics ∧
        HasMetrics (· ∈ ids) s' history' := by
  induction events with
  | nil => exact fun s history _ _ has => ⟨s, history, rfl, rfl, List.prefix_rfl, has⟩
  | cons event rest ih =>
    rcases event with ⟨i, tokenId⟩
    intro s history valid ready has
    rcases valid.postprocessSeq (ready i List.mem_cons_self) tokenId now with
      ⟨s₁, processed, valid₁, processes⟩
    have notLater := valid.batch_rest.2.2
    have ready₁ : ∀ j ∈ rest.map Prod.fst, isPrefill = false →
        (s₁.seqs j).computedTokens = (s₁.seqs j).numTokens := by
      intro j mem decode
      have differ : j ≠ i := by
        rintro rfl
        exact notLater mem
      rw [processes.others differ]
      exact ready j (List.mem_cons_of_mem _ mem) decode
    rcases valid.scheduled_live List.mem_cons_self with ⟨known, live⟩
    have notBefore : (s.seqs i).status ≠ .finished := by
      intro ended
      rw [ended] at live
      exact live
    have recorded : ∃ history₁,
        recordSeq cfg now isPrefill s history i tokenId = .ok (s₁, history₁) ∧
        history.completedMetrics <+: history₁.completedMetrics ∧
        HasMetrics (· ∈ ids) s₁ history₁ := by
      by_cases finished : (s₁.seqs i).status = .finished
      · rcases postprocessSeq_metrics live processed finished with ⟨metrics, measured, named⟩
        have name : (s₁.seqs i).seqId = i := (valid₁.request i known).named
        refine ⟨history.record i metrics, ?_, List.prefix_append _ _, ?_⟩
        · rw [recordSeq, processed, Py.ok_bind, if_pos finished, measured, Py.ok_bind, name]
        · exact has.record (fun j => processes.others) known notBefore finished measured
            (named.trans name)
      · refine ⟨history, ?_, List.prefix_rfl, ?_⟩
        · rw [recordSeq, processed, Py.ok_bind, if_neg finished]
        · apply has.of_same
          · intro j _ ended
            apply processes.others
            rintro rfl
            exact notBefore ended
          · intro j
            by_cases self : j = i
            · subst self
              exact iff_of_false (fun ended => finished ended.2) fun ended => notBefore ended.2
            · rw [processes.others self]
    rcases recorded with ⟨history₁, recorded, before, has₁⟩
    rcases ih s₁ history₁ valid₁ ready₁ has₁ with
      ⟨s', history', looped, recorded', after, has'⟩
    refine ⟨s', history', ?_, ?_, before.trans after, has'⟩
    · rw [postprocessLoop, processed, Py.ok_bind]
      exact looped
    · rw [recordLoop, recorded, Py.ok_bind]
      exact recorded'

end Scheduler

namespace System

open Scheduler

variable {cfg : Config} {sys sys' : System} {op : Op cfg} {history : MetricsHistory}

/-- Only `postprocess` changes which known requests have finished. -/
theorem Steps.keepsMetrics (steps : Steps cfg sys op sys') (valid : sys.Valid cfg)
    (enabled : sys.Enabled op)
    (notPostprocess : ∀ tokenIds elapsedMs now, op ≠ .postprocess tokenIds elapsedMs now)
    (has : HasMetrics (· ∈ sys.known) sys.scheduler history) :
    HasMetrics (· ∈ sys'.known) sys'.scheduler history := by
  have ended : ∀ i ∈ sys.known, (sys.scheduler.seqs i).status = .finished →
      sys'.scheduler.seqs i = sys.scheduler.seqs i := by
    intro i known finished
    apply steps.ended valid enabled known
    rw [finished]
    exact id
  apply has.of_same ended
  intro i
  by_cases old : i ∈ sys.known
  · rw [and_iff_right old, and_iff_right (steps.known_subset old)]
    constructor
    · exact steps.not_finished valid enabled old notPostprocess
    · intro finished
      rw [ended i old finished]
      exact finished
  · apply iff_of_false _ fun known => old known.1
    rintro ⟨known, finished⟩
    rcases steps.known_or_added known with before | ⟨request, now, -, self⟩
    · exact old before
    · rw [self] at finished
      cases finished

end System

namespace SummaryCache

variable {cache : SummaryCache} {mode : MetricsSummaryMode}
  {completed completed' : List RequestMetrics}

/-- What is kept of a history which only grows. -/
structure Fresh (mode : MetricsSummaryMode) (cache : SummaryCache)
    (completed : List RequestMetrics) : Prop where
  summary : ∀ n : ℕ, cache.completedSummaryCount = n → n ≤ completed.length ∧
    cache.completedSummary = some (summarizeMetrics (completed.take n))
  count : -1 ≤ cache.completedSummaryCount
  full : mode = .full → cache.summaryRefreshes = cache.summaryCalls
  cached : mode = .cached → (cache.summaryRefreshes : ℤ) ≤ cache.completedSummaryCount + 1

theorem Fresh.init : Fresh mode .init [] where
  summary n negative := by
    have nonneg := Int.natCast_nonneg n
    rw [← negative] at nonneg
    exact absurd nonneg (by decide)
  count := le_rfl
  full _ := rfl
  cached _ := le_rfl

theorem Fresh.grow (fresh : Fresh mode cache completed) (grows : completed <+: completed') :
    Fresh mode cache completed' where
  summary n count := by
    rcases fresh.summary n count with ⟨inside, summary⟩
    refine ⟨inside.trans grows.length_le, ?_⟩
    rw [summary, List.prefix_iff_eq_take.mp grows, List.take_take, min_eq_left inside]
  count := fresh.count
  full := fresh.full
  cached := fresh.cached

theorem Fresh.count_le (fresh : Fresh mode cache completed) :
    cache.completedSummaryCount ≤ completed.length := by
  by_cases known : 0 ≤ cache.completedSummaryCount
  · rcases Int.eq_ofNat_of_zero_le known with ⟨n, count⟩
    rw [count]
    exact Int.ofNat_le.mpr (fresh.summary n count).1
  · exact (Int.not_le.mp known).le.trans (Int.natCast_nonneg _)

theorem Fresh.refresh (fresh : Fresh mode cache completed) :
    Fresh mode (cache.refresh mode completed) completed := by
  rw [SummaryCache.refresh]
  split
  · next stale =>
    constructor
    · intro n count
      have length : completed.length = n := Int.ofNat_inj.mp count
      rw [← length, List.take_length]
      exact ⟨le_rfl, rfl⟩
    · exact (by decide : (-1 : ℤ) ≤ 0).trans (Int.natCast_nonneg _)
    · intro full
      exact congrArg (· + 1) (fresh.full full)
    · intro cached
      have grown : cache.completedSummaryCount < completed.length := by
        apply lt_of_le_of_ne fresh.count_le
        rintro same
        apply stale.elim
        · intro full
          rw [full] at cached
          cases cached
        · exact fun differ => differ same.symm
      have before := fresh.cached cached
      change ((cache.summaryRefreshes + 1 : ℕ) : ℤ) ≤ completed.length + 1
      push_cast
      omega
  · next same =>
    rw [not_or] at same
    exact ⟨fresh.summary, fresh.count, fun full => absurd full same.1, fresh.cached⟩

end SummaryCache

namespace Monitor

open Scheduler

variable {cfg : Config} {mode : MetricsSummaryMode} {monitor monitor' : Monitor}
  {call : EngineCall cfg}

/-- The invariant of the engine with its metrics. -/
structure Valid (cfg : Config) (mode : MetricsSummaryMode) (monitor : Monitor) : Prop where
  reachable : System.Reachable cfg monitor.system
  has : HasMetrics (· ∈ monitor.system.known) monitor.system.scheduler monitor.history
  fresh : monitor.cache.Fresh mode monitor.history.completedMetrics

theorem Valid.init : (init cfg).Valid cfg mode where
  reachable := .init
  has := by
    constructor
    · intro i metrics
      apply iff_of_false
      · intro entry
        cases entry
      · rintro ⟨known, -⟩
        cases known
    · intro i known
      cases known
    · intro i metrics entry
      cases entry
    · exact List.nodup_nil
    · intro metrics
      apply iff_of_false
      · intro mem
        cases mem
      · intro entry
        cases entry
  fresh := .init

/-- The history after an operation which the engine performs. -/
theorem Valid.recorded (valid : monitor.Valid cfg mode) {op : Op cfg}
    (enabled : monitor.system.Enabled op) :
    ∃ history system, monitor.recorded op = .ok history ∧
      monitor.system.step cfg op = .ok system ∧
      monitor.history.completedMetrics <+: history.completedMetrics ∧
      HasMetrics (· ∈ system.known) system.scheduler history := by
  have sysValid := valid.reachable.valid
  rcases System.postprocess_or_other op with ⟨tokenIds, elapsedMs, now, rfl⟩ | other
  · rcases enabled with ⟨batch, flying, -, sampled⟩
    rw [Option.mem_def] at flying
    rcases sysValid.ran flying with ⟨ran, result, same, known, validRan⟩
    have requests : (batch.seqs.zip tokenIds).map Prod.fst = batch.seqs :=
      List.map_fst_zip sampled.ge
    have observed : (ran.scheduler.observeExecution cfg batch.isPrefill
        (System.observedTokens ran.scheduler.seqs batch) elapsedMs).Valid cfg
          monitor.system.known.toFinset ran.kv Sequence.computedTokens [] batch.seqs :=
      validRan.observeExecution _ elapsedMs
    have has : HasMetrics (· ∈ monitor.system.known.toFinset)
        (ran.scheduler.observeExecution cfg batch.isPrefill
          (System.observedTokens ran.scheduler.seqs batch) elapsedMs) monitor.history := by
      simp only [List.mem_toFinset, same]
      exact valid.has.of_same (fun _ _ _ => rfl) fun _ => Iff.rfl
    rcases recordLoop_spec now batch.isPrefill (batch.seqs.zip tokenIds) _ monitor.history
      (by rwa [requests]) (by
        rw [requests]
        intro i mem decode
        change (ran.scheduler.seqs i).computedTokens = (ran.scheduler.seqs i).numTokens
        rw [same]
        exact ((sysValid.ready batch flying i mem).decode decode).2.1) has with
      ⟨s', history', looped, recorded, grows, has'⟩
    let system : System := { ran with
      scheduler := s'
      inFlight := none
      events := ran.events ++
        System.tokenEvents ran.scheduler.seqs s'.seqs (batch.seqs.zip tokenIds) }
    refine ⟨history', system, ?_, ?_, grows, ?_⟩
    · simp only [Monitor.recorded, flying, result, Py.ok_bind, recorded]
    · simp only [System.step, flying, result, Py.ok_bind, Scheduler.postprocess, looped,
        system]
    · simp only [List.mem_toFinset, ← known] at has'
      exact has'
  · rcases sysValid.step enabled with ⟨system, stepped, -, steps⟩
    refine ⟨monitor.history, system, ?_, stepped, List.prefix_rfl,
      steps.keepsMetrics sysValid enabled other valid.has⟩
    cases op with
    | postprocess => exact absurd rfl (other _ _ _)
    | add | schedule | runFailed | cancel | completeRemoteRestore | failRemoteRestore => rfl

/-- Every call which is enabled returns, and it keeps the invariant. -/
theorem Valid.step (valid : monitor.Valid cfg mode) (enabled : monitor.Enabled call) :
    ∃ monitor', monitor.step cfg mode call = .ok monitor' ∧ monitor'.Valid cfg mode := by
  cases call with
  | metrics =>
    exact ⟨_, rfl, valid.reachable, valid.has, valid.fresh.refresh⟩
  | engine op =>
    rcases valid.recorded enabled with ⟨history, system, recorded, stepped, grows, has⟩
    refine ⟨{ monitor with system, history }, ?_, .step valid.reachable enabled trivial stepped,
      has, valid.fresh.grow grows⟩
    rw [Monitor.step, recorded, Py.ok_bind, stepped, Py.ok_bind]

theorem Reachable.valid (reachable : Reachable cfg mode monitor) : monitor.Valid cfg mode := by
  induction reachable with
  | init => exact .init
  | step _ enabled stepped ih => exact Py.of_ok stepped (ih.step enabled)

/-- The state after a call; a call which raises is skipped. -/
def next (cfg : Config) (mode : MetricsSummaryMode) (monitor : Monitor) (call : EngineCall cfg) :
    Monitor :=
  match monitor.step cfg mode call with
  | .ok monitor' => monitor'
  | .error _ => monitor

/-- Every call is enabled when its turn comes. -/
def EnabledAll (cfg : Config) (mode : MetricsSummaryMode) : Monitor → List (EngineCall cfg) → Prop
  | _, [] => True
  | monitor, call :: calls =>
      monitor.Enabled call ∧ EnabledAll cfg mode (next cfg mode monitor call) calls

instance decidableEnabled (monitor : Monitor) : ∀ call : EngineCall cfg,
    Decidable (monitor.Enabled call)
  | .engine op => inferInstanceAs (Decidable (monitor.system.Enabled op))
  | .metrics => .isTrue trivial

instance decidableEnabledAll : ∀ monitor calls, Decidable (EnabledAll cfg mode monitor calls)
  | _, [] => .isTrue trivial
  | monitor, call :: calls =>
      have := decidableEnabledAll (next cfg mode monitor call) calls
      inferInstanceAs (Decidable (monitor.Enabled call ∧
        EnabledAll cfg mode (next cfg mode monitor call) calls))

theorem Reachable.foldl (reachable : Reachable cfg mode monitor) {calls : List (EngineCall cfg)}
    (enabled : EnabledAll cfg mode monitor calls) :
    Reachable cfg mode (calls.foldl (next cfg mode) monitor) := by
  induction calls generalizing monitor with
  | nil => exact reachable
  | cons call calls ih =>
    rcases reachable.valid.step enabled.1 with ⟨monitor', stepped, -⟩
    have same : next cfg mode monitor call = monitor' := by
      rw [next, stepped]
    apply ih _ enabled.2
    rw [same]
    exact .step reachable enabled.1 stepped

end Monitor

end NanoVllm
