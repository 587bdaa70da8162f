import NanoVllm.Scheduler.Decode
import NanoVllm.Library.SortBy

/-!
# The decode phase under PALS

The decode loop takes the most urgent running request and makes room for it by preempting the
least urgent ones. A request which still runs has not been changed, so all selections follow the
order of the running queue at the start: its first requests are scheduled, its last ones are
preempted, and those between keep running.
-/

namespace NanoVllm

open SortBy

variable {cfg : Config} {estimator : ExecutionTimeEstimator} {seqs seqs' : SeqId → Sequence}
  {step : ℕ} {now : ℚ} {queue : List SeqId} {i : SeqId}

theorem palsKey_injective (cfg : Config) (estimator : ExecutionTimeEstimator)
    (seqs : SeqId → Sequence) (step : ℕ) (now : ℚ) :
    Function.Injective (palsKey cfg estimator seqs step now) := by
  intro i j same
  have rest := congrArg (fun key => (ofLex key).2) same
  exact congrArg (fun key => (ofLex key).2) rest

/-- Requests in the order of `(budget_ms, arrival_step, seq_id)`. -/
def byUrgency (cfg : Config) (estimator : ExecutionTimeEstimator) (seqs : SeqId → Sequence)
    (step : ℕ) (now : ℚ) (queue : List SeqId) : List SeqId :=
  sortBy (palsKey cfg estimator seqs step now) queue

theorem byUrgency_congr (same : ∀ i ∈ queue, seqs' i = seqs i) :
    byUrgency cfg estimator seqs' step now queue = byUrgency cfg estimator seqs step now queue := by
  apply sortBy_congr (palsKey_injective cfg estimator seqs step now)
  intro i mem
  rw [palsKey, same i mem]
  rfl

theorem byUrgency_selectNext (pals : cfg.schedulingPolicy = .pals)
    (selected : selectNext cfg estimator seqs step now queue = some i) :
    byUrgency cfg estimator seqs step now queue =
      i :: byUrgency cfg estimator seqs step now (queue.erase i) := by
  apply sortBy_argmin (palsKey_injective cfg estimator seqs step now)
  simpa [selectNext, pals] using selected

theorem byUrgency_selectPreemptionVictim (pals : cfg.schedulingPolicy = .pals)
    (selected : selectPreemptionVictim cfg estimator seqs step now queue = some i) :
    byUrgency cfg estimator seqs step now queue =
      byUrgency cfg estimator seqs step now (queue.erase i) ++ [i] := by
  apply sortBy_argmax (palsKey_injective cfg estimator seqs step now)
  simpa [selectPreemptionVictim, pals] using selected

namespace Scheduler

variable {ids : Finset SeqId} {kv : KvStore} {sched sched' : List SeqId} {s s' : Scheduler}
  {retry retry' scheduled : Bool}

/-- Requests of a scheduler in the order of their urgency. -/
def order (cfg : Config) (s : Scheduler) (now : ℚ) (queue : List SeqId) : List SeqId :=
  byUrgency cfg s.estimator s.seqs s.stepId now queue

@[simp] theorem order_nil (cfg : Config) (s : Scheduler) (now : ℚ) : s.order cfg now [] = [] := rfl

theorem Follows.order_eq (follows : Follows s s') (same : ∀ i ∈ queue, s'.seqs i = s.seqs i) :
    s'.order cfg now queue = s.order cfg now queue := by
  rw [order, order, follows.stepId, follows.estimator]
  exact byUrgency_congr same

/--
Making room for the next token of `i` preempts the last running requests, and at last `i` itself
when no other request runs.
-/
theorem Evicts.partition (pals : cfg.schedulingPolicy = .pals)
    (evicts : Evicts cfg now i s s' scheduled) (distinct : (i :: s.running).Nodup) :
    (∀ j ∈ s'.running, s'.seqs j = s.seqs j) ∧
      ∃ preempted, s.order cfg now s.running = s.order cfg now s'.running ++ preempted ∧
        s'.waiting = (if scheduled then preempted else i :: preempted) ++ s.waiting := by
  induction evicts with
  | room _ => exact ⟨fun _ _ => rfl, [], (List.append_nil _).symm, rfl⟩
  | @victim s s₁ s' v scheduled _ selected preempts rest ih =>
    have mem := selectPreemptionVictim_mem selected
    rw [List.nodup_cons] at distinct
    have running : s₁.running = s.running.erase v := preempts.running
    have others : ∀ j ∈ s₁.running, s₁.seqs j = s.seqs j := by
      intro j inside
      rcases preempts.seqs with ⟨seq, keep, seqs, -⟩
      rw [running] at inside
      rw [seqs, Function.update_of_ne ((List.Nodup.mem_erase_iff distinct.2).mp inside).1]
      rfl
    have apart : (i :: s₁.running).Nodup := by
      rw [running, List.nodup_cons]
      exact ⟨fun inside => distinct.1 (List.mem_of_mem_erase inside), distinct.2.erase v⟩
    rcases ih apart with ⟨kept, preempted, ordered, waiting⟩
    have follows : Follows s s₁ := (takeOut_follows s v).trans preempts.follows
    have sublist := rest.running_sublist.subset
    refine ⟨?_, preempted ++ [v], ?_, ?_⟩
    · intro j inside
      rw [kept j inside, others j (sublist inside)]
    · rw [follows.order_eq others,
        follows.order_eq fun j inside => others j (sublist inside), running] at ordered
      rw [order, byUrgency_selectPreemptionVictim pals selected, ← List.append_assoc]
      exact congrArg (· ++ [v]) ordered
    · rw [waiting, preempts.waiting]
      cases scheduled <;> simp [takeOut]
  | @self s s' _ alone preempts =>
    refine ⟨?_, [], ?_, ?_⟩
    · intro j inside
      rw [preempts.running, alone] at inside
      cases inside
    · rw [preempts.running, List.append_nil]
    · exact preempts.waiting

/-- Taking out the selected request leaves the other running requests alone. -/
theorem DecodeValid.select_others (valid : DecodeValid cfg ids kv sched s)
    {budget : Option ℚ} {s₁ : Scheduler}
    (touches : Touches ((s.withBudget i budget).takeOut i) i s₁) :
    s₁.running = s.running.erase i ∧ (i :: s₁.running).Nodup ∧
      ∀ j ∈ s₁.running, s₁.seqs j = s.seqs j := by
  have distinct := (List.nodup_append.mp (valid.scheduler.distinct .running)).1
  change s.running.Nodup at distinct
  have running : s₁.running = s.running.erase i := touches.running
  rw [running, List.nodup_cons]
  refine ⟨rfl, ⟨?_, distinct.erase i⟩, ?_⟩
  · intro inside
    exact ((List.Nodup.mem_erase_iff distinct).mp inside).1 rfl
  · intro j inside
    rcases touches.seqs with ⟨seq, seqs, -⟩
    have differ := ((List.Nodup.mem_erase_iff distinct).mp inside).1
    rw [seqs, Function.update_of_ne differ]
    exact Function.update_of_ne differ _ _

/-- Taking out the first request and making room for it preempts the last ones. -/
theorem DecodeValid.makeRoom_partition (pals : cfg.schedulingPolicy = .pals)
    (valid : DecodeValid cfg ids kv sched s)
    (selected : selectNext cfg s.estimator s.seqs s.stepId now s.running = some i)
    {budget : Option ℚ} {s₁ s₂ : Scheduler}
    (touches : Touches ((s.withBudget i budget).takeOut i) i s₁)
    (evicts : Evicts cfg now i s₁ s₂ scheduled) :
    Follows s s₂ ∧ s₂.running ⊆ s.running.erase i ∧ (∀ j ∈ s₂.running, s₂.seqs j = s.seqs j) ∧
      ∃ preempted, s.order cfg now s.running = i :: (s.order cfg now s₂.running ++ preempted) ∧
        s₂.waiting = (if scheduled then preempted else i :: preempted) ++ s.waiting := by
  have mem := selectNext_mem selected
  have follows := valid.follows mem touches
  have sublist := evicts.running_sublist.subset
  rcases valid.select_others touches with ⟨running, apart, others⟩
  rcases evicts.partition pals apart with ⟨kept, preempted, ordered, waiting⟩
  rw [follows.order_eq others, follows.order_eq fun j inside => others j (sublist inside),
    running] at ordered
  refine ⟨follows.trans evicts.follows, running ▸ sublist, ?_, preempted, ?_, ?_⟩
  · intro j inside
    rw [kept j inside, others j (sublist inside)]
  · rw [← ordered]
    exact byUrgency_selectNext pals selected
  · rw [waiting, touches.waiting]
    rfl

/-- The decode loop schedules the first running requests and preempts the last ones. -/
theorem Decodes.partition (pals : cfg.schedulingPolicy = .pals)
    (decodes : Decodes cfg ids kv now s sched retry s' sched' retry') :
    s'.running ⊆ s.running ∧ ∃ scheduled preempted, sched' = sched ++ scheduled ∧
      s.order cfg now s.running = scheduled ++ s.order cfg now s'.running ++ preempted ∧
      s'.waiting = preempted ++ s.waiting := by
  induction decodes with
  | stop _ _ =>
    exact ⟨List.Subset.refl _, [], [], (List.append_nil _).symm, (List.append_nil _).symm, rfl⟩
  | @scheduled s s₁ s₂ s₃ s' sched sched' _ _ i budget valid _ selected touches evicts schedules
      rest ih =>
    rcases valid.makeRoom_partition pals selected touches evicts with
      ⟨follows, subset, others, preempted, ordered, waiting⟩
    rcases ih with ⟨subset', scheduled, preempted', rfl, ordered', waiting'⟩
    rw [schedules.running] at subset' ordered'
    have notRunning : ∀ j ∈ s₂.running, j ≠ i := by
      rintro j inside rfl
      have distinct := (List.nodup_append.mp (valid.scheduler.distinct .running)).1
      exact ((List.Nodup.mem_erase_iff distinct).mp (subset inside)).1 rfl
    have others' : ∀ j ∈ s₂.running, s₃.seqs j = s.seqs j := by
      intro j inside
      rcases schedules.seqs with ⟨seq, seqs⟩
      rw [seqs, Function.update_of_ne (notRunning j inside), others j inside]
    have follows' := follows.trans schedules.follows
    rw [follows'.order_eq others', follows'.order_eq fun j inside => others' j (subset' inside)]
      at ordered'
    refine ⟨?_, i :: scheduled, preempted' ++ preempted, ?_, ?_, ?_⟩
    · intro j inside
      exact List.mem_of_mem_erase (subset (subset' inside))
    · rw [List.append_assoc]
      rfl
    · rw [ordered, ordered']
      simp
    · rw [waiting', schedules.waiting, waiting]
      simp
  | @preempted s s₁ s₂ s' sched sched' _ _ i budget valid _ selected touches evicts rest ih =>
    rcases valid.makeRoom_partition pals selected touches evicts with
      ⟨follows, subset, others, preempted, ordered, waiting⟩
    rcases ih with ⟨subset', scheduled, preempted', rfl, ordered', waiting'⟩
    have alone := evicts.running_of_self
    rw [alone] at subset' ordered' ordered
    have none := List.subset_nil.mp subset'
    rw [none, order_nil, eq_comm, List.append_eq_nil_iff, List.append_eq_nil_iff]
      at ordered'
    rcases ordered' with ⟨⟨rfl, -⟩, rfl⟩
    rw [none]
    refine ⟨List.nil_subset _, [], i :: preempted, rfl, ordered, ?_⟩
    rw [waiting', waiting]
    rfl

end Scheduler

end NanoVllm
