import NanoVllm.Engine.Phases
import NanoVllm.Scheduler.Urgency

/-!
# Urgency in the decode phase

Under PALS every decode phase splits the running requests, in the order of their urgency at its
start, into those which are scheduled, those which keep running and those which are preempted.
-/

namespace NanoVllm

namespace System

open Scheduler SortBy

variable {cfg : Config} {env : ScheduleEnv cfg} {now : ℚ} {sys : System} {s s₁ : Scheduler}

/--
Under PALS the running requests at the start of a decode phase, in the order of their urgency, are
the scheduled ones, the ones left running and the preempted ones. Every preempted request is less
urgent than all which are scheduled or keep running.
-/
theorem decode_partition (pals : cfg.schedulingPolicy = .pals) (reachable : Reachable cfg sys)
    (starts : StartsOnce cfg env sys s now)
    (prefilled : s.prefillPhase cfg env now = .ok (s₁, [])) :
    ∃ s₂ sched retry preempted,
      decodeLoop cfg env now (s₁.running.length + 1) s₁ [] false = .ok (s₂, sched, retry) ∧
      s₁.order cfg now s₁.running = sched ++ s₁.order cfg now s₂.running ++ preempted ∧
      s₂.waiting = preempted ++ s₁.waiting ∧
      ∀ v ∈ preempted, ∀ i ∈ sched ++ s₂.running,
        palsKey cfg s₁.estimator s₁.seqs s₁.stepId now i <
          palsKey cfg s₁.estimator s₁.seqs s₁.stepId now v := by
  have valid := (Decoding.reach starts prefilled .start).valid reachable.valid
  rcases decodeLoop_spec env now (s₁.running.length + 1) s₁ [] false valid (Nat.lt_succ_self _)
    with ⟨s₂, sched, retry, looped, decodes⟩
  rcases decodes.partition pals with ⟨-, scheduled, preempted, all, ordered, waiting⟩
  rw [List.nil_append] at all
  subst all
  refine ⟨s₂, sched, retry, preempted, looped, ordered, waiting, ?_⟩
  intro v dropped i kept
  have distinct : s₁.running.Nodup := (List.nodup_append.mp (valid.scheduler.distinct .running)).1
  have sorted := pairwise_sortBy (palsKey cfg s₁.estimator s₁.seqs s₁.stepId now) s₁.running
  have unique := (sortBy_perm (palsKey cfg s₁.estimator s₁.seqs s₁.stepId now)
    s₁.running).nodup_iff.mpr distinct
  change (s₁.order cfg now s₁.running).Pairwise _ at sorted
  change (s₁.order cfg now s₁.running).Nodup at unique
  rw [ordered, List.pairwise_append] at sorted
  rw [ordered, List.nodup_append] at unique
  have before : i ∈ sched ++ s₁.order cfg now s₂.running := by
    rcases List.mem_append.mp kept with first | left
    · exact List.mem_append_left _ first
    · exact List.mem_append_right _ (mem_sortBy.mpr left)
  apply lt_of_le_of_ne (sorted.2.2 i before v dropped)
  intro same
  exact unique.2.2 i before v dropped (palsKey_injective cfg _ _ _ _ same)

/-- PALS with two pages of two tokens. -/
def twoPagesPals : Config := { defaultConfig 2 2 2 two_le_two with schedulingPolicy := .pals }

/-- Two requests of one page each, of which both need another one. -/
def twoPagesRun : System := (init twoPagesPals).runOps twoPagesPals
  [.add (plainRequest 0 1 8) 0, .add (plainRequest 1 1 8) 0, .schedule (idleEnv _),
    .postprocess [1, 1] 0 0, .schedule (idleEnv _), .postprocess [1, 1] 0 0]

/-- The second request is preempted for the first one. -/
theorem decode_partition_twoPages :
    ∃ s₂ sched retry preempted,
      decodeLoop twoPagesPals (idleEnv _) 0 3 twoPagesRun.scheduler.nextStep [] false =
        .ok (s₂, sched, retry) ∧
      [0, 1] = sched ++ twoPagesRun.scheduler.nextStep.order twoPagesPals 0 s₂.running ++ preempted ∧
      sched = [0] ∧ s₂.waiting = preempted := by
  have reachable : Reachable twoPagesPals twoPagesRun := ReachableBy.runOps .init (by decide +kernel)
  have idle : twoPagesRun.inFlight = none := by decide +kernel
  have starts : StartsOnce twoPagesPals (idleEnv _) twoPagesRun twoPagesRun.scheduler.nextStep 0 :=
    .first idle
  have queues : (twoPagesRun.scheduler.nextStep.running, twoPagesRun.scheduler.nextStep.waiting) =
      ([0, 1], []) := by decide +kernel
  rcases Prod.mk.inj queues with ⟨running, empty⟩
  have noPrefill : shouldSchedulePrefill twoPagesPals twoPagesRun.scheduler.nextStep.estimator
      twoPagesRun.scheduler.nextStep.seqs twoPagesRun.scheduler.nextStep.stepId 0
      twoPagesRun.scheduler.nextStep.waiting twoPagesRun.scheduler.nextStep.running ≠ true := by
    decide +kernel
  have result : (decodeLoop twoPagesPals (idleEnv _) 0 3 twoPagesRun.scheduler.nextStep [] false).map
      (fun result => result.2.1) = .ok [0] := by decide +kernel
  rcases decode_partition rfl reachable starts (if_neg noPrefill) with
    ⟨s₂, sched, retry, preempted, looped, ordered, waiting, -⟩
  have sorted : twoPagesRun.scheduler.nextStep.order twoPagesPals 0 [0, 1] = [0, 1] := by
    decide +kernel
  rw [running] at looped ordered
  rw [sorted] at ordered
  rw [empty, List.append_nil] at waiting
  rw [show decodeLoop twoPagesPals (idleEnv _) 0 3 twoPagesRun.scheduler.nextStep [] false = _ from
    looped] at result
  cases result
  exact ⟨s₂, [0], retry, preempted, looped, ordered, rfl, waiting⟩

end System

end NanoVllm
