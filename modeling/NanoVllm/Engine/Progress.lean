import NanoVllm.Engine.Runs
import NanoVllm.Scheduler.Progress

/-!
# Progress of the serving loop

While a request is left and every request fits into the memory when it is alone, `schedule()`
returns a batch. The batch is only empty while a remote restore is pending.
-/

namespace NanoVllm

namespace System

variable {cfg : Config} {sys : System}

/--
`schedule()` ends and raises nothing, and it returns a nonempty batch or leaves a remote restore
pending.
-/
theorem schedule_progress (reachable : Reachable cfg sys) (idle : sys.inFlight = none)
    (busy : sys.scheduler.isFinished = false) (sequences : 1 ≤ cfg.maxNumSeqs)
    (tokens : 1 ≤ cfg.maxNumBatchedTokens)
    (fits : sys.scheduler.FitAlone cfg sys.known.toFinset) (env : ScheduleEnv cfg) :
    ∃ s' seqs isPrefill, sys.scheduler.schedule cfg env = .ok (s', .batch seqs isPrefill) ∧
      (s'.pendingRestores = [] → seqs ≠ []) := by
  have valid := reachable.valid.scheduler
  rw [batch_of_none idle] at valid
  rcases valid.schedule env with ⟨s', outcome, scheduled, schedules⟩
  rcases schedules.progress valid tokens sequences fits busy with ⟨seqs, isPrefill, rfl, batched⟩
  exact ⟨s', seqs, isPrefill, scheduled, batched⟩

/-- Two requests share a memory which either of them fills. -/
def crowded : Config := defaultConfig 2 4 2 two_le_two

/-- Both requests have got their first token and need a new page. -/
def crowdedRun : System := (init crowded).runOps crowded
  [.add (plainRequest 0 4 4) 0, .add (plainRequest 1 4 4) 0, .schedule (idleEnv _),
    .postprocess [1, 1] 0 0]

/-- Either request fits into the memory when it is alone. -/
theorem crowdedRun_fits : crowdedRun.scheduler.FitAlone crowded crowdedRun.known.toFinset := by
  have each : ∀ i ∈ crowdedRun.known.toFinset,
      1 ≤ (crowdedRun.scheduler.seqs i).maxTokens ∧
        (crowdedRun.scheduler.seqs i).numPromptTokens +
          (crowdedRun.scheduler.seqs i).maxTokens ≤ crowded.numBlocks * crowded.blockSize := by
    decide +kernel
  intro i known _
  exact ⟨(each i known).1, (each i known).2⟩

/-- The next call preempts one request and returns the other one. -/
theorem schedule_progress_crowded : crowdedRun.scheduler.blockManager.freeBlockIds = [] ∧
    ∃ s' seqs isPrefill, crowdedRun.scheduler.schedule crowded (idleEnv _) =
      .ok (s', .batch seqs isPrefill) ∧ (s'.pendingRestores = [] → seqs ≠ []) := by
  have reachable : Reachable crowded crowdedRun := ReachableBy.runOps .init (by decide +kernel)
  exact ⟨by decide +kernel, schedule_progress reachable (by decide +kernel) (by decide +kernel)
    (by decide) (by decide) crowdedRun_fits (idleEnv _)⟩

end System

end NanoVllm
