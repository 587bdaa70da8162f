import NanoVllm.Engine.Progress
import NanoVllm.Scheduler.Work

/-!
# Termination of closed runs

Without a remote restore service and without further requests, `LLMEngine.generate` repeats rounds
of `schedule()` and `postprocess` until every request has finished. Every round produces a token or
decreases the work of the prefill phase, so the loop ends.
-/

namespace NanoVllm

namespace System

open Scheduler

variable {cfg : Config} {sys sys' : System} {op : Op cfg}

/-- What a round of a closed run takes from outside: clocks and the sampled tokens. -/
structure RoundInput (cfg : Config) where
  env : ScheduleEnv cfg
  closed : env.service = .absent cfg
  sample : SeqId → Token
  elapsedMs : ℚ
  now : ℚ

/-- `LLMEngine.step` without a remote restore service. -/
def round (cfg : Config) (sys : System) (input : RoundInput cfg) : Py System := do
  let sys ← sys.step cfg (.schedule input.env)
  match sys.inFlight with
  | none => .error (.runtimeError "scheduler produced no runnable requests")
  | some batch =>
      sys.step cfg (.postprocess (batch.seqs.map input.sample) input.elapsedMs input.now)

/-- The loop of `LLMEngine.generate`. -/
def generate (cfg : Config) (sys : System) : ℕ → (ℕ → RoundInput cfg) → Py System
  | 0, _ => .error .loopLimit
  | fuel + 1, inputs =>
      if sys.scheduler.isFinished then .ok sys
      else do
        let sys ← sys.round cfg (inputs 0)
        sys.generate cfg fuel fun n => inputs (n + 1)

/-- The operations of a run without a remote restore service. -/
def Unserved : Op cfg → Prop
  | .schedule env => env.service = .absent cfg
  | _ => True

/-- The states reached without a remote restore service. -/
abbrev ReachableUnserved (cfg : Config) : System → Prop := ReachableBy cfg fun _ op => Unserved op

/-- Without a remote restore service no restore is pending. -/
theorem settled_of_unserved (reachable : ReachableUnserved cfg sys) :
    sys.scheduler.pendingRestores = [] := by
  refine @ReachableBy.induction cfg sys _ (fun sys => sys.scheduler.pendingRestores = []) ?_ ?_
    reachable
  · rfl
  intro sys sys' op _ _ unserved _ steps settled
  cases steps with
  | add => exact settled
  | schedule _ schedules => exact (schedules.pendingRestores unserved).trans settled
  | postprocess _ _ _ processes => exact processes.pendingRestores.trans settled
  | runFailed => exact settled
  | cancel _ _ cancels =>
    rw [cancels.pendingRestores, settled]
    rfl
  | cancelNothing => exact settled
  | completeRemoteRestore mem _ =>
    rw [settled] at mem
    cases mem
  | failRemoteRestore mem _ =>
    rw [settled] at mem
    cases mem

/-- The state of a closed run between two rounds. -/
structure Resting (cfg : Config) (sys : System) : Prop where
  reachable : ReachableUnserved cfg sys
  idle : sys.inFlight = none
  fits : sys.scheduler.FitAlone cfg sys.known.toFinset

/-- The work left in a closed run. -/
def work (cfg : Config) (sys : System) : ℕ × ℕ × ℕ × ℕ :=
  sys.scheduler.work cfg sys.known.toFinset

/-- The settings of the requests decide whether they fit alone. -/
theorem SameSettings.fitsAlone {seq seq' : Sequence} (same : SameSettings seq seq')
    (fits : seq.FitsAlone cfg) : seq'.FitsAlone cfg := by
  constructor
  · rw [same.maxTokens]
    exact fits.produces
  · rw [same.maxTokens, same.numPromptTokens]
    exact fits.window

/-- In a resting state with a request left, `schedule()` returns a nonempty batch. -/
theorem Resting.schedule (resting : Resting cfg sys) (busy : sys.scheduler.isFinished = false)
    (sequences : 1 ≤ cfg.maxNumSeqs) (tokens : 1 ≤ cfg.maxNumBatchedTokens)
    (input : RoundInput cfg) :
    ∃ s' inFlight, sys.step cfg (.schedule input.env) =
        .ok { sys with scheduler := s', inFlight := some inFlight } ∧
      inFlight.failed = false ∧ inFlight.seqs ≠ [] ∧
      SchedulesAll cfg sys.known.toFinset sys.kv input.env sys.scheduler s'
        (.batch inFlight.seqs inFlight.isPrefill) := by
  have valid := resting.reachable.valid.scheduler
  rw [batch_of_none resting.idle] at valid
  rcases valid.schedule input.env with ⟨s', outcome, scheduled, schedules⟩
  rcases schedules.progress valid tokens sequences resting.fits busy with
    ⟨seqs, isPrefill, rfl, batched⟩
  have nonempty : seqs ≠ [] := by
    apply batched
    rw [schedules.pendingRestores input.closed]
    exact settled_of_unserved resting.reachable
  refine ⟨s', { seqs, isPrefill, failed := false }, ?_, rfl, nonempty, schedules⟩
  simp only [System.step, scheduled, Py.ok_bind]
  cases seqs with
  | nil => exact absurd rfl nonempty
  | cons i seqs => rfl

/-- A round returns, and it leaves less work. -/
theorem Resting.round (resting : Resting cfg sys) (busy : sys.scheduler.isFinished = false)
    (sequences : 1 ≤ cfg.maxNumSeqs) (tokens : 1 ≤ cfg.maxNumBatchedTokens)
    (input : RoundInput cfg) :
    ∃ sys', sys.round cfg input = .ok sys' ∧ Resting cfg sys' ∧
      Approaches (sys'.work cfg) (sys.work cfg) := by
  rcases resting.schedule busy sequences tokens input with
    ⟨s₁, inFlight, scheduled, succeeds, batched, schedules⟩
  set sys₁ : System := { sys with scheduler := s₁, inFlight := some inFlight } with sys₁_def
  have idle : sys.Enabled (.schedule input.env) := resting.idle
  have reachable₁ : ReachableUnserved cfg sys₁ :=
    .step resting.reachable idle input.closed scheduled
  have fits₁ : s₁.FitAlone cfg sys.known.toFinset := by
    rcases schedules.follows with ⟨stepId, -, follows⟩
    exact follows.fitAlone resting.fits
  set tokenIds := inFlight.seqs.map input.sample with tokenIds_def
  have sampled : tokenIds.length = inFlight.seqs.length := List.length_map _
  have enabled : sys₁.Enabled (@Op.postprocess cfg tokenIds input.elapsedMs input.now) :=
    ⟨inFlight, rfl, succeeds, sampled⟩
  rcases reachable₁.valid.step enabled with ⟨sys', stepped, -, steps⟩
  have reachable' : ReachableUnserved cfg sys' := .step reachable₁ enabled trivial stepped
  refine ⟨sys', ?_, ?_⟩
  · rw [System.round, scheduled, Py.ok_bind]
    exact stepped
  cases steps with
  | @postprocess _ _ _ flying writes s' flew _ _ processes =>
    cases flew
    have valid₁ : s₁.Valid cfg sys.known.toFinset sys.kv Sequence.numCachedTokens []
        inFlight.seqs := reachable₁.valid.scheduler
    have names : (inFlight.seqs.zip tokenIds).map Prod.fst = inFlight.seqs :=
      List.map_fst_zip sampled.ge
    refine ⟨⟨reachable', rfl, ?_⟩, ?_⟩
    · intro i known live
      apply (SameSettings.of_processesAll processes i).fitsAlone
      apply fits₁ i known
      by_cases mem : i ∈ inFlight.seqs
      · exact (valid₁.scheduled_live mem).2
      · have distinct := valid₁.batch_distinct
        rw [← names] at distinct mem
        rw [(processes.each distinct).1 i mem] at live
        exact live
    · exact schedules.approaches input.closed batched valid₁ fits₁ processes names

/-- The rounds from a resting state come to an end. -/
theorem Resting.generate (sequences : 1 ≤ cfg.maxNumSeqs) (tokens : 1 ≤ cfg.maxNumBatchedTokens)
    (resting : Resting cfg sys) (inputs : ℕ → RoundInput cfg) :
    ∃ fuel sys', sys.generate cfg fuel inputs = .ok sys' ∧ sys'.scheduler.isFinished = true := by
  have wellFounded := InvImage.wf (work cfg) approaches_wellFounded
  refine wellFounded.induction sys (C := fun sys => Resting cfg sys →
    ∀ inputs : ℕ → RoundInput cfg, ∃ fuel sys', sys.generate cfg fuel inputs = .ok sys' ∧
      sys'.scheduler.isFinished = true) ?_ resting inputs
  intro sys ih resting inputs
  cases busy : sys.scheduler.isFinished with
  | true =>
    refine ⟨1, sys, ?_, busy⟩
    rw [System.generate, if_pos busy]
  | false =>
    rcases resting.round busy sequences tokens (inputs 0) with ⟨sys₁, rounded, resting₁, less⟩
    rcases ih sys₁ less resting₁ fun n => inputs (n + 1) with ⟨fuel, sys', generated, finished⟩
    refine ⟨fuel + 1, sys', ?_, finished⟩
    rw [System.generate, if_neg (Bool.not_eq_true _ ▸ busy), rounded, Py.ok_bind]
    exact generated

/--
Every closed run terminates: from a state reached without a remote restore service, in which every
request fits into the memory when it is alone, rounds with any sampled tokens raise nothing and
finish every request.
-/
theorem generate_terminates (reachable : ReachableUnserved cfg sys) (idle : sys.inFlight = none)
    (sequences : 1 ≤ cfg.maxNumSeqs) (tokens : 1 ≤ cfg.maxNumBatchedTokens)
    (fits : sys.scheduler.FitAlone cfg sys.known.toFinset) (inputs : ℕ → RoundInput cfg) :
    ∃ fuel sys', sys.generate cfg fuel inputs = .ok sys' ∧ sys'.scheduler.isFinished = true :=
  Resting.generate sequences tokens ⟨reachable, idle, fits⟩ inputs

/-- A round at time zero which samples the same token for every request. -/
def idleInput (cfg : Config) (n : ℕ) : RoundInput cfg where
  env := idleEnv cfg
  closed := rfl
  sample := fun _ => n
  elapsedMs := 0
  now := 0

/-- The two requests which share a small memory both finish. -/
theorem generate_terminates_crowded : crowdedRun.scheduler.isFinished = false ∧
    ∃ fuel sys', crowdedRun.generate crowded fuel (idleInput crowded) = .ok sys' ∧
      sys'.scheduler.isFinished = true := by
  have reachable : ReachableUnserved crowded crowdedRun := by
    apply ReachableBy.runOps .init
    refine ⟨⟨?_, trivial⟩, ⟨?_, trivial⟩, ⟨?_, rfl⟩, ⟨?_, trivial⟩, trivial⟩
    · decide
    · decide
    · decide +kernel
    · decide +kernel
  exact ⟨by decide +kernel, generate_terminates reachable (by decide +kernel) (by decide)
    (by decide) crowdedRun_fits (idleInput crowded)⟩

end System

end NanoVllm
