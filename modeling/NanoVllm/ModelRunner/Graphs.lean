import NanoVllm.ModelRunner.Batches

/-!
# CUDA graphs

`capture_cudagraph` captures the model for some batch sizes, with input buffers for
`min(max_num_seqs, 512)` requests. `run_model` replays the graph of the first captured size which
is not smaller than the batch, after copying the inputs into the buffers. The captured sizes
beyond `8` are the multiples of `16`, so the batches between the largest captured size and
`max_num_seqs` have no graph.
-/

namespace NanoVllm

/-- The sizes and buffers of `capture_cudagraph`. -/
structure CudaGraphs where
  maxBs : ℕ
  maxNumBlocks : ℕ
  graphBs : List ℕ
  deriving DecidableEq, Repr

/-- How `run_model` runs the model. -/
inductive ModelRun where
  | eager
  | graph (batchSize : ℕ)
  deriving DecidableEq, Repr

/-- What goes wrong in the graph branch of `run_model`. -/
inductive GraphError where
  | stopIteration
  | shapeMismatch (buffer : String)
  deriving DecidableEq, Repr

/-- `range(start, stop, step)`. -/
def pyRange (start stop step : ℕ) : List ℕ :=
  List.range' start ((stop - start + step - 1) / step) step

/-- `effective_context_window`. -/
def effectiveContextWindow (maxModelLen numBlocks blockSize : ℕ) : Py ℕ :=
  if maxModelLen = 0 ∨ numBlocks = 0 ∨ blockSize = 0 then
    .error (.valueError "context and KV cache dimensions must be positive")
  else .ok (min maxModelLen (numBlocks * blockSize))

namespace ModelRunner

/--
`capture_cudagraph`. It runs before `LLMEngine.__init__` reduces `max_model_len` to the effective
context window.
-/
def captureCudagraph (cfg : Config) (maxModelLen : ℕ) : CudaGraphs where
  maxBs := min cfg.maxNumSeqs 512
  maxNumBlocks := (maxModelLen + cfg.blockSize - 1) / cfg.blockSize
  graphBs := [1, 2, 4, 8] ++ pyRange 16 (min cfg.maxNumSeqs 512 + 1) 16

/-- `context.block_tables.size(1)`. -/
def tableWidth (blockTables : List (List ℤ)) : ℕ :=
  match blockTables with
  | [] => 0
  | table :: _ => table.length

/-- The choice of `run_model` and its copies into the captured buffers. -/
def runModel (graphs : CudaGraphs) (enforceEager isPrefill : Bool) (inputs : DecodeInputs) :
    Except GraphError ModelRun :=
  let bs := inputs.inputIds.length
  if isPrefill || enforceEager || 512 < bs then .ok .eager
  else
    match graphs.graphBs.find? fun size => bs ≤ size with
    | none => .error .stopIteration
    | some size =>
        if graphs.maxBs < bs then .error (.shapeMismatch "input_ids")
        else if graphs.maxNumBlocks < tableWidth inputs.blockTables then
          .error (.shapeMismatch "block_tables")
        else .ok (.graph size)

variable {cfg : Config} {graphs : CudaGraphs} {inputs : DecodeInputs} {n maxModelLen : ℕ}

theorem mem_pyRange {start stop step : ℕ} (positive : 0 < step) {size : ℕ} :
    size ∈ pyRange start stop step ↔ ∃ k, size = start + step * k ∧ size < stop := by
  rw [pyRange, List.mem_range']
  constructor
  · rintro ⟨k, short, rfl⟩
    refine ⟨k, rfl, ?_⟩
    have le := Nat.mul_le_of_le_div step (k + 1) _ (Nat.succ_le_of_lt short)
    rw [Nat.add_mul, Nat.one_mul, Nat.mul_comm] at le
    omega
  · rintro ⟨k, rfl, short⟩
    refine ⟨k, ?_, rfl⟩
    refine Nat.lt_of_succ_le ((Nat.le_div_iff_mul_le positive).mpr ?_)
    rw [Nat.succ_mul, Nat.mul_comm]
    omega

/-- The batch sizes with a graph. -/
theorem exists_graph_iff (small : n ≤ 512) :
    (∃ size ∈ (captureCudagraph cfg maxModelLen).graphBs, n ≤ size) ↔
      n ≤ 8 ∨ n ≤ 16 * (min cfg.maxNumSeqs 512 / 16) := by
  simp only [captureCudagraph, List.mem_append, List.mem_cons, List.not_mem_nil, or_false,
    mem_pyRange (show 0 < 16 by decide)]
  constructor
  · rintro ⟨size, ((rfl | rfl | rfl | rfl) | ⟨k, rfl, short⟩), le⟩ <;> omega
  · rintro (le | le)
    · exact ⟨8, .inl (by simp), le⟩
    · by_cases tiny : n ≤ 8
      · exact ⟨8, .inl (by simp), tiny⟩
      · refine ⟨16 * (min cfg.maxNumSeqs 512 / 16), .inr ⟨min cfg.maxNumSeqs 512 / 16 - 1, ?_, ?_⟩,
          le⟩ <;> omega

/-- The graph branch succeeds exactly if there is a graph and the inputs fit the buffers. -/
theorem runModel_graph_iff (small : inputs.inputIds.length ≤ 512) :
    (∃ size, runModel graphs false false inputs = .ok (.graph size) ∧
        inputs.inputIds.length ≤ size) ↔
      (∃ size ∈ graphs.graphBs, inputs.inputIds.length ≤ size) ∧
        inputs.inputIds.length ≤ graphs.maxBs ∧
        tableWidth inputs.blockTables ≤ graphs.maxNumBlocks := by
  unfold runModel
  simp only [Bool.or_self, Bool.false_or, decide_eq_true_eq, if_neg (not_lt.mpr small)]
  cases found : graphs.graphBs.find? fun size => inputs.inputIds.length ≤ size with
  | none =>
    refine iff_of_false nofun ?_
    rintro ⟨⟨size, mem, le⟩, -⟩
    have large := List.find?_eq_none.mp found size mem
    simp only [decide_eq_true_eq] at large
    exact large le
  | some size =>
    have mem := List.mem_of_find?_eq_some found
    have le : inputs.inputIds.length ≤ size := by simpa using List.find?_some found
    have exists_size : ∃ size ∈ graphs.graphBs, inputs.inputIds.length ≤ size := ⟨size, mem, le⟩
    dsimp only
    rw [← not_lt, ← not_lt]
    split
    · next large => simp [large]
    · next fits =>
      split
      · next wide => simp [wide]
      · next narrow => simp [fits, narrow, exists_size, le]

theorem foldl_max_le {lengths : List ℕ} {start bound : ℕ} (first : start ≤ bound)
    (all : ∀ length ∈ lengths, length ≤ bound) : lengths.foldl max start ≤ bound := by
  induction lengths generalizing start with
  | nil => exact first
  | cons length lengths ih =>
    refine ih (max_le first (all length List.mem_cons_self)) fun other mem => ?_
    exact all other (.tail _ mem)

theorem tableWidth_le {seqs : List Sequence} {bound : ℕ}
    (all : ∀ seq ∈ seqs, seq.blockTable.length ≤ bound) :
    tableWidth (prepareBlockTables seqs) ≤ bound := by
  have widest : (seqs.map fun seq => seq.blockTable.length).foldl max 0 ≤ bound := by
    refine foldl_max_le (Nat.zero_le _) fun length mem => ?_
    obtain ⟨seq, known, rfl⟩ := List.mem_map.mp mem
    exact all seq known
  cases seqs with
  | nil => exact Nat.zero_le _
  | cons seq seqs =>
    have own := all seq List.mem_cons_self
    simp only [prepareBlockTables, List.map_cons, tableWidth, List.length_append, List.length_map,
      List.length_replicate] at widest ⊢
    omega

/-- `run_model` replays a graph for a decode batch, and the batch fits the captured buffers. -/
structure FitsGraphs (graphs : CudaGraphs) (seqs : List Sequence) (inputs : DecodeInputs) :
    Prop where
  replayed : ∃ size, runModel graphs false false inputs = .ok (.graph size) ∧ seqs.length ≤ size
  buffers : seqs.length ≤ graphs.maxBs
  tables : ∀ seq ∈ seqs, seq.blockTable.length ≤ graphs.maxNumBlocks

end ModelRunner

/-! ## The batches of the scheduler -/

namespace Scheduler

variable {cfg : Config} {ids : Finset SeqId} {kv : KvStore} {s s' : Scheduler}
  {env : ScheduleEnv cfg} {batch : List SeqId} {now : ℚ}

/-- A decode batch has at most `max_num_seqs` requests. -/
theorem SchedulesAll.length_le
    (schedules : SchedulesAll cfg ids kv env s s' (.batch batch false)) :
    batch.length ≤ cfg.maxNumSeqs := by
  have once : ∀ s now, SchedulesOnce cfg ids kv env now s s' (.batch batch false) →
      batch.length ≤ cfg.maxNumSeqs := by
    intro s now schedules
    cases schedules with
    | decode _ _ decodes => exact decodes.length_le (Nat.zero_le _)
  cases schedules with
  | once schedules => exact once _ _ schedules
  | again _ schedules => exact once _ _ schedules

end Scheduler

theorem length_le_of_increasing {indices : List ℕ} {last : ℕ}
    (increasing : indices.Pairwise (· < ·)) (ends : indices.getLast? = some last) :
    indices.length ≤ last + 1 := by
  obtain ⟨before, rfl⟩ := List.getLast?_eq_some_iff.mp ends
  have below := (List.pairwise_append.mp increasing).2.2
  have subset : before ++ [last] ⊆ List.range (last + 1) := by
    intro index mem
    rw [List.mem_range]
    rcases List.mem_append.mp mem with early | final
    · exact Nat.lt_succ_of_lt (below index early last List.mem_cons_self)
    · exact Nat.lt_succ_of_le (List.mem_singleton.mp final).le
  have le := (List.subperm_of_subset (increasing.imp ne_of_lt) subset).length_le
  rwa [List.length_range] at le

/-- A running request owns at most one page for each page of its tokens. -/
theorem Sequence.Running.length_le {cfg : Config} {bm : BlockManager} {kv : KvStore}
    {refs : BlockId → ℕ} {n : ℕ} {seq : Sequence} (running : seq.Running cfg)
    (memory : SeqMemory cfg bm kv refs n seq) (complete : seq.computedTokens = seq.numTokens) :
    seq.blockTable.length ≤ seq.numBlocks cfg := by
  have nonempty := running.nonempty
  rw [complete] at nonempty
  rw [← memory.sameLength, Sequence.numBlocks_eq nonempty, ← complete]
  exact length_le_of_increasing memory.increasing running.last

namespace System

variable {cfg : Config} {sys : System} {s' : Scheduler} {env : ScheduleEnv cfg}
  {batch : List SeqId} {maxModelLen : ℕ} {i : SeqId}

/--
The requests of `InferenceWorker._admit`: prompt and completion fit the context window. The
server asks for at least one completion token.
-/
def Admitted (maxModelLen : ℕ) (_ : System) : Op cfg → Prop
  | .add request _ => 1 ≤ request.maxTokens ∧
      match effectiveContextWindow maxModelLen cfg.numBlocks cfg.blockSize with
      | .error _ => False
      | .ok window => request.prompt.length + request.maxTokens ≤ window
  | .schedule _ => True
  | .postprocess _ _ _ => True
  | .runFailed _ => True
  | .cancel _ _ => True
  | .completeRemoteRestore _ _ => True
  | .failRemoteRestore _ _ _ _ => True

instance decidableAdmitted (maxModelLen : ℕ) (sys : System) :
    ∀ op : Op cfg, Decidable (Admitted maxModelLen sys op)
  | .add request _ => by
      unfold Admitted
      cases effectiveContextWindow maxModelLen cfg.numBlocks cfg.blockSize <;> infer_instance
  | .schedule _ => .isTrue trivial
  | .postprocess _ _ _ => .isTrue trivial
  | .runFailed _ => .isTrue trivial
  | .cancel _ _ => .isTrue trivial
  | .completeRemoteRestore _ _ => .isTrue trivial
  | .failRemoteRestore _ _ _ _ => .isTrue trivial

/-- An admitted request stays within `max_model_len`. -/
theorem ReachableBy.numTokens_le (reachable : ReachableBy cfg (Admitted maxModelLen) sys) :
    ∀ i ∈ sys.known, 1 ≤ (sys.scheduler.seqs i).maxTokens ∧
      (sys.scheduler.seqs i).numPromptTokens + (sys.scheduler.seqs i).maxTokens ≤ maxModelLen := by
  refine @ReachableBy.settings cfg sys _ (fun seq => 1 ≤ seq.maxTokens ∧
    seq.numPromptTokens + seq.maxTokens ≤ maxModelLen) reachable ?_ ?_
  · rintro sys request now ⟨positive, fits⟩
    unfold effectiveContextWindow at fits
    refine ⟨positive, ?_⟩
    split at fits
    · exact absurd fits id
    · next within =>
      split at within
      · cases within
      · cases within
        exact fits.trans (min_le_left _ _)
  · rintro seq seq' same ⟨positive, fits⟩
    rw [same.maxTokens, same.numPromptTokens]
    exact ⟨positive, fits⟩

/--
A decode batch of admitted requests fits the captured graphs and buffers exactly if a captured
size is not smaller. The buffers always fit.
-/
theorem fitsGraphs_iff (reachable : ReachableBy cfg (Admitted maxModelLen) sys)
    (idle : sys.inFlight = none)
    (scheduled : sys.scheduler.schedule cfg env = .ok (s', .batch batch false))
    (small : batch.length ≤ 512) :
    ∃ inputs, ModelRunner.prepareDecode cfg (batch.map s'.seqs) = .ok inputs ∧
      (ModelRunner.FitsGraphs (ModelRunner.captureCudagraph cfg maxModelLen) (batch.map s'.seqs)
          inputs ↔
        batch.length ≤ 8 ∨ batch.length ≤ 16 * (min cfg.maxNumSeqs 512 / 16)) := by
  obtain ⟨schedules, returns⟩ := reachable.returns idle scheduled
  obtain ⟨stepId, -, follows⟩ := schedules.follows
  have buffers : batch.length ≤ min cfg.maxNumSeqs 512 := le_min schedules.length_le small
  have tables : ∀ seq ∈ batch.map s'.seqs, seq.blockTable.length ≤
      (maxModelLen + cfg.blockSize - 1) / cfg.blockSize := by
    intro seq mem
    obtain ⟨i, scheduled, rfl⟩ := List.mem_map.mp mem
    have known := returns.known scheduled
    have wellFormed := returns.valid.request i known
    obtain ⟨positive, fits⟩ := reachable.numTokens_le i (List.mem_toFinset.mp known)
    obtain ⟨-, -, ⟨-, waits⟩ | ⟨status, runs⟩⟩ := returns.valid.scheduled_phase scheduled
    · have complete := ((returns.ready _ _ rfl i scheduled).decode rfl).2.1
      exact absurd complete waits.short.ne
    have complete := ((returns.ready _ _ rfl i scheduled).decode rfl).2.1
    have same : Scheduler.SameRequest (sys.scheduler.seqs i) (s'.seqs i) := follows.request i
    have live : (s'.seqs i).isTerminal = false := by
      rw [Sequence.isTerminal_eq_false, status]
      trivial
    have budget := wellFormed.budget (by rw [same.maxTokens]; exact positive) live
    rw [Sequence.numCompletionTokens, same.maxTokens, same.numPromptTokens] at budget
    refine (runs.length_le (returns.valid.memory.request i known) complete).trans ?_
    refine Nat.div_le_div_right ?_
    omega
  obtain ⟨inputs, prepared, count, width⟩ : ∃ inputs,
      ModelRunner.prepareDecode cfg (batch.map s'.seqs) = .ok inputs ∧
        inputs.inputIds.length = batch.length ∧
        inputs.blockTables = ModelRunner.prepareBlockTables (batch.map s'.seqs) := by
    simp only [ModelRunner.prepareDecode, decodeSlotMapping_eq returns.decodable, Py.ok_bind]
    exact ⟨_, rfl, by simp, rfl⟩
  refine ⟨inputs, prepared, ?_⟩
  rw [← ModelRunner.exists_graph_iff small]
  constructor
  · rintro ⟨replayed, -, -⟩
    rw [List.length_map, ← count] at replayed
    rw [← count]
    exact ((ModelRunner.runModel_graph_iff (by rw [count]; exact small)).mp replayed).1
  · intro graph
    refine ⟨?_, by rwa [List.length_map], tables⟩
    rw [List.length_map, ← count]
    refine (ModelRunner.runModel_graph_iff (by rw [count]; exact small)).mpr ⟨?_, ?_, ?_⟩
    · rw [count]
      exact graph
    · rw [count]
      exact buffers
    · rw [width]
      exact ModelRunner.tableWidth_le tables

/-- Nine requests may run at once. -/
def nineSeqs : Config := defaultConfig 4 20 9 two_le_four

/-- The state after the prefill of some requests of two tokens. -/
def nineSeqsRun (count : ℕ) : System := (init nineSeqs).runOps nineSeqs
  ((List.range count).map (fun i => .add (plainRequest i 2 4) 0) ++
    [.schedule (idleEnv _), .postprocess (List.replicate count 5) 1 1])

theorem fitsGraphs_iff_nineSeqs :
    ∃ s' inputs, (nineSeqsRun 1).scheduler.schedule nineSeqs (idleEnv nineSeqs) =
        .ok (s', .batch [0] false) ∧
      ModelRunner.prepareDecode nineSeqs [s'.seqs 0] = .ok inputs ∧
      (ModelRunner.FitsGraphs (ModelRunner.captureCudagraph nineSeqs 16) [s'.seqs 0] inputs ↔
        [0].length ≤ 8 ∨ [0].length ≤ 16 * (min nineSeqs.maxNumSeqs 512 / 16)) := by
  have reachable : ReachableBy nineSeqs (Admitted 16) (nineSeqsRun 1) :=
    ReachableBy.runOps .init (by decide +kernel)
  have mapped : ((nineSeqsRun 1).scheduler.schedule nineSeqs (idleEnv nineSeqs)).map Prod.snd =
      .ok (.batch [0] false) := by decide +kernel
  obtain ⟨⟨s', _⟩, scheduled, rfl⟩ := exists_of_map mapped
  obtain ⟨inputs, prepared, fits⟩ :=
    fitsGraphs_iff reachable (by decide +kernel) scheduled (by decide)
  exact ⟨s', inputs, scheduled, prepared, fits⟩

/-- Nine running requests have no graph. -/
theorem no_graph_nineSeqs : ReachableBy nineSeqs (Admitted 16) (nineSeqsRun 9) ∧
    ∃ s' inputs, (nineSeqsRun 9).scheduler.schedule nineSeqs (idleEnv nineSeqs) =
        .ok (s', .batch (List.range 9) false) ∧
      ModelRunner.prepareDecode nineSeqs ((List.range 9).map s'.seqs) = .ok inputs ∧
      ModelRunner.runModel (ModelRunner.captureCudagraph nineSeqs 16) false false inputs =
        .error .stopIteration := by
  refine ⟨ReachableBy.runOps .init (by decide +kernel), ?_⟩
  have mapped : ((nineSeqsRun 9).scheduler.schedule nineSeqs (idleEnv nineSeqs)).map
      (fun result => (result.2, (ModelRunner.prepareDecode nineSeqs
        ((List.range 9).map result.1.seqs)).map fun inputs =>
          ModelRunner.runModel (ModelRunner.captureCudagraph nineSeqs 16) false false inputs)) =
      .ok (.batch (List.range 9) false, .ok (.error .stopIteration)) := by decide +kernel
  obtain ⟨⟨s', outcome⟩, scheduled, ran⟩ := exists_of_map mapped
  obtain ⟨rfl, ran⟩ := Prod.mk.inj ran
  obtain ⟨inputs, prepared, stops⟩ := exists_of_map ran
  exact ⟨s', inputs, scheduled, prepared, stops⟩

end System

end NanoVllm
