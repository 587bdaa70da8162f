import NanoVllm.Engine.Runs
import NanoVllm.ModelRunner.Slots

/-!
# Preparing the batches of reachable states

`prepare_prefill` and `prepare_decode` raise nothing on a batch which `schedule()` returns in a
reachable state. Every request of a decode batch has a last page, where its token goes.
-/

namespace NanoVllm

variable {cfg : Config} {seqs : List Sequence}

/-- A request of a decode batch, whose last page is `blockId`. -/
structure Sequence.Decodable (seq : Sequence) (blockId : BlockId) : Prop where
  nonempty : 0 < seq.numTokens
  last : seq.blockTable.getLast? = some blockId

theorem slotMappingLoop_ok {slots : Sequence → Py (List ℕ)}
    (ok : ∀ seq ∈ seqs, ∃ mapping, slots seq = .ok mapping) :
    ∃ mapping, ModelRunner.slotMappingLoop slots seqs = .ok mapping := by
  induction seqs with
  | nil => exact ⟨[], rfl⟩
  | cons seq seqs ih =>
    obtain ⟨first, mapped⟩ := ok seq List.mem_cons_self
    obtain ⟨rest, mappedRest⟩ := ih fun other mem => ok other (.tail _ mem)
    refine ⟨first ++ rest, ?_⟩
    rw [ModelRunner.slotMappingLoop, mapped, mappedRest]
    rfl

theorem decodeSlotMapping_eq {blockIdOf : Sequence → BlockId}
    (decodable : ∀ seq ∈ seqs, seq.Decodable (blockIdOf seq)) :
    ModelRunner.decodeSlotMapping cfg seqs = .ok (seqs.map fun seq =>
      blockIdOf seq * cfg.blockSize + (seq.numTokens - 1) % cfg.blockSize) := by
  unfold ModelRunner.decodeSlotMapping
  induction seqs with
  | nil => rfl
  | cons seq seqs ih =>
    have first := decodable seq List.mem_cons_self
    simp only [ModelRunner.slotMappingLoop, decodeSlot_eq first.last first.nonempty,
      ih fun other mem => decodable other (.tail _ mem), Py.ok_bind, List.map_cons,
      List.singleton_append]


/-- The page at the end of the table of a request. -/
def Sequence.lastBlockId (seq : Sequence) : BlockId := seq.blockTable.getLast?.getD 0

namespace System

variable {sys : System} {s' : Scheduler} {env : ScheduleEnv cfg} {batch : List SeqId}
  {isPrefill : Bool}

/-- What holds of a batch which `schedule()` returns in a reachable state. -/
theorem ReachableBy.returns {Allowed : System → Op cfg → Prop}
    (reachable : ReachableBy cfg Allowed sys) (idle : sys.inFlight = none)
    (scheduled : sys.scheduler.schedule cfg env = .ok (s', .batch batch isPrefill)) :
    Scheduler.SchedulesAll cfg sys.known.toFinset sys.kv env sys.scheduler s'
        (.batch batch isPrefill) ∧
      Scheduler.Returns cfg sys.known.toFinset sys.kv s' (.batch batch isPrefill) := by
  have valid := reachable.valid.scheduler
  rw [batch_of_none idle] at valid
  obtain ⟨s₁, outcome, scheduled', schedules⟩ := valid.schedule env
  rw [scheduled] at scheduled'
  cases scheduled'
  exact ⟨schedules, schedules.returns valid⟩

end System

namespace Scheduler.Returns

variable {ids : Finset SeqId} {kv : KvStore} {s' : Scheduler} {batch : List SeqId}
  {isPrefill : Bool} {i : SeqId}

theorem known (returns : Returns cfg ids kv s' (.batch batch isPrefill)) (mem : i ∈ batch) :
    i ∈ ids :=
  ((returns.valid.scheduled i).mp mem).1

theorem nonempty (returns : Returns cfg ids kv s' (.batch batch isPrefill)) (i : SeqId)
    (mem : i ∈ batch) : 0 < (s'.seqs i).numTokens := by
  have wellFormed := returns.valid.request i (returns.known mem)
  exact wellFormed.prompt.trans_le wellFormed.prompt_le

theorem preparePrefill (returns : Returns cfg ids kv s' (.batch batch true)) :
    ∃ inputs, ModelRunner.preparePrefill cfg (batch.map s'.seqs) = .ok inputs := by
  have mapped : ∃ mapping,
      ModelRunner.prefillSlotMapping cfg (batch.map s'.seqs) = .ok mapping := by
    refine slotMappingLoop_ok fun seq mem => ?_
    obtain ⟨i, scheduled, rfl⟩ := List.mem_map.mp mem
    have ready := returns.ready _ _ rfl i scheduled
    exact ⟨_, prefillSlots_eq ready.scheduled (ready.prefill rfl).2⟩
  obtain ⟨mapping, mapped⟩ := mapped
  simp only [ModelRunner.preparePrefill, mapped, Py.ok_bind]
  exact ⟨_, rfl⟩

theorem decodable (returns : Returns cfg ids kv s' (.batch batch false)) :
    ∀ seq ∈ batch.map s'.seqs, seq.Decodable seq.lastBlockId := by
  intro seq mem
  obtain ⟨i, scheduled, rfl⟩ := List.mem_map.mp mem
  have ready := returns.ready _ _ rfl i scheduled
  obtain ⟨blockId, last, -⟩ := (returns.valid.memory.request i
    (returns.known scheduled)).getLast_page (ready.decode rfl).2.2
  refine ⟨returns.nonempty i scheduled, ?_⟩
  rw [Sequence.lastBlockId, last, Option.getD_some]

end Scheduler.Returns

end NanoVllm
