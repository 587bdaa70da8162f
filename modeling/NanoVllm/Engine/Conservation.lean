import NanoVllm.Engine.Ownership
import Mathlib.Logic.Relation

/-!
# Conservation of requests

Every request which has been added stays in one place: once in the queue of its status, or in no
queue when it has ended. An ended request never changes again, so it ends only once.
-/

namespace NanoVllm

/-- The entries in `waiting`, `running` and `pending_restores` of a request with a status. -/
def SequenceStatus.places : SequenceStatus → ℕ × ℕ × ℕ
  | .waiting => (1, 0, 0)
  | .running => (0, 1, 0)
  | .waitingForKv => (0, 0, 1)
  | .finished => (0, 0, 0)
  | .cancelled => (0, 0, 0)

namespace Scheduler

variable {cfg : Config} {ids : Finset SeqId} {kv : KvStore} {computed : Sequence → ℕ}
  {batch : List SeqId} {s : Scheduler} {i : SeqId}

/-- The entries of a request in `waiting`, `running` and `pending_restores`. -/
def places (s : Scheduler) (i : SeqId) : ℕ × ℕ × ℕ :=
  (s.waiting.count i, s.running.count i,
    (s.pendingRestores.map PendingRestoreState.sequence).count i)

/-- What is conserved of a request. -/
structure Conserved (s : Scheduler) (i : SeqId) : Prop where
  named : (s.seqs i).seqId = i
  placed : s.places i = (s.seqs i).status.places
  owns : (s.seqs i).status = .running ∨ (s.seqs i).status = .waitingForKv →
    (s.seqs i).blockTable ≠ []
  noPlans : (s.seqs i).status = .finished ∨ (s.seqs i).status = .cancelled →
    s.blockManager.pendingMatches i = none ∧ s.blockManager.pendingResumeMatches i = none

theorem Valid.places_eq (valid : Valid cfg ids kv computed [] batch s) (known : i ∈ ids) :
    s.places i = (s.seqs i).status.places := by
  have count : ∀ status, status.Live →
      (s.queue [] status).count i = if (s.seqs i).status = status then 1 else 0 := by
    intro status live
    have mem := valid.queued status live i
    split
    · next same => exact List.count_eq_one_of_mem (valid.distinct status) (mem.mpr ⟨known, same⟩)
    · next differ => exact List.count_eq_zero.mpr fun inside => differ (mem.mp inside).2
  have waiting := count .waiting trivial
  have running := count .running trivial
  have pending := count .waitingForKv trivial
  change (s.running ++ []).count i = _ at running
  rw [List.append_nil] at running
  change s.waiting.count i = _ at waiting
  change (s.pendingRestores.map PendingRestoreState.sequence).count i = _ at pending
  rw [places, waiting, running, pending]
  cases (s.seqs i).status <;> rfl

theorem Valid.conserved (valid : Valid cfg ids kv computed [] batch s) (known : i ∈ ids) :
    s.Conserved i where
  named := (valid.request i known).named
  placed := valid.places_eq known
  owns := by
    rintro (runs | restores)
    · exact valid.owns_of_running (valid.mem_running.mpr ⟨known, runs⟩)
    · rcases List.mem_map.mp (valid.mem_pending.mpr ⟨known, restores⟩) with ⟨state, mem, rfl⟩
      exact valid.owns_of_restoring mem
  noPlans := by
    intro ended
    have dead : ¬(s.seqs i).status.Live := by
      rcases ended with finished | cancelled
      · rw [finished]
        exact id
      · rw [cancelled]
        exact id
    constructor
    · by_contra planned
      have status := (valid.plans i planned).2.1
      rw [status] at dead
      exact dead trivial
    · by_contra planned
      exact dead (valid.resumePlans i planned).2

end Scheduler

namespace System

open Scheduler

variable {cfg : Config} {sys sys' : System} {op : Op cfg} {i : SeqId}

/-- One enabled operation leads from a state to another. -/
def Moves (cfg : Config) (sys sys' : System) : Prop :=
  ∃ op : Op cfg, sys.Enabled op ∧ sys.step cfg op = .ok sys'

/-- One enabled operation which satisfies a condition leads from a state to another. -/
def MovesBy (cfg : Config) (Allowed : System → Op cfg → Prop) (sys sys' : System) : Prop :=
  ∃ op : Op cfg, Allowed sys op ∧ sys.Enabled op ∧ sys.step cfg op = .ok sys'

theorem ReachableBy.later {Allowed : System → Op cfg → Prop}
    (reachable : ReachableBy cfg Allowed sys)
    (later : Relation.ReflTransGen (MovesBy cfg Allowed) sys sys') :
    ReachableBy cfg Allowed sys' := by
  induction later with
  | refl => exact reachable
  | tail _ moves ih =>
    rcases moves with ⟨op, allowed, enabled, stepped⟩
    exact .step ih enabled allowed stepped

/-- A computed run takes a valid state to a later one. -/
theorem Valid.later_runOps {Allowed : System → Op cfg → Prop} (valid : sys.Valid cfg)
    {ops : List (Op cfg)} (enabled : EnabledAll cfg Allowed sys ops) :
    Relation.ReflTransGen (MovesBy cfg Allowed) sys (sys.runOps cfg ops) := by
  induction ops generalizing sys with
  | nil => exact .refl
  | cons op ops ih =>
    rcases enabled with ⟨⟨enabled, allowed⟩, rest⟩
    rcases valid.step enabled with ⟨sys', stepped, valid', -⟩
    have same : next cfg sys op = sys' := by
      rw [next, stepped]
    rw [same] at rest
    change Relation.ReflTransGen (MovesBy cfg Allowed) sys (runOps cfg (next cfg sys op) ops)
    rw [same]
    exact .head ⟨op, allowed, enabled, stepped⟩ (ih valid' rest)

theorem Reachable.moves (reachable : Reachable cfg sys) (moves : Moves cfg sys sys') :
    Reachable cfg sys' := by
  rcases moves with ⟨op, enabled, stepped⟩
  exact .step reachable enabled trivial stepped

theorem Reachable.later (reachable : Reachable cfg sys)
    (later : Relation.ReflTransGen (Moves cfg) sys sys') : Reachable cfg sys' := by
  induction later with
  | refl => exact reachable
  | tail _ moves ih => exact ih.moves moves

/-- The requests of the batch in flight have not ended. -/
theorem Valid.batch_live (valid : sys.Valid cfg) (mem : i ∈ sys.batch) :
    i ∈ sys.known ∧ (sys.scheduler.seqs i).status.Live := by
  rcases valid.scheduler.scheduled_phase mem with ⟨known, -, ⟨status, -⟩ | ⟨status, -⟩⟩
  · rw [status]
    exact ⟨List.mem_toFinset.mp known, trivial⟩
  · rw [status]
    exact ⟨List.mem_toFinset.mp known, trivial⟩

/-- Every request of the batch in flight is processed with its own token, and no other request. -/
theorem Valid.processes_each (valid : sys.Valid cfg) {inFlight : InFlight}
    (flying : sys.inFlight = some inFlight) {tokenIds : List Token}
    (sampled : tokenIds.length = inFlight.seqs.length) {s s' : Scheduler}
    (processes : ProcessesAll cfg (inFlight.seqs.zip tokenIds) s s') :
    (∀ j, j ∉ sys.batch → s'.seqs j = s.seqs j) ∧ ∀ j ∈ sys.batch, ∃ tokenId,
      (j, tokenId) ∈ inFlight.seqs.zip tokenIds ∧
        Processed cfg (s.seqs j) tokenId (s'.seqs j) := by
  have requests : (inFlight.seqs.zip tokenIds).map Prod.fst = sys.batch := by
    rw [List.map_fst_zip sampled.ge, batch_of_some flying]
  rcases processes.each (requests ▸ valid.scheduler.batch_distinct) with ⟨others, each⟩
  rw [requests] at others
  refine ⟨others, fun j mem => ?_⟩
  rw [← requests] at mem
  rcases List.mem_map.mp mem with ⟨⟨i, tokenId⟩, event, rfl⟩
  exact ⟨tokenId, event, each _ event⟩

/-- No operation changes an ended request. -/
theorem Steps.ended (steps : Steps cfg sys op sys') (valid : sys.Valid cfg)
    (enabled : sys.Enabled op) (known : i ∈ sys.known)
    (ended : ¬(sys.scheduler.seqs i).status.Live) :
    sys'.scheduler.seqs i = sys.scheduler.seqs i := by
  cases steps with
  | @add request now =>
    have other : i ≠ request.seqId := by
      rintro rfl
      exact enabled.2 known
    exact Function.update_of_ne other _ _
  | schedule _ schedules =>
    rcases schedules.follows with ⟨stepId, -, follows⟩
    exact follows.ended i ended
  | @postprocess tokenIds _ _ inFlight writes s' flying _ sampled processes =>
    apply (valid.processes_each flying sampled processes).1
    intro mem
    exact ended (valid.batch_live mem).2
  | runFailed => rfl
  | @cancel j now s' _ live cancels =>
    change s'.seqs i = _
    have differ : i ≠ j := by
      rintro rfl
      exact ended live
    rw [cancels.seqs, Function.update_of_ne differ]
  | cancelNothing => rfl
  | @completeRemoteRestore state now s' mem ends =>
    change s'.seqs i = _
    have differ : i ≠ state.sequence := by
      rintro rfl
      rw [(valid.scheduler.restoring mem).2.1] at ended
      exact ended trivial
    rw [ends.seqs, Function.update_of_ne differ]
  | @failRemoteRestore state now error garbage s' mem ends =>
    change s'.seqs i = _
    have differ : i ≠ state.sequence := by
      rintro rfl
      rw [(valid.scheduler.restoring mem).2.1] at ended
      exact ended trivial
    rw [ends.seqs, Function.update_of_ne differ]

/-- A request which has ended stays as it is in every later state. -/
theorem Reachable.ended_forever (reachable : Reachable cfg sys)
    (later : Relation.ReflTransGen (Moves cfg) sys sys') (known : i ∈ sys.known)
    (ended : ¬(sys.scheduler.seqs i).status.Live) :
    i ∈ sys'.known ∧ sys'.scheduler.seqs i = sys.scheduler.seqs i := by
  induction later with
  | refl => exact ⟨known, rfl⟩
  | @tail sys₁ sys₂ later moves ih =>
    rcases ih with ⟨known₁, same⟩
    rcases moves with ⟨op, enabled, stepped⟩
    have valid := (reachable.later later).valid
    rcases Py.of_ok stepped (valid.step enabled) with ⟨-, steps⟩
    constructor
    · rcases steps.known with unchanged | ⟨request, now, -, more, -⟩
      · exact unchanged ▸ known₁
      · exact more ▸ List.mem_append_left _ known₁
    · rw [← same] at ended ⊢
      exact steps.ended valid enabled known₁ ended

/--
Every request which has been added is in one place, an ended one never changes again, and
cancelling an ended or an unknown request returns `False` and changes nothing. A call of
`schedule()` which raises because no request fits is an operation like any other.
-/
theorem requests_conserved (reachable : Reachable cfg sys) :
    (∀ i ∈ sys.known, sys.scheduler.Conserved i) ∧
      (∀ i ∈ sys.known, ¬(sys.scheduler.seqs i).status.Live → ∀ sys',
        Relation.ReflTransGen (Moves cfg) sys sys' →
          sys'.scheduler.seqs i = sys.scheduler.seqs i) ∧
      ∀ i now, ¬(i ∈ sys.known ∧ (sys.scheduler.seqs i).status.Live) →
        sys.scheduler.cancel i now = .ok (sys.scheduler, false) ∧
          sys.step cfg (.cancel i now) = .ok sys := by
  have valid := reachable.valid.scheduler
  refine ⟨?_, ?_, ?_⟩
  · intro i known
    exact valid.conserved (List.mem_toFinset.mpr known)
  · intro i known ended sys' later
    exact (reachable.ended_forever later known ended).2
  · intro i now absent
    rcases valid.cancel i now with ⟨known, live, -⟩ | ⟨-, cancelled⟩
    · exact absurd ⟨List.mem_toFinset.mp known, live⟩ absent
    · refine ⟨cancelled, ?_⟩
      rw [step, cancelled]
      rfl

/-- A request of nine tokens does not fit into two pages, so `schedule()` raises. -/
def tooLongRun : System := (init (defaultConfig 2 2 2 two_le_two)).runOps
  (defaultConfig 2 2 2 two_le_two) [.add (plainRequest 0 9 1) 0, .schedule (idleEnv _)]

theorem requests_conserved_tooLong : (tooLongRun.scheduler.schedule (defaultConfig 2 2 2 (by decide))
      (idleEnv _)).map Prod.snd = .ok .noRunnable ∧
    tooLongRun.scheduler.places 0 = (1, 0, 0) := by
  have reachable : Reachable (defaultConfig 2 2 2 (by decide)) tooLongRun :=
    ReachableBy.runOps .init (by decide +kernel)
  have placed := ((requests_conserved reachable).1 0 (by decide +kernel)).placed
  have status : (tooLongRun.scheduler.seqs 0).status = .waiting := by decide +kernel
  rw [status] at placed
  exact ⟨by decide +kernel, placed⟩

end System

end NanoVllm
