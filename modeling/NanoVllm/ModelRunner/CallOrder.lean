import NanoVllm.ModelRunner.Calls
import Mathlib.Algebra.BigOperators.Group.Finset.Piecewise
import Mathlib.Algebra.Order.BigOperators.Group.Finset

/-!
# Every rank makes the calls of rank 0

Rank 0 does not leave a call before every rank has joined its collective, and a rank joins it after
it has read the call and cleared its event. So no rank reads the memory while rank 0 writes it, no
event is set while it is still set for an earlier call, and no call is lost, repeated or torn.
-/

namespace NanoVllm.Ranks

open Bytes

variable {A : Type} {pickle : Pickle A} {worldSize size : ℕ} {s s' : State A} {w w' : Worker A}
  {old sent : List (Call A)} {call : Call A} {n : ℕ} {buf : List UInt8} {remaining : List ℕ}

/-! ## The shared memory -/

theorem length_overwrite {start : ℕ} {data : List UInt8} (fits : start + data.length ≤ buf.length) :
    (overwrite start data buf).length = buf.length := by
  simp [overwrite]
  omega

/-- What has been written is read. -/
theorem slice_overwrite {start : ℕ} {data : List UInt8} (fits : start + data.length ≤ buf.length) :
    slice start (start + data.length) (overwrite start data buf) = data := by
  rw [overwrite, List.append_assoc]
  apply slice_of_append _ rfl
  rw [List.length_take]
  omega

/-- Writing leaves what is in front of it. -/
theorem slice_overwrite_before {start stop from' : ℕ} {data : List UInt8} (before : stop ≤ from')
    (inside : from' ≤ buf.length) :
    slice start stop (overwrite from' data buf) = slice start stop buf := by
  have long : stop ≤ (buf.take from').length := by
    rw [List.length_take]
    omega
  rw [slice, slice, overwrite, List.append_assoc, List.take_append_of_le_length long,
    List.take_take, Nat.min_eq_left before]

/-! ## The other ranks -/

/-- A rank which has made all calls. It may still be about to return from the last one. -/
structure Took (sent : List (Call A)) (w : Worker A) : Prop where
  event : w.event = false
  received : w.received = sent
  collectives : w.collectives = sent.length
  phase : w.phase = .waiting ∨ ∃ last ∈ sent.getLast?, w.phase = .joined last ∨
    (w.phase = .exited ∧ last.exits = true)

/-- Where a rank is when its event has been set for a call. -/
inductive During (old : List (Call A)) (call : Call A) (n : ℕ) (w : Worker A) : Prop
  | signalled (event : w.event = true) (received : w.received = old)
      (collectives : w.collectives = old.length)
      (phase : w.phase = .waiting ∨ w.phase = .reading n ∨
        ∃ last ∈ old.getLast?, w.phase = .joined last)
  | decoded (event : w.event = true) (received : w.received = old ++ [call])
      (collectives : w.collectives = old.length) (phase : w.phase = .clearing call)
  | started (event : w.event = false) (received : w.received = old ++ [call])
      (collectives : w.collectives = old.length) (phase : w.phase = .calling call)
  | took (took : Took (old ++ [call]) w)

theorem Took.step (took : Took sent w) (stepped : State.workerStep pickle buf w = some w') :
    Took sent w' := by
  rw [State.workerStep] at stepped
  rcases took.phase with waiting | ⟨last, ends, joined | ⟨exited, -⟩⟩
  · rw [waiting] at stepped
    simp [took.event] at stepped
  · rw [joined] at stepped
    cases stepped
    refine ⟨took.event, took.received, took.collectives, ?_⟩
    by_cases exits : last.exits = true
    · exact .inr ⟨last, ends, .inr ⟨if_pos exits, exits⟩⟩
    · exact .inl (if_neg exits)
  · rw [exited] at stepped
    cases stepped

theorem During.step (during : During old call n w)
    (size : ofLittleEndian (slice 0 4 buf) = n) (data : pickle.loads (slice 4 (n + 4) buf) = some call)
    (stays : ∀ call ∈ old, ¬call.exits = true)
    (stepped : State.workerStep pickle buf w = some w') : During old call n w' := by
  cases during with
  | signalled event received collectives phase =>
    rw [State.workerStep] at stepped
    rcases phase with waiting | reading | ⟨last, ends, joined⟩
    · rw [waiting] at stepped
      simp only [event, if_true, Option.some.injEq] at stepped
      subst stepped
      exact .signalled rfl received collectives (.inr (.inl (by rw [size])))
    · rw [reading] at stepped
      simp only [data, Option.some.injEq] at stepped
      subst stepped
      exact .decoded event (by rw [received]) collectives rfl
    · rw [joined] at stepped
      cases stepped
      have goesOn := stays last (List.mem_of_mem_getLast? ends)
      exact .signalled event received collectives (.inl (if_neg goesOn))
  | decoded event received collectives phase =>
    rw [State.workerStep, phase] at stepped
    cases stepped
    exact .started rfl received collectives rfl
  | started event received collectives phase =>
    rw [State.workerStep, phase] at stepped
    cases stepped
    refine .took ⟨event, received, ?_, .inr ⟨call, by simp, .inl rfl⟩⟩
    simp [collectives]
  | took took => exact .took (took.step stepped)

/-- A rank which has joined the collective of a call has made it. -/
theorem During.took_of_joined (during : During old call n w) (joined : old.length < w.collectives) :
    Took (old ++ [call]) w := by
  cases during with
  | signalled event received collectives phase => omega
  | decoded event received collectives phase => omega
  | started event received collectives phase => omega
  | took took => exact took

/-! ## The invariant -/

/-- The ranks between two calls. -/
structure Rested (worldSize : ℕ) (s : State A) : Prop where
  collectives : s.collectives = s.sent.length
  stays : ∀ call ∈ s.sent, ¬call.exits = true
  took : ∀ i ∈ ranks worldSize, Took s.sent (s.workers i)

/-- The ranks in a call which some of them have not yet been told of. -/
structure InCall (worldSize : ℕ) (pickle : Pickle A) (s : State A) (call : Call A)
    (remaining : List ℕ) (old : List (Call A)) : Prop where
  sent : s.sent = old ++ [call]
  size : ofLittleEndian (slice 0 4 s.buf) = (pickle.dumps call).length
  data : slice 4 ((pickle.dumps call).length + 4) s.buf = pickle.dumps call
  stays : ∀ call ∈ old, ¬call.exits = true
  distinct : remaining.Nodup
  unsignalled : ∀ i ∈ remaining, Took old (s.workers i)
  signalled : ∀ i ∈ ranks worldSize, i ∉ remaining →
    During old call (pickle.dumps call).length (s.workers i)

theorem InCall.of_same (inCall : InCall worldSize pickle s call remaining old)
    (buf : s'.buf = s.buf) (sent : s'.sent = s.sent) (workers : s'.workers = s.workers) :
    InCall worldSize pickle s' call remaining old := by
  constructor
  · rw [sent, inCall.sent]
  · rw [buf, inCall.size]
  · rw [buf, inCall.data]
  · exact inCall.stays
  · exact inCall.distinct
  · rw [workers]
    exact inCall.unsignalled
  · rw [workers]
    exact inCall.signalled

/-- What holds for each phase of rank 0. -/
def PhaseValid (worldSize : ℕ) (pickle : Pickle A) (s : State A) : RootPhase A → Prop
  | .idle => Rested worldSize s
  | .sizeWritten call =>
      ofLittleEndian (slice 0 4 s.buf) = (pickle.dumps call).length ∧ Rested worldSize s
  | .signalling call remaining => ∃ old, InCall worldSize pickle s call remaining old ∧
      s.collectives = old.length
  | .calling call => ∃ old, InCall worldSize pickle s call [] old ∧ s.collectives = old.length
  | .joined call => ∃ old, InCall worldSize pickle s call [] old ∧ s.collectives = old.length + 1
  | .exited => ∀ i ∈ ranks worldSize, Took s.sent (s.workers i)

structure State.Valid (worldSize : ℕ) (pickle : Pickle A) (s : State A) : Prop where
  long : 4 ≤ s.buf.length
  phase : PhaseValid worldSize pickle s s.root

theorem valid_initial (long : 4 ≤ size) :
    ({ buf := List.replicate size 0 } : State A).Valid worldSize pickle := by
  constructor
  · simpa using long
  · refine ⟨rfl, ?_, ?_⟩
    · intro call mem
      cases mem
    · intro i _
      exact ⟨rfl, rfl, rfl, .inl rfl⟩

/-- Rank 0 enters a call. -/
theorem State.Valid.enterCall (valid : s.Valid worldSize pickle)
    (stepped : s.enterCall pickle call = some s') : s'.Valid worldSize pickle := by
  have phase := valid.phase
  rw [State.enterCall] at stepped
  cases root : s.root with
  | idle =>
    rw [root] at stepped phase
    simp only at stepped
    split at stepped
    · next fits =>
      cases stepped
      have written : 0 + (littleEndian 4 (pickle.dumps call).length).length ≤ s.buf.length := by
        rw [length_littleEndian]
        exact (Nat.zero_add 4).symm ▸ valid.long
      have read := slice_overwrite written
      rw [length_littleEndian] at read
      refine ⟨?_, ?_, phase.collectives, phase.stays, phase.took⟩
      · rw [length_overwrite written]
        exact valid.long
      · rw [read, ofLittleEndian_littleEndian fits]
    · cases stepped
  | sizeWritten | signalling | calling | joined | exited =>
    rw [root] at stepped
    cases stepped

/-- Rank 0 goes on. -/
theorem State.Valid.rootStep (valid : s.Valid worldSize pickle)
    (stepped : s.rootStep worldSize pickle = some s') : s'.Valid worldSize pickle := by
  have phase := valid.phase
  rw [State.rootStep] at stepped
  cases root : s.root with
  | idle =>
    rw [root] at stepped
    cases stepped
  | sizeWritten call =>
    rw [root] at stepped phase
    rcases phase with ⟨size, rested⟩
    simp only at stepped
    split at stepped
    · next fits =>
      cases stepped
      have written : 4 + (pickle.dumps call).length ≤ s.buf.length := by omega
      have read := slice_overwrite written
      rw [Nat.add_comm] at read
      refine ⟨?_, s.sent, ⟨rfl, ?_, read, rested.stays, List.nodup_range', rested.took, ?_⟩,
        rested.collectives⟩
      · rw [length_overwrite written]
        exact valid.long
      · rw [slice_overwrite_before (Nat.le_refl 4) valid.long, size]
      · intro i mem other
        exact absurd mem other
    · cases stepped
      exact ⟨valid.long, rested.collectives, rested.stays, rested.took⟩
  | signalling call remaining =>
    rw [root] at stepped phase
    rcases phase with ⟨old, inCall, collectives⟩
    cases remaining with
    | nil =>
      cases stepped
      exact ⟨valid.long, old, inCall.of_same rfl rfl rfl, collectives⟩
    | cons i remaining =>
      cases stepped
      have distinct := List.nodup_cons.mp inCall.distinct
      refine ⟨valid.long, old, ⟨inCall.sent, inCall.size, inCall.data, inCall.stays, distinct.2,
        ?_, ?_⟩, collectives⟩
      · intro j mem
        have other : j ≠ i := by
          rintro rfl
          exact distinct.1 mem
        change Took old ((s.setWorker i _).workers j)
        rw [State.setWorker_of_ne _ _ other]
        exact inCall.unsignalled j (List.mem_cons_of_mem _ mem)
      · intro j mem notRemaining
        by_cases same : j = i
        · subst same
          have took := inCall.unsignalled j List.mem_cons_self
          change During old call _ ((s.setWorker j _).workers j)
          rw [State.setWorker_self]
          refine .signalled rfl took.received took.collectives ?_
          rcases took.phase with waiting | ⟨last, ends, joined | ⟨-, exits⟩⟩
          · exact .inl waiting
          · exact .inr (.inr ⟨last, ends, joined⟩)
          · exact absurd exits (inCall.stays last (List.mem_of_mem_getLast? ends))
        · change During old call _ ((s.setWorker i _).workers j)
          rw [State.setWorker_of_ne _ _ same]
          apply inCall.signalled j mem
          rw [List.mem_cons, not_or]
          exact ⟨same, notRemaining⟩
  | calling call =>
    rw [root] at stepped phase
    rcases phase with ⟨old, inCall, collectives⟩
    cases stepped
    refine ⟨valid.long, old, inCall.of_same rfl rfl rfl, ?_⟩
    rw [collectives]
  | joined call =>
    rw [root] at stepped phase
    rcases phase with ⟨old, inCall, collectives⟩
    simp only at stepped
    split at stepped
    · next complete =>
      cases stepped
      have took : ∀ i ∈ ranks worldSize, Took s.sent (s.workers i) := by
        intro i mem
        rw [inCall.sent]
        apply (inCall.signalled i mem List.not_mem_nil).took_of_joined
        have joined := complete i mem
        omega
      refine ⟨valid.long, ?_⟩
      by_cases exits : call.exits = true
      · simp only [if_pos exits]
        exact took
      · simp only [if_neg exits]
        refine ⟨?_, ?_, took⟩
        · rw [inCall.sent, collectives, List.length_append, List.length_singleton]
        · rw [inCall.sent, List.forall_mem_append]
          exact ⟨inCall.stays, List.forall_mem_singleton.mpr exits⟩
    · cases stepped
  | exited =>
    rw [root] at stepped
    cases stepped

theorem forall_setWorker {P : ℕ → Worker A → Prop} {i : ℕ} (all : ∀ j ∈ ranks worldSize,
    P j (s.workers j)) (one : P i w) : ∀ j ∈ ranks worldSize, P j ((s.setWorker i w).workers j) := by
  intro j mem
  by_cases same : j = i
  · subst same
    rw [State.setWorker_self]
    exact one
  · rw [State.setWorker_of_ne _ _ same]
    exact all j mem

theorem InCall.setWorker {i : ℕ} (inCall : InCall worldSize pickle s call remaining old)
    (mem : i ∈ ranks worldSize)
    (stepped : State.workerStep pickle s.buf (s.workers i) = some w) :
    InCall worldSize pickle (s.setWorker i w) call remaining old := by
  refine ⟨inCall.sent, inCall.size, inCall.data, inCall.stays, inCall.distinct, ?_, ?_⟩
  · intro j later
    by_cases same : j = i
    · subst same
      rw [State.setWorker_self]
      exact (inCall.unsignalled j later).step stepped
    · rw [State.setWorker_of_ne _ _ same]
      exact inCall.unsignalled j later
  · intro j mem' signalled
    by_cases same : j = i
    · subst same
      rw [State.setWorker_self]
      apply (inCall.signalled j mem signalled).step inCall.size _ inCall.stays stepped
      rw [inCall.data, pickle.loads_dumps]
    · rw [State.setWorker_of_ne _ _ same]
      exact inCall.signalled j mem' signalled

/-- Another rank goes on. -/
theorem State.Valid.workerStep {i : ℕ} (valid : s.Valid worldSize pickle)
    (mem : i ∈ ranks worldSize)
    (stepped : State.workerStep pickle s.buf (s.workers i) = some w) :
    (s.setWorker i w).Valid worldSize pickle := by
  have phase := valid.phase
  refine ⟨valid.long, ?_⟩
  have root : (s.setWorker i w).root = s.root := rfl
  rw [root]
  cases root : s.root with
  | idle =>
    rw [root] at phase
    exact ⟨phase.collectives, phase.stays,
      forall_setWorker phase.took ((phase.took i mem).step stepped)⟩
  | sizeWritten call =>
    rw [root] at phase
    exact ⟨phase.1, phase.2.collectives, phase.2.stays,
      forall_setWorker phase.2.took ((phase.2.took i mem).step stepped)⟩
  | signalling call remaining =>
    rw [root] at phase
    rcases phase with ⟨old, inCall, collectives⟩
    exact ⟨old, inCall.setWorker mem stepped, collectives⟩
  | calling call =>
    rw [root] at phase
    rcases phase with ⟨old, inCall, collectives⟩
    exact ⟨old, inCall.setWorker mem stepped, collectives⟩
  | joined call =>
    rw [root] at phase
    rcases phase with ⟨old, inCall, collectives⟩
    exact ⟨old, inCall.setWorker mem stepped, collectives⟩
  | exited =>
    rw [root] at phase
    exact forall_setWorker phase ((phase i mem).step stepped)

theorem State.Valid.next {action : Action A} (valid : s.Valid worldSize pickle)
    (stepped : s.next worldSize pickle action = some s') : s'.Valid worldSize pickle := by
  cases action with
  | call call => exact valid.enterCall stepped
  | root => exact valid.rootStep stepped
  | worker i =>
    rw [State.next] at stepped
    split at stepped
    · next mem =>
      rcases Option.map_eq_some_iff.mp stepped with ⟨w, moved, rfl⟩
      exact valid.workerStep mem moved
    · cases stepped

theorem Reachable.valid (long : 4 ≤ size) (reachable : Reachable worldSize pickle size s) :
    s.Valid worldSize pickle := by
  induction reachable with
  | initial => exact valid_initial long
  | step _ stepped ih => exact ih.next stepped

/-! ## Every call returns -/

/-- The steps which a rank takes before it waits for a new event. -/
def Worker.work (worker : Worker A) : ℕ :=
  let later := if worker.event then 5 else 0
  match worker.phase with
  | .waiting => later
  | .reading _ => 4
  | .clearing _ => 3
  | .calling _ => 2 + later
  | .joined _ => 1 + later
  | .failed => 0
  | .exited => 0

/-- The steps of rank 0 in a call, and those which its events cause. -/
def RootPhase.work (others : ℕ) : RootPhase A → ℕ
  | .idle => 0
  | .sizeWritten _ => 6 * others + 4
  | .signalling _ remaining => 6 * remaining.length + 3
  | .calling _ => 2
  | .joined _ => 1
  | .exited => 0

/-- A bound on the steps until all ranks wait for a new call. -/
def State.work (worldSize : ℕ) (s : State A) : ℕ :=
  s.root.work (ranks worldSize).length +
    ∑ i ∈ (ranks worldSize).toFinset, (s.workers i).work

/-- A rank which has not joined the collective of a call goes on. -/
theorem During.goesOn (during : During old call n w) (behind : w.collectives ≤ old.length) :
    State.workerStep pickle buf w ≠ none := by
  rw [State.workerStep]
  cases during with
  | signalled event received collectives phase =>
    rcases phase with waiting | reading | ⟨last, -, joined⟩
    · rw [waiting]
      simp [event]
    · rw [reading]
      cases loaded : pickle.loads (slice 4 (n + 4) buf) <;> simp [loaded]
    · rw [joined]
      simp
  | decoded event received collectives phase =>
    rw [phase]
    simp
  | started event received collectives phase =>
    rw [phase]
    simp
  | took took =>
    have joined := took.collectives
    rw [List.length_append, List.length_singleton] at joined
    omega

/-- A call is never stuck. -/
theorem State.Valid.goesOn (valid : s.Valid worldSize pickle) (busy : s.root ≠ .idle)
    (alive : s.root ≠ .exited) :
    ∃ action, (∀ call, action ≠ .call call) ∧ s.next worldSize pickle action ≠ none := by
  have phase := valid.phase
  have other : ∀ call : Call A, Action.root ≠ .call call := by
    intro call same
    cases same
  cases root : s.root with
  | idle => exact absurd root busy
  | exited => exact absurd root alive
  | sizeWritten call =>
    refine ⟨.root, other, ?_⟩
    rw [State.next, State.rootStep, root]
    simp only
    split <;> simp
  | signalling call remaining =>
    refine ⟨.root, other, ?_⟩
    rw [State.next, State.rootStep, root]
    cases remaining <;> simp
  | calling call =>
    refine ⟨.root, other, ?_⟩
    rw [State.next, State.rootStep, root]
    simp
  | joined call =>
    rw [root] at phase
    rcases phase with ⟨old, inCall, collectives⟩
    by_cases complete : ∀ i ∈ ranks worldSize, s.collectives ≤ (s.workers i).collectives
    · refine ⟨.root, other, ?_⟩
      rw [State.next, State.rootStep, root]
      simp only [if_pos complete]
      simp
    · simp only [not_forall] at complete
      rcases complete with ⟨i, mem, behind⟩
      refine ⟨.worker i, ?_, ?_⟩
      · intro call same
        cases same
      · rw [State.next, if_pos mem, Ne, Option.map_eq_none_iff]
        exact (inCall.signalled i mem List.not_mem_nil).goesOn (by omega)

/-! ## Every run -/

/-- The state after some actions. -/
def State.run (worldSize : ℕ) (pickle : Pickle A) : State A → List (Action A) → Option (State A)
  | s, [] => some s
  | s, action :: actions => (s.next worldSize pickle action).bind fun s' =>
      run worldSize pickle s' actions

theorem State.Valid.run {actions : List (Action A)} (valid : s.Valid worldSize pickle)
    (ran : s.run worldSize pickle actions = some s') : s'.Valid worldSize pickle := by
  induction actions generalizing s with
  | nil =>
    cases ran
    exact valid
  | cons action actions ih =>
    rcases Option.bind_eq_some_iff.mp ran with ⟨middle, stepped, rest⟩
    exact ih (valid.next stepped) rest

/-- A rank is at most one call behind. -/
theorem State.Valid.received (valid : s.Valid worldSize pickle) {i : ℕ}
    (mem : i ∈ ranks worldSize) :
    (s.workers i).received <+: s.sent ∧ s.sent.length ≤ (s.workers i).received.length + 1 ∧
      (s.workers i).phase ≠ .failed := by
  have ofTook : ∀ {sent}, Took sent (s.workers i) → (s.workers i).received = sent ∧
      (s.workers i).phase ≠ .failed := by
    intro sent took
    refine ⟨took.received, ?_⟩
    rcases took.phase with waiting | ⟨last, -, joined | ⟨exited, -⟩⟩
    · simp [waiting]
    · simp [joined]
    · simp [exited]
  have whole : Took s.sent (s.workers i) → (s.workers i).received <+: s.sent ∧
      s.sent.length ≤ (s.workers i).received.length + 1 ∧ (s.workers i).phase ≠ .failed := by
    intro took
    rw [(ofTook took).1]
    exact ⟨List.prefix_refl _, Nat.le_succ _, (ofTook took).2⟩
  have inCall : ∀ {call remaining old}, InCall worldSize pickle s call remaining old →
      (s.workers i).received <+: s.sent ∧ s.sent.length ≤ (s.workers i).received.length + 1 ∧
        (s.workers i).phase ≠ .failed := by
    intro call remaining old inCall
    rw [inCall.sent]
    by_cases later : i ∈ remaining
    · have took := ofTook (inCall.unsignalled i later)
      rw [took.1]
      exact ⟨List.prefix_append _ _, by simp, took.2⟩
    · cases inCall.signalled i mem later with
      | signalled event received collectives phase =>
        rw [received]
        refine ⟨List.prefix_append _ _, by simp, ?_⟩
        rcases phase with waiting | reading | ⟨last, -, joined⟩
        · simp [waiting]
        · simp [reading]
        · simp [joined]
      | decoded event received collectives phase =>
        rw [received]
        exact ⟨List.prefix_refl _, Nat.le_succ _, by simp [phase]⟩
      | started event received collectives phase =>
        rw [received]
        exact ⟨List.prefix_refl _, Nat.le_succ _, by simp [phase]⟩
      | took took =>
        rw [(ofTook took).1]
        exact ⟨List.prefix_refl _, Nat.le_succ _, (ofTook took).2⟩
  have phase := valid.phase
  cases root : s.root with
  | idle =>
    rw [root] at phase
    exact whole (phase.took i mem)
  | sizeWritten call =>
    rw [root] at phase
    exact whole (phase.2.took i mem)
  | signalling call remaining | calling call | joined call =>
    rw [root] at phase
    rcases phase with ⟨old, valid', -⟩
    exact inCall valid'
  | exited =>
    rw [root] at phase
    exact whole (phase i mem)

/-- While rank 0 writes the memory, every rank has made all calls and none reads it. -/
theorem State.Valid.exclusive (valid : s.Valid worldSize pickle)
    (writes : s.root = .idle ∨ ∃ call, s.root = .sizeWritten call) {i : ℕ}
    (mem : i ∈ ranks worldSize) :
    (s.workers i).received = s.sent ∧ ∀ n, (s.workers i).phase ≠ .reading n := by
  have took : Took s.sent (s.workers i) := by
    have phase := valid.phase
    rcases writes with idle | ⟨call, written⟩
    · rw [idle] at phase
      exact phase.took i mem
    · rw [written] at phase
      exact phase.2.took i mem
  refine ⟨took.received, ?_⟩
  intro n reading
  rcases took.phase with waiting | ⟨last, -, joined | ⟨exited, -⟩⟩
  · rw [waiting] at reading
    cases reading
  · rw [joined] at reading
    cases reading
  · rw [exited] at reading
    cases reading

theorem Reachable.run {actions : List (Action A)} (reachable : Reachable worldSize pickle size s)
    (ran : s.run worldSize pickle actions = some s') : Reachable worldSize pickle size s' := by
  induction actions generalizing s with
  | nil =>
    cases ran
    exact reachable
  | cons action actions ih =>
    rcases Option.bind_eq_some_iff.mp ran with ⟨middle, stepped, rest⟩
    exact ih (reachable.step stepped) rest

end NanoVllm.Ranks
