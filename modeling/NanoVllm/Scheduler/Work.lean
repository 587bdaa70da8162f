import NanoVllm.Scheduler.BatchShape
import NanoVllm.Scheduler.Postprocess
import NanoVllm.Scheduler.Progress
import Mathlib.Algebra.Order.BigOperators.Group.Finset

/-!
# The work of a closed run

A waiting request which retains an incomplete prefix may take pages away from the others, and only
such a request does. It has then completed its own table or given it up, so that there are fewer
of them. Without reclaims no waiting request loses computed tokens. Hence a prefill phase which
completes no prompt decreases the retained prefixes or, with these unchanged, the uncomputed
tokens.

A retry of `schedule()` has preempted all running requests before it. Every other batch contains a
request which gets a token. So a round of `schedule()` and `postprocess` leaves less work.
-/

namespace NanoVllm

namespace Scheduler

variable {cfg : Config} {env : ScheduleEnv cfg} {now : ℚ} {ids : Finset SeqId} {kv : KvStore}
  {s s' : Scheduler} {i j : SeqId}

/-- The waiting requests which retain an incomplete prefix. -/
def retained (cfg : Config) (s : Scheduler) : Finset SeqId :=
  s.owners.filter fun i => (s.seqs i).blockTable.length ≠ (s.seqs i).numBlocks cfg

/-- The number of tokens of waiting requests which are not computed. -/
def uncomputed (s : Scheduler) : ℕ :=
  ∑ i ∈ s.waiting.toFinset, ((s.seqs i).numTokens - (s.seqs i).computedTokens)

/-- The work of the prefill phase: first retained prefixes, then uncomputed tokens. -/
def prefillWork (cfg : Config) (s : Scheduler) : ℕ × ℕ := ((s.retained cfg).card, s.uncomputed)

/-- Less work. -/
abbrev LessWork : ℕ × ℕ → ℕ × ℕ → Prop := Prod.Lex (fun m n => m < n) fun m n => m < n

theorem mem_retained : i ∈ s.retained cfg ↔ i ∈ s.waiting ∧ (s.seqs i).blockTable ≠ [] ∧
    (s.seqs i).blockTable.length ≠ (s.seqs i).numBlocks cfg := by
  rw [retained, Finset.mem_filter, mem_owners, and_assoc]

theorem SameRequest.numTokens {seq seq' : Sequence} (same : SameRequest seq seq') :
    seq'.numTokens = seq.numTokens := by
  rw [Sequence.numTokens, same.tokenIds]
  rfl

theorem SameRequest.numBlocks {seq seq' : Sequence} (same : SameRequest seq seq') (cfg : Config) :
    seq'.numBlocks cfg = seq.numBlocks cfg := by
  rw [Sequence.numBlocks, same.numTokens]
  rfl

/-- Taking `i` out of the retained prefixes decreases the work. -/
theorem lessWork_of_retained (others : ∀ j, j ≠ i → j ∈ s'.retained cfg → j ∈ s.retained cfg)
    (before : i ∈ s.retained cfg) (after : i ∉ s'.retained cfg) :
    LessWork (s'.prefillWork cfg) (s.prefillWork cfg) := by
  apply Prod.Lex.left
  apply Finset.card_lt_card
  rw [Finset.ssubset_iff_of_subset]
  · exact ⟨i, before, after⟩
  · intro j mem
    apply others j _ mem
    rintro rfl
    exact after mem

/-- Computing tokens with the same retained prefixes decreases the work. -/
theorem lessWork_of_uncomputed (same : s'.retained cfg = s.retained cfg)
    (less : s'.uncomputed < s.uncomputed) :
    LessWork (s'.prefillWork cfg) (s.prefillWork cfg) := by
  rw [prefillWork, prefillWork, same]
  exact Prod.Lex.right _ less

/-- The work depends on the tables and the computed tokens of waiting requests only. -/
theorem prefillWork_congr (waiting : s'.waiting = s.waiting)
    (table : ∀ i ∈ s.waiting, (s'.seqs i).blockTable = (s.seqs i).blockTable)
    (tokens : ∀ i ∈ s.waiting, (s'.seqs i).numTokens = (s.seqs i).numTokens)
    (computed : ∀ i ∈ s.waiting, (s'.seqs i).computedTokens = (s.seqs i).computedTokens) :
    s'.prefillWork cfg = s.prefillWork cfg := by
  have retained : s'.retained cfg = s.retained cfg := by
    ext i
    rw [mem_retained, mem_retained, waiting]
    apply and_congr_right
    intro mem
    rw [table i mem, Sequence.numBlocks, tokens i mem]
    rfl
  have uncomputed : s'.uncomputed = s.uncomputed := by
    rw [Scheduler.uncomputed, Scheduler.uncomputed, waiting]
    apply Finset.sum_congr rfl
    intro i mem
    rw [tokens i (List.mem_toFinset.mp mem), computed i (List.mem_toFinset.mp mem)]
  rw [prefillWork, prefillWork, retained, uncomputed]

theorem prefillWork_withBudget {budget : Option ℚ} (waiting : s'.waiting = s.waiting)
    (seqs : s'.seqs = (s.withBudget i budget).seqs) :
    s'.prefillWork cfg = s.prefillWork cfg := by
  have marked : ∀ j, s'.seqs j = s.seqs j ∨
      s'.seqs j = { s.seqs j with lastBudgetMs := budget } := by
    intro j
    rw [seqs]
    by_cases same : j = i
    · subst same
      exact .inr (Function.update_self _ _ _)
    · exact .inl (Function.update_of_ne same _ _)
  apply prefillWork_congr waiting
  · intro j _
    rcases marked j with same | same
    · rw [same]
    · rw [same]
  · intro j _
    rcases marked j with same | same
    · rw [same]
    · rw [same]
      rfl
  · intro j _
    rcases marked j with same | same
    · rw [same]
    · rw [same]
      rfl

namespace PrefillState

variable {st st' : PrefillState} {control : PrefillControl}

/-- What an iteration which stays in the loop does to the queues and to the work. -/
inductive Works (cfg : Config) (st st' : PrefillState) : Prop
  | passes (scheduledSeqs : st'.scheduledSeqs = st.scheduledSeqs)
      (waiting : st'.scheduler.waiting = st.scheduler.waiting)
      (running : st'.scheduler.running = st.scheduler.running)
      (work : st'.scheduler.prefillWork cfg = st.scheduler.prefillWork cfg ∨
        LessWork (st'.scheduler.prefillWork cfg) (st.scheduler.prefillWork cfg)) : Works cfg st st'
  | completes {i : SeqId} (scheduledSeqs : st'.scheduledSeqs = st.scheduledSeqs ++ [i])
      (status : (st'.scheduler.seqs i).status = .running) : Works cfg st st'
  | advances {i : SeqId} (scheduledSeqs : st'.scheduledSeqs = st.scheduledSeqs ++ [i])
      (waiting : st'.scheduler.waiting = st.scheduler.waiting)
      (running : st'.scheduler.running = st.scheduler.running)
      (spent : cfg.maxNumBatchedTokens ≤ st'.numBatchedTokens)
      (work : LessWork (st'.scheduler.prefillWork cfg) (st.scheduler.prefillWork cfg)) :
      Works cfg st st'

/-- An iteration gives a retained prefix to no request but the selected one. -/
theorem Prepares.retained (prepares : Prepares cfg s i s') (differ : j ≠ i)
    {s'' : Scheduler} (waiting : s''.waiting = s'.waiting) (same : s''.seqs j = s'.seqs j)
    (mem : j ∈ s''.retained cfg) : j ∈ s.retained cfg := by
  rw [mem_retained, waiting, same, prepares.waiting] at mem
  rcases prepares.others j differ with unchanged | ⟨-, -, freed, invalidated, reclaimed⟩
  · rw [unchanged] at mem
    exact mem_retained.mpr mem
  · rw [reclaimed] at mem
    exact absurd rfl mem.2.1

/-- A selected request which retains no incomplete prefix is only marked. -/
theorem Prepares.marked (prepares : Prepares cfg s i s') (mem : i ∈ s.waiting)
    (whole : i ∉ s.retained cfg) : ∃ budget, s'.seqs = (s.withBudget i budget).seqs := by
  apply prepares.unchanged
  by_contra incomplete
  push Not at incomplete
  exact whole (mem_retained.mpr ⟨mem, incomplete.1, incomplete.2⟩)

/-- Skipping the selected request, which has no pages. -/
theorem Works.of_skip (prepares : Prepares cfg st.scheduler i s') (mem : i ∈ st.scheduler.waiting)
    (table : (s'.seqs i).blockTable = []) (scheduledSeqs : st'.scheduledSeqs = st.scheduledSeqs)
    (seqs : st'.scheduler.seqs = s'.seqs) (waiting : st'.scheduler.waiting = s'.waiting)
    (running : st'.scheduler.running = s'.running) : Works cfg st st' := by
  refine .passes scheduledSeqs (waiting.trans prepares.waiting) (running.trans prepares.running) ?_
  by_cases before : i ∈ st.scheduler.retained cfg
  · right
    apply lessWork_of_retained _ before
    · intro after
      rw [mem_retained, seqs] at after
      exact after.2.1 table
    · intro j differ
      exact prepares.retained differ waiting (congrFun seqs j)
  · left
    rcases prepares.marked mem before with ⟨budget, marked⟩
    exact prefillWork_withBudget (waiting.trans prepares.waiting) (seqs.trans marked)

/-- Scheduling tokens of the selected request. -/
theorem Schedules.works {st₁ : PrefillState} (schedules : Schedules cfg st₁ i st')
    (prepares : Prepares cfg st.scheduler i st₁.scheduler)
    (scheduledSeqs : st₁.scheduledSeqs = st.scheduledSeqs) (valid : st.Valid cfg ids kv)
    (mem : i ∈ st.scheduler.waiting) (follows : Follows st.scheduler st'.scheduler) :
    Works cfg st st' := by
  have scheduled : st'.scheduledSeqs = st.scheduledSeqs ++ [i] := by
    rw [schedules.scheduledSeqs, scheduledSeqs]
  have others : ∀ j, j ≠ i → st'.scheduler.seqs j = st₁.scheduler.seqs j := by
    intro j differ
    rcases schedules.seqs with ⟨seq, seqs⟩
    rw [seqs, Function.update_of_ne differ]
  have whole : i ∉ st'.scheduler.retained cfg := by
    intro after
    exact (mem_retained.mp after).2.2 schedules.full
  rcases schedules.moved with ⟨status, -, -⟩ | ⟨-, waiting, running, spent⟩
  · exact .completes scheduled status
  refine .advances scheduled (waiting.trans prepares.waiting) (running.trans prepares.running)
    spent ?_
  by_cases before : i ∈ st.scheduler.retained cfg
  · apply lessWork_of_retained _ before whole
    intro j differ
    exact prepares.retained differ waiting (others j differ)
  · rcases prepares.marked mem before with ⟨budget, marked⟩
    have unchanged : ∀ j, j ≠ i → st'.scheduler.seqs j = st.scheduler.seqs j := by
      intro j differ
      rw [others j differ, marked]
      exact Function.update_of_ne differ _ _
    apply lessWork_of_uncomputed
    · ext j
      by_cases same : j = i
      · subst same
        exact iff_of_false whole before
      · rw [mem_retained, mem_retained, waiting, prepares.waiting, unchanged j same]
    · rw [uncomputed, uncomputed, waiting, prepares.waiting]
      have advances : (st.scheduler.seqs i).computedTokens <
          (st'.scheduler.seqs i).computedTokens := by
        have advances := schedules.advances
        rw [marked] at advances
        simpa [Scheduler.withBudget, Scheduler.setSeq, Sequence.computedTokens] using advances
      apply Finset.sum_lt_sum
      · intro j _
        by_cases same : j = i
        · subst same
          rw [(follows.request j).numTokens]
          exact Nat.sub_le_sub_left advances.le _
        · rw [unchanged j same]
      · refine ⟨i, List.mem_toFinset.mpr mem, ?_⟩
        have short := (valid.scheduler.waiting mem).2.2.short
        rw [(follows.request i).numTokens]
        omega

/-- An iteration which stays in the loop without starting a restore. -/
theorem Iterates.works (iterates : Iterates cfg env now st (.again st'))
    (valid : st.Valid cfg ids kv) (sound : Sound cfg ids kv st (.again st'))
    (closed : env.service = .absent cfg) : Works cfg st st' := by
  generalize outcome : PrefillControl.again st' = control at iterates sound
  cases iterates with
  | ineligible _ => cases outcome
  | exhausted _ _ => cases outcome
  | stuck _ _ _ _ _ _ => cases outcome
  | @admits i s' _ selects budget prepares admits =>
    have mem := selects.mem.1
    cases admits with
    | @blocked bm' matched same table longest lacking =>
      have reached : st' = (({ st with scheduler := { s' with blockManager := bm' } } :
          PrefillState).allocationBlocked cfg i).state := congrArg PrefillControl.state outcome
      rcases @allocationBlocked_state cfg i
        { st with scheduler := { s' with blockManager := bm' } } with ⟨scheduler, scheduledSeqs, -⟩
      rw [← reached] at scheduler scheduledSeqs
      apply Works.of_skip prepares mem table scheduledSeqs
      · rw [scheduler]
      · rw [scheduler]
      · rw [scheduler]
    | @forbidden bm' same table busy =>
      have reached : st' = (({ st with scheduler := { s' with blockManager := bm' } } :
          PrefillState).deferBudget cfg i).state := congrArg PrefillControl.state outcome
      rw [deferBudget_state] at reached
      subst reached
      exact Works.of_skip prepares mem table rfl rfl rfl rfl
    | restored started =>
      rcases started.offered with ⟨n, pages, planned⟩
      rw [closed] at planned
      cases planned
    | postponed _ _ _ => cases outcome
    | scheduled schedules =>
      cases outcome
      exact schedules.works prepares rfl valid mem sound.follows

/-! ## Runs of the loop -/

/-- An iteration keeps the scheduled requests and their status. -/
theorem Iterates.joined (iterates : Iterates cfg env now st control) (valid : st.Valid cfg ids kv)
    (mem : i ∈ st.scheduledSeqs) : i ∈ control.state.scheduledSeqs ∧
      (control.state.scheduler.seqs i).status = (st.scheduler.seqs i).status := by
  have kept := fun budget => iterates.kept valid budget mem
  cases iterates with
  | ineligible _ => exact ⟨mem, rfl⟩
  | @exhausted j budget _ _ =>
    refine ⟨mem, ?_⟩
    by_cases same : i = j
    · subst same
      simp [PrefillControl.state, Scheduler.withBudget, Scheduler.setSeq]
    · simp [PrefillControl.state, Scheduler.withBudget, Scheduler.setSeq, same]
  | stuck _ unspent _ _ _ _ => exact ⟨mem, by rw [kept unspent]⟩
  | admits _ budget _ admits =>
    refine ⟨?_, by rw [kept budget]⟩
    cases admits with
    | blocked _ _ _ _ =>
      rw [(allocationBlocked_state _).2.1]
      exact mem
    | forbidden _ _ _ =>
      rw [deferBudget_state]
      exact mem
    | restored _ => exact mem
    | postponed _ _ _ => exact mem
    | @scheduled st₁ schedules =>
      change i ∈ st₁.scheduledSeqs
      rw [schedules.scheduledSeqs]
      exact List.mem_append_left _ mem

theorem Loops.joined (loops : Loops cfg ids kv env now st st') (mem : i ∈ st.scheduledSeqs) :
    i ∈ st'.scheduledSeqs ∧
      (st'.scheduler.seqs i).status = (st.scheduler.seqs i).status := by
  induction loops with
  | stop _ _ => exact ⟨mem, rfl⟩
  | leave valid _ iterates _ => exact iterates.joined valid mem
  | again valid _ iterates _ _ ih =>
    rcases iterates.joined valid mem with ⟨mem', status⟩
    rcases ih mem' with ⟨mem'', status'⟩
    exact ⟨mem'', status'.trans status⟩

/-- A loop which has spent its tokens does nothing more. -/
theorem Loops.of_spent (loops : Loops cfg ids kv env now st st')
    (spent : cfg.maxNumBatchedTokens ≤ st.numBatchedTokens) :
    st' = st ∨ ∃ i budget, st' = { st with scheduler := st.scheduler.withBudget i budget } := by
  cases loops with
  | stop _ _ => exact .inl rfl
  | leave _ _ iterates _ =>
    cases iterates with
    | ineligible _ => exact .inl rfl
    | exhausted _ _ => exact .inr ⟨_, _, rfl⟩
    | stuck _ unspent _ _ _ _ => exact absurd unspent (not_lt.mpr spent)
    | admits _ budget _ _ => exact absurd budget (not_lt.mpr spent)
  | @again _ st₁ _ _ _ iterates _ _ =>
    generalize outcome : PrefillControl.again st₁ = control at iterates
    cases iterates with
    | ineligible _ => cases outcome
    | exhausted _ _ => cases outcome
    | stuck _ _ _ _ _ _ => cases outcome
    | admits _ budget _ _ => exact absurd budget (not_lt.mpr spent)

/-- An iteration which leaves the loop schedules nothing. -/
theorem Iterates.scheduledSeqs_of_leave (iterates : Iterates cfg env now st (.leave st')) :
    st'.scheduledSeqs = st.scheduledSeqs := by
  generalize outcome : PrefillControl.leave st' = control at iterates
  have reached : st' = control.state := congrArg PrefillControl.state outcome
  cases iterates with
  | ineligible _ => rw [reached, PrefillControl.state]
  | exhausted _ _ => rw [reached, PrefillControl.state]
  | stuck _ _ _ _ _ _ => rw [reached, PrefillControl.state]
  | admits _ _ _ admits =>
    cases admits with
    | blocked _ _ _ _ =>
      rw [reached, (allocationBlocked_state _).2.1]
    | forbidden _ _ _ => rw [reached, deferBudget_state]
    | restored _ => cases outcome
    | postponed _ _ _ => rw [reached, PrefillControl.state]
    | scheduled _ => cases outcome

/-- A loop which only schedules parts of prompts decreases the work. -/
theorem Loops.works (loops : Loops cfg ids kv env now st st') (closed : env.service = .absent cfg)
    (unscheduled : st.scheduledSeqs = []) (batched : st'.scheduledSeqs ≠ [])
    (waits : ∀ i ∈ st'.scheduledSeqs, (st'.scheduler.seqs i).status = .waiting) :
    st'.scheduler.running = st.scheduler.running ∧
      LessWork (st'.scheduler.prefillWork cfg) (st.scheduler.prefillWork cfg) := by
  induction loops with
  | stop _ _ => exact absurd unscheduled batched
  | leave _ _ iterates _ =>
    rw [iterates.scheduledSeqs_of_leave] at batched
    exact absurd unscheduled batched
  | @again st st₁ st' valid _ iterates sound rest ih =>
    cases iterates.works valid sound closed with
    | passes scheduledSeqs waiting running work =>
      rcases ih (scheduledSeqs.trans unscheduled) batched waits with ⟨running', less⟩
      refine ⟨running'.trans running, ?_⟩
      rcases work with same | less'
      · rwa [same] at less
      · exact IsTrans.trans _ _ _ less less'
    | @completes i scheduledSeqs status =>
      have mem : i ∈ st₁.scheduledSeqs := by
        rw [scheduledSeqs]
        simp
      rcases rest.joined mem with ⟨mem', status'⟩
      have waiting := waits i mem'
      rw [status', status] at waiting
      cases waiting
    | advances scheduledSeqs waiting running spent work =>
      rcases rest.of_spent spent with rfl | ⟨i, budget, rfl⟩
      · exact ⟨running, work⟩
      · refine ⟨running, ?_⟩
        have same := @prefillWork_withBudget cfg st₁.scheduler (st₁.scheduler.withBudget i budget)
          i budget rfl rfl
        rw [same]
        exact work

/-- Without a remote restore service an iteration starts no restore. -/
theorem Iterates.pendingRestores (iterates : Iterates cfg env now st control)
    (closed : env.service = .absent cfg) :
    control.state.scheduler.pendingRestores = st.scheduler.pendingRestores := by
  cases iterates with
  | ineligible _ => rfl
  | exhausted _ _ => rfl
  | stuck _ _ _ _ reclaims _ => exact reclaims.pendingRestores
  | admits _ _ prepares admits =>
    rw [← prepares.pendingRestores]
    cases admits with
    | blocked _ _ _ _ => rw [(allocationBlocked_state _).1]
    | forbidden _ _ _ => rw [deferBudget_state]
    | restored started =>
      rcases started.offered with ⟨n, pages, planned⟩
      rw [closed] at planned
      cases planned
    | postponed _ _ pendingRestores => exact pendingRestores
    | scheduled schedules => exact schedules.pendingRestores

/-- Without a remote restore service the loop starts no restores. -/
theorem Loops.pendingRestores (loops : Loops cfg ids kv env now st st')
    (closed : env.service = .absent cfg) :
    st'.scheduler.pendingRestores = st.scheduler.pendingRestores := by
  induction loops with
  | stop _ _ => rfl
  | leave _ _ iterates _ => exact iterates.pendingRestores closed
  | again _ _ iterates _ _ ih => exact ih.trans (iterates.pendingRestores closed)

end PrefillState

/-! ## The schedule call -/

variable {seqs : List SeqId} {isPrefill : Bool} {outcome : ScheduleOutcome}

/-- The work of a schedule call: first running requests, then the work of the prefill phase. -/
def scheduleWork (cfg : Config) (s : Scheduler) : ℕ × ℕ × ℕ :=
  (s.running.length, s.prefillWork cfg)

/-- A pass which only schedules parts of prompts decreases the work of the prefill phase. -/
theorem SchedulesOnce.works
    (schedules : SchedulesOnce cfg ids kv env now s s' (.batch seqs isPrefill))
    (closed : env.service = .absent cfg) (batched : seqs ≠ [])
    (waits : ∀ i ∈ seqs, (s'.seqs i).status = .waiting) :
    s'.running = s.running ∧ LessWork (s'.prefillWork cfg) (s.prefillWork cfg) := by
  cases schedules with
  | prefill prefills _ =>
    rcases prefills with ⟨-, loops⟩ | ⟨-, rfl⟩
    · exact loops.works closed rfl batched waits
    · exact absurd rfl batched
  | decode _ _ decodes _ =>
    rcases List.exists_mem_of_ne_nil _ batched with ⟨i, mem⟩
    have waiting := waits i mem
    rw [(decodes.valid.runReady mem).1] at waiting
    cases waiting
  | waits _ _ _ _ => exact absurd rfl batched

/-- `schedule()` decreases the work when it only schedules parts of prompts. -/
theorem SchedulesAll.works
    (schedules : SchedulesAll cfg ids kv env s s' (.batch seqs isPrefill))
    (closed : env.service = .absent cfg) (batched : seqs ≠ [])
    (waits : ∀ i ∈ seqs, (s'.seqs i).status = .waiting) :
    Prod.Lex (fun m n => m < n) LessWork (s'.scheduleWork cfg) (s.scheduleWork cfg) := by
  cases schedules with
  | once schedules _ =>
    rcases schedules.works closed batched waits with ⟨running, less⟩
    rw [scheduleWork, scheduleWork, running]
    exact Prod.Lex.right _ less
  | again first schedules _ =>
    -- the first pass has preempted every running request, and there was one
    rcases schedules.works closed batched waits with ⟨running, -⟩
    apply Prod.Lex.left
    rw [running, first.running_of_retry, List.length_nil, List.length_pos_iff]
    intro alone
    exact first.ne_retry alone rfl

/-- Without a remote restore service a pass starts no restore. -/
theorem SchedulesOnce.pendingRestores (schedules : SchedulesOnce cfg ids kv env now s s' outcome)
    (closed : env.service = .absent cfg) : s'.pendingRestores = s.pendingRestores := by
  have prefilled : ∀ st, Prefills cfg ids kv env now s.nextStep st →
      st.scheduler.pendingRestores = s.pendingRestores := by
    rintro st (⟨-, loops⟩ | ⟨-, rfl⟩)
    · exact loops.pendingRestores closed
    · rfl
  cases schedules with
  | prefill prefills _ => exact prefilled _ prefills
  | decode prefills _ decodes _ => exact decodes.pendingRestores.trans (prefilled _ prefills)
  | waits prefills _ decodes _ => exact decodes.pendingRestores.trans (prefilled _ prefills)
  | retry prefills _ decodes _ => exact decodes.pendingRestores.trans (prefilled _ prefills)
  | noRunnable prefills _ decodes _ => exact decodes.pendingRestores.trans (prefilled _ prefills)

/-- Without a remote restore service `schedule()` starts no restore. -/
theorem SchedulesAll.pendingRestores (schedules : SchedulesAll cfg ids kv env s s' outcome)
    (closed : env.service = .absent cfg) : s'.pendingRestores = s.pendingRestores := by
  cases schedules with
  | once schedules _ => exact schedules.pendingRestores closed
  | again first schedules _ =>
    exact (schedules.pendingRestores closed).trans (first.pendingRestores closed)

end Scheduler

/-! ## Postprocessing -/

/-- The number of tokens a request may still get. -/
def Sequence.unproduced (seq : Sequence) : ℕ :=
  if seq.isTerminal then 0 else seq.maxTokens - seq.numCompletionTokens

namespace Scheduler

variable {cfg : Config} {ids : Finset SeqId} {s s' : Scheduler} {i : SeqId} {tokenId : Token}
  {events : List (SeqId × Token)}

/-- The number of tokens the requests may still get. -/
def unproduced (ids : Finset SeqId) (s : Scheduler) : ℕ := ∑ i ∈ ids, (s.seqs i).unproduced

/-- The work of the rounds: first tokens to be produced, then the work of a schedule call. -/
def work (cfg : Config) (ids : Finset SeqId) (s : Scheduler) : ℕ × ℕ × ℕ × ℕ :=
  (s.unproduced ids, s.scheduleWork cfg)

/-- Less work of the rounds. -/
abbrev Approaches : ℕ × ℕ × ℕ × ℕ → ℕ × ℕ × ℕ × ℕ → Prop :=
  Prod.Lex (fun m n => m < n) (Prod.Lex (fun m n => m < n) LessWork)

theorem approaches_wellFounded : WellFounded Approaches := by
  apply WellFounded.prod_lex wellFounded_lt
  apply WellFounded.prod_lex wellFounded_lt
  exact WellFounded.prod_lex wellFounded_lt wellFounded_lt

theorem SameRequest.unproduced {seq seq' : Sequence} (same : SameRequest seq seq') :
    seq'.unproduced = seq.unproduced := by
  have terminal : seq'.isTerminal = seq.isTerminal := by
    rw [Bool.eq_iff_iff, ← not_iff_not, Bool.not_eq_true, Bool.not_eq_true,
      Sequence.isTerminal_eq_false, Sequence.isTerminal_eq_false]
    exact same.live
  rw [Sequence.unproduced, Sequence.unproduced, terminal, same.maxTokens,
    Sequence.numCompletionTokens, Sequence.numCompletionTokens, same.numTokens,
    same.numPromptTokens]

theorem Follows.unproduced (follows : Follows s s') : s'.unproduced ids = s.unproduced ids :=
  Finset.sum_congr rfl fun i _ => (follows.request i).unproduced

/-- A request with a complete run gets one of the tokens it may still get. -/
theorem Processed.unproduced {seq seq' : Sequence} (processed : Processed cfg seq tokenId seq')
    (produces : 1 ≤ seq.maxTokens) (wellFormed : seq.WellFormed cfg i) (live : seq.status.Live) :
    seq'.unproduced ≤ seq.unproduced ∧
      (seq.computedTokens = seq.numTokens → seq'.unproduced < seq.unproduced) := by
  cases processed with
  | incomplete short same _ _ _ =>
    exact ⟨same.unproduced.le, fun complete => absurd complete short.ne⟩
  | appended _ tokenIds numPromptTokens maxTokens _ _ _ _ _ =>
    have less : seq'.unproduced < seq.unproduced := by
      have unfinished := wellFormed.budget produces (Sequence.isTerminal_eq_false.mpr live)
      have prompt_le := wellFormed.prompt_le
      have before : seq.unproduced = seq.maxTokens - (seq.numTokens - seq.numPromptTokens) := by
        rw [Sequence.unproduced, Sequence.isTerminal_eq_false.mpr live]
        rfl
      have after : seq'.unproduced ≤ seq.maxTokens - (seq.numTokens + 1 - seq.numPromptTokens) := by
        rw [Sequence.unproduced]
        split
        · exact Nat.zero_le _
        · rw [Sequence.numCompletionTokens, Sequence.numTokens, tokenIds, List.length_append,
            numPromptTokens, maxTokens]
          rfl
      rw [Sequence.numCompletionTokens] at unfinished
      omega
    exact ⟨less.le, fun _ => less⟩

/-- A batch with a complete run decreases the number of tokens to be produced. -/
theorem ProcessesAll.unproduced (processes : ProcessesAll cfg events s s')
    (distinct : (events.map Prod.fst).Nodup)
    (request : ∀ event ∈ events, event.1 ∈ ids ∧ 1 ≤ (s.seqs event.1).maxTokens ∧
      (s.seqs event.1).WellFormed cfg event.1 ∧ (s.seqs event.1).status.Live)
    (complete : ∃ event ∈ events,
      (s.seqs event.1).computedTokens = (s.seqs event.1).numTokens) :
    s'.unproduced ids < s.unproduced ids := by
  rcases processes.each distinct with ⟨others, each⟩
  have processed : ∀ event ∈ events,
      (s'.seqs event.1).unproduced ≤ (s.seqs event.1).unproduced ∧
        ((s.seqs event.1).computedTokens = (s.seqs event.1).numTokens →
          (s'.seqs event.1).unproduced < (s.seqs event.1).unproduced) := by
    intro event mem
    rcases request event mem with ⟨-, produces, wellFormed, live⟩
    exact (each event mem).unproduced produces wellFormed live
  apply Finset.sum_lt_sum
  · intro i _
    by_cases mem : i ∈ events.map Prod.fst
    · rcases List.mem_map.mp mem with ⟨event, mem', rfl⟩
      exact (processed event mem').1
    · rw [others i mem]
  · rcases complete with ⟨event, mem, whole⟩
    exact ⟨event.1, (request event mem).1, (processed event mem).2 whole⟩

/-- A batch of incomplete runs keeps the queues, the tables and the computed tokens. -/
theorem ProcessesAll.incomplete (processes : ProcessesAll cfg events s s')
    (distinct : (events.map Prod.fst).Nodup)
    (short : ∀ event ∈ events,
      (s.seqs event.1).computedTokens < (s.seqs event.1).numTokens) :
    s'.waiting = s.waiting ∧ s'.running = s.running ∧ ∀ i, SameRequest (s.seqs i) (s'.seqs i) ∧
      (s'.seqs i).blockTable = (s.seqs i).blockTable ∧
        (s'.seqs i).computedTokens = (s.seqs i).computedTokens := by
  induction processes with
  | done s => exact ⟨rfl, rfl, fun i => ⟨.refl _, rfl, rfl⟩⟩
  | @next j tokenId rest s s₁ s' processes _ ih =>
    rw [List.map_cons, List.nodup_cons] at distinct
    have first := processes.self
    have lacking := short (j, tokenId) List.mem_cons_self
    cases first with
    | appended complete _ _ _ _ _ _ _ _ => exact absurd complete lacking.ne
    | incomplete _ same status computed table =>
      have later : ∀ event ∈ rest,
          (s₁.seqs event.1).computedTokens < (s₁.seqs event.1).numTokens := by
        intro event mem
        have inRest : event.1 ∈ rest.map Prod.fst := List.mem_map_of_mem mem
        have differ : event.1 ≠ j := by
          intro same
          exact distinct.1 (same ▸ inRest)
        rw [processes.others differ]
        exact short event (List.mem_cons_of_mem _ mem)
      rcases ih distinct.2 later with ⟨waiting, running, requests⟩
      have kept : s₁.running = s.running := by
        rw [processes.running, status, if_neg]
        intro ended
        cases ended
      refine ⟨waiting.trans processes.waiting, running.trans kept, ?_⟩
      intro i
      rcases requests i with ⟨same', table', computed'⟩
      by_cases self : i = j
      · subst self
        exact ⟨same.trans same', table'.trans table, computed'.trans computed⟩
      · rw [processes.others self] at same' table' computed'
        exact ⟨same', table', computed'⟩

/-! ## A round -/

variable {env : ScheduleEnv cfg} {kv : KvStore} {s₁ : Scheduler} {seqs : List SeqId}
  {isPrefill : Bool} {n : ℕ} {elapsedMs : ℚ}

/-- A request of a batch is live, and it may get a token. -/
theorem Valid.scheduled_live {computed : Sequence → ℕ} {held : List SeqId}
    (valid : Valid cfg ids kv computed held seqs s) (mem : i ∈ seqs) :
    i ∈ ids ∧ (s.seqs i).status.Live := by
  rcases valid.scheduled_phase mem with ⟨known, -, ⟨status, -⟩ | ⟨status, -⟩⟩
  · rw [status]
    exact ⟨known, trivial⟩
  · rw [status]
    exact ⟨known, trivial⟩

/-- Scheduling a batch and postprocessing it leaves less work. -/
theorem SchedulesAll.approaches
    (schedules : SchedulesAll cfg ids kv env s s₁ (.batch seqs isPrefill))
    (closed : env.service = .absent cfg) (batched : seqs ≠ [])
    (valid : Valid cfg ids kv Sequence.numCachedTokens [] seqs s₁) (fits : s₁.FitAlone cfg ids)
    (processes : ProcessesAll cfg events (s₁.observeExecution cfg isPrefill n elapsedMs) s')
    (sampled : events.map Prod.fst = seqs) : Approaches (s'.work cfg ids) (s.work cfg ids) := by
  have distinct : (events.map Prod.fst).Nodup := sampled ▸ valid.batch_distinct
  have scheduled : ∀ event ∈ events, event.1 ∈ seqs := by
    intro event mem
    rw [← sampled]
    exact List.mem_map_of_mem mem
  have kept : s₁.unproduced ids = s.unproduced ids := by
    rcases schedules.follows with ⟨stepId, -, follows⟩
    exact follows.unproduced
  by_cases complete : ∃ event ∈ events,
      (s₁.seqs event.1).computedTokens = (s₁.seqs event.1).numTokens
  · have less : s'.unproduced ids < s₁.unproduced ids := by
      apply processes.unproduced distinct _ complete
      intro event mem
      rcases valid.scheduled_live (scheduled event mem) with ⟨known, live⟩
      exact ⟨known, (fits event.1 known live).produces, valid.request event.1 known, live⟩
    rw [kept] at less
    exact Prod.Lex.left _ _ less
  · push Not at complete
    have short : ∀ event ∈ events,
        (s₁.seqs event.1).computedTokens < (s₁.seqs event.1).numTokens := by
      intro event mem
      have computed_le := valid.computedTokens_le (scheduled event mem)
      exact lt_of_le_of_ne computed_le (complete event mem)
    rcases processes.incomplete distinct short with ⟨waiting, running, requests⟩
    have produced : s'.unproduced ids = s.unproduced ids := by
      rw [← kept]
      exact Finset.sum_congr rfl fun i _ => (requests i).1.unproduced
    have same : s'.scheduleWork cfg = s₁.scheduleWork cfg := by
      have prefill : s'.prefillWork cfg = s₁.prefillWork cfg := by
        apply prefillWork_congr waiting
        · intro i _
          exact (requests i).2.1
        · intro i _
          exact (requests i).1.numTokens
        · intro i _
          exact (requests i).2.2
      rw [scheduleWork, scheduleWork, running, prefill]
      rfl
    have less : Prod.Lex (fun m n => m < n) LessWork (s₁.scheduleWork cfg)
        (s.scheduleWork cfg) := by
      apply schedules.works closed batched
      intro i mem
      rw [← sampled] at mem
      rcases List.mem_map.mp mem with ⟨event, mem', rfl⟩
      exact (valid.computed_le (scheduled event mem')).2.1.mpr (short event mem')
    rw [work, work, produced, same]
    exact Prod.Lex.right _ less

end Scheduler

end NanoVllm
