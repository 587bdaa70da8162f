import NanoVllm.Scheduler.Residents

/-!
# The batch of a prefill phase

An iteration of the prefill loop appends at most one request to the batch. A chunk which is not a
whole prompt uses the whole token budget, so it is the only request of its batch. A request stays
as it was when it joined the batch.
-/

namespace NanoVllm

namespace Sequence

/-- Two records of a request which differ at most in `last_budget_ms`. -/
def SameButBudget (seq seq' : Sequence) : Prop :=
  seq' = { seq with lastBudgetMs := seq'.lastBudgetMs }

theorem SameButBudget.refl (seq : Sequence) : seq.SameButBudget seq := rfl

theorem SameButBudget.trans {seq seq' seq'' : Sequence} (first : seq.SameButBudget seq')
    (second : seq'.SameButBudget seq'') : seq.SameButBudget seq'' := by
  rw [SameButBudget] at *
  rw [second, first]

end Sequence

namespace Scheduler

variable {cfg : Config} {env : ScheduleEnv cfg} {now : ℚ} {ids : Finset SeqId} {kv : KvStore}
  {s s' : Scheduler} {i j : SeqId}

/-- A request has no more scheduled tokens than missing ones. -/
theorem Valid.computedTokens_le {computed : Sequence → ℕ} {held batch : List SeqId}
    (valid : Valid cfg ids kv computed held batch s) (mem : i ∈ batch) :
    (s.seqs i).computedTokens ≤ (s.seqs i).numTokens := by
  rcases valid.scheduled_phase mem with ⟨-, scheduled, ⟨-, waiting⟩ | ⟨-, running⟩⟩
  · exact waiting.short.le
  · exact (running.complete scheduled).le

namespace PrefillState

variable {st st' : PrefillState} {control : PrefillControl} {remaining : ℕ}

/-! ## One iteration -/

/-- An iteration leaves the batch alone, or it schedules the missing tokens of a request. -/
inductive Joins (now : ℚ) (st : PrefillState) (i : SeqId) (remaining : ℕ) : PrefillControl → Prop
  | passes {control : PrefillControl}
      (scheduledSeqs : control.state.scheduledSeqs = st.scheduledSeqs)
      (batched : control.state.numBatchedTokens = st.numBatchedTokens) :
      Joins now st i remaining control
  | joins {st₁ : PrefillState} {numTokens : ℕ}
      (scheduledSeqs : st₁.scheduledSeqs = st.scheduledSeqs)
      (batched : st₁.numBatchedTokens = st.numBatchedTokens)
      (missing : numTokens =
        (st₁.scheduler.seqs i).numTokens - (st₁.scheduler.seqs i).numCachedTokens)
      (fits : st.scheduledSeqs = [] ∨ numTokens ≤ remaining) :
      Joins now st i remaining (.again (st₁.schedulePrefill i numTokens remaining now))

theorem not_postponed {numTokens : ℕ} (joins : ¬(remaining < numTokens ∧ st.scheduledSeqs ≠ [])) :
    st.scheduledSeqs = [] ∨ numTokens ≤ remaining := by
  rw [not_and, not_not] at joins
  by_cases fits : numTokens ≤ remaining
  · exact .inr fits
  · exact .inl (joins (not_le.mp fits))

theorem admitResident_joins (result : st.admitResident cfg i remaining now = .ok control) :
    Joins now st i remaining control := by
  rcases Py.exists_of_bind result with ⟨⟨bm, seq, reusedTokens⟩, -, chosen⟩
  dsimp only at chosen
  split at chosen
  · cases chosen
    exact .passes rfl rfl
  · next joins =>
    cases chosen
    exact .joins rfl rfl rfl (not_postponed joins)

/-- `allocate` sets the cached tokens of a request and keeps its tokens. -/
theorem allocate_cached {bm bm' : BlockManager} {seq seq' : Sequence} {n : ℕ}
    (allocated : bm.allocate cfg seq n = .ok (bm', seq')) :
    seq'.numCachedTokens = n * cfg.blockSize ∧ seq'.numTokens = seq.numTokens := by
  simp only [BlockManager.allocate] at allocated
  split at allocated
  · cases allocated
  split at allocated
  · cases allocated
  · rcases Py.exists_of_bind allocated with ⟨bm₁, -, rest⟩
    rcases Py.exists_of_bind rest with ⟨⟨bm₂, table⟩, -, returned⟩
    cases returned
    exact ⟨rfl, rfl⟩

theorem admitFresh_joins (result : st.admitFresh cfg env i remaining now = .ok control) :
    Joins now st i remaining control := by
  unfold PrefillState.admitFresh at result
  dsimp only at result
  split at result
  · cases result
    rcases allocationBlocked_state _ with ⟨-, scheduledSeqs, batched⟩
    exact .passes scheduledSeqs batched
  · next n found =>
    rcases Py.exists_of_bind result with ⟨forbidden, -, rest⟩
    split at rest
    · cases rest
      refine .passes ?_ ?_
      · rw [deferBudget_state]
      · rw [deferBudget_state]
    · rcases Py.exists_of_bind rest with ⟨⟨s, started⟩, -, rest⟩
      dsimp only at rest
      split at rest
      · cases rest
        exact .passes rfl rfl
      · split at rest
        · cases rest
          exact .passes rfl rfl
        · next joins =>
          rcases Py.exists_of_bind rest with ⟨⟨bm, seq⟩, allocated, returned⟩
          cases returned
          rcases allocate_cached allocated with ⟨cached, tokens⟩
          refine .joins rfl rfl ?_ (not_postponed joins)
          simp only [Scheduler.put, Function.update_self]
          change _ = seq.numTokens - seq.numCachedTokens
          rw [cached, tokens]

theorem Joins.of_same (joins : Joins now st' i remaining control)
    (scheduledSeqs : st'.scheduledSeqs = st.scheduledSeqs)
    (batched : st'.numBatchedTokens = st.numBatchedTokens) : Joins now st i remaining control := by
  cases joins with
  | passes scheduledSeqs' batched' =>
    exact .passes (scheduledSeqs'.trans scheduledSeqs) (batched'.trans batched)
  | joins scheduledSeqs' batched' missing fits =>
    rw [scheduledSeqs] at fits
    exact .joins (scheduledSeqs'.trans scheduledSeqs) (batched'.trans batched) missing fits

/-- Without token budget an iteration leaves the loop. -/
theorem iterate_spent (spent : cfg.maxNumBatchedTokens ≤ st.numBatchedTokens)
    (iterated : st.iterate cfg env now = .ok control) :
    control.state = st ∨ ∃ i budget,
      control.state = { st with scheduler := st.scheduler.withBudget i budget } := by
  unfold iterate at iterated
  split at iterated
  · cases iterated
    exact .inl rfl
  dsimp only at iterated
  split at iterated
  · cases iterated
  · next i selected =>
    rw [if_pos (Nat.sub_eq_zero_of_le spent)] at iterated
    cases iterated
    exact .inr ⟨i, _, rfl⟩

theorem iterate_joins (iterated : st.iterate cfg env now = .ok control) :
    ∃ i, Joins now st i (cfg.maxNumBatchedTokens - st.numBatchedTokens) control := by
  unfold iterate at iterated
  split at iterated
  · cases iterated
    exact ⟨0, .passes rfl rfl⟩
  dsimp only at iterated
  split at iterated
  · cases iterated
  next i selected =>
  refine ⟨i, ?_⟩
  split at iterated
  · cases iterated
    exact .passes rfl rfl
  split at iterated
  · exact (admitFresh_joins iterated).of_same rfl rfl
  · rcases Py.exists_of_bind iterated with ⟨⟨s, ready⟩, -, rest⟩
    dsimp only at rest
    split at rest
    · cases rest
      exact .passes rfl rfl
    split at rest
    · exact (admitFresh_joins rest).of_same rfl rfl
    · exact (admitResident_joins rest).of_same rfl rfl

/-! ## Requests which have joined -/

/-- The requests of a batch stay in it as they are. -/
def Keeps (st st' : PrefillState) : Prop :=
  ∀ i ∈ st.scheduledSeqs, i ∈ st'.scheduledSeqs ∧
    (st.scheduler.seqs i).SameButBudget (st'.scheduler.seqs i)

theorem Keeps.refl (st : PrefillState) : st.Keeps st := fun _ mem => ⟨mem, .refl _⟩

theorem Keeps.trans {st'' : PrefillState} (first : st.Keeps st') (second : st'.Keeps st'') :
    st.Keeps st'' := by
  intro i mem
  rcases first i mem with ⟨mem', same⟩
  rcases second i mem' with ⟨mem'', same'⟩
  exact ⟨mem'', same.trans same'⟩

/-- An iteration changes waiting requests only. -/
theorem Iterates.others (iterates : Iterates cfg env now st control)
    (absent : j ∉ st.scheduler.waiting) :
    control.state.scheduler.seqs j = st.scheduler.seqs j := by
  have differ : ∀ i, Selects cfg now st i → j ≠ i := by
    rintro i selects rfl
    exact absent selects.mem.1
  cases iterates with
  | ineligible _ => rfl
  | @exhausted i budget selects _ => exact Function.update_of_ne (differ i selects) _ _
  | @stuck i budget s' selects _ _ _ reclaims _ =>
    rcases reclaims.seqs j with same | ⟨waits, -⟩
    · exact same.trans (Function.update_of_ne (differ i selects) _ _)
    · exact absurd waits absent
  | @admits i s' _ selects _ prepares admits =>
    rcases prepares.others j (differ i selects) with same | ⟨waits, -⟩
    · exact (admits.others (differ i selects)).trans same
    · exact absurd waits absent

/-- While budget remains, the requests of the batch run, so an iteration cannot reclaim them. -/
theorem Iterates.kept (iterates : Iterates cfg env now st control) (valid : st.Valid cfg ids kv)
    (budget : st.numBatchedTokens < cfg.maxNumBatchedTokens) (mem : j ∈ st.scheduledSeqs) :
    control.state.scheduler.seqs j = st.scheduler.seqs j := by
  apply iterates.others
  intro waits
  exact valid.notScheduled budget waits mem

theorem Valid.keeps (valid : st.Valid cfg ids kv) (continues : st.Continues cfg)
    (iterated : st.iterate cfg env now = .ok control) : st.Keeps control.state := by
  by_cases budget : st.numBatchedTokens < cfg.maxNumBatchedTokens
  · rcases Py.of_ok iterated (valid.iterate env now continues.1) with ⟨iterates, -⟩
    intro j mem
    rw [iterates.kept valid budget mem]
    refine ⟨?_, .refl _⟩
    rcases iterate_joins iterated with ⟨i, joins⟩
    cases joins with
    | passes scheduledSeqs batched =>
      rw [scheduledSeqs]
      exact mem
    | joins scheduledSeqs batched missing fits =>
      apply List.mem_append_left
      rw [scheduledSeqs]
      exact mem
  · rcases iterate_spent (not_lt.mp budget) iterated with same | ⟨i, marked, same⟩
    · rw [same]
      exact .refl st
    · rw [same]
      intro j mem
      refine ⟨mem, ?_⟩
      by_cases self : j = i
      · subst self
        rw [Sequence.SameButBudget]
        simp only [Scheduler.withBudget, Scheduler.setSeq, Function.update_self]
      · rw [show (st.scheduler.withBudget i marked).seqs j = st.scheduler.seqs j from
          Function.update_of_ne self _ _]
        exact .refl _

theorem loop_keeps {fuel : ℕ} (valid : st.Valid cfg ids kv)
    (looped : loop cfg env now fuel st = .ok st') : st.Keeps st' := by
  induction fuel generalizing st with
  | zero => cases looped
  | succ fuel ih =>
    rw [loop] at looped
    split at looped
    · cases looped
      exact .refl _
    next continues =>
    rw [not_or, not_le] at continues
    rcases valid.iterate env now continues.1 with ⟨control, iterated, -, sound⟩
    have keeps := valid.keeps continues iterated
    rw [iterated, Py.ok_bind] at looped
    cases control with
    | again st₁ => exact keeps.trans (ih sound.valid looped)
    | leave st₁ =>
      cases looped
      exact keeps

/-! ## The shape of the batch -/

/-- The batch which a prefill phase collects. -/
structure Shaped (cfg : Config) (st : PrefillState) : Prop where
  total : st.numBatchedTokens =
    (st.scheduledSeqs.map fun i => (st.scheduler.seqs i).numScheduledTokens).sum
  bound : st.numBatchedTokens ≤ cfg.maxNumBatchedTokens
  length : st.scheduledSeqs.length ≤ cfg.maxNumSeqs
  single : ∀ i ∈ st.scheduledSeqs,
    (st.scheduler.seqs i).status = .running ∨ st.scheduledSeqs = [i]

theorem start_shaped (cfg : Config) (s : Scheduler) : (start s).Shaped cfg where
  total := rfl
  bound := Nat.zero_le _
  length := Nat.zero_le _
  single := nofun

/-- The batch stays while its requests keep their tokens and their status. -/
theorem Shaped.of_same (shaped : st.Shaped cfg)
    (scheduledSeqs : st'.scheduledSeqs = st.scheduledSeqs)
    (batched : st'.numBatchedTokens = st.numBatchedTokens)
    (same : ∀ i ∈ st.scheduledSeqs,
      (st'.scheduler.seqs i).numScheduledTokens = (st.scheduler.seqs i).numScheduledTokens ∧
        (st'.scheduler.seqs i).status = (st.scheduler.seqs i).status) : st'.Shaped cfg where
  total := by
    rw [batched, scheduledSeqs, shaped.total]
    congr 1
    exact (List.map_congr_left fun i mem => (same i mem).1).symm
  bound := batched.trans_le shaped.bound
  length := scheduledSeqs ▸ shaped.length
  single := by
    intro i mem
    rw [scheduledSeqs] at mem ⊢
    rw [(same i mem).2]
    exact shaped.single i mem

/-- The request for which `schedulePrefill` schedules tokens. -/
theorem schedulePrefill_self (st : PrefillState) (i : SeqId) (numTokens remaining : ℕ) (now : ℚ) :
    let seq := (st.schedulePrefill i numTokens remaining now).scheduler.seqs i
    seq.numScheduledTokens = min numTokens remaining ∧
      seq.numTokens = (st.scheduler.seqs i).numTokens ∧
      seq.numCachedTokens = (st.scheduler.seqs i).numCachedTokens := by
  unfold PrefillState.schedulePrefill
  dsimp only
  split
  · simp only [Scheduler.setSeq, Function.update_self, true_and]
    exact ⟨rfl, rfl⟩
  · simp only [Scheduler.setSeq, Function.update_self, true_and]
    exact ⟨rfl, rfl⟩

/-- A request whose last missing tokens are scheduled starts to run. -/
theorem schedulePrefill_running {numTokens : ℕ} (complete :
    (st.scheduler.seqs i).numCachedTokens + min numTokens remaining =
      (st.scheduler.seqs i).numTokens) (now : ℚ) :
    ((st.schedulePrefill i numTokens remaining now).scheduler.seqs i).status = .running := by
  unfold PrefillState.schedulePrefill
  dsimp only
  split
  · simp only [Scheduler.setSeq, Function.update_self]
  · next incomplete => exact absurd complete incomplete

/-- One more request joins the batch: it runs, or it is alone. -/
theorem Shaped.append (shaped : st.Shaped cfg)
    (members : st'.scheduledSeqs = st.scheduledSeqs ++ [i])
    (kept : ∀ j ∈ st.scheduledSeqs, st'.scheduler.seqs j = st.scheduler.seqs j)
    (total : st'.numBatchedTokens =
      st.numBatchedTokens + (st'.scheduler.seqs i).numScheduledTokens)
    (bound : st'.numBatchedTokens ≤ cfg.maxNumBatchedTokens)
    (short : st.scheduledSeqs.length < cfg.maxNumSeqs)
    (running : ∀ j ∈ st.scheduledSeqs, (st.scheduler.seqs j).status = .running)
    (single : (st'.scheduler.seqs i).status = .running ∨ st.scheduledSeqs = []) :
    st'.Shaped cfg where
  total := by
    rw [total, members, List.map_append, List.sum_append, shaped.total, List.map_singleton,
      List.sum_singleton]
    congr 2
    exact List.map_congr_left fun j mem => by rw [kept j mem]
  bound := bound
  length := by
    rw [members, List.length_append, List.length_singleton]
    exact short
  single := by
    intro j mem
    rw [members] at mem ⊢
    rcases List.mem_append.mp mem with old | new
    · left
      rw [kept j old]
      exact running j old
    · rw [List.mem_singleton.mp new]
      rcases single with runs | empty
      · exact .inl runs
      · right
        rw [empty, List.nil_append]

/-- An iteration keeps the shape of the batch. -/
theorem Shaped.iterate (shaped : st.Shaped cfg) (valid : st.Valid cfg ids kv)
    (continues : st.Continues cfg) (iterated : st.iterate cfg env now = .ok control) :
    control.state.Shaped cfg := by
  rcases Py.of_ok iterated (valid.iterate env now continues.1) with ⟨iterates, sound⟩
  by_cases spent : cfg.maxNumBatchedTokens ≤ st.numBatchedTokens
  · rcases iterate_spent spent iterated with same | ⟨i, marked, same⟩
    · rw [same]
      exact shaped
    · rw [same]
      refine shaped.of_same ?_ ?_ ?_
      · rfl
      · rfl
      intro j _
      by_cases self : j = i
      · subst self
        simp only [Scheduler.withBudget, Scheduler.setSeq, Function.update_self, and_self]
      · simp only [Scheduler.withBudget, Scheduler.setSeq, Function.update_of_ne self, and_self]
  have budget := Nat.lt_of_not_le spent
  have kept : ∀ j ∈ st.scheduledSeqs, control.state.scheduler.seqs j = st.scheduler.seqs j :=
    fun j mem => iterates.kept valid budget mem
  rcases iterate_joins iterated with ⟨i, joins⟩
  cases joins with
  | passes scheduledSeqs batched =>
    apply shaped.of_same scheduledSeqs batched
    intro j mem
    rw [kept j mem]
    exact ⟨rfl, rfl⟩
  | @joins st₁ numTokens scheduledSeqs batched missing fits =>
    set remaining := cfg.maxNumBatchedTokens - st.numBatchedTokens with remaining_def
    rcases schedulePrefill_self st₁ i numTokens remaining now with ⟨count, tokens, cached⟩
    have members : (st₁.schedulePrefill i numTokens remaining now).scheduledSeqs =
        st.scheduledSeqs ++ [i] := congrArg (· ++ [i]) scheduledSeqs
    have total : (st₁.schedulePrefill i numTokens remaining now).numBatchedTokens =
        st.numBatchedTokens + min numTokens remaining :=
      congrArg (· + min numTokens remaining) batched
    refine shaped.append members kept ?_ ?_ continues.2 ?_ ?_
    · exact total.trans (congrArg (st.numBatchedTokens + ·) count.symm)
    · apply total.trans_le
      omega
    · exact valid.progress.resolve_left spent
    · -- a request which keeps missing tokens does not fit, so the batch is still empty
      by_cases complete : (st₁.scheduler.seqs i).numCachedTokens + min numTokens remaining =
          (st₁.scheduler.seqs i).numTokens
      · exact .inl (schedulePrefill_running complete now)
      · right
        apply fits.resolve_right
        intro enough
        have joined : i ∈ (st₁.schedulePrefill i numTokens remaining now).scheduledSeqs := by
          rw [members]
          exact List.mem_append_right _ (List.mem_singleton_self i)
        have within := sound.valid.scheduler.computedTokens_le joined
        simp only [Sequence.computedTokens, PrefillControl.state, cached, count, tokens] at within
        omega

theorem loop_shaped {fuel : ℕ} (shaped : st.Shaped cfg) (valid : st.Valid cfg ids kv)
    (looped : loop cfg env now fuel st = .ok st') : st'.Shaped cfg := by
  induction fuel generalizing st with
  | zero => cases looped
  | succ fuel ih =>
    rw [loop] at looped
    split at looped
    · cases looped
      exact shaped
    next continues =>
    rw [not_or, not_le] at continues
    rcases valid.iterate env now continues.1 with ⟨control, iterated, -, sound⟩
    have shaped' := shaped.iterate valid continues iterated
    rw [iterated, Py.ok_bind] at looped
    cases control with
    | again st₁ => exact ih shaped' sound.valid looped
    | leave st₁ =>
      cases looped
      exact shaped'

end PrefillState

end Scheduler

end NanoVllm
