import NanoVllm.Scheduler.Schedule

/-!
# Resident requests

`_resident_count` adds up three containers. In a valid state it counts the requests which own
pages, so a step can only raise it by giving pages to a request without any.
-/

namespace NanoVllm

namespace Scheduler

variable {cfg : Config} {env : ScheduleEnv cfg} {now : ℚ} {ids : Finset SeqId} {kv : KvStore}
  {computed : Sequence → ℕ} {held batch sched sched' : List SeqId} {s s' : Scheduler} {i j : SeqId}

/-- The known requests which own pages. -/
def residents (ids : Finset SeqId) (s : Scheduler) : Finset SeqId :=
  ids.filter fun i => (s.seqs i).blockTable ≠ []

@[simp] theorem mem_residents :
    i ∈ s.residents ids ↔ i ∈ ids ∧ (s.seqs i).blockTable ≠ [] := by
  simp [residents]

/-- The requests in the containers of `_resident_count`, and those outside of all queues. -/
def residentList (held : List SeqId) (s : Scheduler) : List SeqId :=
  s.running ++ held ++ s.pendingRestores.map PendingRestoreState.sequence ++
    s.waiting.filter s.ownsBlocks

theorem length_residentList (held : List SeqId) (s : Scheduler) :
    (s.residentList held).length = s.residentCount + held.length := by
  simp only [residentList, residentCount, List.length_append, List.length_map,
    List.countP_eq_length_filter]
  omega

theorem Valid.residentList_nodup (valid : Valid cfg ids kv computed held batch s) :
    (s.residentList held).Nodup := by
  rw [residentList, List.nodup_append, List.nodup_append]
  refine ⟨⟨valid.distinct .running, valid.distinct .waitingForKv, ?_⟩,
    (valid.distinct .waiting).filter _, ?_⟩
  · rintro i running j pending rfl
    have restores := (valid.mem_pending.mp pending).2
    rw [(valid.running running).2.1] at restores
    cases restores
  · rintro i active j waits rfl
    have status := (valid.waiting (List.mem_filter.mp waits).1).2.1
    rcases List.mem_append.mp active with running | pending
    · rw [(valid.running running).2.1] at status
      cases status
    · rw [(valid.mem_pending.mp pending).2] at status
      cases status

theorem Valid.mem_residentList (valid : Valid cfg ids kv computed held batch s) :
    i ∈ s.residentList held ↔ i ∈ s.residents ids := by
  rw [mem_residents, residentList, List.mem_append, List.mem_append, List.mem_filter]
  constructor
  · rintro ((running | pending) | ⟨waits, owns⟩)
    · exact ⟨(valid.running running).1, valid.owns_of_running running⟩
    · rcases List.mem_map.mp pending with ⟨state, mem, rfl⟩
      exact ⟨(valid.restoring mem).1, valid.owns_of_restoring mem⟩
    · exact ⟨(valid.waiting waits).1, by simpa [ownsBlocks] using owns⟩
  · rintro ⟨known, owns⟩
    have phase := (valid.request i known).phase
    unfold Sequence.Phase at phase
    split at phase
    · next status =>
      exact .inr ⟨valid.mem_waiting.mpr ⟨known, status⟩, by simpa [ownsBlocks] using owns⟩
    · next status => exact .inl (.inr (valid.mem_pending.mpr ⟨known, status⟩))
    · next status => exact .inl (.inl (valid.mem_running.mpr ⟨known, status⟩))
    · exact absurd phase.table owns
    · exact absurd phase.table owns

/-- `_resident_count` counts the requests which own pages and are in a queue. -/
theorem Valid.residentCount_add (valid : Valid cfg ids kv computed held batch s) :
    s.residentCount + held.length = (s.residents ids).card := by
  rw [← length_residentList, ← List.toFinset_card_of_nodup valid.residentList_nodup]
  congr 1
  ext i
  rw [List.mem_toFinset, valid.mem_residentList]

/-- The requests which own pages are at most as many as the configured limit. -/
def Capped (cfg : Config) (ids : Finset SeqId) (s : Scheduler) : Prop :=
  ∀ limit ∈ cfg.maxNumActiveSeqs, (s.residents ids).card ≤ limit

theorem Capped.of_subset (capped : s.Capped cfg ids) (subset : s'.residents ids ⊆ s.residents ids) :
    s'.Capped cfg ids := by
  intro limit configured
  exact (Finset.card_le_card subset).trans (capped limit configured)

/-- One request may get its first pages while there are fewer residents than the limit. -/
theorem Capped.of_insert (capped : s.Capped cfg ids)
    (subset : s'.residents ids ⊆ insert i (s.residents ids))
    (room : i ∈ s.residents ids ∨
      ∀ limit ∈ cfg.maxNumActiveSeqs, (s.residents ids).card < limit) : s'.Capped cfg ids := by
  intro limit configured
  rcases room with resident | room
  · rw [Finset.insert_eq_of_mem resident] at subset
    exact capped.of_subset subset limit configured
  · apply (Finset.card_le_card subset).trans
    exact (Finset.card_insert_le _ _).trans (room limit configured)

theorem residents_subset_insert
    (others : ∀ j, j ≠ i → (s'.seqs j).blockTable ≠ [] → (s.seqs j).blockTable ≠ []) :
    s'.residents ids ⊆ insert i (s.residents ids) := by
  intro j resident
  rcases mem_residents.mp resident with ⟨known, owns⟩
  by_cases same : j = i
  · exact Finset.mem_insert.mpr (.inl same)
  · exact Finset.mem_insert_of_mem (mem_residents.mpr ⟨known, others j same owns⟩)

/-! ## The prefill phase -/

namespace PrefillState

variable {st st' : PrefillState} {control : PrefillControl}

/-- A request without pages is only selected while there are fewer residents than the limit. -/
theorem Selects.room (selects : Selects cfg now st i)
    (fresh : (st.scheduler.seqs i).blockTable = []) :
    ∀ limit ∈ cfg.maxNumActiveSeqs, st.scheduler.residentCount < limit := by
  intro limit configured
  rcases selects with ⟨eligible, found, selected⟩
  have mem := selectNext_mem selected
  rw [eligible_eq] at found
  split at found
  · cases found
  split at found
  · cases found
  split at found
  · split at found
    · rw [← Option.some.inj found] at mem
      have owns := (List.mem_filter.mp mem).2
      simp [ownsBlocks, fresh] at owns
    · cases found
  · next free =>
    rw [not_exists] at free
    exact not_le.mp fun full => free limit ⟨configured, full⟩

/-- The admission of a request leaves the other requests alone. -/
theorem Admits.others (admits : Admits cfg env st i control) (differ : j ≠ i) :
    control.state.scheduler.seqs j = st.scheduler.seqs j := by
  cases admits with
  | blocked same table longest lacking =>
    rw [(allocationBlocked_state _).1]
  | forbidden same table busy => rw [deferBudget_state]
  | restored started =>
    rcases started.seqs with ⟨seq, seqs⟩
    exact (congrFun seqs j).trans (Function.update_of_ne differ _ _)
  | postponed batched seqs _ =>
    rcases seqs with ⟨seq, seqs⟩
    exact (congrFun seqs j).trans (Function.update_of_ne differ _ _)
  | scheduled schedules =>
    rcases schedules.seqs with ⟨seq, seqs⟩
    exact (congrFun seqs j).trans (Function.update_of_ne differ _ _)

/-- An iteration gives pages to the selected request only. -/
theorem Iterates.residents_subset (iterates : Iterates cfg env now st control) :
    control.state.scheduler.residents ids ⊆ st.scheduler.residents ids ∨
      ∃ i, Selects cfg now st i ∧
        control.state.scheduler.residents ids ⊆ insert i (st.scheduler.residents ids) := by
  cases iterates with
  | ineligible _ => exact .inl (Finset.Subset.refl _)
  | @exhausted i budget selects spent =>
    refine .inr ⟨i, selects, residents_subset_insert fun j differ owns => ?_⟩
    have marked : (st.scheduler.withBudget i budget).seqs j = st.scheduler.seqs j :=
      Function.update_of_ne differ _ _
    rw [← marked]
    exact owns
  | @stuck i budget s' selects unspent table retained reclaims lacking =>
    refine .inr ⟨i, selects, residents_subset_insert fun j differ owns => ?_⟩
    have marked : (st.scheduler.withBudget i budget).seqs j = st.scheduler.seqs j :=
      Function.update_of_ne differ _ _
    change (s'.seqs j).blockTable ≠ [] at owns
    rcases reclaims.seqs j with same | ⟨-, owned, -⟩
    · rw [← marked, ← same]
      exact owns
    · rw [← marked]
      exact owned
  | @admits i s' _ selects budget prepares admits =>
    refine .inr ⟨i, selects, residents_subset_insert fun j differ owns => ?_⟩
    rw [admits.others differ] at owns
    rcases prepares.others j differ with same | ⟨-, owned, -⟩
    · rwa [← same]
    · exact owned

theorem Iterates.capped (iterates : Iterates cfg env now st control) (valid : st.Valid cfg ids kv)
    (capped : st.scheduler.Capped cfg ids) : control.state.scheduler.Capped cfg ids := by
  have resident : control.state.scheduler.residents ids ⊆ st.scheduler.residents ids ∨
      ∃ i, Selects cfg now st i ∧ control.state.scheduler.residents ids ⊆
        insert i (st.scheduler.residents ids) := iterates.residents_subset
  rcases resident with subset | ⟨i, selects, subset⟩
  · exact capped.of_subset subset
  · apply capped.of_insert subset
    by_cases fresh : (st.scheduler.seqs i).blockTable = []
    · right
      intro limit configured
      rw [← valid.scheduler.residentCount_add]
      exact selects.room fresh limit configured
    · left
      exact mem_residents.mpr ⟨(valid.scheduler.waiting selects.mem.1).1, fresh⟩

theorem Loops.capped (loops : Loops cfg ids kv env now st st')
    (capped : st.scheduler.Capped cfg ids) : st'.scheduler.Capped cfg ids := by
  induction loops with
  | stop => exact capped
  | leave valid _ iterates _ => exact iterates.capped valid capped
  | again valid _ iterates _ _ ih => exact ih (iterates.capped valid capped)

end PrefillState

theorem Prefills.capped {st : PrefillState} (prefills : Prefills cfg ids kv env now s st)
    (capped : s.Capped cfg ids) : st.scheduler.Capped cfg ids := by
  rcases prefills with ⟨-, loops⟩ | ⟨-, rfl⟩
  · exact loops.capped capped
  · exact capped

/-! ## The decode phase -/

/-- A step which only changes requests which own pages. -/
theorem Capped.of_touched (capped : s.Capped cfg ids)
    (touched : ∀ j ∈ ids, (s.seqs j).blockTable = [] → s'.seqs j = s.seqs j) :
    s'.Capped cfg ids := by
  apply capped.of_subset
  intro j resident
  rcases mem_residents.mp resident with ⟨known, owns⟩
  refine mem_residents.mpr ⟨known, fun empty => ?_⟩
  rw [touched j known empty] at owns
  exact owns empty

/-- Making room for a running request only changes running requests. -/
theorem DecodeValid.untouched (valid : DecodeValid cfg ids kv sched s) (mem : i ∈ s.running)
    {budget : Option ℚ} {s₁ s₂ : Scheduler} {scheduled : Bool}
    (touches : Touches ((s.withBudget i budget).takeOut i) i s₁)
    (evicts : Evicts cfg now i s₁ s₂ scheduled) (empty : (s.seqs j).blockTable = []) :
    j ≠ i ∧ s₂.seqs j = s.seqs j := by
  have notRunning : j ∉ s.running := by
    intro running
    exact valid.scheduler.owns_of_running (List.mem_append_left _ running) empty
  have differ : j ≠ i := by
    rintro rfl
    exact notRunning mem
  exact ⟨differ, touches.scheduled_kept evicts notRunning differ⟩

theorem Decodes.capped {retry retry' : Bool}
    (decodes : Decodes cfg ids kv now s sched retry s' sched' retry') (capped : s.Capped cfg ids) :
    s'.Capped cfg ids := by
  induction decodes with
  | stop => exact capped
  | scheduled valid _ selected touches evicts schedules _ ih =>
    apply ih
    apply capped.of_touched
    intro j _ empty
    rcases valid.untouched (selectNext_mem selected) touches evicts empty with ⟨differ, same⟩
    rcases schedules.seqs with ⟨seq, seqs⟩
    rw [seqs, Function.update_of_ne differ, same]
  | preempted valid _ selected touches evicts _ ih =>
    apply ih
    apply capped.of_touched
    intro j _ empty
    exact (valid.untouched (selectNext_mem selected) touches evicts empty).2

theorem SchedulesOnce.capped {outcome : ScheduleOutcome}
    (schedules : SchedulesOnce cfg ids kv env now s s' outcome) (capped : s.Capped cfg ids) :
    s'.Capped cfg ids := by
  have next : s.nextStep.Capped cfg ids := capped
  cases schedules with
  | prefill prefills _ => exact prefills.capped next
  | decode prefills _ decodes _ => exact decodes.capped (prefills.capped next)
  | waits prefills _ decodes _ => exact decodes.capped (prefills.capped next)
  | retry prefills _ decodes _ => exact decodes.capped (prefills.capped next)
  | noRunnable prefills _ decodes _ => exact decodes.capped (prefills.capped next)

theorem SchedulesAll.capped {outcome : ScheduleOutcome}
    (schedules : SchedulesAll cfg ids kv env s s' outcome) (capped : s.Capped cfg ids) :
    s'.Capped cfg ids := by
  cases schedules with
  | once schedules _ => exact schedules.capped capped
  | again first schedules _ => exact schedules.capped (first.capped capped)

end Scheduler

end NanoVllm
