import NanoVllm.Engine.Capacity

/-!
# Forced reclaim of waiting prefixes

`_ensure_resume_capacity` empties waiting requests until the selected one can resume. It does
not know beforehand whether that will suffice. The victims are taken in a fixed order: the other
owners from the least urgent one on, and the request itself after all of them.
-/

namespace NanoVllm

open BlockManager

namespace Scheduler

variable {cfg : Config} {ids : Finset SeqId} {kv : KvStore} {now : ℚ} {s s' s₁ s₂ s₃ : Scheduler}
  {i j v : SeqId} {held batch victims : List SeqId}

/-- The other waiting requests with pages. -/
def competitors (s : Scheduler) (i : SeqId) : List SeqId :=
  s.waiting.filter fun item => item ≠ i && s.ownsBlocks item

/-- The order of the victims, the least urgent one first. -/
def forcedOrder (cfg : Config) (s : Scheduler) (i : SeqId) (now : ℚ) : List SeqId :=
  (s.competitors i).insertionSort (fun left right =>
    reclaimOrder cfg s.estimator s.seqs s.stepId now right ≤
      reclaimOrder cfg s.estimator s.seqs s.stepId now left) ++ [i]

/-- The answer of `can_resume`. -/
def CanResume (cfg : Config) (s : Scheduler) (i : SeqId) (answer : Bool) : Prop :=
  ∃ bm', s.blockManager.canResume cfg (s.seqs i) = .ok (bm', answer)

/-- The rounds of the loop of `_ensure_resume_capacity`, with their victims. -/
inductive Forces (cfg : Config) (i : SeqId) (now : ℚ) :
    Scheduler → List SeqId → Scheduler → Prop
  | done (s : Scheduler) : Forces cfg i now s [] s
  | round {s s₁ s₂ s' : Scheduler} {v : SeqId} {victims : List SeqId}
      (owns : (s.seqs i).blockTable ≠ []) (lacking : s.canResume cfg i = .ok (s₁, false))
      (chosen : s₁.reclaimVictim cfg i now = some v ∨
        (s₁.reclaimVictim cfg i now = none ∧ s₁.running = [] ∧ v = i))
      (reclaimed : s₁.reclaimFully cfg v = .ok s₂) (rest : Forces cfg i now s₂ victims s') :
      Forces cfg i now s (v :: victims) s'

/-- The victims have lost their pages, and the records of all other requests stay. -/
structure OnlyReclaims (cfg : Config) (s : Scheduler) (victims : List SeqId) (s' : Scheduler) :
    Prop where
  kept : ∀ j, j ∉ victims → s'.seqs j = s.seqs j
  reclaimed : ∀ j ∈ victims, ∃ freed invalidated,
    s'.seqs j = (s.seqs j).reclaimed cfg 0 freed invalidated
  waiting : s'.waiting = s.waiting
  running : s'.running = s.running
  pendingRestores : s'.pendingRestores = s.pendingRestores

/-- What the loop needs of the waiting requests. -/
structure ForcedValid (cfg : Config) (ids : Finset SeqId) (kv : KvStore) (s : Scheduler) :
    Prop where
  memory : MemoryValid cfg ids s.seqs s.blockManager kv Sequence.numCachedTokens
  distinct : s.waiting.Nodup
  known : ∀ j ∈ s.waiting, j ∈ ids
  uncompressed : ∀ j ∈ s.waiting, (s.seqs j).kvCompressed = false
  owned : ∀ j ∈ s.waiting, (s.seqs j).blockTable.length ≤ (s.seqs j).numBlocks cfg

theorem Valid.forcedValid (valid : Valid cfg ids kv Sequence.numCachedTokens held batch s) :
    ForcedValid cfg ids kv s where
  memory := valid.memory
  distinct := valid.distinct .waiting
  known _ mem := (valid.waiting mem).1
  uncompressed _ mem := (valid.waiting mem).2.2.uncompressed
  owned _ mem := (valid.waiting mem).2.2.owned

/-! ## One round -/

theorem reclaimOrder_injective :
    Function.Injective (reclaimOrder cfg s.estimator s.seqs s.stepId now) := by
  intro left right same
  exact congrArg (fun key => (ofLex (ofLex key).2).2) same

theorem mem_competitors : j ∈ s.competitors i ↔
    j ∈ s.waiting ∧ j ≠ i ∧ (s.seqs j).blockTable ≠ [] := by
  simp [competitors, ownsBlocks]

/-- A list of the other owners in the order of reclaim is their part of `forcedOrder`. -/
theorem forcedOrder_eq {order : List SeqId} (perm : order.Perm (s.competitors i))
    (sorted : order.Pairwise fun left right =>
      reclaimOrder cfg s.estimator s.seqs s.stepId now right ≤
        reclaimOrder cfg s.estimator s.seqs s.stepId now left) :
    s.forcedOrder cfg i now = order ++ [i] := by
  rw [forcedOrder]
  congr 1
  refine List.Perm.eq_of_pairwise ?_ (List.pairwise_insertionSort _ _) sorted
    ((List.perm_insertionSort _ _).trans perm.symm)
  intro left right _ _ le ge
  exact reclaimOrder_injective (le_antisymm ge le)

namespace ForcedValid

/-- The look of `can_resume` keeps the memory. -/
theorem canResume (valid : ForcedValid cfg ids kv s) (mem : i ∈ s.waiting) :
    ∃ bm' answer, s.blockManager.canResume cfg (s.seqs i) = .ok (bm', answer) ∧
      ForcedValid cfg ids kv { s with blockManager := bm' } ∧
      CanResume cfg { s with blockManager := bm' } i answer := by
  rcases canResume_spec valid.memory.index (valid.owned i mem) with
    ⟨bm', matched, longest, same, -, outcome⟩
  have valid' : ForcedValid cfg ids kv { s with blockManager := bm' } :=
    { valid with memory := valid.memory.sameMemory same }
  have longest' := longest.of_sameMemory same
  rcases canResume_spec valid'.memory.index (valid.owned i mem) with
    ⟨bm'', matched', longest'', same', -, outcome'⟩
  cases longest''.unique longest'
  rcases outcome with ⟨fits, answer, -⟩ | ⟨lacking, answer, -⟩
  · refine ⟨bm', true, answer, valid', bm'', ?_⟩
    rcases outcome' with ⟨-, answer', -⟩ | ⟨lacking', -⟩
    · exact answer'
    · exact absurd (same.resumeFits.mpr fits) lacking'
  · refine ⟨bm', false, answer, valid', bm'', ?_⟩
    rcases outcome' with ⟨fits', -⟩ | ⟨-, answer', -⟩
    · exact absurd (same.resumeFits.mp fits') lacking
    · exact answer'

/-- One waiting request loses its pages. -/
theorem reclaimFully (valid : ForcedValid cfg ids kv s) (mem : v ∈ s.waiting) :
    ∃ bm' freed invalidated, s.reclaimFully cfg v =
        .ok (s.put v bm' ((s.seqs v).reclaimed cfg 0 freed invalidated)) ∧
      ForcedValid cfg ids kv (s.put v bm' ((s.seqs v).reclaimed cfg 0 freed invalidated)) := by
  have admissible := kvReclaimDecision_admissible cfg (s.seqs v) 0
  rcases applyKvReclaim_spec valid.memory (valid.known v mem) (valid.uncompressed v mem)
    admissible with ⟨bm', freed, applied, memory, -⟩
  have none := recomputePlan_keepBlocks cfg (s.seqs v)
  rw [recomputePlan] at none
  rw [none] at applied memory
  refine ⟨bm', freed, _, applied, memory, valid.distinct, valid.known, ?_, ?_⟩
  · intro j mem'
    by_cases self : j = v
    · subst self
      simp only [put, Function.update_self]
      exact valid.uncompressed j mem
    · simp only [put, Function.update_of_ne self]
      exact valid.uncompressed j mem'
  · intro j mem'
    by_cases self : j = v
    · subst self
      simp only [put, Function.update_self]
      exact Nat.zero_le _
    · simp only [put, Function.update_of_ne self]
      exact valid.owned j mem'

end ForcedValid

/-- The victim of a round comes first in the order, and the others keep their places. -/
theorem forcedOrder_reclaimVictim {bm' bm'' : BlockManager} {freed invalidated : ℕ}
    (distinct : s.waiting.Nodup) (victim : s.reclaimVictim cfg i now = some v) :
    s.forcedOrder cfg i now = v :: ({ s with blockManager := bm' }.put v bm''
      ((s.seqs v).reclaimed cfg 0 freed invalidated)).forcedOrder cfg i now := by
  have mem : v ∈ s.competitors i := List.argmax_mem victim
  rcases mem_competitors.mp mem with ⟨waits, differ, owns⟩
  set s' := { s with blockManager := bm' }.put v bm''
    ((s.seqs v).reclaimed cfg 0 freed invalidated) with after
  have others : ∀ j, j ≠ v → s'.seqs j = s.seqs j := fun j other =>
    Function.update_of_ne other _ _
  have gone : (s'.seqs v).blockTable = [] := by
    simp [after, put, Sequence.reclaimed, Sequence.recordKvReclaim, Sequence.withPrefix]
  have remaining : (v :: s'.competitors i).Perm (s.competitors i) := by
    have distinct' : (s.competitors i).Nodup := distinct.filter _
    apply (List.perm_ext_iff_of_nodup ?_ distinct').mpr
    · intro j
      rw [List.mem_cons, mem_competitors, mem_competitors]
      by_cases self : j = v
      · subst self
        exact iff_of_true (.inl rfl) ⟨waits, differ, owns⟩
      · rw [others j self]
        exact or_iff_right self
    · apply List.nodup_cons.mpr
      refine ⟨?_, List.Nodup.filter _ distinct⟩
      intro again
      exact (mem_competitors.mp again).2.2 gone
  have order' := List.pairwise_insertionSort (fun left right =>
    reclaimOrder cfg s'.estimator s'.seqs s'.stepId now right ≤
      reclaimOrder cfg s'.estimator s'.seqs s'.stepId now left) (s'.competitors i)
  have perm' := List.perm_insertionSort (fun left right =>
    reclaimOrder cfg s'.estimator s'.seqs s'.stepId now right ≤
      reclaimOrder cfg s'.estimator s'.seqs s'.stepId now left) (s'.competitors i)
  have notSelf : ∀ j ∈ s'.competitors i, j ≠ v := by
    rintro j mem' rfl
    exact (mem_competitors.mp mem').2.2 gone
  have key : ∀ j, j ≠ v → reclaimOrder cfg s'.estimator s'.seqs s'.stepId now j =
      reclaimOrder cfg s.estimator s.seqs s.stepId now j := by
    intro j other
    simp only [reclaimOrder, others j other]
    rfl
  rw [forcedOrder_eq ((perm'.cons v).trans remaining)]
  · rfl
  · apply List.pairwise_cons.mpr
    constructor
    · intro j mem'
      exact List.le_of_mem_argmax (remaining.mem_iff.mp (.tail v (perm'.mem_iff.mp mem'))) victim
    · refine order'.imp_of_mem ?_
      intro left right memLeft memRight le
      rw [key left (notSelf left (perm'.mem_iff.mp memLeft)),
        key right (notSelf right (perm'.mem_iff.mp memRight))] at le
      exact le

theorem forcedOrder_nodup (distinct : s.waiting.Nodup) : (s.forcedOrder cfg i now).Nodup := by
  have perm := List.perm_insertionSort (fun left right =>
    reclaimOrder cfg s.estimator s.seqs s.stepId now right ≤
      reclaimOrder cfg s.estimator s.seqs s.stepId now left) (s.competitors i)
  apply List.nodup_append.mpr
  refine ⟨perm.nodup_iff.mpr (distinct.filter _), List.nodup_singleton i, ?_⟩
  rintro j mem _ self rfl
  rw [List.mem_singleton] at self
  exact (mem_competitors.mp (perm.mem_iff.mp mem)).2.1 self

theorem forcedOrder_alone (alone : s.competitors i = []) : s.forcedOrder cfg i now = [i] := by
  rw [forcedOrder, alone]
  rfl

theorem length_forcedOrder : (s.forcedOrder cfg i now).length = (s.competitors i).length + 1 := by
  simp [forcedOrder]

theorem competitors_of_reclaimVictim (none : s.reclaimVictim cfg i now = none) :
    s.competitors i = [] :=
  List.argmax_eq_none.mp none

theorem Forces.of_empty (forces : Forces cfg i now s victims s')
    (table : (s.seqs i).blockTable = []) : victims = [] := by
  cases forces with
  | done => rfl
  | round owns => exact absurd table owns

/-- What a run of the loop has done. -/
structure Forced (cfg : Config) (ids : Finset SeqId) (kv : KvStore) (s : Scheduler) (i : SeqId)
    (now : ℚ) (victims : List SeqId) (s' : Scheduler) : Prop where
  valid : ForcedValid cfg ids kv s'
  ordered : victims <+: s.forcedOrder cfg i now
  only : OnlyReclaims cfg s victims s'
  quiet : i ∈ victims → s.running = []

theorem OnlyReclaims.cons {bm' : BlockManager} {freed invalidated : ℕ}
    (later : OnlyReclaims cfg (s.put v bm' ((s.seqs v).reclaimed cfg 0 freed invalidated)) victims
      s') (fresh : v ∉ victims) : OnlyReclaims cfg s (v :: victims) s' where
  kept j absent := by
    rw [List.mem_cons, not_or] at absent
    rw [later.kept j absent.2]
    exact Function.update_of_ne absent.1 _ _
  reclaimed j mem := by
    rcases List.mem_cons.mp mem with rfl | mem'
    · refine ⟨freed, invalidated, ?_⟩
      rw [later.kept j fresh]
      exact Function.update_self _ _ _
    · have differ : j ≠ v := by
        rintro rfl
        exact fresh mem'
      rcases later.reclaimed j mem' with ⟨freed', invalidated', reclaimed⟩
      refine ⟨freed', invalidated', ?_⟩
      rw [reclaimed]
      simp only [put, Function.update_of_ne differ]
  waiting := later.waiting
  running := later.running
  pendingRestores := later.pendingRestores

theorem Forces.forced (forces : Forces cfg i now s victims s') :
    ForcedValid cfg ids kv s → i ∈ s.waiting → Forced cfg ids kv s i now victims s' := by
  induction forces with
  | done s =>
    intro valid _
    exact ⟨valid, List.nil_prefix, ⟨fun _ _ => rfl, nofun, rfl, rfl, rfl⟩, nofun⟩
  | @round s s₁ s₂ s' v victims owns lacking chosen reclaimed rest ih =>
    intro valid mem
    rcases valid.canResume mem with ⟨bm', answer, looked, valid', -⟩
    simp only [Scheduler.canResume, looked, Py.ok_bind, Except.ok.injEq, Prod.mk.injEq] at lacking
    rcases lacking with ⟨rfl, rfl⟩
    have waits : v ∈ s.waiting := by
      rcases chosen with victim | ⟨-, -, rfl⟩
      · exact (mem_owners.mp (reclaimVictim_mem victim).1).1
      · exact mem
    rcases valid'.reclaimFully waits with ⟨bm'', freed, invalidated, reclaimed', valid''⟩
    cases reclaimed.symm.trans reclaimed'
    have forced := ih valid'' mem
    rcases chosen with victim | ⟨none, quiet, rfl⟩
    · have order := @forcedOrder_reclaimVictim cfg now s i v bm' bm'' freed invalidated
        valid.distinct victim
      have distinct := @forcedOrder_nodup cfg now s i valid.distinct
      rw [order, List.nodup_cons] at distinct
      have fresh : v ∉ victims := fun again => distinct.1 (forced.ordered.subset again)
      refine ⟨forced.valid, ?_, ?_, ?_⟩
      · rw [order]
        exact List.prefix_cons_inj v |>.mpr forced.ordered
      · exact OnlyReclaims.cons forced.only fresh
      · intro again
        apply forced.quiet
        exact List.mem_of_ne_of_mem (reclaimVictim_mem victim).2.symm again
    · have empty : victims = [] := by
        apply rest.of_empty
        simp [put, Sequence.reclaimed, Sequence.recordKvReclaim, Sequence.withPrefix]
      subst empty
      refine ⟨forced.valid, ?_, ?_, fun _ => quiet⟩
      · have alone : s.competitors v = [] := competitors_of_reclaimVictim none
        rw [forcedOrder_alone alone]
      · exact OnlyReclaims.cons forced.only List.not_mem_nil

/-- Before its last round the loop has found that the request cannot resume. -/
theorem Forces.lacking {earlier : List SeqId} (forces : Forces cfg i now s victims s')
    (valid : ForcedValid cfg ids kv s) (mem : i ∈ s.waiting) (last : victims = earlier ++ [v]) :
    ∃ before, Forces cfg i now s earlier before ∧ CanResume cfg before i false := by
  induction forces generalizing earlier with
  | done => simp at last
  | @round s s₁ s₂ s' w victims owns lacking chosen reclaimed rest ih =>
    cases earlier with
    | nil =>
      refine ⟨s, .done s, ?_⟩
      rcases valid.canResume mem with ⟨bm', answer, looked, -⟩
      simp only [Scheduler.canResume, looked, Py.ok_bind, Except.ok.injEq, Prod.mk.injEq] at lacking
      exact ⟨bm', lacking.2 ▸ looked⟩
    | cons first earlier =>
      rw [List.cons_append, List.cons.injEq] at last
      rcases last with ⟨rfl, last⟩
      have forced := (Forces.round owns lacking chosen reclaimed (.done s₂)).forced valid mem
      rcases ih forced.valid (forced.only.waiting ▸ mem) last with ⟨before, forces, answer⟩
      exact ⟨before, .round owns lacking chosen reclaimed forces, answer⟩

/-! ## The loop -/

/-- The waiting requests with pages. -/
def pagedOwners (s : Scheduler) (i : SeqId) : ℕ :=
  (s.competitors i).length + if (s.seqs i).blockTable = [] then 0 else 1

/-- How the loop ends. -/
structure Ends (cfg : Config) (s : Scheduler) (i : SeqId) (s' : Scheduler) (ready : Bool) :
    Prop where
  look : ∃ bm', s' = { s with blockManager := bm' }
  answer : CanResume cfg s' i ready
  stuck : ready = false → s.competitors i = [] ∧
    (s.running ≠ [] ∨ (s.seqs i).blockTable = [])

theorem competitors_reclaimed {bm' bm'' : BlockManager} {freed invalidated : ℕ}
    (alone : s.competitors i = []) :
    (Scheduler.put { s with blockManager := bm' } i bm''
      ((s.seqs i).reclaimed cfg 0 freed invalidated)).competitors i = [] := by
  apply List.eq_nil_iff_forall_not_mem.mpr
  intro j mem
  rcases mem_competitors.mp mem with ⟨waits, differ, owns⟩
  simp only [put, Function.update_of_ne differ] at owns
  exact List.eq_nil_iff_forall_not_mem.mp alone j (mem_competitors.mpr ⟨waits, differ, owns⟩)

/-- Each round shrinks the owners. -/
theorem Chosen.measure {bm' bm'' : BlockManager} {freed invalidated : ℕ}
    (distinct : s.waiting.Nodup) (table : (s.seqs i).blockTable ≠ [])
    (chosen : reclaimVictim cfg { s with blockManager := bm' } i now = some v ∨
      (reclaimVictim cfg { s with blockManager := bm' } i now = none ∧ v = i)) :
    (Scheduler.put { s with blockManager := bm' } v bm''
        ((s.seqs v).reclaimed cfg 0 freed invalidated)).pagedOwners i < s.pagedOwners i := by
  simp only [pagedOwners, if_neg table]
  rcases chosen with victim | ⟨none, rfl⟩
  · have order := @forcedOrder_reclaimVictim cfg now s i v bm' bm'' freed invalidated
      distinct victim
    have lengths := congrArg List.length order
    rw [List.length_cons, length_forcedOrder, length_forcedOrder] at lengths
    split <;> omega
  · have alone : s.competitors v = [] := competitors_of_reclaimVictim none
    rw [competitors_reclaimed alone, if_pos]
    · simp
    · simp [put, Sequence.reclaimed, Sequence.recordKvReclaim, Sequence.withPrefix]

theorem resumeCapacityLoop_forces (now : ℚ) (fuel : ℕ) :
    ∀ s : Scheduler, ForcedValid cfg ids kv s → i ∈ s.waiting →
      ((s.seqs i).blockTable = [] → s.competitors i = []) →
      s.pagedOwners i < fuel →
      ∃ victims s₁ s' ready, resumeCapacityLoop cfg i now fuel s = .ok (s', ready) ∧
        Forces cfg i now s victims s₁ ∧ Ends cfg s₁ i s' ready := by
  induction fuel with
  | zero =>
    intro s _ _ _ enough
    exact absurd enough (Nat.not_lt_zero _)
  | succ fuel ih =>
    intro s valid mem alone enough
    rcases valid.canResume mem with ⟨bm', answer, looked, valid', sure⟩
    have checked : s.canResume cfg i = .ok ({ s with blockManager := bm' }, answer) := by
      rw [Scheduler.canResume, looked]
      rfl
    rw [resumeCapacityLoop]
    by_cases table : (s.seqs i).blockTable = []
    · rw [if_pos table]
      exact ⟨[], s, _, answer, checked, .done s, ⟨bm', rfl⟩, sure, fun _ => ⟨alone table, .inr table⟩⟩
    rw [if_neg table, checked, Py.ok_bind]
    cases answer with
    | true =>
      rcases valid'.canResume mem with ⟨bm'', answer', looked', -, sure'⟩
      rcases sure with ⟨_, sure⟩
      cases sure.symm.trans looked'
      refine ⟨[], s, _, true, ?_, .done s, ⟨_, rfl⟩, sure', by simp⟩
      simp only [if_true]
      rw [Scheduler.canResume, looked']
      rfl
    | false =>
      -- The round of one victim, and the rounds after it.
      have round : ∀ victim, victim ∈ s.waiting →
          (reclaimVictim cfg { s with blockManager := bm' } i now = some victim ∨
            (reclaimVictim cfg { s with blockManager := bm' } i now = none ∧
              s.running = [] ∧ victim = i)) →
          ∃ victims s₁ s' ready, (do
            let s ← reclaimFully cfg { s with blockManager := bm' } victim
            resumeCapacityLoop cfg i now fuel s) = .ok (s', ready) ∧
          Forces cfg i now s victims s₁ ∧ Ends cfg s₁ i s' ready := by
        intro victim waits chosen
        rcases valid'.reclaimFully waits with ⟨bm'', freed, invalidated, reclaimed, valid''⟩
        have next : ((Scheduler.put { s with blockManager := bm' } victim bm''
              ((s.seqs victim).reclaimed cfg 0 freed invalidated)).seqs i).blockTable = [] →
            (Scheduler.put { s with blockManager := bm' } victim bm''
              ((s.seqs victim).reclaimed cfg 0 freed invalidated)).competitors i = [] := by
          intro empty
          rcases chosen with chosen | ⟨none, -, rfl⟩
          · have differ := (reclaimVictim_mem chosen).2
            simp only [put, Function.update_of_ne differ.symm] at empty
            exact absurd empty table
          · exact competitors_reclaimed (competitors_of_reclaimVictim none)
        have fewer := @Chosen.measure cfg now s i victim bm' bm'' freed invalidated
          valid.distinct table (chosen.imp_right fun last => ⟨last.1, last.2.2⟩)
        rcases ih _ valid'' mem next (fewer.trans_le (Nat.le_of_lt_succ enough)) with ⟨victims, s₁, s', ready, looped, forces, ends⟩
        refine ⟨victim :: victims, s₁, s', ready, ?_, ?_, ends⟩
        · rw [reclaimed, Py.ok_bind]
          exact looped
        · exact .round table checked chosen reclaimed forces
      simp only [Bool.false_eq_true, if_false]
      split
      · next victim chosen =>
        exact round victim (mem_owners.mp (reclaimVictim_mem chosen).1).1 (.inl chosen)
      · next none_left =>
        split
        · next busy =>
          refine ⟨[], s, _, false, rfl, .done s, ⟨bm', rfl⟩, sure, fun _ => ?_⟩
          exact ⟨competitors_of_reclaimVictim none_left, .inl busy⟩
        · next quiet =>
          exact round i mem (.inr ⟨none_left, not_not.mp quiet, rfl⟩)

/-- The outcome of `_ensure_resume_capacity`, with the requests which lost their pages. -/
structure ForcedReclaim (cfg : Config) (s : Scheduler) (i : SeqId) (now : ℚ)
    (victims : List SeqId) (s' : Scheduler) (ready : Bool) : Prop where
  ordered : victims <+: s.forcedOrder cfg i now
  only : OnlyReclaims cfg s victims s'
  answer : CanResume cfg s' i ready
  needed : ∀ earlier v, victims = earlier ++ [v] →
    ∃ before, Forces cfg i now s earlier before ∧ CanResume cfg before i false
  quiet : i ∈ victims → s.running = []
  futile : ready = false → s.competitors i ⊆ victims ∧ (s.running = [] → i ∈ victims)

theorem Valid.forcedReclaim (valid : Valid cfg ids kv Sequence.numCachedTokens held batch s)
    (mem : i ∈ s.waiting) (table : (s.seqs i).blockTable ≠ []) (now : ℚ) :
    ∃ victims s' ready, s.ensureResumeCapacity cfg i now = .ok (s', ready) ∧
      ForcedReclaim cfg s i now victims s' ready := by
  have enough : s.pagedOwners i < s.waiting.length + 2 := by
    have fewer : (s.competitors i).length ≤ s.waiting.length := List.length_filter_le _ _
    simp only [pagedOwners, if_neg table]
    omega
  rcases resumeCapacityLoop_forces now _ s valid.forcedValid mem (fun empty => absurd empty table)
    enough with ⟨victims, s₁, s', ready, looped, forces, ⟨bm', rfl⟩, answer, stuck⟩
  have forced := forces.forced valid.forcedValid mem
  refine ⟨victims, _, ready, looped, ?_⟩
  constructor
  · exact forced.ordered
  · exact ⟨forced.only.kept, forced.only.reclaimed, forced.only.waiting, forced.only.running,
      forced.only.pendingRestores⟩
  · exact answer
  · intro earlier v last
    exact forces.lacking valid.forcedValid mem last
  · exact forced.quiet
  · intro notReady
    rcases stuck notReady with ⟨alone, ended⟩
    constructor
    · intro j competitor
      by_contra absent
      have kept := forced.only.kept j absent
      rw [mem_competitors, ← kept, ← forced.only.waiting, ← mem_competitors, alone] at competitor
      exact List.not_mem_nil competitor
    · intro quiet
      by_contra absent
      rw [forced.only.running, forced.only.kept i absent] at ended
      exact ended.elim (fun busy => busy quiet) table

end Scheduler

namespace System

variable {cfg : Config} {Allowed : System → Op cfg → Prop} {sys : System} {s : Scheduler}
  {i : SeqId}

/-- Forced reclaim takes the least urgent owners first, and only as long as `i` cannot resume. -/
theorem ensureResumeCapacity_forces (reachable : ReachableBy cfg Allowed sys)
    (passes : Passes cfg sys s) (mem : i ∈ s.waiting) (table : (s.seqs i).blockTable ≠ [])
    (now : ℚ) :
    ∃ victims s' ready, s.ensureResumeCapacity cfg i now = .ok (s', ready) ∧
      Scheduler.ForcedReclaim cfg s i now victims s' ready := by
  rcases passes.valid reachable.valid with ⟨held, batch, valid⟩
  exact valid.forcedReclaim mem table now

/-- Preemption keeps half of the cached pages, whatever else is free. -/
def halfKeptNinePages : Config :=
  { defaultConfig 2 9 4 two_le_two with
    kvReclaimMinKeepRatio := 1 / 2
    kvReclaimTargetFreeBlocks := 0
    keepRatios := by norm_num [defaultConfig] }

/-- A prompt of one repeated token, a different one for each request. -/
def repeatedPrompt (i : SeqId) (length : ℕ) : Request :=
  { plainRequest i length 8 with prompt := List.replicate length (i : ℤ) }

/-- Two running requests, and two preempted ones with one page each. -/
def preemptedPairRun : System := (init halfKeptNinePages).runOps halfKeptNinePages
  [.add (repeatedPrompt 0 3) 0, .add (repeatedPrompt 1 3) 0, .add (repeatedPrompt 2 5) 0,
    .add (repeatedPrompt 3 3) 0,
    .schedule (idleEnv _), .postprocess [5, 5, 5, 5] 1 1,
    .schedule (idleEnv _), .postprocess [5, 5, 5, 5] 1 1,
    .schedule (idleEnv _), .postprocess [5, 5] 1 1]

theorem ensureResumeCapacity_forces_preemptedPair :
    ∃ victims s' ready,
      preemptedPairRun.scheduler.ensureResumeCapacity halfKeptNinePages 2 0 = .ok (s', ready) ∧
      Scheduler.ForcedReclaim halfKeptNinePages preemptedPairRun.scheduler 2 0 victims s'
        ready := by
  have reachable : Reachable halfKeptNinePages preemptedPairRun :=
    ReachableBy.runOps .init (by decide +kernel)
  exact ensureResumeCapacity_forces reachable .between (by decide +kernel) (by decide +kernel) 0

/-- A request which cannot resume has still cost another one its prefix. -/
theorem ensureResumeCapacity_futile_preemptedPair :
    Reachable halfKeptNinePages preemptedPairRun ∧ 2 ∈ preemptedPairRun.scheduler.waiting ∧
      (preemptedPairRun.scheduler.seqs 2).blockTable ≠ [] ∧
      (preemptedPairRun.scheduler.seqs 3).blockTable ≠ [] ∧
      ∃ s', preemptedPairRun.scheduler.ensureResumeCapacity halfKeptNinePages 2 0 =
          .ok (s', false) ∧ (s'.seqs 3).blockTable = [] := by
  refine ⟨ReachableBy.runOps .init (by decide +kernel), by decide +kernel, by decide +kernel,
    by decide +kernel, ?_⟩
  have mapped : (preemptedPairRun.scheduler.ensureResumeCapacity halfKeptNinePages 2 0).map
      (fun outcome => (outcome.2, (outcome.1.seqs 3).blockTable)) = .ok (false, []) := by
    decide +kernel
  rcases exists_of_map mapped with ⟨⟨s', ready⟩, looped, outcome⟩
  rcases Prod.mk.inj outcome with ⟨rfl, table⟩
  exact ⟨s', looped, table⟩

end System

end NanoVllm
