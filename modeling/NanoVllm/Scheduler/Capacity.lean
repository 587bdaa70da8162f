import NanoVllm.Scheduler.Reclaim

/-!
# The capacity to resume

`_ensure_resume_capacity` checks whether a waiting request with retained pages can resume. While
it cannot, the pages of one more waiting request are reclaimed, and at last its own. Every round
empties a table, so the loop ends.
-/

namespace NanoVllm

open BlockManager

variable {cfg : Config} {ids : Finset SeqId} {kv : KvStore} {held batch : List SeqId}
  {s s' : Scheduler} {i j : SeqId} {seq : Sequence} {bm bm' : BlockManager}
  {matched : List BlockId} {computed : Sequence → ℕ}

namespace BlockManager

theorem SameMemory.countUsed (same : SameMemory cfg bm bm') (blockIds : List BlockId) :
    bm'.countUsed blockIds = bm.countUsed blockIds := by
  simp only [BlockManager.countUsed, same.usedBlockIds]

theorem SameMemory.resumeFits (same : SameMemory cfg bm bm') :
    ResumeFits cfg bm' seq matched ↔ ResumeFits cfg bm seq matched := by
  rw [ResumeFits, ResumeFits, same.freeBlockIds, same.countUsed]

theorem SameMemory.fits (same : SameMemory cfg bm bm') :
    Fits cfg bm' seq matched ↔ Fits cfg bm seq matched := by
  rw [Fits, Fits, same.freeBlockIds, same.countUsed]

end BlockManager

/-- A request with all its pages can resume. -/
theorem ResumeFits.of_full (full : seq.blockTable.length = seq.numBlocks cfg) :
    ResumeFits cfg bm seq matched := by
  rw [ResumeFits, full, Nat.sub_self]
  exact Nat.zero_le _

/-- For a request without pages the two capacity checks agree. -/
theorem Matches.resumeFits_iff (matches' : Matches cfg bm seq matched)
    (table : seq.blockTable = []) : ResumeFits cfg bm seq matched ↔ Fits cfg bm seq matched := by
  have suffix : resumeSuffix cfg seq matched = matched := by
    have bound := matches'.length_le
    simp only [resumeSuffix, resumableSuffix, table, List.length_nil, List.take_zero, ne_eq,
      not_true_eq_false, if_false, List.drop_zero, Nat.zero_add, Nat.sub_zero]
    exact List.take_of_length_le (by omega)
  rw [ResumeFits, Fits, suffix, table, List.length_nil, Nat.sub_zero]

namespace Scheduler

/-- A resumption is possible and planned. -/
structure Resumable (cfg : Config) (s : Scheduler) (i : SeqId) (matched : List BlockId) :
    Prop where
  longest : Matches cfg s.blockManager (s.seqs i) matched
  fits : ResumeFits cfg s.blockManager (s.seqs i) matched
  planned : s.blockManager.pendingResumeMatches i = some (resumeSuffix cfg (s.seqs i) matched)

/-- The capacity check of a waiting request. -/
theorem Valid.canResume (valid : Valid cfg ids kv computed held batch s) (mem : i ∈ s.waiting) :
    ∃ bm' ready, s.canResume cfg i = .ok ({ s with blockManager := bm' }, ready) ∧
      Valid cfg ids kv computed held batch { s with blockManager := bm' } ∧
      SameMemory cfg s.blockManager bm' ∧
      (ready = true → ∃ matched, Resumable cfg { s with blockManager := bm' } i matched) ∧
      (ready = false → ∃ matched, Matches cfg bm' (s.seqs i) matched ∧
        ¬ResumeFits cfg bm' (s.seqs i) matched) := by
  obtain ⟨known, status, phase⟩ := valid.waiting mem
  have named := (valid.request i known).named
  obtain ⟨bm', matched, longest, same, plans, outcome⟩ :=
    canResume_spec valid.memory.index phase.owned
  have longest' := longest.of_sameMemory same
  have looked : ∀ ready plan, bm'.pendingResumeMatches =
      Function.update s.blockManager.pendingResumeMatches (s.seqs i).seqId plan →
      s.blockManager.canResume cfg (s.seqs i) = .ok (bm', ready) →
      s.canResume cfg i = .ok ({ s with blockManager := bm' }, ready) ∧
        Valid cfg ids kv computed held batch { s with blockManager := bm' } := by
    intro ready plan resumePlans checked
    refine ⟨by rw [Scheduler.canResume, checked]; rfl, valid.look same (fun j => ?_) fun j => ?_⟩
    · rw [plans]
      exact .inl
    · by_cases self : j = i
      · subst self
        exact fun _ => .inr mem
      · rw [resumePlans, Function.update_of_ne fun same => self (same.trans named)]
        exact .inl
  rcases outcome with ⟨fits, checked, resumePlans⟩ | ⟨blocked, checked, resumePlans⟩
  · obtain ⟨result, valid'⟩ := looked true _ resumePlans checked
    refine ⟨bm', true, result, valid', same, fun _ => ⟨matched, longest', ?_, ?_⟩, nofun⟩
    · exact same.resumeFits.mpr fits
    · change bm'.pendingResumeMatches i = _
      rw [resumePlans, named, Function.update_self]
  · obtain ⟨result, valid'⟩ := looked false _ resumePlans checked
    refine ⟨bm', false, result, valid', same, nofun, fun _ => ⟨matched, longest', ?_⟩⟩
    exact fun fits => blocked (same.resumeFits.mp fits)

/-- The waiting requests with pages. -/
def owners (s : Scheduler) : Finset SeqId := s.waiting.toFinset.filter fun i => s.ownsBlocks i

theorem mem_owners : i ∈ s.owners ↔ i ∈ s.waiting ∧ (s.seqs i).blockTable ≠ [] := by
  simp [owners, ownsBlocks]

/-- Some waiting requests have lost all their pages. -/
structure Reclaims (cfg : Config) (s s' : Scheduler) : Prop where
  waiting : s'.waiting = s.waiting
  running : s'.running = s.running
  pendingRestores : s'.pendingRestores = s.pendingRestores
  follows : Follows s s'
  seqs : ∀ j, s'.seqs j = s.seqs j ∨ (j ∈ s.waiting ∧ (s.seqs j).blockTable ≠ [] ∧
    ∃ freed invalidated, s'.seqs j = (s.seqs j).reclaimed cfg 0 freed invalidated)

namespace Reclaims

theorem of_look (cfg : Config) (s : Scheduler) (bm' : BlockManager) :
    Reclaims cfg s { s with blockManager := bm' } :=
  ⟨rfl, rfl, rfl, .of_seqs rfl rfl rfl rfl, fun _ => .inl rfl⟩

theorem trans {s'' : Scheduler} (first : Reclaims cfg s s') (second : Reclaims cfg s' s'') :
    Reclaims cfg s s'' where
  waiting := second.waiting.trans first.waiting
  running := second.running.trans first.running
  pendingRestores := second.pendingRestores.trans first.pendingRestores
  follows := first.follows.trans second.follows
  seqs j := by
    rcases second.seqs j with same | ⟨mem, table, freed, invalidated, reclaimed⟩
    · rw [same]
      exact first.seqs j
    · rcases first.seqs j with same' | ⟨-, -, freed', invalidated', reclaimed'⟩
      · rw [same'] at table reclaimed
        exact .inr ⟨first.waiting ▸ mem, table, freed, invalidated, reclaimed⟩
      · rw [reclaimed'] at table
        exact absurd rfl table

/-- Reclaiming one waiting request. -/
theorem of_reclaimFully {bm' : BlockManager} {freed invalidated : ℕ} (mem : i ∈ s.waiting)
    (live : (s.seqs i).status.Live) (table : (s.seqs i).blockTable ≠ []) :
    Reclaims cfg s (s.put i bm' ((s.seqs i).reclaimed cfg 0 freed invalidated)) where
  waiting := rfl
  running := rfl
  pendingRestores := rfl
  follows := .of_update rfl live (reclaimed_sameRequest _ _ _ _) rfl rfl rfl
  seqs j := by
    by_cases same : j = i
    · subst same
      exact .inr ⟨mem, table, freed, invalidated, Function.update_self _ _ _⟩
    · exact .inl (Function.update_of_ne same _ _)

theorem idle (reclaims : Reclaims cfg s s')
    (idle : ∀ j ∈ s.waiting, (s.seqs j).numScheduledTokens = 0) :
    ∀ j ∈ s'.waiting, (s'.seqs j).numScheduledTokens = 0 := by
  intro j mem
  rw [reclaims.waiting] at mem
  rcases reclaims.seqs j with same | ⟨-, -, freed, invalidated, reclaimed⟩
  · rw [same]
    exact idle j mem
  · rw [reclaimed]
    exact idle j mem

end Reclaims

/-- A reclaim takes one request out of the owners. -/
theorem owners_reclaim {bm' : BlockManager} {freed invalidated : ℕ} (mem : i ∈ s.owners) :
    (s.put i bm' ((s.seqs i).reclaimed cfg 0 freed invalidated)).owners ⊂ s.owners := by
  rw [Finset.ssubset_iff_of_subset]
  · refine ⟨i, mem, fun mem' => ?_⟩
    rw [mem_owners] at mem'
    exact mem'.2 (by simp [put, Sequence.reclaimed, Sequence.recordKvReclaim, Sequence.withPrefix])
  · intro j mem'
    rw [mem_owners] at mem' ⊢
    refine ⟨mem'.1, fun table => mem'.2 ?_⟩
    by_cases same : j = i
    · subst same
      exact absurd table (mem_owners.mp mem).2
    · simp [put, same, table]

theorem reclaimVictim_mem {now : ℚ} (victim : s.reclaimVictim cfg i now = some j) :
    j ∈ s.owners ∧ j ≠ i := by
  have mem := List.argmax_mem victim
  simp only [List.mem_filter, Bool.and_eq_true, decide_eq_true_eq, ownsBlocks] at mem
  exact ⟨mem_owners.mpr ⟨mem.1, mem.2.2⟩, mem.2.1⟩

theorem owners_of_reclaimVictim {now : ℚ} (victim : s.reclaimVictim cfg i now = none) :
    s.owners ⊆ {i} := by
  intro j mem
  rw [mem_owners] at mem
  rw [reclaimVictim, List.argmax_eq_none, List.filter_eq_nil_iff] at victim
  have := victim j mem.1
  simp only [ownsBlocks, Bool.and_eq_true, decide_eq_true_eq, not_and, ne_eq] at this
  rw [Finset.mem_singleton]
  by_contra differ
  exact this differ mem.2

/-- The loop of `_ensure_resume_capacity` ends and raises nothing. -/
theorem resumeCapacityLoop_spec (now : ℚ) (fuel : ℕ) :
    ∀ s : Scheduler, Valid cfg ids kv Sequence.numCachedTokens held batch s → i ∈ s.waiting →
      (∀ j ∈ s.waiting, (s.seqs j).numScheduledTokens = 0) → s.owners.card < fuel →
      ((s.seqs i).blockTable ≠ [] ∨ s.owners = ∅) →
      ∃ s' ready, resumeCapacityLoop cfg i now fuel s = .ok (s', ready) ∧
        Valid cfg ids kv Sequence.numCachedTokens held batch s' ∧ Reclaims cfg s s' ∧
        (ready = true → ∃ matched, Resumable cfg s' i matched) ∧
        (ready = false → s.running ≠ [] ∨ (s'.owners = ∅ ∧
          ∃ matched, Matches cfg s'.blockManager (s'.seqs i) matched ∧
            ¬ResumeFits cfg s'.blockManager (s'.seqs i) matched)) ∧
        ((s.seqs i).blockTable.length = (s.seqs i).numBlocks cfg →
          s'.seqs = s.seqs ∧ ready = true) ∧
        ((s'.seqs i).blockTable = [] → (s.seqs i).blockTable = [] ∨ s.running = []) := by
  induction fuel with
  | zero =>
    intro s valid mem idle fuel
    exact absurd fuel (Nat.not_lt_zero _)
  | succ fuel ih =>
    intro s valid mem idle enough owning
    rw [resumeCapacityLoop]
    obtain ⟨bm', ready, checked, valid', same, resumable, blocked⟩ := valid.canResume mem
    by_cases table : (s.seqs i).blockTable = []
    · rw [if_pos table]
      refine ⟨_, ready, checked, valid', .of_look cfg s bm', resumable, fun notReady => .inr ?_,
        fun full => ⟨rfl, ?_⟩, fun _ => .inl table⟩
      · exact ⟨owning.resolve_left fun nonempty => nonempty table, blocked notReady⟩
      · by_contra notReady
        obtain ⟨matched, -, lacking⟩ := blocked (Bool.not_eq_true _ ▸ notReady)
        exact lacking (.of_full full)
    rw [if_neg table, checked, Py.ok_bind]
    cases ready with
    | true =>
      obtain ⟨bm'', ready', checked', valid'', same', resumable', blocked'⟩ :=
        valid'.canResume mem
      have ready_eq : ready' = true := by
        by_contra notReady
        rw [Bool.not_eq_true] at notReady
        obtain ⟨matched, able⟩ := resumable rfl
        obtain ⟨matched', longest', blocked⟩ := blocked' notReady
        rw [(able.longest.of_sameMemory same').unique longest'] at able
        exact blocked (same'.resumeFits.mpr able.fits)
      subst ready_eq
      exact ⟨_, true, checked', valid'', .trans (.of_look cfg s bm') (.of_look cfg _ bm''),
        resumable', (by simp), fun _ => ⟨rfl, rfl⟩, .inl⟩
    | false =>
      have notFull : (s.seqs i).blockTable.length ≠ (s.seqs i).numBlocks cfg := fun full => by
        obtain ⟨matched, -, blocked⟩ := blocked rfl
        exact blocked (.of_full full)
      -- One more waiting request loses its pages, and the loop goes round.
      have round : ∀ victim, victim ∈ s.owners →
          (victim = i → s.owners ⊆ {i} ∧ s.running = []) →
          ∃ s' ready, (do
            let s ← reclaimFully cfg { s with blockManager := bm' } victim
            resumeCapacityLoop cfg i now fuel s) = Except.ok (s', ready) ∧
          Valid cfg ids kv Sequence.numCachedTokens held batch s' ∧ Reclaims cfg s s' ∧
          (ready = true → ∃ matched, Resumable cfg s' i matched) ∧
          (ready = false → s.running ≠ [] ∨ (s'.owners = ∅ ∧
            ∃ matched, Matches cfg s'.blockManager (s'.seqs i) matched ∧
              ¬ResumeFits cfg s'.blockManager (s'.seqs i) matched)) ∧
          ((s'.seqs i).blockTable = [] → (s.seqs i).blockTable = [] ∨ s.running = []) := by
        intro victim owner last
        obtain ⟨mem', table'⟩ := mem_owners.mp owner
        obtain ⟨bm'', freed, invalidated, reclaimed, valid''⟩ :=
          valid'.reclaimFully mem' (idle victim mem')
        have reclaims := @Reclaims.of_reclaimFully cfg { s with blockManager := bm' } victim bm''
            freed invalidated mem'
            (by rw [(valid.waiting mem').2.1]; trivial) table'
        have fewer := @owners_reclaim cfg { s with blockManager := bm' } victim bm''
          freed invalidated owner
        have total := (Reclaims.of_look cfg s bm').trans reclaims
        obtain ⟨s', ready, looped, valid''', reclaims', able, stuck, -, emptied⟩ :=
          ih _ valid'' mem (total.idle idle)
            ((Finset.card_lt_card fewer).trans_le (Nat.le_of_lt_succ enough)) (by
              by_cases self : victim = i
              · refine .inr (Finset.eq_empty_of_forall_notMem fun j mem'' => ?_)
                have := Finset.mem_singleton.mp ((last self).1 (fewer.subset mem''))
                subst self this
                exact (mem_owners.mp mem'').2 (by
                  simp [Scheduler.put, Sequence.reclaimed, Sequence.recordKvReclaim,
                    Sequence.withPrefix])
              · refine .inl ?_
                simp only [Scheduler.put, Function.update_of_ne (Ne.symm self)]
                exact table)
        refine ⟨s', ready, by rw [reclaimed, Py.ok_bind, looped], valid''',
          total.trans reclaims', able, stuck, fun empty => ?_⟩
        by_cases self : victim = i
        · exact .inr (last self).2
        · refine (emptied empty).imp_left fun before => ?_
          simpa only [Scheduler.put, Function.update_of_ne (Ne.symm self)] using before
      simp only [Bool.false_eq_true, if_false]
      split
      · next victim chosen =>
        obtain ⟨owner, differ⟩ := reclaimVictim_mem chosen
        obtain ⟨s', ready, looped, valid'', reclaims, able, stuck, emptied⟩ :=
          round victim owner fun self => absurd self differ
        exact ⟨s', ready, looped, valid'', reclaims, able, stuck,
          fun full => absurd full notFull, emptied⟩
      · next none_left =>
        split
        · next busy =>
          exact ⟨_, false, rfl, valid', .of_look cfg s bm', (by simp), fun _ => .inl busy,
            fun full => absurd full notFull, .inl⟩
        · next quiet =>
          obtain ⟨s', ready, looped, valid'', reclaims, able, stuck, emptied⟩ :=
            round i (mem_owners.mpr ⟨mem, table⟩) fun _ =>
              ⟨owners_of_reclaimVictim none_left, not_not.mp quiet⟩
          exact ⟨s', ready, looped, valid'', reclaims, able, stuck,
            fun full => absurd full notFull, emptied⟩

/-- `_ensure_resume_capacity` for a waiting request with pages ends and raises nothing. -/
theorem Valid.ensureResumeCapacity
    (valid : Valid cfg ids kv Sequence.numCachedTokens held batch s) (mem : i ∈ s.waiting)
    (idle : ∀ j ∈ s.waiting, (s.seqs j).numScheduledTokens = 0)
    (table : (s.seqs i).blockTable ≠ []) (now : ℚ) :
    ∃ s' ready, s.ensureResumeCapacity cfg i now = .ok (s', ready) ∧
      Valid cfg ids kv Sequence.numCachedTokens held batch s' ∧ Reclaims cfg s s' ∧
      (ready = true → ∃ matched, Resumable cfg s' i matched) ∧
      (ready = false → s.running ≠ [] ∨ (s'.owners = ∅ ∧
        ∃ matched, Matches cfg s'.blockManager (s'.seqs i) matched ∧
          ¬ResumeFits cfg s'.blockManager (s'.seqs i) matched)) ∧
      ((s.seqs i).blockTable.length = (s.seqs i).numBlocks cfg →
        s'.seqs = s.seqs ∧ ready = true) ∧
      ((s'.seqs i).blockTable = [] → s.running = []) := by
  have bound : s.owners.card ≤ s.waiting.toFinset.card := Finset.card_filter_le _ _
  have := List.toFinset_card_le s.waiting
  obtain ⟨s', ready, looped, valid', reclaims, able, stuck, same, emptied⟩ :=
    resumeCapacityLoop_spec now (s.waiting.length + 2) s valid mem idle (by omega) (.inl table)
  exact ⟨s', ready, looped, valid', reclaims, able, stuck, same,
    fun empty => (emptied empty).resolve_left table⟩

end Scheduler

end NanoVllm
