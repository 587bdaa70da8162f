import NanoVllm.Engine.Capacity
import NanoVllm.Library.Interleaving

/-!
# The admission reserve

`priority_reserve_pages` computes in closed form how many pages the running requests and a
candidate start in their next decode steps. `may_append` starts a page by the logical length, one
step at a time. Both count the steps at which the computed tokens fill their pages.
-/

namespace NanoVllm

open BlockManager Interleaving

/-- The pages a decode step starts after so many computed tokens. -/
def pagePrice (cfg : Config) (computed : ℕ) : ℕ := if computed % cfg.blockSize = 0 then 1 else 0

section Growth

variable {cfg : Config}

/-- The started pages are the growth of the number of pages. -/
theorem pages_add_spent (cfg : Config) (computed n : ℕ) :
    (computed + n + cfg.blockSize - 1) / cfg.blockSize =
      (computed + cfg.blockSize - 1) / cfg.blockSize + spent (pagePrice cfg) computed n := by
  have size := cfg.blockSize_pos
  induction n with
  | zero => simp [spent]
  | succ n ih =>
    have next : computed + (n + 1) + cfg.blockSize - 1 = (computed + n + cfg.blockSize - 1) + 1 := by
      omega
    have whole : cfg.blockSize ∣ computed + n + cfg.blockSize - 1 + 1 ↔
        (computed + n) % cfg.blockSize = 0 := by
      rw [Nat.sub_add_cancel (by omega), Nat.dvd_iff_mod_eq_zero, Nat.add_mod_right]
    rw [next, Nat.succ_div, ih, spent_succ, pagePrice, Nat.add_assoc]
    simp only [whole]

/-- `growth_pages` of a request whose table ends with the page of its last computed token. -/
theorem Sequence.Running.growthPages_eq {seq : Sequence} (running : seq.Running cfg) (n : ℕ) :
    growthPages (seq.numPhysicalCachedTokens + seq.numScheduledTokens) seq.blockTable.length n
      cfg.blockSize = spent (pagePrice cfg) seq.computedTokens n := by
  have size := cfg.blockSize_pos
  have positive := running.nonempty
  have ends : (seq.computedTokens + cfg.blockSize - 1) / cfg.blockSize =
      (seq.computedTokens - 1) / cfg.blockSize + 1 := by
    rw [← Nat.add_div_right _ size]
    congr 1
    omega
  have grown := pages_add_spent cfg seq.computedTokens n
  -- The physical tokens differ from the computed ones by whole pages, and so do the tables.
  have shifted : (seq.numPhysicalCachedTokens + seq.numScheduledTokens + n + cfg.blockSize - 1) +
      ((seq.computedTokens - 1) / cfg.blockSize + 1) * cfg.blockSize =
        (seq.computedTokens + n + cfg.blockSize - 1) + seq.blockTable.length * cfg.blockSize := by
    have physical := running.physical
    rw [Sequence.computedTokens] at physical ⊢
    omega
  have pages := congrArg (· / cfg.blockSize) shifted
  simp only [Nat.add_mul_div_right _ _ size] at pages
  rw [growthPages]
  omega

theorem growthPages_fresh (cfg : Config) (seq : Sequence) (n : ℕ) :
    growthPages seq.numTokens (seq.numBlocks cfg) n cfg.blockSize =
      spent (pagePrice cfg) seq.numTokens n := by
  rw [growthPages, Sequence.numBlocks, pages_add_spent]
  omega

theorem Sequence.Running.startsPage_price {seq : Sequence} (running : seq.Running cfg)
    (idle : seq.numScheduledTokens = 0) :
    (if startsPage cfg seq then 1 else 0) = pagePrice cfg seq.computedTokens := by
  rw [pagePrice, Sequence.computedTokens, idle, Nat.add_zero]
  simp only [running.startsPage_iff idle]

end Growth

/-! ## The simulation on the records -/

/-- A decode step of a request: the page it may take, its token and the time. -/
structure DecodeEvent where
  request : SeqId
  blockId : BlockId
  tokenId : Token
  now : ℚ

/-- The record of a request after a decode step. -/
def Sequence.decoded (cfg : Config) (seq : Sequence) (event : DecodeEvent) : Sequence :=
  ((if startsPage cfg seq then seq.decoding.withPage cfg event.blockId
    else seq.decoding).advanced false).appendToken event.tokenId event.now

/-- The pages which `may_append` takes in decode steps of several requests. -/
def appendedPages (cfg : Config) : (SeqId → Sequence) → List DecodeEvent → ℕ
  | _, [] => 0
  | seqs, event :: events =>
      (if startsPage cfg (seqs event.request) then 1 else 0) +
        appendedPages cfg (Function.update seqs event.request
          ((seqs event.request).decoded cfg event)) events

theorem Sequence.decoded_numTokens (cfg : Config) (seq : Sequence) (event : DecodeEvent) :
    (seq.decoded cfg event).numTokens = seq.numTokens + 1 := by
  rw [decoded]
  split <;> simp [numTokens, appendToken, advanced, decoding, withPage]

/-- The test of `may_append` is on the number of tokens before the last one. -/
theorem startsPage_price (cfg : Config) {seq : Sequence} (nonempty : 0 < seq.numTokens) :
    (if startsPage cfg seq then 1 else 0) = pagePrice cfg (seq.numTokens - 1) := by
  have iff : startsPage cfg seq = true ↔ (seq.numTokens - 1) % cfg.blockSize = 0 := by
    rw [startsPage, decide_eq_true_eq, ← Sequence.succ_mod_blockSize, Nat.sub_add_cancel nonempty]
  rw [pagePrice]
  simp only [iff]

theorem appendedPages_eq (cfg : Config) (events : List DecodeEvent) :
    ∀ seqs : SeqId → Sequence, (∀ event ∈ events, 0 < (seqs event.request).numTokens) →
      appendedPages cfg seqs events = cost (pagePrice cfg) (fun j => (seqs j).numTokens - 1)
        (events.map DecodeEvent.request) := by
  induction events with
  | nil =>
    intro seqs _
    rfl
  | cons event events ih =>
    intro seqs nonempty
    have first := nonempty event List.mem_cons_self
    have counted : ∀ j, ((Function.update seqs event.request
        ((seqs event.request).decoded cfg event)) j).numTokens - 1 =
          Function.update (fun j => (seqs j).numTokens - 1) event.request
            ((seqs event.request).numTokens - 1 + 1) j := by
      intro j
      by_cases self : j = event.request
      · subst self
        rw [Function.update_self, Function.update_self, Sequence.decoded_numTokens]
        omega
      · rw [Function.update_of_ne self, Function.update_of_ne self]
    rw [appendedPages, List.map_cons, cost, startsPage_price cfg first, ih]
    · congr 1
      apply cost_congr
      intro j _
      exact counted j
    · intro later mem
      have positive := nonempty later (List.mem_cons_of_mem event mem)
      by_cases self : later.request = event.request
      · rw [self, Function.update_self, Sequence.decoded_numTokens]
        exact Nat.succ_pos _
      · rw [Function.update_of_ne self]
        exact positive

namespace Scheduler

variable {cfg : Config} {ids : Finset SeqId} {kv : KvStore} {s s' s₁ : Scheduler} {i j : SeqId}
  {batch sched : List SeqId} {pages : ℕ}

/-- A request which emits a token with its pending prefill. -/
def prefillPending (s : Scheduler) (i j : SeqId) : Bool :=
  j = i || 0 < (s.seqs j).numScheduledTokens

/-- The decode steps within the horizon of the candidate and of the running requests. -/
def decodeSteps (s : Scheduler) (i : SeqId) (horizon : ℕ) (j : SeqId) : ℕ :=
  if j = i ∨ (j ∈ s.running ∧ (s.seqs i).qos.priority ≤ (s.seqs j).qos.priority) then
    min horizon ((s.seqs j).maxTokens - (s.seqs j).numCompletionTokens -
      if s.prefillPending i j then 1 else 0)
  else 0

/-- The computed tokens when the pending prefills are complete. -/
def prefilledTokens (s : Scheduler) (i j : SeqId) : ℕ :=
  if j = i then (s.seqs j).numTokens else (s.seqs j).computedTokens

/-- The parties of the simulation. -/
def parties (s : Scheduler) (i : SeqId) : Finset SeqId := insert i s.running.toFinset

theorem mem_parties_of_steps {horizon : ℕ} (steps : 0 < s.decodeSteps i horizon j) :
    j ∈ s.parties i := by
  rw [decodeSteps] at steps
  split at steps
  · next party =>
    simp only [parties, Finset.mem_insert, List.mem_toFinset]
    exact party.imp_right And.left
  · cases steps

/-- The reserve is what the parties spend on their steps. -/
theorem priorityReservePages_eq (valid : Valid cfg ids kv Sequence.numCachedTokens [] batch s)
    (mem : i ∈ s.waiting) (horizon : ℕ) :
    priorityReservePages cfg (s.seqs i) (s.running.map s.seqs) horizon =
      ∑ j ∈ s.parties i,
        spent (pagePrice cfg) (s.prefilledTokens i j) (s.decodeSteps i horizon j) := by
  have notRunning : i ∉ s.running := by
    intro running
    have status := (valid.running (List.mem_append_left [] running)).2.1
    rw [(valid.waiting mem).2.1] at status
    cases status
  have distinct : s.running.Nodup := (List.nodup_append.mp (valid.distinct .running)).1
  rw [priorityReservePages, parties, Finset.sum_insert (by simpa using notRunning), Nat.add_comm]
  congr 1
  · rw [growthPages_fresh]
    simp [prefilledTokens, decodeSteps, prefillPending]
  · rw [List.sum_toFinset _ distinct, List.map_map]
    congr 1
    apply List.map_congr_left
    intro j running
    have differ : j ≠ i := by
      rintro rfl
      exact notRunning running
    have phase := (valid.running (List.mem_append_left [] running)).2.2
    simp only [Function.comp, runningReservePages, prefilledTokens, decodeSteps, prefillPending,
      differ, if_false, decide_false, Bool.false_or, false_or, running, true_and,
      decide_eq_true_eq]
    by_cases urgent : (s.seqs i).qos.priority ≤ (s.seqs j).qos.priority
    · rw [if_neg (not_lt.mpr urgent), if_pos urgent, phase.growthPages_eq]
    · rw [if_pos (not_le.mp urgent), if_neg urgent]
      rfl

/-- The records when the pending prefills and that of the candidate are complete. -/
def prefilled (s : Scheduler) (i : SeqId) (tokenIds : SeqId → Token) (now : ℚ) (j : SeqId) :
    Sequence :=
  if s.prefillPending i j then
    (({ s.seqs j with
      numScheduledTokens := (s.seqs j).numTokens - (s.seqs j).numCachedTokens } :
        Sequence).advanced true).appendToken (tokenIds j) now
  else s.seqs j

theorem prefilled_numTokens (valid : Valid cfg ids kv Sequence.numCachedTokens [] batch s)
    (tokenIds : SeqId → Token) (now : ℚ) (party : j ∈ s.parties i) :
    (s.prefilled i tokenIds now j).numTokens = s.prefilledTokens i j + 1 := by
  have appended : ∀ seq : Sequence, ((seq.advanced true).appendToken (tokenIds j) now).numTokens =
      seq.numTokens + 1 := by
    intro seq
    simp [Sequence.numTokens, Sequence.appendToken, Sequence.advanced,
      Sequence.recordRecomputedTokens]
  rw [prefilled, prefilledTokens]
  by_cases self : j = i
  · rw [if_pos (by simp [prefillPending, self]), if_pos self]
    exact appended _
  · have running : j ∈ s.running := by
      simpa [parties, self] using party
    have phase := (valid.running (List.mem_append_left [] running)).2.2
    rw [if_neg self]
    by_cases scheduled : 0 < (s.seqs j).numScheduledTokens
    · rw [if_pos (by simp [prefillPending, scheduled]), phase.complete scheduled]
      exact appended _
    · rw [if_neg (by simp [prefillPending, self, scheduled]), Sequence.computedTokens,
        ← phase.next (by omega)]
      omega

/-- The reserve equals the pages of any interleaving of the decode steps. -/
theorem Valid.appendedPages_eq (valid : Valid cfg ids kv Sequence.numCachedTokens [] batch s)
    (mem : i ∈ s.waiting) (horizon : ℕ) (tokenIds : SeqId → Token) (now : ℚ)
    {events : List DecodeEvent}
    (complete : ∀ j, (events.map DecodeEvent.request).count j = s.decodeSteps i horizon j) :
    appendedPages cfg (s.prefilled i tokenIds now) events =
      priorityReservePages cfg (s.seqs i) (s.running.map s.seqs) horizon := by
  have members : ∀ j ∈ events.map DecodeEvent.request, j ∈ s.parties i := by
    intro j mem'
    apply @mem_parties_of_steps s i j horizon
    rw [← complete]
    exact List.count_pos_iff.mpr mem'
  rw [NanoVllm.appendedPages_eq, priorityReservePages_eq valid mem, ← cost_complete members complete]
  · apply cost_congr
    intro j mem'
    rw [prefilled_numTokens valid tokenIds now (members j mem')]
    rfl
  · intro event mem'
    rw [prefilled_numTokens valid tokenIds now (members _ (List.mem_map_of_mem mem'))]
    exact Nat.succ_pos _

/-! ## Decode batches -/

/-- The decode steps of one batch, without compression and preemption. -/
inductive AppendsAll (cfg : Config) : Scheduler → List SeqId → ℕ → Scheduler → Prop
  | done (s : Scheduler) : AppendsAll cfg s [] 0 s
  | next {s s₁ s' : Scheduler} {i : SeqId} {batch : List SeqId} {pages : ℕ}
      (mem : i ∈ s.running) (room : s.blockManager.canAppend cfg (s.seqs i) = true)
      (decoded : (s.takeOut i).scheduleDecode cfg i = .ok s₁)
      (rest : AppendsAll cfg s₁ batch pages s') :
      AppendsAll cfg s (i :: batch)
        (s.blockManager.freeBlockIds.length - s₁.blockManager.freeBlockIds.length + pages) s'

/-- Decode batches, each of them followed by its run and by `postprocess`, with no early end. -/
inductive DecodeRounds (cfg : Config) : Scheduler → List (List SeqId) → ℕ → Scheduler → Prop
  | done (s : Scheduler) : DecodeRounds cfg s [] 0 s
  | next {s s₁ s₂ s' : Scheduler} {batch : List SeqId} {rounds : List (List SeqId)}
      {tokenIds : List Token} {now : ℚ} {pages pages' : ℕ} (appends : AppendsAll cfg s batch pages s₁)
      (sampled : tokenIds.length = batch.length)
      (noEos : ∀ event ∈ batch.zip tokenIds,
        (s.seqs event.1).ignoreEos = true ∨ event.2 ≠ cfg.eos)
      (processed : ({ s₁ with running := batch ++ s₁.running } : Scheduler).postprocess cfg batch
        tokenIds false now = .ok s₂)
      (rest : DecodeRounds cfg s₂ rounds pages' s') :
      DecodeRounds cfg s (batch :: rounds) (pages + pages') s'

/-- What the decode steps of a batch have done. -/
structure Appended (cfg : Config) (ids : Finset SeqId) (kv : KvStore) (sched : List SeqId)
    (s : Scheduler) (batch : List SeqId) (pages : ℕ) (s' : Scheduler) : Prop where
  valid : DecodeValid cfg ids kv (sched ++ batch) s'
  paid : pages = cost (pagePrice cfg) (fun j => (s.seqs j).computedTokens) batch
  free : s'.blockManager.freeBlockIds.length + pages = s.blockManager.freeBlockIds.length
  computed : ∀ j, (s'.seqs j).computedTokens = (s.seqs j).computedTokens + batch.count j
  same : ∀ j, SameRequest (s.seqs j) (s'.seqs j)
  kept : ∀ j, j ∉ batch → s'.seqs j = s.seqs j
  members : ∀ j ∈ batch, j ∈ s.running
  running : ∀ j, j ∉ batch → (j ∈ s'.running ↔ j ∈ s.running)

theorem scheduleDecode_takes (valid : Valid cfg ids kv Sequence.numCachedTokens sched batch s)
    (room : s.blockManager.canAppend cfg (s.seqs i) = true)
    (decoded : s.scheduleDecode cfg i = .ok s') :
    s.blockManager.Takes (if startsPage cfg (s.seqs i) then 1 else 0) s'.blockManager := by
  rcases valid.memory.append_takes (s.seqs i).decoding room with ⟨bm', seq', appended, takes⟩
  change s.blockManager.mayAppend cfg (s.seqs i).decoding >>= _ = _ at decoded
  rw [appended] at decoded
  cases decoded
  exact takes

theorem AppendsAll.appended (appends : AppendsAll cfg s batch pages s') :
    ∀ sched, DecodeValid cfg ids kv sched s → Appended cfg ids kv sched s batch pages s' := by
  induction appends with
  | done s =>
    intro sched valid
    refine ⟨?_, rfl, rfl, fun _ => rfl, fun _ => .refl _, fun _ _ => rfl, nofun, fun _ _ => Iff.rfl⟩
    rw [List.append_nil]
    exact valid
  | @next s s₁ s' i batch pages mem room decoded rest ih =>
    intro sched valid
    have taken := valid.scheduler.takeOut mem
    have untouched : ∀ j ∈ sched, (s.takeOut i).seqs j = s.seqs j := fun _ _ => rfl
    rcases valid.join mem untouched taken room with ⟨s₁', decoded', schedules, valid₁⟩
    cases decoded.symm.trans decoded'
    have taking : (s.takeOut i).blockManager.Takes
        (if startsPage cfg ((s.takeOut i).seqs i) then 1 else 0) s₁.blockManager :=
      scheduleDecode_takes taken room decoded
    have takes : s₁.blockManager.freeBlockIds.length +
        (if startsPage cfg (s.seqs i) then 1 else 0) = s.blockManager.freeBlockIds.length := taking
    rcases ih (sched ++ [i]) valid₁ with ⟨valid', paid, free, computed, same, kept, members, running⟩
    rcases valid.scheduler.running (List.mem_append_left sched mem) with ⟨known, -, phase⟩
    have idle : (s.seqs i).numScheduledTokens = 0 := by
      apply valid.scheduler.idle known
      intro scheduled
      exact valid.notRunning scheduled mem
    have single := valid₁.single i (by simp)
    rcases valid₁.scheduler.running
      (List.mem_append_right s₁.running (List.mem_append_right sched (List.mem_singleton_self i)))
      with ⟨-, -, phase₁⟩
    have request := schedules.follows.request i
    have advanced : (s₁.seqs i).computedTokens = (s.seqs i).computedTokens + 1 := by
      have complete := phase₁.complete (by omega)
      have next := phase.next idle
      rw [complete, Sequence.numTokens, request.tokenIds]
      rw [Sequence.computedTokens, idle]
      exact next.symm
    rcases schedules.seqs with ⟨seq, seqs⟩
    have others : ∀ j, j ≠ i → s₁.seqs j = s.seqs j := by
      intro j differ
      rw [seqs, Function.update_of_ne differ]
      rfl
    have counted : ∀ j, (s₁.seqs j).computedTokens =
        Function.update (fun j => (s.seqs j).computedTokens) i ((s.seqs i).computedTokens + 1) j := by
      intro j
      by_cases self : j = i
      · rw [self, Function.update_self, advanced]
      · rw [Function.update_of_ne self, others j self]
    have erased : s₁.running = s.running.erase i := schedules.running
    have distinct := (List.nodup_append.mp (valid.scheduler.distinct .running)).1
    have absent : i ∉ s₁.running := by
      rw [erased]
      exact distinct.not_mem_erase
    have price : s.blockManager.freeBlockIds.length - s₁.blockManager.freeBlockIds.length =
        pagePrice cfg (s.seqs i).computedTokens := by
      rw [← phase.startsPage_price idle]
      omega
    refine ⟨?_, ?_, ?_, ?_, ?_, ?_, ?_, ?_⟩
    · rw [List.append_assoc] at valid'
      exact valid'
    · rw [cost, price, paid]
      congr 1
      exact cost_congr fun j _ => counted j
    · omega
    · intro j
      rw [computed, counted]
      by_cases self : j = i
      · rw [self, Function.update_self, List.count_cons_self]
        omega
      · rw [Function.update_of_ne self, List.count_cons_of_ne (Ne.symm self)]
    · intro j
      exact (schedules.follows.request j).trans (same j)
    · intro j notMem
      rw [List.mem_cons, not_or] at notMem
      rw [kept j notMem.2, others j notMem.1]
    · intro j mem'
      rcases List.mem_cons.mp mem' with rfl | later
      · exact mem
      · have running₁ := members j later
        rw [erased] at running₁
        exact List.mem_of_mem_erase running₁
    · intro j notMem
      rw [List.mem_cons, not_or] at notMem
      rw [running j notMem.2, erased]
      exact List.mem_erase_of_ne notMem.1

/-- The decode steps of one batch, computed with the pages they take. -/
def appendAll (cfg : Config) : Scheduler → List SeqId → Option (ℕ × Scheduler)
  | s, [] => some (0, s)
  | s, i :: batch =>
      if i ∈ s.running ∧ s.blockManager.canAppend cfg (s.seqs i) then
        match (s.takeOut i).scheduleDecode cfg i with
        | .ok s₁ => (appendAll cfg s₁ batch).map fun result =>
            (s.blockManager.freeBlockIds.length - s₁.blockManager.freeBlockIds.length + result.1,
              result.2)
        | .error _ => none
      else none

theorem appendAll_sound (batch : List SeqId) : ∀ (s : Scheduler) (result : ℕ × Scheduler),
    appendAll cfg s batch = some result → AppendsAll cfg s batch result.1 result.2 := by
  induction batch with
  | nil =>
    intro s result appended
    cases appended
    exact .done s
  | cons i batch ih =>
    intro s result appended
    rw [appendAll] at appended
    split at appended
    · next able =>
      split at appended
      · next s₁ decoded =>
        rcases Option.map_eq_some_iff.mp appended with ⟨rest, later, rfl⟩
        exact .next able.1 able.2 decoded (ih s₁ rest later)
      · cases appended
    · cases appended

/-! ## The end of a batch -/

theorem releaseBlocks_free {blockIds : List BlockId} {bm bm' : BlockManager}
    (released : releaseBlocks blockIds bm = .ok bm') :
    bm.freeBlockIds.length ≤ bm'.freeBlockIds.length := by
  induction blockIds generalizing bm with
  | nil =>
    cases released
    exact Nat.le_refl _
  | cons blockId blockIds ih =>
    rw [releaseBlocks] at released
    rcases Py.exists_of_bind released with ⟨bm₁, first, released⟩
    refine Nat.le_trans ?_ (ih released)
    simp only [releaseBlock, deallocateBlock] at first
    split at first
    · split at first
      · cases first
      · split at first
        · cases first
        · cases first
          simp [setBlock]
    · cases first
      simp [setBlock]

theorem deallocate_free {bm bm' : BlockManager} {seq seq' : Sequence}
    (released : bm.deallocate seq = .ok (bm', seq')) :
    bm.freeBlockIds.length ≤ bm'.freeBlockIds.length := by
  rw [deallocate] at released
  rcases Py.exists_of_bind released with ⟨bm₁, freed, released⟩
  cases released
  have more := releaseBlocks_free freed
  simpa [popPendingResumeMatch] using more

/-- `postprocess` takes no page. -/
theorem Valid.postprocessSeq_free {rest : List SeqId} {isPrefill : Bool} {tokenId : Token} {now : ℚ}
    (valid : Valid cfg ids kv Sequence.computedTokens [] (i :: rest) s)
    (processed : s.postprocessSeq cfg now isPrefill i tokenId = .ok s') :
    s.blockManager.freeBlockIds.length ≤ s'.blockManager.freeBlockIds.length := by
  rcases valid.advance List.mem_cons_self isPrefill with ⟨bm', hashed, -, same⟩
  rw [postprocessSeq_eq s bm' hashed] at processed
  simp only at processed
  rw [← same.freeBlockIds]
  split at processed
  · cases processed
    exact Nat.le_refl _
  · split at processed
    · rcases Py.exists_of_bind processed with ⟨⟨bm'', seq⟩, released, processed⟩
      simp only at processed
      split at processed
      · cases processed
      · rcases Py.exists_of_bind processed with ⟨_, checked, processed⟩
        cases processed
        exact deallocate_free released
    · cases processed
      exact Nat.le_refl _

theorem postprocessLoop_free {isPrefill : Bool} {now : ℚ} (events : List (SeqId × Token)) :
    ∀ s : Scheduler, Valid cfg ids kv Sequence.computedTokens [] (events.map Prod.fst) s →
      (∀ i ∈ events.map Prod.fst, isPrefill = false →
        (s.seqs i).computedTokens = (s.seqs i).numTokens) →
      postprocessLoop cfg now isPrefill events s = .ok s' →
      s.blockManager.freeBlockIds.length ≤ s'.blockManager.freeBlockIds.length := by
  induction events with
  | nil =>
    intro s _ _ looped
    cases looped
    exact Nat.le_refl _
  | cons event rest ih =>
    rcases event with ⟨i, tokenId⟩
    intro s valid ready looped
    rcases valid.postprocessSeq (ready i List.mem_cons_self) tokenId now with
      ⟨s₁, processed, valid₁, processes⟩
    rw [postprocessLoop, processed, Py.ok_bind] at looped
    refine (valid.postprocessSeq_free processed).trans (ih s₁ valid₁ ?_ looped)
    intro j mem decode
    have differ : j ≠ i := by
      rintro rfl
      exact valid.batch_rest.2.2 mem
    rw [processes.others differ]
    exact ready j (List.mem_cons_of_mem _ mem) decode

theorem exists_event {tokenIds : List Token} (sampled : tokenIds.length = batch.length)
    (mem : i ∈ batch) : ∃ tokenId, (i, tokenId) ∈ batch.zip tokenIds := by
  have requests : (batch.zip tokenIds).map Prod.fst = batch := List.map_fst_zip sampled.ge
  rw [← requests] at mem
  rcases List.mem_map.mp mem with ⟨⟨j, tokenId⟩, event, same⟩
  simp only at same
  exact ⟨tokenId, same ▸ event⟩

/-- What the run and `postprocess` of a batch leave behind. -/
structure Finished (cfg : Config) (ids : Finset SeqId) (s : Scheduler) (events : List (SeqId × Token))
    (s' : Scheduler) : Prop where
  valid : ∃ kv, Valid cfg ids kv Sequence.numCachedTokens [] [] s'
  free : s.blockManager.freeBlockIds.length ≤ s'.blockManager.freeBlockIds.length
  others : ∀ j, j ∉ events.map Prod.fst → s'.seqs j = s.seqs j
  each : ∀ event ∈ events, Processed cfg (s.seqs event.1) event.2 (s'.seqs event.1)

theorem Valid.finished {isPrefill : Bool} {now : ℚ} {tokenIds : List Token}
    (valid : Valid cfg ids kv Sequence.numCachedTokens [] batch s)
    (ready : BatchReady cfg isPrefill s.seqs batch) (sampled : tokenIds.length = batch.length)
    (processed : s.postprocess cfg batch tokenIds isPrefill now = .ok s') :
    Finished cfg ids s (batch.zip tokenIds) s' := by
  have requests : (batch.zip tokenIds).map Prod.fst = batch := List.map_fst_zip sampled.ge
  rcases valid.run ready with ⟨writes, -, -, valid₁⟩
  rcases valid₁.postprocess ready sampled now with ⟨s₁, processed', valid', processes⟩
  cases processed.symm.trans processed'
  have distinct := valid.batch_distinct
  rw [← requests] at distinct valid₁
  rcases processes.each distinct with ⟨others, each⟩
  refine ⟨⟨_, valid'⟩, ?_, others, each⟩
  apply postprocessLoop_free (batch.zip tokenIds) s valid₁ ?_ processed
  rw [requests]
  intro j mem decode
  exact ((ready j mem).decode decode).2.1

/-- A request of a finished batch which is running has computed the scheduled tokens. -/
theorem Finished.computed {events : List (SeqId × Token)} {event : SeqId × Token}
    (finished : Finished cfg ids s events s') (mem : event ∈ events)
    (complete : (s.seqs event.1).computedTokens = (s.seqs event.1).numTokens)
    (running : event.1 ∈ s'.running) :
    (s'.seqs event.1).computedTokens = (s.seqs event.1).computedTokens := by
  rcases finished.valid with ⟨kv, valid⟩
  cases finished.each event mem with
  | incomplete short => exact absurd complete short.ne
  | appended _ tokenIds =>
    rcases valid.running (List.mem_append_left [] running) with ⟨known, -, phase⟩
    have idle := valid.idle known List.not_mem_nil
    have next := phase.next idle
    rw [Sequence.numTokens, tokenIds, List.length_append, List.length_singleton] at next
    rw [complete, Sequence.computedTokens, idle]
    exact Nat.succ.inj next

/-- A request of a finished batch which still has output budget goes on running. -/
theorem Finished.continues {events : List (SeqId × Token)} {tokenId : Token}
    (finished : Finished cfg ids s events s') (mem : (i, tokenId) ∈ events)
    (known : i ∈ ids) (wellFormed : (s.seqs i).WellFormed cfg i)
    (complete : (s.seqs i).computedTokens = (s.seqs i).numTokens)
    (noEos : (s.seqs i).ignoreEos = true ∨ tokenId ≠ cfg.eos)
    (budget : (s.seqs i).numCompletionTokens + 1 < (s.seqs i).maxTokens) :
    i ∈ s'.running ∧
      (s'.seqs i).numCompletionTokens = (s.seqs i).numCompletionTokens + 1 ∧
      (s'.seqs i).maxTokens = (s.seqs i).maxTokens := by
  cases finished.each (i, tokenId) mem with
  | incomplete short => exact absurd complete short.ne
  | appended _ tokenIds prompt maxTokens ignoreEos _ _ _ status =>
    simp only at tokenIds prompt maxTokens ignoreEos status
    have counted : (s'.seqs i).numCompletionTokens = (s.seqs i).numCompletionTokens + 1 := by
      have prompt_le := wellFormed.prompt_le
      rw [Sequence.numTokens] at prompt_le
      rw [Sequence.numCompletionTokens, Sequence.numCompletionTokens, Sequence.numTokens,
        Sequence.numTokens, tokenIds, prompt, List.length_append, List.length_singleton]
      omega
    have goesOn : (s'.seqs i).stops cfg tokenId = false := by
      rw [Sequence.stops, decide_eq_false_iff_not]
      rintro (⟨ends, eos⟩ | full)
      · rw [ignoreEos] at ends
        rcases noEos with ignores | other
        · rw [ignores] at ends
          cases ends
        · exact other eos
      · omega
    rw [goesOn, if_neg Bool.false_ne_true] at status
    rcases finished.valid with ⟨kv, valid⟩
    have running := valid.mem_running.mpr ⟨known, status⟩
    rw [List.append_nil] at running
    exact ⟨running, counted, maxTokens⟩

/-- What a run of decode batches leaves behind. -/
structure Decoded (cfg : Config) (ids : Finset SeqId) (s : Scheduler) (order : List SeqId)
    (pages : ℕ) (s' : Scheduler) : Prop where
  valid : ∃ kv, Valid cfg ids kv Sequence.numCachedTokens [] [] s'
  paid : pages = cost (pagePrice cfg) (fun j => (s.seqs j).computedTokens) order
  free : s.blockManager.freeBlockIds.length ≤ s'.blockManager.freeBlockIds.length + pages
  members : ∀ j ∈ order, j ∈ s.running
  running : ∀ j ∈ s.running,
    (s.seqs j).numCompletionTokens + order.count j < (s.seqs j).maxTokens →
      j ∈ s'.running ∧ (s'.seqs j).computedTokens = (s.seqs j).computedTokens + order.count j ∧
      (s'.seqs j).numCompletionTokens = (s.seqs j).numCompletionTokens + order.count j ∧
      (s'.seqs j).maxTokens = (s.seqs j).maxTokens
  counted : ∀ j ∈ s'.running, j ∈ s.running ∧
    (s'.seqs j).computedTokens = (s.seqs j).computedTokens + order.count j

theorem Decoded.refl (valid : Valid cfg ids kv Sequence.numCachedTokens [] [] s) :
    Decoded cfg ids s [] 0 s :=
  ⟨⟨kv, valid⟩, rfl, Nat.le_refl _, nofun, fun _ running _ => ⟨running, rfl, rfl, rfl⟩,
    fun _ running => ⟨running, rfl⟩⟩

theorem Decoded.trans {s₂ : Scheduler} {order order' : List SeqId} {pages' : ℕ}
    (first : Decoded cfg ids s order pages s₁) (second : Decoded cfg ids s₁ order' pages' s₂) :
    Decoded cfg ids s (order ++ order') (pages + pages') s₂ where
  valid := second.valid
  paid := by
    rw [first.paid, second.paid, cost_append]
    congr 1
    apply cost_congr
    intro j mem
    exact (first.counted j (second.members j mem)).2
  free := by
    have taken := first.free
    have taken' := second.free
    omega
  members j mem := by
    rcases List.mem_append.mp mem with mem | mem
    · exact first.members j mem
    · exact (first.counted j (second.members j mem)).1
  running j running budget := by
    rw [List.count_append] at budget
    rcases first.running j running (by omega) with ⟨running₁, computed₁, completion₁, max₁⟩
    rcases second.running j running₁ (by omega) with ⟨running₂, computed₂, completion₂, max₂⟩
    rw [List.count_append]
    exact ⟨running₂, by omega, by omega, by omega⟩
  counted j running := by
    rcases second.counted j running with ⟨running₁, computed₁⟩
    rcases first.counted j running₁ with ⟨running₀, computed₀⟩
    rw [List.count_append]
    exact ⟨running₀, by omega⟩

/-- One decode batch with its run and `postprocess`. -/
theorem Appended.decoded {s₂ : Scheduler} {tokenIds : List Token} {now : ℚ}
    (appended : Appended cfg ids kv [] s batch pages s₁)
    (valid : Valid cfg ids kv Sequence.numCachedTokens [] [] s)
    (sampled : tokenIds.length = batch.length)
    (noEos : ∀ event ∈ batch.zip tokenIds,
      (s.seqs event.1).ignoreEos = true ∨ event.2 ≠ cfg.eos)
    (processed : ({ s₁ with running := batch ++ s₁.running } : Scheduler).postprocess cfg batch
      tokenIds false now = .ok s₂) :
    Decoded cfg ids s batch pages s₂ := by
  have decodeValid := appended.valid
  rw [List.nil_append] at decodeValid
  have valid₁ : Valid cfg ids kv Sequence.numCachedTokens [] batch
      { s₁ with running := batch ++ s₁.running } := by
    refine decodeValid.scheduler.reorder ?_ rfl rfl rfl rfl
    rw [List.append_nil]
    exact List.perm_append_comm
  have ready : BatchReady cfg false s₁.seqs batch := fun j mem => (decodeValid.runReady mem).2
  have finished := valid₁.finished ready sampled processed
  have requests : (batch.zip tokenIds).map Prod.fst = batch := List.map_fst_zip sampled.ge
  have complete : ∀ j ∈ batch, (s₁.seqs j).computedTokens = (s₁.seqs j).numTokens :=
    fun j mem => ((ready j mem).decode rfl).2.1
  have once : ∀ j ∈ batch, batch.count j = 1 := fun j mem =>
    List.count_eq_one_of_mem valid₁.batch_distinct mem
  have others : ∀ j, j ∉ batch → s₂.seqs j = s.seqs j := by
    intro j absent
    rw [finished.others j (by rwa [requests])]
    exact appended.kept j absent
  rcases finished.valid with ⟨kv', valid₂⟩
  refine ⟨⟨kv', valid₂⟩, appended.paid, ?_, appended.members, ?_, ?_⟩
  · have freed : s₁.blockManager.freeBlockIds.length ≤ s₂.blockManager.freeBlockIds.length :=
      finished.free
    have taken := appended.free
    omega
  · intro j running budget
    rcases valid.running (List.mem_append_left [] running) with ⟨known, status, -⟩
    by_cases mem : j ∈ batch
    · rcases exists_event sampled mem with ⟨tokenId, mem'⟩
      have same := appended.same j
      have completion : (s₁.seqs j).numCompletionTokens = (s.seqs j).numCompletionTokens := by
        rw [Sequence.numCompletionTokens, Sequence.numCompletionTokens, Sequence.numTokens,
          Sequence.numTokens, same.tokenIds, same.numPromptTokens]
      have noEos' : (s₁.seqs j).ignoreEos = true ∨ tokenId ≠ cfg.eos := by
        rw [same.ignoreEos]
        exact noEos _ mem'
      rw [once j mem] at budget ⊢
      rcases finished.continues mem' known (valid₁.request j known) (complete j mem) noEos'
        (by rw [completion, same.maxTokens]; exact budget) with ⟨running', completion', max'⟩
      have computed := finished.computed mem' (complete j mem) running'
      refine ⟨running', ?_, ?_, max'.trans same.maxTokens⟩
      · rw [computed, appended.computed, once j mem]
      · rw [completion', completion]
    · rw [others j mem, List.count_eq_zero_of_not_mem mem]
      refine ⟨?_, rfl, rfl, rfl⟩
      have running' : j ∈ s₂.running ++ [] := by
        rw [valid₂.mem_running, others j mem]
        exact ⟨known, status⟩
      rwa [List.append_nil] at running'
  · intro j running'
    by_cases mem : j ∈ batch
    · rcases exists_event sampled mem with ⟨tokenId, mem'⟩
      have computed := finished.computed mem' (complete j mem) running'
      refine ⟨appended.members j mem, ?_⟩
      rw [computed, appended.computed]
    · rcases valid₂.running (List.mem_append_left [] running') with ⟨known, status, -⟩
      rw [others j mem] at status ⊢
      rw [List.count_eq_zero_of_not_mem mem]
      have running := valid.mem_running.mpr ⟨known, status⟩
      rw [List.append_nil] at running
      exact ⟨running, rfl⟩

theorem DecodeRounds.decoded {rounds : List (List SeqId)} (run : DecodeRounds cfg s rounds pages s') :
    ∀ kv, Valid cfg ids kv Sequence.numCachedTokens [] [] s →
      Decoded cfg ids s rounds.flatten pages s' := by
  induction run with
  | done s => exact fun kv valid => .refl valid
  | @next s s₁ s₂ s' batch rounds tokenIds now pages pages' appends sampled noEos processed rest ih =>
    intro kv valid
    have appended := appends.appended [] ⟨valid, nofun⟩
    have first := appended.decoded valid sampled noEos processed
    rcases first.valid with ⟨kv', valid'⟩
    exact first.trans (ih kv' valid')

/-! ## Prefill batches -/

/-- The prefill of `i` and those of its batch complete, chunk by chunk and with no early end. -/
inductive CompletesPrefill (cfg : Config) (i : SeqId) : PrefillState → Scheduler → Prop
  | complete {st : PrefillState} {s' : Scheduler} {tokenIds : List Token} {now : ℚ}
      (sampled : tokenIds.length = st.scheduledSeqs.length)
      (noEos : ∀ event ∈ st.scheduledSeqs.zip tokenIds,
        (st.scheduler.seqs event.1).ignoreEos = true ∨ event.2 ≠ cfg.eos)
      (processed : st.scheduler.postprocess cfg st.scheduledSeqs tokenIds true now = .ok s')
      (completed : i ∉ s'.waiting) : CompletesPrefill cfg i st s'
  | chunk {st st₁ : PrefillState} {s₁ s₂ s' : Scheduler} {tokenIds : List Token} {now later : ℚ}
      (sampled : tokenIds.length = st.scheduledSeqs.length)
      (noEos : ∀ event ∈ st.scheduledSeqs.zip tokenIds,
        (st.scheduler.seqs event.1).ignoreEos = true ∨ event.2 ≠ cfg.eos)
      (processed : st.scheduler.postprocess cfg st.scheduledSeqs tokenIds true now = .ok s₁)
      (incomplete : i ∈ s₁.waiting)
      (ensured : s₁.ensureResumeCapacity cfg i later = .ok (s₂, true))
      (admitted : (PrefillState.start s₂).admitResident cfg i cfg.maxNumBatchedTokens later =
        .ok (.again st₁))
      (rest : CompletesPrefill cfg i st₁ s') : CompletesPrefill cfg i st s'

/-- The output tokens of a request when its pending prefill is complete. -/
def prefilledCompletion (s : Scheduler) (i j : SeqId) : ℕ :=
  (s.seqs j).numCompletionTokens + if s.prefillPending i j then 1 else 0

/-- What the completion of the pending prefills leaves behind. -/
structure Prefilled (cfg : Config) (ids : Finset SeqId) (i : SeqId) (s s' : Scheduler) : Prop where
  valid : ∃ kv, Valid cfg ids kv Sequence.numCachedTokens [] [] s'
  free : s.blockManager.freeBlockIds.length ≤ s'.blockManager.freeBlockIds.length
  party : ∀ j ∈ s.parties i, s.prefilledCompletion i j < (s.seqs j).maxTokens →
    j ∈ s'.running ∧ (s'.seqs j).computedTokens = s.prefilledTokens i j ∧
      (s'.seqs j).numCompletionTokens = s.prefilledCompletion i j ∧
      (s'.seqs j).maxTokens = (s.seqs j).maxTokens

/-- A running request after the prefill batch. -/
theorem PrefillState.Valid.round {st : PrefillState} {tokenIds : List Token} {now : ℚ}
    (valid : st.Valid cfg ids kv) (sampled : tokenIds.length = st.scheduledSeqs.length)
    (noEos : ∀ event ∈ st.scheduledSeqs.zip tokenIds,
      (st.scheduler.seqs event.1).ignoreEos = true ∨ event.2 ≠ cfg.eos)
    (processed : st.scheduler.postprocess cfg st.scheduledSeqs tokenIds true now = .ok s')
    (running : j ∈ st.scheduler.running)
    (budget : (st.scheduler.seqs j).numCompletionTokens +
      (if 0 < (st.scheduler.seqs j).numScheduledTokens then 1 else 0) <
        (st.scheduler.seqs j).maxTokens) :
    j ∈ s'.running ∧ (s'.seqs j).computedTokens = (st.scheduler.seqs j).computedTokens ∧
      (s'.seqs j).numCompletionTokens = (st.scheduler.seqs j).numCompletionTokens +
        (if 0 < (st.scheduler.seqs j).numScheduledTokens then 1 else 0) ∧
      (s'.seqs j).maxTokens = (st.scheduler.seqs j).maxTokens := by
  have finished := valid.scheduler.finished (fun _ mem => valid.runReady mem) sampled processed
  rcases valid.scheduler.running (List.mem_append_left [] running) with ⟨known, status, phase⟩
  have requests : (st.scheduledSeqs.zip tokenIds).map Prod.fst = st.scheduledSeqs :=
    List.map_fst_zip sampled.ge
  by_cases scheduled : 0 < (st.scheduler.seqs j).numScheduledTokens
  · rw [if_pos scheduled] at budget ⊢
    rcases exists_event sampled ((valid.scheduler.scheduled j).mpr ⟨known, scheduled⟩) with
      ⟨tokenId, mem'⟩
    have complete := phase.complete scheduled
    rcases finished.continues mem' known (valid.scheduler.request _ known) complete
      (noEos _ mem') budget with ⟨running', completion, maxTokens⟩
    exact ⟨running', finished.computed mem' complete running', completion, maxTokens⟩
  · have absent : j ∉ (st.scheduledSeqs.zip tokenIds).map Prod.fst := by
      rw [requests]
      intro mem
      exact scheduled ((valid.scheduler.scheduled j).mp mem).2
    have same := finished.others j absent
    rcases finished.valid with ⟨kv', valid'⟩
    rw [if_neg scheduled, same]
    refine ⟨?_, rfl, rfl, rfl⟩
    have running' : j ∈ s'.running ++ [] := by
      rw [valid'.mem_running, same]
      exact ⟨known, status⟩
    rwa [List.append_nil] at running'

/-- The free pages depend on the tables alone. -/
theorem Valid.length_free_eq {held held' batch' : List SeqId} {kv' : KvStore}
    {computed computed' : Sequence → ℕ} (valid : Valid cfg ids kv computed held batch s)
    (valid' : Valid cfg ids kv' computed' held' batch' s') (same : s'.seqs = s.seqs) :
    s'.blockManager.freeBlockIds.length = s.blockManager.freeBlockIds.length := by
  rw [valid'.memory.pool.length_free, valid.memory.pool.length_free, same]

theorem PrefillState.admitResident_manager {st st' : PrefillState} {remaining : ℕ} {now : ℚ}
    (admitted : st.admitResident cfg i remaining now = .ok (.again st')) :
    st'.scheduledSeqs = st.scheduledSeqs ++ [i] ∧
      ∃ seq reused, st.scheduler.blockManager.resume cfg (st.scheduler.seqs i) =
        .ok (st'.scheduler.blockManager, seq, reused) := by
  rw [PrefillState.admitResident] at admitted
  rcases Py.exists_of_bind admitted with ⟨⟨bm', seq, reused⟩, resumed, admitted⟩
  simp only at admitted
  split at admitted
  · cases admitted
  · cases admitted
    refine ⟨rfl, seq, reused, resumed.trans ?_⟩
    simp only [PrefillState.schedulePrefill]
    split <;> rfl

/-- An iteration which has scheduled its request. -/
theorem PrefillState.Admits.scheduled_of_mem {env : ScheduleEnv cfg} {st : PrefillState}
    {control : PrefillControl} (admits : PrefillState.Admits cfg env st i control)
    (absent : i ∉ st.scheduledSeqs) (mem : i ∈ control.state.scheduledSeqs) :
    PrefillState.Schedules cfg st i control.state := by
  cases admits with
  | blocked =>
    rw [(PrefillState.allocationBlocked_state _).2.1] at mem
    exact absurd mem absent
  | forbidden =>
    rw [PrefillState.deferBudget_state] at mem
    exact absurd mem absent
  | restored => exact absurd mem absent
  | postponed => exact absurd mem absent
  | scheduled schedules => exact schedules

/-- A further chunk of the prefill of `i`. -/
theorem PrefillState.Valid.chunk {st st₁ : PrefillState} {s₂ : Scheduler} {tokenIds : List Token}
    {now later : ℚ} (valid : st.Valid cfg ids kv) (mem : i ∈ st.scheduledSeqs)
    (positive : 0 < cfg.maxNumBatchedTokens)
    (sampled : tokenIds.length = st.scheduledSeqs.length)
    (processed : st.scheduler.postprocess cfg st.scheduledSeqs tokenIds true now = .ok s₁)
    (incomplete : i ∈ s₁.waiting) (ensured : s₁.ensureResumeCapacity cfg i later = .ok (s₂, true))
    (admitted : (PrefillState.start s₂).admitResident cfg i cfg.maxNumBatchedTokens later =
      .ok (.again st₁)) :
    (∃ kv', st₁.Valid cfg ids kv') ∧ i ∈ st₁.scheduledSeqs ∧
      st.scheduler.blockManager.freeBlockIds.length ≤
        st₁.scheduler.blockManager.freeBlockIds.length ∧
      SameRequest (st.scheduler.seqs i) (st₁.scheduler.seqs i) ∧
      (∀ j, j ≠ i → st₁.scheduler.seqs j = s₁.seqs j) ∧
      ∀ j ∈ s₁.running, j ∈ st₁.scheduler.running := by
  have finished := valid.scheduler.finished (fun _ mem => valid.runReady mem) sampled processed
  rcases finished.valid with ⟨kv', valid₁⟩
  rcases valid₁.waiting incomplete with ⟨known, waits, phase₁⟩
  rcases exists_event sampled mem with ⟨tokenId, event⟩
  have idle : ∀ j ∈ s₁.waiting, (s₁.seqs j).numScheduledTokens = 0 := fun j mem' =>
    valid₁.idle (valid₁.waiting mem').1 List.not_mem_nil
  cases finished.each _ event with
  | appended _ _ _ _ _ _ _ _ status =>
    rw [waits] at status
    split at status <;> cases status
  | incomplete short same _ _ table =>
    simp only at short same table
    rcases valid.scheduler.scheduled_phase mem with ⟨-, scheduled, ⟨-, phase⟩ | ⟨-, phase⟩⟩
    swap
    · exact absurd (phase.complete scheduled) short.ne
    have tokens : (s₁.seqs i).numTokens = (st.scheduler.seqs i).numTokens :=
      congrArg List.length same.tokenIds
    have full : (s₁.seqs i).blockTable.length = (s₁.seqs i).numBlocks cfg := by
      rw [table, phase.full scheduled, Sequence.numBlocks, Sequence.numBlocks, tokens]
    have nonempty : 0 < (s₁.seqs i).numTokens := Nat.zero_lt_of_lt phase₁.short
    have owns : (s₁.seqs i).blockTable ≠ [] := by
      intro none
      have pages := @Sequence.numBlocks_pos cfg _ nonempty
      rw [none, List.length_nil] at full
      omega
    rcases valid₁.ensureResumeCapacity incomplete idle owns later with
      ⟨s₂', ready, ensured', valid₂, reclaims, able, -, kept, -⟩
    cases ensured.symm.trans ensured'
    have seqs := (kept full).1
    rcases able rfl with ⟨matched, resumable⟩
    have mem₂ : i ∈ s₂.waiting := reclaims.waiting ▸ incomplete
    have startValid := PrefillState.start_valid valid₂
    have owns₂ : ((PrefillState.start s₂).scheduler.seqs i).blockTable ≠ [] := by
      rw [show (PrefillState.start s₂).scheduler.seqs = s₁.seqs from seqs]
      exact owns
    have continued : ∃ control, (PrefillState.start s₂).admitResident cfg i
        (cfg.maxNumBatchedTokens - (PrefillState.start s₂).numBatchedTokens) later = .ok control ∧
        PrefillState.Admits cfg (System.idleEnv cfg) (PrefillState.start s₂) i control ∧
        PrefillState.Sound cfg ids kv' (PrefillState.start s₂) control :=
      startValid.admitResident positive mem₂ owns₂ resumable later
    rcases continued with ⟨control, admitted', admits, sound⟩
    cases admitted.symm.trans admitted'
    rcases PrefillState.admitResident_manager admitted with ⟨scheduledSeqs, seq, reused, resumed⟩
    have scheduledNow : i ∈ st₁.scheduledSeqs := by
      rw [scheduledSeqs]
      simp
    have schedules : PrefillState.Schedules cfg (PrefillState.start s₂) i st₁ :=
      admits.scheduled_of_mem List.not_mem_nil scheduledNow
    refine ⟨⟨kv', sound.valid⟩, scheduledNow, ?_, ?_, ?_, ?_⟩
    · -- A complete table takes no page.
      have named := (valid₂.request i known).named
      rcases valid₂.memory.resume_takes known resumable.longest
        (by rw [named]; exact resumable.planned) resumable.fits with
        ⟨bm', seq', reused', resumed', takes⟩
      cases resumed.symm.trans resumed'
      have freed := finished.free
      have kept := valid₁.length_free_eq valid₂ seqs
      rw [Takes, seqs, full, Nat.sub_self, Nat.zero_sub, Nat.add_zero] at takes
      rw [takes, kept]
      exact freed
    · have follows := sound.follows.request i
      rw [show (PrefillState.start s₂).scheduler.seqs = s₁.seqs from seqs] at follows
      exact same.trans follows
    · intro j differ
      rcases schedules.seqs with ⟨seq, updated⟩
      rw [updated, Function.update_of_ne differ]
      exact congrFun seqs j
    · intro j running
      have running₂ : j ∈ s₂.running := reclaims.running ▸ running
      rcases schedules.moved with ⟨-, -, moved⟩ | ⟨-, -, moved, -⟩
      · rw [moved]
        exact List.mem_append_left [i] running₂
      · rw [moved]
        exact running₂

theorem CompletesPrefill.prefilled {st : PrefillState} (completes : CompletesPrefill cfg i st s')
    (positive : 0 < cfg.maxNumBatchedTokens) :
    ∀ kv, st.Valid cfg ids kv → i ∈ st.scheduledSeqs → Prefilled cfg ids i st.scheduler s' := by
  induction completes with
  | @complete st s' tokenIds now sampled noEos processed completed =>
    intro kv valid mem
    have finished := valid.scheduler.finished (fun _ mem => valid.runReady mem) sampled processed
    rcases finished.valid with ⟨kv', valid'⟩
    rcases valid.scheduler.scheduled_phase mem with ⟨known, scheduled, phase⟩
    have running : i ∈ st.scheduler.running := by
      rcases phase with ⟨status, waiting⟩ | ⟨status, -⟩
      · rcases exists_event sampled mem with ⟨tokenId, event⟩
        cases finished.each _ event with
        | incomplete _ _ status' =>
          exact absurd (valid'.mem_waiting.mpr ⟨known, status'⟩) completed
        | appended complete => exact absurd complete waiting.short.ne
      · have running := valid.scheduler.mem_running.mpr ⟨known, status⟩
        rwa [List.append_nil] at running
    have computed : (st.scheduler.seqs i).computedTokens = (st.scheduler.seqs i).numTokens :=
      (valid.scheduler.running (List.mem_append_left [] running)).2.2.complete scheduled
    refine ⟨⟨kv', valid'⟩, finished.free, ?_⟩
    intro j party budget
    have running' : j ∈ st.scheduler.running := by
      rw [parties, Finset.mem_insert, List.mem_toFinset] at party
      rcases party with rfl | running'
      · exact running
      · exact running'
    have pending : st.scheduler.prefillPending i j = true ↔
        0 < (st.scheduler.seqs j).numScheduledTokens := by
      rw [prefillPending, Bool.or_eq_true, decide_eq_true_eq, decide_eq_true_eq]
      refine or_iff_right_of_imp ?_
      rintro rfl
      exact scheduled
    simp only [prefilledCompletion, pending] at budget ⊢
    rcases valid.round sampled noEos processed running' budget with
      ⟨running', computed', completion, maxTokens⟩
    refine ⟨running', ?_, completion, maxTokens⟩
    rw [computed', prefilledTokens]
    split
    · next self =>
      rw [self]
      exact computed
    · rfl
  | @chunk st st₁ s₁ s₂ s' tokenIds now later sampled noEos processed incomplete ensured admitted
      rest ih =>
    intro kv valid mem
    rcases valid.chunk mem positive sampled processed incomplete ensured admitted with
      ⟨⟨kv₁, valid₁⟩, mem₁, free, same, others, moved⟩
    rcases ih kv₁ valid₁ mem₁ with ⟨valid', free', party'⟩
    rcases (valid.scheduler.finished (fun _ mem => valid.runReady mem) sampled processed).valid with
      ⟨kv₀, valid₀⟩
    refine ⟨valid', free.trans free', ?_⟩
    intro j party budget
    by_cases self : j = i
    · subst self
      have tokens : (st₁.scheduler.seqs j).numTokens = (st.scheduler.seqs j).numTokens :=
        congrArg List.length same.tokenIds
      have completion : st₁.scheduler.prefilledCompletion j j =
          st.scheduler.prefilledCompletion j j := by
        simp only [prefilledCompletion, prefillPending, Sequence.numCompletionTokens, tokens,
          same.numPromptTokens, decide_true, Bool.true_or, if_true]
      have target : st₁.scheduler.prefilledTokens j j = st.scheduler.prefilledTokens j j := by
        simp only [prefilledTokens, if_true, tokens]
      have stillParty : j ∈ st₁.scheduler.parties j := Finset.mem_insert_self _ _
      have more := party' j stillParty
      rw [completion, target, same.maxTokens] at more
      exact more budget
    · have running : j ∈ st.scheduler.running := by
        simpa [parties, self] using party
      have pending : st.scheduler.prefillPending i j = true ↔
          0 < (st.scheduler.seqs j).numScheduledTokens := by
        simp [prefillPending, self]
      simp only [prefilledCompletion, pending] at budget ⊢
      rcases valid.round sampled noEos processed running budget with
        ⟨running₁, computed₁, completion₁, max₁⟩
      have idle : (s₁.seqs j).numScheduledTokens = 0 :=
        valid₀.idle (valid₀.running (List.mem_append_left [] running₁)).1 List.not_mem_nil
      have completion : st₁.scheduler.prefilledCompletion i j = (s₁.seqs j).numCompletionTokens := by
        simp [prefilledCompletion, prefillPending, self, others j self, idle]
      have target : st₁.scheduler.prefilledTokens i j = (s₁.seqs j).computedTokens := by
        simp [prefilledTokens, self, others j self]
      have stillParty : j ∈ st₁.scheduler.parties i := by
        simp [parties, moved j running₁]
      have more := party' j stillParty
      rw [completion, target, others j self, completion₁, computed₁, max₁] at more
      rw [prefilledTokens, if_neg self]
      exact more budget

/-! ## The admission -/

/-- An admitted request has taken the pages of the capacity check. -/
theorem PrefillState.Valid.admitFresh_takes {env : ScheduleEnv cfg} {st st₁ : PrefillState} {now : ℚ}
    {remaining : ℕ} (valid : st.Valid cfg ids kv) (mem : i ∈ st.scheduler.waiting)
    (table : (st.scheduler.seqs i).blockTable = []) (absent : i ∉ st.scheduledSeqs)
    (admitted : st.admitFresh cfg env i remaining now = .ok (.again st₁))
    (scheduled : i ∈ st₁.scheduledSeqs) :
    st.scheduler.blockManager.Takes
      (st.scheduler.blockManager.admissionPages cfg (st.scheduler.seqs i))
      st₁.scheduler.blockManager := by
  rcases valid.scheduler.waiting mem with ⟨known, status, -⟩
  have exactly := valid.scheduler.admissionExact known status table
  rw [PrefillState.admitFresh] at admitted
  cases looked : st.scheduler.blockManager.canAllocate cfg (st.scheduler.seqs i) with
  | mk bm cached =>
    rw [looked] at admitted
    cases cached with
    | none =>
      simp only [Except.ok.injEq] at admitted
      have same := (@PrefillState.allocationBlocked_state cfg i
        { st with scheduler := { st.scheduler with blockManager := bm } }).2.1
      rw [admitted] at same
      exact absurd (same ▸ scheduled) absent
    | some n =>
      simp only at admitted
      rcases Py.exists_of_bind admitted with ⟨forbidden, forbids, admitted⟩
      cases forbidden with
      | true =>
        simp only [if_true, Except.ok.injEq] at admitted
        have same := congrArg PrefillState.scheduledSeqs (@PrefillState.deferBudget_state cfg i
          { st with scheduler := { st.scheduler with
            blockManager := bm.popPendingMatch i } })
        rw [admitted] at same
        exact absurd (same ▸ scheduled) absent
      | false =>
        simp only [Bool.false_eq_true, if_false] at admitted
        rcases exactly.restore bm n env now looked with ⟨s', started, restored, -, allocates⟩
        rw [restored, Py.ok_bind] at admitted
        simp only at admitted
        cases started with
        | true =>
          simp only [if_true, Except.ok.injEq, PrefillControl.again.injEq] at admitted
          rw [← admitted] at scheduled
          exact absurd scheduled absent
        | false =>
          simp only [Bool.false_eq_true, if_false] at admitted
          rcases allocates rfl with ⟨bm', seq', allocated, takes⟩
          rw [allocated] at admitted
          split at admitted
          · cases admitted
          · cases admitted
            rw [Takes] at takes ⊢
            rw [← takes]
            simp only [PrefillState.schedulePrefill]
            split <;> rfl

/-- A request with steps left is inside its output budget. -/
theorem decodeSteps_budget {horizon n : ℕ} (left : n < s.decodeSteps i horizon j) :
    s.prefilledCompletion i j + n < (s.seqs j).maxTokens := by
  rw [decodeSteps] at left
  split at left
  · rw [prefilledCompletion]
    omega
  · cases left

/-- The admission of the candidate changes nothing that the simulation reads. -/
theorem PrefillState.Schedules.party {st st₁ : PrefillState}
    (schedules : PrefillState.Schedules cfg st i st₁)
    (follows : Follows st.scheduler st₁.scheduler) (party : j ∈ st.scheduler.parties i) :
    j ∈ st₁.scheduler.parties i ∧
      st₁.scheduler.prefilledTokens i j = st.scheduler.prefilledTokens i j ∧
      st₁.scheduler.prefilledCompletion i j = st.scheduler.prefilledCompletion i j ∧
      (st₁.scheduler.seqs j).maxTokens = (st.scheduler.seqs j).maxTokens := by
  have same := follows.request j
  refine ⟨?_, ?_, ?_, same.maxTokens⟩
  · simp only [parties, Finset.mem_insert, List.mem_toFinset] at party ⊢
    refine party.imp_right fun running => ?_
    rcases schedules.moved with ⟨-, -, moved⟩ | ⟨-, -, moved, -⟩
    · rw [moved]
      exact List.mem_append_left [i] running
    · rw [moved]
      exact running
  · by_cases self : j = i
    · simp only [prefilledTokens, self, if_true, Sequence.numTokens]
      rw [← self, same.tokenIds]
    · rcases schedules.seqs with ⟨seq, seqs⟩
      simp [prefilledTokens, self, seqs]
  · by_cases self : j = i
    · simp only [prefilledCompletion, prefillPending, self, decide_true, Bool.true_or, if_true,
        Sequence.numCompletionTokens, Sequence.numTokens]
      rw [← self, same.tokenIds, same.numPromptTokens]
    · rcases schedules.seqs with ⟨seq, seqs⟩
      simp [prefilledCompletion, prefillPending, self, seqs]

end Scheduler

namespace System

open Scheduler

variable {cfg : Config} {Allowed : System → Op cfg → Prop} {sys : System} {env : ScheduleEnv cfg}
  {now : ℚ} {st : PrefillState} {i : SeqId}

/-- The states inside the prefill phase, before and after a request has been selected. -/
inductive InsidePrefill (cfg : Config) (sys : System) (env : ScheduleEnv cfg) (now : ℚ) :
    PrefillState → Prop
  | head {st : PrefillState} (prefilling : Prefilling cfg sys env now st) :
      InsidePrefill cfg sys env now st
  | selected {st : PrefillState} {i : SeqId} (prefilling : Prefilling cfg sys env now st)
      (mem : i ∈ st.scheduler.waiting) (budget : Option ℚ) :
      InsidePrefill cfg sys env now { st with scheduler := st.scheduler.withBudget i budget }

theorem InsidePrefill.valid (inside : InsidePrefill cfg sys env now st) (valid : sys.Valid cfg) :
    st.Valid cfg sys.known.toFinset sys.kv := by
  cases inside with
  | head prefilling => exact prefilling.valid valid
  | selected prefilling mem budget => exact (prefilling.valid valid).withBudget mem budget

/-- The admission of the candidate, the completion of its prefill, and decode steps after it. -/
structure Simulates (cfg : Config) (env : ScheduleEnv cfg) (now : ℚ) (st : PrefillState)
    (i : SeqId) (horizon : ℕ) (rounds : List (List SeqId)) (batch : List SeqId) (pages : ℕ)
    (s₂ : Scheduler) : Prop where
  budget : st.numBatchedTokens < cfg.maxNumBatchedTokens
  within : ∀ j, (rounds.flatten ++ batch).count j ≤ st.scheduler.decodeSteps i horizon j
  run : ∃ st₁ s' s₁ n n', st.admitFresh cfg env i (cfg.maxNumBatchedTokens - st.numBatchedTokens)
      now = .ok (.again st₁) ∧ i ∈ st₁.scheduledSeqs ∧ CompletesPrefill cfg i st₁ s' ∧
    DecodeRounds cfg s' rounds n s₁ ∧ AppendsAll cfg s₁ batch n' s₂ ∧ n + n' = pages

/-- The reserve of the candidate. -/
def reservePages (cfg : Config) (st : PrefillState) (i : SeqId) (horizon : ℕ) : ℕ :=
  priorityReservePages cfg (st.scheduler.seqs i) (st.scheduler.running.map st.scheduler.seqs)
    horizon

/-- What a simulation leaves behind. -/
structure Simulated (cfg : Config) (st : PrefillState) (i : SeqId) (horizon : ℕ)
    (order batch : List SeqId) (pages : ℕ) (s₂ : Scheduler) : Prop where
  members : ∀ j ∈ order, j ∈ st.scheduler.parties i
  paid : pages = cost (pagePrice cfg) (st.scheduler.prefilledTokens i) order
  free : st.scheduler.blockManager.freeBlockIds.length ≤ s₂.blockManager.freeBlockIds.length +
    st.scheduler.blockManager.admissionPages cfg (st.scheduler.seqs i) + pages
  next : ∀ j, j ∉ batch → order.count j < st.scheduler.decodeSteps i horizon j →
    j ∈ s₂.running ∧ (if startsPage cfg (s₂.seqs j) then 1 else 0) =
      pagePrice cfg (st.scheduler.prefilledTokens i j + order.count j)

theorem Simulates.simulated {ids : Finset SeqId} {kv : KvStore} {horizon pages : ℕ}
    {rounds : List (List SeqId)} {batch : List SeqId} {s₂ : Scheduler}
    (simulates : Simulates cfg env now st i horizon rounds batch pages s₂)
    (valid : st.Valid cfg ids kv) (mem : i ∈ st.scheduler.waiting)
    (table : (st.scheduler.seqs i).blockTable = []) :
    Simulated cfg st i horizon (rounds.flatten ++ batch) batch pages s₂ := by
  rcases simulates with ⟨budget, within, st₁, s', s₁, n, n', admitted, scheduled, completes, run,
    appends, total⟩
  have absent := valid.notScheduled budget mem
  rcases valid.admitFresh env budget mem table now with ⟨control, admitted', admits, sound⟩
  cases admitted.symm.trans admitted'
  have schedules : PrefillState.Schedules cfg st i st₁ := admits.scheduled_of_mem absent scheduled
  have takes := valid.admitFresh_takes mem table absent admitted scheduled
  have positive : 0 < cfg.maxNumBatchedTokens := Nat.zero_lt_of_lt budget
  have prefilled := completes.prefilled positive kv sound.valid scheduled
  rcases prefilled.valid with ⟨kv', valid'⟩
  have decoded := run.decoded kv' valid'
  rcases decoded.valid with ⟨kv₁, valid₁⟩
  have appended := appends.appended [] ⟨valid₁, nofun⟩
  have members : ∀ j ∈ rounds.flatten ++ batch, j ∈ st.scheduler.parties i ∧
      0 < st.scheduler.decodeSteps i horizon j := by
    intro j mem'
    have steps := (List.count_pos_iff.mpr mem').trans_le (within j)
    exact ⟨mem_parties_of_steps steps, steps⟩
  have party : ∀ j, ∀ n < st.scheduler.decodeSteps i horizon j, j ∈ s'.running ∧
      (s'.seqs j).computedTokens = st.scheduler.prefilledTokens i j ∧
      (s'.seqs j).numCompletionTokens + n < (s'.seqs j).maxTokens := by
    intro j n left
    rcases schedules.party sound.follows (mem_parties_of_steps (Nat.zero_lt_of_lt left)) with
      ⟨party₁, tokens, completion, maxTokens⟩
    have within' := decodeSteps_budget left
    have more := prefilled.party j party₁
    rw [completion, tokens, maxTokens] at more
    rcases more (by omega) with ⟨running, computed, completion', maxTokens'⟩
    exact ⟨running, computed, by omega⟩
  refine ⟨fun j mem' => (members j mem').1, ?_, ?_, ?_⟩
  · rw [← total, decoded.paid, appended.paid]
    have later : cost (pagePrice cfg) (fun j => (s₁.seqs j).computedTokens) batch =
        cost (pagePrice cfg) (fun j => (s'.seqs j).computedTokens + rounds.flatten.count j)
          batch := by
      apply cost_congr
      intro j mem'
      exact (decoded.counted j (appended.members j mem')).2
    rw [later, ← cost_append]
    apply cost_congr
    intro j mem'
    exact (party j 0 (members j mem').2).2.1
  · have kept := prefilled.free
    have decodedFree := decoded.free
    have appendedFree := appended.free
    rw [Takes] at takes
    omega
  · intro j absent' left
    have counted : (rounds.flatten ++ batch).count j = rounds.flatten.count j := by
      rw [List.count_append, List.count_eq_zero_of_not_mem absent', Nat.add_zero]
    rw [counted] at left ⊢
    rcases party j _ left with ⟨running, computed, within'⟩
    rcases decoded.running j running within' with ⟨running₁, computed₁, -, -⟩
    refine ⟨(appended.running j absent').mpr running₁, ?_⟩
    rcases valid₁.running (List.mem_append_left [] running₁) with ⟨known, -, phase⟩
    rw [appended.kept j absent', phase.startsPage_price (valid₁.idle known List.not_mem_nil),
      computed₁, computed]

/-- The reserve check of the admission passes. -/
def ReservePasses (cfg : Config) (st : PrefillState) (i : SeqId) (horizon : ℕ) : Prop :=
  ∃ bm n required, st.scheduler.blockManager.canAllocate cfg (st.scheduler.seqs i) = (bm, some n) ∧
    bm.plannedAllocationPages cfg (st.scheduler.seqs i) = .ok required ∧
    (reservePages cfg st i horizon : ℤ) ≤ bm.freeBlockIds.length - required

/-- The reserve check leaves the pages of the reserve after the admission. -/
theorem ReservePasses.le {ids : Finset SeqId} {kv : KvStore} {horizon : ℕ}
    (passes : ReservePasses cfg st i horizon) (valid : st.Valid cfg ids kv)
    (mem : i ∈ st.scheduler.waiting) (table : (st.scheduler.seqs i).blockTable = []) :
    reservePages cfg st i horizon +
      st.scheduler.blockManager.admissionPages cfg (st.scheduler.seqs i) ≤
        st.scheduler.blockManager.freeBlockIds.length := by
  rcases passes with ⟨bm, n, required, looked, planned, enough⟩
  rcases valid.scheduler.waiting mem with ⟨known, status, -⟩
  have exactly := (valid.scheduler.admissionExact known status table).planned bm n looked
  cases planned.symm.trans exactly
  have free : bm.freeBlockIds = st.scheduler.blockManager.freeBlockIds := by
    rcases canAllocate_spec valid.scheduler.memory.index (st.scheduler.seqs i) with
      ⟨bm', matched, -, same, -, ⟨-, looked', -⟩ | ⟨-, looked', -⟩⟩
    · cases looked.symm.trans looked'
      exact same.freeBlockIds
    · cases looked.symm.trans looked'
  rw [free] at enough
  omega

/-- The check of the scheduler, when it has a reserve and running requests. -/
theorem reserveForbids_iff {bm : BlockManager} {n : ℕ} (enabled : cfg.kvAdmissionLookahead ≠ 0)
    (busy : st.scheduler.running ≠ [])
    (looked : st.scheduler.blockManager.canAllocate cfg (st.scheduler.seqs i) = (bm, some n)) :
    PrefillState.reserveForbids cfg { st.scheduler with blockManager := bm } i = .ok false ↔
      ReservePasses cfg st i cfg.kvAdmissionLookahead := by
  rw [PrefillState.reserveForbids, if_pos ⟨enabled, busy⟩]
  simp only [ReservePasses, looked, Prod.mk.injEq, Option.some.injEq]
  cases planned : bm.plannedAllocationPages cfg (st.scheduler.seqs i) with
  | error error =>
    refine iff_of_false nofun ?_
    rintro ⟨_, _, required, ⟨rfl, -⟩, planned', -⟩
    cases planned.symm.trans planned'
  | ok required =>
    rw [Py.ok_bind, Except.ok.injEq, decide_eq_false_iff_not, not_lt]
    constructor
    · intro enough
      exact ⟨bm, n, required, ⟨rfl, rfl⟩, planned, enough⟩
    · rintro ⟨_, _, required', ⟨rfl, -⟩, planned', enough⟩
      cases planned.symm.trans planned'
      exact enough

/-- Inside the prefill phase the reserve of a candidate without pages equals the pages which
`may_append` takes, whatever the interleaving. When the reserve check passes no decode step of the
simulation finds `can_append` false. -/
theorem reserve_exact (reachable : ReachableBy cfg Allowed sys)
    (inside : InsidePrefill cfg sys env now st) (mem : i ∈ st.scheduler.waiting)
    (table : (st.scheduler.seqs i).blockTable = []) (horizon : ℕ) :
    (∀ tokenIds later events,
      (∀ j, (events.map DecodeEvent.request).count j = st.scheduler.decodeSteps i horizon j) →
        appendedPages cfg (st.scheduler.prefilled i tokenIds later) events =
          reservePages cfg st i horizon) ∧
    ∀ rounds batch pages s₂, Simulates cfg env now st i horizon rounds batch pages s₂ →
      ((∀ j, (rounds.flatten ++ batch).count j = st.scheduler.decodeSteps i horizon j) →
        pages = reservePages cfg st i horizon) ∧
      (ReservePasses cfg st i horizon → ∀ j, j ∉ batch →
        (rounds.flatten ++ batch).count j < st.scheduler.decodeSteps i horizon j →
          j ∈ s₂.running ∧ s₂.blockManager.canAppend cfg (s₂.seqs j) = true) := by
  have valid := inside.valid reachable.valid
  constructor
  · intro tokenIds later events complete
    exact valid.scheduler.appendedPages_eq mem horizon tokenIds later complete
  · intro rounds batch pages s₂ simulates
    have simulated := simulates.simulated valid mem table
    have reserve := priorityReservePages_eq valid.scheduler mem horizon
    constructor
    · intro complete
      rw [simulated.paid, reservePages, reserve]
      exact cost_complete simulated.members complete
    · intro passes j absent left
      rcases simulated.next j absent left with ⟨running, price⟩
      refine ⟨running, ?_⟩
      have party : j ∈ st.scheduler.parties i := mem_parties_of_steps (Nat.zero_lt_of_lt left)
      have spends := @cost_next_le _ _ (pagePrice cfg) (st.scheduler.prefilledTokens i) _ _ _
        simulated.members simulates.within _ party left
      have enough := passes.le valid mem table
      have free := simulated.free
      have paid := simulated.paid
      rw [reservePages, reserve] at enough
      rw [canAppend, decide_eq_true_eq, price]
      omega

/-- Eight pages of two tokens, with a reserve for two decode steps. -/
def twoStepReserve : Config :=
  { defaultConfig 2 8 2 two_le_two with kvAdmissionLookahead := 2 }

/-- A running request, and a waiting one of the same priority. -/
def candidateRun : System := (init twoStepReserve).runOps twoStepReserve
  [.add (plainRequest 0 3 4) 0, .schedule (idleEnv _), .postprocess [5] 1 1,
    .add (plainRequest 1 4 4) 0]

/-- The prefill phase has not yet selected the waiting request. -/
def candidateStart : PrefillState := .start candidateRun.scheduler.nextStep

theorem candidateStart_simulates : ∃ pages s₂,
    Simulates twoStepReserve (idleEnv _) 0 candidateStart 1 2 [[0, 1]] [1, 0] pages s₂ := by
  have run : (match candidateStart.admitFresh twoStepReserve (idleEnv _) 1 16384 0 with
      | .ok (.again st₁) =>
          match st₁.scheduler.postprocess twoStepReserve st₁.scheduledSeqs [7] true 2 with
          | .ok s' =>
              match appendAll twoStepReserve s' [0, 1] with
              | some (_, s₁) =>
                  match ({ s₁ with running := [0, 1] ++ s₁.running } : Scheduler).postprocess
                    twoStepReserve [0, 1] [7, 8] false 3 with
                  | .ok s₂ => st₁.scheduledSeqs = [1] ∧ 1 ∉ s'.waiting ∧
                      (appendAll twoStepReserve s₂ [1, 0]).isSome
                  | .error _ => false
              | none => false
          | .error _ => false
      | _ => false) = true := by decide +kernel
  have noEos : ∀ (requests : List SeqId) (tokenIds : List Token) (seqs : SeqId → Sequence),
      (∀ tokenId ∈ tokenIds, tokenId ≠ -1) → ∀ event ∈ requests.zip tokenIds,
        (seqs event.1).ignoreEos = true ∨ event.2 ≠ twoStepReserve.eos := by
    intro requests tokenIds seqs proper event mem
    exact .inr (proper event.2 (List.of_mem_zip mem).2)
  split at run
  · next st₁ admitted =>
    split at run
    · next s' prefilled =>
      split at run
      · next n s₁ first =>
        split at run
        · next s₂ processed =>
          rcases of_decide_eq_true run with ⟨scheduled, completed, more⟩
          rcases Option.isSome_iff_exists.mp more with ⟨⟨n', s₃⟩, second⟩
          have sampled : [(7 : Token)].length = st₁.scheduledSeqs.length := by rw [scheduled]; rfl
          have rounds : DecodeRounds twoStepReserve s' [[0, 1]] (n + 0) s₂ :=
            .next (appendAll_sound [0, 1] s' (n, s₁) first) rfl
              (noEos _ _ _ (by decide)) processed (.done s₂)
          refine ⟨_, s₃, by decide +kernel, ?_, st₁, s', s₂, _, n', admitted, ?_, ?_, rounds,
            appendAll_sound [1, 0] s₂ (n', s₃) second, rfl⟩
          · intro j
            by_cases mem : j ∈ [[0, 1]].flatten ++ [1, 0]
            · revert j
              decide +kernel
            · rw [List.count_eq_zero_of_not_mem mem]
              exact Nat.zero_le _
          · rw [scheduled]
            exact List.mem_singleton_self 1
          · exact .complete sampled (noEos _ _ _ (by decide)) prefilled completed
        · cases run
      · cases run
    · cases run
  · cases run

theorem reserve_exact_candidateStart :
    (∃ s₂, Simulates twoStepReserve (idleEnv _) 0 candidateStart 1 2 [[0, 1]] [1, 0]
      (reservePages twoStepReserve candidateStart 1 2) s₂) ∧
    ∀ rounds batch pages s₂,
      Simulates twoStepReserve (idleEnv _) 0 candidateStart 1 2 rounds batch pages s₂ →
        ∀ j, j ∉ batch → (rounds.flatten ++ batch).count j <
          candidateStart.scheduler.decodeSteps 1 2 j →
            s₂.blockManager.canAppend twoStepReserve (s₂.seqs j) = true := by
  have reachable : Reachable twoStepReserve candidateRun :=
    ReachableBy.runOps .init (by decide +kernel)
  have prefilling : Prefilling twoStepReserve candidateRun (idleEnv _) 0 candidateStart :=
    .reach (.first (by decide +kernel)) (by decide +kernel) .start
  rcases reserve_exact reachable (.head prefilling) (i := 1) (by decide +kernel)
    (by decide +kernel) 2 with ⟨-, simulations⟩
  constructor
  · rcases candidateStart_simulates with ⟨pages, s₂, simulates⟩
    have paid := (simulations _ _ _ _ simulates).1
    rw [← paid ?_]
    · exact ⟨s₂, simulates⟩
    · intro j
      refine le_antisymm (simulates.within j) ?_
      rcases Nat.eq_zero_or_pos (candidateStart.scheduler.decodeSteps 1 2 j) with none | steps
      · rw [none]
        exact Nat.zero_le _
      · have party := mem_parties_of_steps steps
        clear steps
        revert j
        decide +kernel
  · intro rounds batch pages s₂ simulates j absent left
    refine ((simulations _ _ _ _ simulates).2 ?_ j absent left).2
    have passes : (match candidateStart.scheduler.blockManager.canAllocate twoStepReserve
        (candidateStart.scheduler.seqs 1) with
      | (bm, some _) =>
          match PrefillState.reserveForbids twoStepReserve
            { candidateStart.scheduler with blockManager := bm } 1 with
          | .ok forbidden => !forbidden
          | .error _ => false
      | (_, none) => false) = true := by decide +kernel
    split at passes
    · next bm n looked =>
      split at passes
      · next forbidden forbids =>
        rw [Bool.not_eq_true'] at passes
        rw [passes] at forbids
        exact (reserveForbids_iff (by decide) (by decide +kernel) looked).mp forbids
      · cases passes
    · cases passes

end System

end NanoVllm
