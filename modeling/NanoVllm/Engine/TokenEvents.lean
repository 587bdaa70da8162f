import NanoVllm.Engine.Runs

/-!
# The token events of the engine

`step()` reports a token of a request when its completion has grown. In every reachable state the
reported tokens of a request are its completion, so the tokens of an output are those which the
steps have reported before.
-/

namespace NanoVllm

namespace System

variable {cfg : Config} {Allowed : System → Op cfg → Prop} {sys sys' : System} {op : Op cfg}
  {i : SeqId}

/-- The tokens of a request in a list of token events. -/
def tokensOf (events : List (SeqId × Token)) (i : SeqId) : List Token :=
  (events.filter fun event => event.1 = i).map Prod.snd

/-- The tokens of a request which the steps have reported so far. -/
def reported (sys : System) (i : SeqId) : List Token := tokensOf sys.events i

theorem tokensOf_append (events events' : List (SeqId × Token)) (i : SeqId) :
    tokensOf (events ++ events') i = tokensOf events i ++ tokensOf events' i := by
  simp [tokensOf]

theorem tokensOf_cons_self (i : SeqId) (tokenId : Token) (events : List (SeqId × Token)) :
    tokensOf ((i, tokenId) :: events) i = tokenId :: tokensOf events i := by
  simp [tokensOf]

theorem tokensOf_cons_of_ne {j : SeqId} (differ : j ≠ i) (tokenId : Token)
    (events : List (SeqId × Token)) : tokensOf ((j, tokenId) :: events) i = tokensOf events i := by
  simp [tokensOf, differ]

theorem tokensOf_eq_nil {events : List (SeqId × Token)} (absent : i ∉ events.map Prod.fst) :
    tokensOf events i = [] := by
  rw [tokensOf, List.map_eq_nil_iff, List.filter_eq_nil_iff]
  intro event mem same
  exact absent (List.mem_map.mpr ⟨event, mem, by simpa using same⟩)

/-- A kept event of a request is the only one when the requests are distinct. -/
theorem tokensOf_filter {events : List (SeqId × Token)} {keep : SeqId × Token → Bool}
    {tokenId : Token} (distinct : (events.map Prod.fst).Nodup) (mem : (i, tokenId) ∈ events) :
    tokensOf (events.filter keep) i = if keep (i, tokenId) then [tokenId] else [] := by
  induction events with
  | nil => cases mem
  | cons event events ih =>
    rw [List.map_cons, List.nodup_cons] at distinct
    rcases List.mem_cons.mp mem with rfl | later
    · have absent : i ∉ (events.filter keep).map Prod.fst := fun kept =>
        distinct.1 ((List.filter_sublist.map _).subset kept)
      by_cases kept : keep (i, tokenId)
      · rw [List.filter_cons_of_pos kept, tokensOf_cons_self, tokensOf_eq_nil absent, if_pos kept]
      · rw [List.filter_cons_of_neg kept, tokensOf_eq_nil absent, if_neg kept]
    · have differ : event.1 ≠ i := by
        rintro rfl
        exact distinct.1 (List.mem_map.mpr ⟨_, later, rfl⟩)
      rw [← ih distinct.2 later]
      by_cases kept : keep event
      · rw [List.filter_cons_of_pos kept]
        exact tokensOf_cons_of_ne differ event.2 _
      · rw [List.filter_cons_of_neg kept]

/-! ## One step -/

/-- A batch appends the tokens which are reported for it. -/
theorem completion_processesAll {events : List (SeqId × Token)} {s s' : Scheduler}
    (processes : Scheduler.ProcessesAll cfg events s s') (distinct : (events.map Prod.fst).Nodup)
    (prompt : (s.seqs i).numPromptTokens ≤ (s.seqs i).numTokens) :
    (s'.seqs i).completionTokenIds =
      (s.seqs i).completionTokenIds ++ tokensOf (tokenEvents s.seqs s'.seqs events) i := by
  rcases processes.each distinct with ⟨others, each⟩
  by_cases member : i ∈ events.map Prod.fst
  · rcases List.mem_map.mp member with ⟨⟨j, tokenId⟩, event, named⟩
    have same : i = j := named.symm
    subst same
    rw [tokenEvents, tokensOf_filter distinct event]
    cases each _ event with
    | incomplete short same =>
      have completion : (s'.seqs i).numCompletionTokens = (s.seqs i).numCompletionTokens := by
        simp only [Sequence.numCompletionTokens, Sequence.numTokens, same.tokenIds,
          same.numPromptTokens]
      rw [if_neg (by simp [completion]), List.append_nil, Sequence.completionTokenIds,
        same.tokenIds, same.numPromptTokens]
      rfl
    | appended complete tokenIds numPromptTokens =>
      have grown : (s.seqs i).numCompletionTokens < (s'.seqs i).numCompletionTokens := by
        simp only [Sequence.numCompletionTokens, Sequence.numTokens, tokenIds, numPromptTokens,
          List.length_append, List.length_singleton] at prompt ⊢
        omega
      rw [if_pos (by simp [grown]), Sequence.completionTokenIds, tokenIds, numPromptTokens,
        List.drop_append_of_le_length prompt]
      rfl
  · have absent : i ∉ (tokenEvents s.seqs s'.seqs events).map Prod.fst := fun kept =>
      member ((List.filter_sublist.map _).subset kept)
    rw [others i member, tokensOf_eq_nil absent, List.append_nil]

/-- Only `postprocess` changes the tokens of a request. -/
theorem Steps.tokenIds (steps : Steps cfg sys op sys') (enabled : sys.Enabled op)
    (known : i ∈ sys.known) (notPostprocess : ∀ tokenIds elapsedMs now,
      op ≠ .postprocess tokenIds elapsedMs now) :
    (sys'.scheduler.seqs i).tokenIds = (sys.scheduler.seqs i).tokenIds ∧
      sys'.events = sys.events := by
  cases steps with
  | @add request now =>
    have other : i ≠ request.seqId := by
      rintro rfl
      exact enabled.2 known
    refine ⟨?_, rfl⟩
    exact congrArg Sequence.tokenIds (Function.update_of_ne other _ _)
  | schedule idle schedules =>
    rcases schedules.follows with ⟨stepId, -, follows⟩
    exact ⟨(follows.request i).tokenIds, rfl⟩
  | postprocess flying written sampled processes => exact absurd rfl (notPostprocess _ _ _)
  | runFailed => exact ⟨rfl, rfl⟩
  | @cancel j now s' _ _ cancels =>
    refine ⟨?_, rfl⟩
    change (s'.seqs i).tokenIds = _
    rw [cancels.seqs]
    by_cases same : i = j
    · subst same
      rw [Function.update_self]
      rfl
    · rw [Function.update_of_ne same]
  | cancelNothing => exact ⟨rfl, rfl⟩
  | @completeRemoteRestore state now s' _ ends =>
    refine ⟨?_, rfl⟩
    change (s'.seqs i).tokenIds = _
    rw [ends.seqs]
    by_cases same : i = state.sequence
    · subst same
      rw [Function.update_self]
      exact ends.request.tokenIds
    · rw [Function.update_of_ne same]
  | @failRemoteRestore state now error garbage s' _ ends =>
    refine ⟨?_, rfl⟩
    change (s'.seqs i).tokenIds = _
    rw [ends.seqs]
    by_cases same : i = state.sequence
    · subst same
      rw [Function.update_self]
      exact ends.request.tokenIds
    · rw [Function.update_of_ne same]

/-! ## Every run -/

/-- What has been reported of a request. -/
structure Reports (sys : System) (i : SeqId) : Prop where
  known : i ∈ sys.known → sys.reported i = (sys.scheduler.seqs i).completionTokenIds
  unknown : i ∉ sys.known → sys.reported i = []

theorem Reports.of_same (reports : sys.Reports i) (known : i ∈ sys'.known ↔ i ∈ sys.known)
    (completion : i ∈ sys.known → (sys'.scheduler.seqs i).completionTokenIds =
      (sys.scheduler.seqs i).completionTokenIds)
    (events : sys'.events = sys.events) : sys'.Reports i := by
  have same : sys'.reported i = sys.reported i := by
    rw [reported, events]
    rfl
  constructor
  · intro mem
    have old := known.mp mem
    rw [same, reports.known old, completion old]
  · intro absent
    rw [same]
    exact reports.unknown fun old => absent (known.mpr old)

theorem Valid.postprocess_reports (valid : sys.Valid cfg) {tokenIds : List Token}
    {elapsedMs now : ℚ} (steps : Steps cfg sys (.postprocess tokenIds elapsedMs now) sys')
    (reports : sys.Reports i) : sys'.Reports i := by
  cases steps with
  | @postprocess _ _ _ inFlight writes s' flying written sampled processes =>
    have batch : inFlight.seqs = sys.batch := (batch_of_some flying).symm
    have requests : (inFlight.seqs.zip tokenIds).map Prod.fst = sys.batch := by
      rw [List.map_fst_zip sampled.ge, batch]
    have distinct : ((inFlight.seqs.zip tokenIds).map Prod.fst).Nodup := by
      rw [requests]
      exact valid.scheduler.batch_distinct
    constructor
    · intro known
      have wellFormed := valid.scheduler.request i (List.mem_toFinset.mpr known)
      change tokensOf (sys.events ++ _) i = (s'.seqs i).completionTokenIds
      rw [completion_processesAll processes distinct wellFormed.prompt_le, tokensOf_append]
      exact congrArg (· ++ _) (reports.known known)
    · intro unknown
      change tokensOf (sys.events ++ _) i = []
      have absent : i ∉ (tokenEvents sys.scheduler.seqs s'.seqs
          (inFlight.seqs.zip tokenIds)).map Prod.fst := by
        intro kept
        have mem := (List.filter_sublist.map _).subset kept
        rw [requests, batch.symm] at mem
        exact unknown (valid.batch_mem flying mem).1
      rw [tokensOf_append, tokensOf_eq_nil absent, List.append_nil]
      exact reports.unknown unknown

/-- An operation keeps the reported tokens and the completions together. -/
theorem Valid.reports (valid : sys.Valid cfg) (enabled : sys.Enabled op)
    (steps : Steps cfg sys op sys') (reports : ∀ i, sys.Reports i) (i : SeqId) :
    sys'.Reports i := by
  rcases postprocess_or_other op with ⟨tokenIds, elapsedMs, now, rfl⟩ | other
  · exact valid.postprocess_reports steps (reports i)
  · have completion : i ∈ sys.known → (sys'.scheduler.seqs i).completionTokenIds =
        (sys.scheduler.seqs i).completionTokenIds := by
      intro known
      rw [Sequence.completionTokenIds, (steps.tokenIds enabled known other).1,
        (steps.settings enabled known).numPromptTokens]
      rfl
    rcases steps.known with same | ⟨request, now, rfl, more, self⟩
    · apply (reports i).of_same (by rw [same]) completion
      cases steps <;> first | rfl | exact absurd rfl (other _ _ _)
    · cases steps
      by_cases fresh : i = request.seqId
      · subst fresh
        constructor
        · intro _
          have none := (reports request.seqId).unknown enabled.2
          rw [self]
          exact none.trans (List.drop_length (l := request.prompt)).symm
        · intro absent
          exact (reports request.seqId).unknown enabled.2
      · apply (reports i).of_same _ completion rfl
        rw [more, List.mem_append, List.mem_singleton]
        exact or_iff_left fresh

/-- In every reachable state the reported tokens of a request are its completion. -/
theorem ReachableBy.reports (reachable : ReachableBy cfg Allowed sys) : ∀ i, sys.Reports i := by
  refine @ReachableBy.induction cfg sys Allowed (fun sys => ∀ i, sys.Reports i) ?_ ?_ reachable
  · intro i
    exact ⟨nofun, fun _ => rfl⟩
  · intro sys sys' op _ valid _ enabled steps reports
    exact valid.reports enabled steps reports

end System

end NanoVllm
