import NanoVllm.Fleet.Engines
import NanoVllm.RemoteCatalog.Documents

/-!
# A fleet refines a model which serves one request

Whatever the engines of a fleet store, restore, lose and start again, each of them runs as the
serving loop alone would, and its KV cache holds what the model makes of the requests. So also a
request whose pages another engine has computed gets the completion of the model.
-/

namespace NanoVllm

open Transfer RemoteRestore StorageBackend ModelRunner

variable {F : Type} {sharing : Sharing F} {members : ℕ → Member sharing}

namespace Fleet

variable {fleet fleet' : Fleet sharing.shape}

/-- The invariant of a fleet. -/
structure Valid (sharing : Sharing F) (members : ℕ → Member sharing)
    (fleet : Fleet sharing.shape) : Prop where
  objects : ∀ key, ∀ payload ∈ fleet.objects key, sharing.Genuine key payload
  engines : ∀ e, (fleet.engines e).Valid sharing (members e)

namespace Valid

theorem setEngine (valid : fleet.Valid sharing members) {e : ℕ} {engine : Engine sharing.shape}
    {objects : String → Option Payload}
    (genuine : ∀ key, ∀ payload ∈ objects key, sharing.Genuine key payload)
    (validEngine : engine.Valid sharing (members e)) :
    ({ objects, engines := Function.update fleet.engines e engine } : Fleet sharing.shape).Valid
      sharing members where
  objects := genuine
  engines := by
    intro other
    by_cases same : other = e
    · subst same
      dsimp only
      rw [Function.update_self]
      exact validEngine
    · dsimp only
      rw [Function.update_of_ne same]
      exact valid.engines other

/-- Every step keeps the invariant. -/
theorem step (valid : fleet.Valid sharing members) (steps : fleet.Steps sharing members fleet') :
    fleet'.Valid sharing members := by
  cases steps with
  | @engine e engine steps =>
    have validEngine := ((valid.engines e).withObjects valid.objects).step steps
    apply valid.setEngine _ validEngine
    intro key payload held
    exact (validEngine.service.carries key).object payload held
  | restart => exact valid.setEngine valid.objects (.start sharing _ _ valid.objects)
  | @disturb key object genuine =>
    refine ⟨?_, valid.engines⟩
    intro other payload held
    by_cases same : other = key
    · subst same
      dsimp only at held
      rw [Function.update_self] at held
      exact genuine payload held
    · dsimp only at held
      rw [Function.update_of_ne same] at held
      exact valid.objects other payload held

end Valid

theorem Reachable.valid (reachable : Reachable sharing members fleet) :
    fleet.Valid sharing members := by
  induction reachable with
  | start genuine => exact ⟨genuine, fun e => .start sharing _ _ genuine⟩
  | step _ steps ih => exact ih.step steps

/-- A step of an engine which sees the objects of the backend. -/
theorem Reachable.engineStep {others : ℕ → Engine sharing.shape} {e : ℕ}
    {engine engine' : Engine sharing.shape}
    (reachable : Reachable sharing members
      { objects := engine.objects, engines := Function.update others e engine })
    (steps : engine.Steps sharing (members e) engine') :
    Reachable sharing members
      { objects := engine'.objects, engines := Function.update others e engine' } := by
  have same : (Function.update others e engine e).withObjects engine.objects = engine := by
    rw [Function.update_self]
    rfl
  have seen : ((Function.update others e engine e).withObjects engine.objects).Steps sharing
      (members e) engine' := by
    rw [same]
    exact steps
  have stepped := reachable.step (.engine seen)
  dsimp only at stepped
  rw [Function.update_idem] at stepped
  exact stepped

/-! ## What an engine offers -/

namespace Engine

variable {member : Member sharing} {engine : Engine sharing.shape}

/-- The cached positions of an uncompressed request hold what the model makes of its tokens. -/
def CachesTokens (sharing : Sharing F) (cfg : Config) (engine : Engine sharing.shape)
    (seq : Sequence) : Prop :=
  ∀ position < seq.numCachedTokens,
    ∃ blockId, seq.blockTable[position / cfg.blockSize]? = some blockId ∧
      sharing.model.entry (seq.tokenIds.take (position + 1)) =
        some (engine.memory.slot (blockId * cfg.blockSize + position % cfg.blockSize))

/-- An engine which answers as one with the model alone. -/
structure Refines (sharing : Sharing F) (cfg : Config) (engine : Engine sharing.shape) :
    Prop where
  runs : System.Reachable cfg engine.system
  caches : engine.computed = none → ∀ i ∈ engine.system.known,
    (engine.system.scheduler.seqs i).kvCompressed = false →
      engine.CachesTokens sharing cfg (engine.system.scheduler.seqs i)
  completes : cfg.kvCompressionPolicy = .none → ∀ i ∈ engine.system.known,
    (engine.system.scheduler.seqs i).status = .finished →
      (engine.system.scheduler.seqs i).completionTokenIds =
        completeAlone cfg sharing.model.next (engine.system.scheduler.seqs i)

theorem Valid.refines (valid : engine.Valid sharing member) :
    engine.Refines sharing member.cfg where
  runs := valid.reachable.imp fun _ _ _ => trivial
  caches := by
    intro between i known uncompressed position cached
    have scheduler := valid.reachable.valid.scheduler
    rcases scheduler.cachedPage (List.mem_toFinset.mpr known) uncompressed cached with
      ⟨blockId, entry, holds⟩
    exact ⟨blockId, entry, valid.between between _ _ holds⟩
  completes := by
    intro policy i known finished
    have reachable := valid.reachable.imp fun _ _ sampled => sampled policy
    exact ((reachable.generates policy i known).finished finished).symm

/-- What the backend holds for a page of a request is what the model makes of its tokens. -/
structure NamesPage (sharing : Sharing F) (objects : String → Option Payload) (pageIndex : ℕ)
    (prefixTokenIds : List Token) (descriptor : RemoteCatalog.RemotePageDescriptor) : Prop where
  place : descriptor.pageIndex = pageIndex
  identity : descriptor.identity = (sharing.digest, 0)
  made : sharing.pageKey pageIndex prefixTokenIds = .ok descriptor.objectKey
  stored : ∀ payload ∈ objects descriptor.objectKey, ∀ record,
    KVPageCodec.decode sharing.pageEnv payload
      (expectations sharing.pageEnv 0 sharing.shape sharing.digest pageIndex) maxPayloadBytes =
        .ok record →
    sharing.PageBytes pageIndex prefixTokenIds record.payload

/-- The candidates of an engine are pages of the request itself. -/
def PlansOwnPages (sharing : Sharing F) (member : Member sharing)
    (objects : String → Option Payload) (engine : Engine sharing.shape) : Prop :=
  ∀ seq localCachedBlocks prefillMsPerToken service candidate,
    engine.service.planRestore member.planner member.cfg seq localCachedBlocks
      prefillMsPerToken = .ok (service, some candidate) →
    localCachedBlocks < candidate.numBlocks ∧ candidate.numBlocks < seq.numBlocks member.cfg ∧
      ∀ i descriptor, candidate.pages[i]? = some descriptor → NamesPage sharing objects i
        (seq.tokenIds.take ((i + 1) * member.cfg.blockSize)) descriptor

theorem Valid.plansOwnPages (valid : engine.Valid sharing member)
    {objects : String → Option Payload}
    (genuine : ∀ key, ∀ payload ∈ objects key, sharing.Genuine key payload) :
    engine.PlansOwnPages sharing member objects := by
  intro seq localCachedBlocks prefillMsPerToken service candidate planned
  have matched := Service.matched_of_planRestore planned
  refine ⟨matched.extendsLocal, matched.tail, fun i descriptor get => ?_⟩
  rcases matched.pages with ⟨catalog, found⟩
  have describes := (valid.service.catalog.matchKeys found).2 i descriptor get
  have short : i + 1 ≤ seq.numBlocks member.cfg - 1 := by
    have inside := (List.getElem?_eq_some_iff.mp get).1
    have tail := matched.tail
    rw [RemoteRestoreCandidate.numBlocks] at tail
    omega
  have path : (seq.blockKeys member.cfg (seq.numBlocks member.cfg - 1)).take (i + 1) =
      Paging.pages member.cfg.blockSize seq.tokenIds (i + 1) := by
    rw [Sequence.blockKeys_eq, Paging.take_pages short]
  rw [path] at describes
  have index : descriptor.pageIndex = i := by
    have length := describes.pageIndex
    rw [Paging.length_pages] at length
    exact Nat.succ_injective length
  have made := describes.made
  rw [index, Paging.flatten_pages] at made
  refine ⟨index, describes.identity, made, fun payload held record decoded => ?_⟩
  exact (genuine _ payload held).page i _ record made decoded

end Engine

/-! ## Small fleets -/

/-- A cache of one layer with one head. -/
def unitShape : KvCacheShape where
  numLayers := 1
  blockSize := 2
  numKvHeads := 1
  headDim := 1
  dtype := .float16
  positive := ⟨Nat.one_pos, Nat.two_pos, Nat.one_pos, Nat.one_pos⟩

theorem length_tokenBytes (position : ℕ) (token : Token) (plane : ℕ) :
    (if plane < unitShape.numPlanes then [token.toNat.toUInt8, position.toUInt8] else []).length =
      if plane < unitShape.numPlanes then unitShape.cellBytes else 0 := by
  split <;> rfl

/-- A token and its position, as keys and as values. -/
def tokenBytes (position : ℕ) (token : Token) : SlotBytes unitShape where
  plane := fun plane =>
    if plane < unitShape.numPlanes then [token.toNat.toUInt8, position.toUInt8] else []
  sized := length_tokenBytes position token

theorem unit_named : "unit" ≠ "" ∧ "main" ≠ "" ∧ "float16" ≠ "" ∧ "nanovllm-kv-v1" ≠ "" := by
  decide

/-- The identity of the caches. -/
def unitIdentity : KVCacheIdentity where
  modelId := "unit"
  modelRevision := "main"
  dtype := "float16"
  tpSize := 1
  pageSize := 2
  layoutVersion := "nanovllm-kv-v1"
  named := unit_named
  positive := ⟨Nat.one_pos, Nat.two_pos⟩

/-- The key of their catalog. -/
def unitCatalogKey : String :=
  "nanovllm-kv" ++ "/" ++ unitIdentity.digest .plain ++ "/tp-" ++ toString (0 : ℤ) ++ "/catalog-v1"

theorem unitCatalogKey_made : makeKvCatalogKey .plain unitIdentity 0 = .ok unitCatalogKey := by
  have named : "nanovllm-kv" ≠ "" := by decide
  have inside : (0 : ℤ) ≤ 0 ∧ (0 : ℤ) < unitIdentity.tpSize := by decide
  rw [makeKvCatalogKey, if_neg named, if_neg (not_not.mpr inside), unitCatalogKey]

/-- A model which counts the tokens. -/
def countingSharing : Sharing Empty where
  shape := unitShape
  model := .oneLayer tokenBytes fun entries => entries.length
  identity := unitIdentity
  blake2b := .plain
  pageEnv := KVPageCodec.smallEnv
  catalogEnv := RemoteCatalog.textEnv
  catalogKey := unitCatalogKey
  catalogKey_made := unitCatalogKey_made
  loadsBack := RemoteCatalog.RemoteCatalogSnapshotCodec.loadsBack_textEnv

/-- The member with the defaults. -/
def countingMember : Member countingSharing where
  cfg := System.defaultConfig 2 2 2 System.two_le_two
  planner := none
  remoteKvPersistCatalog := false
  remoteKvWriteback := false
  remoteKvMinPrefixBlocks := 1
  blockSize := rfl

/-- A memory in which the first slots hold a one each. -/
def onesMemory (count : ℕ) : KvMemory unitShape where
  numBlocks := 2
  slot := fun slot => if slot < count then tokenBytes slot 1 else tokenBytes 0 0

/-- The first engine before its request. -/
def startedEngine : Engine unitShape :=
  @Engine.start Empty countingSharing countingMember (onesMemory 0) fun _ => none

/-- The first engine of some others. -/
def firstEngine (engine : Engine unitShape) : Fleet unitShape where
  objects := engine.objects
  engines := Function.update (fun _ => startedEngine) 0 engine

theorem reachable_startedEngine :
    Reachable countingSharing (fun _ => countingMember) (firstEngine startedEngine) := by
  have start : Reachable countingSharing (fun _ => countingMember)
      { objects := fun _ => none, engines := fun _ => startedEngine } := by
    apply Reachable.start
    intro _ _ none
    cases none
  have same : firstEngine startedEngine =
      { objects := fun _ => none, engines := fun _ => startedEngine } := by
    rw [firstEngine, Function.update_eq_self 0 (fun _ => startedEngine)]
    rfl
  rw [same]
  exact start

/-- The key of the page of the tokens 1 and 2. -/
def unitPageKey : String :=
  "nanovllm-kv" ++ "/" ++ unitIdentity.digest .plain ++ "/tp-" ++ toString (0 : ℤ) ++ "/page-" ++
    toString (0 : ℤ) ++ "/" ++ Blake2b.plain.hexdigest 16 [1, 0, 0, 0, 2, 0, 0, 0]

theorem unitPage_named : unitPageKey ≠ "" ∧ countingSharing.digest ≠ "" := by decide +kernel

/-- The page of the tokens 1 and 2. -/
def unitPage : RemoteCatalog.RemotePageDescriptor where
  objectKey := unitPageKey
  identityDigest := countingSharing.digest
  tpRank := 0
  pageIndex := 0
  named := unitPage_named

/-- The first engine after a registration of the page. -/
def registeredEngine : Engine unitShape :=
  { startedEngine with
    service := startedEngine.service.orUnchanged
      (startedEngine.service.registerExistingPrefix countingMember.serviceConfig [[1, 2]]
        [unitPage]) }

theorem describes_unitPage : countingSharing.Describes [[1, 2]] unitPage where
  nonempty := List.cons_ne_nil _ _
  made := by decide +kernel
  pageIndex := rfl
  identity := rfl
  checked := by
    intro block mem
    cases List.mem_singleton.mp mem
    exact ⟨rfl, Nat.two_pos, by decide⟩

theorem reachable_registeredEngine :
    Reachable countingSharing (fun _ => countingMember) (firstEngine registeredEngine) := by
  have allowed : countingSharing.trust.Allows
      (.registerExistingPrefix [[1, 2]] [unitPage]) := by
    intro i descriptor get
    rcases List.getElem?_eq_some_iff.mp get with ⟨inside, same⟩
    cases Nat.lt_one_iff.mp inside
    cases same
    exact describes_unitPage
  have stepped : startedEngine.service.step countingMember.serviceConfig
      (.registerExistingPrefix [[1, 2]] [unitPage]) = some registeredEngine.service := rfl
  exact reachable_startedEngine.engineStep (.service allowed stepped)

/-! ## The results -/

/--
In every state of a fleet, an engine plans to restore pages of the request's own prefix only, and
whatever the backend holds for such a page decodes to what the model makes of this prefix.
-/
theorem plans_own_pages (reachable : Reachable sharing members fleet) (e : ℕ) :
    (fleet.engines e).PlansOwnPages sharing (members e) fleet.objects :=
  (reachable.valid.engines e).plansOwnPages reachable.valid.objects

theorem plans_own_pages_registeredEngine : ∃ service candidate,
    registeredEngine.service.planRestore none countingMember.cfg
      (Sequence.new 0 [1, 2, 3] 1 false (System.plainRequest 0 3 1).qos none) 0 0 =
        .ok (service, some candidate) ∧
    candidate.pages = [unitPage] ∧
    Engine.NamesPage countingSharing (firstEngine registeredEngine).objects 0 [1, 2] unitPage := by
  have plans : ((registeredEngine.service.planRestore none countingMember.cfg
      (Sequence.new 0 [1, 2, 3] 1 false (System.plainRequest 0 3 1).qos none) 0 0).map
        fun planned => planned.2.map (·.pages)) = .ok (some [unitPage]) := by decide +kernel
  rcases System.exists_of_map plans with ⟨⟨service, candidate⟩, planned, found⟩
  rcases Option.map_eq_some_iff.mp found with ⟨candidate, rfl, pages⟩
  have own := (plans_own_pages reachable_registeredEngine 0 _ 0 0 service candidate planned).2.2
  exact ⟨service, candidate, planned, pages, own 0 unitPage (by rw [pages]; rfl)⟩

end Fleet

end NanoVllm
