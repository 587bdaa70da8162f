import NanoVllm.Fleet.Pages

/-!
# The invariant of an engine

An engine over bytes runs as the serving loop does, the bytes of its KV cache are those which the
model makes of the prefixes which the slots stand for, and its service holds genuine pages only.
Every step keeps this, also the restoration of pages which another engine has stored.
-/

namespace NanoVllm

open Transfer RemoteRestore StorageBackend ModelRunner

variable {F : Type} {sharing : Sharing F} {member : Member sharing}

/-- The objects of the backend change while the service goes on. -/
theorem RemoteRestore.Service.Trusted.withObjects {trust : Trust} {pageSize : ℕ}
    {service : Service} (trusted : service.Trusted trust pageSize)
    {objects : String → Option Payload}
    (good : ∀ key, ∀ payload ∈ objects key, trust.payload key payload) :
    ({ service with coordinator := fun key =>
      { service.coordinator key with object := objects key } } : Service).Trusted trust pageSize :=
  { trusted with
    carries := fun key => { trusted.carries key with object := good key } }

namespace Fleet.Engine

/-- Without compression the model samples the tokens of a batch. -/
def Sampled (cfg : Config) (f : List Token → Token) (system : System) (op : Op cfg) : Prop :=
  cfg.kvCompressionPolicy = .none → System.SampledBy cfg f system op

/-- The model has run the batch in flight. -/
structure Ran (sharing : Sharing F) (cfg : Config) (engine : Engine sharing.shape)
    (inFlight : InFlight) (tokenIds : List Token) : Prop where
  flying : engine.system.inFlight = some inFlight
  running : inFlight.failed = false
  length : tokenIds.length = inFlight.seqs.length
  represents : ∀ ran, engine.system.run cfg inFlight = .ok ran →
    ran.kv.Represents sharing.model engine.memory
  sampled : ∀ event ∈ inFlight.seqs.zip tokenIds,
    (engine.system.scheduler.seqs event.1).kvCompressed = false →
      event.2 = sharing.model.next ((engine.system.scheduler.seqs event.1).tokenIds.take
        (engine.system.scheduler.seqs event.1).computedTokens)

/-- The invariant of an engine. -/
structure Valid (sharing : Sharing F) (member : Member sharing) (engine : Engine sharing.shape) :
    Prop where
  reachable : System.ReachableBy member.cfg (Sampled member.cfg sharing.model.next) engine.system
  between : engine.computed = none →
    engine.system.kv.Represents sharing.model engine.memory
  after : ∀ tokenIds, engine.computed = some tokenIds →
    ∃ inFlight, Ran sharing member.cfg engine inFlight tokenIds
  service : engine.service.Trusted sharing.trust sharing.shape.blockSize

variable {engine engine' : Engine sharing.shape} {system : System} {memory : KvMemory sharing.shape}

namespace Valid

/-- An operation of the serving loop which leaves the service. -/
theorem operation (valid : engine.Valid sharing member) {op : Op member.cfg}
    (enabled : engine.system.Enabled op)
    (sampled : Sampled member.cfg sharing.model.next engine.system op)
    (stepped : engine.system.step member.cfg op = .ok engine'.system)
    (idle : engine'.computed = none)
    (represents : engine'.system.kv.Represents sharing.model engine'.memory)
    (service : engine'.service = engine.service) : engine'.Valid sharing member where
  reachable := valid.reachable.step enabled sampled stepped
  between _ := represents
  after := by
    intro tokenIds computed
    rw [idle] at computed
    cases computed
  service := by
    rw [service]
    exact valid.service

theorem setService (valid : engine.Valid sharing member) {service : Service}
    (trusted : service.Trusted sharing.trust sharing.shape.blockSize) :
    ({ engine with service } : Engine sharing.shape).Valid sharing member where
  reachable := valid.reachable
  between := valid.between
  after := by
    intro tokenIds computed
    rcases valid.after tokenIds computed with ⟨inFlight, ran⟩
    exact ⟨inFlight, ran.flying, ran.running, ran.length, ran.represents, ran.sampled⟩
  service := trusted

theorem compute (valid : engine.Valid sharing member) {inFlight : InFlight}
    {tokenIds : List Token} (between : engine.computed = none)
    (flying : engine.system.inFlight = some inFlight) (running : inFlight.failed = false)
    (runs : RunsBatch sharing.model member.cfg inFlight.isPrefill engine.memory
      (inFlight.seqs.map engine.system.scheduler.seqs) memory tokenIds) :
    ({ engine with memory, computed := some tokenIds } : Engine sharing.shape).Valid sharing
      member where
  reachable := valid.reachable
  between := by
    intro none
    cases none
  after := by
    rintro _ ⟨⟩
    refine ⟨inFlight, flying, running, ?_, ?_, ?_⟩
    · rw [runs.sampled, List.length_map]
    · intro ran result
      exact valid.reachable.valid.represents_run flying result (valid.between between) runs
    · intro event mem uncompressed
      exact (valid.reachable.valid.runsRequest flying (valid.between between) runs mem
        uncompressed).2
  service := valid.service

theorem postprocess (valid : engine.Valid sharing member) {tokenIds : List Token}
    {elapsedMs now : ℚ} (after : engine.computed = some tokenIds)
    (stepped : engine.system.step member.cfg (.postprocess tokenIds elapsedMs now) = .ok system) :
    ({ engine with system, computed := none } : Engine sharing.shape).Valid sharing member := by
  rcases valid.after tokenIds after with ⟨inFlight, ran⟩
  have validSystem := valid.reachable.valid
  have enabled : engine.system.Enabled (@Op.postprocess member.cfg tokenIds elapsedMs now) :=
    ⟨inFlight, ran.flying, ran.running, ran.length⟩
  refine valid.operation enabled ?_ stepped rfl ?_ rfl
  · intro policy
    exact validSystem.sampledBy (valid.reachable.uncompressed policy) ran.flying ran.sampled
  · rcases System.kv_of_postprocess ran.flying stepped with ⟨result, returned, same⟩
    rw [same]
    exact ran.represents result returned

/-- What a `get` call has returned is genuine. -/
theorem genuine_of_fetched (valid : engine.Valid sharing member)
    {page : NanoVllm.RemotePageDescriptor} {envelope : Payload}
    (fetched : Fetched sharing engine page envelope) :
    ∃ key, sharing.pageKey page.pageIndex page.prefixTokenIds = .ok key ∧
      sharing.Genuine key envelope := by
  rcases fetched with ⟨key, caller, made, found⟩
  refine ⟨key, made, ?_⟩
  exact (valid.service.carries key).results caller envelope (Service.mem_of_lookup found)

/-- The pages of a restore get the bytes of their prefixes. -/
theorem completeRemoteRestore (valid : engine.Valid sharing member) {state : PendingRestoreState}
    {now : ℚ} {envelopes : List Payload}
    (between : engine.computed = none) (mem : state ∈ engine.system.scheduler.pendingRestores)
    (fetched : List.Forall₂ (Fetched sharing engine) state.pages envelopes)
    (imported : sharing.importPages engine.memory
      ((state.pages.zip state.blockIds).zip envelopes) = .ok memory)
    (stepped : engine.system.step member.cfg (.completeRemoteRestore state.sequence now) =
      .ok system) :
    system.kv.Represents sharing.model memory := by
  have scheduler := valid.reachable.valid.scheduler
  rcases scheduler.restoring mem with ⟨known, -, -, pending⟩
  have distinct := (scheduler.memory.request _ known).distinct
  have blocks : state.blockIds.Nodup := by
    rw [pending.blockIds]
    exact (List.drop_sublist _ _).nodup ((List.take_sublist _ _).nodup distinct)
  have fewer : state.blockIds.length ≤ state.pages.length := by
    rw [pending.blockIds, pending.pagesLength, List.length_drop, List.length_take]
    omega
  have sameLength := fetched.length_eq
  have pages : ((state.pages.zip state.blockIds).zip envelopes).map Prod.fst =
      state.pages.zip state.blockIds := by
    apply List.map_fst_zip
    rw [List.length_zip, ← sameLength]
    exact min_le_left _ _
  have imports := Sharing.importPages_spec imported (by
    rw [pages, List.map_snd_zip fewer]
    exact blocks) (by
    intro entry inEntries
    rcases List.mem_iff_getElem?.mp inEntries with ⟨k, get⟩
    rcases List.getElem?_zip_eq_some.mp get with ⟨getPage, getEnvelope⟩
    rcases List.getElem?_zip_eq_some.mp getPage with ⟨getPage, -⟩
    apply valid.genuine_of_fetched
    apply (List.forall₂_iff_zip.mp fetched).2
    exact List.mem_iff_getElem?.mpr ⟨k, List.getElem?_zip_eq_some.mpr ⟨getPage, getEnvelope⟩⟩)
  rw [pages] at imports
  rw [System.step, scheduler.pendingRestore mem] at stepped
  rcases Py.exists_of_bind stepped with ⟨state', found, stepped⟩
  rcases Py.exists_of_bind stepped with ⟨scheduler', -, returned⟩
  cases found
  cases returned
  exact imports.represents pending distinct (valid.between between)

theorem writeBack (valid : engine.Valid sharing member) {inFlight : InFlight} {i : SeqId}
    {exported : BlockId → String → ℕ → Payload} {service : Service} {writebacks : List Writeback}
    (after : engine.computed ≠ none) (flying : engine.system.inFlight = some inFlight)
    (mem : i ∈ inFlight.seqs)
    (enqueued : (member.writebackEnv exported).enqueueRemoteWritebacks member.cfg engine.service
      [engine.system.scheduler.seqs i] = .ok (service, writebacks))
    (exports : ExportsPages sharing engine.memory exported writebacks) :
    service.Trusted sharing.trust sharing.shape.blockSize := by
  rcases Option.ne_none_iff_exists'.mp after with ⟨tokenIds, computed⟩
  rcases valid.after tokenIds computed with ⟨inFlight', ran⟩
  cases flying.symm.trans ran.flying
  rcases valid.reachable.valid.ran flying with ⟨result, returned, same, -, validRan⟩
  rw [same] at validRan
  have known := ((validRan.scheduled i).mp mem).1
  have memory := validRan.memory.request i known
  have represents := ran.represents result returned
  apply WritebackEnv.trusted_enqueueRemoteWritebacks valid.service enqueued
  · intro tokenIds numPages blockKeys descriptors described
    exact Sharing.describes_of_described described
  · intro written mem' index descriptor payload get exportedPage
    rcases Py.of_ok_pair enqueued (WritebackEnv.enqueueRemoteWritebacks_exports _ _ _) written mem'
      with ⟨seq, only, isExport⟩
    cases List.mem_singleton.mp only
    rcases Option.map_eq_some_iff.mp exportedPage with ⟨blockId, found, rfl⟩
    have page : (index, blockId) ∈ written.pages := by
      rcases List.lookup_eq_some_iff.mp found with ⟨front, back, pages, -⟩
      rw [pages]
      exact List.mem_append_right _ List.mem_cons_self
    rcases isExport.sound memory (validRan.computed_le mem).1 index blockId page with
      ⟨descriptor', tokens, get', made, -, -, holds⟩
    cases get.symm.trans get'
    apply Sharing.genuine_of_export (exports written mem' _ page) made
    rw [member.blockSize] at holds
    exact Sharing.pageBytes_of_represents represents holds

/-- Every step keeps the invariant. -/
theorem step (valid : engine.Valid sharing member) (steps : Steps sharing member engine engine') :
    engine'.Valid sharing member := by
  cases steps with
  | add between enabled positive stepped =>
    refine valid.operation enabled (fun _ => positive) stepped between ?_ rfl
    cases stepped
    exact valid.between between
  | schedule between enabled _ stepped =>
    refine valid.operation enabled (fun _ => trivial) stepped between ?_ rfl
    rw [System.kv_of_schedule stepped]
    exact valid.between between
  | cancel between enabled stepped =>
    refine valid.operation enabled (fun _ => trivial) stepped between ?_ rfl
    rw [System.kv_of_cancel stepped]
    exact valid.between between
  | compute between flying running runs => exact valid.compute between flying running runs
  | runFailed between flying mapped others stepped =>
    have enabled : engine.system.Enabled (@Op.runFailed member.cfg fun _ => none) := by
      change engine.system.inFlight ≠ none
      rw [flying]
      exact Option.some_ne_none _
    refine valid.operation enabled (fun _ => trivial) stepped between ?_ rfl
    exact valid.reachable.valid.represents_runFailed flying (valid.between between) mapped others
      (fun _ => rfl) stepped
  | writeBack after flying mem enqueued exports =>
    exact valid.setService (valid.writeBack after flying mem enqueued exports)
  | postprocess after stepped => exact valid.postprocess after stepped
  | @completeRemoteRestore state now _ _ _ between mem fetched imported stepped =>
    have enabled : engine.system.Enabled
        (@Op.completeRemoteRestore member.cfg state.sequence now) := ⟨state, mem, rfl⟩
    refine valid.operation enabled (fun _ => trivial) stepped between ?_ rfl
    exact valid.completeRemoteRestore between mem fetched imported stepped
  | @failRemoteRestore state now error _ _ between mem others stepped =>
    have enabled : engine.system.Enabled (@Op.failRemoteRestore member.cfg state.sequence now
        error fun _ => none) := ⟨state, mem, rfl⟩
    refine valid.operation enabled (fun _ => trivial) stepped between ?_ rfl
    rw [System.step, valid.reachable.valid.scheduler.pendingRestore mem] at stepped
    rcases Py.exists_of_bind stepped with ⟨state', found, stepped⟩
    rcases Py.exists_of_bind stepped with ⟨scheduler, -, returned⟩
    cases found
    cases returned
    intro slot tokens holds
    rw [KvStore.Holds] at holds
    dsimp only [System.scramblePages] at holds
    split at holds
    · cases holds
    · next outside =>
      dsimp only
      rw [others slot outside]
      exact valid.between between slot tokens holds
  | service allowed stepped =>
    exact valid.setService (valid.service.step (sharing.sound member) allowed stepped)

theorem withObjects (valid : engine.Valid sharing member) {objects : String → Option Payload}
    (genuine : ∀ key, ∀ payload ∈ objects key, sharing.Genuine key payload) :
    (engine.withObjects objects).Valid sharing member :=
  valid.setService (valid.service.withObjects genuine)

theorem start (sharing : Sharing F) (member : Member sharing) (memory : KvMemory sharing.shape)
    {objects : String → Option Payload}
    (genuine : ∀ key, ∀ payload ∈ objects key, sharing.Genuine key payload) :
    (Engine.start member memory objects).Valid sharing member where
  reachable := .init
  between := by
    intro _ slot tokens holds
    cases holds
  after := by
    intro tokenIds none
    cases none
  service := Service.trusted_initial genuine

end Valid

end Fleet.Engine

end NanoVllm
