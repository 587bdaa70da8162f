import NanoVllm.Engine.KvBytes
import NanoVllm.RemoteRestore.Candidates
import NanoVllm.RemoteRestore.Provenance
import NanoVllm.StorageBackend.PrefixKeys

/-!
# Engines which share a storage backend

Engines of one model store the pages of prefixes in one backend, and restore pages which other
engines have stored. An `Engine` is the serving loop together with the bytes of its KV cache and
its remote restore service. The engines take their steps in any order, and an engine may crash and
start again. The backend may lose objects, and it may damage them as long as the checksum of a page
or a catalog tells.

Here the model runs, its pages are exported and its batch is postprocessed in separate steps, as
the event loop of the service goes on in between. A failed export is only recorded, so
`pages_requiring_write` is all it does.
-/

namespace NanoVllm

open Transfer RemoteRestore StorageBackend ModelRunner

variable {F : Type}

/-- What the engines agree on. -/
structure Sharing (F : Type) where
  shape : KvCacheShape
  model : KvModel shape
  identity : KVCacheIdentity
  blake2b : Blake2b
  pageEnv : PageEnv F
  catalogEnv : RemoteCatalog.CatalogEnv F
  catalogKey : String
  catalogKey_made : makeKvCatalogKey blake2b identity 0 = .ok catalogKey
  loadsBack : ∀ snapshot, catalogEnv.loads (catalogEnv.dumps
    (RemoteCatalog.RemoteCatalogSnapshotCodec.envelope catalogEnv snapshot)) =
      .ok (RemoteCatalog.RemoteCatalogSnapshotCodec.envelope catalogEnv snapshot)

/-- The settings of an engine. -/
structure Member (sharing : Sharing F) where
  cfg : Config
  planner : Option KvTransferPlanner
  remoteKvPersistCatalog : Bool
  remoteKvWriteback : Bool
  remoteKvMinPrefixBlocks : ℕ
  blockSize : cfg.blockSize = sharing.shape.blockSize

/-! ## Pages -/

namespace Sharing

variable (sharing : Sharing F)

/-- `kv_cache_identity.digest`. -/
def digest : String := sharing.identity.digest sharing.blake2b

/-- `make_kv_page_key` of a page. -/
def pageKey (pageIndex : ℕ) (prefixTokenIds : List Token) : Py String :=
  makeKvPageKey sharing.blake2b sharing.identity 0 pageIndex prefixTokenIds

/-- The bytes are the keys and the values which the model makes of a page of a prefix. -/
def PageBytes (pageIndex : ℕ) (prefixTokenIds : List Token) (payload : List UInt8) : Prop :=
  ∀ offset < sharing.shape.blockSize, ∃ bytes,
    sharing.model.entry
      (prefixTokenIds.take (pageIndex * sharing.shape.blockSize + offset + 1)) = some bytes ∧
    ∀ plane < sharing.shape.numPlanes, Paging.page sharing.shape.cellBytes payload
      (plane * sharing.shape.blockSize + offset) = bytes.plane plane

/-- The descriptor names the last page of a path. -/
structure Describes (path : List BlockKey) (descriptor : RemoteCatalog.RemotePageDescriptor) :
    Prop where
  nonempty : path ≠ []
  made : sharing.pageKey descriptor.pageIndex path.flatten = .ok descriptor.objectKey
  pageIndex : descriptor.pageIndex + 1 = path.length
  identity : descriptor.identity = (sharing.digest, 0)
  checked : ∀ block ∈ path, RemoteCatalog.BlockChecked sharing.shape.blockSize block

/-- An object is what its key says, as far as it can be decoded. -/
structure Genuine (key : String) (payload : Payload) : Prop where
  page : ∀ pageIndex prefixTokenIds record,
    sharing.pageKey pageIndex prefixTokenIds = .ok key →
    KVPageCodec.decode sharing.pageEnv payload
      (expectations sharing.pageEnv 0 sharing.shape sharing.digest pageIndex) maxPayloadBytes =
        .ok record →
    sharing.PageBytes pageIndex prefixTokenIds record.payload
  catalog : ∀ snapshot, key = sharing.catalogKey →
    RemoteCatalog.RemoteCatalogSnapshotCodec.decode sharing.catalogEnv payload = .ok snapshot →
    SnapshotAlong sharing.Describes snapshot

/-- What the services and their callers may rely on. -/
def trust : Trust where
  payload := sharing.Genuine
  page := sharing.Describes

end Sharing

/-- The loop of `_process_ready_remote_restores` over the pages of a transfer. -/
def Sharing.importPages (sharing : Sharing F) (memory : KvMemory sharing.shape) :
    List ((NanoVllm.RemotePageDescriptor × BlockId) × Payload) →
      Except KvPageIoError (KvMemory sharing.shape)
  | [] => .ok memory
  | ((page, blockId), envelope) :: rest => do
      let memory ← importKvPage sharing.pageEnv 0 memory blockId envelope sharing.digest
        page.pageIndex
      sharing.importPages memory rest

namespace Member

variable {sharing : Sharing F}

/-- The key under which the engine stores its catalog. -/
def catalogKey (member : Member sharing) : Option String :=
  if member.remoteKvPersistCatalog then some sharing.catalogKey else none

theorem catalogKey_ne (member : Member sharing) : member.catalogKey ≠ some "" := by
  unfold catalogKey
  split
  · intro unnamed
    have key := makeKvCatalogKey_eq_ok sharing.catalogKey_made
    simp [Option.some.inj unnamed] at key
  · simp

/-- The arguments of the service. -/
def serviceConfig (member : Member sharing) : ServiceConfig F where
  env := sharing.catalogEnv
  catalogKey := member.catalogKey
  catalogIdentity := some (sharing.digest, 0)
  named := member.catalogKey_ne

/-- What write-backs read of the engine; the pages come from `exported`. -/
def writebackEnv (member : Member sharing) (exported : BlockId → String → ℕ → Payload) :
    WritebackEnv where
  remoteKvWriteback := member.remoteKvWriteback
  remoteKvMinPrefixBlocks := member.remoteKvMinPrefixBlocks
  kvCacheIdentity := sharing.identity
  blake2b := sharing.blake2b
  exportKvPage := exported

end Member

/-! ## Engines -/

namespace Fleet

/-- The serving loop, the KV cache and the remote restore service of an engine. -/
structure Engine (shape : KvCacheShape) where
  system : System
  memory : KvMemory shape
  /-- The tokens of the batch in flight, once the model has run. -/
  computed : Option (List Token)
  service : Service

namespace Engine

variable {sharing : Sharing F}

/-- An engine over a backend with the given objects. -/
def start (member : Member sharing) (memory : KvMemory sharing.shape)
    (objects : String → Option Payload) : Engine sharing.shape where
  system := .init member.cfg
  memory
  computed := none
  service := .initial member.serviceConfig .empty objects

/-- The engine sees the objects of the backend. -/
def withObjects {shape : KvCacheShape} (engine : Engine shape)
    (objects : String → Option Payload) : Engine shape :=
  { engine with
    service := { engine.service with
      coordinator := fun key => { engine.service.coordinator key with object := objects key } } }

/-- The objects of the backend. -/
def objects {shape : KvCacheShape} (engine : Engine shape) (key : String) : Option Payload :=
  (engine.service.coordinator key).object

/-- The envelope which a `get` call of a page has returned. -/
def Fetched (sharing : Sharing F) (engine : Engine sharing.shape)
    (page : NanoVllm.RemotePageDescriptor) (envelope : Payload) : Prop :=
  ∃ key caller, sharing.pageKey page.pageIndex page.prefixTokenIds = .ok key ∧
    (engine.service.coordinator key).results.lookup caller = some (.ok (some envelope))

/-- The pages of some write-backs are exported from the memory. -/
def ExportsPages (sharing : Sharing F) (memory : KvMemory sharing.shape)
    (exported : BlockId → String → ℕ → Payload) (writebacks : List Writeback) : Prop :=
  ∀ writeback ∈ writebacks, ∀ page ∈ writeback.pages,
    exportKvPage sharing.pageEnv 0 memory page.2 sharing.digest page.1 =
      .ok (exported page.2 sharing.digest page.1)

/-- The steps of an engine. -/
inductive Steps (sharing : Sharing F) (member : Member sharing) (engine : Engine sharing.shape) :
    Engine sharing.shape → Prop
  | add {request : Request} {now : ℚ} {system : System} (between : engine.computed = none)
      (enabled : engine.system.Enabled (@Op.add member.cfg request now))
      (positive : 1 ≤ request.maxTokens)
      (stepped : engine.system.step member.cfg (.add request now) = .ok system) :
      Steps sharing member engine { engine with system }
  | schedule {env : ScheduleEnv member.cfg} {system : System} (between : engine.computed = none)
      (enabled : engine.system.Enabled (.schedule env))
      (planned : env.service = engine.service.restores member.planner member.cfg)
      (stepped : engine.system.step member.cfg (.schedule env) = .ok system) :
      Steps sharing member engine { engine with system }
  | cancel {i : SeqId} {now : ℚ} {system : System} (between : engine.computed = none)
      (enabled : engine.system.Enabled (@Op.cancel member.cfg i now))
      (stepped : engine.system.step member.cfg (.cancel i now) = .ok system) :
      Steps sharing member engine { engine with system }
  | compute {inFlight : InFlight} {memory : KvMemory sharing.shape} {tokenIds : List Token}
      (between : engine.computed = none) (flying : engine.system.inFlight = some inFlight)
      (running : inFlight.failed = false)
      (runs : RunsBatch sharing.model member.cfg inFlight.isPrefill engine.memory
        (inFlight.seqs.map engine.system.scheduler.seqs) memory tokenIds) :
      Steps sharing member engine { engine with memory, computed := some tokenIds }
  | runFailed {inFlight : InFlight} {memory : KvMemory sharing.shape} {slots : List ℕ}
      {system : System} (between : engine.computed = none)
      (flying : engine.system.inFlight = some inFlight)
      (mapped : slotMapping member.cfg inFlight.isPrefill
        (inFlight.seqs.map engine.system.scheduler.seqs) = .ok slots)
      (others : ∀ slot, slot ∉ slots → memory.slot slot = engine.memory.slot slot)
      (stepped : engine.system.step member.cfg (.runFailed fun _ => none) = .ok system) :
      Steps sharing member engine { engine with system, memory }
  | writeBack {inFlight : InFlight} {i : SeqId} {exported : BlockId → String → ℕ → Payload}
      {service : Service} {writebacks : List Writeback} (after : engine.computed ≠ none)
      (flying : engine.system.inFlight = some inFlight) (mem : i ∈ inFlight.seqs)
      (enqueued : (member.writebackEnv exported).enqueueRemoteWritebacks member.cfg
        engine.service [engine.system.scheduler.seqs i] = .ok (service, writebacks))
      (exports : ExportsPages sharing engine.memory exported writebacks) :
      Steps sharing member engine { engine with service }
  | postprocess {tokenIds : List Token} {elapsedMs now : ℚ} {system : System}
      (after : engine.computed = some tokenIds)
      (stepped : engine.system.step member.cfg (.postprocess tokenIds elapsedMs now) =
        .ok system) :
      Steps sharing member engine { engine with system, computed := none }
  | completeRemoteRestore {state : PendingRestoreState} {now : ℚ} {envelopes : List Payload}
      {memory : KvMemory sharing.shape} {system : System} (between : engine.computed = none)
      (mem : state ∈ engine.system.scheduler.pendingRestores)
      (fetched : List.Forall₂ (Fetched sharing engine) state.pages envelopes)
      (imported : sharing.importPages engine.memory
        ((state.pages.zip state.blockIds).zip envelopes) = .ok memory)
      (stepped : engine.system.step member.cfg (.completeRemoteRestore state.sequence now) =
        .ok system) :
      Steps sharing member engine { engine with system, memory }
  | failRemoteRestore {state : PendingRestoreState} {now : ℚ} {error : String}
      {memory : KvMemory sharing.shape} {system : System} (between : engine.computed = none)
      (mem : state ∈ engine.system.scheduler.pendingRestores)
      (others : ∀ slot, slot / member.cfg.blockSize ∉ state.blockIds →
        memory.slot slot = engine.memory.slot slot)
      (stepped : engine.system.step member.cfg
        (.failRemoteRestore state.sequence now error fun _ => none) = .ok system) :
      Steps sharing member engine { engine with system, memory }
  | service {action : RemoteRestore.Action} {service : Service}
      (allowed : sharing.trust.Allows action)
      (stepped : engine.service.step member.serviceConfig action = some service) :
      Steps sharing member engine { engine with service }

end Engine

end Fleet

/-! ## The fleet -/

/-- Engines over one backend. -/
structure Fleet (shape : KvCacheShape) where
  objects : String → Option Payload
  engines : ℕ → Fleet.Engine shape

namespace Fleet

variable {sharing : Sharing F}

/-- The steps of the fleet. -/
inductive Steps (sharing : Sharing F) (members : ℕ → Member sharing)
    (fleet : Fleet sharing.shape) : Fleet sharing.shape → Prop
  | engine {e : ℕ} {engine : Engine sharing.shape}
      (steps : ((fleet.engines e).withObjects fleet.objects).Steps sharing (members e) engine) :
      Steps sharing members fleet
        { objects := engine.objects, engines := Function.update fleet.engines e engine }
  | restart {e : ℕ} {memory : KvMemory sharing.shape} :
      Steps sharing members fleet
        { fleet with
          engines := Function.update fleet.engines e (.start (members e) memory fleet.objects) }
  | disturb {key : String} {object : Option Payload}
      (genuine : ∀ payload ∈ object, sharing.Genuine key payload) :
      Steps sharing members fleet
        { fleet with objects := Function.update fleet.objects key object }

/-- The fleets reachable by any order of steps from a backend with genuine objects. -/
inductive Reachable (sharing : Sharing F) (members : ℕ → Member sharing) :
    Fleet sharing.shape → Prop
  | start {objects : String → Option Payload} {memories : ℕ → KvMemory sharing.shape}
      (genuine : ∀ key, ∀ payload ∈ objects key, sharing.Genuine key payload) :
      Reachable sharing members
        { objects, engines := fun e => .start (members e) (memories e) objects }
  | step {fleet fleet' : Fleet sharing.shape} (reachable : Reachable sharing members fleet)
      (steps : fleet.Steps sharing members fleet') : Reachable sharing members fleet'

end Fleet

end NanoVllm
