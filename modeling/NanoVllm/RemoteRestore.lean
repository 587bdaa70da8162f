import NanoVllm.RemoteCatalog.PrefixCatalog
import NanoVllm.Transfer

/-!
# The remote restore service

`RemoteKVRestoreService` writes pages and catalog snapshots through the transfer coordinator. The
engine thread calls its methods; the coroutines which it submits run on an event loop in another
thread, in the order of their submission, and their futures tell the engine thread how they
ended. A method which waits for futures changes nothing while it waits, so each method is one
action at the time when it goes on, except `publish_prefix`, which submits before it waits.

Metrics, restores and `close` are left out, and so are the fields of the service which only they
read. The service never calls `evict`.
-/

namespace NanoVllm.RemoteRestore

open Transfer RemoteCatalog

variable {F : Type}

/-- The number of a submitted `put`. -/
abbrev FutureId := ℕ

/-- The future of a coroutine `put(key, payload, overwrite)` which `_submit` returns. -/
structure PutFuture where
  key : String
  payload : Payload
  overwrite : Bool
  /-- The task which the coroutine awaits, once the event loop has run it. -/
  task : Option TaskId := none
  /-- How the future ended. -/
  result : Option (Except PyException Unit) := none
  deriving DecidableEq

/-- Whether the event loop has run the coroutine. -/
def PutFuture.hasRun (future : PutFuture) : Bool := future.task.isSome || future.result.isSome

/-- Whether the future is done without an exception. -/
def PutFuture.succeeded (future : PutFuture) : Bool :=
  match future.result with
  | some (.ok _) => true
  | _ => false

/-- Whether the future is done with an exception. -/
def PutFuture.failed (future : PutFuture) : Bool :=
  match future.result with
  | some (.error _) => true
  | _ => false

/-- `PendingRemoteWriteback`. -/
structure PendingRemoteWriteback where
  blockKeys : List BlockKey
  pages : List RemoteCatalog.RemotePageDescriptor
  writePages : List RemoteCatalog.RemotePageDescriptor
  futures : List FutureId
  nonempty : blockKeys ≠ [] ∧ blockKeys.length = pages.length
  written : futures ≠ [] ∧ writePages.length = futures.length

/-- The constructor of `PendingRemoteWriteback` with `__post_init__`. -/
def PendingRemoteWriteback.new (blockKeys : List BlockKey)
    (pages writePages : List RemoteCatalog.RemotePageDescriptor) (futures : List FutureId) :
    Py PendingRemoteWriteback :=
  if nonempty : blockKeys ≠ [] ∧ blockKeys.length = pages.length then
    if written : futures ≠ [] ∧ writePages.length = futures.length then
      .ok { blockKeys, pages, writePages, futures, nonempty, written }
    else .error (.valueError "write-back pages and futures must have the same non-zero length")
  else .error (.valueError "write-back prefix vectors must have the same non-zero length")

/-- The arguments of the constructor which the modelled methods read. -/
structure ServiceConfig (F : Type) where
  env : CatalogEnv F
  catalogKey : Option String
  catalogIdentity : Option (String × ℕ)
  named : catalogKey ≠ some ""

/-- Where the engine thread is. -/
inductive Phase where
  /-- In `_load_persistent_catalog`, at the result of `get`. -/
  | loading
  /-- In no method, or waiting in one which has done nothing yet. -/
  | idle
  /-- In `publish_prefix`, at the results of the futures. -/
  | publishing (blockKeys : List BlockKey) (descriptors : List RemoteCatalog.RemotePageDescriptor)
      (futures : List FutureId)

/-- The service, the event loop and the backend. -/
structure Service where
  coordinator : Coordinator
  catalog : RemotePrefixCatalog
  /-- The futures of all `put` coroutines in the order of their submission. -/
  futures : List PutFuture := []
  inflightWrites : String → Option FutureId := fun _ => none
  /-- The batches which `submit_writeback` has returned. -/
  pendings : List PendingRemoteWriteback := []
  phase : Phase

/-- An encoded page for each page index which was exported. -/
abbrev Envelopes := ℕ → Option Payload

namespace Service

/-- `self._submit(self._coordinator.put(key, payload, overwrite))`. -/
def submit (service : Service) (key : String) (payload : Payload) (overwrite : Bool) : Service :=
  { service with futures := service.futures ++ [{ key, payload, overwrite }] }

/-- `_schedule_catalog_save`. A failure is only recorded. -/
def scheduleCatalogSave (service : Service) (cfg : ServiceConfig F) : Service :=
  match cfg.catalogKey with
  | none => service
  | some catalogKey =>
      match service.catalog.snapshot with
      | .ok (some snapshot) =>
          if cfg.catalogIdentity ≠ none ∧
              cfg.catalogIdentity ≠ some (snapshot.identityDigest, snapshot.tpRank) then service
          else
            service.submit catalogKey (RemoteCatalogSnapshotCodec.encode cfg.env snapshot) true
      | _ => service

/-- `register_existing_prefix`. -/
def registerExistingPrefix (service : Service) (cfg : ServiceConfig F)
    (blockKeys : List BlockKey) (descriptors : List RemoteCatalog.RemotePageDescriptor) :
    Py Service := do
  let catalog ← service.catalog.register blockKeys descriptors
  .ok ({ service with catalog }.scheduleCatalogSave cfg)

/-- `future.done() and future.exception() is not None`. -/
def failed (service : Service) (f : FutureId) : Bool :=
  match service.futures[f]? with
  | some future => future.failed
  | none => false

/-- Whether `future.result()` returns. -/
def succeeded (service : Service) (f : FutureId) : Bool :=
  match service.futures[f]? with
  | some future => future.succeeded
  | none => false

/-- `self._inflight_writes.pop(key, None)`. -/
def popInflight (service : Service) (key : String) : Service :=
  { service with inflightWrites := Function.update service.inflightWrites key none }

/-- `self._inflight_writes[key] = future`. -/
def setInflight (service : Service) (key : String) (f : FutureId) : Service :=
  { service with inflightWrites := Function.update service.inflightWrites key (some f) }

/-! ## Write-backs -/

/-- The loop of `pages_requiring_write` over the pages which are not published. -/
def requirePages (service : Service) :
    List (RemoteCatalog.RemotePageDescriptor × ℕ) → Service × List ℕ
  | [] => (service, [])
  | (descriptor, index) :: rest =>
      match service.inflightWrites descriptor.objectKey with
      | none =>
          let (service, required) := service.requirePages rest
          (service, index :: required)
      | some f =>
          if service.failed f then
            let (service, required) := (service.popInflight descriptor.objectKey).requirePages rest
            (service, index :: required)
          else service.requirePages rest

/-- `pages_requiring_write`. -/
def pagesRequiringWrite (service : Service) (blockKeys : List BlockKey)
    (descriptors : List RemoteCatalog.RemotePageDescriptor) : Service × Py (List ℕ) :=
  if blockKeys = [] ∨ blockKeys.length ≠ descriptors.length then
    (service,
      .error (.valueError "write-back prefix vectors must have the same non-zero length"))
  else
    match service.catalog.matchKeys blockKeys with
    | .error error => (service, .error error)
    | .ok (catalog, publishedPages) =>
        let (service, required) := { service with catalog }.requirePages
          (descriptors.zipIdx.drop publishedPages.length)
        (service, .ok required)

/-- The loop which makes `write_plan`. -/
def planWrites (service : Service) (envelopes : Envelopes) :
    List (RemoteCatalog.RemotePageDescriptor × ℕ) →
      Py (List (ℕ × RemoteCatalog.RemotePageDescriptor × Option FutureId))
  | [] => .ok []
  | (descriptor, index) :: rest => do
      let future := service.inflightWrites descriptor.objectKey
      if future = none ∧ envelopes index = none then
        .error (.valueError
          ("missing exported KV page " ++ toString index ++ " for write-back"))
      else do
        let plan ← service.planWrites envelopes rest
        .ok ((index, descriptor, future) :: plan)

/-- The loop over `write_plan`: the pages and futures of the batch. -/
def writePlanned (service : Service) (envelopes : Envelopes) :
    List (ℕ × RemoteCatalog.RemotePageDescriptor × Option FutureId) →
      Service × Py (List (RemoteCatalog.RemotePageDescriptor × FutureId))
  | [] => (service, .ok [])
  | (index, descriptor, future) :: rest =>
      match future with
      | some f =>
          let (service, writes) := service.writePlanned envelopes rest
          (service, writes.map ((descriptor, f) :: ·))
      | none =>
          match envelopes index with
          | none => (service, .error (.keyError (toString index)))
          | some envelope =>
              let f := service.futures.length
              let (service, writes) := ((service.submit descriptor.objectKey envelope false
                ).setInflight descriptor.objectKey f).writePlanned envelopes rest
              (service, writes.map ((descriptor, f) :: ·))

/-- `submit_writeback`. The caller keeps the batch. -/
def submitWriteback (service : Service) (blockKeys : List BlockKey)
    (descriptors : List RemoteCatalog.RemotePageDescriptor) (envelopes : Envelopes) :
    Service × Py (Option PendingRemoteWriteback) :=
  if blockKeys = [] ∨ blockKeys.length ≠ descriptors.length then
    (service,
      .error (.valueError "write-back prefix vectors must have the same non-zero length"))
  else
    match service.catalog.matchKeys blockKeys with
    | .error error => (service, .error error)
    | .ok (catalog, publishedPages) =>
        let service := { service with catalog }
        match service.planWrites envelopes (descriptors.zipIdx.drop publishedPages.length) with
        | .error error => (service, .error error)
        | .ok [] => (service, .ok none)
        | .ok writePlan =>
            match service.writePlanned envelopes writePlan with
            | (service, .error error) => (service, .error error)
            | (service, .ok writes) =>
                match PendingRemoteWriteback.new blockKeys descriptors (writes.map Prod.fst)
                    (writes.map Prod.snd) with
                | .error error => (service, .error error)
                | .ok pending =>
                    ({ service with pendings := service.pendings ++ [pending] },
                      .ok (some pending))

/-- The loop which drops the futures of a batch from `_inflight_writes`. -/
def dropWrites (service : Service) :
    List (RemoteCatalog.RemotePageDescriptor × FutureId) → Service
  | [] => service
  | (page, f) :: rest =>
      if service.inflightWrites page.objectKey = some f then
        (service.popInflight page.objectKey).dropWrites rest
      else service.dropWrites rest

/-- `complete_writeback` after `pending.result()`. -/
def completeWriteback (service : Service) (cfg : ServiceConfig F)
    (pending : PendingRemoteWriteback) : Py Service := do
  let catalog ← service.catalog.register pending.blockKeys pending.pages
  .ok (({ service with catalog }.scheduleCatalogSave cfg).dropWrites
    (pending.writePages.zip pending.futures))

/-- `fail_writeback`. -/
def failWriteback (service : Service) (pending : PendingRemoteWriteback) : Service :=
  service.dropWrites (pending.writePages.zip pending.futures)

/-! ## Publishing and loading -/

/-- `publish_prefix` up to the results of the futures. -/
def publishPrefix (service : Service) (blockKeys : List BlockKey)
    (descriptors : List RemoteCatalog.RemotePageDescriptor) (envelopes : List Payload) :
    Py Service :=
  if blockKeys.length ≠ descriptors.length ∨ descriptors.length ≠ envelopes.length then
    .error (.valueError "published remote prefix vectors must have the same length")
  else if descriptors = [] then
    .error (.valueError "published remote prefix must contain at least one page")
  else
    let submitted := (descriptors.zip envelopes).foldl
      (fun service page => service.submit page.1.objectKey page.2 false) service
    .ok { submitted with
      phase := .publishing blockKeys descriptors
        (List.range' service.futures.length descriptors.length) }

/-- The rest of `publish_prefix`. -/
def finishPublish (service : Service) (cfg : ServiceConfig F) (blockKeys : List BlockKey)
    (descriptors : List RemoteCatalog.RemotePageDescriptor) : Py Service := do
  let catalog ← service.catalog.register blockKeys descriptors
  .ok ({ service with catalog }.scheduleCatalogSave cfg)

/-- `_load_persistent_catalog` after the result of `get`. -/
def loadCatalog (service : Service) (cfg : ServiceConfig F) (outcome : Outcome) : Service :=
  match outcome with
  | .ok (some envelope) =>
      match RemoteCatalogSnapshotCodec.decode cfg.env envelope with
      | .ok snapshot =>
          if cfg.catalogIdentity ≠ none ∧
              cfg.catalogIdentity ≠ some (snapshot.identityDigest, snapshot.tpRank) then service
          else
            match service.catalog.mergeSnapshot snapshot with
            | .ok (catalog, _) => { service with catalog }
            | .error _ => service
      | .error _ => service
  | _ => service

end Service

/-! ## Actions -/

inductive Action where
  /-- A step of a task, of the backend or of a `get` call. -/
  | transfer (key : String) (action : Transfer.Action)
  /-- The event loop runs the coroutine of a future, up to its `await`. -/
  | run (f : FutureId)
  /-- A future whose task is done gets its result. -/
  | resolve (f : FutureId)
  /-- The catalog is loaded, with the result of the first `get` call of its key. -/
  | loaded
  /-- The load has timed out. -/
  | loadTimedOut
  | matchKeys (blockKeys : List BlockKey)
  | registerExistingPrefix (blockKeys : List BlockKey)
      (descriptors : List RemoteCatalog.RemotePageDescriptor)
  | pagesRequiringWrite (blockKeys : List BlockKey)
      (descriptors : List RemoteCatalog.RemotePageDescriptor)
  | submitWriteback (blockKeys : List BlockKey)
      (descriptors : List RemoteCatalog.RemotePageDescriptor) (envelopes : Envelopes)
  /-- `complete_writeback` of the batch at a position of `pendings`, when it does not wait. -/
  | completeWriteback (i : ℕ)
  | failWriteback (i : ℕ)
  | publishPrefix (blockKeys : List BlockKey)
      (descriptors : List RemoteCatalog.RemotePageDescriptor) (envelopes : List Payload)
  /-- All futures of `publish_prefix` have succeeded. -/
  | published
  /-- A future of `publish_prefix` has failed or its result has timed out. -/
  | publishFailed

/-- Whether the service itself does not do a step of the coordinator. -/
def isWrite : Transfer.Action → Bool
  | .put _ _ => true
  | .evict => true
  | _ => false

namespace Service

/-- A method which raises leaves the service as it was. -/
def orUnchanged (service : Service) : Py Service → Service
  | .ok service' => service'
  | .error _ => service

/-- The engine thread starts a method. -/
def whenIdle (service : Service) (service' : Service) : Option Service :=
  match service.phase with
  | .idle => some service'
  | _ => none

/-- The coroutine of a future runs, if those before it have. -/
def run (service : Service) (f : FutureId) : Option Service :=
  match service.futures[f]? with
  | none => none
  | some future =>
      if future.hasRun ∨ ¬ (service.futures.take f).all PutFuture.hasRun then none
      else if future.key = "" then
        some { service with
          futures := service.futures.set f { future with
            result := some (.error ⟨"ValueError", "key must not be empty"⟩) } }
      else
        let slot := service.coordinator future.key
        some { service with
          coordinator := Function.update service.coordinator future.key
            (slot.put future.payload future.overwrite)
          futures := service.futures.set f { future with task := some slot.tasks.length } }

/-- A future gets the result of its task. -/
def resolve (service : Service) (f : FutureId) : Option Service :=
  match service.futures[f]? with
  | none => none
  | some future =>
      match future.result, future.task with
      | none, some i =>
          match (service.coordinator future.key).tasks[i]?.bind Task.result? with
          | some outcome =>
              some { service with
                futures := service.futures.set f { future with
                  result := some (outcome.map fun _ => ()) } }
          | none => none
      | _, _ => none

/-- One action, if it is possible. -/
def step (service : Service) (cfg : ServiceConfig F) : Action → Option Service
  | .transfer key action =>
      if isWrite action then none
      else (service.coordinator.step key action).map ({ service with coordinator := · })
  | .run f => service.run f
  | .resolve f => service.resolve f
  | .loaded =>
      match service.phase, cfg.catalogKey with
      | .loading, some catalogKey =>
          match (service.coordinator catalogKey).results.lookup 0 with
          | some outcome => some { service.loadCatalog cfg outcome with phase := .idle }
          | none => none
      | _, _ => none
  | .loadTimedOut =>
      match service.phase with
      | .loading => some { service with phase := .idle }
      | _ => none
  | .matchKeys blockKeys =>
      match service.catalog.matchKeys blockKeys with
      | .ok (catalog, _) => service.whenIdle { service with catalog }
      | .error _ => service.whenIdle service
  | .registerExistingPrefix blockKeys descriptors =>
      service.whenIdle
        (service.orUnchanged (service.registerExistingPrefix cfg blockKeys descriptors))
  | .pagesRequiringWrite blockKeys descriptors =>
      service.whenIdle (service.pagesRequiringWrite blockKeys descriptors).1
  | .submitWriteback blockKeys descriptors envelopes =>
      service.whenIdle (service.submitWriteback blockKeys descriptors envelopes).1
  | .completeWriteback i =>
      match service.pendings[i]? with
      | some pending =>
          if pending.futures.any service.failed then service.whenIdle service
          else if pending.futures.all service.succeeded then
            service.whenIdle (service.orUnchanged (service.completeWriteback cfg pending))
          else none
      | none => none
  | .failWriteback i =>
      match service.pendings[i]? with
      | some pending => service.whenIdle (service.failWriteback pending)
      | none => none
  | .publishPrefix blockKeys descriptors envelopes =>
      service.whenIdle
        (service.orUnchanged (service.publishPrefix blockKeys descriptors envelopes))
  | .published =>
      match service.phase with
      | .publishing blockKeys descriptors futures =>
          if futures.all service.succeeded then
            some { service.orUnchanged (service.finishPublish cfg blockKeys descriptors) with
              phase := .idle }
          else none
      | _ => none
  | .publishFailed =>
      match service.phase with
      | .publishing _ _ _ => some { service with phase := .idle }
      | _ => none

/-- A service which starts over a backend with the given objects. -/
def initial (cfg : ServiceConfig F) (catalog : RemotePrefixCatalog)
    (objects : String → Option Payload) : Service where
  coordinator := .initial objects
  catalog
  phase := if cfg.catalogKey = none then .idle else .loading

end Service

end NanoVllm.RemoteRestore
