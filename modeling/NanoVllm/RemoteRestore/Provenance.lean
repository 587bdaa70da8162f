import NanoVllm.RemoteRestore.Durability

/-!
# Where the pages of the service come from

The service moves payloads and descriptors between its callers, its catalog and the backend, and
makes neither of them up. So if all payloads which reach it are good for their keys, and all
descriptors for their paths, then so are those which it returns and stores.
-/

namespace NanoVllm.RemoteRestore

open Transfer RemoteCatalog RemoteCatalogSnapshotCodec

variable {F : Type} {cfg : ServiceConfig F} {service service' : Service} {pageSize : ℕ}

/-- The descriptors along a path are good for its prefixes. -/
def PagesAlong (page : List BlockKey → RemoteCatalog.RemotePageDescriptor → Prop)
    (blockKeys : List BlockKey) (descriptors : List RemoteCatalog.RemotePageDescriptor) : Prop :=
  ∀ i descriptor, descriptors[i]? = some descriptor → page (blockKeys.take (i + 1)) descriptor

/-- The records of a snapshot are good. -/
def SnapshotAlong (page : List BlockKey → RemoteCatalog.RemotePageDescriptor → Prop)
    (snapshot : RemoteCatalogSnapshot) : Prop :=
  ∀ record ∈ snapshot.prefixes, PagesAlong page record.blockKeys (record.pages.map descriptorOf)

/-- The payloads which are good for a key, and the descriptors which are good for a path. -/
structure Trust where
  payload : String → Payload → Prop
  page : List BlockKey → RemoteCatalog.RemotePageDescriptor → Prop

namespace Trust

variable {trust : Trust} {blockKeys : List BlockKey}
  {descriptors : List RemoteCatalog.RemotePageDescriptor}

/-- The descriptors along a path are good for its prefixes. -/
abbrev Pages (trust : Trust) := PagesAlong trust.page

/-- The records of a snapshot are good. -/
abbrev Snapshot (trust : Trust) := SnapshotAlong trust.page

/-- The payloads which are good for the key of the catalog are those with good snapshots. -/
structure Sound (trust : Trust) (pageSize : ℕ) (cfg : ServiceConfig F) : Prop where
  checked : ∀ path descriptor, trust.page path descriptor →
    ∀ block ∈ path, BlockChecked pageSize block
  loads : ∀ key bytes snapshot, cfg.catalogKey = some key → trust.payload key bytes →
    decode cfg.env bytes = .ok snapshot → trust.Snapshot snapshot
  saves : ∀ key snapshot, cfg.catalogKey = some key → trust.Snapshot snapshot →
    trust.payload key (encode cfg.env snapshot)

theorem Pages.checked (pages : trust.Pages blockKeys descriptors)
    (sound : trust.Sound pageSize cfg) (sameLength : blockKeys.length = descriptors.length) :
    ∀ block ∈ blockKeys, BlockChecked pageSize block := by
  intro block mem
  have positive : 0 < descriptors.length := sameLength ▸ List.length_pos_of_mem mem
  have last := pages (descriptors.length - 1) _
    (List.getElem?_eq_getElem (Nat.sub_lt positive Nat.one_pos))
  have whole : blockKeys.take (descriptors.length - 1 + 1) = blockKeys := by
    rw [Nat.sub_add_cancel positive, ← sameLength, List.take_length]
  rw [whole] at last
  exact sound.checked _ _ last block mem

/-- The payloads of some pages are good for their keys. -/
def Envelopes (trust : Trust) (descriptors : List RemoteCatalog.RemotePageDescriptor)
    (envelopes : Envelopes) : Prop :=
  ∀ (i : ℕ) (descriptor : RemoteCatalog.RemotePageDescriptor) (payload : Payload),
    descriptors[i]? = some descriptor → envelopes i = some payload →
      trust.payload descriptor.objectKey payload

/-- What the callers of the service promise. -/
def Allows (trust : Trust) : Action → Prop
  | .registerExistingPrefix blockKeys descriptors => trust.Pages blockKeys descriptors
  | .submitWriteback blockKeys descriptors envelopes =>
      trust.Pages blockKeys descriptors ∧ trust.Envelopes descriptors envelopes
  | .publishPrefix blockKeys descriptors envelopes =>
      trust.Pages blockKeys descriptors ∧ trust.Envelopes descriptors fun i => envelopes[i]?
  | _ => True

end Trust

namespace RemotePrefixCatalog

open RemoteCatalog.RemotePrefixCatalog

variable {trust : Trust} {catalog catalog' : RemotePrefixCatalog} {blockKeys : List BlockKey}
  {descriptors : List RemoteCatalog.RemotePageDescriptor}

/-- A catalog with good descriptors. -/
structure Trusted (trust : Trust) (pageSize : ℕ) (catalog : RemotePrefixCatalog) : Prop where
  valid : catalog.Valid pageSize
  pages : ∀ path descriptor, catalog.page path = some descriptor → trust.page path descriptor

theorem Trusted.register (trusted : Trusted trust pageSize catalog)
    (sound : trust.Sound pageSize cfg) (pages : trust.Pages blockKeys descriptors)
    (registered : catalog.register blockKeys descriptors = .ok catalog') :
    Trusted trust pageSize catalog' := by
  have checked : ∀ block ∈ blockKeys, BlockChecked pageSize block := by
    rcases register_eq_ok registered with ⟨rfl, -⟩ | ⟨identity, accepts⟩
    · intro block mem
      cases mem
    · exact pages.checked sound accepts.sameLength
  have adds := trusted.valid.consistent.register registered
  refine ⟨trusted.valid.register checked registered, fun path descriptor found => ?_⟩
  rcases adds.added path descriptor found with old | ⟨i, -, rfl, get⟩
  · exact trusted.pages path descriptor old
  · exact pages i descriptor get

theorem Trusted.mergeRecords {records : List CatalogPrefixRecord}
    (trusted : Trusted trust pageSize catalog) (sound : trust.Sound pageSize cfg)
    (pages : ∀ record ∈ records, trust.Pages record.blockKeys (record.pages.map descriptorOf))
    (merged : records.foldlM mergeRecord catalog = .ok catalog') :
    Trusted trust pageSize catalog' := by
  induction records generalizing catalog with
  | nil =>
    cases merged
    exact trusted
  | cons record records ih =>
    rw [List.forall_mem_cons] at pages
    rw [List.foldlM_cons] at merged
    rcases Py.exists_of_bind merged with ⟨catalog₁, first, merged⟩
    rw [mergeRecord_eq] at first
    exact ih (trusted.register sound pages.1 first) pages.2 merged

theorem Trusted.mergeSnapshot {snapshot : RemoteCatalogSnapshot} {count : ℕ}
    (trusted : Trusted trust pageSize catalog) (sound : trust.Sound pageSize cfg)
    (good : trust.Snapshot snapshot)
    (merged : catalog.mergeSnapshot snapshot = .ok (catalog', count)) :
    Trusted trust pageSize catalog' := by
  unfold RemoteCatalog.RemotePrefixCatalog.mergeSnapshot at merged
  split at merged
  · cases merged
  · rcases Py.exists_of_bind merged with ⟨catalog'', records, returned⟩
    cases returned
    exact trusted.mergeRecords sound good records

/-- A snapshot has the descriptors of its catalog. -/
theorem Trusted.snapshot {snapshot : RemoteCatalogSnapshot}
    (trusted : Trusted trust pageSize catalog)
    (taken : catalog.snapshot = .ok (some snapshot)) : trust.Snapshot snapshot := by
  have identity : catalog.identity ≠ none := by
    intro none
    rw [RemoteCatalog.RemotePrefixCatalog.snapshot, none] at taken
    cases taken
  rcases trusted.valid.snapshot identity with ⟨snapshot', taken', snapshots⟩
  rw [taken] at taken'
  cases taken'
  intro record mem i descriptor get
  have along := snapshots.leaves.along _ (List.mem_map_of_mem mem)
  exact trusted.pages _ _ (along.get i descriptor get)

theorem Trusted.matchKeys (trusted : Trusted trust pageSize catalog)
    {published : List RemoteCatalog.RemotePageDescriptor}
    (matched : catalog.matchKeys blockKeys = .ok (catalog', published)) :
    Trusted trust pageSize catalog' ∧ trust.Pages blockKeys published := by
  rcases trusted.valid.matchKeys blockKeys with
    ⟨catalog'', published', matched', longest, valid, same⟩
  rw [matched] at matched'
  cases matched'
  refine ⟨⟨valid, fun path descriptor found => ?_⟩, fun i descriptor get => ?_⟩
  · exact trusted.pages path descriptor (same ▸ found)
  · exact trusted.pages _ _ (longest.get i descriptor get)

end RemotePrefixCatalog

namespace Service

variable {trust : Trust}

/-- Whatever the service holds is good. -/
structure Trusted (trust : Trust) (pageSize : ℕ) (service : Service) : Prop where
  catalog : RemotePrefixCatalog.Trusted trust pageSize service.catalog
  carries : ∀ key, (service.coordinator key).Carries (trust.payload key)
  futures : ∀ future ∈ service.futures, trust.payload future.key future.payload
  pendings : ∀ pending ∈ service.pendings, trust.Pages pending.blockKeys pending.pages
  publishing : ∀ blockKeys descriptors futures,
    service.phase = .publishing blockKeys descriptors futures → trust.Pages blockKeys descriptors

namespace Trusted

/-! ## Single fields -/

theorem setInflight (trusted : Trusted trust pageSize service)
    (inflightWrites : String → Option FutureId) :
    Trusted trust pageSize { service with inflightWrites } := { trusted with }

theorem setCatalog (trusted : Trusted trust pageSize service) {catalog : RemotePrefixCatalog}
    (good : RemotePrefixCatalog.Trusted trust pageSize catalog) :
    Trusted trust pageSize { service with catalog } := { trusted with catalog := good }

theorem setIdle (trusted : Trusted trust pageSize service) :
    Trusted trust pageSize { service with phase := .idle } :=
  { trusted with
    publishing := by
      intro _ _ _ phase
      cases phase }

theorem submit (trusted : Trusted trust pageSize service) {key : String} {payload : Payload}
    {overwrite : Bool} (good : trust.payload key payload) :
    Trusted trust pageSize (service.submit key payload overwrite) :=
  { trusted with
    futures := by
      intro future mem
      rcases List.mem_append.mp mem with old | new
      · exact trusted.futures future old
      · cases List.mem_singleton.mp new
        exact good }

theorem setFuture (trusted : Trusted trust pageSize service) {f : ℕ} {future future' : PutFuture}
    (found : service.futures[f]? = some future) (sameKey : future'.key = future.key)
    (samePayload : future'.payload = future.payload) :
    Trusted trust pageSize { service with futures := service.futures.set f future' } :=
  { trusted with
    futures := by
      intro other mem
      rcases List.mem_or_eq_of_mem_set mem with old | rfl
      · exact trusted.futures other old
      · rw [sameKey, samePayload]
        exact trusted.futures future (List.mem_of_getElem? found) }

theorem setSlot (trusted : Trusted trust pageSize service) {key : String} {slot : Slot}
    {action : Transfer.Action} (steps : (service.coordinator key).Steps action slot)
    (put : ∀ payload overwrite, action = .put payload overwrite → trust.payload key payload) :
    Trusted trust pageSize
      { service with coordinator := Function.update service.coordinator key slot } :=
  { trusted with
    carries := by
      intro other
      by_cases same : other = key
      · subst same
        change (Function.update service.coordinator other slot other).Carries _
        rw [Function.update_self]
        exact (trusted.carries other).steps steps put
      · change (Function.update service.coordinator key slot other).Carries _
        rw [Function.update_of_ne same]
        exact trusted.carries other }

theorem addPending (trusted : Trusted trust pageSize service) {pending : PendingRemoteWriteback}
    (pages : trust.Pages pending.blockKeys pending.pages) :
    Trusted trust pageSize { service with pendings := service.pendings ++ [pending] } :=
  { trusted with
    pendings := by
      intro other mem
      rcases List.mem_append.mp mem with old | new
      · exact trusted.pendings other old
      · cases List.mem_singleton.mp new
        exact pages }

end Trusted

/-! ## Methods -/

theorem dropWrites_eq (service : Service)
    (writes : List (RemoteCatalog.RemotePageDescriptor × FutureId)) :
    ∃ inflightWrites, service.dropWrites writes = { service with inflightWrites } := by
  induction writes generalizing service with
  | nil => exact ⟨_, rfl⟩
  | cons write writes ih =>
    unfold dropWrites
    split
    · rcases ih (service.popInflight write.1.objectKey) with ⟨inflightWrites, dropped⟩
      exact ⟨inflightWrites, dropped⟩
    · exact ih service

theorem requirePages_eq (service : Service)
    (pages : List (RemoteCatalog.RemotePageDescriptor × ℕ)) :
    ∃ inflightWrites, (service.requirePages pages).1 = { service with inflightWrites } := by
  induction pages generalizing service with
  | nil => exact ⟨_, rfl⟩
  | cons page pages ih =>
    unfold requirePages
    split
    · exact ih service
    · split
      · rcases ih (service.popInflight page.1.objectKey) with ⟨inflightWrites, required⟩
        exact ⟨inflightWrites, required⟩
      · exact ih service

namespace Trusted

variable {blockKeys : List BlockKey} {descriptors : List RemoteCatalog.RemotePageDescriptor}

theorem dropWrites (trusted : Trusted trust pageSize service)
    (writes : List (RemoteCatalog.RemotePageDescriptor × FutureId)) :
    Trusted trust pageSize (service.dropWrites writes) := by
  rcases dropWrites_eq service writes with ⟨inflightWrites, dropped⟩
  rw [dropped]
  exact trusted.setInflight inflightWrites

theorem requirePages (trusted : Trusted trust pageSize service)
    (pages : List (RemoteCatalog.RemotePageDescriptor × ℕ)) :
    Trusted trust pageSize (service.requirePages pages).1 := by
  rcases requirePages_eq service pages with ⟨inflightWrites, required⟩
  rw [required]
  exact trusted.setInflight inflightWrites

theorem scheduleCatalogSave (trusted : Trusted trust pageSize service)
    (sound : trust.Sound pageSize cfg) :
    Trusted trust pageSize (service.scheduleCatalogSave cfg) := by
  unfold Service.scheduleCatalogSave
  split
  · exact trusted
  · next key isCatalog =>
    split
    · next snapshot taken =>
      split
      · exact trusted
      · exact trusted.submit (sound.saves key snapshot isCatalog (trusted.catalog.snapshot taken))
    · exact trusted

/-- Registration and the save behind it. -/
theorem register (trusted : Trusted trust pageSize service) (sound : trust.Sound pageSize cfg)
    (pages : trust.Pages blockKeys descriptors) {catalog : RemotePrefixCatalog}
    (registered : service.catalog.register blockKeys descriptors = .ok catalog) :
    Trusted trust pageSize ({ service with catalog }.scheduleCatalogSave cfg) :=
  (trusted.setCatalog (trusted.catalog.register sound pages registered)).scheduleCatalogSave sound

/-- A method which raises changes nothing. -/
theorem orUnchanged (trusted : Trusted trust pageSize service) {result : Py Service}
    (returns : ∀ returned, result = .ok returned → Trusted trust pageSize returned) :
    Trusted trust pageSize (service.orUnchanged result) := by
  cases result with
  | ok returned => exact returns returned rfl
  | error error => exact trusted

theorem run (trusted : Trusted trust pageSize service) {f : FutureId}
    (ran : service.run f = some service') : Trusted trust pageSize service' := by
  unfold Service.run at ran
  split at ran
  · cases ran
  · next future found =>
    split at ran
    · cases ran
    · split at ran
      · cases ran
        exact trusted.setFuture found rfl rfl
      · cases ran
        have good := trusted.futures future (List.mem_of_getElem? found)
        have put : (service.coordinator future.key).Steps (.put future.payload future.overwrite)
            ((service.coordinator future.key).put future.payload future.overwrite) := .put
        have moved := trusted.setSlot put fun payload overwrite same => by
          cases same
          exact good
        exact moved.setFuture found rfl rfl

theorem resolve (trusted : Trusted trust pageSize service) {f : FutureId}
    (resolved : service.resolve f = some service') : Trusted trust pageSize service' := by
  unfold Service.resolve at resolved
  split at resolved
  · cases resolved
  · next future found =>
    split at resolved
    · split at resolved
      · cases resolved
        exact trusted.setFuture found rfl rfl
      · cases resolved
    · cases resolved

theorem pagesRequiringWrite (trusted : Trusted trust pageSize service) (blockKeys : List BlockKey)
    (descriptors : List RemoteCatalog.RemotePageDescriptor) :
    Trusted trust pageSize (service.pagesRequiringWrite blockKeys descriptors).1 := by
  unfold Service.pagesRequiringWrite
  split
  · exact trusted
  · split
    · exact trusted
    · next matched =>
      exact (trusted.setCatalog (trusted.catalog.matchKeys matched).1).requirePages _

theorem planWrites_eq {envelopes : Envelopes}
    {pages : List (RemoteCatalog.RemotePageDescriptor × ℕ)}
    {plan : List (ℕ × RemoteCatalog.RemotePageDescriptor × Option FutureId)}
    (planned : service.planWrites envelopes pages = .ok plan) :
    plan.map (fun entry => (entry.2.1, entry.1)) = pages := by
  induction pages generalizing plan with
  | nil =>
    cases planned
    rfl
  | cons page pages ih =>
    unfold Service.planWrites at planned
    dsimp only at planned
    split at planned
    · cases planned
    · rcases Py.exists_of_bind planned with ⟨rest, plannedRest, returned⟩
      cases returned
      rw [List.map_cons, ih plannedRest]

theorem writePlanned (trusted : Trusted trust pageSize service) {envelopes : Envelopes}
    {plan : List (ℕ × RemoteCatalog.RemotePageDescriptor × Option FutureId)}
    (good : ∀ entry ∈ plan, ∀ payload, envelopes entry.1 = some payload →
      trust.payload entry.2.1.objectKey payload) :
    Trusted trust pageSize (service.writePlanned envelopes plan).1 := by
  induction plan generalizing service with
  | nil => exact trusted
  | cons entry plan ih =>
    rcases entry with ⟨index, descriptor, future⟩
    rw [List.forall_mem_cons] at good
    cases future with
    | some f => exact ih trusted good.2
    | none =>
      unfold Service.writePlanned
      dsimp only
      split
      · exact trusted
      · next envelope exported =>
        exact ih ((trusted.submit (good.1 envelope exported)).setInflight _) good.2

theorem submitWriteback (trusted : Trusted trust pageSize service)
    {envelopes : Envelopes} (pages : trust.Pages blockKeys descriptors)
    (good : trust.Envelopes descriptors envelopes) :
    Trusted trust pageSize (service.submitWriteback blockKeys descriptors envelopes).1 := by
  unfold Service.submitWriteback
  split
  · exact trusted
  · split
    · exact trusted
    · next catalog published matched =>
      have first := trusted.setCatalog (trusted.catalog.matchKeys matched).1
      dsimp only
      split
      · exact first
      · exact first
      · next plan _ planned =>
        have entries : ∀ entry ∈ plan, ∀ payload, envelopes entry.1 = some payload →
            trust.payload entry.2.1.objectKey payload := by
          intro entry mem payload exported
          have listed := List.mem_map_of_mem (f := fun entry => (entry.2.1, entry.1)) mem
          rw [planWrites_eq planned] at listed
          have get := List.mem_zipIdx_iff_getElem?.mp (List.mem_of_mem_drop listed)
          exact good _ _ payload get exported
        have written := first.writePlanned entries
        split
        · next made =>
          rw [made] at written
          exact written
        · next made =>
          rw [made] at written
          split
          · exact written
          · next pending new =>
            rcases PendingRemoteWriteback.fields_of_new new with ⟨isKeys, isPages, -⟩
            apply written.addPending
            rw [isKeys, isPages]
            exact pages

theorem submitAll (trusted : Trusted trust pageSize service)
    {pages : List (RemoteCatalog.RemotePageDescriptor × Payload)}
    (good : ∀ page ∈ pages, trust.payload page.1.objectKey page.2) :
    Trusted trust pageSize (pages.foldl
      (fun service page => service.submit page.1.objectKey page.2 false) service) := by
  induction pages generalizing service with
  | nil => exact trusted
  | cons page pages ih =>
    rw [List.forall_mem_cons] at good
    exact ih (trusted.submit good.1) good.2

theorem publishPrefix (trusted : Trusted trust pageSize service) {envelopes : List Payload}
    (pages : trust.Pages blockKeys descriptors)
    (good : trust.Envelopes descriptors fun i => envelopes[i]?)
    (published : service.publishPrefix blockKeys descriptors envelopes = .ok service') :
    Trusted trust pageSize service' := by
  unfold Service.publishPrefix at published
  split at published
  · cases published
  · split at published
    · cases published
    · cases published
      have submitted : ∀ page ∈ descriptors.zip envelopes,
          trust.payload page.1.objectKey page.2 := by
        intro page mem
        rcases List.mem_iff_getElem?.mp mem with ⟨i, get⟩
        rcases List.getElem?_zip_eq_some.mp get with ⟨isPage, isEnvelope⟩
        exact good i page.1 page.2 isPage isEnvelope
      exact { trusted.submitAll submitted with
        publishing := by
          intro _ _ _ phase
          cases phase
          exact pages }

theorem completeWriteback (trusted : Trusted trust pageSize service)
    (sound : trust.Sound pageSize cfg) {pending : PendingRemoteWriteback}
    (pages : trust.Pages pending.blockKeys pending.pages)
    (completed : service.completeWriteback cfg pending = .ok service') :
    Trusted trust pageSize service' := by
  rcases Py.exists_of_bind completed with ⟨catalog, registered, returned⟩
  cases returned
  exact (trusted.register sound pages registered).dropWrites _

theorem finishPublish (trusted : Trusted trust pageSize service)
    (sound : trust.Sound pageSize cfg) (pages : trust.Pages blockKeys descriptors)
    (finished : service.finishPublish cfg blockKeys descriptors = .ok service') :
    Trusted trust pageSize service' := by
  rcases Py.exists_of_bind finished with ⟨catalog, registered, returned⟩
  cases returned
  exact trusted.register sound pages registered

theorem loadCatalog (trusted : Trusted trust pageSize service) (sound : trust.Sound pageSize cfg)
    {key : String} (isCatalog : cfg.catalogKey = some key) {outcome : Outcome}
    (good : ∀ bytes, outcome = .ok (some bytes) → trust.payload key bytes) :
    Trusted trust pageSize (service.loadCatalog cfg outcome) := by
  unfold Service.loadCatalog
  split
  · next bytes =>
    split
    · next snapshot decoded =>
      split
      · exact trusted
      · split
        · next merged =>
          have loaded := sound.loads key bytes snapshot isCatalog (good bytes rfl) decoded
          exact trusted.setCatalog (trusted.catalog.mergeSnapshot sound loaded merged)
        · exact trusted
    · exact trusted
  · exact trusted

/-! ## Actions -/

/-- Every action keeps what the service holds good. -/
theorem step (trusted : Trusted trust pageSize service) (sound : trust.Sound pageSize cfg)
    {action : Action} (allowed : trust.Allows action)
    (stepped : service.step cfg action = some service') : Trusted trust pageSize service' := by
  cases action with
  | transfer key action =>
    dsimp only [Service.step] at stepped
    split at stepped
    · cases stepped
    · next notWrite =>
      rcases Option.map_eq_some_iff.mp stepped with ⟨coordinator, moved, rfl⟩
      rcases Coordinator.step_cases moved with rfl | ⟨slot, steps, rfl⟩
      · exact trusted
      · apply trusted.setSlot steps
        rintro payload overwrite rfl
        exact absurd rfl notWrite
  | run f => exact trusted.run stepped
  | resolve f => exact trusted.resolve stepped
  | loaded =>
    dsimp only [Service.step] at stepped
    split at stepped
    · next key _ isCatalog =>
      split at stepped
      · next outcome found =>
        cases stepped
        apply setIdle
        apply trusted.loadCatalog sound isCatalog
        rintro bytes rfl
        exact (trusted.carries key).results 0 bytes (mem_of_lookup found)
      · cases stepped
    · cases stepped
  | loadTimedOut =>
    dsimp only [Service.step] at stepped
    split at stepped
    · cases stepped
      exact trusted.setIdle
    · cases stepped
  | matchKeys blockKeys =>
    dsimp only [Service.step] at stepped
    split at stepped
    · next matched =>
      rcases whenIdle_eq stepped with ⟨rfl, -⟩
      exact trusted.setCatalog (trusted.catalog.matchKeys matched).1
    · rcases whenIdle_eq stepped with ⟨rfl, -⟩
      exact trusted
  | registerExistingPrefix blockKeys descriptors =>
    rcases whenIdle_eq stepped with ⟨rfl, -⟩
    apply trusted.orUnchanged
    intro returned registered
    rcases Py.exists_of_bind registered with ⟨catalog, accepted, finished⟩
    cases finished
    exact trusted.register sound allowed accepted
  | pagesRequiringWrite blockKeys descriptors =>
    rcases whenIdle_eq stepped with ⟨rfl, -⟩
    exact trusted.pagesRequiringWrite blockKeys descriptors
  | submitWriteback blockKeys descriptors envelopes =>
    rcases whenIdle_eq stepped with ⟨rfl, -⟩
    exact trusted.submitWriteback allowed.1 allowed.2
  | completeWriteback i =>
    dsimp only [Service.step] at stepped
    split at stepped
    · next pending found =>
      split at stepped
      · rcases whenIdle_eq stepped with ⟨rfl, -⟩
        exact trusted
      · split at stepped
        · rcases whenIdle_eq stepped with ⟨rfl, -⟩
          apply trusted.orUnchanged
          intro returned completed
          exact trusted.completeWriteback sound
            (trusted.pendings pending (List.mem_of_getElem? found)) completed
        · cases stepped
    · cases stepped
  | failWriteback i =>
    dsimp only [Service.step] at stepped
    split at stepped
    · rcases whenIdle_eq stepped with ⟨rfl, -⟩
      exact trusted.dropWrites _
    · cases stepped
  | publishPrefix blockKeys descriptors envelopes =>
    rcases whenIdle_eq stepped with ⟨rfl, -⟩
    apply trusted.orUnchanged
    intro returned published
    exact trusted.publishPrefix allowed.1 allowed.2 published
  | published =>
    dsimp only [Service.step] at stepped
    split at stepped
    · next blockKeys descriptors futures phase =>
      split at stepped
      · cases stepped
        apply setIdle
        apply trusted.orUnchanged
        intro returned finished
        exact trusted.finishPublish sound (trusted.publishing _ _ _ phase) finished
      · cases stepped
    · cases stepped
  | publishFailed =>
    dsimp only [Service.step] at stepped
    split at stepped
    · cases stepped
      exact trusted.setIdle
    · cases stepped

end Trusted

/-- A service which starts over good objects. -/
theorem trusted_initial {objects : String → Option Payload}
    (good : ∀ key payload, objects key = some payload → trust.payload key payload) :
    Trusted trust pageSize (initial cfg .empty objects) where
  catalog := by
    refine ⟨RemoteCatalog.RemotePrefixCatalog.empty_valid, fun path descriptor found => ?_⟩
    rw [initial, RemoteCatalog.RemotePrefixCatalog.empty_page] at found
    cases found
  carries key := Slot.carries_initial (good key)
  futures := by
    intro future mem
    cases mem
  pendings := by
    intro pending mem
    cases mem
  publishing := by
    intro blockKeys descriptors futures phase
    dsimp only [initial] at phase
    split at phase <;> cases phase

end Service

end NanoVllm.RemoteRestore
