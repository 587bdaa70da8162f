import NanoVllm.RemoteRestore.Invariant

/-!
# What the methods preserve

Each method is a sequence of changes of single fields, and each loop keeps the invariant and what
it has collected so far.
-/

namespace NanoVllm.RemoteRestore

open Transfer RemoteCatalog RemoteCatalogSnapshotCodec

variable {F : Type} {cfg : ServiceConfig F} {service service' : Service}

/-- `json.loads` reads back what `json.dumps` has written for a snapshot. -/
def LoadsBack (cfg : ServiceConfig F) (snapshot : RemoteCatalogSnapshot) : Prop :=
  cfg.env.loads (cfg.env.dumps (envelope cfg.env snapshot)) = .ok (envelope cfg.env snapshot)

namespace Service

/-- A service which has taken a step. -/
structure Extends (cfg : ServiceConfig F) (service service' : Service) : Prop where
  grows : Grows service service'
  valid : Valid cfg service'

theorem Extends.trans {service'' : Service} (first : Extends cfg service service')
    (second : Extends cfg service' service'') : Extends cfg service service'' :=
  ⟨first.grows.trans second.grows, second.valid⟩

theorem Valid.refl (valid : Valid cfg service) : Extends cfg service service := ⟨.refl _, valid⟩

/-! ## The event loop -/

theorem take_all {futures : List PutFuture} {f e : ℕ} {earlier : PutFuture}
    (all : (futures.take f).all PutFuture.hasRun = true) (before : e < f)
    (found : futures[e]? = some earlier) : earlier.hasRun = true := by
  apply List.all_eq_true.mp all
  apply List.mem_of_getElem? (i := e)
  rw [List.getElem?_take, if_pos before, found]

theorem Valid.run (valid : Valid cfg service) {f : FutureId}
    (ran : service.run f = some service') : Extends cfg service service' := by
  unfold Service.run at ran
  split at ran
  · cases ran
  · rename_i future found
    have futureValid := valid.futures future (List.mem_of_getElem? found)
    split at ran
    · cases ran
    · rename_i ready
      rcases not_or.mp ready with ⟨notRun, ready⟩
      have all := not_not.mp ready
      have unregistered : future.task = none ∧ future.result = none := by
        simpa [PutFuture.hasRun] using notRun
      split at ran
      · rename_i emptyKey
        cases ran
        have inOrder := valid.inOrder.set found
          { future with result := some (.error ⟨"ValueError", "key must not be empty"⟩) } rfl
          (by simp [PutFuture.hasRun]) (take_all all) (by simp [unregistered.1])
          (by simp [unregistered.1])
        have ended : FutureValid cfg service
            { future with result := some (.error ⟨"ValueError", "key must not be empty"⟩) } := {
          registered := futureValid.registered
          ran := fun _ named => absurd emptyKey named
          stored := fun succeeded => by cases succeeded
          names := futureValid.names }
        rcases valid.setFuture found ended rfl inOrder with ⟨grows, valid'⟩
        exact ⟨grows, valid'⟩
      · cases ran
        have steps : (service.coordinator future.key).Steps
            (.put future.payload future.overwrite)
            ((service.coordinator future.key).put future.payload future.overwrite) := .put
        rcases valid.setSlot steps (by simp) (by
          rintro isCatalog payload overwrite same
          cases same
          exact futureValid.names isCatalog) with ⟨grows, registered⟩
        have before {e i : ℕ} {earlier : PutFuture}
            (foundEarlier : service.futures[e]? = some earlier)
            (sameKey : earlier.key = future.key) (isTask : earlier.task = some i) :
            i < (service.coordinator future.key).tasks.length := by
          rcases (valid.futures earlier (List.mem_of_getElem? foundEarlier)).registered i isTask
            with ⟨task, foundTask, -⟩
          rw [sameKey] at foundTask
          exact (List.getElem?_eq_some_iff.mp foundTask).1
        have inOrder := valid.inOrder.set found
          { future with task := some (service.coordinator future.key).tasks.length } rfl
          (by simp [PutFuture.hasRun]) (take_all all)
          (by
            intro e i j earlier _ foundEarlier sameKey isTask isLast
            cases isLast
            exact before foundEarlier sameKey isTask)
          (by
            intro g i j later after foundLater _ _ isTask
            have laterRan : later.hasRun = true := by simp [PutFuture.hasRun, isTask]
            exact absurd (valid.inOrder.fifo after found foundLater laterRan) notRun)
        have grown := (registered.futures future (List.mem_of_getElem? found))
        have last : ((service.coordinator future.key).put future.payload future.overwrite).tasks[
            (service.coordinator future.key).tasks.length]? = some {
              operation := .put future.payload future.overwrite
              generation := (service.coordinator future.key).entry.generation + 1
              previous := (service.coordinator future.key).entry.ioTail
              status := .waiting } := List.getElem?_concat_length ..
        have awaiting : FutureValid cfg _
            { future with task := some (service.coordinator future.key).tasks.length } := {
          registered := by
            rintro i ⟨⟩
            rw [← @Function.update_self _ _ _ future.key
              ((service.coordinator future.key).put future.payload future.overwrite)
              service.coordinator] at last
            exact ⟨_, last, rfl⟩
          ran := fun _ _ => ⟨_, rfl⟩
          stored := grown.stored
          names := grown.names }
        have awaits := registered.setFuture found awaiting rfl inOrder
        exact ⟨grows.trans awaits.1, awaits.2⟩

theorem Valid.resolve (valid : Valid cfg service) {f : FutureId}
    (resolved : service.resolve f = some service') : Extends cfg service service' := by
  unfold Service.resolve at resolved
  split at resolved
  · cases resolved
  · rename_i future found
    split at resolved
    · rename_i i unresolved isTask
      split at resolved
      · rename_i outcome done
        cases resolved
        have futureValid := valid.futures future (List.mem_of_getElem? found)
        rcases Option.bind_eq_some_iff.mp done with ⟨task, foundTask, result⟩
        rcases futureValid.registered i isTask with ⟨task', foundTask', isPut⟩
        cases foundTask.symm.trans foundTask'
        have hasRun : future.hasRun = true := by simp [PutFuture.hasRun, isTask]
        have inOrder := valid.inOrder.set found
          { future with result := some (outcome.map fun _ => ()) } rfl
          (by simp [PutFuture.hasRun])
          (fun before foundEarlier => valid.inOrder.fifo before foundEarlier found hasRun)
          (fun before foundEarlier sameKey isTask isTask' =>
            valid.inOrder.ordered before foundEarlier found sameKey isTask isTask')
          (fun after foundLater sameKey isTask isTask' =>
            valid.inOrder.ordered after found foundLater sameKey isTask isTask')
        have ended : FutureValid cfg service
            { future with result := some (outcome.map fun _ => ()) } := {
          registered := futureValid.registered
          ran := fun _ _ => ⟨i, isTask⟩
          stored := by
            intro succeeded
            cases outcome with
            | error exc => cases succeeded
            | ok payload =>
              rcases Task.outcome?_of_result? result with ⟨fetched, current, outcome, -⟩
              exact (valid.persists future.key).put task (List.mem_of_getElem? foundTask)
                future.payload future.overwrite fetched isPut outcome
          names := futureValid.names }
        rcases valid.setFuture found ended rfl inOrder with ⟨grows, valid'⟩
        exact ⟨grows, valid'⟩
      · cases resolved
    · cases resolved

/-! ## Registration -/

/-- An encoded snapshot of the catalog names stored pages. -/
theorem Valid.namesStored (valid : Valid cfg service) {snapshot : RemoteCatalogSnapshot}
    (taken : service.catalog.snapshot = .ok (some snapshot)) (loadsBack : LoadsBack cfg snapshot) :
    NamesStored cfg service (encode cfg.env snapshot) := by
  intro snapshot' decoded record mem page memPages
  rw [decode_encode cfg.env snapshot loadsBack] at decoded
  cases decoded
  rcases valid.consistent.snapshot_page taken mem memPages with ⟨path, found⟩
  exact valid.pages path _ found

theorem catalog_scheduleCatalogSave (service : Service) :
    (service.scheduleCatalogSave cfg).catalog = service.catalog := by
  unfold scheduleCatalogSave
  split
  · rfl
  · split
    · split <;> rfl
    · rfl

theorem Valid.scheduleCatalogSave (valid : Valid cfg service)
    (loadsBack : ∀ snapshot, service.catalog.snapshot = .ok (some snapshot) →
      LoadsBack cfg snapshot) :
    Extends cfg service (service.scheduleCatalogSave cfg) := by
  unfold Service.scheduleCatalogSave
  split
  · exact valid.refl
  · split
    · rename_i snapshot taken
      split
      · exact valid.refl
      · rcases valid.submit fun _ => valid.namesStored taken (loadsBack snapshot taken) with
          ⟨grows, valid'⟩
        exact ⟨grows, valid'⟩
    · exact valid.refl

/-- A registration whose new pages are stored. -/
theorem Valid.register (valid : Valid cfg service) {blockKeys : List BlockKey}
    {descriptors : List RemoteCatalog.RemotePageDescriptor} {catalog : RemotePrefixCatalog}
    (registered : service.catalog.register blockKeys descriptors = .ok catalog)
    (stored : ∀ (i : ℕ) (page : RemoteCatalog.RemotePageDescriptor), descriptors[i]? = some page →
      service.catalog.page (blockKeys.take (i + 1)) = none → service.Stored page.objectKey) :
    Extends cfg service { service with catalog } := by
  have adds := valid.consistent.register registered
  have grows : ∀ path, service.catalog.page path ≠ none → catalog.page path ≠ none := by
    intro path found
    rcases Option.ne_none_iff_exists'.mp found with ⟨page, isPage⟩
    rw [adds.kept path page isPage]
    exact Option.some_ne_none page
  refine ⟨⟨fun _ stored => stored, fun _ _ isPut => isPut, grows⟩, ?_⟩
  refine valid.setCatalog adds.consistent grows ?_
  intro path page found
  rcases adds.added path page found with old | ⟨i, absent, rfl, get⟩
  · exact valid.pages path page old
  · exact stored i page get absent

/-- Registration and the save behind it, as four methods do them. -/
theorem Valid.publish (valid : Valid cfg service) {blockKeys : List BlockKey}
    {descriptors : List RemoteCatalog.RemotePageDescriptor} {catalog : RemotePrefixCatalog}
    (registered : service.catalog.register blockKeys descriptors = .ok catalog)
    (stored : ∀ (i : ℕ) (page : RemoteCatalog.RemotePageDescriptor), descriptors[i]? = some page →
      service.catalog.page (blockKeys.take (i + 1)) = none → service.Stored page.objectKey)
    (loadsBack : ∀ snapshot, catalog.snapshot = .ok (some snapshot) → LoadsBack cfg snapshot) :
    Extends cfg service ({ service with catalog }.scheduleCatalogSave cfg) := by
  have first := valid.register registered stored
  exact first.trans (first.valid.scheduleCatalogSave loadsBack)

/-- What a future has stored once its result is seen. -/
theorem Valid.stored_of_succeeded (valid : Valid cfg service) {f : FutureId} {key : String}
    (isPut : service.IsPut f key) (succeeded : service.succeeded f = true) :
    service.Stored key := by
  rcases isPut with ⟨future, found, rfl⟩
  rw [Service.succeeded, found] at succeeded
  exact (valid.futures future (List.mem_of_getElem? found)).stored succeeded

/-! ## Write-backs -/

theorem Valid.dropWrites (valid : Valid cfg service)
    (writes : List (RemoteCatalog.RemotePageDescriptor × FutureId)) :
    Extends cfg service (service.dropWrites writes) := by
  induction writes generalizing service with
  | nil => exact valid.refl
  | cons write writes ih =>
    unfold Service.dropWrites
    split
    · have popped : Extends cfg service (service.popInflight write.1.objectKey) :=
        ⟨⟨fun _ stored => stored, fun _ _ isPut => isPut, fun _ found => found⟩,
          valid.popInflight _⟩
      exact popped.trans (ih popped.valid)
    · exact ih valid

theorem catalog_dropWrites (service : Service)
    (writes : List (RemoteCatalog.RemotePageDescriptor × FutureId)) :
    (service.dropWrites writes).catalog = service.catalog := by
  induction writes generalizing service with
  | nil => rfl
  | cons write writes ih =>
    unfold dropWrites
    split
    · exact ih _
    · exact ih service

theorem Valid.requirePages (valid : Valid cfg service)
    (pages : List (RemoteCatalog.RemotePageDescriptor × ℕ)) :
    Extends cfg service (service.requirePages pages).1 := by
  induction pages generalizing service with
  | nil => exact valid.refl
  | cons page pages ih =>
    unfold Service.requirePages
    split
    · exact ih valid
    · split
      · have popped : Extends cfg service (service.popInflight page.1.objectKey) :=
          ⟨⟨fun _ stored => stored, fun _ _ isPut => isPut, fun _ found => found⟩,
            valid.popInflight _⟩
        exact popped.trans (ih popped.valid)
      · exact ih valid

/-- A lookup changes only the order of use. -/
theorem Valid.matchKeys (valid : Valid cfg service) {blockKeys : List BlockKey}
    {catalog : RemotePrefixCatalog} {published : List RemoteCatalog.RemotePageDescriptor}
    (matched : service.catalog.matchKeys blockKeys = .ok (catalog, published)) :
    Extends cfg service { service with catalog } ∧
      PathIndex.IsLongestMatch service.catalog.page blockKeys published ∧
      catalog.page = service.catalog.page := by
  rcases valid.consistent.matchKeys blockKeys with
    ⟨catalog', published', matched', longest, consistent, same, -⟩
  rw [matched] at matched'
  cases matched'
  have grows : ∀ path, service.catalog.page path ≠ none → catalog.page path ≠ none :=
    fun path found => same ▸ found
  refine ⟨⟨⟨fun _ stored => stored, fun _ _ isPut => isPut, grows⟩, ?_⟩, longest, same⟩
  exact valid.setCatalog consistent grows fun path page found =>
    valid.pages path page (same ▸ found)

theorem Valid.pagesRequiringWrite (valid : Valid cfg service) (blockKeys : List BlockKey)
    (descriptors : List RemoteCatalog.RemotePageDescriptor) :
    Extends cfg service (service.pagesRequiringWrite blockKeys descriptors).1 := by
  unfold Service.pagesRequiringWrite
  split
  · exact valid.refl
  · split
    · exact valid.refl
    · rename_i catalog published matched
      have first := (valid.matchKeys matched).1
      exact first.trans (first.valid.requirePages _)

/-- A plan lists the pages in order, with the futures which write them already. -/
structure Planned (service : Service) (pages : List (RemoteCatalog.RemotePageDescriptor × ℕ))
    (plan : List (ℕ × RemoteCatalog.RemotePageDescriptor × Option FutureId)) : Prop where
  pages : plan.map (·.2.1) = pages.map Prod.fst
  isPut : ∀ entry ∈ plan, ∀ f, entry.2.2 = some f → service.IsPut f entry.2.1.objectKey

theorem Valid.planWrites (valid : Valid cfg service) {envelopes : Envelopes}
    {pages : List (RemoteCatalog.RemotePageDescriptor × ℕ)}
    {plan : List (ℕ × RemoteCatalog.RemotePageDescriptor × Option FutureId)}
    (planned : service.planWrites envelopes pages = .ok plan) : Planned service pages plan := by
  induction pages generalizing plan with
  | nil =>
    cases planned
    exact ⟨rfl, nofun⟩
  | cons page pages ih =>
    unfold Service.planWrites at planned
    dsimp only at planned
    split at planned
    · cases planned
    · rcases Py.exists_of_bind planned with ⟨rest, plannedRest, planned⟩
      cases planned
      have restPlanned := ih plannedRest
      refine ⟨by rw [List.map_cons, List.map_cons, restPlanned.pages], ?_⟩
      intro entry mem f isFuture
      rcases List.mem_cons.mp mem with rfl | mem
      · exact valid.inflight _ f isFuture
      · exact restPlanned.isPut entry mem f isFuture

/-- The writes of a batch: the pages of the plan with the futures which write them. -/
structure Writes (cfg : ServiceConfig F) (service : Service)
    (plan : List (ℕ × RemoteCatalog.RemotePageDescriptor × Option FutureId)) (service' : Service)
    (writes : Py (List (RemoteCatalog.RemotePageDescriptor × FutureId))) : Prop where
  extended : Extends cfg service service'
  catalog : service'.catalog = service.catalog
  pages : ∀ pages, writes = .ok pages → pages.map Prod.fst = plan.map (·.2.1)
  isPut : ∀ pages, writes = .ok pages → ∀ write ∈ pages, service'.IsPut write.2 write.1.objectKey

theorem Writes.cons {middle : Service}
    {entry : ℕ × RemoteCatalog.RemotePageDescriptor × Option FutureId}
    {plan : List (ℕ × RemoteCatalog.RemotePageDescriptor × Option FutureId)} {f : FutureId}
    {writes : Py (List (RemoteCatalog.RemotePageDescriptor × FutureId))}
    (first : Extends cfg service middle) (catalog : middle.catalog = service.catalog)
    (isPut : middle.IsPut f entry.2.1.objectKey)
    (rest : Writes cfg middle plan service' writes) :
    Writes cfg service (entry :: plan) service' (writes.map ((entry.2.1, f) :: ·)) := by
  refine ⟨first.trans rest.extended, rest.catalog.trans catalog, ?_, ?_⟩
  · intro pages made
    cases writes with
    | error error => cases made
    | ok written =>
      cases made
      rw [List.map_cons, List.map_cons, rest.pages written rfl]
  · intro pages made write mem
    cases writes with
    | error error => cases made
    | ok written =>
      cases made
      rcases List.mem_cons.mp mem with rfl | mem
      · exact rest.extended.grows.isPut _ _ isPut
      · exact rest.isPut written rfl write mem

theorem Valid.writePlanned (valid : Valid cfg service) (envelopes : Envelopes)
    {plan : List (ℕ × RemoteCatalog.RemotePageDescriptor × Option FutureId)}
    (notCatalog : ∀ entry ∈ plan, cfg.catalogKey ≠ some entry.2.1.objectKey)
    (isPut : ∀ entry ∈ plan, ∀ f, entry.2.2 = some f → service.IsPut f entry.2.1.objectKey) :
    Writes cfg service plan (service.writePlanned envelopes plan).1
      (service.writePlanned envelopes plan).2 := by
  induction plan generalizing service with
  | nil =>
    refine ⟨valid.refl, rfl, ?_, ?_⟩
    · rintro pages ⟨⟩
      rfl
    · rintro pages ⟨⟩
      nofun
  | cons entry plan ih =>
    rcases entry with ⟨index, descriptor, future⟩
    rw [List.forall_mem_cons] at notCatalog isPut
    cases future with
    | some f => exact .cons valid.refl rfl (isPut.1 f rfl) (ih valid notCatalog.2 isPut.2)
    | none =>
      unfold Service.writePlanned
      cases envelopes index with
      | none =>
        refine ⟨valid.refl, rfl, ?_, ?_⟩
        · rintro pages ⟨⟩
        · rintro pages ⟨⟩
      | some envelope =>
        have submits : Grows service (service.submit descriptor.objectKey envelope false) ∧
            Valid cfg (service.submit descriptor.objectKey envelope false) :=
          valid.submit fun isCatalog => absurd isCatalog notCatalog.1
        rcases submits with ⟨grows, submitted⟩
        have last := service.isPut_submit descriptor.objectKey envelope false
        have noted := submitted.setInflight last
        have same : Extends cfg service ((service.submit descriptor.objectKey envelope false
            ).setInflight descriptor.objectKey service.futures.length) :=
          ⟨⟨grows.stored, grows.isPut, grows.pages⟩, noted⟩
        exact .cons same rfl last (ih noted notCatalog.2 fun entry mem f isFuture =>
          grows.isPut _ _ (isPut.2 entry mem f isFuture))

theorem PendingRemoteWriteback.fields_of_new {blockKeys : List BlockKey}
    {pages writePages : List RemoteCatalog.RemotePageDescriptor} {futures : List FutureId}
    {pending : PendingRemoteWriteback}
    (made : PendingRemoteWriteback.new blockKeys pages writePages futures = .ok pending) :
    pending.blockKeys = blockKeys ∧ pending.pages = pages ∧ pending.writePages = writePages ∧
      pending.futures = futures := by
  unfold PendingRemoteWriteback.new at made
  split at made
  · split at made
    · cases made
      exact ⟨rfl, rfl, rfl, rfl⟩
    · cases made
  · cases made

/-- A batch whose published pages are found and whose other pages are written. -/
theorem pendingValid_of_writes {pending : PendingRemoteWriteback}
    {published : List RemoteCatalog.RemotePageDescriptor}
    {writes : List (RemoteCatalog.RemotePageDescriptor × FutureId)}
    (found : ∀ i < published.length,
      service.catalog.page (pending.blockKeys.take (i + 1)) ≠ none)
    (pages : writes.map Prod.fst = pending.pages.drop published.length)
    (isPut : ∀ write ∈ writes, service.IsPut write.2 write.1.objectKey)
    (writePages : pending.writePages = writes.map Prod.fst)
    (futures : pending.futures = writes.map Prod.snd) : service.PendingValid pending := by
  intro i page get
  rcases Nat.lt_or_ge i published.length with early | late
  · exact .inl (found i early)
  · right
    have position : (writes.map Prod.fst)[i - published.length]? = some page := by
      rw [pages, List.getElem?_drop, Nat.add_sub_cancel' late, get]
    rw [List.getElem?_map] at position
    rcases Option.map_eq_some_iff.mp position with ⟨write, isWrite, rfl⟩
    refine ⟨i - published.length, write.2, ?_, ?_, isPut write (List.mem_of_getElem? isWrite)⟩
    · rw [writePages, List.getElem?_map, isWrite, Option.map_some]
    · rw [futures, List.getElem?_map, isWrite, Option.map_some]

theorem Valid.submitWriteback (valid : Valid cfg service) (blockKeys : List BlockKey)
    {descriptors : List RemoteCatalog.RemotePageDescriptor} (envelopes : Envelopes)
    (notCatalog : ∀ descriptor ∈ descriptors, cfg.catalogKey ≠ some descriptor.objectKey) :
    Extends cfg service (service.submitWriteback blockKeys descriptors envelopes).1 := by
  unfold Service.submitWriteback
  split
  · exact valid.refl
  · split
    · exact valid.refl
    · rename_i catalog published matched
      rcases valid.matchKeys matched with ⟨first, longest, samePages⟩
      dsimp only
      split
      · exact first
      · exact first
      · rename_i plan _ planned
        have isPlanned := first.valid.planWrites planned
        have sources : plan.map (·.2.1) = descriptors.drop published.length := by
          rw [isPlanned.pages, List.map_drop, List.zipIdx_map_fst]
        have notCatalogPlan : ∀ entry ∈ plan, cfg.catalogKey ≠ some entry.2.1.objectKey := by
          intro entry mem
          have inside := List.mem_map_of_mem (f := fun entry => entry.2.1) mem
          rw [sources] at inside
          exact notCatalog _ (List.mem_of_mem_drop inside)
        have written := first.valid.writePlanned envelopes notCatalogPlan isPlanned.isPut
        split
        · rename_i made
          rw [made] at written
          exact first.trans written.extended
        · rename_i writes made
          rw [made] at written
          have second := first.trans written.extended
          split
          · exact second
          · rename_i pending new
            rcases PendingRemoteWriteback.fields_of_new new with
              ⟨isKeys, isPages, isWritePages, isFutures⟩
            have pendingValid : Service.PendingValid _ pending :=
              @pendingValid_of_writes _ pending published writes
                (by
                  intro i early
                  rw [written.catalog, isKeys]
                  have get := List.getElem?_eq_getElem early
                  change catalog.page _ ≠ none
                  rw [samePages, longest.get i _ get]
                  exact Option.some_ne_none _)
                (by rw [written.pages writes rfl, sources, isPages])
                (written.isPut writes rfl) isWritePages isFutures
            exact ⟨⟨second.grows.stored, second.grows.isPut, second.grows.pages⟩,
              second.valid.addPending pendingValid⟩

/-- A batch is registered once all its futures have succeeded. -/
theorem Valid.completeWriteback (valid : Valid cfg service) {pending : PendingRemoteWriteback}
    (pendingValid : service.PendingValid pending)
    (succeeded : pending.futures.all service.succeeded = true)
    (completed : service.completeWriteback cfg pending = .ok service')
    (loadsBack : ∀ snapshot, service'.catalog.snapshot = .ok (some snapshot) →
      LoadsBack cfg snapshot) : Extends cfg service service' := by
  rcases Py.exists_of_bind completed with ⟨catalog, registered, completed⟩
  cases completed
  rw [catalog_dropWrites, catalog_scheduleCatalogSave] at loadsBack
  have published : Extends cfg service
      ({ service with catalog }.scheduleCatalogSave cfg) := by
    refine valid.publish registered ?_ loadsBack
    intro i page get absent
    rcases pendingValid i page get with found | ⟨k, f, -, isFuture, isPut⟩
    · exact absurd absent found
    · exact valid.stored_of_succeeded isPut
        (List.all_eq_true.mp succeeded f (List.mem_of_getElem? isFuture))
  exact published.trans (published.valid.dropWrites _)

/-! ## Publishing and loading -/

/-- The futures of `publish_prefix`, which follow those there were. -/
theorem Valid.submitAll (valid : Valid cfg service)
    {pages : List (RemoteCatalog.RemotePageDescriptor × Payload)}
    (notCatalog : ∀ page ∈ pages, cfg.catalogKey ≠ some page.1.objectKey) :
    Extends cfg service (pages.foldl
      (fun service page => service.submit page.1.objectKey page.2 false) service) ∧
    ∀ i page, pages[i]? = some page → (pages.foldl
      (fun service page => service.submit page.1.objectKey page.2 false) service).IsPut
        (service.futures.length + i) page.1.objectKey := by
  induction pages generalizing service with
  | nil => exact ⟨valid.refl, nofun⟩
  | cons page pages ih =>
    rw [List.forall_mem_cons] at notCatalog
    have submits : Grows service (service.submit page.1.objectKey page.2 false) ∧
        Valid cfg (service.submit page.1.objectKey page.2 false) :=
      valid.submit fun isCatalog => absurd isCatalog notCatalog.1
    rcases submits with ⟨grows, submitted⟩
    rcases ih submitted notCatalog.2 with ⟨rest, isPut⟩
    have first : Extends cfg service (service.submit page.1.objectKey page.2 false) :=
      ⟨grows, submitted⟩
    refine ⟨first.trans rest, ?_⟩
    intro i other get
    cases i with
    | zero =>
      cases get
      exact rest.grows.isPut _ _ (service.isPut_submit page.1.objectKey page.2 false)
    | succ i =>
      have later := isPut i other get
      have position : (service.submit page.1.objectKey page.2 false).futures.length + i =
          service.futures.length + (i + 1) := by
        change (service.futures ++ [_]).length + i = _
        rw [List.length_append, List.length_singleton]
        omega
      rw [position] at later
      exact later

theorem Valid.publishPrefix (valid : Valid cfg service) {blockKeys : List BlockKey}
    {descriptors : List RemoteCatalog.RemotePageDescriptor} {envelopes : List Payload}
    (notCatalog : ∀ descriptor ∈ descriptors, cfg.catalogKey ≠ some descriptor.objectKey)
    (published : service.publishPrefix blockKeys descriptors envelopes = .ok service') :
    Extends cfg service service' := by
  unfold Service.publishPrefix at published
  split at published
  · cases published
  · rename_i sameLength
    split at published
    · cases published
    · cases published
      have lengths : descriptors.length = envelopes.length := by omega
      have notCatalogPages : ∀ page ∈ descriptors.zip envelopes,
          cfg.catalogKey ≠ some page.1.objectKey :=
        fun page mem => notCatalog _ (List.of_mem_zip mem).1
      rcases valid.submitAll notCatalogPages with ⟨submitted, isPut⟩
      have phase : ({ (descriptors.zip envelopes).foldl
            (fun service page => service.submit page.1.objectKey page.2 false) service with
          phase := .publishing blockKeys descriptors
            (List.range' service.futures.length descriptors.length) } : Service).PhaseValid := by
        intro i page get
        have short := (List.getElem?_eq_some_iff.mp get).1
        refine ⟨service.futures.length + i, ?_, ?_⟩
        · rw [List.getElem?_range' short, Nat.one_mul]
        · have envelope := List.getElem?_eq_getElem (lengths ▸ short : i < envelopes.length)
          have paired : (descriptors.zip envelopes)[i]? = some (page, _) :=
            List.getElem?_zip_eq_some.mpr ⟨get, envelope⟩
          exact isPut i _ paired
      exact ⟨⟨submitted.grows.stored, submitted.grows.isPut, submitted.grows.pages⟩,
        submitted.valid.setPhase phase⟩

theorem Valid.finishPublish (valid : Valid cfg service) {blockKeys : List BlockKey}
    {descriptors : List RemoteCatalog.RemotePageDescriptor} {futures : List FutureId}
    (phase : service.phase = .publishing blockKeys descriptors futures)
    (succeeded : futures.all service.succeeded = true)
    (finished : service.finishPublish cfg blockKeys descriptors = .ok service')
    (loadsBack : ∀ snapshot, service'.catalog.snapshot = .ok (some snapshot) →
      LoadsBack cfg snapshot) : Extends cfg service service' := by
  rcases Py.exists_of_bind finished with ⟨catalog, registered, finished⟩
  cases finished
  rw [catalog_scheduleCatalogSave] at loadsBack
  refine valid.publish registered ?_ loadsBack
  intro i page get _
  have phaseValid := valid.phase
  rw [Service.PhaseValid, phase] at phaseValid
  rcases phaseValid i page get with ⟨f, isFuture, isPut⟩
  exact valid.stored_of_succeeded isPut
    (List.all_eq_true.mp succeeded f (List.mem_of_getElem? isFuture))

theorem Valid.registerExistingPrefix (valid : Valid cfg service) {blockKeys : List BlockKey}
    {descriptors : List RemoteCatalog.RemotePageDescriptor}
    (stored : ∀ descriptor ∈ descriptors, service.Stored descriptor.objectKey)
    (registered : service.registerExistingPrefix cfg blockKeys descriptors = .ok service')
    (loadsBack : ∀ snapshot, service'.catalog.snapshot = .ok (some snapshot) →
      LoadsBack cfg snapshot) : Extends cfg service service' := by
  rcases Py.exists_of_bind registered with ⟨catalog, accepted, finished⟩
  cases finished
  rw [catalog_scheduleCatalogSave] at loadsBack
  exact valid.publish accepted
    (fun i page get _ => stored page (List.mem_of_getElem? get)) loadsBack

/-- A loaded catalog names stored pages. -/
theorem Valid.loadCatalog (valid : Valid cfg service) {outcome : Outcome}
    (names : ∀ envelope, outcome = .ok (some envelope) → NamesStored cfg service envelope) :
    Extends cfg service (service.loadCatalog cfg outcome) := by
  unfold Service.loadCatalog
  split
  · rename_i envelope
    split
    · rename_i snapshot decoded
      split
      · exact valid.refl
      · split
        · rename_i catalog count merged
          have merges := valid.consistent.mergeSnapshot merged
          have grows : ∀ path, service.catalog.page path ≠ none → catalog.page path ≠ none := by
            intro path found
            rcases Option.ne_none_iff_exists'.mp found with ⟨page, isPage⟩
            rw [merges.kept path page isPage]
            exact Option.some_ne_none page
          refine ⟨⟨fun _ stored => stored, fun _ _ isPut => isPut, grows⟩, ?_⟩
          refine valid.setCatalog merges.consistent grows ?_
          intro path page found
          rcases merges.added path page found with old | ⟨record, mem, named, memPages, rfl⟩
          · exact valid.pages path page old
          · exact names envelope rfl snapshot decoded record mem named memPages
        · exact valid.refl
    · exact valid.refl
  · exact valid.refl

end Service

end NanoVllm.RemoteRestore
