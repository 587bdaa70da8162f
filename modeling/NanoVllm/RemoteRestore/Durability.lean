import NanoVllm.RemoteRestore.Methods

/-!
# Durability of published pages

Under every interleaving of the methods, the coroutines, the tasks and the backend, whatever the
catalog returns and whatever its stored snapshot names is stored, and snapshots are written in
the order in which they were taken.
-/

namespace NanoVllm.RemoteRestore

open Transfer RemoteCatalog RemoteCatalogSnapshotCodec

variable {F : Type} {cfg : ServiceConfig F} {service service' : Service}

/-- What the callers of the service promise: an existing prefix is stored, and pages have other
keys than the catalog, as `make_kv_page_key` and `make_kv_catalog_key` make them. -/
def Service.Allowed (cfg : ServiceConfig F) (service : Service) : Action → Prop
  | .registerExistingPrefix _ descriptors =>
      ∀ descriptor ∈ descriptors, service.Stored descriptor.objectKey
  | .submitWriteback _ descriptors _ =>
      ∀ descriptor ∈ descriptors, cfg.catalogKey ≠ some descriptor.objectKey
  | .publishPrefix _ descriptors _ =>
      ∀ descriptor ∈ descriptors, cfg.catalogKey ≠ some descriptor.objectKey
  | _ => True

/-- The services reachable by any interleaving. The backend may hold objects from before, and the
caller may pass a catalog, as long as they name stored pages. -/
inductive Reachable (cfg : ServiceConfig F) : Service → Prop where
  | initial {catalog : RemotePrefixCatalog} {objects : String → Option Payload}
      (consistent : catalog.Consistent)
      (pages : ∀ path page, catalog.page path = some page → objects page.objectKey ≠ none)
      (names : ∀ key bytes snapshot, cfg.catalogKey = some key → objects key = some bytes →
        decode cfg.env bytes = .ok snapshot → ∀ record ∈ snapshot.prefixes,
          ∀ page ∈ record.pages, objects page.objectKey ≠ none) :
      Reachable cfg (.initial cfg catalog objects)
  | step {service service' : Service} {action : Action} (reachable : Reachable cfg service)
      (allowed : service.Allowed cfg action) (stepped : service.step cfg action = some service')
      (loadsBack : ∀ snapshot, service'.catalog.snapshot = .ok (some snapshot) →
        LoadsBack cfg snapshot) : Reachable cfg service'

namespace Service

theorem valid_initial {catalog : RemotePrefixCatalog} {objects : String → Option Payload}
    (consistent : catalog.Consistent)
    (pages : ∀ path page, catalog.page path = some page → objects page.objectKey ≠ none)
    (names : ∀ key bytes snapshot, cfg.catalogKey = some key → objects key = some bytes →
      decode cfg.env bytes = .ok snapshot → ∀ record ∈ snapshot.prefixes,
        ∀ page ∈ record.pages, objects page.objectKey ≠ none) :
    Valid cfg (initial cfg catalog objects) where
  slots key := Slot.valid_initial (objects key)
  persists key := Slot.persists_initial (objects key)
  carries key isCatalog := Slot.carries_initial fun payload held snapshot decoded =>
    names key payload snapshot isCatalog held decoded
  futures := nofun
  inOrder := ⟨nofun, nofun⟩
  consistent := consistent
  pages := pages
  inflight := nofun
  pendings := nofun
  phase := by
    unfold PhaseValid initial
    split
    · rename_i state
      dsimp only at state
      split at state <;> cases state
    · trivial

/-- The service does an action of the engine thread between methods. -/
theorem whenIdle_eq {result : Service}
    (done : service.whenIdle result = some service') : service' = result ∧ service.phase = .idle := by
  unfold whenIdle at done
  split at done
  · rename_i idle
    cases done
    exact ⟨rfl, idle⟩
  · cases done

theorem mem_of_lookup {results : List (CallerId × Outcome)} {caller : CallerId} {outcome : Outcome}
    (found : results.lookup caller = some outcome) : (caller, outcome) ∈ results := by
  rcases List.lookup_eq_some_iff.mp found with ⟨before, after, rfl, -⟩
  exact List.mem_append_right _ List.mem_cons_self

/-- A method which keeps the invariant when it returns keeps it when it raises. -/
theorem Valid.orUnchanged (valid : Valid cfg service) {result : Py Service}
    (returns : ∀ returned, result = .ok returned → service' = returned →
      Extends cfg service returned)
    (isResult : service' = service.orUnchanged result) : Extends cfg service service' := by
  cases result with
  | ok returned =>
    cases isResult
    exact returns returned rfl rfl
  | error error =>
    cases isResult
    exact valid.refl

theorem Valid.setIdle (valid : Valid cfg service) :
    Extends cfg service { service with phase := .idle } :=
  ⟨⟨fun _ stored => stored, fun _ _ isPut => isPut, fun _ found => found⟩, valid.setPhase trivial⟩

theorem Valid.transfer (valid : Valid cfg service) {key : String} {action : Transfer.Action}
    {coordinator : Coordinator} (notWrite : isWrite action = false)
    (stepped : service.coordinator.step key action = some coordinator) :
    Extends cfg service { service with coordinator } := by
  rcases Coordinator.step_cases stepped with rfl | ⟨slot, steps, rfl⟩
  · exact valid.refl
  · rcases valid.setSlot steps
      (by
        rintro rfl
        cases notWrite)
      (by
        rintro - payload overwrite rfl
        cases notWrite) with ⟨grows, valid'⟩
    exact ⟨grows, valid'⟩

theorem Valid.step (valid : Valid cfg service) {action : Action}
    (allowed : service.Allowed cfg action) (stepped : service.step cfg action = some service')
    (loadsBack : ∀ snapshot, service'.catalog.snapshot = .ok (some snapshot) →
      LoadsBack cfg snapshot) : Extends cfg service service' := by
  cases action with
  | transfer key action =>
    dsimp only [Service.step] at stepped
    split at stepped
    · cases stepped
    · rename_i notWrite
      rcases Option.map_eq_some_iff.mp stepped with ⟨coordinator, moved, rfl⟩
      exact valid.transfer (Bool.eq_false_iff.mpr notWrite) moved
  | run f => exact valid.run stepped
  | resolve f => exact valid.resolve stepped
  | loaded =>
    dsimp only [Service.step] at stepped
    split at stepped
    · rename_i catalogKey loading isCatalog
      split at stepped
      · rename_i outcome found
        cases stepped
        have loads : Extends cfg service (service.loadCatalog cfg outcome) := by
          refine valid.loadCatalog ?_
          rintro envelope rfl
          exact (valid.carries catalogKey isCatalog).results 0 envelope (mem_of_lookup found)
        exact loads.trans loads.valid.setIdle
      · cases stepped
    · cases stepped
  | loadTimedOut =>
    dsimp only [Service.step] at stepped
    split at stepped
    · cases stepped
      exact valid.setIdle
    · cases stepped
  | matchKeys blockKeys =>
    dsimp only [Service.step] at stepped
    split at stepped
    · rename_i catalog published matched
      rcases whenIdle_eq stepped with ⟨rfl, -⟩
      exact (valid.matchKeys matched).1
    · rcases whenIdle_eq stepped with ⟨rfl, -⟩
      exact valid.refl
  | registerExistingPrefix blockKeys descriptors =>
    rcases whenIdle_eq stepped with ⟨isResult, -⟩
    refine valid.orUnchanged ?_ isResult
    rintro returned registered rfl
    exact valid.registerExistingPrefix allowed registered loadsBack
  | pagesRequiringWrite blockKeys descriptors =>
    rcases whenIdle_eq stepped with ⟨rfl, -⟩
    exact valid.pagesRequiringWrite blockKeys descriptors
  | submitWriteback blockKeys descriptors envelopes =>
    rcases whenIdle_eq stepped with ⟨rfl, -⟩
    exact valid.submitWriteback blockKeys envelopes allowed
  | completeWriteback i =>
    dsimp only [Service.step] at stepped
    split at stepped
    · rename_i pending found
      split at stepped
      · rcases whenIdle_eq stepped with ⟨rfl, -⟩
        exact valid.refl
      · split at stepped
        · rename_i succeeded
          rcases whenIdle_eq stepped with ⟨isResult, -⟩
          refine valid.orUnchanged ?_ isResult
          rintro returned completed rfl
          exact valid.completeWriteback (valid.pendings pending (List.mem_of_getElem? found))
            succeeded completed loadsBack
        · cases stepped
    · cases stepped
  | failWriteback i =>
    dsimp only [Service.step] at stepped
    split at stepped
    · rcases whenIdle_eq stepped with ⟨rfl, -⟩
      exact valid.dropWrites _
    · cases stepped
  | publishPrefix blockKeys descriptors envelopes =>
    rcases whenIdle_eq stepped with ⟨isResult, -⟩
    refine valid.orUnchanged ?_ isResult
    rintro returned published rfl
    exact valid.publishPrefix allowed published
  | published =>
    dsimp only [Service.step] at stepped
    split at stepped
    · rename_i blockKeys descriptors futures phase
      split at stepped
      · rename_i succeeded
        cases stepped
        have finished : Extends cfg service
            (service.orUnchanged (service.finishPublish cfg blockKeys descriptors)) := by
          refine valid.orUnchanged ?_ rfl
          rintro returned finished same
          rw [same] at loadsBack
          exact valid.finishPublish phase succeeded finished loadsBack
        exact finished.trans finished.valid.setIdle
      · cases stepped
    · cases stepped
  | publishFailed =>
    dsimp only [Service.step] at stepped
    split at stepped
    · cases stepped
      exact valid.setIdle
    · cases stepped

end Service

theorem Reachable.valid (reachable : Reachable cfg service) : service.Valid cfg := by
  induction reachable with
  | initial consistent pages names => exact Service.valid_initial consistent pages names
  | step reachable allowed stepped loadsBack valid =>
    exact (valid.step allowed stepped loadsBack).valid

namespace Service

/-- The guarantees at one instant. -/
structure Durable (cfg : ServiceConfig F) (service : Service) : Prop where
  /-- What the catalog returns is stored. -/
  matched : ∀ blockKeys catalog published,
    service.catalog.matchKeys blockKeys = .ok (catalog, published) →
      ∀ page ∈ published, service.Stored page.objectKey
  /-- What the stored catalog names is stored. -/
  saved : ∀ key bytes snapshot, cfg.catalogKey = some key →
    (service.coordinator key).object = some bytes → decode cfg.env bytes = .ok snapshot →
      ∀ record ∈ snapshot.prefixes, ∀ page ∈ record.pages, service.Stored page.objectKey
  /-- A batch publishes a page only if the future which writes it has succeeded. -/
  published : ∀ i pending service', service.pendings[i]? = some pending →
    service.step cfg (.completeWriteback i) = some service' → ∀ path page,
      service'.catalog.page path = some page → service.catalog.page path = some page ∨
        ∃ (k : ℕ) (f : FutureId), pending.writePages[k]? = some page ∧
          pending.futures[k]? = some f ∧ service.IsPut f page.objectKey ∧
            service.succeeded f = true
  /-- A snapshot is written after those which were submitted before it have been. -/
  ordered : ∀ (f g : FutureId) (future future' : PutFuture) (j : TaskId) (task' : Task), f < g →
    service.futures[f]? = some future → service.futures[g]? = some future' →
      cfg.catalogKey = some future.key → cfg.catalogKey = some future'.key →
        future'.task = some j → (service.coordinator future'.key).tasks[j]? = some task' →
          task'.Started → ∃ (i : TaskId) (task : Task), future.task = some i ∧
            (service.coordinator future.key).tasks[i]? = some task ∧ task.Done

theorem Valid.matched (valid : Valid cfg service) {blockKeys : List BlockKey}
    {catalog : RemotePrefixCatalog} {published : List RemoteCatalog.RemotePageDescriptor}
    (matched : service.catalog.matchKeys blockKeys = .ok (catalog, published))
    {page : RemoteCatalog.RemotePageDescriptor} (mem : page ∈ published) :
    service.Stored page.objectKey := by
  have longest := (valid.matchKeys matched).2.1
  rcases List.mem_iff_getElem?.mp mem with ⟨i, get⟩
  exact valid.pages _ page (longest.get i page get)

/-- The pages which a completed batch adds to the catalog. -/
theorem Valid.published (valid : Valid cfg service) {pending : PendingRemoteWriteback}
    (pendingValid : service.PendingValid pending)
    (succeeded : pending.futures.all service.succeeded = true)
    (completed : service.completeWriteback cfg pending = .ok service') {path : List BlockKey}
    {page : RemoteCatalog.RemotePageDescriptor} (found : service'.catalog.page path = some page) :
    service.catalog.page path = some page ∨
      ∃ (k : ℕ) (f : FutureId), pending.writePages[k]? = some page ∧
        pending.futures[k]? = some f ∧ service.IsPut f page.objectKey ∧
          service.succeeded f = true := by
  rcases Py.exists_of_bind completed with ⟨catalog, registered, completed⟩
  cases completed
  rw [catalog_dropWrites, catalog_scheduleCatalogSave] at found
  have adds := valid.consistent.register registered
  rcases adds.added path page found with old | ⟨i, absent, rfl, get⟩
  · exact .inl old
  · rcases pendingValid i page get with present | ⟨k, f, isPage, isFuture, isPut⟩
    · exact absurd absent present
    · exact .inr ⟨k, f, isPage, isFuture, isPut,
        List.all_eq_true.mp succeeded f (List.mem_of_getElem? isFuture)⟩

theorem Valid.published_step (valid : Valid cfg service) {i : ℕ}
    {pending : PendingRemoteWriteback} (isPending : service.pendings[i]? = some pending)
    (stepped : service.step cfg (.completeWriteback i) = some service') {path : List BlockKey}
    {page : RemoteCatalog.RemotePageDescriptor} (found : service'.catalog.page path = some page) :
    service.catalog.page path = some page ∨
      ∃ (k : ℕ) (f : FutureId), pending.writePages[k]? = some page ∧
        pending.futures[k]? = some f ∧ service.IsPut f page.objectKey ∧
          service.succeeded f = true := by
  have pendingValid := valid.pendings pending (List.mem_of_getElem? isPending)
  dsimp only [Service.step] at stepped
  rw [isPending] at stepped
  dsimp only at stepped
  split at stepped
  · rcases whenIdle_eq stepped with ⟨rfl, -⟩
    exact .inl found
  · split at stepped
    · rename_i succeeded
      rcases whenIdle_eq stepped with ⟨rfl, -⟩
      cases completed : service.completeWriteback cfg pending with
      | error error =>
        rw [completed] at found
        exact .inl found
      | ok returned =>
        rw [completed] at found
        exact valid.published pendingValid succeeded completed found
    · cases stepped

theorem Valid.ordered (valid : Valid cfg service) {f g : FutureId} {future future' : PutFuture}
    {j : TaskId} {task' : Task} (before : f < g) (found : service.futures[f]? = some future)
    (found' : service.futures[g]? = some future') (isCatalog : cfg.catalogKey = some future.key)
    (isCatalog' : cfg.catalogKey = some future'.key) (isTask' : future'.task = some j)
    (foundTask' : (service.coordinator future'.key).tasks[j]? = some task')
    (started : task'.Started) : ∃ (i : TaskId) (task : Task), future.task = some i ∧
      (service.coordinator future.key).tasks[i]? = some task ∧ task.Done := by
  have sameKey : future.key = future'.key := Option.some.inj (isCatalog.symm.trans isCatalog')
  have futureValid := valid.futures future (List.mem_of_getElem? found)
  have ran' : future'.hasRun = true := by simp [PutFuture.hasRun, isTask']
  have ran := valid.inOrder.fifo before found found' ran'
  have named : future.key ≠ "" := fun empty => cfg.named (empty ▸ isCatalog)
  rcases futureValid.ran ran named with ⟨i, isTask⟩
  rcases futureValid.registered i isTask with ⟨task, foundTask, -⟩
  have order := valid.inOrder.ordered before found found' sameKey isTask isTask'
  rw [← sameKey] at foundTask'
  exact ⟨i, task, isTask, foundTask,
    (valid.slots future.key).ordered order foundTask foundTask' started⟩

theorem Valid.durable (valid : Valid cfg service) : Durable cfg service where
  matched _ _ _ matched _ mem := valid.matched matched mem
  saved key bytes snapshot isCatalog stored :=
    (valid.carries key isCatalog).object bytes stored snapshot
  published _ _ _ isPending stepped _ _ found := valid.published_step isPending stepped found
  ordered _ _ _ _ _ _ before found found' isCatalog isCatalog' isTask' foundTask' started :=
    valid.ordered before found found' isCatalog isCatalog' isTask' foundTask' started

end Service

/-- At every instant the pages which can be found are stored. -/
theorem pages_durable (reachable : Reachable cfg service) : service.Durable cfg :=
  reachable.valid.durable

open RemotePrefixCatalog in
/-- A service with a catalog key. -/
def twoPagesConfig : ServiceConfig Empty where
  env := twoPagesEnv
  catalogKey := some "catalog"
  catalogIdentity := none
  named := by decide

/-- Two pages have been written and published, and their snapshot has been stored. -/
theorem pages_durable_twoPages : ∃ service, Reachable twoPagesConfig service ∧
    (service.coordinator "catalog").object ≠ none ∧ service.Durable twoPagesConfig := by
  have start : Reachable twoPagesConfig (.initial twoPagesConfig .empty fun _ => none) :=
    .initial (@RemotePrefixCatalog.empty_valid 0).consistent
      (by
        intro path page found
        rw [RemotePrefixCatalog.empty_page] at found
        cases found)
      (by
        intro key bytes snapshot _ held
        cases held)
  have loaded := @Reachable.step _ _ _ _ .loadTimedOut start trivial rfl nofun
  have submitted := @Reachable.step _ _ _ _
    (.submitWriteback [[1, 2], [3, 4]]
      [⟨"p", "a", 0, 0, by decide⟩, ⟨"q", "a", 0, 1, by decide⟩] fun i => some [i.toUInt8])
    loaded (by simp [Service.Allowed, twoPagesConfig]) rfl nofun
  have ran := @Reachable.step _ _ _ _ (.run 0) submitted trivial rfl nofun
  have called := @Reachable.step _ _ _ _ (.transfer "p" (.call 0)) ran trivial rfl nofun
  have returned := @Reachable.step _ _ _ _ (.transfer "p" (.returns 0)) called trivial rfl nofun
  have finished := @Reachable.step _ _ _ _ (.transfer "p" (.finish 0)) returned trivial rfl nofun
  have resolved := @Reachable.step _ _ _ _ (.resolve 0) finished trivial rfl nofun
  have ran' := @Reachable.step _ _ _ _ (.run 1) resolved trivial rfl nofun
  have called' := @Reachable.step _ _ _ _ (.transfer "q" (.call 0)) ran' trivial rfl nofun
  have returned' := @Reachable.step _ _ _ _ (.transfer "q" (.returns 0)) called' trivial rfl nofun
  have finished' := @Reachable.step _ _ _ _ (.transfer "q" (.finish 0)) returned' trivial rfl nofun
  have resolved' := @Reachable.step _ _ _ _ (.resolve 1) finished' trivial rfl nofun
  have loadsBack : ∀ snapshot, RemotePrefixCatalog.twoPages.snapshot = .ok (some snapshot) →
      LoadsBack twoPagesConfig snapshot := by
    intro snapshot taken
    have isSnapshot : RemotePrefixCatalog.twoPages.snapshot =
        .ok (some RemotePrefixCatalog.twoPagesSnapshot) := by rfl
    rw [isSnapshot] at taken
    cases taken
    rfl
  have completed := @Reachable.step _ _ _ _ (.completeWriteback 0) resolved' trivial rfl loadsBack
  have ran'' := @Reachable.step _ _ _ _ (.run 2) completed trivial rfl loadsBack
  have called'' := @Reachable.step _ _ _ _ (.transfer "catalog" (.call 0)) ran'' trivial rfl
    loadsBack
  have returned'' := @Reachable.step _ _ _ _ (.transfer "catalog" (.returns 0)) called'' trivial rfl
    loadsBack
  exact ⟨_, returned'', Option.some_ne_none _, pages_durable returned''⟩

/-- A service which starts over what a crash has left behind is reachable too. -/
theorem Reachable.restart (reachable : Reachable cfg service) :
    Reachable cfg (.initial cfg .empty fun key => (service.coordinator key).object) := by
  refine .initial (@RemotePrefixCatalog.empty_valid 0).consistent ?_ ?_
  · intro path page found
    rw [RemotePrefixCatalog.empty_page] at found
    cases found
  · exact reachable.valid.durable.saved

end NanoVllm.RemoteRestore
