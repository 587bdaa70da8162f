import NanoVllm.RemoteCatalog.Pages
import NanoVllm.RemoteRestore
import NanoVllm.Transfer.Persistence

/-!
# The invariant of the service

Everything which is published or waits to be published names stored pages: the catalog, the
snapshots which have been submitted and the stored one. A future which has succeeded has stored
its object, and nothing removes an object again.
-/

namespace NanoVllm.RemoteRestore

open Transfer RemoteCatalog RemoteCatalogSnapshotCodec

variable {F : Type} {cfg : ServiceConfig F} {service service' : Service}

namespace Service

/-- The backend has an object for the key. -/
def Stored (service : Service) (key : String) : Prop := (service.coordinator key).object ≠ none

/-- Every page which a reader of a catalog object finds is stored. -/
def NamesStored (cfg : ServiceConfig F) (service : Service) (bytes : Payload) : Prop :=
  ∀ snapshot, decode cfg.env bytes = .ok snapshot → ∀ record ∈ snapshot.prefixes,
    ∀ page ∈ record.pages, service.Stored page.objectKey

/-- The future is the `put` of a key. -/
def IsPut (service : Service) (f : FutureId) (key : String) : Prop :=
  ∃ future, service.futures[f]? = some future ∧ future.key = key

/-- What is known of a future. -/
structure FutureValid (cfg : ServiceConfig F) (service : Service) (future : PutFuture) :
    Prop where
  registered : ∀ i, future.task = some i → ∃ task : Task,
    (service.coordinator future.key).tasks[i]? = some task ∧
      task.operation = .put future.payload future.overwrite
  ran : future.hasRun = true → future.key ≠ "" → ∃ i, future.task = some i
  stored : future.succeeded = true → service.Stored future.key
  names : cfg.catalogKey = some future.key → NamesStored cfg service future.payload

/-- Each page of a batch is published or one of its futures writes it. -/
def PendingValid (service : Service) (pending : PendingRemoteWriteback) : Prop :=
  ∀ (i : ℕ) (page : RemoteCatalog.RemotePageDescriptor), pending.pages[i]? = some page →
    service.catalog.page (pending.blockKeys.take (i + 1)) ≠ none ∨
      ∃ (k : ℕ) (f : FutureId), pending.writePages[k]? = some page ∧ pending.futures[k]? = some f ∧
        service.IsPut f page.objectKey

/-- The futures which `publish_prefix` waits for write its pages. -/
def PhaseValid (service : Service) : Prop :=
  match service.phase with
  | .publishing _ descriptors futures => ∀ (i : ℕ) (page : RemoteCatalog.RemotePageDescriptor),
      descriptors[i]? = some page → ∃ f, futures[i]? = some f ∧ service.IsPut f page.objectKey
  | _ => True

/-- Coroutines run in the order of their submission, and register their tasks in it. -/
structure InOrder (futures : List PutFuture) : Prop where
  fifo : ∀ {f g : ℕ} {future future' : PutFuture}, f < g → futures[f]? = some future →
    futures[g]? = some future' → future'.hasRun = true → future.hasRun = true
  ordered : ∀ {f g i j : ℕ} {future future' : PutFuture}, f < g → futures[f]? = some future →
    futures[g]? = some future' → future.key = future'.key → future.task = some i →
      future'.task = some j → i < j

/-- The invariant. -/
structure Valid (cfg : ServiceConfig F) (service : Service) : Prop where
  slots : ∀ key, (service.coordinator key).Valid
  persists : ∀ key, (service.coordinator key).Persists
  carries : ∀ key, cfg.catalogKey = some key →
    (service.coordinator key).Carries (NamesStored cfg service)
  futures : ∀ future ∈ service.futures, FutureValid cfg service future
  inOrder : InOrder service.futures
  consistent : service.catalog.Consistent
  pages : ∀ path page, service.catalog.page path = some page → service.Stored page.objectKey
  inflight : ∀ key f, service.inflightWrites key = some f → service.IsPut f key
  pendings : ∀ pending ∈ service.pendings, service.PendingValid pending
  phase : service.PhaseValid

/-! ## Growth -/

/-- What no action takes away. -/
structure Grows (service service' : Service) : Prop where
  stored : ∀ key, service.Stored key → service'.Stored key
  isPut : ∀ f key, service.IsPut f key → service'.IsPut f key
  pages : ∀ path, service.catalog.page path ≠ none → service'.catalog.page path ≠ none

theorem Grows.refl (service : Service) : Grows service service :=
  ⟨fun _ stored => stored, fun _ _ isPut => isPut, fun _ found => found⟩

theorem Grows.trans {service'' : Service} (grows : Grows service service')
    (grows' : Grows service' service'') : Grows service service'' where
  stored key stored := grows'.stored key (grows.stored key stored)
  isPut f key isPut := grows'.isPut f key (grows.isPut f key isPut)
  pages path found := grows'.pages path (grows.pages path found)

theorem NamesStored.grows (grows : Grows service service') {bytes : Payload}
    (names : NamesStored cfg service bytes) : NamesStored cfg service' bytes :=
  fun snapshot decoded record mem page memPages =>
    grows.stored _ (names snapshot decoded record mem page memPages)

theorem PendingValid.grows (grows : Grows service service') {pending : PendingRemoteWriteback}
    (valid : service.PendingValid pending) : service'.PendingValid pending := by
  intro i page get
  rcases valid i page get with published | ⟨k, f, getPage, getFuture, isPut⟩
  · exact .inl (grows.pages _ published)
  · exact .inr ⟨k, f, getPage, getFuture, grows.isPut _ _ isPut⟩

theorem PhaseValid.grows (grows : Grows service service') (phase : service'.phase = service.phase)
    (valid : service.PhaseValid) : service'.PhaseValid := by
  unfold PhaseValid at valid ⊢
  rw [phase]
  cases state : service.phase with
  | loading => trivial
  | idle => trivial
  | publishing blockKeys descriptors futures =>
    rw [state] at valid
    intro i page get
    rcases valid i page get with ⟨f, getFuture, isPut⟩
    exact ⟨f, getFuture, grows.isPut _ _ isPut⟩

/-- A future keeps what is known of it while its key keeps its tasks. -/
theorem FutureValid.grows (grows : Grows service service') {future : PutFuture}
    (tasks : ∀ (key : String) (i : ℕ) (task : Task), (service.coordinator key).tasks[i]? = some task →
      ∃ task' : Task, (service'.coordinator key).tasks[i]? = some task' ∧
        task'.operation = task.operation)
    (valid : FutureValid cfg service future) : FutureValid cfg service' future where
  registered := by
    intro i isTask
    rcases valid.registered i isTask with ⟨task, found, isPut⟩
    rcases tasks _ i task found with ⟨task', found', same⟩
    exact ⟨task', found', same.trans isPut⟩
  ran := valid.ran
  stored succeeded := grows.stored _ (valid.stored succeeded)
  names isCatalog := (valid.names isCatalog).grows grows

/-- The parts of the invariant which only grow, when nothing else than they has changed. -/
theorem Valid.of_grows (valid : Valid cfg service) (grows : Grows service service')
    (coordinator : service'.coordinator = service.coordinator)
    (futures : service'.futures = service.futures)
    (consistent : service'.catalog.Consistent)
    (pages : ∀ path page, service'.catalog.page path = some page →
      service'.Stored page.objectKey)
    (inflight : ∀ key f, service'.inflightWrites key = some f → service'.IsPut f key)
    (pendings : ∀ pending ∈ service'.pendings, service'.PendingValid pending)
    (phase : service'.PhaseValid) : Valid cfg service' where
  slots := coordinator ▸ valid.slots
  persists := coordinator ▸ valid.persists
  carries := by
    intro key isCatalog
    rw [coordinator]
    exact (valid.carries key isCatalog).mono fun _ names => names.grows grows
  futures := by
    intro future mem
    rw [futures] at mem
    refine (valid.futures future mem).grows grows ?_
    intro key i task found
    rw [coordinator]
    exact ⟨task, found, rfl⟩
  inOrder := futures ▸ valid.inOrder
  consistent := consistent
  pages := pages
  inflight := inflight
  pendings := pendings
  phase := phase

/-! ## The fields of the engine thread -/

theorem Valid.setPhase (valid : Valid cfg service) {phase : Phase}
    (phaseValid : ({ service with phase } : Service).PhaseValid) :
    Valid cfg { service with phase } :=
  valid.of_grows ⟨fun _ stored => stored, fun _ _ isPut => isPut, fun _ found => found⟩ rfl rfl
    valid.consistent valid.pages valid.inflight valid.pendings phaseValid

theorem Valid.popInflight (valid : Valid cfg service) (key : String) :
    Valid cfg (service.popInflight key) := by
  refine valid.of_grows ⟨fun _ stored => stored, fun _ _ isPut => isPut, fun _ found => found⟩
    rfl rfl valid.consistent valid.pages ?_ valid.pendings valid.phase
  intro other f inflight
  by_cases same : other = key
  · subst same
    simp [Service.popInflight] at inflight
  · change Function.update service.inflightWrites key none other = some f at inflight
    rw [Function.update_of_ne same] at inflight
    exact valid.inflight other f inflight

theorem Valid.setInflight (valid : Valid cfg service) {key : String} {f : FutureId}
    (isPut : service.IsPut f key) : Valid cfg (service.setInflight key f) := by
  refine valid.of_grows ⟨fun _ stored => stored, fun _ _ isPut => isPut, fun _ found => found⟩
    rfl rfl valid.consistent valid.pages ?_ valid.pendings valid.phase
  intro other g inflight
  by_cases same : other = key
  · subst same
    simp only [Service.setInflight, Function.update_self, Option.some.injEq] at inflight
    subst inflight
    exact isPut
  · change Function.update service.inflightWrites key (some f) other = some g at inflight
    rw [Function.update_of_ne same] at inflight
    exact valid.inflight other g inflight

theorem Valid.addPending (valid : Valid cfg service) {pending : PendingRemoteWriteback}
    (pendingValid : service.PendingValid pending) :
    Valid cfg { service with pendings := service.pendings ++ [pending] } := by
  refine valid.of_grows ⟨fun _ stored => stored, fun _ _ isPut => isPut, fun _ found => found⟩
    rfl rfl valid.consistent valid.pages valid.inflight ?_ valid.phase
  intro other mem
  rcases List.mem_append.mp mem with old | new
  · exact valid.pendings other old
  · cases List.mem_singleton.mp new
    exact pendingValid

/-- The catalog grows by stored pages. -/
theorem Valid.setCatalog (valid : Valid cfg service) {catalog : RemotePrefixCatalog}
    (consistent : catalog.Consistent)
    (grows : ∀ path, service.catalog.page path ≠ none → catalog.page path ≠ none)
    (pages : ∀ path page, catalog.page path = some page → service.Stored page.objectKey) :
    Valid cfg { service with catalog } := by
  have bigger : Grows service { service with catalog } :=
    ⟨fun _ stored => stored, fun _ _ isPut => isPut, grows⟩
  exact valid.of_grows bigger rfl rfl consistent pages valid.inflight
    (fun pending mem => (valid.pendings pending mem).grows bigger)
    (valid.phase.grows bigger rfl)

/-! ## Futures -/

theorem InOrder.append {futures : List PutFuture} (inOrder : InOrder futures) {future : PutFuture}
    (notRun : future.hasRun = false) (unregistered : future.task = none) :
    InOrder (futures ++ [future]) where
  fifo := by
    intro f g earlier later before found found' hasRun
    rw [List.getElem?_append] at found found'
    split at found'
    · rw [if_pos (by omega)] at found
      exact inOrder.fifo before found found' hasRun
    · rcases List.getElem?_eq_some_iff.mp found' with ⟨_, isNew⟩
      rw [List.getElem_singleton] at isNew
      rw [← isNew, notRun] at hasRun
      cases hasRun
  ordered := by
    intro f g i j earlier later before found found' sameKey isTask isTask'
    rw [List.getElem?_append] at found found'
    split at found'
    · rw [if_pos (by omega)] at found
      exact inOrder.ordered before found found' sameKey isTask isTask'
    · rcases List.getElem?_eq_some_iff.mp found' with ⟨_, isNew⟩
      rw [List.getElem_singleton] at isNew
      rw [← isNew, unregistered] at isTask'
      cases isTask'

/-- A coroutine runs or ends, and its task comes after those of the earlier futures. -/
theorem InOrder.set {futures : List PutFuture} (inOrder : InOrder futures) {f : ℕ}
    {future : PutFuture} (found : futures[f]? = some future) (future' : PutFuture)
    (sameKey : future'.key = future.key) (hasRun : future'.hasRun = true)
    (before : ∀ {e : ℕ} {earlier : PutFuture}, e < f → futures[e]? = some earlier →
      earlier.hasRun = true)
    (after : ∀ {e i j : ℕ} {earlier : PutFuture}, e < f → futures[e]? = some earlier →
      earlier.key = future.key → earlier.task = some i → future'.task = some j → i < j)
    (until' : ∀ {g i j : ℕ} {later : PutFuture}, f < g → futures[g]? = some later →
      future.key = later.key → future'.task = some i → later.task = some j → i < j) :
    InOrder (futures.set f future') := by
  have inside := (List.getElem?_eq_some_iff.mp found).1
  have cases' {g : ℕ} {other : PutFuture} (got : (futures.set f future')[g]? = some other) :
      g = f ∧ other = future' ∨ g ≠ f ∧ futures[g]? = some other := by
    by_cases same : f = g
    · subst same
      rw [List.getElem?_set_self inside] at got
      exact .inl ⟨rfl, (Option.some.inj got).symm⟩
    · rw [List.getElem?_set_ne same] at got
      exact .inr ⟨Ne.symm same, got⟩
  constructor
  · intro e g earlier later order got got' laterRun
    rcases cases' got with ⟨rfl, rfl⟩ | ⟨-, old⟩
    · exact hasRun
    · rcases cases' got' with ⟨rfl, rfl⟩ | ⟨-, old'⟩
      · exact before order old
      · exact inOrder.fifo order old old' laterRun
  · intro e g i j earlier later order got got' keys isTask isTask'
    rcases cases' got with ⟨rfl, rfl⟩ | ⟨-, old⟩
    · rcases cases' got' with ⟨rfl, rfl⟩ | ⟨-, old'⟩
      · omega
      · exact until' order old' (sameKey.symm.trans keys) isTask isTask'
    · rcases cases' got' with ⟨rfl, rfl⟩ | ⟨-, old'⟩
      · exact after order old (keys.trans sameKey) isTask isTask'
      · exact inOrder.ordered order old old' keys isTask isTask'

/-- The service hands a `put` to the event loop. -/
theorem Valid.submit (valid : Valid cfg service) {key : String} {payload : Payload}
    {overwrite : Bool} (names : cfg.catalogKey = some key → NamesStored cfg service payload) :
    Grows service (service.submit key payload overwrite) ∧
      Valid cfg (service.submit key payload overwrite) := by
  have grows : Grows service (service.submit key payload overwrite) := by
    refine ⟨fun _ stored => stored, ?_, fun _ found => found⟩
    rintro f other ⟨future, found, isKey⟩
    have inside := (List.getElem?_eq_some_iff.mp found).1
    exact ⟨future, (List.getElem?_append_left inside).trans found, isKey⟩
  refine ⟨grows, ?_⟩
  constructor
  · exact valid.slots
  · exact valid.persists
  · intro other isCatalog
    exact (valid.carries other isCatalog).mono fun _ names => names.grows grows
  · intro future mem
    rcases List.mem_append.mp mem with old | new
    · exact (valid.futures future old).grows grows fun _ _ task found => ⟨task, found, rfl⟩
    · cases List.mem_singleton.mp new
      exact ⟨nofun, nofun, nofun, names⟩
  · exact valid.inOrder.append rfl rfl
  · exact valid.consistent
  · exact valid.pages
  · exact fun other f inflight => grows.isPut f other (valid.inflight other f inflight)
  · exact fun pending mem => (valid.pendings pending mem).grows grows
  · exact valid.phase.grows grows rfl

/-- The submitted future is the last one. -/
theorem isPut_submit (service : Service) (key : String) (payload : Payload) (overwrite : Bool) :
    (service.submit key payload overwrite).IsPut service.futures.length key :=
  ⟨_, List.getElem?_concat_length .., rfl⟩

/-- A future changes, but not its key. -/
theorem Valid.setFuture (valid : Valid cfg service) {f : ℕ} {future : PutFuture}
    (found : service.futures[f]? = some future) {future' : PutFuture}
    (futureValid : FutureValid cfg service future') (sameKey : future'.key = future.key)
    (inOrder : InOrder (service.futures.set f future')) :
    Grows service { service with futures := service.futures.set f future' } ∧
      Valid cfg { service with futures := service.futures.set f future' } := by
  have grows : Grows service { service with futures := service.futures.set f future' } := by
    refine ⟨fun _ stored => stored, ?_, fun _ found => found⟩
    rintro g key ⟨other, foundOther, isKey⟩
    by_cases same : f = g
    · subst same
      cases found.symm.trans foundOther
      have inside := (List.getElem?_eq_some_iff.mp found).1
      exact ⟨future', List.getElem?_set_self inside, sameKey.trans isKey⟩
    · exact ⟨other, (List.getElem?_set_ne same).trans foundOther, isKey⟩
  refine ⟨grows, ?_⟩
  constructor
  · exact valid.slots
  · exact valid.persists
  · intro other isCatalog
    exact (valid.carries other isCatalog).mono fun _ names => names.grows grows
  · intro other mem
    have kept : ∀ (key : String) (i : ℕ) (task : Task),
        (service.coordinator key).tasks[i]? = some task → ∃ task' : Task,
          (service.coordinator key).tasks[i]? = some task' ∧ task'.operation = task.operation :=
      fun _ _ task found => ⟨task, found, rfl⟩
    rcases List.mem_or_eq_of_mem_set mem with old | rfl
    · exact (valid.futures other old).grows grows kept
    · exact futureValid.grows grows kept
  · exact inOrder
  · exact valid.consistent
  · exact valid.pages
  · exact fun other f inflight => grows.isPut f other (valid.inflight other f inflight)
  · exact fun pending mem => (valid.pendings pending mem).grows grows
  · exact valid.phase.grows grows rfl

/-! ## The event loop -/

/-- One step on one key, which removes nothing and puts catalogs of stored pages only. -/
theorem Valid.setSlot (valid : Valid cfg service) {key : String} {action : Transfer.Action}
    {slot : Slot} (steps : (service.coordinator key).Steps action slot)
    (notEvict : action ≠ .evict)
    (names : cfg.catalogKey = some key → ∀ payload overwrite, action = .put payload overwrite →
      NamesStored cfg service payload) :
    Grows service { service with
        coordinator := Function.update service.coordinator key slot } ∧
      Valid cfg { service with
        coordinator := Function.update service.coordinator key slot } := by
  have grows : Grows service { service with
      coordinator := Function.update service.coordinator key slot } := by
    refine ⟨?_, fun _ _ isPut => isPut, fun _ found => found⟩
    intro other stored
    change (Function.update service.coordinator key slot other).object ≠ none
    by_cases same : other = key
    · subst same
      rw [Function.update_self]
      exact (valid.persists other).stored_steps steps stored
    · rw [Function.update_of_ne same]
      exact stored
  refine ⟨grows, ?_⟩
  constructor
  · intro other
    change (Function.update service.coordinator key slot other).Valid
    by_cases same : other = key
    · subst same
      rw [Function.update_self]
      exact (valid.slots other).steps steps
    · rw [Function.update_of_ne same]
      exact valid.slots other
  · intro other
    change (Function.update service.coordinator key slot other).Persists
    by_cases same : other = key
    · subst same
      rw [Function.update_self]
      exact (valid.persists other).steps steps notEvict
    · rw [Function.update_of_ne same]
      exact valid.persists other
  · intro other isCatalog
    change (Function.update service.coordinator key slot other).Carries _
    have kept := valid.carries other isCatalog
    by_cases same : other = key
    · subst same
      rw [Function.update_self]
      exact (kept.steps steps (names isCatalog)).mono fun _ names => names.grows grows
    · rw [Function.update_of_ne same]
      exact kept.mono fun _ names => names.grows grows
  · intro future mem
    refine (valid.futures future mem).grows grows ?_
    intro other i task found
    change ∃ task' : Task, (Function.update service.coordinator key slot other).tasks[i]? =
      some task' ∧ task'.operation = task.operation
    by_cases same : other = key
    · subst same
      rw [Function.update_self]
      exact steps.task_kept found
    · rw [Function.update_of_ne same]
      exact ⟨task, found, rfl⟩
  · exact valid.inOrder
  · exact valid.consistent
  · exact fun path page found => grows.stored _ (valid.pages path page found)
  · exact fun other f inflight => grows.isPut f other (valid.inflight other f inflight)
  · exact fun pending mem => (valid.pendings pending mem).grows grows
  · exact valid.phase.grows grows rfl

end Service

end NanoVllm.RemoteRestore
