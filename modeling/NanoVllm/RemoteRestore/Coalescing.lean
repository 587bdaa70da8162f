import NanoVllm.RemoteRestore.Durability
import NanoVllm.StorageBackend.PrefixKeys

/-!
# Write-back coalescing

`_inflight_writes` maps an object key to the future of the `put` which writes it. A batch which
needs a page takes the future from the table, so one `put` of a key is enough as long as no entry
is dropped before its `put` is done. `complete_writeback` and `pages_requiring_write` drop only
entries which are done; `fail_writeback` drops the entries of the whole batch, and a batch fails
with its first page.
-/

namespace NanoVllm.RemoteRestore

open RemoteCatalog (RemotePrefixCatalog)

variable {F : Type} {cfg : ServiceConfig F} {service service' : Service}

namespace Service

/-- The future is a `put` of the key which is not done. -/
def Undone (service : Service) (f : FutureId) (key : String) : Prop :=
  ∃ future, service.futures[f]? = some future ∧ future.key = key ∧ future.result = none

/-- The future is done. -/
def done (service : Service) (f : FutureId) : Bool :=
  match service.futures[f]? with
  | some future => future.result.isSome
  | none => false

/-- A `put` of the key which a batch waits for. -/
def Outstanding (service : Service) (f : FutureId) (key : String) : Prop :=
  (∃ pending ∈ service.pendings, f ∈ pending.futures) ∧ service.Undone f key

/-- The futures of the batches are known, and the table has those which are not done. -/
structure Registered (service : Service) : Prop where
  inflight : ∀ key f, service.inflightWrites key = some f → service.IsPut f key
  isPut : ∀ pending ∈ service.pendings, ∀ write ∈ pending.writePages.zip pending.futures,
    service.IsPut write.2 write.1.objectKey
  outstanding : ∀ f key, service.Outstanding f key → service.inflightWrites key = some f

/-! ## Futures -/

theorem Undone.isPut {f : FutureId} {key : String} (undone : service.Undone f key) :
    service.IsPut f key := by
  rcases undone with ⟨future, found, isKey, -⟩
  exact ⟨future, found, isKey⟩

theorem IsPut.key_eq {f : FutureId} {key key' : String} (isPut : service.IsPut f key)
    (isPut' : service.IsPut f key') : key = key' := by
  rcases isPut with ⟨future, found, rfl⟩
  rcases isPut' with ⟨future', found', rfl⟩
  rw [found] at found'
  cases found'
  rfl

theorem not_undone_of_done {f : FutureId} {key : String} (isDone : service.done f = true) :
    ¬ service.Undone f key := by
  rintro ⟨future, found, -, unresolved⟩
  simp [done, found, unresolved] at isDone

theorem done_of_failed {f : FutureId} (failed : service.failed f = true) :
    service.done f = true := by
  unfold Service.failed at failed
  unfold done
  split at failed
  · rename_i future found
    cases unresolved : future.result with
    | none => simp [PutFuture.failed, unresolved] at failed
    | some result => simp only [found, unresolved, Option.isSome_some]
  · cases failed

theorem done_of_succeeded {f : FutureId} (succeeded : service.succeeded f = true) :
    service.done f = true := by
  unfold Service.succeeded at succeeded
  unfold done
  split at succeeded
  · rename_i future found
    cases unresolved : future.result with
    | none => simp [PutFuture.succeeded, unresolved] at succeeded
    | some result => simp only [found, unresolved, Option.isSome_some]
  · cases succeeded

theorem exists_write {pending : PendingRemoteWriteback} {f : FutureId}
    (member : f ∈ pending.futures) :
    ∃ page, (page, f) ∈ pending.writePages.zip pending.futures := by
  rcases List.getElem_of_mem member with ⟨i, inside, rfl⟩
  have inside' : i < pending.writePages.length := by rw [pending.written.2]; exact inside
  refine ⟨pending.writePages[i], List.mem_of_getElem? (i := i) ?_⟩
  rw [List.getElem?_zip_eq_some]
  exact ⟨List.getElem?_eq_getElem inside', List.getElem?_eq_getElem inside⟩

/-! ## Steps which keep the table -/

/-- Futures are only added and resolved; the batches and the table stay. -/
structure Resolves (service service' : Service) : Prop where
  inflightWrites : service'.inflightWrites = service.inflightWrites
  pendings : service'.pendings = service.pendings
  isPut : ∀ f key, service.IsPut f key → service'.IsPut f key
  undone : ∀ f key, service.IsPut f key → service'.Undone f key → service.Undone f key

theorem Registered.resolves (registered : service.Registered)
    (resolves : Resolves service service') : service'.Registered where
  inflight key f inflight := by
    rw [resolves.inflightWrites] at inflight
    exact resolves.isPut f key (registered.inflight key f inflight)
  isPut pending member write memberWrite := by
    rw [resolves.pendings] at member
    exact resolves.isPut _ _ (registered.isPut pending member write memberWrite)
  outstanding f key outstanding := by
    rcases outstanding with ⟨⟨pending, member, memberFuture⟩, undone⟩
    rw [resolves.pendings] at member
    rcases exists_write memberFuture with ⟨page, memberWrite⟩
    have isPut := registered.isPut pending member _ memberWrite
    have sameKey := (resolves.isPut _ _ isPut).key_eq undone.isPut
    subst sameKey
    rw [resolves.inflightWrites]
    exact registered.outstanding f _
      ⟨⟨pending, member, memberFuture⟩, resolves.undone _ _ isPut undone⟩

theorem Resolves.of_futures (inflightWrites : service'.inflightWrites = service.inflightWrites)
    (pendings : service'.pendings = service.pendings)
    (futures : service'.futures = service.futures) : Resolves service service' where
  inflightWrites := inflightWrites
  pendings := pendings
  isPut f key isPut := by
    rw [IsPut, futures]
    exact isPut
  undone f key _ undone := by
    rw [Undone, futures] at undone
    exact undone

theorem Resolves.refl (service : Service) : Resolves service service := .of_futures rfl rfl rfl

theorem Resolves.trans {service'' : Service} (first : Resolves service service')
    (second : Resolves service' service'') : Resolves service service'' where
  inflightWrites := second.inflightWrites.trans first.inflightWrites
  pendings := second.pendings.trans first.pendings
  isPut f key isPut := second.isPut f key (first.isPut f key isPut)
  undone f key isPut undone :=
    first.undone f key isPut (second.undone f key (first.isPut f key isPut) undone)

theorem Resolves.submit (service : Service) (key : String) (payload : Transfer.Payload)
    (overwrite : Bool) : Resolves service (service.submit key payload overwrite) where
  inflightWrites := rfl
  pendings := rfl
  isPut f key isPut := by
    rcases isPut with ⟨future, found, isKey⟩
    exact ⟨future, (List.getElem?_append_left (List.getElem?_eq_some_iff.mp found).1).trans found,
      isKey⟩
  undone f key isPut undone := by
    rcases isPut with ⟨future, found, -⟩
    rcases undone with ⟨future', found', isKey, unresolved⟩
    have inside := (List.getElem?_eq_some_iff.mp found).1
    exact ⟨future', (List.getElem?_append_left inside).symm.trans found', isKey, unresolved⟩

theorem Resolves.scheduleCatalogSave (service : Service) (cfg : ServiceConfig F) :
    Resolves service (service.scheduleCatalogSave cfg) := by
  unfold Service.scheduleCatalogSave
  split
  · exact .refl _
  · split
    · split
      · exact .refl _
      · exact .submit _ _ _ _
    · exact .refl _

/-- A future which is not done runs or gets its result. -/
theorem Resolves.setFuture {f : FutureId} {future future' : PutFuture}
    {coordinator : Transfer.Coordinator} (found : service.futures[f]? = some future)
    (sameKey : future'.key = future.key) (unresolved : future.result = none) :
    Resolves service
      { service with coordinator, futures := service.futures.set f future' } where
  inflightWrites := rfl
  pendings := rfl
  isPut g key isPut := by
    rcases isPut with ⟨other, foundOther, isKey⟩
    by_cases same : f = g
    · subst same
      rw [found] at foundOther
      cases foundOther
      have inside := (List.getElem?_eq_some_iff.mp found).1
      exact ⟨future', List.getElem?_set_self inside, sameKey.trans isKey⟩
    · exact ⟨other, (List.getElem?_set_ne same).trans foundOther, isKey⟩
  undone g key isPut undone := by
    rcases undone with ⟨other, foundOther, isKey, otherUnresolved⟩
    by_cases same : f = g
    · subst same
      have inside := (List.getElem?_eq_some_iff.mp found).1
      rw [List.getElem?_set_self inside] at foundOther
      cases foundOther
      exact ⟨future, found, sameKey.symm.trans isKey, unresolved⟩
    · exact ⟨other, (List.getElem?_set_ne same).symm.trans foundOther, isKey, otherUnresolved⟩

theorem Resolves.run {f : FutureId} (ran : service.run f = some service') :
    Resolves service service' := by
  unfold Service.run at ran
  split at ran
  · cases ran
  · rename_i future found
    split at ran
    · cases ran
    · rename_i runnable
      have unresolved : future.result = none := by
        simp only [not_or, PutFuture.hasRun, Bool.not_eq_true, Bool.or_eq_false_iff,
          Option.isSome_eq_false_iff, Option.isNone_iff_eq_none] at runnable
        exact runnable.1.2
      split at ran
      · cases ran
        exact .setFuture found rfl unresolved
      · cases ran
        exact .setFuture found rfl unresolved

theorem Resolves.resolve {f : FutureId} (resolved : service.resolve f = some service') :
    Resolves service service' := by
  unfold Service.resolve at resolved
  split at resolved
  · cases resolved
  · rename_i future found
    split at resolved
    · rename_i i unresolved _
      split at resolved
      · cases resolved
        exact .setFuture found rfl unresolved
      · cases resolved
    · cases resolved

/-! ## Dropped entries -/

theorem Registered.popInflight (registered : service.Registered) {key : String}
    (undone : ∀ f, service.inflightWrites key = some f → ¬ service.Undone f key) :
    (service.popInflight key).Registered where
  inflight other f inflight := by
    by_cases same : other = key
    · subst same
      simp [Service.popInflight] at inflight
    · have kept : service.inflightWrites other = some f := by
        simpa [Service.popInflight, same] using inflight
      exact registered.inflight other f kept
  isPut := registered.isPut
  outstanding f other outstanding := by
    have known : service.inflightWrites other = some f := registered.outstanding f other outstanding
    by_cases same : other = key
    · subst same
      exact absurd outstanding.2 (undone f known)
    · simpa [Service.popInflight, same] using known

theorem Registered.requirePages (registered : service.Registered)
    (pages : List (RemoteCatalog.RemotePageDescriptor × ℕ)) :
    (service.requirePages pages).1.Registered := by
  induction pages generalizing service with
  | nil => exact registered
  | cons page pages ih =>
    unfold Service.requirePages
    split
    · exact ih registered
    · rename_i f known
      split
      · rename_i failed
        apply ih
        apply registered.popInflight
        intro g known'
        rw [known] at known'
        cases known'
        exact not_undone_of_done (done_of_failed failed)
      · exact ih registered

/-- Entries of futures which are done can be dropped. -/
theorem Registered.dropWrites (registered : service.Registered)
    {writes : List (RemoteCatalog.RemotePageDescriptor × FutureId)}
    (notUndone : ∀ write ∈ writes, ¬ service.Undone write.2 write.1.objectKey) :
    (service.dropWrites writes).Registered := by
  induction writes generalizing service with
  | nil => exact registered
  | cons write writes ih =>
    rw [List.forall_mem_cons] at notUndone
    unfold Service.dropWrites
    split
    · rename_i known
      have popped : (service.popInflight write.1.objectKey).Registered := by
        apply registered.popInflight
        intro f known'
        rw [known] at known'
        cases known'
        exact notUndone.1
      exact ih popped notUndone.2
    · exact ih registered notUndone.2

theorem Registered.failWriteback (registered : service.Registered)
    {pending : PendingRemoteWriteback} (isDone : ∀ f ∈ pending.futures, service.done f = true) :
    (service.failWriteback pending).Registered := by
  apply registered.dropWrites
  rintro ⟨page, f⟩ member
  exact not_undone_of_done (isDone f (List.of_mem_zip member).2)

theorem Registered.completeWriteback (registered : service.Registered)
    {pending : PendingRemoteWriteback} (isPending : pending ∈ service.pendings)
    (isDone : ∀ f ∈ pending.futures, service.done f = true)
    (completed : service.completeWriteback cfg pending = .ok service') :
    service'.Registered := by
  rcases Py.exists_of_bind completed with ⟨catalog, -, completed⟩
  cases completed
  have published : Resolves service { service with catalog } := .of_futures rfl rfl rfl
  have saved := published.trans (.scheduleCatalogSave _ cfg)
  apply (registered.resolves saved).dropWrites
  rintro ⟨page, f⟩ member undone
  have isPut := registered.isPut pending isPending _ member
  exact not_undone_of_done (isDone f (List.of_mem_zip member).2) (saved.undone _ _ isPut undone)

/-! ## Submitted batches -/

/-- A plan lists the pages with the futures which the table has for them. -/
theorem planWrites_eq_ok {envelopes : Envelopes}
    {pages : List (RemoteCatalog.RemotePageDescriptor × ℕ)}
    {plan : List (ℕ × RemoteCatalog.RemotePageDescriptor × Option FutureId)}
    (planned : service.planWrites envelopes pages = .ok plan) :
    plan.map (·.2.1) = pages.map Prod.fst ∧
      ∀ entry ∈ plan, entry.2.2 = service.inflightWrites entry.2.1.objectKey ∧
        (entry.2.2 = none → envelopes entry.1 ≠ none) := by
  induction pages generalizing plan with
  | nil =>
    cases planned
    exact ⟨rfl, nofun⟩
  | cons page pages ih =>
    unfold Service.planWrites at planned
    dsimp only at planned
    split at planned
    · cases planned
    · rename_i exported
      rcases Py.exists_of_bind planned with ⟨rest, plannedRest, planned⟩
      cases planned
      rcases ih plannedRest with ⟨samePages, entries⟩
      refine ⟨by simp [samePages], ?_⟩
      rw [List.forall_mem_cons]
      exact ⟨⟨rfl, not_and.mp exported⟩, entries⟩

/-- What the loop over a plan does: the table has a future for each page, and keeps the others. -/
structure Submits (service : Service)
    (plan : List (ℕ × RemoteCatalog.RemotePageDescriptor × Option FutureId)) (service' : Service)
    (writes : List (RemoteCatalog.RemotePageDescriptor × FutureId)) : Prop where
  pendings : service'.pendings = service.pendings
  catalog : service'.catalog = service.catalog
  pages : writes.map Prod.fst = plan.map (·.2.1)
  known : ∀ key f, service.inflightWrites key = some f → service'.inflightWrites key = some f
  noted : ∀ write ∈ writes, service'.inflightWrites write.1.objectKey = some write.2
  isPut : ∀ f key, service.IsPut f key → service'.IsPut f key
  undone : ∀ f key, service.IsPut f key → service'.Undone f key → service.Undone f key
  inflight : (∀ key f, service.inflightWrites key = some f → service.IsPut f key) →
    ∀ key f, service'.inflightWrites key = some f → service'.IsPut f key

theorem submits_nil : Submits service [] service [] where
  pendings := rfl
  catalog := rfl
  pages := rfl
  known _ _ known := known
  noted := nofun
  isPut _ _ isPut := isPut
  undone _ _ _ undone := undone
  inflight inflight := inflight

/-- A page whose `put` is in flight joins it. -/
theorem Submits.join {plan : List (ℕ × RemoteCatalog.RemotePageDescriptor × Option FutureId)}
    {writes : List (RemoteCatalog.RemotePageDescriptor × FutureId)} {index : ℕ}
    {descriptor : RemoteCatalog.RemotePageDescriptor} {f : FutureId}
    (submits : Submits service plan service' writes)
    (known : service.inflightWrites descriptor.objectKey = some f) :
    Submits service ((index, descriptor, some f) :: plan) service' ((descriptor, f) :: writes) where
  pendings := submits.pendings
  catalog := submits.catalog
  pages := by rw [List.map_cons, List.map_cons, submits.pages]
  known := submits.known
  noted := by
    rw [List.forall_mem_cons]
    exact ⟨submits.known _ _ known, submits.noted⟩
  isPut := submits.isPut
  undone := submits.undone
  inflight := submits.inflight

/-- A page which is not in flight is submitted. -/
theorem Submits.write {plan : List (ℕ × RemoteCatalog.RemotePageDescriptor × Option FutureId)}
    {writes : List (RemoteCatalog.RemotePageDescriptor × FutureId)} {index : ℕ}
    {descriptor : RemoteCatalog.RemotePageDescriptor} {payload : Transfer.Payload}
    (unknown : service.inflightWrites descriptor.objectKey = none)
    (submits : Submits ((service.submit descriptor.objectKey payload false).setInflight
      descriptor.objectKey service.futures.length) plan service' writes) :
    Submits service ((index, descriptor, none) :: plan) service'
      ((descriptor, service.futures.length) :: writes) := by
  have submitted := Resolves.submit service descriptor.objectKey payload false
  have last := service.isPut_submit descriptor.objectKey payload false
  refine ⟨submits.pendings, submits.catalog, ?_, ?_, ?_, ?_, ?_, ?_⟩
  · rw [List.map_cons, List.map_cons, submits.pages]
  · intro key f known
    have other : key ≠ descriptor.objectKey := by
      rintro rfl
      rw [unknown] at known
      cases known
    apply submits.known
    simpa [Service.setInflight, Service.submit, other] using known
  · rw [List.forall_mem_cons]
    refine ⟨submits.known _ _ ?_, submits.noted⟩
    simp [Service.setInflight]
  · intro f key isPut
    exact submits.isPut f key (submitted.isPut f key isPut)
  · intro f key isPut undone
    exact submitted.undone f key isPut (submits.undone f key (submitted.isPut f key isPut) undone)
  · intro inflight
    apply submits.inflight
    intro key f known
    by_cases same : key = descriptor.objectKey
    · subst same
      have isLast : f = service.futures.length := by
        simpa [Service.setInflight, eq_comm] using known
      subst isLast
      exact last
    · have known : service.inflightWrites key = some f := by
        simpa [Service.setInflight, Service.submit, same] using known
      exact submitted.isPut f key (inflight key f known)

/-- The loop over a plan returns, if the pages have different keys. -/
theorem writePlanned_submits {envelopes : Envelopes}
    {plan : List (ℕ × RemoteCatalog.RemotePageDescriptor × Option FutureId)}
    (distinct : (plan.map (·.2.1.objectKey)).Nodup)
    (entries : ∀ entry ∈ plan, entry.2.2 = service.inflightWrites entry.2.1.objectKey ∧
      (entry.2.2 = none → envelopes entry.1 ≠ none)) :
    ∃ service' writes, service.writePlanned envelopes plan = (service', .ok writes) ∧
      Submits service plan service' writes := by
  induction plan generalizing service with
  | nil => exact ⟨service, [], rfl, submits_nil⟩
  | cons entry plan ih =>
    rcases entry with ⟨index, descriptor, future⟩
    rw [List.forall_mem_cons] at entries
    rw [List.map_cons, List.nodup_cons] at distinct
    rcases entries with ⟨⟨isFuture, exported⟩, entries⟩
    dsimp only at isFuture exported
    cases future with
    | some f =>
      rcases ih distinct.2 entries with ⟨service', writes, written, submits⟩
      refine ⟨service', (descriptor, f) :: writes, ?_, submits.join isFuture.symm⟩
      simp [Service.writePlanned, written, Except.map]
    | none =>
      cases isExported : envelopes index with
      | none => exact absurd isExported (exported rfl)
      | some payload =>
        have entries' : ∀ entry ∈ plan,
            entry.2.2 = ((service.submit descriptor.objectKey payload false).setInflight
              descriptor.objectKey service.futures.length).inflightWrites
                entry.2.1.objectKey ∧ (entry.2.2 = none → envelopes entry.1 ≠ none) := by
          intro entry member
          have other : entry.2.1.objectKey ≠ descriptor.objectKey := by
            intro same
            apply distinct.1
            rw [← same]
            exact List.mem_map_of_mem (f := fun entry => entry.2.1.objectKey) member
          simpa [Service.setInflight, Service.submit, other] using entries entry member
        rcases ih distinct.2 entries' with ⟨service', writes, written, submits⟩
        refine ⟨service', (descriptor, service.futures.length) :: writes, ?_,
          submits.write isFuture.symm⟩
        simp [Service.writePlanned, isExported, written, Except.map]

/-- A batch which has been submitted: it writes every page which is not published. -/
structure Accepted (service : Service) (blockKeys : List BlockKey)
    (descriptors : List RemoteCatalog.RemotePageDescriptor) (service' : Service)
    (pending : PendingRemoteWriteback) : Prop where
  unpublished : ∃ catalog published, service.catalog.matchKeys blockKeys = .ok (catalog, published) ∧
    pending.writePages = descriptors.drop published.length
  pendings : service'.pendings = service.pendings ++ [pending]
  known : ∀ key f, service.inflightWrites key = some f → service'.inflightWrites key = some f
  noted : ∀ write ∈ pending.writePages.zip pending.futures,
    service'.inflightWrites write.1.objectKey = some write.2
  isPut : ∀ f key, service.IsPut f key → service'.IsPut f key
  undone : ∀ f key, service.IsPut f key → service'.Undone f key → service.Undone f key
  inflight : (∀ key f, service.inflightWrites key = some f → service.IsPut f key) →
    ∀ key f, service'.inflightWrites key = some f → service'.IsPut f key

/-- Nothing has been submitted. -/
structure Untouched (service service' : Service) : Prop where
  inflightWrites : service'.inflightWrites = service.inflightWrites
  futures : service'.futures = service.futures
  pendings : service'.pendings = service.pendings

theorem Untouched.refl (service : Service) : Untouched service service := ⟨rfl, rfl, rfl⟩

/-- The constructor of a batch takes what `submit_writeback` gives it. -/
theorem exists_pending {blockKeys : List BlockKey}
    {pages : List RemoteCatalog.RemotePageDescriptor}
    {writes : List (RemoteCatalog.RemotePageDescriptor × FutureId)}
    (nonempty : blockKeys ≠ [] ∧ blockKeys.length = pages.length) (written : writes ≠ []) :
    ∃ pending, PendingRemoteWriteback.new blockKeys pages (writes.map Prod.fst)
      (writes.map Prod.snd) = .ok pending ∧ pending.writePages = writes.map Prod.fst ∧
        pending.writePages.zip pending.futures = writes := by
  have futures : writes.map Prod.snd ≠ [] ∧
      (writes.map Prod.fst).length = (writes.map Prod.snd).length := by simp [written]
  refine ⟨_, by rw [PendingRemoteWriteback.new, dif_pos nonempty, dif_pos futures], rfl, ?_⟩
  exact (List.zip_of_prod rfl rfl).symm

/-- `submit_writeback` either submits the whole plan or submits nothing. -/
theorem submitWriteback_cases {blockKeys : List BlockKey}
    {descriptors : List RemoteCatalog.RemotePageDescriptor} {envelopes : Envelopes}
    {result : Py (Option PendingRemoteWriteback)}
    (distinct : (descriptors.map (·.objectKey)).Nodup)
    (submitted : service.submitWriteback blockKeys descriptors envelopes = (service', result)) :
    (∃ error, result = .error error ∧ Untouched service service') ∨
    (result = .ok none ∧ Untouched service service' ∧ ∃ catalog published,
      service.catalog.matchKeys blockKeys = .ok (catalog, published) ∧
        descriptors.drop published.length = []) ∨
    ∃ pending, result = .ok (some pending) ∧
      Accepted service blockKeys descriptors service' pending := by
  unfold Service.submitWriteback at submitted
  split at submitted
  · cases submitted
    exact .inl ⟨_, rfl, .refl _⟩
  · rename_i sameLength
    rw [not_or, not_ne_iff] at sameLength
    split at submitted
    · cases submitted
      exact .inl ⟨_, rfl, .refl _⟩
    · rename_i catalog published matched
      dsimp only at submitted
      split at submitted
      · cases submitted
        exact .inl ⟨_, rfl, rfl, rfl, rfl⟩
      · rename_i planned
        cases submitted
        have samePages := (planWrites_eq_ok planned).1
        rw [List.map_drop, List.zipIdx_map_fst] at samePages
        exact .inr (.inl ⟨rfl, ⟨rfl, rfl, rfl⟩, catalog, published, matched, samePages.symm⟩)
      · rename_i plan notNil planned
        rcases planWrites_eq_ok planned with ⟨samePages, entries⟩
        rw [List.map_drop, List.zipIdx_map_fst] at samePages
        have distinctPlan : (plan.map (·.2.1.objectKey)).Nodup := by
          have keys : plan.map (·.2.1.objectKey) =
              (descriptors.drop published.length).map (·.objectKey) := by
            rw [← samePages, List.map_map]
            rfl
          rw [keys, List.map_drop]
          exact distinct.sublist (List.drop_sublist _ _)
        rcases writePlanned_submits distinctPlan entries with
          ⟨middle, writes, written, submits⟩
        have someWrites : writes ≠ [] := by
          rintro rfl
          have noPlan := submits.pages
          rw [List.map_nil, eq_comm, List.map_eq_nil_iff] at noPlan
          exact notNil noPlan
        rcases exists_pending sameLength someWrites with ⟨pending, made, isPages, isWrites⟩
        rw [written] at submitted
        dsimp only at submitted
        rw [made] at submitted
        cases submitted
        refine .inr (.inr ⟨pending, rfl, ⟨catalog, published, matched, ?_⟩, ?_, submits.known, ?_,
          submits.isPut, submits.undone, submits.inflight⟩)
        · rw [isPages, submits.pages, samePages]
        · rw [submits.pendings]
        · rw [isWrites]
          exact submits.noted

theorem Registered.accepted (registered : service.Registered) {blockKeys : List BlockKey}
    {descriptors : List RemoteCatalog.RemotePageDescriptor} {pending : PendingRemoteWriteback}
    (accepted : Accepted service blockKeys descriptors service' pending) :
    service'.Registered where
  inflight := accepted.inflight registered.inflight
  isPut other member write memberWrite := by
    rw [accepted.pendings, List.mem_append, List.mem_singleton] at member
    rcases member with member | rfl
    · exact accepted.isPut _ _ (registered.isPut other member write memberWrite)
    · exact accepted.inflight registered.inflight _ _ (accepted.noted write memberWrite)
  outstanding f key outstanding := by
    rcases outstanding with ⟨⟨other, member, memberFuture⟩, undone⟩
    rcases exists_write memberFuture with ⟨page, memberWrite⟩
    rw [accepted.pendings, List.mem_append, List.mem_singleton] at member
    rcases member with member | rfl
    · have isPut := registered.isPut other member _ memberWrite
      have sameKey := (accepted.isPut _ _ isPut).key_eq undone.isPut
      subst sameKey
      apply accepted.known
      exact registered.outstanding f _
        ⟨⟨other, member, memberFuture⟩, accepted.undone _ _ isPut undone⟩
    · have noted := accepted.noted _ memberWrite
      have sameKey := (accepted.inflight registered.inflight _ _ noted).key_eq undone.isPut
      rw [← sameKey]
      exact noted

theorem Registered.untouched (registered : service.Registered)
    (untouched : Untouched service service') : service'.Registered :=
  registered.resolves
    (.of_futures untouched.inflightWrites untouched.pendings untouched.futures)

/-! ## Runs -/

/-- The callers of `submit_writeback` give the pages of one prefix, which have different keys. -/
def Distinct : Action → Prop
  | .submitWriteback _ descriptors _ => (descriptors.map (·.objectKey)).Nodup
  | _ => True

/-- The engine submits what `_describe_remote_prefix` returns. -/
theorem distinct_of_described {blake2b : StorageBackend.Blake2b}
    {identity : StorageBackend.KVCacheIdentity} {blockSize : ℕ} {tokenIds : List Token}
    {numPages : ℤ} {blockKeys : List BlockKey}
    {descriptors : List RemoteCatalog.RemotePageDescriptor}
    (described : StorageBackend.describeRemotePrefix blake2b identity blockSize tokenIds numPages =
      .ok (blockKeys, descriptors)) (envelopes : Envelopes) :
    Distinct (.submitWriteback blockKeys descriptors envelopes) :=
  StorageBackend.describeRemotePrefix_nodup described

/-- A batch which fails is done with all its pages. -/
def FailsDone (service : Service) : Action → Prop
  | .failWriteback i => ∀ pending, service.pendings[i]? = some pending →
      ∀ f ∈ pending.futures, service.done f = true
  | _ => True

theorem Registered.initial (cfg : ServiceConfig F) (catalog : RemotePrefixCatalog)
    (objects : String → Option Transfer.Payload) :
    (Service.initial cfg catalog objects).Registered where
  inflight := nofun
  isPut := nofun
  outstanding := by
    rintro f key ⟨⟨pending, member, -⟩, -⟩
    cases member

theorem Registered.pagesRequiringWrite (registered : service.Registered)
    (blockKeys : List BlockKey) (descriptors : List RemoteCatalog.RemotePageDescriptor) :
    (service.pagesRequiringWrite blockKeys descriptors).1.Registered := by
  unfold Service.pagesRequiringWrite
  split
  · exact registered
  · split
    · exact registered
    · rename_i catalog published _
      have looked : Resolves service { service with catalog } := .of_futures rfl rfl rfl
      exact (registered.resolves looked).requirePages _

theorem Registered.submitWriteback (registered : service.Registered) {blockKeys : List BlockKey}
    {descriptors : List RemoteCatalog.RemotePageDescriptor} (envelopes : Envelopes)
    (distinct : (descriptors.map (·.objectKey)).Nodup) :
    (service.submitWriteback blockKeys descriptors envelopes).1.Registered := by
  rcases submitWriteback_cases distinct (Prod.mk.eta).symm with
    ⟨_, -, untouched⟩ | ⟨-, untouched, -⟩ | ⟨_, -, accepted⟩
  · exact registered.untouched untouched
  · exact registered.untouched untouched
  · exact registered.accepted accepted

theorem Resolves.register {blockKeys : List BlockKey}
    {descriptors : List RemoteCatalog.RemotePageDescriptor}
    (returned : service.registerExistingPrefix cfg blockKeys descriptors = .ok service') :
    Resolves service service' := by
  rcases Py.exists_of_bind returned with ⟨catalog, -, returned⟩
  cases returned
  have published : Resolves service { service with catalog } := .of_futures rfl rfl rfl
  exact published.trans (.scheduleCatalogSave _ cfg)

theorem Resolves.submitAll (service : Service)
    (pages : List (RemoteCatalog.RemotePageDescriptor × Transfer.Payload)) :
    Resolves service (pages.foldl
      (fun service page => service.submit page.1.objectKey page.2 false) service) := by
  induction pages generalizing service with
  | nil => exact .refl service
  | cons page pages ih => exact (Resolves.submit _ _ _ _).trans (ih _)

theorem Resolves.publishPrefix {blockKeys : List BlockKey}
    {descriptors : List RemoteCatalog.RemotePageDescriptor} {envelopes : List Transfer.Payload}
    (returned : service.publishPrefix blockKeys descriptors envelopes = .ok service') :
    Resolves service service' := by
  unfold Service.publishPrefix at returned
  split at returned
  · cases returned
  · split at returned
    · cases returned
    · cases returned
      have submitted := Resolves.submitAll service (descriptors.zip envelopes)
      exact submitted.trans (.of_futures rfl rfl rfl)

theorem Resolves.loadCatalog (service : Service) (cfg : ServiceConfig F)
    (outcome : Transfer.Outcome) : Resolves service (service.loadCatalog cfg outcome) := by
  unfold Service.loadCatalog
  split
  · split
    · split
      · exact .refl _
      · split
        · exact .of_futures rfl rfl rfl
        · exact .refl _
    · exact .refl _
  · exact .refl _

theorem Resolves.orUnchanged {result : Py Service}
    (returns : ∀ returned, result = .ok returned → Resolves service returned) :
    Resolves service (service.orUnchanged result) := by
  cases result with
  | error error => exact .refl service
  | ok returned => exact returns returned rfl

theorem Resolves.setPhase (service : Service) (phase : Phase) :
    Resolves service { service with phase } := .of_futures rfl rfl rfl

/-- Every step keeps the table, if the batches which fail are done. -/
theorem Registered.step (registered : service.Registered) {action : Action}
    (distinct : Distinct action) (failsDone : service.FailsDone action)
    (stepped : service.step cfg action = some service') : service'.Registered := by
  cases action with
  | transfer key action =>
    dsimp only [Service.step] at stepped
    split at stepped
    · cases stepped
    · rcases Option.map_eq_some_iff.mp stepped with ⟨coordinator, -, rfl⟩
      exact registered.resolves (.of_futures rfl rfl rfl)
  | run f => exact registered.resolves (.run stepped)
  | resolve f => exact registered.resolves (.resolve stepped)
  | loaded =>
    dsimp only [Service.step] at stepped
    split at stepped
    · split at stepped
      · cases stepped
        exact registered.resolves ((Resolves.loadCatalog _ cfg _).trans (.setPhase _ _))
      · cases stepped
    · cases stepped
  | loadTimedOut =>
    dsimp only [Service.step] at stepped
    split at stepped
    · cases stepped
      exact registered.resolves (.setPhase _ _)
    · cases stepped
  | matchKeys blockKeys =>
    dsimp only [Service.step] at stepped
    split at stepped
    · rcases whenIdle_eq stepped with ⟨rfl, -⟩
      exact registered.resolves (.of_futures rfl rfl rfl)
    · rcases whenIdle_eq stepped with ⟨rfl, -⟩
      exact registered
  | registerExistingPrefix blockKeys descriptors =>
    rcases whenIdle_eq stepped with ⟨rfl, -⟩
    exact registered.resolves (.orUnchanged fun _ returned => .register returned)
  | pagesRequiringWrite blockKeys descriptors =>
    rcases whenIdle_eq stepped with ⟨rfl, -⟩
    exact registered.pagesRequiringWrite blockKeys descriptors
  | submitWriteback blockKeys descriptors envelopes =>
    rcases whenIdle_eq stepped with ⟨rfl, -⟩
    exact registered.submitWriteback envelopes distinct
  | completeWriteback i =>
    dsimp only [Service.step] at stepped
    split at stepped
    · rename_i pending isPending
      split at stepped
      · rcases whenIdle_eq stepped with ⟨rfl, -⟩
        exact registered
      · split at stepped
        · rename_i succeeded
          rcases whenIdle_eq stepped with ⟨rfl, -⟩
          cases completed : service.completeWriteback cfg pending with
          | error error => exact registered
          | ok returned =>
            rw [List.all_eq_true] at succeeded
            exact registered.completeWriteback (List.mem_of_getElem? isPending)
              (fun f member => done_of_succeeded (succeeded f member)) completed
        · cases stepped
    · cases stepped
  | failWriteback i =>
    dsimp only [Service.step] at stepped
    split at stepped
    · rename_i pending isPending
      rcases whenIdle_eq stepped with ⟨rfl, -⟩
      exact registered.failWriteback (failsDone pending isPending)
    · cases stepped
  | publishPrefix blockKeys descriptors envelopes =>
    rcases whenIdle_eq stepped with ⟨rfl, -⟩
    exact registered.resolves (.orUnchanged fun _ returned => .publishPrefix returned)
  | published =>
    dsimp only [Service.step] at stepped
    split at stepped
    · rename_i blockKeys descriptors _ _
      split at stepped
      · cases stepped
        have finished : Resolves service
            (service.orUnchanged (service.finishPublish cfg blockKeys descriptors)) :=
          .orUnchanged fun _ returned => .register returned
        exact registered.resolves (finished.trans (.setPhase _ _))
      · cases stepped
    · cases stepped
  | publishFailed =>
    dsimp only [Service.step] at stepped
    split at stepped
    · cases stepped
      exact registered.resolves (.setPhase _ _)
    · cases stepped

/-! ## Coalescing -/

/-- What write-back promises at an instant. -/
structure Coalesces (service : Service) : Prop where
  /-- At most one `put` of a key is outstanding. -/
  atMostOne : ∀ {f g : FutureId} {key : String}, service.Outstanding f key →
    service.Outstanding g key → f = g
  /-- A page whose `put` is outstanding is not exported again. -/
  notExported : ∀ {blockKeys : List BlockKey}
    {descriptors : List RemoteCatalog.RemotePageDescriptor} {service' : Service}
    {required : List ℕ} {i : ℕ} {page : RemoteCatalog.RemotePageDescriptor} {f : FutureId},
    service.pagesRequiringWrite blockKeys descriptors = (service', .ok required) →
      descriptors[i]? = some page → service.Outstanding f page.objectKey → i ∉ required
  /-- A batch which needs such a page joins its `put`. -/
  joined : ∀ {blockKeys : List BlockKey} {descriptors : List RemoteCatalog.RemotePageDescriptor}
    {envelopes : Envelopes} {service' : Service} {pending : PendingRemoteWriteback}
    {page : RemoteCatalog.RemotePageDescriptor} {f g : FutureId},
    (descriptors.map (·.objectKey)).Nodup →
      service.submitWriteback blockKeys descriptors envelopes = (service', .ok (some pending)) →
      (page, g) ∈ pending.writePages.zip pending.futures →
      service.Outstanding f page.objectKey → g = f
  /-- A batch has every page which is not published, and the table has its futures. -/
  whole : ∀ {blockKeys : List BlockKey} {descriptors : List RemoteCatalog.RemotePageDescriptor}
    {envelopes : Envelopes} {service' : Service} {pending : Option PendingRemoteWriteback},
    (descriptors.map (·.objectKey)).Nodup →
      service.submitWriteback blockKeys descriptors envelopes = (service', .ok pending) →
      ∃ catalog published,
        service.catalog.matchKeys blockKeys = .ok (catalog, published) ∧
        match pending with
        | none => descriptors.drop published.length = [] ∧ Untouched service service'
        | some pending => pending.writePages = descriptors.drop published.length ∧
            ∀ write ∈ pending.writePages.zip pending.futures,
              service'.inflightWrites write.1.objectKey = some write.2
  /-- A submission which raises changes nothing. -/
  raised : ∀ {blockKeys : List BlockKey} {descriptors : List RemoteCatalog.RemotePageDescriptor}
    {envelopes : Envelopes} {service' : Service} {error : PyError},
    (descriptors.map (·.objectKey)).Nodup →
      service.submitWriteback blockKeys descriptors envelopes = (service', .error error) →
      Untouched service service'

/-- The table has a `put` of the key which is not done. -/
def InFlight (service : Service) (key : String) : Prop :=
  ∃ f, service.inflightWrites key = some f ∧ service.Undone f key

theorem InFlight.popInflight {key other : String} {f : FutureId} (inFlight : service.InFlight key)
    (known : service.inflightWrites other = some f) (isDone : service.done f = true) :
    (service.popInflight other).InFlight key := by
  rcases inFlight with ⟨g, known', undone⟩
  have different : key ≠ other := by
    rintro rfl
    rw [known] at known'
    cases known'
    exact not_undone_of_done isDone undone
  exact ⟨g, by simpa [Service.popInflight, different] using known', undone⟩

/-- A page which is in flight is not required. -/
theorem requirePages_notMem {pages : List (RemoteCatalog.RemotePageDescriptor × ℕ)} {i : ℕ}
    (inFlight : ∀ entry ∈ pages, entry.2 = i → service.InFlight entry.1.objectKey) :
    i ∉ (service.requirePages pages).2 := by
  induction pages generalizing service with
  | nil => exact List.not_mem_nil
  | cons entry pages ih =>
    rcases entry with ⟨page, index⟩
    rw [List.forall_mem_cons] at inFlight
    rcases inFlight with ⟨first, rest⟩
    unfold Service.requirePages
    split
    · rename_i unknown
      have other : i ≠ index := by
        intro same
        rcases first same.symm with ⟨f, known, -⟩
        rw [unknown] at known
        cases known
      exact List.not_mem_cons_of_ne_of_not_mem other (ih rest)
    · rename_i f known
      split
      · rename_i failed
        have isDone := done_of_failed failed
        have other : i ≠ index := by
          intro same
          rcases first same.symm with ⟨g, known', undone⟩
          rw [known] at known'
          cases known'
          exact not_undone_of_done isDone undone
        apply List.not_mem_cons_of_ne_of_not_mem other
        apply ih
        intro entry member isIndex
        exact (rest entry member isIndex).popInflight known isDone
      · exact ih rest

theorem pagesRequiringWrite_notMem {blockKeys : List BlockKey}
    {descriptors : List RemoteCatalog.RemotePageDescriptor} {required : List ℕ} {i : ℕ}
    {page : RemoteCatalog.RemotePageDescriptor}
    (returned : service.pagesRequiringWrite blockKeys descriptors = (service', .ok required))
    (isPage : descriptors[i]? = some page) (inFlight : service.InFlight page.objectKey) :
    i ∉ required := by
  unfold Service.pagesRequiringWrite at returned
  split at returned
  · cases returned
  · split at returned
    · cases returned
    · rename_i catalog published matched
      cases returned
      apply requirePages_notMem
      rintro ⟨page', index⟩ member rfl
      have isPage' := List.mem_zipIdx_iff_getElem?.mp (List.mem_of_mem_drop member)
      rw [isPage] at isPage'
      cases isPage'
      exact inFlight

theorem Registered.coalesces (registered : service.Registered) : service.Coalesces where
  atMostOne first second := by
    have known := registered.outstanding _ _ first
    rw [registered.outstanding _ _ second] at known
    cases known
    rfl
  notExported returned isPage outstanding :=
    pagesRequiringWrite_notMem returned isPage
      ⟨_, registered.outstanding _ _ outstanding, outstanding.2⟩
  joined distinct submitted member outstanding := by
    rcases submitWriteback_cases distinct submitted with
      ⟨_, raised, -⟩ | ⟨nothing, -⟩ | ⟨pending', isPending, accepted⟩
    · cases raised
    · cases nothing
    · cases isPending
      have noted := accepted.noted _ member
      rw [accepted.known _ _ (registered.outstanding _ _ outstanding)] at noted
      cases noted
      rfl
  whole distinct submitted := by
    rcases submitWriteback_cases distinct submitted with
      ⟨_, raised, -⟩ | ⟨nothing, untouched, catalog, published, matched, isNil⟩ |
        ⟨pending', isPending, accepted⟩
    · cases raised
    · cases nothing
      exact ⟨catalog, published, matched, isNil, untouched⟩
    · cases isPending
      rcases accepted.unpublished with ⟨catalog, published, matched, isPages⟩
      exact ⟨catalog, published, matched, isPages, accepted.noted⟩
  raised distinct submitted := by
    rcases submitWriteback_cases distinct submitted with
      ⟨_, -, untouched⟩ | ⟨nothing, -⟩ | ⟨_, isPending, -⟩
    · exact untouched
    · cases nothing
    · cases isPending

end Service

/-- The services which are reached by steps which all meet a condition. -/
inductive Runs (cfg : ServiceConfig F) (condition : Service → Action → Prop) : Service → Prop where
  | initial (catalog : RemotePrefixCatalog) (objects : String → Option Transfer.Payload) :
      Runs cfg condition (.initial cfg catalog objects)
  | step {service service' : Service} {action : Action} (runs : Runs cfg condition service)
      (distinct : Service.Distinct action) (meets : condition service action)
      (stepped : service.step cfg action = some service') : Runs cfg condition service'

theorem Runs.registered (runs : Runs cfg Service.FailsDone service) : service.Registered := by
  induction runs with
  | initial catalog objects => exact .initial cfg catalog objects
  | step _ distinct meets stepped registered => exact registered.step distinct meets stepped

/-- Write-back coalesces as long as batches fail only when all their pages are done. -/
theorem writeback_coalesces (runs : Runs cfg Service.FailsDone service) : service.Coalesces :=
  runs.registered.coalesces

/-! ## An example -/

/-- The actions one after the other, if they are possible. -/
def Service.steps (service : Service) (cfg : ServiceConfig F) (actions : List Action) :
    Option Service :=
  actions.foldlM (fun service action => service.step cfg action) service

theorem Runs.steps {condition : Service → Action → Prop} {actions : List Action}
    (runs : Runs cfg condition service) (distinct : ∀ action ∈ actions, Service.Distinct action)
    (meets : ∀ service : Service, ∀ action ∈ actions, condition service action)
    (stepped : service.steps cfg actions = some service') : Runs cfg condition service' := by
  induction actions generalizing service with
  | nil =>
    cases stepped
    exact runs
  | cons action actions ih =>
    rw [List.forall_mem_cons] at distinct
    rw [Service.steps, List.foldlM_cons] at stepped
    rcases Option.bind_eq_some_iff.mp stepped with ⟨middle, first, rest⟩
    have meetsFirst := meets service action List.mem_cons_self
    have meetsRest : ∀ service : Service, ∀ action ∈ actions, condition service action :=
      fun service action member => meets service action (List.mem_cons_of_mem _ member)
    exact ih (.step runs distinct.1 meetsFirst first) distinct.2 meetsRest rest

/-- The submission of a prefix of two pages. -/
def submitTwoPages : Action :=
  .submitWriteback [[1, 2], [3, 4]]
    [⟨"p", "a", 0, 0, RemoteCatalog.RemotePageDescriptor.named_p⟩, ⟨"q", "a", 0, 1, RemoteCatalog.RemotePageDescriptor.named_q⟩] fun i => some [i.toUInt8]

/-- The second page fails while the first one is being written. -/
def slowPage : List Action :=
  [.loadTimedOut, submitTwoPages, .run 0, .transfer "p" (.call 0), .run 1,
    .transfer "q" (.call 0), .transfer "q" (.fails 0 ⟨"OSError", "unreachable"⟩ false),
    .transfer "q" (.finish 0), .resolve 1, .completeWriteback 0, .failWriteback 0]

theorem distinct_slowPage :
    ∀ action ∈ slowPage ++ [submitTwoPages], Service.Distinct action := by
  simp only [slowPage, List.cons_append, List.nil_append, List.forall_mem_cons]
  simp [Service.Distinct, submitTwoPages]

/-- After the batch has failed, its first page is written twice at the same time. -/
theorem writeback_slowPage : ∃ service, Runs twoPagesConfig (fun _ _ => True) service ∧
    service.Outstanding 0 "p" ∧ service.Outstanding 2 "p" ∧ ¬ service.Coalesces := by
  have start : Runs twoPagesConfig (fun _ _ => True) (.initial twoPagesConfig .empty fun _ => none) :=
    .initial .empty fun _ => none
  have stepped : Service.steps (.initial twoPagesConfig .empty fun _ => none) twoPagesConfig
      (slowPage ++ [submitTwoPages]) = some _ := rfl
  refine ⟨_, start.steps distinct_slowPage (by simp) stepped, ?_⟩
  suffices twice : Service.Outstanding _ 0 "p" ∧ Service.Outstanding _ 2 "p" by
    refine ⟨twice.1, twice.2, ?_⟩
    intro coalesces
    exact absurd (coalesces.atMostOne twice.1 twice.2) (by decide)
  constructor
  · exact ⟨⟨_, List.mem_cons_self, List.mem_cons_self⟩, _, rfl, rfl, rfl⟩
  · exact ⟨⟨_, List.mem_cons_of_mem _ List.mem_cons_self, List.mem_cons_self⟩, _, rfl, rfl, rfl⟩

/-- The two pages of a batch are being written. -/
theorem writeback_coalesces_twoPages : ∃ service, Runs twoPagesConfig Service.FailsDone service ∧
    service.Outstanding 0 "p" ∧ service.Coalesces := by
  have start : Runs twoPagesConfig Service.FailsDone
      (.initial twoPagesConfig .empty fun _ => none) := .initial .empty fun _ => none
  have stepped : Service.steps (.initial twoPagesConfig .empty fun _ => none) twoPagesConfig
      [.loadTimedOut, submitTwoPages] = some _ := rfl
  have runs := start.steps
    (by simp only [List.forall_mem_cons]; simp [Service.Distinct, submitTwoPages])
    (by simp only [List.forall_mem_cons]; simp [Service.FailsDone, submitTwoPages]) stepped
  refine ⟨_, runs, ?_, writeback_coalesces runs⟩
  exact ⟨⟨_, List.mem_cons_self, List.mem_cons_self⟩, _, rfl, rfl, rfl⟩

end NanoVllm.RemoteRestore
