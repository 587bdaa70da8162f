import NanoVllm.RemoteCatalog

/-!
# Snapshots survive their encoding

A record which satisfies the checks of its constructor is what the constructor makes of the
values that `_payload` writes, so `decode` reads back what `encode` wrote.
-/

namespace NanoVllm.RemoteCatalog

variable {F : Type}

/-- An integer as a JSON value. -/
def intValue (n : ℤ) : Json F := .number (.int n)

theorem nonEmptyString?_string {s : String} (nonempty : s ≠ "") :
    nonEmptyString? (.string s : Json F) = some ⟨s, nonempty⟩ := dif_pos nonempty

theorem natural?_natCast (n : ℕ) : natural? (.number (.int n) : Json F) = some n := by
  rw [natural?, if_neg (by omega), Int.toNat_natCast]

theorem mapM_uint32? {block : BlockKey} (range : ∀ token ∈ block, 0 ≤ token ∧ token < 2 ^ 32) :
    (block.map intValue).mapM (uint32? : Json F → Option Token) = some block := by
  induction block with
  | nil => rfl
  | cons token block ih =>
    rw [List.forall_mem_cons] at range
    rw [List.map_cons, List.mapM_cons, ih range.2]
    change (if 0 ≤ token ∧ token < 2 ^ 32 then some token else none) >>= _ = _
    rw [if_pos range.1]
    rfl

theorem CatalogPageRecord.new_self (page : CatalogPageRecord) :
    CatalogPageRecord.new (F := F) (.string page.objectKey) (.string page.identityDigest)
      (intValue page.tpRank) (intValue page.pageIndex) = .ok page := by
  rcases page with ⟨objectKey, identityDigest, tpRank, pageIndex, named⟩
  simp only [CatalogPageRecord.new, nonEmptyString?_string named.1,
    nonEmptyString?_string named.2, intValue, natural?_natCast]

theorem checkBlocks_self {blockKeys : List BlockKey} {pages : List CatalogPageRecord} {index : ℕ}
    (sameLength : blockKeys.length = pages.length)
    (indexed : ∀ i (page : CatalogPageRecord), pages[i]? = some page → page.pageIndex = index + i)
    (uint32 : ∀ block ∈ blockKeys, ∀ token ∈ block, 0 ≤ token ∧ token < 2 ^ 32) :
    checkBlocks (F := F) (blockKeys.map (List.map intValue)) pages index = .ok blockKeys := by
  induction blockKeys generalizing pages index with
  | nil => rfl
  | cons block blockKeys ih =>
    cases pages with
    | nil => cases sameLength
    | cons page pages =>
      rw [List.forall_mem_cons] at uint32
      have pageIndex : page.pageIndex = index := indexed 0 page rfl
      have rest := @ih pages (index + 1) (Nat.succ.inj sameLength)
        (fun i page' get => by rw [indexed (i + 1) page' get]; omega) uint32.2
      simp only [List.map_cons, checkBlocks, pageIndex, ne_eq, not_true_eq_false, ↓reduceIte,
        mapM_uint32? uint32.1, rest]
      rfl

/-- A record is rebuilt from its own tokens and pages. -/
theorem CatalogPrefixRecord.new_self (record : CatalogPrefixRecord) :
    CatalogPrefixRecord.new (F := F) (record.blockKeys.map (List.map intValue)) record.pages =
      .ok record := by
  have indexed : ∀ i (page : CatalogPageRecord), record.pages[i]? = some page →
      page.pageIndex = 0 + i := by
    intro i page get
    rw [record.indexed i page get, Nat.zero_add]
  have checked := checkBlocks_self (F := F) record.sameLength indexed record.uint32
  have vectors : ¬(record.blockKeys.map (List.map intValue : BlockKey → List (Json F)) = [] ∨
      (record.blockKeys.map (List.map intValue : BlockKey → List (Json F))).length ≠
        record.pages.length) := by
    rw [List.map_eq_nil_iff, List.length_map, not_or, not_not]
    exact ⟨record.nonempty, record.sameLength⟩
  have sizes : ¬(((record.blockKeys.map (List.map intValue : BlockKey → List (Json F))).map
        List.length).dedup.length ≠ 1 ∨
      0 ∈ (record.blockKeys.map (List.map intValue : BlockKey → List (Json F))).map
        List.length) := by
    have same : (record.blockKeys.map (List.map intValue : BlockKey → List (Json F))).map
        List.length = record.blockKeys.map List.length := by simp
    rw [same, not_or, not_not]
    exact record.onePageSize
  unfold CatalogPrefixRecord.new
  rw [dif_neg vectors, dif_neg sizes]
  split
  · next error failed =>
    rw [checked] at failed
    cases failed
  · next blockKeys read =>
    rw [checked] at read
    cases read
    rfl

theorem RemoteCatalogSnapshot.new_self (snapshot : RemoteCatalogSnapshot) :
    RemoteCatalogSnapshot.new (F := F) (.string snapshot.identityDigest)
      (intValue snapshot.tpRank) snapshot.prefixes = .ok snapshot := by
  rcases snapshot with ⟨identityDigest, tpRank, prefixes, identified, nonempty, onePageSize, same⟩
  simp only [RemoteCatalogSnapshot.new, nonEmptyString?_string identified, intValue,
    natural?_natCast, dif_neg nonempty, dif_pos onePageSize, dif_pos same]

namespace RemoteCatalogSnapshotCodec

theorem mapM_map_ok {α β E : Type} {f : α → Except E β} {g : β → α}
    (inverse : ∀ b, f (g b) = .ok b) (items : List β) : (items.map g).mapM f = .ok items := by
  induction items with
  | nil => rfl
  | cons item items ih =>
    rw [List.map_cons, List.mapM_cons, inverse, ih]
    rfl

theorem decodePage_pagePayload (page : CatalogPageRecord) :
    decodePage (pagePayload page : Json F) = .ok page := by
  have built := congrArg build (CatalogPageRecord.new_self (F := F) page)
  exact built

theorem decodePrefix_prefixPayload (record : CatalogPrefixRecord) :
    decodePrefix (prefixPayload record : Json F) = .ok record := by
  have blocks : (record.blockKeys.map (blockPayload : BlockKey → Json F)).mapM iterate =
      .ok (record.blockKeys.map (List.map intValue)) := by
    have iterated := mapM_map_ok (f := iterate) (g := (Json.array : List (Json F) → Json F))
      (fun _ => rfl) (record.blockKeys.map (List.map intValue))
    rwa [List.map_map] at iterated
  have pages := mapM_map_ok (decodePage_pagePayload (F := F)) record.pages
  have built := congrArg build (CatalogPrefixRecord.new_self (F := F) record)
  change ((record.blockKeys.map (blockPayload : BlockKey → Json F)).mapM iterate >>= _) = _
  rw [blocks]
  change ((record.pages.map (pagePayload : CatalogPageRecord → Json F)).mapM decodePage >>= _) = _
  rw [pages]
  exact built

theorem decodePayload_payload (snapshot : RemoteCatalogSnapshot) :
    decodePayload (payload snapshot : Json F) = .ok snapshot := by
  have prefixes := mapM_map_ok (decodePrefix_prefixPayload (F := F)) snapshot.prefixes
  have built := congrArg build (RemoteCatalogSnapshot.new_self (F := F) snapshot)
  change ((snapshot.prefixes.map (prefixPayload : CatalogPrefixRecord → Json F)).mapM
    decodePrefix >>= _) = _
  rw [prefixes]
  exact built

theorem checkPayload_payload (env : CatalogEnv F) (snapshot : RemoteCatalogSnapshot) :
    checkPayload env (payload snapshot)
      (.string (env.hexdigest (env.dumps (payload snapshot)))) = .ok () := by
  have ascii : ((env.hexdigest (env.dumps (payload snapshot))).toList.all
      fun c => c.toNat < 128) = true := by
    rw [List.all_eq_true]
    exact fun c mem => decide_eq_true (env.hexdigest_ascii _ c mem)
  unfold payload checkPayload
  dsimp only
  unfold payload at ascii
  rw [if_pos ascii, if_pos rfl]

/-- What `encode` writes is read back, as far as JSON reads back the document. -/
theorem decode_encode (env : CatalogEnv F) (snapshot : RemoteCatalogSnapshot)
    (roundTrips : env.loads (env.dumps (envelope env snapshot)) = .ok (envelope env snapshot)) :
    decode env (encode env snapshot) = .ok snapshot := by
  unfold decode encode
  rw [roundTrips]
  change (checkPayload env (payload snapshot)
    (.string (env.hexdigest (env.dumps (payload snapshot)))) >>= fun _ =>
      decodePayload (payload snapshot)) = _
  rw [checkPayload_payload]
  exact decodePayload_payload snapshot

end RemoteCatalogSnapshotCodec

end NanoVllm.RemoteCatalog
