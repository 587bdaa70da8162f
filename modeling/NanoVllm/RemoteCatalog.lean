import NanoVllm.KvPage
import NanoVllm.Radix.Leaves
import NanoVllm.Radix.Refinement

/-!
# The remote prefix catalog

`RemotePrefixCatalog` maps page-aligned token prefixes to the descriptors of stored pages. Its
snapshot is a list of leaf paths, which `RemoteCatalogSnapshotCodec` writes as JSON. The checks
of the record constructors are fields here; the constructors themselves take whatever values a
JSON document holds.

`json.dumps` sorts the fields of objects, so objects list their fields in sorted order. The
texts of built-in exceptions are left out.
-/

namespace NanoVllm.RemoteCatalog

variable {F : Type}

/-! ## Records -/

/-- A string which is not empty. -/
def nonEmptyString? : Json F → Option {s : String // s ≠ ""}
  | .string s => if nonempty : s ≠ "" then some ⟨s, nonempty⟩ else none
  | _ => none

/-- An integer which is not a boolean and not negative. -/
def natural? : Json F → Option ℕ
  | .number (.int n) => if n < 0 then none else some n.toNat
  | _ => none

/-- An integer which is not a boolean and fits in 32 bits. -/
def uint32? : Json F → Option Token
  | .number (.int n) => if 0 ≤ n ∧ n < 2 ^ 32 then some n else none
  | _ => none

/-- `CatalogPageRecord`. -/
@[ext] structure CatalogPageRecord where
  objectKey : String
  identityDigest : String
  tpRank : ℕ
  pageIndex : ℕ
  named : objectKey ≠ "" ∧ identityDigest ≠ ""
  deriving DecidableEq

/-- The constructor of `CatalogPageRecord` with `__post_init__`. -/
def CatalogPageRecord.new (objectKey identityDigest tpRank pageIndex : Json F) :
    Py CatalogPageRecord :=
  match nonEmptyString? objectKey, nonEmptyString? identityDigest with
  | some objectKey, some identityDigest =>
      match natural? tpRank, natural? pageIndex with
      | some tpRank, some pageIndex =>
          .ok {
            objectKey := objectKey.1
            identityDigest := identityDigest.1
            tpRank
            pageIndex
            named := ⟨objectKey.2, identityDigest.2⟩ }
      | _, _ => .error (.valueError "catalog TP ranks and page indexes must be non-negative")
  | _, _ => .error (.valueError "catalog page keys and identities must not be empty")

/-- `CatalogPrefixRecord`. -/
@[ext] structure CatalogPrefixRecord where
  blockKeys : List BlockKey
  pages : List CatalogPageRecord
  nonempty : blockKeys ≠ []
  sameLength : blockKeys.length = pages.length
  onePageSize : (blockKeys.map List.length).dedup.length = 1 ∧ 0 ∉ blockKeys.map List.length
  indexed : ∀ i (page : CatalogPageRecord), pages[i]? = some page → page.pageIndex = i
  uint32 : ∀ block ∈ blockKeys, ∀ token ∈ block, 0 ≤ token ∧ token < 2 ^ 32

/-- The loop of `CatalogPrefixRecord.__post_init__` over the blocks and their pages. -/
def checkBlocks : List (List (Json F)) → List CatalogPageRecord → ℕ → Py (List BlockKey)
  | block :: blocks, page :: pages, index =>
      if page.pageIndex ≠ index then
        .error (.valueError "catalog page indexes must start at zero")
      else
        match block.mapM uint32? with
        | none => .error (.valueError "catalog token ids must fit in uint32")
        | some tokens => do
            let blockKeys ← checkBlocks blocks pages (index + 1)
            .ok (tokens :: blockKeys)
  | _, _, _ => .ok []

theorem eq_of_uint32? {value : Json F} {token : Token} (read : uint32? value = some token) :
    value = .number (.int token) ∧ 0 ≤ token ∧ token < 2 ^ 32 := by
  cases value with
  | number n =>
    cases n with
    | int n =>
      simp only [uint32?, Option.ite_none_right_eq_some, Option.some.injEq] at read
      rcases read with ⟨range, rfl⟩
      exact ⟨rfl, range⟩
    | bool b => cases read
    | float x => cases read
  | null => cases read
  | string s => cases read
  | array items => cases read
  | object fields => cases read

theorem eq_of_mapM_uint32? {block : List (Json F)} {tokens : BlockKey}
    (read : block.mapM uint32? = some tokens) :
    tokens.length = block.length ∧ ∀ token ∈ tokens, 0 ≤ token ∧ token < 2 ^ 32 := by
  induction block generalizing tokens with
  | nil =>
    cases read
    simp
  | cons value block ih =>
    rw [List.mapM_cons] at read
    rcases Option.bind_eq_some_iff.mp read with ⟨token, readToken, read⟩
    rcases Option.bind_eq_some_iff.mp read with ⟨tokens, readTokens, read⟩
    cases read
    rcases ih readTokens with ⟨sameLength, range⟩
    refine ⟨congrArg Nat.succ sameLength, ?_⟩
    rw [List.forall_mem_cons]
    exact ⟨(eq_of_uint32? readToken).2, range⟩

/-- What the loop has checked. -/
structure BlocksChecked (blocks : List (List (Json F))) (pages : List CatalogPageRecord)
    (index : ℕ) (blockKeys : List BlockKey) : Prop where
  sizes : blockKeys.map List.length = blocks.map List.length
  indexed : ∀ i (page : CatalogPageRecord), pages[i]? = some page →
    page.pageIndex = index + i
  uint32 : ∀ block ∈ blockKeys, ∀ token ∈ block, 0 ≤ token ∧ token < 2 ^ 32

theorem blocksChecked {blocks : List (List (Json F))} {pages : List CatalogPageRecord}
    {index : ℕ} {blockKeys : List BlockKey} (sameLength : blocks.length = pages.length)
    (checked : checkBlocks blocks pages index = .ok blockKeys) :
    BlocksChecked blocks pages index blockKeys := by
  induction blocks generalizing pages index blockKeys with
  | nil =>
    cases List.length_eq_zero_iff.mp sameLength.symm
    cases checked
    constructor <;> simp
  | cons block blocks ih =>
    cases pages with
    | nil => cases sameLength
    | cons page pages =>
      rw [checkBlocks] at checked
      split at checked
      · cases checked
      · next pageIndex =>
        cases tokensRead : block.mapM uint32? with
        | none =>
          rw [tokensRead] at checked
          cases checked
        | some tokens =>
          rw [tokensRead] at checked
          cases restChecked : checkBlocks blocks pages (index + 1) with
          | error error =>
            simp only [restChecked] at checked
            cases checked
          | ok rest =>
            simp only [restChecked] at checked
            cases checked
            have restOk := ih (Nat.succ.inj sameLength) restChecked
            rcases eq_of_mapM_uint32? tokensRead with ⟨size, range⟩
            refine ⟨by simp [size, restOk.sizes], ?_, ?_⟩
            · intro i page' get
              cases i with
              | zero =>
                cases get
                simpa using pageIndex
              | succ i =>
                have := restOk.indexed i page' get
                omega
            · rw [List.forall_mem_cons]
              exact ⟨range, restOk.uint32⟩

/-- The constructor of `CatalogPrefixRecord` with `__post_init__`. -/
def CatalogPrefixRecord.new (blocks : List (List (Json F))) (pages : List CatalogPageRecord) :
    Py CatalogPrefixRecord :=
  if vectors : blocks = [] ∨ blocks.length ≠ pages.length then
    .error (.valueError "catalog prefix vectors must have the same non-zero length")
  else if sizes : (blocks.map List.length).dedup.length ≠ 1 ∨ 0 ∈ blocks.map List.length then
    .error (.valueError "catalog token blocks must have one positive page size")
  else
    match checked : checkBlocks blocks pages 0 with
    | .error error => .error error
    | .ok blockKeys =>
        have vectors := not_or.mp vectors
        have sizes := not_or.mp sizes
        have sameLength := not_not.mp vectors.2
        have blocksOk := blocksChecked sameLength checked
        have length_eq : blockKeys.length = blocks.length := by
          simpa using congrArg List.length blocksOk.sizes
        .ok {
          blockKeys
          pages
          nonempty := by
            rintro rfl
            exact vectors.1 (List.length_eq_zero_iff.mp length_eq.symm)
          sameLength := length_eq.trans sameLength
          onePageSize := by
            rw [blocksOk.sizes]
            exact ⟨not_not.mp sizes.1, sizes.2⟩
          indexed := fun i page get => (blocksOk.indexed i page get).trans (Nat.zero_add i)
          uint32 := blocksOk.uint32 }

/-- `RemoteCatalogSnapshot`. -/
@[ext] structure RemoteCatalogSnapshot where
  identityDigest : String
  tpRank : ℕ
  prefixes : List CatalogPrefixRecord
  identified : identityDigest ≠ ""
  nonempty : prefixes ≠ []
  onePageSize :
    ((prefixes.flatMap CatalogPrefixRecord.blockKeys).map List.length).dedup.length = 1
  sameIdentity : ∀ record ∈ prefixes, ∀ page ∈ record.pages,
    page.identityDigest = identityDigest ∧ page.tpRank = tpRank

/-- The constructor of `RemoteCatalogSnapshot` with `__post_init__`. -/
def RemoteCatalogSnapshot.new (identityDigest tpRank : Json F)
    (prefixes : List CatalogPrefixRecord) : Py RemoteCatalogSnapshot :=
  match nonEmptyString? identityDigest, natural? tpRank with
  | some identityDigest, some tpRank =>
      if nonempty : prefixes = [] then
        .error (.valueError "catalog snapshot must contain at least one prefix")
      else if onePageSize :
          ((prefixes.flatMap CatalogPrefixRecord.blockKeys).map List.length).dedup.length = 1 then
        if sameIdentity : ∀ record ∈ prefixes, ∀ page ∈ record.pages,
            page.identityDigest = identityDigest.1 ∧ page.tpRank = tpRank then
          .ok {
            identityDigest := identityDigest.1
            tpRank
            prefixes
            identified := identityDigest.2
            nonempty
            onePageSize
            sameIdentity }
        else .error (.valueError "catalog page identity does not match its snapshot")
      else .error (.valueError "catalog prefixes must use one page size")
  | _, _ => .error (.valueError "catalog identity is invalid")

/-! ## The codec -/

/-- The JSON module and `blake2b(..., digest_size=16).hexdigest()` as the codec calls them. -/
structure CatalogEnv (F : Type) where
  dumps : Json F → List UInt8
  loads : List UInt8 → Except JsonLoadsError (Json F)
  hexdigest : List UInt8 → String
  hexdigest_ascii : ∀ bytes, ∀ c ∈ (hexdigest bytes).toList, c.toNat < 128

/-- What `decode` raises: its own exception, or what it does not catch. -/
inductive RemoteCatalogError where
  | snapshotError (message : String)
  | other
  deriving DecidableEq, Repr

namespace RemoteCatalogSnapshotCodec

/-- `CATALOG_SCHEMA`. -/
def catalogSchema : String := "nanovllm-remote-prefix-catalog"

/-- `CATALOG_VERSION`. -/
def catalogVersion : ℤ := 1

/-- The object of a page in `_payload`. -/
def pagePayload (page : CatalogPageRecord) : Json F :=
  .object [
    ("identity_digest", .string page.identityDigest),
    ("object_key", .string page.objectKey),
    ("page_index", .number (.int page.pageIndex)),
    ("tp_rank", .number (.int page.tpRank))]

/-- The list of a token block in `_payload`. -/
def blockPayload (block : BlockKey) : Json F :=
  .array (block.map fun token => .number (.int token))

/-- The object of a prefix in `_payload`. -/
def prefixPayload (record : CatalogPrefixRecord) : Json F :=
  .object [
    ("block_keys", .array (record.blockKeys.map blockPayload)),
    ("pages", .array (record.pages.map pagePayload))]

/-- `_payload`. -/
def payload (snapshot : RemoteCatalogSnapshot) : Json F :=
  .object [
    ("identity_digest", .string snapshot.identityDigest),
    ("prefixes", .array (snapshot.prefixes.map prefixPayload)),
    ("tp_rank", .number (.int snapshot.tpRank))]

/-- The document which `encode` writes. -/
def envelope (env : CatalogEnv F) (snapshot : RemoteCatalogSnapshot) : Json F :=
  .object [
    ("checksum", .string (env.hexdigest (env.dumps (payload snapshot)))),
    ("payload", payload snapshot),
    ("schema", .string catalogSchema),
    ("version", .number (.int catalogVersion))]

/-- `encode`. -/
def encode (env : CatalogEnv F) (snapshot : RemoteCatalogSnapshot) : List UInt8 :=
  env.dumps (envelope env snapshot)

/-- The exception which `decode` raises from another one. -/
def invalid {α : Type} (text : String) : Except RemoteCatalogError α :=
  .error (.snapshotError ("invalid remote catalog snapshot: " ++ text))

/-- A call of a record constructor in `decode`. -/
def build {α : Type} : Py α → Except RemoteCatalogError α
  | .ok record => .ok record
  | .error (.valueError message) => invalid message
  | .error _ => .error .other

/-- `value[name]`. -/
def getItem (name : String) : Json F → Except RemoteCatalogError (Json F)
  | .object fields =>
      match Json.field? fields name with
      | none => invalid ("'" ++ name ++ "'")
      | some value => .ok value
  | _ => invalid ""

/-- `tuple(value)`. -/
def iterate : Json F → Except RemoteCatalogError (List (Json F))
  | .array items => .ok items
  | .string s => .ok (s.toList.map fun c => .string (String.singleton c))
  | .object fields => .ok (fields.map fun field => .string field.1)
  | _ => invalid ""

/-- The record of a page. -/
def decodePage (page : Json F) : Except RemoteCatalogError CatalogPageRecord := do
  let objectKey ← getItem "object_key" page
  let identityDigest ← getItem "identity_digest" page
  let tpRank ← getItem "tp_rank" page
  let pageIndex ← getItem "page_index" page
  build (CatalogPageRecord.new objectKey identityDigest tpRank pageIndex)

/-- The record of a prefix. -/
def decodePrefix (value : Json F) : Except RemoteCatalogError CatalogPrefixRecord := do
  let blocks ← getItem "block_keys" value >>= iterate
  let blocks ← blocks.mapM iterate
  let pages ← getItem "pages" value >>= iterate
  let pages ← pages.mapM decodePage
  build (CatalogPrefixRecord.new blocks pages)

/-- The snapshot of a payload. -/
def decodePayload (value : Json F) : Except RemoteCatalogError RemoteCatalogSnapshot := do
  let prefixes ← getItem "prefixes" value >>= iterate
  let prefixes ← prefixes.mapM decodePrefix
  let identityDigest ← getItem "identity_digest" value
  let tpRank ← getItem "tp_rank" value
  build (RemoteCatalogSnapshot.new identityDigest tpRank prefixes)

/-- The checks of the payload against its checksum. -/
def checkPayload (env : CatalogEnv F) (payload checksum : Json F) :
    Except RemoteCatalogError Unit :=
  match payload, checksum with
  | .object fields, .string checksum =>
      if checksum.toList.all fun c => c.toNat < 128 then
        if checksum = env.hexdigest (env.dumps (.object fields)) then .ok ()
        else invalid "catalog snapshot checksum mismatch"
      else invalid ""
  | _, _ => invalid "catalog payload or checksum has an invalid type"

/-- Whether the schema is `CATALOG_SCHEMA`. -/
def isSchema : Option (Json F) → Bool
  | some (.string schema) => schema = catalogSchema
  | _ => false

/-- Whether the version is the integer `CATALOG_VERSION`. -/
def isVersion : Option (Json F) → Bool
  | some (.number (.int version)) => version = catalogVersion
  | _ => false

/-- `decode`. -/
def decode (env : CatalogEnv F) (bytes : List UInt8) :
    Except RemoteCatalogError RemoteCatalogSnapshot :=
  match env.loads bytes with
  | .error .decodeError => invalid ""
  | .error .other => .error .other
  | .ok (.object fields) =>
      if !isSchema (Json.field? fields "schema") then invalid "unsupported catalog schema"
      else if !isVersion (Json.field? fields "version") then
        invalid "unsupported catalog version"
      else do
        let payload ← getItem "payload" (.object fields)
        let checksum ← getItem "checksum" (.object fields)
        checkPayload env payload checksum
        decodePayload payload
  | .ok _ => invalid "catalog envelope must be an object"

end RemoteCatalogSnapshotCodec

end NanoVllm.RemoteCatalog
