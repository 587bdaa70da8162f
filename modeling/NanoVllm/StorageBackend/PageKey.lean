import NanoVllm.Library.Delimited
import NanoVllm.StorageBackend

/-!
# What a page key identifies

A page key is read back part by part: no digest and no decimal number holds the character which
ends it. What cannot be read back are the strings of the identity, which are joined by a
character they may hold themselves. Within one namespace, two pages share a key exactly if they
differ at most in where these strings end.
-/

namespace NanoVllm.StorageBackend

/-! ## Decimal numbers -/

theorem toString_natCast (n : ℕ) : toString (n : ℤ) = toString n := by
  simp [Int.toString_eq_repr, Int.repr_eq_if]

theorem toList_toString (n : ℕ) : (toString n).toList = Nat.toDigits 10 n := by
  simp [Nat.toString_eq_repr, Nat.toList_repr]

theorem toString_injective : Function.Injective (fun n : ℕ => toString n) := by
  intro n m sameText
  have sameDigits : Nat.toDigits 10 n = Nat.toDigits 10 m := by
    rw [← toList_toString, ← toList_toString]
    exact congrArg String.toList sameText
  have read := congrArg (fun digits => Nat.ofDigitChars 10 digits 0) sameDigits
  simpa [Nat.ofDigitChars_toDigits] using read

theorem notMem_toString {c : Char} (notDigit : c.isDigit = false) (n : ℕ) :
    c ∉ (toString n).toList := by
  rw [toList_toString]
  intro member
  have digit := Nat.isDigit_of_mem_toDigits (by decide) (by decide) member
  rw [notDigit] at digit
  cases digit

theorem Blake2b.slash_notMem (blake2b : Blake2b) (digestSize : ℕ) (data : List UInt8) :
    '/' ∉ (blake2b.hexdigest digestSize data).toList := by
  intro member
  exact absurd (blake2b.hexadecimal _ _ _ member) (by decide)

/-! ## Identities -/

namespace KVCacheIdentity

/-- The strings of an identity, in the order in which `digest` joins them. -/
def strings (identity : KVCacheIdentity) : List (List Char) :=
  [identity.layoutVersion.toList, identity.modelId.toList, identity.modelRevision.toList,
    identity.dtype.toList]

/-- The sizes of an identity, in the order in which `digest` joins them. -/
def sizes (identity : KVCacheIdentity) : List (List Char) :=
  [(toString identity.tpSize).toList, (toString identity.pageSize).toList]

/--
The strings of two identities have the same pieces between their bars, but not the same pieces
in each string.
-/
def Shifted (identity identity' : KVCacheIdentity) : Prop :=
  identity.tpSize = identity'.tpSize ∧ identity.pageSize = identity'.pageSize ∧
    Delimited.pieces '|' identity.strings = Delimited.pieces '|' identity'.strings ∧
    identity.strings.map (List.count '|') ≠ identity'.strings.map (List.count '|')

instance (identity identity' : KVCacheIdentity) : Decidable (identity.Shifted identity') :=
  inferInstanceAs (Decidable (_ ∧ _ ∧ _ ∧ _))

variable {identity identity' : KVCacheIdentity} {blake2b : Blake2b}

theorem toList_joined (identity : KVCacheIdentity) :
    identity.joined.toList = ['|'].intercalate (identity.strings ++ identity.sizes) := by
  simp [joined, strings, sizes]

theorem eq_of_strings (sameStrings : identity.strings = identity'.strings)
    (sameTpSize : identity.tpSize = identity'.tpSize)
    (samePageSize : identity.pageSize = identity'.pageSize) : identity = identity' := by
  simp only [strings, List.cons.injEq, String.toList_inj, and_true] at sameStrings
  rcases sameStrings with ⟨sameLayout, sameModel, sameRevision, sameDtype⟩
  apply KVCacheIdentity.ext <;> assumption

theorem pieces_sizes (identity : KVCacheIdentity) :
    Delimited.pieces '|' identity.sizes = identity.sizes := by
  apply Delimited.pieces_eq_self
  intro size member
  simp only [sizes, List.mem_cons, List.not_mem_nil, or_false] at member
  rcases member with rfl | rfl
  · exact notMem_toString (by decide) _
  · exact notMem_toString (by decide) _

/-- The joined text determines the sizes and the pieces of the strings, and nothing else. -/
theorem joined_eq_iff :
    identity.joined = identity'.joined ↔
      Delimited.pieces '|' identity.strings = Delimited.pieces '|' identity'.strings ∧
        identity.tpSize = identity'.tpSize ∧ identity.pageSize = identity'.pageSize := by
  have nonempty (identity : KVCacheIdentity) : identity.strings ++ identity.sizes ≠ [] := by
    simp [strings]
  rw [← String.toList_inj, toList_joined, toList_joined,
    Delimited.intercalate_eq_iff (nonempty identity) (nonempty identity'),
    Delimited.pieces_append, Delimited.pieces_append, pieces_sizes, pieces_sizes]
  constructor
  · intro samePieces
    rcases List.append_inj' samePieces rfl with ⟨samePieces, sameSizes⟩
    simp only [sizes, List.cons.injEq, String.toList_inj, and_true] at sameSizes
    exact ⟨samePieces, toString_injective sameSizes.1, toString_injective sameSizes.2⟩
  · rintro ⟨samePieces, sameTpSize, samePageSize⟩
    simp [sizes, samePieces, sameTpSize, samePageSize]

theorem digest_eq_iff :
    identity.digest blake2b = identity'.digest blake2b ↔ identity.joined = identity'.joined := by
  constructor
  · intro sameDigest
    have sameBytes := blake2b.collisionFree sameDigest
    rw [Array.toList_inj] at sameBytes
    exact String.toByteArray_inj.mp (ByteArray.ext sameBytes)
  · intro sameText
    rw [digest, digest, sameText]

/-- Two identities share a digest exactly if they are equal or shifted. -/
theorem digest_eq_iff_shifted :
    identity.digest blake2b = identity'.digest blake2b ↔
      identity = identity' ∨ identity.Shifted identity' := by
  rw [digest_eq_iff, joined_eq_iff]
  constructor
  · rintro ⟨samePieces, sameTpSize, samePageSize⟩
    by_cases sameCounts :
        identity.strings.map (List.count '|') = identity'.strings.map (List.count '|')
    · left
      exact eq_of_strings (Delimited.eq_of_pieces samePieces sameCounts) sameTpSize samePageSize
    · right
      exact ⟨sameTpSize, samePageSize, samePieces, sameCounts⟩
  · intro same
    rcases same with rfl | ⟨sameTpSize, samePageSize, samePieces, -⟩
    · exact ⟨rfl, rfl, rfl⟩
    · exact ⟨samePieces, sameTpSize, samePageSize⟩

theorem Shifted.ne (shifted : identity.Shifted identity') : identity ≠ identity' := by
  rintro rfl
  exact shifted.2.2.2 rfl

end KVCacheIdentity

/-! ## Prefixes -/

/-- What the loop has read, token by token. -/
theorem encodePrefix_cons {tokenId : Token} {rest : List Token} {data : List UInt8}
    (encoded : encodePrefix (tokenId :: rest) = .ok data) :
    ∃ data', encodePrefix rest = .ok data' ∧ 0 ≤ tokenId ∧ tokenId < 2 ^ 32 ∧
      data = Bytes.littleEndian 4 tokenId.toNat ++ data' := by
  rw [encodePrefix] at encoded
  split at encoded
  · cases encoded
  · rename_i inRange
    rcases Py.exists_of_bind encoded with ⟨data', encodedRest, returned⟩
    cases returned
    rw [not_or] at inRange
    exact ⟨data', encodedRest, not_lt.mp inRange.1, not_le.mp inRange.2, rfl⟩

/-- A token is read back from its four bytes. -/
theorem ofLittleEndian_token {tokenId : ℤ} (nonneg : 0 ≤ tokenId) (fits : tokenId < 2 ^ 32) :
    (Bytes.ofLittleEndian (Bytes.littleEndian 4 tokenId.toNat) : ℤ) = tokenId := by
  rw [Bytes.ofLittleEndian_littleEndian (by omega), Int.toNat_of_nonneg nonneg]

/-- The bytes of a prefix determine its tokens. -/
theorem encodePrefix_inj {tokens tokens' : List Token} {data : List UInt8}
    (encoded : encodePrefix tokens = .ok data) (encoded' : encodePrefix tokens' = .ok data) :
    tokens = tokens' := by
  induction tokens generalizing tokens' data with
  | nil =>
    cases encoded
    cases tokens' with
    | nil => rfl
    | cons tokenId' rest' =>
      rcases encodePrefix_cons encoded' with ⟨data', -, -, -, noBytes⟩
      have lengths := congrArg List.length noBytes
      simp [Nat.add_comm] at lengths
  | cons tokenId rest ih =>
    rcases encodePrefix_cons encoded with ⟨data₁, encodedRest, nonneg, fits, rfl⟩
    cases tokens' with
    | nil =>
      have lengths := congrArg List.length (Except.ok.inj encoded')
      simp [Nat.add_comm] at lengths
    | cons tokenId' rest' =>
      rcases encodePrefix_cons encoded' with ⟨data₂, encodedRest', nonneg', fits', sameBytes⟩
      rcases List.append_inj sameBytes (by simp) with ⟨sameToken, rfl⟩
      have read := congrArg (fun bytes => (Bytes.ofLittleEndian bytes : ℤ)) sameToken
      simp only [ofLittleEndian_token nonneg fits, ofLittleEndian_token nonneg' fits'] at read
      rw [read, ih encodedRest encodedRest']

/-! ## Keys -/

variable {blake2b : Blake2b} {identity identity' : KVCacheIdentity}
  {tpRank tpRank' pageIndex pageIndex' : ℤ} {tokens tokens' : List Token}
  {keyNamespace key key' : String}

/-- The parts of a key after its namespace. -/
def keyParts (blake2b : Blake2b) (identity : KVCacheIdentity) (tpRank pageIndex : ℕ)
    (data : List UInt8) : List Char :=
  (identity.digest blake2b).toList ++ '/' :: ("tp-".toList ++ ((toString tpRank).toList ++
    '/' :: ("page-".toList ++ ((toString pageIndex).toList ++
      '/' :: (blake2b.hexdigest 16 data).toList))))

/-- What `make_kv_page_key` has checked, and the key it returns. -/
theorem makeKvPageKey_eq_ok
    (made : makeKvPageKey blake2b identity tpRank pageIndex tokens keyNamespace = .ok key) :
    ∃ (rank index : ℕ) (data : List UInt8), tpRank = rank ∧ pageIndex = index ∧
      encodePrefix tokens = .ok data ∧
      key.toList = keyNamespace.toList ++ '/' :: keyParts blake2b identity rank index data := by
  rw [makeKvPageKey] at made
  split at made
  · cases made
  · split at made
    · cases made
    · rename_i inside
      rcases Py.exists_of_bind made with ⟨data, encoded, made⟩
      split at made
      · cases made
      · cases made
        rcases Int.eq_ofNat_of_zero_le (show 0 ≤ tpRank by omega) with ⟨rank, rfl⟩
        rcases Int.eq_ofNat_of_zero_le (show 0 ≤ pageIndex by omega) with ⟨index, rfl⟩
        refine ⟨rank, index, data, rfl, rfl, encoded, ?_⟩
        simp only [String.toList_append, toString_natCast, keyParts]
        simp

/-- The parts of a key are read back one after the other. -/
theorem keyParts_inj {rank rank' index index' : ℕ} {data data' : List UInt8}
    (sameParts : keyParts blake2b identity rank index data =
      keyParts blake2b identity' rank' index' data') :
    identity.digest blake2b = identity'.digest blake2b ∧ rank = rank' ∧ index = index' ∧
      data = data' := by
  rcases Delimited.cut_inj (blake2b.slash_notMem _ _) (blake2b.slash_notMem _ _) sameParts with
    ⟨sameDigest, sameParts⟩
  have sameParts := List.append_cancel_left sameParts
  rcases Delimited.cut_inj (notMem_toString (by decide) _) (notMem_toString (by decide) _)
    sameParts with ⟨sameRank, sameParts⟩
  have sameParts := List.append_cancel_left sameParts
  rcases Delimited.cut_inj (notMem_toString (by decide) _) (notMem_toString (by decide) _)
    sameParts with ⟨sameIndex, samePrefix⟩
  refine ⟨String.toList_inj.mp sameDigest, ?_, ?_, ?_⟩
  · exact toString_injective (String.toList_inj.mp sameRank)
  · exact toString_injective (String.toList_inj.mp sameIndex)
  · exact blake2b.collisionFree (String.toList_inj.mp samePrefix)

/-- Two keys of one namespace are equal exactly if all their parts are. -/
theorem makeKvPageKey_eq_iff
    (made : makeKvPageKey blake2b identity tpRank pageIndex tokens keyNamespace = .ok key)
    (made' : makeKvPageKey blake2b identity' tpRank' pageIndex' tokens' keyNamespace = .ok key') :
    key = key' ↔ identity.digest blake2b = identity'.digest blake2b ∧ tpRank = tpRank' ∧
      pageIndex = pageIndex' ∧ tokens = tokens' := by
  rcases makeKvPageKey_eq_ok made with ⟨rank, index, data, rfl, rfl, encoded, text⟩
  rcases makeKvPageKey_eq_ok made' with ⟨rank', index', data', rfl, rfl, encoded', text'⟩
  rw [← String.toList_inj, text, text']
  constructor
  · intro sameText
    have sameParts := List.append_cancel_left sameText
    rcases keyParts_inj (List.cons.inj sameParts).2 with ⟨sameDigest, rfl, rfl, rfl⟩
    exact ⟨sameDigest, rfl, rfl, encodePrefix_inj encoded encoded'⟩
  · rintro ⟨sameDigest, sameRank, sameIndex, rfl⟩
    rw [Int.natCast_inj] at sameRank sameIndex
    rw [encoded] at encoded'
    cases encoded'
    rw [keyParts, keyParts, sameDigest, sameRank, sameIndex]

/--
Two different pages of one namespace have different keys, unless they have the same place and
prefix in caches whose identities are shifted.
-/
theorem makeKvPageKey_separates_iff
    (made : makeKvPageKey blake2b identity tpRank pageIndex tokens keyNamespace = .ok key)
    (made' : makeKvPageKey blake2b identity' tpRank' pageIndex' tokens' keyNamespace = .ok key') :
    ((identity, tpRank, pageIndex, tokens) ≠ (identity', tpRank', pageIndex', tokens') →
      key ≠ key') ↔
    ¬ (identity.Shifted identity' ∧ tpRank = tpRank' ∧ pageIndex = pageIndex' ∧
      tokens = tokens') := by
  rw [Ne, Ne, not_imp_not, makeKvPageKey_eq_iff made made', KVCacheIdentity.digest_eq_iff_shifted]
  constructor
  · rintro separated ⟨shifted, samePlace⟩
    have same := separated ⟨Or.inr shifted, samePlace⟩
    exact shifted.ne (congrArg Prod.fst same)
  · rintro notShifted ⟨same, samePlace⟩
    rcases same with rfl | shifted
    · rcases samePlace with ⟨rfl, rfl, rfl⟩
      rfl
    · exact absurd ⟨shifted, samePlace⟩ notShifted

/-! ## An example of shifted identities -/

theorem makeKvPageKey_congr (sameDigest : identity.digest blake2b = identity'.digest blake2b)
    (sameTpSize : identity.tpSize = identity'.tpSize) :
    makeKvPageKey blake2b identity tpRank pageIndex tokens keyNamespace =
      makeKvPageKey blake2b identity' tpRank pageIndex tokens keyNamespace := by
  simp only [makeKvPageKey, sameDigest, sameTpSize]

/-- The two hexadecimal digits of a byte. -/
def hexDigits (byte : UInt8) : List Char :=
  [Nat.digitChar (byte.toNat / 16), Nat.digitChar (byte.toNat % 16)]

theorem digitChar_inj : ∀ a < 16, ∀ b < 16, Nat.digitChar a = Nat.digitChar b → a = b := by
  decide

theorem digitChar_mem : ∀ a < 16, Nat.digitChar a ∈ "0123456789abcdef".toList := by decide

theorem hexDigits_inj {byte byte' : UInt8} (sameDigits : hexDigits byte = hexDigits byte') :
    byte = byte' := by
  have bound := byte.toNat_lt
  have bound' := byte'.toNat_lt
  simp only [hexDigits, List.cons.injEq, and_true] at sameDigits
  have high := digitChar_inj _ (by omega) _ (by omega) sameDigits.1
  have low := digitChar_inj _ (by omega) _ (by omega) sameDigits.2
  apply UInt8.toNat_inj.mp
  omega

theorem flatMap_hexDigits_inj {data data' : List UInt8}
    (sameDigits : data.flatMap hexDigits = data'.flatMap hexDigits) : data = data' := by
  induction data generalizing data' with
  | nil =>
    cases data' with
    | nil => rfl
    | cons byte' data' => cases sameDigits
  | cons byte data ih =>
    cases data' with
    | nil => cases sameDigits
    | cons byte' data' =>
      rw [List.flatMap_cons, List.flatMap_cons] at sameDigits
      rcases List.append_inj sameDigits rfl with ⟨sameByte, sameRest⟩
      rw [hexDigits_inj sameByte, ih sameRest]

/-- The digest which is the data itself. -/
def Blake2b.plain : Blake2b where
  hexdigest _ data := String.ofList (data.flatMap hexDigits)
  hexadecimal := by
    intro _ data digit member
    rw [String.toList_ofList, List.mem_flatMap] at member
    rcases member with ⟨byte, -, member⟩
    have bound := byte.toNat_lt
    simp only [hexDigits, List.mem_cons, List.not_mem_nil, or_false] at member
    rcases member with rfl | rfl
    · exact digitChar_mem _ (by omega)
    · exact digitChar_mem _ (by omega)
  collisionFree := by
    intro _ data data' sameDigest
    exact flatMap_hexDigits_inj (String.ofList_injective sameDigest)

/-- A cache of the model `Qwen/Qwen3|0.6B` at the given revision. -/
def qwenIdentity (modelRevision : String) (named : modelRevision ≠ "") : KVCacheIdentity where
  modelId := "Qwen/Qwen3|0.6B"
  modelRevision
  dtype := "bf16"
  tpSize := 1
  pageSize := 256
  layoutVersion := "nanovllm-kv-v1"
  named := ⟨by decide, named, by decide, by decide⟩
  positive := by decide

/-- A cache of the model `Qwen/Qwen3` at the revision `0.6B|main`. -/
def shiftedIdentity : KVCacheIdentity where
  modelId := "Qwen/Qwen3"
  modelRevision := "0.6B|main"
  dtype := "bf16"
  tpSize := 1
  pageSize := 256
  layoutVersion := "nanovllm-kv-v1"
  named := by decide
  positive := by decide

/-- The pages of two models share their keys. -/
theorem makeKvPageKey_shifted :
    (qwenIdentity "main" (by decide)).modelId ≠ shiftedIdentity.modelId ∧
    ∃ key, makeKvPageKey .plain (qwenIdentity "main" (by decide)) 0 0 [7] = .ok key ∧
      makeKvPageKey .plain shiftedIdentity 0 0 [7] = .ok key := by
  have shifted : (qwenIdentity "main" (by decide)).Shifted shiftedIdentity := by decide
  have sameDigest :
      (qwenIdentity "main" (by decide)).digest .plain = shiftedIdentity.digest .plain :=
    KVCacheIdentity.digest_eq_iff_shifted.mpr (Or.inr shifted)
  refine ⟨by decide, _, rfl, ?_⟩
  rw [← makeKvPageKey_congr sameDigest rfl]
  rfl

/-- The pages of two revisions of a model have different keys. -/
theorem makeKvPageKey_separates_iff_revisions :
    ∃ key key', makeKvPageKey .plain (qwenIdentity "main" (by decide)) 0 0 [7] = .ok key ∧
      makeKvPageKey .plain (qwenIdentity "v2" (by decide)) 0 0 [7] = .ok key' ∧ key ≠ key' := by
  have made : makeKvPageKey .plain (qwenIdentity "main" (by decide)) 0 0 [7] = .ok _ := rfl
  have made' : makeKvPageKey .plain (qwenIdentity "v2" (by decide)) 0 0 [7] = .ok _ := rfl
  refine ⟨_, _, made, made', ?_⟩
  apply (makeKvPageKey_separates_iff made made').mpr
  · decide
  · decide

end NanoVllm.StorageBackend
