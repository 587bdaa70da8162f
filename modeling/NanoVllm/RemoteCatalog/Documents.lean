import NanoVllm.Library.JsonParse
import NanoVllm.RemoteCatalog.Codec
import NanoVllm.StorageBackend.PageKey

/-!
# Catalogs as texts

The documents of a catalog, written and read as JSON texts in UTF-8. Every snapshot is loaded back,
so the codec recovers it.
-/

namespace NanoVllm.RemoteCatalog

open Json

/-- The bytes of a document. -/
def dumpsUtf8 (value : Json Empty) : List UInt8 :=
  (String.ofList (write wholeNumbers value)).toByteArray.data.toList

/-- The document of some bytes. -/
def loadsUtf8 (bytes : List UInt8) : Except JsonLoadsError (Json Empty) :=
  match String.fromUTF8? ⟨bytes.toArray⟩ with
  | none => .error .other
  | some text =>
      match parse wholeNumbers text.toList with
      | none => .error .decodeError
      | some value => .ok value

theorem loadsUtf8_dumpsUtf8 {value : Json Empty} (writable : Json.Writable wholeNumbers value) :
    loadsUtf8 (dumpsUtf8 value) = .ok value := by
  have bytes : (⟨(dumpsUtf8 value).toArray⟩ : ByteArray) =
      (String.ofList (write wholeNumbers value)).toByteArray := by
    rw [dumpsUtf8, Array.toArray_toList]
  have text : String.fromUTF8? (String.ofList (write wholeNumbers value)).toByteArray =
      some (String.ofList (write wholeNumbers value)) :=
    dif_pos (String.ofList (write wholeNumbers value)).isValidUTF8
  rw [loadsUtf8, bytes, text]
  dsimp only
  rw [String.toList_ofList, parse_write writable]

/-- The JSON module, with the hexadecimal digits of the data as the hash. -/
def textEnv : CatalogEnv Empty where
  dumps := dumpsUtf8
  loads := loadsUtf8
  hexdigest := StorageBackend.Blake2b.plain.hexdigest 32
  hexdigest_ascii := by
    intro bytes c mem
    have ascii : ("0123456789abcdef".toList.all fun digit => digit.toNat < 128) = true := by
      decide
    have digit := StorageBackend.Blake2b.plain.hexadecimal _ _ c mem
    exact of_decide_eq_true (List.all_eq_true.mp ascii c digit)

namespace RemoteCatalogSnapshotCodec

theorem writable_pagePayload (page : CatalogPageRecord) :
    Json.Writable wholeNumbers (pagePayload page) := by
  simp [pagePayload, Json.Writable, WritableFields]

theorem writable_blockPayload (block : BlockKey) : Json.Writable wholeNumbers (blockPayload block) := by
  rw [blockPayload, Json.Writable]
  apply writableItems_map
  intro token
  simp [Json.Writable]

theorem writable_prefixPayload (record : CatalogPrefixRecord) :
    Json.Writable wholeNumbers (prefixPayload record) := by
  have blocks := writableItems_map writable_blockPayload record.blockKeys
  have pages := writableItems_map writable_pagePayload record.pages
  simp [prefixPayload, Json.Writable, WritableFields, blocks, pages]

theorem writable_envelope (snapshot : RemoteCatalogSnapshot) :
    Json.Writable wholeNumbers (envelope textEnv snapshot) := by
  have prefixes := writableItems_map writable_prefixPayload snapshot.prefixes
  simp [envelope, payload, Json.Writable, WritableFields, prefixes]

/-- Every snapshot is loaded back. -/
theorem loadsBack_textEnv (snapshot : RemoteCatalogSnapshot) :
    textEnv.loads (textEnv.dumps (envelope textEnv snapshot)) = .ok (envelope textEnv snapshot) := by
  have loads : textEnv.loads = loadsUtf8 := rfl
  have dumps : textEnv.dumps = dumpsUtf8 := rfl
  rw [loads, dumps]
  exact loadsUtf8_dumpsUtf8 (writable_envelope snapshot)

end RemoteCatalogSnapshotCodec

end NanoVllm.RemoteCatalog
