import NanoVllm.Serve.EngineWorker
import NanoVllm.Library.StableDecoding

/-!
# Text parts

`_decode_stable_delta` emits the decoded text up to its first replacement character, and
`_finish` adds the rest. When the text before the first replacement character never changes, what
has been emitted is the start of the final text.
-/

namespace NanoVllm.Serve

variable {M : Type} {decode : List Token → String}

/-- U+FFFD, which a decoder puts in the place of an incomplete character. -/
def isReplacement (c : Char) : Bool := c = Char.ofNat 0xfffd

/-- The characters of a decoded text. -/
def decodeChars (decode : List Token → String) (tokenIds : List Token) : List Char :=
  (decode tokenIds).toList

/-- A tokenizer is stable up to replacement characters. -/
def StableDecode (decode : List Token → String) : Prop :=
  StableDecoding.Stable (decodeChars decode) isReplacement

theorem stable_toList (decoded : String) :
    (String.ofList (decoded.toList.takeWhile (· ≠ Char.ofNat 0xfffd))).toList =
      StableDecoding.cut isReplacement decoded.toList := by
  rw [String.toList_ofList, StableDecoding.cut]
  congr 1
  funext c
  simp [isReplacement]

theorem textAfter_of_prefix {emitted text : String} (starts : emitted.toList <+: text.toList) :
    ∃ rest, textAfter emitted text = some rest ∧ emitted ++ rest = text := by
  refine ⟨_, if_pos (List.isPrefixOf_iff_prefix.mpr starts), ?_⟩
  rw [← String.toList_inj, String.toList_append, String.toList_ofList]
  rcases starts with ⟨rest, equal⟩
  rw [← equal, List.drop_left]

/-- The text parts put into a handle. -/
structure Emits (decode : List Token → String) (events : List (GenerationEvent M))
    (state : ActiveRequest) : Prop where
  texts : ∃ deltas : List String, events = deltas.map .textDelta ∧
    String.join deltas = state.emittedText ∧ ∀ delta ∈ deltas, delta ≠ ""
  emitted : StableDecoding.Emitted (decodeChars decode) isReplacement state.tokenIds
    state.emittedText.toList

/-- The text parts of a finished request are the pieces of its text. -/
def StreamedAs (events : List (GenerationEvent M)) (text : String) : Prop :=
  ∃ deltas : List String, events = deltas.map .textDelta ∧ String.join deltas = text ∧
    (∀ delta ∈ deltas, delta ≠ "") ∧ ∀ delta ∈ deltas.dropLast, Char.ofNat 0xfffd ∉ delta.toList

/-- The text parts of an active request contain no replacement characters. -/
theorem Emits.clean {events : List (GenerationEvent M)} {state : ActiveRequest}
    (emits : Emits decode events state) {delta : String} (mem : .textDelta delta ∈ events) :
    Char.ofNat 0xfffd ∉ delta.toList := by
  rcases emits.texts with ⟨deltas, rfl, joined, -⟩
  rcases List.mem_map.mp mem with ⟨other, inside, equal⟩
  cases equal
  intro bad
  have good := emits.emitted.good (Char.ofNat 0xfffd) (by
    rw [← joined, String.toList_join]
    exact List.mem_flatMap.mpr ⟨delta, inside, bad⟩)
  simp [isReplacement] at good

theorem Emits.decodeStableDelta (stable : StableDecode decode)
    {events : List (GenerationEvent M)} {state : ActiveRequest} (emits : Emits decode events state)
    (tokenId : Token) :
    let step := decodeStableDelta { state with tokenIds := state.tokenIds ++ [tokenId] }
      (decode (state.tokenIds ++ [tokenId]))
    step.1.queued = state.queued ∧ step.1.seqId = state.seqId ∧
      step.1.tokenIds = state.tokenIds ++ [tokenId] ∧
      Emits decode (if step.2 = "" then events else events ++ [.textDelta step.2]) step.1 := by
  have grows : state.tokenIds <+: state.tokenIds ++ [tokenId] := List.prefix_append _ _
  have starts := emits.emitted.prefix_cut grows
  rw [decodeChars, ← stable_toList] at starts
  rcases textAfter_of_prefix starts with ⟨delta, after, whole⟩
  have decoded : Serve.decodeStableDelta { state with tokenIds := state.tokenIds ++ [tokenId] }
      (decode (state.tokenIds ++ [tokenId])) =
        ({ state with
          tokenIds := state.tokenIds ++ [tokenId]
          emittedText := String.ofList ((decode (state.tokenIds ++ [tokenId])).toList.takeWhile
            (· ≠ Char.ofNat 0xfffd)) }, delta) := by
    simp only [Serve.decodeStableDelta, after]
  intro step
  rw [show step = _ from decoded]
  refine ⟨rfl, rfl, rfl, ?_, ?_⟩
  · rcases emits.texts with ⟨deltas, rfl, joined, nonempty⟩
    by_cases empty : delta = ""
    · subst empty
      refine ⟨deltas, if_pos rfl, ?_, nonempty⟩
      rw [joined, ← whole, String.append_empty]
    · refine ⟨deltas ++ [delta], ?_, ?_, ?_⟩
      · simp [empty]
      · rw [String.join_append, joined, ← whole]
        simp [String.join]
      · intro other mem
        rcases List.mem_append.mp mem with old | new
        · exact nonempty other old
        · rw [List.mem_singleton.mp new]
          exact empty
  · have emitted := StableDecoding.Emitted.of_cut stable (state.tokenIds ++ [tokenId])
    rw [decodeChars, ← stable_toList] at emitted
    exact emitted

/-- The text parts of a finished request with the tail of `_finish`. -/
theorem Emits.finishTail {events : List (GenerationEvent M)} {state : ActiveRequest}
    (emits : Emits decode events state) (stream : state.queued.stream = true) :
    StreamedAs (events ++ (finishTail state (decode state.tokenIds)).toList.map .textDelta)
      (decode state.tokenIds) := by
  rcases emits.texts with ⟨deltas, rfl, joined, nonempty⟩
  have clean : ∀ delta ∈ deltas, Char.ofNat 0xfffd ∉ delta.toList :=
    fun delta mem => emits.clean (List.mem_map_of_mem mem)
  have starts : state.emittedText.toList <+: (decode state.tokenIds).toList :=
    emits.emitted.starts state.tokenIds (List.prefix_refl _)
  rcases textAfter_of_prefix starts with ⟨tail, after, whole⟩
  simp only [Serve.finishTail, stream, after, if_true]
  by_cases empty : tail = ""
  · subst empty
    rw [String.append_empty] at whole
    refine ⟨deltas, by simp, joined.trans whole, nonempty, ?_⟩
    intro delta mem
    exact clean delta (List.dropLast_subset _ mem)
  · rw [if_neg empty]
    refine ⟨deltas ++ [tail], by simp, ?_, ?_, ?_⟩
    · rw [String.join_append, joined, ← whole]
      simp [String.join]
    · intro delta mem
      rcases List.mem_append.mp mem with old | new
      · exact nonempty delta old
      · rw [List.mem_singleton.mp new]
        exact empty
    · intro delta mem
      rw [List.dropLast_concat] at mem
      exact clean delta mem

end NanoVllm.Serve
