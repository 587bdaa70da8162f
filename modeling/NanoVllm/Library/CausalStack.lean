import Mathlib.Data.List.Forall2
import NanoVllm.Library.CachedModel

/-!
# Stacks of causal layers

A layer makes an entry of its input at each position, and an output of this input and the entries
up to the position. The outputs of a layer are the inputs of the next one. A stack which runs some
inputs after others, with the entries of those as its cache, runs all of them: so it can be cut into
runs at any place, and is a model with a cache.
-/

/-- A layer which reads the entries of the positions up to its own. -/
structure CausalLayer (E X : Type*) where
  entry : ℕ → X → E
  output : ℕ → X → List E → X

namespace CausalLayer

variable {E X E' X' T : Type*}

/-- The entries of the inputs from a position on. -/
def entries (layer : CausalLayer E X) : ℕ → List X → List E
  | _, [] => []
  | position, x :: xs => layer.entry position x :: layer.entries (position + 1) xs

/-- The outputs at the positions after a cache, where each sees one entry more. -/
def outputs (layer : CausalLayer E X) : List E → ℕ → List E → List X → List X
  | cache, position, entry :: made, x :: xs =>
      layer.output position x (cache ++ [entry]) ::
        layer.outputs (cache ++ [entry]) (position + 1) made xs
  | _, _, _, _ => []

variable {layer : CausalLayer E X} {layers : List (CausalLayer E X)} {position : ℕ}
  {xs ys : List X} {cache made made' : List E}

@[simp] theorem length_entries : (layer.entries position xs).length = xs.length := by
  induction xs generalizing position with
  | nil => rfl
  | cons x xs ih => simp [entries, ih]

@[simp] theorem length_outputs (sameLength : made.length = xs.length) :
    (layer.outputs cache position made xs).length = xs.length := by
  induction xs generalizing cache position made with
  | nil => cases made <;> rfl
  | cons x xs ih =>
    cases made with
    | nil => cases sameLength
    | cons entry made => simp [outputs, ih (Nat.succ.inj sameLength)]

theorem entries_append : layer.entries position (xs ++ ys) =
    layer.entries position xs ++ layer.entries (position + xs.length) ys := by
  induction xs generalizing position with
  | nil => rfl
  | cons x xs ih =>
    simp only [List.cons_append, entries, ih, List.length_cons]
    rw [Nat.add_right_comm, Nat.add_assoc]

theorem outputs_append (sameLength : made.length = xs.length) :
    layer.outputs cache position (made ++ made') (xs ++ ys) =
      layer.outputs cache position made xs ++
        layer.outputs (cache ++ made) (position + xs.length) made' ys := by
  induction xs generalizing cache position made with
  | nil => simp [List.length_eq_zero_iff.mp sameLength, outputs]
  | cons x xs ih =>
    cases made with
    | nil => cases sameLength
    | cons entry made =>
      have rest := @ih (position + 1) (cache ++ [entry]) made (Nat.succ.inj sameLength)
      simp only [List.cons_append, outputs, rest, List.append_assoc, List.nil_append,
        List.length_cons]
      rw [Nat.add_right_comm, Nat.add_assoc]

/-! ## Stacks -/

/-- What the first layer has left at some positions. -/
def firstEntries (cache : List (List E)) : List E := cache.filterMap List.head?

/-- What the other layers have left there. -/
def laterEntries (cache : List (List E)) : List (List E) := cache.map List.tail

@[simp] theorem firstEntries_append (cache made : List (List E)) :
    firstEntries (cache ++ made) = firstEntries cache ++ firstEntries made :=
  List.filterMap_append

@[simp] theorem laterEntries_append (cache made : List (List E)) :
    laterEntries (cache ++ made) = laterEntries cache ++ laterEntries made :=
  List.map_append

theorem firstEntries_zipWith {rest : List (List E)} (sameLength : made.length = rest.length) :
    firstEntries (List.zipWith List.cons made rest) = made := by
  induction made generalizing rest with
  | nil => rfl
  | cons entry made ih =>
    cases rest with
    | nil => cases sameLength
    | cons later rest =>
      have heads := ih (Nat.succ.inj sameLength)
      simp only [firstEntries] at heads
      simp [firstEntries, heads]

theorem laterEntries_zipWith {rest : List (List E)} (sameLength : made.length = rest.length) :
    laterEntries (List.zipWith List.cons made rest) = rest := by
  induction made generalizing rest with
  | nil => simp [List.length_eq_zero_iff.mp sameLength.symm, laterEntries]
  | cons entry made ih =>
    cases rest with
    | nil => cases sameLength
    | cons later rest =>
      have tails := ih (Nat.succ.inj sameLength)
      simp only [laterEntries] at tails
      simp [laterEntries, tails]

/-- The entries of all layers at the positions after a cache, and the outputs of the last one. -/
def runStack : List (CausalLayer E X) → List (List E) → ℕ → List X → List (List E) × List X
  | [], _, _, xs => (xs.map fun _ => [], xs)
  | layer :: layers, cache, position, xs =>
      let made := layer.entries position xs
      let rest := runStack layers (laterEntries cache) position
        (layer.outputs (firstEntries cache) position made xs)
      (List.zipWith List.cons made rest.1, rest.2)

theorem length_runStack (layers : List (CausalLayer E X)) (cache : List (List E)) (position : ℕ)
    (xs : List X) : (runStack layers cache position xs).1.length = xs.length ∧
      (runStack layers cache position xs).2.length = xs.length := by
  induction layers generalizing cache xs with
  | nil => simp [runStack]
  | cons layer layers ih =>
    have rest := ih (laterEntries cache) (layer.outputs (firstEntries cache) position
      (layer.entries position xs) xs)
    simp only [length_outputs length_entries] at rest
    simp [runStack, rest]

/-- A run of some inputs and then of others, which finds the entries of those in its cache. -/
theorem runStack_append (layers : List (CausalLayer E X)) (cache : List (List E)) (position : ℕ)
    (xs ys : List X) :
    runStack layers cache position (xs ++ ys) =
      let first := runStack layers cache position xs
      let second := runStack layers (cache ++ first.1) (position + xs.length) ys
      (first.1 ++ second.1, first.2 ++ second.2) := by
  induction layers generalizing cache xs ys with
  | nil => simp [runStack]
  | cons layer layers ih =>
    have outputs := @outputs_append _ _ layer position xs ys (firstEntries cache)
      (layer.entries position xs) (layer.entries (position + xs.length) ys) length_entries
    have rest := length_runStack layers (laterEntries cache) position
      (layer.outputs (firstEntries cache) position (layer.entries position xs) xs)
    simp only [length_outputs length_entries] at rest
    have sameLength : (layer.entries position xs).length =
        (runStack layers (laterEntries cache) position
          (layer.outputs (firstEntries cache) position (layer.entries position xs) xs)).1.length := by
      rw [length_entries, rest.1]
    simp only [runStack, entries_append, outputs, ih, firstEntries_append, laterEntries_append,
      firstEntries_zipWith sameLength, laterEntries_zipWith sameLength,
      length_outputs length_entries, List.zipWith_append sameLength]

/-! ## Related stacks -/

/-- Two layers keep a relation of their inputs if they keep one of their entries. -/
structure Simulates (ofEntry : E → E' → Prop) (ofInput : X → X' → Prop)
    (layer : CausalLayer E X) (layer' : CausalLayer E' X') : Prop where
  entry : ∀ {position x x'}, ofInput x x' →
    ofEntry (layer.entry position x) (layer'.entry position x')
  output : ∀ {position x x' seen seen'}, ofInput x x' → List.Forall₂ ofEntry seen seen' →
    ofInput (layer.output position x seen) (layer'.output position x' seen')

section Simulates

variable {ofEntry : E → E' → Prop} {ofInput : X → X' → Prop} {layer' : CausalLayer E' X'}
  {xs' : List X'}

theorem Simulates.entries (simulates : Simulates ofEntry ofInput layer layer') (position : ℕ)
    (inputs : List.Forall₂ ofInput xs xs') :
    List.Forall₂ ofEntry (layer.entries position xs) (layer'.entries position xs') := by
  induction inputs generalizing position with
  | nil => exact .nil
  | cons input _ ih => exact .cons (simulates.entry input) (ih (position + 1))

theorem Simulates.outputs {cache' made' : List E'}
    (simulates : Simulates ofEntry ofInput layer layer') (position : ℕ)
    (inputs : List.Forall₂ ofInput xs xs')
    (caches : List.Forall₂ ofEntry cache cache') (entries : List.Forall₂ ofEntry made made') :
    List.Forall₂ ofInput (layer.outputs cache position made xs)
      (layer'.outputs cache' position made' xs') := by
  induction inputs generalizing position cache cache' made made' with
  | nil => cases entries <;> exact .nil
  | cons input _ ih =>
    cases entries with
    | nil => exact .nil
    | cons entry entries =>
      have seen := List.rel_append caches (.cons entry .nil)
      exact .cons (simulates.output input seen) (ih (position + 1) seen entries)

theorem firstEntries_related {cache : List (List E)} {cache' : List (List E')}
    (caches : List.Forall₂ (List.Forall₂ ofEntry) cache cache') :
    List.Forall₂ ofEntry (firstEntries cache) (firstEntries cache') := by
  induction caches with
  | nil => exact .nil
  | cons related _ ih =>
    cases related with
    | nil => exact ih
    | cons entry _ => exact .cons entry ih

theorem laterEntries_related {cache : List (List E)} {cache' : List (List E')}
    (caches : List.Forall₂ (List.Forall₂ ofEntry) cache cache') :
    List.Forall₂ (List.Forall₂ ofEntry) (laterEntries cache) (laterEntries cache') := by
  induction caches with
  | nil => exact .nil
  | cons related _ ih =>
    cases related with
    | nil => exact .cons .nil ih
    | cons _ entries => exact .cons entries ih

theorem zipWith_cons_related {rest : List (List E)} {made' : List E'} {rest' : List (List E')}
    (entries : List.Forall₂ ofEntry made made')
    (later : List.Forall₂ (List.Forall₂ ofEntry) rest rest') :
    List.Forall₂ (List.Forall₂ ofEntry) (List.zipWith List.cons made rest)
      (List.zipWith List.cons made' rest') := by
  induction entries generalizing rest rest' with
  | nil => exact .nil
  | cons entry _ ih =>
    cases later with
    | nil => exact .nil
    | cons related later => exact .cons (.cons entry related) (ih later)

/-- Stacks of related layers make related entries and outputs. -/
theorem runStack_related {layers' : List (CausalLayer E' X')} {cache : List (List E)}
    {cache' : List (List E')} (simulates : List.Forall₂ (Simulates ofEntry ofInput) layers layers')
    (position : ℕ) (caches : List.Forall₂ (List.Forall₂ ofEntry) cache cache')
    (inputs : List.Forall₂ ofInput xs xs') :
    List.Forall₂ (List.Forall₂ ofEntry) (runStack layers cache position xs).1
        (runStack layers' cache' position xs').1 ∧
      List.Forall₂ ofInput (runStack layers cache position xs).2
        (runStack layers' cache' position xs').2 := by
  induction simulates generalizing cache cache' xs xs' with
  | nil =>
    constructor
    · apply List.rel_map _ inputs
      intro _ _ _
      exact .nil
    · exact inputs
  | cons first _ ih =>
    have entries := first.entries position inputs
    have rest := ih (laterEntries_related caches)
      (first.outputs position inputs (firstEntries_related caches) entries)
    exact ⟨zipWith_cons_related entries rest.1, rest.2⟩

end Simulates

/-! ## The model of a stack -/

/-- A stack over embedded tokens, which samples after its last output. -/
def toModel (layers : List (CausalLayer E X)) (embed : T → X) (sample : Option X → T) :
    CachedModel (List E) T where
  run cache position tokens :=
    let ran := runStack layers cache position (tokens.map embed)
    (ran.1, sample ran.2.getLast?)
  length_run := by
    intro cache position tokens
    simp [(length_runStack layers cache position (tokens.map embed)).1]
  causal := by
    intro first rest
    have length := (length_runStack layers [] 0 (first.map embed)).1
    rw [List.length_map] at length
    simp only [List.map_append, runStack_append]
    rw [← length, List.take_left]
  resumed := by
    intro first rest more
    have lengths := length_runStack layers [] 0 (first.map embed)
    simp only [List.length_map] at lengths
    have last := (length_runStack layers (runStack layers [] 0 (first.map embed)).1 first.length
      (rest.map embed)).2
    simp only [List.map_append, runStack_append, List.nil_append, Nat.zero_add, List.length_map]
    rw [← lengths.1, List.drop_left, lengths.1, List.getLast?_append_of_ne_nil]
    apply List.ne_nil_of_length_pos
    rw [last, List.length_map]
    exact List.length_pos_of_ne_nil more

/-- Two models whose tokens and outputs are related sample the same tokens. -/
structure SimulatesModel (ofEntry : E → E' → Prop) (ofInput : X → X' → Prop)
    (layers : List (CausalLayer E X)) (layers' : List (CausalLayer E' X')) (embed : T → X)
    (embed' : T → X') (sample : Option X → T) (sample' : Option X' → T) (known : T → Prop) :
    Prop where
  stack : List.Forall₂ (Simulates ofEntry ofInput) layers layers'
  embedded : ∀ token, known token → ofInput (embed token) (embed' token)
  sampled : ∀ x x', ofInput x x' → sample (some x) = sample' (some x')
  nothing : sample none = sample' none

namespace SimulatesModel

variable {ofEntry : E → E' → Prop} {ofInput : X → X' → Prop} {layers' : List (CausalLayer E' X')}
  {embed : T → X} {embed' : T → X'} {sample : Option X → T} {sample' : Option X' → T}
  {known : T → Prop} {cache : List (List E)} {cache' : List (List E')}

/-- A run makes related entries and samples the same token. -/
theorem run (simulates : SimulatesModel ofEntry ofInput layers layers' embed embed' sample sample'
    known) (position : ℕ) {tokens : List T} (mem : ∀ token ∈ tokens, known token)
    (caches : List.Forall₂ (List.Forall₂ ofEntry) cache cache') :
    List.Forall₂ (List.Forall₂ ofEntry) ((toModel layers embed sample).run cache position tokens).1
        ((toModel layers' embed' sample').run cache' position tokens).1 ∧
      ((toModel layers embed sample).run cache position tokens).2 =
        ((toModel layers' embed' sample').run cache' position tokens).2 := by
  have inputs : List.Forall₂ ofInput (tokens.map embed) (tokens.map embed') := by
    rw [List.forall₂_map_left_iff, List.forall₂_map_right_iff, List.forall₂_same]
    intro token inTokens
    exact simulates.embedded token (mem token inTokens)
  have ran := runStack_related simulates.stack position caches inputs
  refine ⟨ran.1, ?_⟩
  simp only [toModel]
  have last := List.rel_reverse ran.2
  rw [← List.head?_reverse, ← List.head?_reverse]
  cases outputs : (runStack layers cache position (tokens.map embed)).2.reverse with
  | nil =>
    rw [outputs, List.forall₂_nil_left_iff] at last
    rw [last]
    exact simulates.nothing
  | cons x xs =>
    rw [outputs, List.forall₂_cons_left_iff] at last
    rcases last with ⟨x', xs', related, -, outputs'⟩
    rw [outputs']
    exact simulates.sampled x x' related

/-- The entries of a position are related. -/
theorem entry (simulates : SimulatesModel ofEntry ofInput layers layers' embed embed' sample sample'
    known) {tokens : List T} (mem : ∀ token ∈ tokens, known token) {entries : List E}
    (made : (toModel layers embed sample).entry tokens = some entries) :
    ∃ entries', (toModel layers' embed' sample').entry tokens = some entries' ∧
      List.Forall₂ ofEntry entries entries' := by
  have related := List.rel_reverse (simulates.run 0 mem .nil).1
  rw [CachedModel.entry, CachedModel.entries, ← List.head?_reverse] at made
  rcases List.head?_eq_some_iff.mp made with ⟨before, whole⟩
  rw [whole, List.forall₂_cons_left_iff] at related
  rcases related with ⟨entries', before', isRelated, -, whole'⟩
  refine ⟨entries', ?_, isRelated⟩
  rw [CachedModel.entry, CachedModel.entries, ← List.head?_reverse, whole']
  rfl

/-- The same token follows known ones. -/
theorem next (simulates : SimulatesModel ofEntry ofInput layers layers' embed embed' sample sample'
    known) {tokens : List T} (mem : ∀ token ∈ tokens, known token) :
    (toModel layers embed sample).next tokens = (toModel layers' embed' sample').next tokens :=
  (simulates.run 0 mem .nil).2

/-- Any runs after each other make related entries and sample the same tokens. -/
theorem runChunks (simulates : SimulatesModel ofEntry ofInput layers layers' embed embed' sample
    sample' known) {chunks : List (List T)} (mem : ∀ chunk ∈ chunks, ∀ token ∈ chunk, known token)
    (caches : List.Forall₂ (List.Forall₂ ofEntry) cache cache') :
    List.Forall₂ (List.Forall₂ ofEntry) ((toModel layers embed sample).runChunks cache chunks).1
        ((toModel layers' embed' sample').runChunks cache' chunks).1 ∧
      ((toModel layers embed sample).runChunks cache chunks).2 =
        ((toModel layers' embed' sample').runChunks cache' chunks).2 := by
  induction chunks generalizing cache cache' with
  | nil => exact ⟨caches, rfl⟩
  | cons chunk chunks ih =>
    rw [List.forall_mem_cons] at mem
    have ran := simulates.run cache.length mem.1 caches
    rw [caches.length_eq] at ran
    have rest := ih mem.2 (List.rel_append caches ran.1)
    simp only [CachedModel.runChunks, caches.length_eq, ran.2]
    exact ⟨rest.1, congrArg (_ :: ·) rest.2⟩

end SimulatesModel

end CausalLayer
