import NanoVllm.Library.Json

/-!
# The text of JSON documents

`json.dumps` with its default separators and with `ensure_ascii`, so that the text is ASCII and
has no line break. The text of a floating-point number is a parameter.
-/

/-- A printable ASCII character. -/
def Char.Printable (c : Char) : Prop := ' ' ≤ c ∧ c ≤ '~'

instance : DecidablePred Char.Printable := fun c =>
  inferInstanceAs (Decidable (' ' ≤ c ∧ c ≤ '~'))

/-- Every character of a text is printable, so the text is a part of one line. -/
def String.Printable (text : String) : Prop := ∀ c ∈ text.toList, c.Printable

/-- The lines of a text in which every line is terminated. -/
def String.jsonLines (text : String) : List String :=
  (text.toList.splitOn '\n').dropLast.map String.ofList

theorem String.Printable.jsonLines {line : String} (printable : line.Printable) (rest : String) :
    (line ++ "\n" ++ rest).jsonLines = line :: rest.jsonLines := by
  have free : '\n' ∉ line.toList := by
    intro mem
    exact absurd (printable _ mem) (by decide)
  have chars : (line ++ "\n" ++ rest).toList = line.toList ++ '\n' :: rest.toList := by
    simp
  have more : rest.toList.splitOn '\n' ≠ [] := List.splitOn_ne_nil _ _
  rw [String.jsonLines, chars, List.splitOn_append_cons_self, List.splitOn_eq_singleton free,
    List.dropLast_append_of_ne_nil more]
  simp [String.jsonLines]

/-- The lines of texts which are written one after the other. -/
theorem String.jsonLines_join {texts : List String} (printable : ∀ text ∈ texts, text.Printable) :
    (String.join (texts.map (· ++ "\n"))).jsonLines = texts := by
  induction texts with
  | nil => simp [String.jsonLines]
  | cons text texts ih =>
    rw [List.forall_mem_cons] at printable
    rw [List.map_cons, String.join_cons, printable.1.jsonLines, ih printable.2]

/-- `float.__repr__`, or the JSON name of a number which is not finite. -/
structure FloatTexts (F : Type) where
  finite : F → Bool
  text : F → String
  printable : ∀ x, (text x).Printable

namespace Json

variable {F : Type} {floats : FloatTexts F} {allowNan : Bool}

/-- A code unit as `\u` and four hexadecimal digits. -/
def unicodeEscape (unit : ℕ) : List Char :=
  ['\\', 'u', Nat.digitChar (unit / 4096 % 16), Nat.digitChar (unit / 256 % 16),
    Nat.digitChar (unit / 16 % 16), Nat.digitChar (unit % 16)]

/-- The text of a character in a string, with a surrogate pair for one beyond the basic plane. -/
def escapeChar (c : Char) : List Char :=
  if c = '\x22' then ['\\', '\x22']
  else if c = '\\' then ['\\', '\\']
  else if c = '\n' then ['\\', 'n']
  else if c = '\x0d' then ['\\', 'r']
  else if c = '\t' then ['\\', 't']
  else if c = '\x0c' then ['\\', 'f']
  else if c = '\x08' then ['\\', 'b']
  else if c.Printable then [c]
  else if c.toNat < 0x10000 then unicodeEscape c.toNat
  else unicodeEscape (0xd800 + (c.toNat - 0x10000) / 0x400) ++
    unicodeEscape (0xdc00 + (c.toNat - 0x10000) % 0x400)

/-- The text of a string. -/
def quote (s : String) : String :=
  String.ofList ('\x22' :: s.toList.flatMap escapeChar ++ ['\x22'])

mutual

/-- `json.dumps(value, allow_nan=allow_nan)`, unless a number which is not finite is refused. -/
def dumps? (floats : FloatTexts F) (allowNan : Bool) : Json F → Option String
  | null => some "null"
  | number (.bool b) => some (if b then "true" else "false")
  | number (.int n) => some (toString n)
  | number (.float x) => if floats.finite x || allowNan then some (floats.text x) else none
  | string s => some (quote s)
  | array items => do some ("[" ++ ", ".intercalate (← dumpsItems? floats allowNan items) ++ "]")
  | object fields => do
      some ("\x7b" ++ ", ".intercalate (← dumpsFields? floats allowNan fields) ++ "\x7d")

def dumpsItems? (floats : FloatTexts F) (allowNan : Bool) : List (Json F) → Option (List String)
  | [] => some []
  | item :: items => do
      let text ← dumps? floats allowNan item
      some (text :: (← dumpsItems? floats allowNan items))

def dumpsFields? (floats : FloatTexts F) (allowNan : Bool) :
    List (String × Json F) → Option (List String)
  | [] => some []
  | (name, value) :: fields => do
      let text ← dumps? floats allowNan value
      some ((quote name ++ ": " ++ text) :: (← dumpsFields? floats allowNan fields))

end

/-- `{**fields, name: value}`. -/
def setField (fields : List (String × Json F)) (name : String) (value : Json F) :
    List (String × Json F) :=
  if name ∈ fields.map Prod.fst then
    fields.map fun field => if field.1 = name then (name, value) else field
  else fields ++ [(name, value)]

/-- `{**fields, **updates}`. -/
def update (fields updates : List (String × Json F)) : List (String × Json F) :=
  updates.foldl (fun fields field => setField fields field.1 field.2) fields

theorem field?_setField (fields : List (String × Json F)) (name : String) (value : Json F) :
    field? (setField fields name value) name = some value := by
  simp only [field?, setField]
  split
  case isTrue present =>
    induction fields with
    | nil => cases present
    | cons field fields ih =>
      rcases field with ⟨key, old⟩
      by_cases same : key = name
      · simp [same]
      · have rest : name ∈ fields.map Prod.fst := by simpa [Ne.symm same] using present
        simpa [same, List.lookup_cons, beq_false_of_ne (Ne.symm same)] using ih rest
  case isFalse missing =>
    induction fields with
    | nil => simp
    | cons field fields ih =>
      rcases field with ⟨key, old⟩
      simp only [List.map_cons, List.mem_cons, not_or] at missing
      simpa [List.lookup_cons, beq_false_of_ne missing.1] using ih missing.2

/-! ## A document is a text of one line -/

theorem printable_append {left right : String} (printableLeft : left.Printable)
    (printableRight : right.Printable) : (left ++ right).Printable := by
  intro c mem
  rcases List.mem_append.mp (String.toList_append ▸ mem) with mem | mem
  · exact printableLeft c mem
  · exact printableRight c mem

theorem printable_intercalate {separator : String} {texts : List String}
    (printable : separator.Printable) (all : ∀ text ∈ texts, text.Printable) :
    (separator.intercalate texts).Printable := by
  induction texts with
  | nil => simp [String.Printable]
  | cons text texts ih =>
    have first := all text List.mem_cons_self
    cases texts with
    | nil => simpa using first
    | cons next texts =>
      have rest := ih fun other mem => all other (List.mem_cons_of_mem _ mem)
      simp only [String.intercalate_cons_cons]
      exact printable_append (printable_append first printable) rest

/-- The literal parts of a document. -/
theorem printable_literals : ∀ text ∈ ["null", "true", "false", "-", ", ", ": ", "[", "]", "\x7b",
    "\x7d"], text.Printable := by
  simp [String.Printable, Char.Printable]

theorem printable_digitChar : ∀ n < 16, (Nat.digitChar n).Printable := by decide

theorem printable_unicodeEscape (unit : ℕ) : ∀ c ∈ unicodeEscape unit, c.Printable := by
  intro c mem
  simp only [unicodeEscape, List.mem_cons, List.not_mem_nil, or_false] at mem
  rcases mem with rfl | rfl | rfl | rfl | rfl | rfl
  · decide
  · decide
  all_goals exact printable_digitChar _ (Nat.mod_lt _ (by decide))

theorem printable_escapeChar (c : Char) : ∀ d ∈ escapeChar c, d.Printable := by
  simp only [escapeChar]
  split_ifs with quotation backslash lineFeed carriageReturn tab formFeed backspace printable basic
  case pos => simp [Char.Printable]
  case pos => simp [Char.Printable]
  case pos => simp [Char.Printable]
  case pos => simp [Char.Printable]
  case pos => simp [Char.Printable]
  case pos => simp [Char.Printable]
  case pos => simp [Char.Printable]
  case pos => simpa using printable
  case pos => exact printable_unicodeEscape _
  case neg =>
    intro d mem
    rcases List.mem_append.mp mem with mem | mem
    · exact printable_unicodeEscape _ d mem
    · exact printable_unicodeEscape _ d mem

theorem printable_quote (s : String) : (quote s).Printable := by
  intro c mem
  simp only [quote, String.toList_ofList, List.mem_append, List.mem_cons, List.mem_flatMap,
    List.not_mem_nil, or_false] at mem
  rcases mem with (rfl | inside) | rfl
  · decide
  · rcases inside with ⟨d, -, mem⟩
    exact printable_escapeChar d c mem
  · decide

theorem printable_toString (n : ℤ) : (toString n).Printable := by
  have digits (k : ℕ) : (toString k).Printable := by
    intro c mem
    rw [Nat.toString_eq_ofList_toDigits, String.toList_ofList] at mem
    have digit := Nat.isDigit_of_mem_toDigits (by decide) (by decide) mem
    simp only [Char.isDigit, Bool.and_eq_true, decide_eq_true_eq] at digit
    have lowest : ' ' ≤ '0' := by decide
    have highest : '9' ≤ '~' := by decide
    have least : '0' ≤ c := digit.1
    have greatest : c ≤ '9' := digit.2
    exact ⟨Char.le_trans lowest least, Char.le_trans greatest highest⟩
  cases n with
  | ofNat k => exact digits k
  | negSucc k =>
    apply printable_append
    · exact printable_literals _ (by simp)
    · exact digits (k + 1)


mutual

theorem printable_dumps? :
    ∀ {value : Json F} {text : String}, dumps? floats allowNan value = some text → text.Printable
  | null, _, written => by
      cases written
      exact printable_literals _ (by simp)
  | number (.bool b), _, written => by
      cases written
      apply printable_literals
      cases b <;> simp
  | number (.int n), _, written => by
      cases written
      exact printable_toString n
  | number (.float x), _, written => by
      simp only [dumps?] at written
      split at written
      · cases written
        exact floats.printable x
      · cases written
  | string s, _, written => by
      cases written
      exact printable_quote s
  | array items, _, written => by
      simp only [dumps?] at written
      rcases Option.bind_eq_some_iff.mp written with ⟨texts, inner, same⟩
      cases same
      apply printable_append (printable_append ?_ ?_) ?_
      · exact printable_literals _ (by simp)
      · exact printable_intercalate (printable_literals _ (by simp)) (printable_dumpsItems? inner)
      · exact printable_literals _ (by simp)
  | object fields, _, written => by
      simp only [dumps?] at written
      rcases Option.bind_eq_some_iff.mp written with ⟨texts, inner, same⟩
      cases same
      apply printable_append (printable_append ?_ ?_) ?_
      · exact printable_literals _ (by simp)
      · exact printable_intercalate (printable_literals _ (by simp)) (printable_dumpsFields? inner)
      · exact printable_literals _ (by simp)

theorem printable_dumpsItems? : ∀ {items : List (Json F)} {texts : List String},
    dumpsItems? floats allowNan items = some texts → ∀ text ∈ texts, text.Printable
  | [], _, written => by
      cases written
      simp
  | item :: items, _, written => by
      simp only [dumpsItems?] at written
      rcases Option.bind_eq_some_iff.mp written with ⟨text, first, written⟩
      rcases Option.bind_eq_some_iff.mp written with ⟨texts, rest, same⟩
      cases same
      rw [List.forall_mem_cons]
      exact ⟨printable_dumps? first, printable_dumpsItems? rest⟩

theorem printable_dumpsFields? : ∀ {fields : List (String × Json F)} {texts : List String},
    dumpsFields? floats allowNan fields = some texts → ∀ text ∈ texts, text.Printable
  | [], _, written => by
      cases written
      simp
  | (name, value) :: fields, _, written => by
      simp only [dumpsFields?] at written
      rcases Option.bind_eq_some_iff.mp written with ⟨text, first, written⟩
      rcases Option.bind_eq_some_iff.mp written with ⟨texts, rest, same⟩
      cases same
      rw [List.forall_mem_cons]
      refine ⟨?_, printable_dumpsFields? rest⟩
      apply printable_append (printable_append (printable_quote name) ?_) (printable_dumps? first)
      exact printable_literals _ (by simp)

end

/-! ## Documents without a refused number -/

mutual

theorem dumps?_allowNan (floats : FloatTexts F) :
    ∀ value : Json F, ∃ text, dumps? floats true value = some text
  | null | number (.bool _) | number (.int _) | string _ => by simp [dumps?]
  | number (.float x) => by simp [dumps?]
  | array items => by
      rcases dumpsItems?_allowNan floats items with ⟨texts, written⟩
      simp [dumps?, written]
  | object fields => by
      rcases dumpsFields?_allowNan floats fields with ⟨texts, written⟩
      simp [dumps?, written]

theorem dumpsItems?_allowNan (floats : FloatTexts F) :
    ∀ items : List (Json F), ∃ texts, dumpsItems? floats true items = some texts
  | [] => by simp [dumpsItems?]
  | item :: items => by
      rcases dumps?_allowNan floats item with ⟨text, first⟩
      rcases dumpsItems?_allowNan floats items with ⟨texts, rest⟩
      simp [dumpsItems?, first, rest]

theorem dumpsFields?_allowNan (floats : FloatTexts F) :
    ∀ fields : List (String × Json F), ∃ texts, dumpsFields? floats true fields = some texts
  | [] => by simp [dumpsFields?]
  | (name, value) :: fields => by
      rcases dumps?_allowNan floats value with ⟨text, first⟩
      rcases dumpsFields?_allowNan floats fields with ⟨texts, rest⟩
      simp [dumpsFields?, first, rest]

end

end Json
