import Mathlib.Data.List.Nodup
import NanoVllm.Library.JsonText

/-!
# JSON documents written and read

`json.dumps` with its default separators and without `ensure_ascii`, and `JSON.parse`, which reads
every such document back. The text of a floating-point number is a parameter, as is its reading.
-/

/-- A character of a JSON number. -/
def Char.isNumeral (c : Char) : Bool :=
  c.isDigit || c = '-' || c = '+' || c = '.' || c = 'e' || c = 'E'

/-- White space between the tokens of a document. -/
def Char.isJsonSpace (c : Char) : Bool := c = ' ' || c = '\t' || c = '\n' || c = '\x0d'

namespace Json

/-- The natural number with these digits, without leading zeros. -/
def readNat (digits : List Char) : Option ℕ :=
  if Nat.toDigits 10 (Nat.ofDigitChars 10 digits 0) = digits then
    some (Nat.ofDigitChars 10 digits 0)
  else none

/-- The integer which a numeral without fraction and exponent denotes. -/
def readInt : List Char → Option ℤ
  | '-' :: digits => (readNat digits).map fun n => -(n : ℤ)
  | digits => (readNat digits).map fun n => (n : ℤ)

/-- The texts of floating-point numbers with their reading. -/
structure NumberTexts (F : Type) extends FloatTexts F where
  read : List Char → Option F
  zero : F → Bool
  read_text : ∀ x, finite x = true → read (text x).toList = some x
  numeral : ∀ x, finite x = true → ∀ c ∈ (text x).toList, c.isNumeral = true
  nonempty : ∀ x, (text x).toList ≠ []
  notInt : ∀ x, finite x = true → readInt (text x).toList = none

/-- Documents without floating-point numbers. -/
def wholeNumbers : NumberTexts Empty where
  finite := Empty.elim
  text := Empty.elim
  printable := Empty.rec
  read _ := none
  zero := Empty.elim
  read_text := Empty.rec
  numeral := Empty.rec
  nonempty := Empty.rec
  notInt := Empty.rec

variable {F : Type} {numbers : NumberTexts F}

/-! ## Writing -/

/-- A character of a string. Only the delimiters and the control characters are escaped. -/
def writeChar (c : Char) : List Char :=
  if c = '\x22' then ['\\', '\x22']
  else if c = '\\' then ['\\', '\\']
  else if c = '\n' then ['\\', 'n']
  else if c = '\x0d' then ['\\', 'r']
  else if c = '\t' then ['\\', 't']
  else if c = '\x0c' then ['\\', 'f']
  else if c = '\x08' then ['\\', 'b']
  else if c.toNat < 0x20 then unicodeEscape c.toNat
  else [c]

/-- A string between its quotation marks. -/
def writeString (s : String) : List Char :=
  '\x22' :: s.toList.flatMap writeChar ++ ['\x22']

mutual

/-- `json.dumps(value, ensure_ascii=False)`. -/
def write (numbers : NumberTexts F) : Json F → List Char
  | null => ['n', 'u', 'l', 'l']
  | number (.bool true) => ['t', 'r', 'u', 'e']
  | number (.bool false) => ['f', 'a', 'l', 's', 'e']
  | number (.int n) => (toString n).toList
  | number (.float x) => (numbers.text x).toList
  | string s => writeString s
  | array items => '[' :: writeItems numbers items ++ [']']
  | object fields => '\x7b' :: writeFields numbers fields ++ ['\x7d']

def writeItems (numbers : NumberTexts F) : List (Json F) → List Char
  | [] => []
  | [item] => write numbers item
  | item :: next :: items => write numbers item ++ ',' :: ' ' :: writeItems numbers (next :: items)

def writeFields (numbers : NumberTexts F) : List (String × Json F) → List Char
  | [] => []
  | [(name, value)] => writeString name ++ ':' :: ' ' :: write numbers value
  | (name, value) :: next :: fields => writeString name ++ ':' :: ' ' :: (write numbers value ++
      ',' :: ' ' :: writeFields numbers (next :: fields))

end

/-! ## Reading -/

/-- The text after white space. -/
def skipSpace (text : List Char) : List Char := text.dropWhile Char.isJsonSpace

/-- The value of a hexadecimal digit. -/
def hexDigit? (c : Char) : Option ℕ :=
  if c.isDigit then some (c.toNat - '0'.toNat)
  else if 'a' ≤ c ∧ c ≤ 'f' then some (c.toNat - 'a'.toNat + 10)
  else if 'A' ≤ c ∧ c ≤ 'F' then some (c.toNat - 'A'.toNat + 10)
  else none

/-- The code unit of four hexadecimal digits. -/
def readUnit (a b c d : Char) : Option ℕ := do
  some ((← hexDigit? a) * 4096 + (← hexDigit? b) * 256 + (← hexDigit? c) * 16 + (← hexDigit? d))

/-- The character which a short escape stands for. -/
def unescape? : Char → Option Char
  | '\x22' => some '\x22'
  | '\\' => some '\\'
  | '/' => some '/'
  | 'n' => some '\n'
  | 'r' => some '\x0d'
  | 't' => some '\t'
  | 'f' => some '\x0c'
  | 'b' => some '\x08'
  | _ => none

/-- The code points and escaped code units of a string up to its quotation mark. -/
def readUnits : List Char → Option (List ℕ × List Char)
  | [] => none
  | '\x22' :: rest => some ([], rest)
  | '\\' :: 'u' :: a :: b :: c :: d :: rest => do
      let unit ← readUnit a b c d
      let (units, rest) ← readUnits rest
      some (unit :: units, rest)
  | '\\' :: c :: rest => do
      let c ← unescape? c
      let (units, rest) ← readUnits rest
      some (c.toNat :: units, rest)
  | c :: rest =>
      if c.toNat < 0x20 then none
      else do
        let (units, rest) ← readUnits rest
        some (c.toNat :: units, rest)

/-- The characters of code points and code units. A lone surrogate has no character of its own. -/
def decodeUnits : List ℕ → List Char
  | [] => []
  | high :: low :: units =>
      if 0xd800 ≤ high ∧ high < 0xdc00 ∧ 0xdc00 ≤ low ∧ low < 0xe000 then
        Char.ofNat (0x10000 + (high - 0xd800) * 0x400 + (low - 0xdc00)) :: decodeUnits units
      else if 0xd800 ≤ high ∧ high < 0xe000 then '\ufffd' :: decodeUnits (low :: units)
      else Char.ofNat high :: decodeUnits (low :: units)
  | [unit] => if 0xd800 ≤ unit ∧ unit < 0xe000 then ['\ufffd'] else [Char.ofNat unit]

/-- The rest of a string after its first quotation mark. -/
def readString (text : List Char) : Option (String × List Char) := do
  let (units, rest) ← readUnits text
  some (String.ofList (decodeUnits units), rest)

/-- The number at the start of a text. -/
def readNumber (numbers : NumberTexts F) (text : List Char) : Option (PyNumber F × List Char) :=
  let numeral := text.takeWhile Char.isNumeral
  let rest := text.dropWhile Char.isNumeral
  match readInt numeral with
  | some n => some (.int n, rest)
  | none => (numbers.read numeral).map fun x => (.float x, rest)

mutual

/-- The value at the start of a text. -/
def readValue (numbers : NumberTexts F) : ℕ → List Char → Option (Json F × List Char)
  | 0, _ => none
  | fuel + 1, text =>
    match skipSpace text with
    | '\x22' :: rest => do
        let (s, rest) ← readString rest
        some (string s, rest)
    | '[' :: rest =>
        match skipSpace rest with
        | ']' :: rest => some (array [], rest)
        | rest => do
            let (items, rest) ← readItems numbers fuel rest
            some (array items, rest)
    | '\x7b' :: rest =>
        match skipSpace rest with
        | '\x7d' :: rest => some (object [], rest)
        | rest => do
            let (fields, rest) ← readFields numbers fuel rest
            some (object (update [] fields), rest)
    | 'n' :: 'u' :: 'l' :: 'l' :: rest => some (null, rest)
    | 't' :: 'r' :: 'u' :: 'e' :: rest => some (number (.bool true), rest)
    | 'f' :: 'a' :: 'l' :: 's' :: 'e' :: rest => some (number (.bool false), rest)
    | text => do
        let (n, rest) ← readNumber numbers text
        some (number n, rest)

/-- The items of an array up to its end. -/
def readItems (numbers : NumberTexts F) : ℕ → List Char → Option (List (Json F) × List Char)
  | 0, _ => none
  | fuel + 1, text => do
    let (item, rest) ← readValue numbers fuel text
    match skipSpace rest with
    | ',' :: rest => do
        let (items, rest) ← readItems numbers fuel rest
        some (item :: items, rest)
    | ']' :: rest => some ([item], rest)
    | _ => none

/-- The fields of an object up to its end. -/
def readFields (numbers : NumberTexts F) :
    ℕ → List Char → Option (List (String × Json F) × List Char)
  | 0, _ => none
  | fuel + 1, text =>
    match skipSpace text with
    | '\x22' :: rest => do
        let (name, rest) ← readString rest
        match skipSpace rest with
        | ':' :: rest => do
            let (value, rest) ← readValue numbers fuel rest
            match skipSpace rest with
            | ',' :: rest => do
                let (fields, rest) ← readFields numbers fuel rest
                some ((name, value) :: fields, rest)
            | '\x7d' :: rest => some ([(name, value)], rest)
            | _ => none
        | _ => none
    | _ => none

end

/-- `JSON.parse(text)`. -/
def parse (numbers : NumberTexts F) (text : List Char) : Option (Json F) := do
  let (value, rest) ← readValue numbers (text.length + 1) text
  if skipSpace rest = [] then some value else none

/-! ## Every written string is read back -/

theorem readUnit_control : ∀ n < 32, readUnit (Nat.digitChar (n / 4096 % 16))
    (Nat.digitChar (n / 256 % 16)) (Nat.digitChar (n / 16 % 16)) (Nat.digitChar (n % 16)) =
      some n := by
  decide

theorem readUnits_writeChar (c : Char) (rest : List Char) :
    readUnits (writeChar c ++ rest) =
      (readUnits rest).bind fun read => some (c.toNat :: read.1, read.2) := by
  simp only [writeChar]
  split_ifs with quotation backslash lineFeed carriageReturn tab formFeed backspace control
  case pos => subst quotation; rfl
  case pos => subst backslash; rfl
  case pos => subst lineFeed; rfl
  case pos => subst carriageReturn; rfl
  case pos => subst tab; rfl
  case pos => subst formFeed; rfl
  case pos => subst backspace; rfl
  case pos =>
    have unit := readUnit_control c.toNat control
    simp only [unicodeEscape, List.cons_append, List.nil_append, readUnits, unit]
    rfl
  case neg =>
    rw [List.singleton_append, readUnits.eq_def]
    split
    · next empty => cases empty
    · next same =>
      cases same
      exact absurd rfl quotation
    · next same =>
      cases same
      exact absurd rfl backslash
    · next same =>
      cases same
      exact absurd rfl backslash
    · next same =>
      cases same
      rw [if_neg control]
      rfl

theorem readUnits_writeString (chars rest : List Char) :
    readUnits (chars.flatMap writeChar ++ '\x22' :: rest) = some (chars.map Char.toNat, rest) := by
  induction chars with
  | nil => rfl
  | cons c chars ih =>
    rw [List.flatMap_cons, List.append_assoc, readUnits_writeChar, ih]
    rfl

theorem not_surrogate (c : Char) : ¬(0xd800 ≤ c.toNat ∧ c.toNat < 0xe000) := by
  have valid := c.valid
  simp only [Char.toNat, UInt32.isValidChar, Nat.isValidChar] at *
  omega

theorem decodeUnits_chars (chars : List Char) : decodeUnits (chars.map Char.toNat) = chars := by
  induction chars with
  | nil => rfl
  | cons c chars ih =>
    have plain := not_surrogate c
    cases chars with
    | nil =>
      rw [List.map_singleton, decodeUnits, if_neg plain, Char.ofNat_toNat]
    | cons next chars =>
      have high : ¬(0xd800 ≤ c.toNat ∧ c.toNat < 0xdc00 ∧ 0xdc00 ≤ next.toNat ∧
          next.toNat < 0xe000) := by omega
      rw [List.map_cons, List.map_cons, decodeUnits, if_neg high, if_neg plain, Char.ofNat_toNat,
        ← List.map_cons, ih]

theorem readString_writeString (s : String) (rest : List Char) :
    readString (s.toList.flatMap writeChar ++ '\x22' :: rest) = some (s, rest) := by
  simp [readString, readUnits_writeString, decodeUnits_chars]

/-! ## Every written number is read back -/

/-- A text which does not go on with a numeral. -/
def Delimits (rest : List Char) : Prop := ∀ c ∈ rest.head?, c.isNumeral = false

theorem span_numeral {numeral rest : List Char} (inside : ∀ c ∈ numeral, c.isNumeral = true)
    (delimits : Delimits rest) : (numeral ++ rest).takeWhile Char.isNumeral = numeral ∧
      (numeral ++ rest).dropWhile Char.isNumeral = rest := by
  rw [List.takeWhile_append_of_pos inside, List.dropWhile_append_of_pos inside]
  cases rest with
  | nil => simp
  | cons c rest =>
    have other := delimits c rfl
    simp [other]

theorem isDigit_toDigits (n : ℕ) : ∀ c ∈ Nat.toDigits 10 n, c.isDigit = true := by
  intro c mem
  exact Nat.isDigit_of_mem_toDigits (by decide) (by decide) mem

theorem readNat_toDigits (n : ℕ) : readNat (Nat.toDigits 10 n) = some n := by
  rw [readNat, Nat.ofDigitChars_ten_toDigits, if_pos rfl]

theorem toList_natCast (n : ℕ) : (toString (n : ℤ)).toList = Nat.toDigits 10 n := by
  change (toString n).toList = _
  rw [Nat.toString_eq_ofList_toDigits, String.toList_ofList]

theorem toList_negSucc (n : ℕ) :
    (toString (Int.negSucc n)).toList = '-' :: Nat.toDigits 10 (n + 1) := by
  change ("-" ++ toString (n + 1)).toList = _
  simp

theorem readInt_toString (n : ℤ) : readInt (toString n).toList = some n := by
  cases n with
  | ofNat n =>
    rw [Int.ofNat_eq_natCast, toList_natCast, readInt.eq_def]
    split
    · next digits same =>
      have digit := isDigit_toDigits n '-' (same ▸ List.mem_cons_self)
      exact absurd digit (by decide)
    · rw [readNat_toDigits]
      rfl
  | negSucc n =>
    rw [toList_negSucc, readInt, readNat_toDigits]
    rfl

theorem numeral_toString (n : ℤ) : ∀ c ∈ (toString n).toList, c.isNumeral = true := by
  have digits (k : ℕ) : ∀ c ∈ Nat.toDigits 10 k, c.isNumeral = true := by
    intro c mem
    simp [Char.isNumeral, isDigit_toDigits k c mem]
  cases n with
  | ofNat n =>
    rw [Int.ofNat_eq_natCast, toList_natCast]
    exact digits n
  | negSucc n =>
    rw [toList_negSucc, List.forall_mem_cons]
    exact ⟨by decide, digits _⟩

theorem readNumber_int (n : ℤ) {rest : List Char} (delimits : Delimits rest) :
    readNumber numbers ((toString n).toList ++ rest) = some (.int n, rest) := by
  rcases span_numeral (numeral_toString n) delimits with ⟨taken, dropped⟩
  simp only [readNumber, taken, dropped, readInt_toString]

theorem readNumber_float {x : F} (finite : numbers.finite x = true) {rest : List Char}
    (delimits : Delimits rest) :
    readNumber numbers ((numbers.text x).toList ++ rest) = some (.float x, rest) := by
  rcases span_numeral (numbers.numeral x finite) delimits with ⟨taken, dropped⟩
  simp only [readNumber, taken, dropped, numbers.notInt x finite, numbers.read_text x finite]
  rfl

/-! ## Every written document is read back -/

mutual

/-- The documents whose text is valid JSON: finite numbers, and objects with distinct names. -/
def Writable (numbers : NumberTexts F) : Json F → Prop
  | null | number (.bool _) | number (.int _) | string _ => True
  | number (.float x) => numbers.finite x = true
  | array items => WritableItems numbers items
  | object fields => (fields.map Prod.fst).Nodup ∧ WritableFields numbers fields

def WritableItems (numbers : NumberTexts F) : List (Json F) → Prop
  | [] => True
  | item :: items => Writable numbers item ∧ WritableItems numbers items

def WritableFields (numbers : NumberTexts F) : List (String × Json F) → Prop
  | [] => True
  | (_, value) :: fields => Writable numbers value ∧ WritableFields numbers fields

end

/-- An object which is built from fields with distinct names keeps them all. -/
theorem update_append {fields updates : List (String × Json F)}
    (distinct : ((fields ++ updates).map Prod.fst).Nodup) :
    update fields updates = fields ++ updates := by
  induction updates generalizing fields with
  | nil => simp [update]
  | cons field updates ih =>
    have fresh : field.1 ∉ fields.map Prod.fst := by
      rw [List.map_append, List.map_cons, List.nodup_middle, List.nodup_cons] at distinct
      intro mem
      exact distinct.1 (List.mem_append_left _ mem)
    have rest := @ih (fields ++ [field]) (by simpa using distinct)
    rw [update, List.foldl_cons, setField, if_neg fresh]
    simpa [update] using rest

theorem update_nil {fields : List (String × Json F)} (distinct : (fields.map Prod.fst).Nodup) :
    update [] fields = fields :=
  update_append distinct

/-- The first character of a document. -/
def Starts (c : Char) : Prop := c.isJsonSpace = false ∧ c ≠ ']' ∧ c ≠ '\x7d'

instance : DecidablePred Starts := fun c =>
  inferInstanceAs (Decidable (c.isJsonSpace = false ∧ c ≠ ']' ∧ c ≠ '\x7d'))

theorem starts_numeral {c : Char} (numeral : c.isNumeral = true) : Starts c := by
  refine ⟨?_, ?_, ?_⟩
  · rw [Bool.eq_false_iff]
    intro space
    simp only [Char.isJsonSpace, Bool.or_eq_true, decide_eq_true_eq] at space
    rcases space with ((rfl | rfl) | rfl) | rfl <;> revert numeral <;> decide
  · rintro rfl
    revert numeral
    decide
  · rintro rfl
    revert numeral
    decide

theorem skipSpace_of_starts {c : Char} (starts : Starts c) (text : List Char) :
    skipSpace (c :: text) = c :: text := by
  simp [skipSpace, starts.1]

theorem write_starts {value : Json F} (writable : Writable numbers value) :
    ∃ c text, write numbers value = c :: text ∧ Starts c := by
  cases value with
  | null => exact ⟨_, _, rfl, by decide⟩
  | number n =>
    have numeral : ∀ digits : List Char, digits ≠ [] → (∀ c ∈ digits, c.isNumeral = true) →
        ∃ c text, digits = c :: text ∧ Starts c := by
      intro digits nonempty numeral
      cases digits with
      | nil => exact absurd rfl nonempty
      | cons c digits => exact ⟨c, digits, rfl, starts_numeral (numeral c List.mem_cons_self)⟩
    cases n with
    | bool b => cases b <;> exact ⟨_, _, rfl, by decide⟩
    | int n =>
      apply numeral _ _ (numeral_toString n)
      intro empty
      have read := readInt_toString n
      rw [empty] at read
      cases read
    | float x => exact numeral _ (numbers.nonempty x) (numbers.numeral x writable)
  | string s => exact ⟨_, _, rfl, by decide⟩
  | array items => exact ⟨_, _, rfl, by decide⟩
  | object fields => exact ⟨_, _, rfl, by decide⟩

/-- A value which starts with a numeral is a number. -/
theorem readValue_numeral {c : Char} (numeral : c.isNumeral = true) (fuel : ℕ) (text : List Char) :
    readValue numbers (fuel + 1) (c :: text) =
      (readNumber numbers (c :: text)).bind fun read => some (number read.1, read.2) := by
  rw [readValue, skipSpace_of_starts (starts_numeral numeral)]
  split
  all_goals first
    | (next same => cases same; exact absurd numeral (by decide))
    | rfl

theorem readValue_space (fuel : ℕ) (text : List Char) :
    readValue numbers fuel (' ' :: text) = readValue numbers fuel text := by
  cases fuel with
  | zero => rfl
  | succ fuel =>
    have skips : skipSpace (' ' :: text) = skipSpace text := rfl
    rw [readValue, readValue, skips]

theorem readItems_space (fuel : ℕ) (text : List Char) :
    readItems numbers fuel (' ' :: text) = readItems numbers fuel text := by
  cases fuel with
  | zero => rfl
  | succ fuel => rw [readItems, readItems, readValue_space]

theorem readFields_space (fuel : ℕ) (text : List Char) :
    readFields numbers fuel (' ' :: text) = readFields numbers fuel text := by
  cases fuel with
  | zero => rfl
  | succ fuel =>
    have skips : skipSpace (' ' :: text) = skipSpace text := rfl
    rw [readFields, readFields, skips]

theorem writeItems_starts {item : Json F} (writable : Writable numbers item)
    (items : List (Json F)) (rest : List Char) :
    ∃ c text, writeItems numbers (item :: items) ++ rest = c :: text ∧ Starts c := by
  rcases write_starts writable with ⟨c, text, written, starts⟩
  cases items with
  | nil => exact ⟨c, text ++ rest, by rw [writeItems, written]; rfl, starts⟩
  | cons next items => exact ⟨c, _, by rw [writeItems, written]; rfl, starts⟩

theorem writeFields_starts (name : String) (value : Json F) (fields : List (String × Json F))
    (rest : List Char) :
    ∃ text, writeFields numbers ((name, value) :: fields) ++ rest = '\x22' :: text := by
  cases fields with
  | nil => exact ⟨_, rfl⟩
  | cons next fields => exact ⟨_, rfl⟩

theorem writeString_append (s : String) (rest : List Char) :
    writeString s ++ rest = '\x22' :: (s.toList.flatMap writeChar ++ '\x22' :: rest) := by
  simp [writeString]

mutual

/-- A document is read back from its text, whatever follows it. -/
theorem readValue_write : ∀ (value : Json F), Writable numbers value → ∀ fuel rest,
    (write numbers value).length ≤ fuel → Delimits rest →
      readValue numbers fuel (write numbers value ++ rest) = some (value, rest)
  | null, _, fuel + 1, rest, _, _ => rfl
  | number (.bool true), _, fuel + 1, rest, _, _ => rfl
  | number (.bool false), _, fuel + 1, rest, _, _ => rfl
  | number (.int n), _, fuel, rest, enough, delimits => by
      rcases @write_starts F numbers (number (.int n)) trivial with ⟨c, text, written, -⟩
      have numeral := numeral_toString n
      have read := @readNumber_int F numbers n rest delimits
      rw [write] at written enough
      rw [written] at numeral read enough
      cases fuel with
      | zero => cases enough
      | succ fuel =>
        rw [write, written, List.cons_append,
          readValue_numeral (numeral c List.mem_cons_self) fuel (text ++ rest)]
        rw [List.cons_append] at read
        rw [read]
        rfl
  | number (.float x), finite, fuel, rest, enough, delimits => by
      have numeral := numbers.numeral x finite
      have read := readNumber_float finite delimits
      have nonempty := numbers.nonempty x
      rw [write] at enough ⊢
      cases written : (numbers.text x).toList with
      | nil => exact absurd written nonempty
      | cons c text =>
        rw [written] at numeral read enough
        cases fuel with
        | zero => cases enough
        | succ fuel =>
          rw [List.cons_append] at read ⊢
          rw [readValue_numeral (numeral c List.mem_cons_self), read]
          rfl
  | string s, _, fuel + 1, rest, _, _ => by
      rw [write, writeString_append, readValue, skipSpace_of_starts (by decide)]
      simp [readString_writeString]
  | array [], _, fuel + 1, rest, _, _ => rfl
  | array (item :: items), writable, fuel + 1, rest, enough, _ => by
      have inner := readItems_write (item :: items) (List.cons_ne_nil _ _) writable fuel rest
        (by simp only [write, List.length_append, List.length_cons, List.length_nil] at enough
            omega)
      rcases writeItems_starts writable.1 items (']' :: rest) with ⟨c, text, written, starts⟩
      rw [written] at inner
      rw [write, List.cons_append, List.cons_append, List.append_assoc, List.singleton_append,
        written, readValue, skipSpace_of_starts (by decide)]
      simp only [skipSpace_of_starts starts]
      split
      · next same =>
        cases same
        exact absurd rfl starts.2.1
      · rw [inner]
        rfl
  | object [], _, fuel + 1, rest, _, _ => rfl
  | object ((name, value) :: fields), writable, fuel + 1, rest, enough, _ => by
      have inner := readFields_write ((name, value) :: fields) (List.cons_ne_nil _ _) writable.2 fuel
        rest (by simp only [write, List.length_append, List.length_cons, List.length_nil] at enough
                 omega)
      rcases writeFields_starts name value fields ('\x7d' :: rest) with ⟨text, written⟩
      rw [written] at inner
      rw [write, List.cons_append, List.cons_append, List.append_assoc, List.singleton_append,
        written, readValue, skipSpace_of_starts (by decide)]
      simp only [skipSpace_of_starts (show Starts '\x22' by decide)]
      split
      · next same => cases same
      · rw [inner, Option.bind_eq_bind, Option.bind_some, update_nil writable.1]

theorem readItems_write : ∀ (items : List (Json F)), items ≠ [] → WritableItems numbers items →
    ∀ fuel rest, (writeItems numbers items).length + 1 ≤ fuel →
      readItems numbers fuel (writeItems numbers items ++ ']' :: rest) = some (items, rest)
  | [item], _, writable, fuel + 1, rest, enough => by
      have first := readValue_write item writable.1 fuel (']' :: rest)
        (by simp only [writeItems] at enough; omega) (by simp [Delimits]; decide)
      rw [writeItems, readItems, first, Option.bind_eq_bind, Option.bind_some]
      rfl
  | item :: next :: items, _, writable, fuel + 1, rest, enough => by
      simp only [writeItems, List.length_append, List.length_cons] at enough
      have first := readValue_write item writable.1 fuel
        (',' :: ' ' :: (writeItems numbers (next :: items) ++ ']' :: rest))
        (by omega) (by simp [Delimits]; decide)
      have later := readItems_write (next :: items) (List.cons_ne_nil _ _) writable.2 fuel rest
        (by omega)
      have text : writeItems numbers (item :: next :: items) ++ ']' :: rest =
          write numbers item ++ ',' :: ' ' :: (writeItems numbers (next :: items) ++ ']' :: rest) := by
        simp [writeItems]
      rw [text, readItems, first, Option.bind_eq_bind, Option.bind_some]
      simp only [skipSpace_of_starts (show Starts ',' by decide), readItems_space, later]
      rfl

theorem readFields_write : ∀ (fields : List (String × Json F)), fields ≠ [] →
    WritableFields numbers fields → ∀ fuel rest,
      (writeFields numbers fields).length + 1 ≤ fuel →
      readFields numbers fuel (writeFields numbers fields ++ '\x7d' :: rest) = some (fields, rest)
  | [(name, value)], _, writable, fuel + 1, rest, enough => by
      simp only [writeFields, List.length_append, List.length_cons] at enough
      have first := readValue_write value writable.1 fuel ('\x7d' :: rest) (by omega)
        (by simp [Delimits]; decide)
      have text : writeFields numbers [(name, value)] ++ '\x7d' :: rest =
          '\x22' :: (name.toList.flatMap writeChar ++ '\x22' :: ':' :: ' ' ::
            (write numbers value ++ '\x7d' :: rest)) := by
        simp [writeFields, writeString]
      rw [text, readFields, skipSpace_of_starts (by decide)]
      simp only [readString_writeString, Option.bind_eq_bind, Option.bind_some,
        skipSpace_of_starts (show Starts ':' by decide), readValue_space, first]
      rfl
  | (name, value) :: next :: fields, _, writable, fuel + 1, rest, enough => by
      simp only [writeFields, List.length_append, List.length_cons] at enough
      have first := readValue_write value writable.1 fuel
        (',' :: ' ' :: (writeFields numbers (next :: fields) ++ '\x7d' :: rest)) (by omega)
        (by simp [Delimits]; decide)
      have later := readFields_write (next :: fields) (List.cons_ne_nil _ _) writable.2 fuel rest
        (by omega)
      have text : writeFields numbers ((name, value) :: next :: fields) ++ '\x7d' :: rest =
          '\x22' :: (name.toList.flatMap writeChar ++ '\x22' :: ':' :: ' ' ::
            (write numbers value ++ ',' :: ' ' ::
              (writeFields numbers (next :: fields) ++ '\x7d' :: rest))) := by
        simp [writeFields, writeString]
      rw [text, readFields, skipSpace_of_starts (by decide)]
      simp only [readString_writeString, Option.bind_eq_bind, Option.bind_some,
        skipSpace_of_starts (show Starts ':' by decide), readValue_space, first,
        skipSpace_of_starts (show Starts ',' by decide), readFields_space, later]

end

/-- Every written document is read back. -/
theorem parse_write {value : Json F} (writable : Writable numbers value) :
    parse numbers (write numbers value) = some value := by
  have read := readValue_write value writable ((write numbers value).length + 1) [] (Nat.le_succ _)
    (by simp [Delimits])
  rw [List.append_nil] at read
  rw [parse, read, Option.bind_eq_bind, Option.bind_some]
  rfl

theorem writableItems_map {α : Type} {f : α → Json F} (writable : ∀ a, Writable numbers (f a))
    (items : List α) : WritableItems numbers (items.map f) := by
  induction items with
  | nil => trivial
  | cons item items ih => exact ⟨writable item, ih⟩

/-! ## A document is a part of one line -/

theorem newline_writeChar (c : Char) : '\n' ∉ writeChar c := by
  simp only [writeChar]
  split_ifs with quotation backslash lineFeed carriageReturn tab formFeed backspace control
  case pos => decide
  case pos => decide
  case pos => decide
  case pos => decide
  case pos => decide
  case pos => decide
  case pos => decide
  case pos =>
    intro mem
    exact absurd (printable_unicodeEscape _ _ mem) (by decide)
  case neg =>
    rw [List.mem_singleton]
    exact fun same => lineFeed same.symm

theorem newline_writeString (s : String) : '\n' ∉ writeString s := by
  simp [writeString, newline_writeChar]

theorem newline_numeral {numeral : List Char} (inside : ∀ c ∈ numeral, c.isNumeral = true) :
    '\n' ∉ numeral := by
  intro mem
  exact absurd (inside _ mem) (by decide)

mutual

/-- The text of a document has no line break. -/
theorem newline_write : ∀ (value : Json F), Writable numbers value → '\n' ∉ write numbers value
  | null, _ => by simp [write]
  | number (.bool true), _ => by simp [write]
  | number (.bool false), _ => by simp [write]
  | number (.int n), _ => newline_numeral (numeral_toString n)
  | number (.float x), finite => newline_numeral (numbers.numeral x finite)
  | string s, _ => newline_writeString s
  | array items, writable => by
      simp [write, newline_writeItems items writable]
  | object fields, writable => by
      simp [write, newline_writeFields fields writable.2]

theorem newline_writeItems : ∀ (items : List (Json F)), WritableItems numbers items →
    '\n' ∉ writeItems numbers items
  | [], _ => List.not_mem_nil
  | [item], writable => newline_write item writable.1
  | item :: next :: items, writable => by
      simp [writeItems, newline_write item writable.1, newline_writeItems (next :: items) writable.2]

theorem newline_writeFields : ∀ (fields : List (String × Json F)), WritableFields numbers fields →
    '\n' ∉ writeFields numbers fields
  | [], _ => List.not_mem_nil
  | [(name, value)], writable => by
      simp [writeFields, newline_writeString, newline_write value writable.1]
  | (name, value) :: next :: fields, writable => by
      simp [writeFields, newline_writeString, newline_write value writable.1,
        newline_writeFields (next :: fields) writable.2]

end

end Json
