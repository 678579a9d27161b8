import TableScript.Json.Value

/-!
# Reading JSON

A JSON text is a sequence of tokens with white space between them.  `tokens` takes
a text apart as far as it consists of tokens.  No token begins an unknown word, a
number in another form than JSON's, or a string with a raw control character, an
unknown escape or half a surrogate pair.

The tokens of a text are put together by a machine whose stack holds the arrays
and objects that are still open.  It is either about to read a value or has just
read one, takes one step for every token, and stops where its value ends.

A text is refused if it is no JSON, or if more than `maxDepth` arrays and objects
stand open at once.  Where an object names a member twice, the member keeps its
first place and takes its last value.
-/

namespace TableScript

/-! ## Tokens -/

namespace Json

inductive Token where
  | openArray
  | closeArray
  | openObject
  | closeObject
  | colon
  | comma
  | quoted (content : String)
  /-- `null`, `true`, `false` or a number -/
  | atom (value : Value)
  /-- the rest of a text that does not begin with a token -/
  | unreadable

namespace Token

def isSpace (c : Char) : Bool := c = ' ' || c = '\t' || c = '\n' || c = '\r'

def hexDigit? (c : Char) : Option Nat :=
  if '0' ≤ c && c ≤ '9' then some (c.toNat - '0'.toNat)
  else if 'a' ≤ c && c ≤ 'f' then some (c.toNat - 'a'.toNat + 10)
  else if 'A' ≤ c && c ≤ 'F' then some (c.toNat - 'A'.toNat + 10)
  else none

def hexUnit? (a b c d : Char) : Option Nat := do
  let digits ← [a, b, c, d].mapM hexDigit?
  return digits.foldl (fun value digit => 16 * value + digit) 0

def ofSurrogates? (high low : Nat) : Option Char :=
  if 0xD800 ≤ high && high < 0xDC00 && 0xDC00 ≤ low && low < 0xE000 then
    some (Char.ofNat (0x10000 + (high - 0xD800) * 1024 + (low - 0xDC00)))
  else none

def ofUnit? (unit : Nat) : Option Char :=
  if 0xD800 ≤ unit && unit < 0xE000 then none else some (Char.ofNat unit)

/-- The character behind a backslash, where it is a single letter. -/
def ofEscape? : Char → Option Char
  | '"' => some '"'
  | '\\' => some '\\'
  | '/' => some '/'
  | 'b' => some '\x08'
  | 'f' => some '\x0c'
  | 'n' => some '\n'
  | 'r' => some '\r'
  | 't' => some '\t'
  | _ => none

/-- Read one `\u` escape as the unit it denotes. -/
def unit? : List Char → Option (Nat × List Char)
  | '\\' :: 'u' :: a :: b :: c :: d :: rest => (hexUnit? a b c d).map fun unit => (unit, rest)
  | _ => none

def escape? (text : List Char) : Option (Char × List Char) :=
  match unit? text with
  | some (unit, rest) =>
      match ofUnit? unit with
      | some plain => some (plain, rest)
      | none =>
          match unit? rest with
          | some (low, rest) => (ofSurrogates? unit low).map fun pair => (pair, rest)
          | none => none
  | none =>
      match text with
      | _ :: letter :: rest => (ofEscape? letter).map fun plain => (plain, rest)
      | _ => none

def character? : List Char → Option (Char × List Char)
  | [] => none
  | c :: rest =>
      if c = '\\' then escape? (c :: rest)
      else if c.toNat < 0x20 then none
      else some (c, rest)

theorem unit?_shorter {text rest : List Char} {unit : Nat}
    (read : unit? text = some (unit, rest)) : rest.length < text.length := by
  fun_cases unit? text <;> simp_all [unit?]
  grind

theorem escape?_shorter {text rest : List Char} {c : Char}
    (read : escape? text = some (c, rest)) : rest.length < text.length := by
  unfold escape? at read
  split at read
  · next unit tail first =>
      have shorter := unit?_shorter first
      split at read
      · simp_all
      · split at read
        · next second =>
            have := unit?_shorter second
            simp only [Option.map_eq_some_iff, Prod.mk.injEq] at read
            obtain ⟨_, _, _, rfl⟩ := read
            omega
        · simp at read
  · split at read
    · simp only [Option.map_eq_some_iff, Prod.mk.injEq] at read
      obtain ⟨_, _, _, rfl⟩ := read
      simp only [List.length_cons]
      omega
    · simp at read

theorem character?_shorter {text rest : List Char} {c : Char}
    (read : character? text = some (c, rest)) : rest.length < text.length := by
  cases text with
  | nil => simp [character?] at read
  | cons head tail =>
      simp only [character?] at read
      split at read
      · exact escape?_shorter read
      · split at read <;> simp_all

/-- Read the inside of a string up to and with its closing quote. -/
def content? (text : List Char) : Option (List Char × List Char) :=
  match text with
  | '"' :: rest => some ([], rest)
  | text =>
      match _read : character? text with
      | none => none
      | some (c, rest) => (content? rest).map fun found => (c :: found.1, found.2)
termination_by text.length
decreasing_by exact character?_shorter (by assumption)

theorem content?_shorter {text rest content : List Char}
    (read : content? text = some (content, rest)) : rest.length < text.length := by
  fun_induction content? text generalizing content with
  | case1 tail => simp_all
  | case2 text other failed => simp at read
  | case3 text other c tail first ih =>
      have shorter := character?_shorter first
      simp only [Option.map_eq_some_iff, Prod.mk.injEq] at read
      obtain ⟨⟨found, left⟩, second, _, rfl⟩ := read
      have := ih second
      omega

/-- Read the digits of a number's whole part: some digit, and no zero before
another. -/
def whole? (text : List Char) : Option (List Char × List Char) :=
  let digits := text.takeWhile Char.isDigit
  if digits.isEmpty || (digits.head? == some '0' && digits.length != 1) then none
  else some (digits, text.dropWhile Char.isDigit)

def fraction? : List Char → Option (Option (List Char) × List Char)
  | '.' :: rest =>
      if (rest.takeWhile Char.isDigit).isEmpty then none
      else some (some (rest.takeWhile Char.isDigit), rest.dropWhile Char.isDigit)
  | text => some (none, text)

def power? (negative : Bool) (text : List Char) : Option (Option Int × List Char) :=
  let digits := text.takeWhile Char.isDigit
  if digits.isEmpty then none
  else
    let magnitude : Int := Numeral.natOfDigits digits
    some (some (if negative then -magnitude else magnitude), text.dropWhile Char.isDigit)

def exponent? : List Char → Option (Option Int × List Char)
  | c :: rest =>
      if c = 'e' || c = 'E' then
        match rest with
        | '-' :: rest => power? true rest
        | '+' :: rest => power? false rest
        | rest => power? false rest
      else some (none, c :: rest)
  | [] => some (none, [])

/-- Read a number whose sign has been read. -/
def unsigned? (negative : Bool) (text : List Char) : Option (Number × List Char) := do
  let (whole, afterWhole) ← whole? text
  let (fraction, afterFraction) ← fraction? afterWhole
  let (exponent, rest) ← exponent? afterFraction
  let number ← Number.ofParts? ⟨negative, whole, fraction, exponent⟩
  return (number, rest)

def number? : List Char → Option (Number × List Char)
  | '-' :: rest => unsigned? true rest
  | text => unsigned? false text

theorem length_dropWhile_le (p : Char → Bool) (text : List Char) :
    (text.dropWhile p).length ≤ text.length :=
  (List.dropWhile_sublist p).length_le

theorem whole?_shorter {text rest digits : List Char}
    (read : whole? text = some (digits, rest)) : rest.length < text.length := by
  cases text with
  | nil => simp [whole?] at read
  | cons c tail =>
      simp only [whole?] at read
      split at read
      · simp at read
      · next some_digit =>
          simp only [Option.some.injEq, Prod.mk.injEq] at read
          obtain ⟨_, rfl⟩ := read
          by_cases digit : c.isDigit
          · have := length_dropWhile_le Char.isDigit tail
            simp only [List.dropWhile_cons, digit, if_true, List.length_cons]
            omega
          · simp [digit] at some_digit

theorem fraction?_le {text rest : List Char} {fraction : Option (List Char)}
    (read : fraction? text = some (fraction, rest)) : rest.length ≤ text.length := by
  unfold fraction? at read
  split at read
  · next tail =>
      split at read
      · simp at read
      · simp only [Option.some.injEq, Prod.mk.injEq] at read
        obtain ⟨_, rfl⟩ := read
        have := length_dropWhile_le Char.isDigit tail
        simp only [List.length_cons]
        omega
  · simp_all

theorem power?_le {negative : Bool} {text rest : List Char} {power : Option Int}
    (read : power? negative text = some (power, rest)) : rest.length ≤ text.length := by
  simp only [power?] at read
  split at read
  · simp at read
  · simp only [Option.some.injEq, Prod.mk.injEq] at read
    obtain ⟨_, rfl⟩ := read
    exact length_dropWhile_le Char.isDigit text

theorem exponent?_le {text rest : List Char} {exponent : Option Int}
    (read : exponent? text = some (exponent, rest)) : rest.length ≤ text.length := by
  unfold exponent? at read
  split at read
  · split at read
    · split at read <;>
        · have := power?_le read
          simp only [List.length_cons]
          omega
    · simp_all
  · simp_all

theorem unsigned?_shorter {negative : Bool} {text rest : List Char} {number : Number}
    (read : unsigned? negative text = some (number, rest)) : rest.length < text.length := by
  simp only [unsigned?, bind, Option.bind_eq_some_iff, pure, Option.some.injEq,
    Prod.mk.injEq] at read
  obtain ⟨⟨_, _⟩, whole, ⟨_, _⟩, fraction, ⟨_, _⟩, exponent, _, _, _, rfl⟩ := read
  have first := whole?_shorter whole
  have second := fraction?_le fraction
  have third := exponent?_le exponent
  simp only at second third ⊢
  omega

theorem number?_shorter {text rest : List Char} {number : Number}
    (read : number? text = some (number, rest)) : rest.length < text.length := by
  unfold number? at read
  split at read
  · have := unsigned?_shorter read
    simp only [List.length_cons]
    omega
  · exact unsigned?_shorter read

/-- Read one token from a text that does not begin with white space. -/
def token? : List Char → Option (Token × List Char)
  | '[' :: rest => some (.openArray, rest)
  | ']' :: rest => some (.closeArray, rest)
  | '\x7b' :: rest => some (.openObject, rest)
  | '\x7d' :: rest => some (.closeObject, rest)
  | ':' :: rest => some (.colon, rest)
  | ',' :: rest => some (.comma, rest)
  | '"' :: rest =>
      (content? rest).map fun found => (.quoted (String.ofList found.1), found.2)
  | 'n' :: 'u' :: 'l' :: 'l' :: rest => some (.atom .null, rest)
  | 't' :: 'r' :: 'u' :: 'e' :: rest => some (.atom (.bool true), rest)
  | 'f' :: 'a' :: 'l' :: 's' :: 'e' :: rest => some (.atom (.bool false), rest)
  | text => (number? text).map fun found => (.atom (.number found.1), found.2)

theorem token?_shorter {text rest : List Char} {token : Token}
    (read : token? text = some (token, rest)) : rest.length < text.length := by
  unfold token? at read
  split at read
  case h_7 tail =>
    simp only [Option.map_eq_some_iff, Prod.mk.injEq] at read
    obtain ⟨⟨_, left⟩, inside, _, rfl⟩ := read
    have := content?_shorter inside
    simp only [List.length_cons]
    omega
  case h_11 =>
    simp only [Option.map_eq_some_iff, Prod.mk.injEq] at read
    obtain ⟨⟨_, left⟩, inside, _, rfl⟩ := read
    exact number?_shorter inside
  all_goals
    simp only [Option.some.injEq, Prod.mk.injEq] at read
    obtain ⟨_, rfl⟩ := read
    simp only [List.length_cons]
    omega

/-- The tokens of a text, up to a place where no token begins. -/
def tokens (text : List Char) : List Token :=
  match text with
  | [] => []
  | c :: rest =>
      if isSpace c then tokens rest
      else
        match _read : token? (c :: rest) with
        | none => [.unreadable]
        | some (token, left) => token :: tokens left
termination_by text.length
decreasing_by
  · simp
  · exact token?_shorter (by assumption)

end Token

/-! ## Values -/

/-- An array or object that is still open: what it holds so far and, in an
object, the name of the member being read. -/
inductive Frame where
  | array (itemsReversed : List Value)
  | object (members : OrderedMap Value) (name : String)

def maxDepth : Nat := 127

mutual

/-- Read a value inside the frames of `stack`, the innermost first, and the tokens
behind the outermost one. -/
def readValue (stack : List Frame) : List Token → Option (Value × List Token)
  | [] => none
  | .quoted content :: rest => resume (.string content) stack rest
  | .atom value :: rest => resume value stack rest
  | .openArray :: .closeArray :: rest =>
      if stack.length < maxDepth then resume (.array []) stack rest else none
  | .openArray :: rest =>
      if stack.length < maxDepth then readValue (.array [] :: stack) rest else none
  | .openObject :: .closeObject :: rest =>
      if stack.length < maxDepth then resume (.object .empty) stack rest else none
  | .openObject :: .quoted name :: .colon :: rest =>
      if stack.length < maxDepth then readValue (.object .empty name :: stack) rest else none
  | _ :: _ => none

/-- Go on after a value: put it into the innermost open frame. -/
def resume (value : Value) : List Frame → List Token → Option (Value × List Token)
  | [], rest => some (value, rest)
  | .array items :: outer, .comma :: rest => readValue (.array (value :: items) :: outer) rest
  | .array items :: outer, .closeArray :: rest =>
      resume (.array (value :: items).reverse) outer rest
  | .object members name :: outer, .comma :: .quoted next :: .colon :: rest =>
      readValue (.object (members.insert name value) next :: outer) rest
  | .object members name :: outer, .closeObject :: rest =>
      resume (.object (members.insert name value)) outer rest
  | _, _ => none

end

/-- The value at the beginning of a text, and the tokens behind it. -/
def parseFirst? (text : String) : Option (Value × List Token) :=
  readValue [] (Token.tokens text.toList)

def parse? (text : String) : Option Value :=
  match parseFirst? text with
  | some (value, []) => some value
  | _ => none

theorem parse?_eq_some_iff {text : String} {value : Value} :
    parse? text = some value ↔ parseFirst? text = some (value, []) := by
  unfold parse?
  split <;> simp_all

end Json

end TableScript
