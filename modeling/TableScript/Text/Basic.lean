/-!
# Characters and texts

What every other module needs of characters and texts.  A property of characters is a
list of closed ranges of code points in ascending order; `inRanges_iff` says that looking
through such a list only as far as the character can be decides the property.  Texts are
trimmed, and cut at every occurrence of one character or into lines.  Numerals are
integers of any size in decimal digits: how they are written, and the more lenient form
in which they are read.
-/

namespace TableScript

/-! ## Ranges of code points -/

namespace Text

/-- Whether a character lies in one of several ascending ranges. -/
def inRanges : List (Nat × Nat) → Char → Bool
  | [], _ => false
  | (first, last) :: rest, c => first ≤ c.toNat && (c.toNat ≤ last || inRanges rest c)

theorem inRanges_iff {ranges : List (Nat × Nat)} {c : Char}
    (ascending : ranges.Pairwise fun left right => left.1 ≤ right.1) :
    inRanges ranges c = true ↔ ∃ range ∈ ranges, range.1 ≤ c.toNat ∧ c.toNat ≤ range.2 := by
  induction ranges with
  | nil => simp [inRanges]
  | cons range rest ih =>
      obtain ⟨least, ascending⟩ := List.pairwise_cons.mp ascending
      simp only [inRanges, Bool.and_eq_true, Bool.or_eq_true, decide_eq_true_eq, ih ascending,
        List.mem_cons, exists_eq_or_imp]
      constructor
      · rintro ⟨low, high | found⟩
        · exact .inl ⟨low, high⟩
        · exact .inr found
      · rintro (⟨low, high⟩ | ⟨other, member, low, high⟩)
        · exact ⟨low, .inl high⟩
        · exact ⟨Nat.le_trans (least other member) low, .inr ⟨other, member, low, high⟩⟩

/-! ## Blank characters -/

/-- The characters with the Unicode property `White_Space`. -/
def blankRanges : List (Nat × Nat) :=
  [(0x9, 0xD), (0x20, 0x20), (0x85, 0x85), (0xA0, 0xA0), (0x1680, 0x1680),
    (0x2000, 0x200A), (0x2028, 0x2029), (0x202F, 0x202F), (0x205F, 0x205F),
    (0x3000, 0x3000)]

def isBlank (c : Char) : Bool := inRanges blankRanges c

theorem isBlank_iff {c : Char} :
    isBlank c = true ↔ ∃ range ∈ blankRanges, range.1 ≤ c.toNat ∧ c.toNat ≤ range.2 :=
  inRanges_iff (by decide)

def trimChars (text : List Char) : List Char :=
  ((text.dropWhile isBlank).reverse.dropWhile isBlank).reverse

/-- A text without the blank characters at its two ends. -/
def trim (text : String) : String := String.ofList (trimChars text.toList)

/-! ## Texts in pieces -/

/-- The pieces between the occurrences of `separator`; a text without any is one
piece. -/
def pieces (separator : Char) : List Char → List (List Char)
  | [] => [[]]
  | c :: rest =>
      if c = separator then [] :: pieces separator rest
      else
        match pieces separator rest with
        | [] => [[c]]
        | first :: others => (c :: first) :: others

theorem pieces_ne_nil (separator : Char) (text : List Char) :
    pieces separator text ≠ [] := by
  cases text with
  | nil => simp [pieces]
  | cons c rest =>
      simp only [pieces]
      split
      · simp
      · split <;> simp

def split (separator : Char) (text : String) : List String :=
  (pieces separator text.toList).map String.ofList

/-- A line without the carriage return that ends it. -/
def dropReturn (line : List Char) : List Char :=
  if line.getLast? = some '\r' then line.dropLast else line

/-- Pieces between line feeds as lines: a carriage return before a line feed is
part of the line end, and nothing follows a last line feed. -/
def linesOfPieces : List (List Char) → List (List Char)
  | [] => []
  | [last] => if last.isEmpty then [] else [last]
  | piece :: next :: rest => dropReturn piece :: linesOfPieces (next :: rest)

def lines (text : String) : List String :=
  (linesOfPieces (pieces '\n' text.toList)).map String.ofList

def joined (separator : String) : List String → String
  | [] => ""
  | [only] => only
  | first :: next :: rest => first ++ separator ++ joined separator (next :: rest)

end Text

/-! ## Numerals -/

namespace Numeral

/-- A number with one more decimal digit at its end. -/
def followedBy (value : Nat) (digit : Char) : Nat := 10 * value + (digit.toNat - '0'.toNat)

def natOfDigits (digits : List Char) : Nat := digits.foldl followedBy 0

def chars (value : Int) : List Char :=
  if value < 0 then '-' :: Nat.toDigits 10 value.natAbs else Nat.toDigits 10 value.natAbs

def write (value : Int) : String := String.ofList (chars value)

/-- The natural number of a digit followed by digits and underscores, of which
the underscores do not count. -/
def natural? : List Char → Option Nat
  | [] => none
  | first :: rest =>
      if first.isDigit && rest.all (fun c => c.isDigit || c == '_') then
        some (natOfDigits (first :: rest.filter Char.isDigit))
      else none

/-- The integer of a numeral with at most one sign in front. -/
def signed? : List Char → Option Int
  | '-' :: rest => (natural? rest).map fun value => -(value : Int)
  | '+' :: rest => (natural? rest).map fun value => (value : Int)
  | digits => (natural? digits).map fun value => (value : Int)

/-- The integer that a text denotes; white space around it does not count. -/
def read? (text : String) : Option Int := signed? (Text.trimChars text.toList)

end Numeral

end TableScript
