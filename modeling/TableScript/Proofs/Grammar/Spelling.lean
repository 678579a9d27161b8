import TableScript.Grammar.Statement
import TableScript.Proofs.Grammar.Language

/-!
# How statements are spelled

The language of a statement, given without the grammar that reads it.  A line is the
keyword of the statement in any case and its operands; `AS`, `USING` and `INCLUDE`
are in capitals between two gaps, a gap is some spaces and tabs, and the items of a
list are parted by a comma and a gap.  Only between the two key lists of a pairing
may the gap be missing.
-/

namespace TableScript

namespace Spelling

def word (text : String) : Language Char := {text.toList}

def gap : Language Char := {text | text ≠ [] ∧ ∀ c ∈ text, c = ' ' ∨ c = '\t'}

/-- Whether a string is a name: some letters, digits and underscores. -/
def IsName (value : String) : Prop :=
  value.toList ≠ [] ∧ ∀ c ∈ value.toList, c.isAlphanum = true ∨ c = '_'

/-- Whether a string can stand as a URL: some characters other than spaces and
tabs. -/
def IsUrl (value : String) : Prop :=
  value.toList ≠ [] ∧ ∀ c ∈ value.toList, c ≠ ' ' ∧ c ≠ '\t'

def name (value : String) : Language Char := {text | text = value.toList ∧ IsName value}

def url (value : String) : Language Char := {text | text = value.toList ∧ IsUrl value}

def separated {α : Type} (item : α → Language Char) : List α → Language Char
  | [] => 0
  | first :: rest => item first * (rest.map fun next => word "," * gap * item next).prod

def names : List String → Language Char := separated name

def spaced (text : String) : Language Char := gap * word text * gap

def columns (listed : List String) : Language Char := word "[" * names listed * word "]"

def columnsIfAny : Option (List String) → Language Char
  | none => 1
  | some listed => columns listed

def asName : Option String → Language Char
  | none => 1
  | some target => spaced "AS" * name target

/-- A column and the name it is given, which may be left out where it is the same. -/
def projection (column : Projection) : Language Char :=
  name column.source * spaced "AS" * name column.target +
    if column.source = column.target then name column.source else 0

/-- The clause that lists the columns of the result, unless there are none. -/
def includes : List Projection → Language Char
  | [] => 1
  | listed => spaced "INCLUDE" * word "[" * separated projection listed * word "]"

def keys (left right : List String) : Language Char :=
  word "[" * word "[" * names left * word "]" * word "," * (1 + gap) *
    word "[" * names right * word "]" * word "]"

def pairing (it : Pairing) : Language Char :=
  spaced "USING" * keys it.leftKeys it.rightKeys * includes it.projections

def reference (it : Reference) : Language Char :=
  name it.space * word ":" * name it.name * word ":" * name it.version

def call (it : Call) : Language Char := name it.name * word "(" * names it.arguments * word ")"

end Spelling

namespace Step

def keyword : Step → String
  | push _ => "PUSH"
  | pop => "POP"
  | duplicate => "DUPLICATE"
  | commit _ _ => "COMMIT"
  | join _ => "JOIN"
  | inclusion _ => "INCLUSION"
  | accumulate _ _ _ => "ACCUMULATE"
  | pull _ _ => "PULL"

def operands : Step → Language Char
  | push table => Spelling.gap * Spelling.name table
  | pop => 1
  | duplicate => 1
  | commit table columns => Spelling.gap * Spelling.name table * Spelling.columnsIfAny columns
  | join pairing => Spelling.pairing pairing
  | inclusion pairing => Spelling.pairing pairing
  | accumulate column call result =>
      Spelling.gap * Spelling.name column * Spelling.spaced "USING" * Spelling.call call *
        Spelling.asName result
  | pull reference target =>
      Spelling.gap * Spelling.reference reference * Spelling.spaced "AS" * Spelling.name target

end Step

namespace Statement

/-- The keyword of a statement; an action that the language does not know has
none. -/
def keyword : Statement → String
  | expects _ _ => "EXPECTS"
  | attach _ _ => "ATTACH"
  | action (.step step) => step.keyword
  | action (.invoke _) => "INVOKE"
  | action (.unrecognized _) => ""

/-- What stands behind the keyword of a statement; nothing spells an action that the
language does not know. -/
def operands : Statement → Language Char
  | expects table columns => Spelling.gap * Spelling.name table * Spelling.columns columns
  | attach url name =>
      Spelling.gap * Spelling.url url * Spelling.spaced "AS" * Spelling.name name
  | action (.step step) => step.operands
  | action (.invoke rule) => Spelling.gap * Spelling.reference rule
  | action (.unrecognized _) => 0

def spellings (statement : Statement) : Language Char :=
  Grammar.anyCase statement.keyword * statement.operands

/-- Whether a line spells a statement. -/
def Spells (statement : Statement) (line : String) : Prop :=
  line.toList ∈ statement.spellings

end Statement

end TableScript
