import TableScript.Grammar.Trace
import TableScript.Statement

/-!
# The grammar of statements

One statement to a line.  The word that opens a statement may be written in any
case; all other words are in capitals.  Words are separated by gaps of spaces and
tabs, and a comma in a list is followed by a gap, which may be missing only
between the two key lists of a join.
-/

namespace TableScript

namespace Grammar

def isNameChar (c : Char) : Bool := c.isAlphanum || c == '_'

def isGapChar (c : Char) : Bool := c == ' ' || c == '\t'

def gap : Grammar String := run isGapChar

def name : Grammar String := rule .name (run isNameChar)

/-- A URL: everything up to the next gap. -/
def url : Grammar String := rule .url (run fun c => !isGapChar c)

def commaSeparated {α : Type} (item : Grammar α) : Grammar (List α) :=
  (item.both (((literal ",").right (gap.right item)).many)).map fun read => read.1 :: read.2

def names : Grammar (List String) := rule .names (commaSeparated name)

def spaced (word : String) : Grammar Unit := gap.right ((literal word).left gap)

def nameAs : Grammar Projection :=
  rule .nameAs <|
    (name.both ((spaced "AS").right name).optional).map fun read =>
      ⟨read.1, read.2.getD read.1⟩

def columns : Grammar (List String) :=
  rule .columns ((literal "[").right (names.left (literal "]")))

def reference : Grammar Reference :=
  rule .reference <|
    (name.both ((literal ":").right (name.both ((literal ":").right name)))).map fun read =>
      ⟨read.1, read.2.1, read.2.2⟩

def keys : Grammar (List String × List String) :=
  rule .keys <|
    (literal "[").right <| (literal "[").right <|
      names.both <| (literal "]").right <| (literal ",").right <| gap.optional.right <|
        (literal "[").right <| names.left <| (literal "]").both (literal "]")

def projections : Grammar (List Projection) :=
  rule .projections ((literal "[").right ((commaSeparated nameAs).left (literal "]")))

def pairing : Grammar Pairing :=
  ((literal "USING").right <| gap.right <|
      keys.both ((spaced "INCLUDE").right projections).optional).map fun read =>
    ⟨read.1.1, read.1.2, read.2.getD []⟩

def call : Grammar Call :=
  rule .call <|
    (name.both ((literal "(").right (names.left (literal ")")))).map fun read =>
      ⟨read.1, read.2⟩

def expects : Grammar Statement :=
  rule .expects <|
    ((keyword "EXPECTS").right (gap.right (name.both columns))).map fun read =>
      .expects read.1 read.2

def commit : Grammar Step :=
  rule .commit <|
    ((keyword "COMMIT").right (gap.right (name.both columns.optional))).map fun read =>
      .commit read.1 read.2

def join : Grammar Step :=
  rule .join (((keyword "JOIN").right (gap.right pairing)).map .join)

def inclusion : Grammar Step :=
  rule .inclusion (((keyword "INCLUSION").right (gap.right pairing)).map .inclusion)

def accumulate : Grammar Step :=
  rule .accumulate <|
    ((keyword "ACCUMULATE").right <| gap.right <|
        name.both <| (spaced "USING").right <|
          call.both ((spaced "AS").right name).optional).map fun read =>
      .accumulate read.1 read.2.1 read.2.2

def push : Grammar Step :=
  rule .push (((keyword "PUSH").right (gap.right name)).map .push)

def pop : Grammar Step := rule .pop ((keyword "POP").map fun _ => .pop)

def duplicate : Grammar Step :=
  rule .duplicate ((keyword "DUPLICATE").map fun _ => .duplicate)

def attach : Grammar Statement :=
  rule .attach <|
    ((keyword "ATTACH").right <| gap.right <|
        url.both ((spaced "AS").right name)).map fun read =>
      .attach read.1 read.2

def pull : Grammar Step :=
  rule .pull <|
    ((keyword "PULL").right <| gap.right <|
        reference.both ((spaced "AS").right name)).map fun read =>
      .pull read.1 read.2

def invoke : Grammar Reference :=
  rule .invoke ((keyword "INVOKE").right (gap.right reference))

def ofStep (step : Grammar Step) : Grammar Statement :=
  step.map fun read => .action (.step read)

def statement : Grammar Statement :=
  rule .statement <|
    (expects.orElse <| (ofStep commit).orElse <| (ofStep join).orElse <|
      (ofStep inclusion).orElse <| (ofStep accumulate).orElse <| (ofStep push).orElse <|
      (ofStep pop).orElse <| (ofStep duplicate).orElse <| attach.orElse <|
      (ofStep pull).orElse <| invoke.map fun read => .action (.invoke read)).left
      (rule .endOfLine endOfText)

end Grammar

end TableScript
