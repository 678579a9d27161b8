import TableScript.Files.Basic
import TableScript.Grammar.Basic
import TableScript.Statement
import TableScript.Text.Basic
import TableScript.Text.Quoted
import TableScript.Tree.Basic

/-!
# Errors

Everything that can go wrong between a text and committed tables, and what is said
about it.

A statement that the grammar does not read is reported with the line it stands
on, the furthest position at which a part of it failed, and the parts that could
have stood there.  The position is shown as a row and a column inside the
statement, since the text of a statement may itself contain line feeds.
-/

namespace TableScript

/-! ## Refused statements -/

/-- Why a statement is refused. -/
structure SyntaxError where
  /-- the number of the line in its script, from 1 -/
  line : Nat
  statement : String
  /-- how many characters stand before the failure -/
  position : Nat
  expected : List Production
deriving DecidableEq, Repr

namespace SyntaxError

def before (error : SyntaxError) : List Char := error.statement.toList.take error.position

def after (error : SyntaxError) : List Char := error.statement.toList.drop error.position

/-- The part of the failure's row that stands before it. -/
def rowStart (error : SyntaxError) : List Char :=
  (error.before.reverse.takeWhile (· != '\n')).reverse

def row (error : SyntaxError) : Nat := error.before.count '\n' + 1

def column (error : SyntaxError) : Nat := error.rowStart.length + 1

/-- The text of the failure's row, with the line feed that ends it. -/
def rowText (error : SyntaxError) : List Char :=
  error.rowStart ++ error.after.takeWhile (· != '\n') ++
    (error.after.dropWhile (· != '\n')).take 1

/-- A character in the display of a row whose failure is at a line end. -/
def visible (c : Char) : Char :=
  match c with
  | '\r' => '␍'
  | '\n' => '␊'
  | c => c

/-- The failure's row as it is displayed.  Line ends are left out, except where
the failure is at one. -/
def displayedRow (error : SyntaxError) : List Char :=
  if error.after.head? = some '\n' ∨ error.after.head? = some '\r' then
    error.rowText.map visible
  else error.rowText.filter fun c => c != '\r' && c != '\n'

/-- What stands below the displayed row: blanks up to the failure, a tab staying a
tab, and a mark. -/
def underline (error : SyntaxError) : List Char :=
  ((error.displayedRow.take (error.column - 1)).map fun c => if c = '\t' then '\t' else ' ') ++
    ['^', '-', '-', '-']

def alternatives : List String → String
  | [] => ""
  | [only] => only
  | [first, second] => s!"{first} or {second}"
  | first :: rest =>
      Text.joined ", " (first :: rest.dropLast) ++ ", or " ++ rest.getLast?.getD ""

/-- The words for the expected parts, in the order of the productions and each
one once. -/
def expectedWords (error : SyntaxError) : List String :=
  (Production.all.filter (error.expected.contains ·)).map Production.label

def picture (error : SyntaxError) : String :=
  let row := toString error.row
  let margin := String.ofList (List.replicate row.length ' ')
  Text.joined "\n"
    [s!"{margin}--> {row}:{error.column}",
      s!"{margin} |",
      s!"{row} | {String.ofList error.displayedRow}",
      s!"{margin} | {String.ofList error.underline}",
      s!"{margin} |",
      s!"{margin} = expected {alternatives error.expectedWords}"]

def message (error : SyntaxError) : String :=
  s!"line {error.line}: failed to parse `{error.statement}`: {error.picture}"

end SyntaxError

/-! ## Documents -/

inductive DocumentError where
  /-- A field that an action, or a part of one, must have is absent. -/
  | missingField (action field : String)
  /-- A field holds a value of another kind than it should; `found` is the kind
  of the node that was looked at, where there was one. -/
  | wrongKind (field expected : String) (found : Option Kind)
  /-- A JSON value that no node stands for. -/
  | unsupportedValue (value : String)
  /-- The text is no JSON. -/
  | malformedJson
deriving DecidableEq, Repr

namespace DocumentError

def message : DocumentError → String
  | missingField action field => s!"action `{action}` is missing field `{field}`"
  | wrongKind field expected _ => s!"field `{field}` should be {expected}"
  | unsupportedValue value => s!"unsupported value: {value}"
  | malformedJson => "JSON error: malformed text"

end DocumentError

/-! ## Registries -/

inductive FetchError where
  /-- The registry in memory holds no such table. -/
  | noTable (url : String) (reference : Reference)
  /-- A directory serves files only. -/
  | unsupportedScheme (scheme : String)
  | unreadable (path : String) (fault : FileFault)
  | invalidJson (path : String)
  | invalidTable (path : String) (error : DocumentError)
  /-- What any other client says. -/
  | told (message : String) (cause? : Option String)
deriving DecidableEq, Repr

namespace FetchError

/-- The text of an error, without its cause. -/
def message : FetchError → String
  | noTable url reference => s!"no table {reference.text} at {url}"
  | unsupportedScheme scheme => s!"unsupported URL scheme: {scheme}"
  | unreadable path _ => s!"cannot read {path}"
  | invalidJson path => s!"invalid JSON in {path}"
  | invalidTable path _ => s!"invalid table in {path}"
  | told message _ => message

def cause? : FetchError → Option String
  | noTable _ _ => none
  | unsupportedScheme _ => none
  | unreadable _ fault => some fault.message
  | invalidJson _ => some DocumentError.malformedJson.message
  | invalidTable _ error => some error.message
  | told _ cause? => cause?

end FetchError

/-! ## Execution -/

inductive ExecutionError where
  | stackUnderflow (action : String) (needed available : Nat)
  | unknownTable (name : String)
  | missingColumn (column : String)
  /-- The two key lists of a join differ in length. -/
  | mismatchedKeys (action : String) (left right : Nat)
  | unknownFunction (name : String)
  | notANumber (column value : String)
  /-- No repository is attached. -/
  | unknownRepository (space : String)
  /-- Several repositories are attached and none has the name that is asked for. -/
  | ambiguousRepository (space : String)
  | repositoryFetch (url : String) (error : FetchError)
deriving DecidableEq, Repr

namespace ExecutionError

def message : ExecutionError → String
  | stackUnderflow action needed available =>
      s!"stack underflow in `{action}`: needs {needed} frame(s), {available} available"
  | unknownTable name => s!"unknown table: {name}"
  | missingColumn column => s!"missing column: {column}"
  | mismatchedKeys action left right =>
      s!"`{action}` pairs {left} left key(s) with {right} right key(s)"
  | unknownFunction name => s!"unknown function: {name}"
  | notANumber column value =>
      s!"value {Text.quoted value} in column `{column}` is not a number"
  | unknownRepository space => s!"no repository attached for namespace `{space}`"
  | ambiguousRepository space =>
      s!"namespace `{space}` matches no repository name and several repositories are attached"
  | repositoryFetch url error => s!"failed to fetch from repository {url}: {error.message}"

end ExecutionError

/-! ## Listings -/

inductive ListingError where
  /-- The action has a name that the language does not know. -/
  | unrecognizedAction (name : String)
deriving DecidableEq, Repr

namespace ListingError

def message : ListingError → String
  | unrecognizedAction name => s!"no surface syntax for action `{name}`"

end ListingError

/-! ## All layers -/

inductive Error where
  | parse (error : SyntaxError)
  | document (error : DocumentError)
  | listing (error : ListingError)
  | execution (error : ExecutionError)
deriving DecidableEq, Repr

namespace Error

def detail : Error → String
  | parse error => error.message
  | document error => error.message
  | listing error => error.message
  | execution error => error.message

def layer : Error → String
  | parse _ => "parse"
  | document _ => "document"
  | listing _ => "unparse"
  | execution _ => "execution"

def message (error : Error) : String := s!"{error.layer} error: {error.detail}"

end Error

end TableScript
