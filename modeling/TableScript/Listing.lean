import TableScript.Document.Basic
import TableScript.Error
import TableScript.Statement
import TableScript.Text.Basic

/-!
# Listings

Writing statements: one space between words, the opening word in capitals, and a
comma and a space between the items of a list.  A document is listed statement by
statement.
-/

namespace TableScript

namespace Listing

def names (columns : List String) : String := Text.joined ", " columns

/-- A column of a joined record; its name is written once if it keeps it. -/
def projection (column : Projection) : String :=
  if column.source = column.target then column.source
  else column.source ++ " AS " ++ column.target

def pairing (pairing : Pairing) : String :=
  " USING [[" ++ names pairing.leftKeys ++ "], [" ++ names pairing.rightKeys ++ "]]" ++
    match pairing.projections with
    | [] => ""
    | projections => " INCLUDE [" ++ names (projections.map projection) ++ "]"

def asName : Option String → String
  | none => ""
  | some name => " AS " ++ name

end Listing

namespace Step

def line : Step → String
  | push table => "PUSH " ++ table
  | pop => "POP"
  | duplicate => "DUPLICATE"
  | commit table none => "COMMIT " ++ table
  | commit table (some columns) => "COMMIT " ++ table ++ "[" ++ Listing.names columns ++ "]"
  | join pairing => "JOIN" ++ Listing.pairing pairing
  | inclusion pairing => "INCLUSION" ++ Listing.pairing pairing
  | accumulate column call result =>
      "ACCUMULATE " ++ column ++ " USING " ++ call.name ++
        "(" ++ Listing.names call.arguments ++ ")" ++ Listing.asName result
  | pull reference target => "PULL " ++ reference.text ++ " AS " ++ target

end Step

namespace Action

def line : Action → Except ListingError String
  | .step it => .ok it.line
  | .invoke rule => .ok ("INVOKE " ++ rule.text)
  | .unrecognized name => .error (.unrecognizedAction name)

end Action

namespace Statement

def line : Statement → Except ListingError String
  | .expects table columns => .ok ("EXPECTS " ++ table ++ "[" ++ Listing.names columns ++ "]")
  | .attach url name => .ok ("ATTACH " ++ url ++ " AS " ++ name)
  | .action it => it.line

end Statement

namespace Document

/-- The lines of a document: attachments, then expectations, then actions. -/
def listing (document : Document) : Except ListingError (List String) :=
  document.statements.mapM Statement.line

def actionLines (document : Document) : Except ListingError (List String) :=
  document.actions.mapM Action.line

end Document

end TableScript
