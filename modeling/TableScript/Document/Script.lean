import TableScript.Document.Merge
import TableScript.Error
import TableScript.Event
import TableScript.Rule
import TableScript.Script

/-!
# Documents and rules from scripts

A script is read line by line, its statements are put together to a document, and
the document is interpreted as a rule.
-/

namespace TableScript

namespace Document

def ofStatements (statements : List Statement) : Except DocumentError Document :=
  (Draft.ofStatements statements).document

def parseLines (lines : List (Nat × String)) : Except Error Document :=
  match Script.parseLines lines with
  | .error error => .error (.parse error)
  | .ok statements => (ofStatements statements).mapError .document

/-- The document of lines that are all statements, numbered from 1. -/
def ofLines (lines : List String) : Except Error Document :=
  parseLines (Script.numbered 1 lines)

def parseScript (script : String) : Except Error Document :=
  parseLines (Script.numberedLines script)

end Document

namespace Rule

def compile (script : String) : Except Error Rule :=
  (Document.parseScript script).map ofDocument

end Rule

namespace Event

def ofCompiling (script : String) : List Event :=
  ofParsing (Script.numberedLines script) ++
    match Document.parseScript script with
    | .ok document => ofInterpreting document
    | .error _ => []

end Event

end TableScript
