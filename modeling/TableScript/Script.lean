import TableScript.Error
import TableScript.Grammar.Statement
import TableScript.Text.Basic

/-!
# Scripts

A script is a text with a statement on each line.  Lines are trimmed, and lines
that are then empty or begin with `#` are passed over without disturbing the
numbers of the others.  The first line that is no statement refuses the whole
script.
-/

namespace TableScript

namespace Statement

def parseAt (line : Nat) (text : String) : Except SyntaxError Statement :=
  match Grammar.statement.parse text.toList with
  | some (statement, _) => .ok statement
  | none =>
      let noted := Grammar.statement.trace 0 text.toList .start
      .error ⟨line, text, noted.furthest, noted.failed⟩

def parse (text : String) : Except SyntaxError Statement := parseAt 1 text

end Statement

namespace Script

/-- Items with their numbers, from `first` on. -/
def numbered {α : Type} (first : Nat) : List α → List (Nat × α)
  | [] => []
  | item :: rest => (first, item) :: numbered (first + 1) rest

def isStatement (line : String) : Bool :=
  match line.toList with
  | [] => false
  | c :: _ => c != '#'

/-- The statements of a script, trimmed, with the numbers of their lines. -/
def numberedLines (script : String) : List (Nat × String) :=
  ((numbered 1 (Text.lines script)).map fun line => (line.1, Text.trim line.2)).filter
    fun line => isStatement line.2

def parseLines : List (Nat × String) → Except SyntaxError (List Statement)
  | [] => .ok []
  | (number, text) :: rest => do
      let statement ← Statement.parseAt number text
      let others ← parseLines rest
      return statement :: others

def parse (script : String) : Except SyntaxError (List Statement) :=
  parseLines (numberedLines script)

/-- The lines that are tried when numbered lines are read: all of them, or those
up to the one that is refused. -/
def tried {α : Type} (lines : List (Nat × String)) : Except SyntaxError α → List String
  | .ok _ => lines.map Prod.snd
  | .error error => (lines.takeWhile fun line => line.1 ≤ error.line).map Prod.snd

end Script

end TableScript
