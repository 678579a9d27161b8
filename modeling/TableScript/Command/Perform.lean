import TableScript.Command.Basic
import TableScript.Command.Task
import TableScript.Execution.Run
import TableScript.Listing
import TableScript.Text.Basic
import TableScript.Text.Erasing

/-!
# Performing commands

What a command writes, and what it exits with: 0, or 1 if it fails.
-/

namespace TableScript

structure Outcome where
  exitCode : UInt32
  output : String
  errors : String
  events : List Event

namespace Commit

def toJson (commit : Commit) : Json.Value :=
  .ofMembers [("table", .string commit.table), ("records", commit.records.toJson)]

end Commit

namespace Repl

/-- What is written for a statement: the fragment that it contributes, or why it is
refused. -/
def answer (statement : String) : String :=
  match Statement.parse statement with
  | .ok statement => statement.fragment.toJson.compact
  | .error error => s!"Error: {error.message}"

/-- The statement in a line of the input, in which backspaces have erased and the
ends are trimmed. -/
def statement (line : String) : String := Text.trim (String.ofList (Text.erased line.toList))

/-- What is written for a line of the input.  Empty lines and comments have no
answer. -/
def answer? (line : String) : Option String :=
  if Script.isStatement (statement line) then some (answer (statement line)) else none

def events (line : String) : List Event :=
  if Script.isStatement (statement line) then Event.ofParsing [(1, statement line)] else []

end Repl

namespace Command

def terminated (lines : List String) : String := Text.joined "" (lines.map (· ++ "\n"))

def runTask (file : String) (bindings : Option String) : Task String := do
  let document ← Task.document file
  Task.tell (Event.ofInterpreting document)
  let rule := Rule.ofDocument document
  let tables ← match bindings with
    | some path => Task.bindings path
    | none => pure .empty
  let directory ← Task.directoryFor (Task.directoryOf file) rule
  let (result, context) := (Context.new directory.connector).execute rule tables
  Task.tell context.events
  let output ← Task.ofExcept (fun error => .error (.execution error)) result
  return (Json.Value.array (output.map Commit.toJson)).pretty ++ "\n"

def task (input : String) : Command → Task String
  | parse file => do
      return (← Task.document file).toJson.pretty ++ "\n"
  | unparse file => do
      let document ← Task.document file
      let lines ← Task.ofExcept (fun error => .error (.listing error)) document.listing
      return terminated lines
  | run file bindings => runTask file bindings
  | repl => do
      let lines := Text.lines input
      Task.tell (lines.flatMap Repl.events)
      return terminated (lines.filterMap Repl.answer?)

def perform (command : Command) (input : String) : Reading Outcome := do
  match ← (command.task input).run with
  | (.ok output, events) => return ⟨0, output, "", events⟩
  | (.error failure, events) => return ⟨1, "", failure.report, events⟩

end Command

end TableScript
