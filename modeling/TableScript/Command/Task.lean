import TableScript.Document.Script
import TableScript.Error
import TableScript.Execution.Context
import TableScript.Files.Basic
import TableScript.Registry.Directory
import TableScript.Text.Basic

/-!
# Tasks

The tasks that commands are made of load files: they may ask for files, tell events and
fail.  A failure is reported with what went wrong and the chain of causes.  A single
cause is indented by four spaces; several ones are numbered from 0, and the lines
of each begin below its first one.
-/

namespace TableScript

/-! ## Failures -/

inductive Failure where
  | error (error : Error)
  | unreadable (path : String) (fault : FileFault)
  /-- a file of records that is bound to a name -/
  | records (error : FetchError)
  | bindingsKind (path : String)
  | bindingKind (path name : String)
deriving DecidableEq, Repr

namespace Failure

def message : Failure → String
  | error it => it.detail
  | unreadable path _ => s!"cannot read {path}"
  | records it => it.message
  | bindingsKind path => s!"{path}: bindings must be a JSON object"
  | bindingKind path name => s!"{path}: binding `{name}` must name a file"

/-- The chain of causes, the nearest one first. -/
def causes : Failure → List String
  | error (.parse it) => [it.picture]
  | error (.execution (.repositoryFetch _ it)) => it.message :: it.cause?.toList
  | error _ => []
  | unreadable _ fault => [fault.message]
  | records it => it.cause?.toList
  | bindingsKind _ => []
  | bindingKind _ _ => []

/-- A text behind a label, its further lines behind a margin. -/
def indented (label margin text : String) : String :=
  match Text.split '\n' text with
  | [] => label
  | first :: rest => Text.joined "\n" ((label ++ first) :: rest.map (margin ++ ·))

/-- The causes as they are reported, from a number on. -/
def numbered (number : Nat) : List String → List String
  | [] => []
  | cause :: rest => indented s!"    {number}: " "       " cause :: numbered (number + 1) rest

def causeLines : List String → List String
  | [] => []
  | [only] => ["", "Caused by:", indented "    " "    " only]
  | several => "" :: "Caused by:" :: numbered 0 several

def report (failure : Failure) : String :=
  Text.joined "\n" (s!"Error: {failure.message}" :: causeLines failure.causes) ++ "\n"

end Failure

/-! ## Loading files -/

abbrev Task := ExceptT Failure (StateT (List Event) Reading)

namespace Task

def tell (events : List Event) : Task Unit := modify (· ++ events)

def ofExcept {α ε : Type} (failure : ε → Failure) : Except ε α → Task α
  | .ok value => pure value
  | .error error => throw (failure error)

def answer (path : String) : Task (Except FileFault String) :=
  ExceptT.lift (StateT.lift (Reading.file path))

def text (path : String) : Task String := do
  ofExcept (.unreadable path) (← answer path)

/-- The document in a file, which is JSON if the extension of the file is `json`
and a script otherwise. -/
def document (path : String) : Task Document := do
  let text ← text path
  if FilePath.extension? path = some "json" then
    let result := Document.parseJson text
    tell (Event.ofDecoding result)
    ofExcept (fun error => .error (.document error)) result
  else
    tell (Event.ofParsing (Script.numberedLines text))
    ofExcept .error (Document.parseScript text)

def table (path : String) : Task Table := do
  ofExcept .records (Table.ofFile path (← answer path))

/-- The directory of a file; a path without one means the working directory. -/
def directoryOf (path : String) : String := (FilePath.parent? path).getD "."

/-- The tables of a bindings file, which is a JSON object.  Its values are the
paths of files of records, which start from the directory of the bindings
file. -/
def bindings (path : String) : Task Bindings := do
  match Json.parse? (← text path) with
  | none => throw (.error (.document .malformedJson))
  | some value =>
      match value.members? with
      | none => throw (.bindingsKind path)
      | some members => do
          let tables ← members.toList.mapM fun member => do
            match member.2.text? with
            | none => throw (.bindingKind path member.1)
            | some file => return (member.1, ← table (FilePath.join (directoryOf path) file))
          return OrderedMap.ofList tables

/-- The paths of the tables that a rule may pull from directories. -/
def pulledPaths (base : String) (rule : Rule) : List String :=
  rule.steps.filterMap fun step =>
    match step with
    | .pull reference _ =>
        match rule.urlFor reference.space with
        | .ok url =>
            (Directory.rootOf base url).toOption.map (Directory.tablePath · reference)
        | .error _ => none
    | _ => none

/-- A directory as far as a rule may ask for its files. -/
def directoryFor (base : String) (rule : Rule) : Task Directory := do
  let answers ← ExceptT.lift (StateT.lift (Reading.files (pulledPaths base rule)))
  return ⟨base, fun path => (answers.lookup path).getD (.error .notFound)⟩

def run {α : Type} (task : Task α) : Reading (Except Failure α × List Event) :=
  (ExceptT.run task).run []

end Task

end TableScript
