import TableScript.Document.Basic
import TableScript.Error
import TableScript.Script

/-!
# Events

What the library tells about its work, as data.  Reading and interpreting are
functions without effects, and what they tell follows from what they are given
and what they answer; the stack machine keeps its events as it goes.
-/

namespace TableScript

inductive Level where
  | debug
  | info
  | warn
deriving DecidableEq, Repr

namespace Level

def word : Level → String
  | debug => "DEBUG"
  | info => "INFO"
  | warn => "WARN"

end Level

inductive Event where
  /-- a line is read as a statement -/
  | parsing (line : String)
  /-- a field holds a node of another kind than it should -/
  | kindMismatch (field : String) (found : Kind) (expected : String)
  /-- an action is interpreted -/
  | dispatching (name : String)
  | skippingInvoke (rule : Reference)
  | ignoring (name : String)
  | attaching (name url : String)
  | creatingClient (url : String)
  /-- a step begins -/
  | step (name : String) (depth : Nat)
  | committing (table : String) (records : Nat)
  /-- two tables were paired -/
  | pairing (name : String) (left right result : Nat)
  | pulling (reference : Reference) (url target : String)
  | readingTable (path : String)
deriving DecidableEq, Repr

namespace Event

def level : Event → Level
  | ignoring _ => .warn
  | committing _ _ => .info
  | _ => .debug

def message : Event → String
  | parsing line => s!"try to parse: {line}"
  | kindMismatch field found expected =>
      s!"field `{field}` is a {found.name}, wanted {expected}"
  | dispatching name => s!"dispatching {name}"
  | skippingInvoke rule => s!"skipping invoke of {rule.text}"
  | ignoring name => s!"ignoring unrecognized action `{name}`"
  | attaching name url => s!"attaching {name} at {url}"
  | creatingClient url => s!"creating registry client for {url}"
  | step name depth => s!"{name} (stack depth {depth})"
  | committing table records => s!"committing {table} ({records} records)"
  | pairing name left right result => s!"{name}: {left} x {right} records -> {result}"
  | pulling reference url target => s!"pulling {reference.text} from {url} as {target}"
  | readingTable path => s!"reading table from {path}"

/-- An event with its level, on one line. -/
def text (event : Event) : String := event.level.word ++ " " ++ event.message

def ofParsing (lines : List (Nat × String)) : List Event :=
  (Script.tried lines (Script.parseLines lines)).map parsing

/-- What the reading of a document tells: the field at which it stopped for the
kind of its value. -/
def ofDecoding {α : Type} : Except DocumentError α → List Event
  | .error (.wrongKind field expected (some found)) => [kindMismatch field found expected]
  | _ => []

def ofAction (action : Action) : List Event :=
  dispatching action.name ::
    match action with
    | .step _ => []
    | .invoke rule => [skippingInvoke rule]
    | .unrecognized name => [ignoring name]

def ofInterpreting (document : Document) : List Event := document.actions.flatMap ofAction

end Event

end TableScript
