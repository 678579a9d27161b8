/-!
# Statements

What a line of a script says.  `EXPECTS` and `ATTACH` describe the surroundings
of a script; every other statement is an action.  An action is a step that the
stack machine runs, the invocation of another rule, or a name that this version
of the language does not know.
-/

namespace TableScript

/-- A thing kept in a repository under a version: `space:name:version`. -/
structure Reference where
  space : String
  name : String
  version : String
deriving DecidableEq, Repr

namespace Reference

def text (reference : Reference) : String :=
  reference.space ++ ":" ++ reference.name ++ ":" ++ reference.version

end Reference

/-- A column of a joined record: where its value comes from and how it is
called. -/
structure Projection where
  source : String
  target : String
deriving DecidableEq, Repr

namespace Projection

def keep (column : String) : Projection := ⟨column, column⟩

end Projection

/-- How two tables are paired: key columns of the left and the right one, matched
by position, and the columns of the result. -/
structure Pairing where
  leftKeys : List String
  rightKeys : List String
  projections : List Projection
deriving DecidableEq, Repr

structure Call where
  name : String
  arguments : List String
deriving DecidableEq, Repr

inductive Step where
  | push (table : String)
  | pop
  | duplicate
  | commit (table : String) (columns : Option (List String))
  | join (pairing : Pairing)
  | inclusion (pairing : Pairing)
  | accumulate (column : String) (call : Call) (result : Option String)
  | pull (reference : Reference) (target : String)
deriving DecidableEq, Repr

namespace Step

/-- The name of a step in a document and in messages. -/
def name : Step → String
  | push _ => "push"
  | pop => "pop"
  | duplicate => "duplicate"
  | commit _ _ => "commit"
  | join _ => "join"
  | inclusion _ => "inclusion"
  | accumulate _ _ _ => "accumulate"
  | pull _ _ => "pull"

end Step

inductive Action where
  | step (step : Step)
  | invoke (rule : Reference)
  /-- a name outside the known set, kept so that documents written for a later
  version of the language can be read -/
  | unrecognized (name : String)
deriving DecidableEq, Repr

namespace Action

def name : Action → String
  | .step it => it.name
  | invoke _ => "invoke"
  | unrecognized name => name

/-- The step of an action, if the stack machine runs it. -/
def step? : Action → Option Step
  | .step it => some it
  | _ => none

end Action

inductive Statement where
  | expects (table : String) (columns : List String)
  | attach (url name : String)
  | action (action : Action)
deriving DecidableEq, Repr

end TableScript
