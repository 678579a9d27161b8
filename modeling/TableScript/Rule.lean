import TableScript.Document.Basic
import TableScript.Table.Basic
import TableScript.Tree.Path

/-!
# Rules

What the stack machine runs: the columns that tables are expected to have, the
attached repositories, and the steps in order.
-/

namespace TableScript

structure Rule where
  expectations : SortedMap (List String)
  repositories : SortedMap String
  steps : List Step
deriving DecidableEq, Inhabited

namespace Rule

def empty : Rule := ⟨.empty, .empty, []⟩

/-- Columns with further ones added at the end, each only once. -/
def addColumns (columns further : List String) : List String :=
  further.foldl
    (fun known column => if known.contains column then known else known ++ [column]) columns

def expect (rule : Rule) (table : String) (columns : List String) : Rule :=
  let known := (rule.expectations.get? table).getD []
  { rule with expectations := rule.expectations.insert table (addColumns known columns) }

def attach (rule : Rule) (url name : String) : Rule :=
  { rule with repositories := rule.repositories.insert name url }

def andThen (rule : Rule) (step : Step) : Rule := { rule with steps := rule.steps ++ [step] }

def repository? (rule : Rule) (name : String) : Option String := rule.repositories.get? name

/-- Whether every record has a value for every column that is expected of a table;
a table of which nothing is expected always conforms.  Execution does not ask. -/
def conforms (rule : Rule) (name : String) (table : Table) : Bool :=
  match rule.expectations.get? name with
  | some columns =>
      table.all fun record =>
        columns.all fun column => Tree.containsPath record (Path.ofText column)
  | none => true

/-- The rule of a document.  Actions that are no steps leave no trace in it. -/
def ofDocument (document : Document) : Rule :=
  let expected := document.header.expects.toList.foldl
    (fun rule entry => rule.expect entry.1 entry.2) empty
  let attached := document.header.repositories.toList.foldl
    (fun rule entry => rule.attach entry.2 entry.1) expected
  { attached with steps := document.actions.filterMap Action.step? }

end Rule

end TableScript
