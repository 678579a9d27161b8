import TableScript.Aggregate
import TableScript.Rule
import TableScript.Table.Basic
import TableScript.Table.Join

/-!
# The stack machine

A machine has a stack of tables, tables bound to names, and what has been
committed so far.  Each step is a function from machines to machines that may
fail; a step that fails leaves nothing behind.  Names are bound by what is given
at the start, by commits and by pulled tables, and a later binding replaces an
earlier one of the same name.
-/

namespace TableScript

structure Commit where
  table : String
  records : Table

abbrev Output := List Commit

namespace Output

/-- The last table committed under a name. -/
def table? (output : Output) (name : String) : Option Table :=
  (output.reverse.find? fun commit => commit.table == name).map Commit.records

/-- A further commit is found under its own name and hides no other. -/
theorem table?_append_singleton (output : Output) (commit : Commit) (name : String) :
    table? (output ++ [commit]) name =
      if commit.table = name then some commit.records else table? output name := by
  by_cases same : commit.table = name
  · simp [table?, same]
  · simp [table?, same]

end Output

/-- Tables by the names under which they can be pushed. -/
abbrev Bindings := OrderedMap Table

/-- The state of an execution.  The head of the stack is its top. -/
structure Machine where
  stack : List Table
  bindings : Bindings
  output : Output

namespace Machine

def start (bindings : Bindings) (output : Output) : Machine := ⟨[], bindings, output⟩

def depth (machine : Machine) : Nat := machine.stack.length

def place (machine : Machine) (table : Table) : Machine :=
  { machine with stack := table :: machine.stack }

def bind (machine : Machine) (name : String) (table : Table) : Machine :=
  { machine with bindings := machine.bindings.insert name table }

def underflow {α : Type} (machine : Machine) (action : String) (needed : Nat) :
    Except ExecutionError α :=
  .error (.stackUnderflow action needed machine.depth)

def push (machine : Machine) (name : String) : Except ExecutionError Machine :=
  match machine.bindings.get? name with
  | some table => .ok (machine.place table)
  | none => .error (.unknownTable name)

def pop (machine : Machine) : Except ExecutionError Machine :=
  match machine.stack with
  | _ :: below => .ok { machine with stack := below }
  | [] => machine.underflow "pop" 1

def duplicate (machine : Machine) : Except ExecutionError Machine :=
  match machine.stack with
  | top :: _ => .ok (machine.place top)
  | [] => machine.underflow "duplicate" 1

/-- The machine with a table committed under a name, which is bound to it from then
on. -/
def emit (machine : Machine) (name : String) (records : Table) : Machine :=
  { machine.bind name records with output := machine.output ++ [⟨name, records⟩] }

/-- Commit the top table, or some of its columns, and leave it on the stack. -/
def commit (machine : Machine) (name : String) (columns : Option (List String)) :
    Except ExecutionError Machine :=
  match machine.stack, columns with
  | top :: _, some columns => do return machine.emit name (← top.select columns)
  | top :: _, none => .ok (machine.emit name top)
  | [], _ => machine.underflow "commit" 1

/-- Put one table in the place of the two upper ones, of which the top is the right
one. -/
def pair (machine : Machine) (action : String)
    (operation : Table → Table → Except ExecutionError Table) :
    Except ExecutionError Machine :=
  match machine.stack with
  | right :: left :: below => do
      let table ← operation left right
      return { machine with stack := table :: below }
  | _ => machine.underflow action 2

/-- The table of a single record with a single column. -/
def single (column : String) (value : Int) : Table :=
  [Tree.ofScalars [(column, Numeral.write value)]]

def accumulate (machine : Machine) (functions : Functions) (column : String) (call : Call)
    (result : Option String) : Except ExecutionError Machine :=
  match machine.stack with
  | top :: below => do
      let value ← functions.accumulate call top
      return { machine with stack := single (result.getD column) value :: below }
  | [] => machine.underflow "accumulate" 1

def receive (machine : Machine) (name : String) (table : Table) : Machine :=
  (machine.bind name table).place table

end Machine

namespace Rule

/-- The URL of the repository that serves a namespace: the one of the same name, or
else the only one that is attached. -/
def urlFor (rule : Rule) (space : String) : Except ExecutionError String :=
  match rule.repository? space with
  | some url => .ok url
  | none =>
      match rule.repositories.toList with
      | [] => .error (.unknownRepository space)
      | [(_, url)] => .ok url
      | _ => .error (.ambiguousRepository space)

end Rule

end TableScript
