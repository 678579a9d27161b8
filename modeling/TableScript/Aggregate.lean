import TableScript.Error
import TableScript.Table.Basic
import TableScript.Text.Basic

/-!
# Aggregation

An aggregate is a way to combine integers, with the integer to begin from.  Over
a table it first combines the chosen columns of every record, and then the
results of the records; both begin from the identity, so a table without records
comes to the identity.
-/

namespace TableScript

structure Aggregate where
  identity : Int
  combine : Int → Int → Int

namespace Aggregate

def add : Aggregate := ⟨0, (· + ·)⟩

def mult : Aggregate := ⟨1, (· * ·)⟩

end Aggregate

namespace Record

/-- The integer in a column of a record. -/
def number (record : Record) (column : String) : Except ExecutionError Int :=
  match record.get? column with
  | none => .error (.missingColumn column)
  | some node =>
      match node.scalar?.bind Numeral.read? with
      | some value => .ok value
      | none => .error (.notANumber column node.display)

/-- The chosen columns of one record, combined. -/
def aggregate (aggregate : Aggregate) (columns : List String) (record : Record) :
    Except ExecutionError Int :=
  columns.foldlM
    (fun total column => (number record column).map (aggregate.combine total))
    aggregate.identity

end Record

namespace Table

def aggregate (aggregate : Aggregate) (columns : List String) (table : Table) :
    Except ExecutionError Int :=
  table.foldlM
    (fun total record =>
      (Record.aggregate aggregate columns record).map (aggregate.combine total))
    aggregate.identity

end Table

abbrev Functions := OrderedMap Aggregate

namespace Functions

def builtin : Functions := OrderedMap.ofList [("add", .add), ("mult", .mult)]

/-- Apply a named function to the chosen columns of a table. -/
def accumulate (functions : Functions) (call : Call) (table : Table) :
    Except ExecutionError Int :=
  match functions.get? call.name with
  | some aggregate => table.aggregate aggregate call.arguments
  | none => .error (.unknownFunction call.name)

end Functions

end TableScript
