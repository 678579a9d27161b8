import TableScript.Error
import TableScript.Tree.Json
import TableScript.Tree.Shape

/-!
# Tables

A table is a list of records, and a record is a tree whose keys are its columns.
Its values are nodes of any kind.
-/

namespace TableScript

abbrev Record := Tree

abbrev Table := List Record

namespace Table

/-- Whether two tables hold the same records position by position, up to the order
of keys. -/
def same : Table → Table → Bool
  | [], [] => true
  | first :: rest, second :: others => Tree.same first second && same rest others
  | _, _ => false

def ofJson : Json.Value → Except DocumentError Table
  | .array records => records.mapM Tree.ofJson
  | _ => .error (.wrongKind "table" "an array of records" none)

def toJson (table : Table) : Json.Value := .array (table.map Tree.toJson)

def jsonText (table : Table) : String := (toJson table).compact

end Table

/-! ## Selecting columns -/

namespace Record

/-- A record cut to some columns, all of which it must have.  The columns are the
keys of a shape whose values are empty scalars. -/
def select (columns : List String) (record : Record) : Except ExecutionError Record :=
  match columns.find? fun column => !record.contains column with
  | some missing => .error (.missingColumn missing)
  | none => .ok (Tree.extract record (Tree.ofScalars (columns.map fun column => (column, ""))))

end Record

namespace Table

/-- A table cut to some columns, in the order in which they are listed. -/
def select (columns : List String) (table : Table) : Except ExecutionError Table :=
  table.mapM (Record.select columns)

end Table

end TableScript
