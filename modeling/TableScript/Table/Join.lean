import TableScript.Error
import TableScript.Table.Basic

/-!
# Joins

Two records match when the values of all paired key columns are the same; a
record that lacks a key column matches nothing.  A join has a record for every
matching pair, in the order of the left table and then of the right one.  An
inclusion has a record for every left record that matches anything, made with the
first record it matches.
-/

namespace TableScript

namespace Record

def keyMatches (left right : Record) (key : String × String) : Bool :=
  match left.get? key.1, right.get? key.2 with
  | some first, some second => first.same second
  | _, _ => false

/-- Whether two records have the same values in all paired key columns. -/
def joins (pairing : Pairing) (left right : Record) : Bool :=
  (pairing.leftKeys.zip pairing.rightKeys).all (keyMatches left right)

/-- The value of a column in the left record or else in the right one. -/
def valueOf (left right : Record) (column : String) : Except ExecutionError Node :=
  match left.get? column with
  | some value => .ok value
  | none =>
      match right.get? column with
      | some value => .ok value
      | none => .error (.missingColumn column)

def project (projections : List Projection) (pair : Record × Record) :
    Except ExecutionError Record := do
  let entries ← projections.mapM fun column =>
    (valueOf pair.1 pair.2 column.source).map fun value => (column.target, value)
  return OrderedMap.ofList entries

end Record

namespace Table

def checkKeys (action : String) (pairing : Pairing) : Except ExecutionError Unit :=
  if pairing.leftKeys.length = pairing.rightKeys.length then .ok ()
  else .error (.mismatchedKeys action pairing.leftKeys.length pairing.rightKeys.length)

def matchingPairs (pairing : Pairing) (left right : Table) : List (Record × Record) :=
  left.flatMap fun first =>
    (right.filter (Record.joins pairing first)).map fun second => (first, second)

/-- Every left record that matches anything, with the first record it matches. -/
def firstMatches (pairing : Pairing) (left right : Table) : List (Record × Record) :=
  left.filterMap fun first =>
    (right.find? (Record.joins pairing first)).map fun second => (first, second)

/-- A record for every matching pair. -/
def join (left right : Table) (pairing : Pairing) : Except ExecutionError Table := do
  checkKeys "join" pairing
  (matchingPairs pairing left right).mapM (Record.project pairing.projections)

/-- A record for every left record that matches anything. -/
def inclusion (left right : Table) (pairing : Pairing) : Except ExecutionError Table := do
  checkKeys "inclusion" pairing
  (firstMatches pairing left right).mapM (Record.project pairing.projections)

end Table

end TableScript
