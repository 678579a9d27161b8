import Mathlib.Data.List.Perm.Basic
import TableScript.Aggregate
import TableScript.Proofs.Except
import TableScript.Table.Basic
import TableScript.Table.Join

/-!
# Tables up to the order of rows

Joining, selecting and adding up do not look at the order of rows: tables with the
same rows in another order give the same rows in some order, and the same total.
-/

namespace TableScript

/-- That it does not matter in which order integers are combined. -/
def Aggregate.OrderFree (aggregate : Aggregate) : Prop :=
  ∀ total first second, aggregate.combine (aggregate.combine total first) second =
    aggregate.combine (aggregate.combine total second) first

namespace Aggregate

theorem orderFree_add : add.OrderFree := fun total first second =>
  Int.add_right_comm total first second

theorem orderFree_mult : mult.OrderFree := fun total first second =>
  Int.mul_right_comm total first second

end Aggregate

namespace Table

variable {left right table other : Table}

theorem perm_matchingPairs {otherLeft otherRight : Table} (pairing : Pairing)
    (lefts : left.Perm otherLeft) (rights : right.Perm otherRight) :
    (matchingPairs pairing left right).Perm (matchingPairs pairing otherLeft otherRight) := by
  apply lefts.flatMap
  intro first _
  exact (rights.filter _).map _

theorem exists_perm_of_join {otherLeft otherRight : Table} {pairing : Pairing}
    (lefts : left.Perm otherLeft) (rights : right.Perm otherRight)
    (joined : join left right pairing = .ok table) :
    ∃ result, join otherLeft otherRight pairing = .ok result ∧ table.Perm result := by
  obtain ⟨checked, keys, made⟩ := Except.bind_eq_ok.mp joined
  obtain ⟨result, remade, perm⟩ :=
    Except.exists_perm_of_mapM (perm_matchingPairs pairing lefts rights) made
  exact ⟨result, Except.bind_eq_ok.mpr ⟨checked, keys, remade⟩, perm⟩

theorem exists_perm_of_select {columns : List String} (perm : table.Perm other)
    {selected : Table} (made : table.select columns = .ok selected) :
    ∃ result, other.select columns = .ok result ∧ selected.Perm result :=
  Except.exists_perm_of_mapM perm made

theorem aggregate_of_perm {aggregate : Aggregate} (orderFree : aggregate.OrderFree)
    {columns : List String} (perm : table.Perm other) {value : Int}
    (reached : table.aggregate aggregate columns = .ok value) :
    other.aggregate aggregate columns = .ok value :=
  Except.foldlM_map_of_perm orderFree perm reached

end Table

end TableScript
