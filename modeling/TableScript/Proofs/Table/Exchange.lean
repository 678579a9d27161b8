import Mathlib.Data.List.Perm.Basic
import Mathlib.Data.List.Zip
import TableScript.Proofs.Table.Join

/-!
# Joining the other way round

Two tables can be joined in either direction.  The same pairs of records match, and they have
the same columns between them, so one join succeeds where the other does.  Where no two
matching records differ in a column that is taken, the joins hold the same records, but in an
order of their own.
-/

namespace TableScript

namespace Pairing

def exchanged (pairing : Pairing) : Pairing :=
  ⟨pairing.rightKeys, pairing.leftKeys, pairing.projections⟩

end Pairing

/-! ## Pairs of records -/

namespace Record

theorem keyMatches_swap (first second : Record) (key : String × String) :
    keyMatches second first key.swap = keyMatches first second key := by
  unfold keyMatches
  rw [Prod.fst_swap, Prod.snd_swap]
  cases first.get? key.1 with
  | none =>
      cases second.get? key.2 with
      | none => rfl
      | some _ => rfl
  | some one =>
      cases second.get? key.2 with
      | none => rfl
      | some other => exact Node.same_comm other one

theorem joins_exchanged (pairing : Pairing) (first second : Record) :
    joins pairing.exchanged second first = joins pairing first second := by
  unfold joins Pairing.exchanged
  rw [← List.zip_swap pairing.leftKeys pairing.rightKeys, List.all_map]
  exact congrArg (List.all _) (funext (keyMatches_swap first second))

variable {projections : List Projection} {pair : Record × Record}

theorem Complete.swap (complete : Complete projections pair) : Complete projections pair.swap :=
  fun column member => (complete column member).symm

/-- That two records do not differ in the source of a column that both have. -/
def Concur (projections : List Projection) (pair : Record × Record) : Prop :=
  ∀ column ∈ projections, ∀ first second, pair.1.get? column.source = some first →
    pair.2.get? column.source = some second → first.Alike second

theorem Concur.alike_drawn (concur : Concur projections pair) {column : Projection}
    (member : column ∈ projections) :
    AlikeEntries (drawn pair column) (drawn pair.swap column) := by
  have values := concur column member
  refine ⟨rfl, ?_⟩
  unfold drawn
  rw [Prod.fst_swap, Prod.snd_swap]
  cases first : pair.1.get? column.source with
  | none =>
      rw [Option.none_or, Option.or_none]
      exact .refl _
  | some one =>
      cases second : pair.2.get? column.source with
      | none => exact .refl one
      | some other => exact values one other first second

instance (projections : List Projection) (pair : Record × Record) :
    Decidable (Concur projections pair) :=
  decidable_of_iff (∀ column ∈ projections, (pair.1.get? column.source).all fun first =>
      (pair.2.get? column.source).all fun second => first.same second)
    (forall₂_congr fun column _ => by
      simp only [Option.all_eq_true]
      exact ⟨fun values first second here there => values first here second there,
        fun values first here second there => values first second here there⟩)

/-- The record that two records make which have all sources of some columns. -/
def outcome (projections : List Projection) (pair : Record × Record) : Record :=
  OrderedMap.ofList (projections.map (drawn pair))

/-- What concurring records make does not depend on which of them is asked first. -/
theorem Concur.alike_outcome (concur : Concur projections pair) :
    Tree.Alike (outcome projections pair) (outcome projections pair.swap) := by
  apply Tree.alike_ofList
  rw [List.forall₂_map_left_iff, List.forall₂_map_right_iff, List.forall₂_same]
  exact fun _ member => concur.alike_drawn member

end Record

/-! ## Tables -/

namespace Table

variable {left right : Table} {pairing : Pairing}

theorem mem_matchingPairs {pair : Record × Record} :
    pair ∈ matchingPairs pairing left right ↔
      pair.1 ∈ left ∧ pair.2 ∈ right ∧ Record.Matches pairing pair := by
  unfold matchingPairs
  simp only [List.mem_flatMap, List.mem_map, List.mem_filter, Record.joins_iff_matches]
  constructor
  · rintro ⟨first, here, second, ⟨there, matching⟩, rfl⟩
    exact ⟨here, there, matching⟩
  · rintro ⟨here, there, matching⟩
    exact ⟨pair.1, here, pair.2, ⟨there, matching⟩, rfl⟩

theorem matchingPairs_cons_left (pairing : Pairing) (first : Record) (rest right : Table) :
    matchingPairs pairing (first :: rest) right =
      matchingPairs pairing [first] right ++ matchingPairs pairing rest right := by
  unfold matchingPairs
  rw [List.flatMap_cons, List.flatMap_singleton]

/-- The pairs with one of the right records stand among the pairs with the others. -/
theorem perm_matchingPairs_cons_right (pairing : Pairing) (left : Table) (second : Record)
    (rest : Table) :
    (matchingPairs pairing left [second] ++ matchingPairs pairing left rest).Perm
      (matchingPairs pairing left (second :: rest)) := by
  unfold matchingPairs
  refine (List.flatMap_append_perm left _ _).trans (.of_eq ?_)
  apply List.flatMap_congr
  intro first _
  rw [← List.map_append, ← List.filter_append, List.singleton_append]

theorem matchingPairs_singleton_exchanged (pairing : Pairing) (first : Record) (right : Table) :
    matchingPairs pairing.exchanged right [first] =
      (matchingPairs pairing [first] right).map Prod.swap := by
  unfold matchingPairs
  rw [List.flatMap_singleton]
  induction right with
  | nil => rfl
  | cons second rest ih =>
      rw [List.flatMap_cons, ih, List.filter_singleton, Record.joins_exchanged, List.filter_cons]
      cases Record.joins pairing first second with
      | true => rfl
      | false => rfl

/-- The records that match are the same in both directions. -/
theorem perm_matchingPairs_exchanged (pairing : Pairing) (left right : Table) :
    ((matchingPairs pairing left right).map Prod.swap).Perm
      (matchingPairs pairing.exchanged right left) := by
  induction left with
  | nil =>
      have nothing : matchingPairs pairing.exchanged right [] = [] := by simp [matchingPairs]
      rw [nothing]
      exact .nil
  | cons first rest ih =>
      rw [matchingPairs_cons_left, List.map_append, ← matchingPairs_singleton_exchanged]
      exact (ih.append_left _).trans (perm_matchingPairs_cons_right _ right first rest)

/-- A join succeeds if keys are paired one by one and all records that match have the sources of
its columns. -/
theorem join_eq_ok_iff_outcome {joined : Table} :
    join left right pairing = .ok joined ↔
      pairing.leftKeys.length = pairing.rightKeys.length ∧
      (∀ pair ∈ matchingPairs pairing left right, Record.Complete pairing.projections pair) ∧
      joined = (matchingPairs pairing left right).map (Record.outcome pairing.projections) := by
  have succeeds : (∀ pair ∈ matchingPairs pairing left right,
      Record.Complete pairing.projections pair) →
      (matchingPairs pairing left right).mapM (Record.project pairing.projections) =
        .ok ((matchingPairs pairing left right).map (Record.outcome pairing.projections)) :=
    fun complete => Except.mapM_eq_ok fun pair member =>
      Record.project_of_complete (complete pair member)
  by_cases paired : pairing.leftKeys.length = pairing.rightKeys.length
  · rw [join_of_paired left right paired]
    constructor
    · intro made
      have complete : ∀ pair ∈ matchingPairs pairing left right,
          Record.Complete pairing.projections pair := by
        intro pair member
        obtain ⟨record, _, projected⟩ :=
          Related.exists_right (Except.forall₂_of_mapM_eq_ok made) member
        exact (Record.project_eq_ok_iff.mp projected).1
      exact ⟨paired, complete, Except.ok.inj (made.symm.trans (succeeds complete))⟩
    · rintro ⟨_, complete, rfl⟩
      exact succeeds complete
  · rw [join_of_mismatched left right paired]
    simp [paired]

/-- A join succeeds the other way round if it does, since the same records have to supply the same
columns. -/
theorem join_exchanged_eq_ok {joined : Table} (made : join left right pairing = .ok joined) :
    join right left pairing.exchanged =
      .ok ((matchingPairs pairing.exchanged right left).map
        (Record.outcome pairing.projections)) := by
  obtain ⟨paired, complete, -⟩ := join_eq_ok_iff_outcome.mp made
  refine join_eq_ok_iff_outcome.mpr ⟨paired.symm, ?_, rfl⟩
  intro pair member
  rw [← (perm_matchingPairs_exchanged pairing left right).mem_iff] at member
  obtain ⟨other, known, rfl⟩ := List.mem_map.mp member
  exact (complete other known).swap

/-- A join that succeeds also succeeds the other way round.  If records that match do not differ
in the source of a column that both have, it then makes the same records, in some order. -/
theorem join_commutes {left right : Table} {pairing : Pairing} {joined : Table}
    (made : join left right pairing = .ok joined)
    (concur : ∀ first ∈ left, ∀ second ∈ right, Record.Matches pairing (first, second) →
      Record.Concur pairing.projections (first, second)) :
    ∃ other, join right left pairing.exchanged = .ok other ∧
      ∃ reordered, List.Forall₂ Tree.Alike joined reordered ∧ reordered.Perm other := by
  have turned := perm_matchingPairs_exchanged pairing left right
  refine ⟨_, join_exchanged_eq_ok made,
    ((matchingPairs pairing left right).map Prod.swap).map (Record.outcome pairing.projections),
    ?_, turned.map (Record.outcome pairing.projections)⟩
  obtain ⟨-, -, rfl⟩ := join_eq_ok_iff_outcome.mp made
  rw [List.map_map, List.forall₂_map_left_iff, List.forall₂_map_right_iff, List.forall₂_same]
  intro pair member
  obtain ⟨here, there, same⟩ := mem_matchingPairs.mp member
  exact (concur pair.1 here pair.2 there same).alike_outcome

/-- The left records come first in one direction and the right records in the other, and a value
that both have is taken with the order of its keys from one of them or from the other. -/
theorem shared_column_is_joined_either_way :
    let ascending : Node := .map (Tree.ofScalars [("p", "1"), ("q", "2")])
    let descending : Node := .map (Tree.ofScalars [("q", "2"), ("p", "1")])
    let left : Table := [.ofList [("k", .scalar "1"), ("c", ascending)],
      Tree.ofScalars [("k", "2")]]
    let right : Table := [.ofList [("c", descending), ("j", .scalar "2")],
      .ofList [("c", descending), ("j", .scalar "1")]]
    let pairing : Pairing := ⟨["k"], ["j"], [⟨"k", "a"⟩, ⟨"c", "d"⟩]⟩
    let row (a : String) (d : Node) : Record := .ofList [("a", .scalar a), ("d", d)]
    let joined : Table := [row "1" ascending, row "2" descending]
    let other : Table := [row "2" descending, row "1" descending]
    join left right pairing = .ok joined ∧
      (∀ first ∈ left, ∀ second ∈ right, Record.Matches pairing (first, second) →
        Record.Concur pairing.projections (first, second)) ∧
      join right left pairing.exchanged = .ok other ∧
      ∃ reordered, List.Forall₂ Tree.Alike joined reordered ∧ reordered.Perm other := by
  intro ascending descending left right pairing row joined other
  have made : join left right pairing = .ok joined := by rfl
  have remade : join right left pairing.exchanged = .ok other := by rfl
  have concur : ∀ first ∈ left, ∀ second ∈ right,
      Record.Concur pairing.projections (first, second) := by decide
  have known : ∀ first ∈ left, ∀ second ∈ right, Record.Matches pairing (first, second) →
      Record.Concur pairing.projections (first, second) :=
    fun first here second there _ => concur first here second there
  obtain ⟨result, reached, found⟩ := join_commutes made known
  cases remade.symm.trans reached
  exact ⟨made, known, remade, found⟩

end Table

end TableScript
