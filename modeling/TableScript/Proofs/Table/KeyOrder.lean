import TableScript.Aggregate
import TableScript.Proofs.Except
import TableScript.Proofs.Tree.Same
import TableScript.Table.Basic
import TableScript.Table.Join

/-!
# Tables up to the order of keys

Two tables are the same when they hold the same records position by position, up to the
order of keys.  Joining, selecting and adding up do not tell such tables apart: they make
the same tables of them, or fail for the same reason.  Only the text of a value that is
no number shows the order of its keys.
-/

namespace TableScript

namespace ExecutionError

/-- An error without the text of the value that it is about. -/
def withoutValue : ExecutionError → ExecutionError
  | notANumber column _ => notANumber column ""
  | error => error

/-- That two errors differ in the text of a value at most. -/
def Alike (first second : ExecutionError) : Prop := first.withoutValue = second.withoutValue

theorem Alike.refl (error : ExecutionError) : error.Alike error := rfl

end ExecutionError

/-! ## Records -/

namespace Record

variable {left right record first second third fourth : Record}

theorem keyMatches_congr (lefts : first.Alike left) (rights : second.Alike right)
    (key : String × String) : keyMatches first second key = keyMatches left right key := by
  have leftValues := Tree.alike_iff_get?.mp lefts key.1
  have rightValues := Tree.alike_iff_get?.mp rights key.2
  unfold keyMatches
  generalize first.get? key.1 = one at leftValues ⊢
  generalize left.get? key.1 = other at leftValues ⊢
  generalize second.get? key.2 = another at rightValues ⊢
  generalize right.get? key.2 = last at rightValues ⊢
  cases leftValues with
  | none => rfl
  | some lefts =>
      cases rightValues with
      | none => rfl
      | some rights => exact Node.same_congr lefts rights

theorem joins_congr (lefts : first.Alike left) (rights : second.Alike right)
    (pairing : Pairing) : joins pairing first second = joins pairing left right :=
  congrArg (List.all _) (funext (keyMatches_congr lefts rights))

theorem agree_valueOf (lefts : first.Alike left) (rights : second.Alike right)
    (column : String) :
    Except.Agree ExecutionError.Alike Node.Alike (valueOf first second column)
      (valueOf left right column) := by
  have leftValues := Tree.alike_iff_get?.mp lefts column
  have rightValues := Tree.alike_iff_get?.mp rights column
  unfold valueOf
  generalize first.get? column = one at leftValues ⊢
  generalize left.get? column = other at leftValues ⊢
  generalize second.get? column = another at rightValues ⊢
  generalize right.get? column = last at rightValues ⊢
  cases leftValues with
  | some values => exact .ok values
  | none =>
      cases rightValues with
      | some values => exact .ok values
      | none => exact .error (.refl _)

def AlikePairs (first second : Record × Record) : Prop :=
  first.1.Alike second.1 ∧ first.2.Alike second.2

theorem agree_project (projections : List Projection) {pair other : Record × Record}
    (alike : AlikePairs pair other) :
    Except.Agree ExecutionError.Alike Tree.Alike (project projections pair)
      (project projections other) := by
  obtain ⟨lefts, rights⟩ := alike
  have entries : Except.Agree ExecutionError.Alike (List.Forall₂ AlikeEntries)
      (projections.mapM fun column =>
        (valueOf pair.1 pair.2 column.source).map fun value => (column.target, value))
      (projections.mapM fun column =>
        (valueOf other.1 other.2 column.source).map fun value => (column.target, value)) := by
    apply Except.Agree.mapM _ (List.forall₂_same.mpr fun _ _ => rfl)
    rintro column _ rfl
    exact (agree_valueOf lefts rights column.source).map fun _ _ values => ⟨rfl, values⟩
  exact entries.bind fun _ _ made => .ok (Tree.alike_ofList made)

theorem agree_select (columns : List String) (alike : first.Alike second) :
    Except.Agree ExecutionError.Alike Tree.Alike (select columns first)
      (select columns second) := by
  have known : ∀ column, first.contains column = second.contains column := by
    intro column
    have values := Tree.alike_iff_get?.mp alike column
    rw [OrderedMap.contains_eq_isSome, OrderedMap.contains_eq_isSome]
    generalize first.get? column = one at values ⊢
    generalize second.get? column = other at values ⊢
    cases values with
    | none => rfl
    | some _ => rfl
  unfold select
  simp only [known]
  split
  · exact .error (.refl _)
  · exact .ok (Tree.alike_extract alike _)

theorem agree_number (alike : first.Alike second) (column : String) :
    Except.Agree ExecutionError.Alike Eq (number first column) (number second column) := by
  have values := Tree.alike_iff_get?.mp alike column
  unfold number
  generalize first.get? column = one at values ⊢
  generalize second.get? column = other at values ⊢
  cases values with
  | none => exact .error (.refl _)
  | @some value counterpart values =>
      -- errors may show the two values in different texts
      simp only [values.scalar?]
      cases counterpart.scalar?.bind Numeral.read? with
      | none => exact .error rfl
      | some integer => exact .ok rfl

theorem agree_aggregate (combined : Aggregate) (columns : List String)
    (alike : first.Alike second) :
    Except.Agree ExecutionError.Alike Eq (aggregate combined columns first)
      (aggregate combined columns second) := by
  apply Except.Agree.foldlM _ (List.forall₂_same.mpr fun _ _ => rfl) rfl
  rintro total _ column _ rfl rfl
  exact (agree_number alike column).map fun _ _ same => congrArg _ same

end Record

/-! ## Tables -/

namespace Table

def Alike (first second : Table) : Prop := first.same second = true

theorem alike_iff_forall₂ {first second : Table} :
    first.Alike second ↔ List.Forall₂ Tree.Alike first second := by
  induction first generalizing second with
  | nil =>
      cases second with
      | nil => simp [Alike, same]
      | cons record rest => simp [Alike, same]
  | cons record rest ih =>
      cases second with
      | nil => simp [Alike, same]
      | cons other others =>
          rw [List.forall₂_cons, ← ih]
          exact Bool.and_eq_true_iff

theorem Alike.refl (table : Table) : table.Alike table :=
  alike_iff_forall₂.mpr (List.forall₂_same.mpr fun record _ => .refl record)

variable {left right table other otherLeft otherRight : Table}

theorem alike_matchingPairs (pairing : Pairing) (lefts : left.Alike otherLeft)
    (rights : right.Alike otherRight) :
    List.Forall₂ Record.AlikePairs (matchingPairs pairing left right)
      (matchingPairs pairing otherLeft otherRight) := by
  apply List.rel_flatMap (alike_iff_forall₂.mp lefts)
  intro first second alike
  apply List.rel_map (R := Tree.Alike)
  · intro record counterpart same
    exact ⟨alike, same⟩
  · apply List.rel_filter _ (alike_iff_forall₂.mp rights)
    intro record counterpart same
    simp only [Record.joins_congr alike same]

theorem alike_find? {first second : Record} (pairing : Pairing) (alike : first.Alike second)
    (rights : right.Alike otherRight) :
    Option.Rel Tree.Alike (right.find? (Record.joins pairing first))
      (otherRight.find? (Record.joins pairing second)) := by
  have rows := alike_iff_forall₂.mp rights
  clear rights
  induction rows with
  | nil => exact .none
  | @cons record counterpart _ _ same _ ih =>
      rw [List.find?_cons, List.find?_cons, Record.joins_congr alike same]
      cases Record.joins pairing second counterpart with
      | true => exact .some same
      | false => exact ih

theorem alike_firstMatches (pairing : Pairing) (lefts : left.Alike otherLeft)
    (rights : right.Alike otherRight) :
    List.Forall₂ Record.AlikePairs (firstMatches pairing left right)
      (firstMatches pairing otherLeft otherRight) := by
  apply List.rel_filterMap _ (alike_iff_forall₂.mp lefts)
  intro first second alike
  have found := alike_find? pairing alike rights
  simp only
  generalize right.find? (Record.joins pairing first) = one at found ⊢
  generalize otherRight.find? (Record.joins pairing second) = another at found ⊢
  cases found with
  | none => exact .none
  | some same => exact .some ⟨alike, same⟩

/-- Tables made record by record are the same if the records are. -/
theorem agree_alike {table other : Except ExecutionError Table}
    (agree : Except.Agree ExecutionError.Alike (List.Forall₂ Tree.Alike) table other) :
    Except.Agree ExecutionError.Alike Alike table other := by
  cases agree with
  | ok related => exact .ok (alike_iff_forall₂.mpr related)
  | error related => exact .error related

theorem agree_checkKeys (action : String) (pairing : Pairing) :
    Except.Agree ExecutionError.Alike Eq (checkKeys action pairing) (checkKeys action pairing) := by
  unfold checkKeys
  split
  · exact .ok rfl
  · exact .error (.refl _)

theorem agree_join (pairing : Pairing) (lefts : left.Alike otherLeft)
    (rights : right.Alike otherRight) :
    Except.Agree ExecutionError.Alike Alike (join left right pairing)
      (join otherLeft otherRight pairing) :=
  (agree_checkKeys "join" pairing).bind fun _ _ _ =>
    agree_alike (.mapM (fun _ _ pairs => Record.agree_project pairing.projections pairs)
      (alike_matchingPairs pairing lefts rights))

theorem agree_inclusion (pairing : Pairing) (lefts : left.Alike otherLeft)
    (rights : right.Alike otherRight) :
    Except.Agree ExecutionError.Alike Alike (inclusion left right pairing)
      (inclusion otherLeft otherRight pairing) :=
  (agree_checkKeys "inclusion" pairing).bind fun _ _ _ =>
    agree_alike (.mapM (fun _ _ pairs => Record.agree_project pairing.projections pairs)
      (alike_firstMatches pairing lefts rights))

theorem agree_select (columns : List String) (alike : table.Alike other) :
    Except.Agree ExecutionError.Alike Alike (table.select columns) (other.select columns) :=
  agree_alike (.mapM (fun _ _ records => Record.agree_select columns records)
    (alike_iff_forall₂.mp alike))

theorem agree_aggregate (combined : Aggregate) (columns : List String)
    (alike : table.Alike other) :
    Except.Agree ExecutionError.Alike Eq (table.aggregate combined columns)
      (other.aggregate combined columns) := by
  apply Except.Agree.foldlM _ (alike_iff_forall₂.mp alike) rfl
  rintro total _ record counterpart rfl same
  exact (Record.agree_aggregate combined columns same).map fun _ _ same => congrArg _ same

theorem agree_accumulate (functions : Functions) (call : Call) (alike : table.Alike other) :
    Except.Agree ExecutionError.Alike Eq (functions.accumulate call table)
      (functions.accumulate call other) := by
  unfold Functions.accumulate
  split
  · exact agree_aggregate _ call.arguments alike
  · exact .error (.refl _)

end Table

end TableScript
