import TableScript.Proofs.Document.Codec
import TableScript.Proofs.Execution.Effect
import TableScript.Proofs.Tree.Shape

/-!
# What column selection keeps

A selection cuts every record to the listed columns, in the order in which they are first
listed, and fails on the first record that lacks one of them.  It goes by a shape whose
values are scalars, and a mapping that faces a scalar loses all its keys.  So a column
keeps scalars and sequences as they are, but of a mapping only that there was one.
-/

namespace TableScript

/-! ## The shape of a selection -/

namespace Node

/-- What a scalar shape leaves of a node: a mapping loses all its keys. -/
def emptied : Node → Node
  | .map _ => .map .empty
  | other => other

theorem extract_scalar (node : Node) (text : String) :
    node.extract (.scalar text) = node.emptied := by
  cases node with
  | scalar _ => rfl
  | map _ => rfl
  | seq _ => rfl

theorem emptied_eq_self_iff {node : Node} :
    node.emptied = node ↔ ∀ tree, node = .map tree → tree = .empty := by
  cases node with
  | scalar _ => simp [emptied]
  | map tree => simp [emptied, eq_comm]
  | seq _ => simp [emptied]

end Node

/-! ## Records -/

namespace Record

def shape (columns : List String) : Tree :=
  Tree.ofScalars (columns.map fun column => (column, ""))

theorem toList_shape (columns : List String) :
    (shape columns).toList = columns.eraseDups.map fun column => (column, .scalar "") := by
  have listed := OrderedMap.map_fst_toList_ofList (columns.map fun column => (column, ""))
  rw [List.map_map, show Prod.fst ∘ (fun column : String => (column, "")) = id from rfl,
    List.map_id] at listed
  rw [shape, Tree.toList_ofScalars, ← listed, List.map_map]
  apply List.map_congr_left
  intro pair member
  obtain ⟨column, _, same⟩ := List.mem_map.mp (OrderedMap.mem_of_mem_toList_ofList member)
  rw [← same]
  rfl

/-- The entries that the shape of a selection leaves of a record. -/
theorem toList_extract_shape (columns : List String) (record : Record) :
    (Tree.extract record (shape columns)).toList = columns.eraseDups.filterMap fun column =>
      (record.get? column).map fun value => (column, value.emptied) := by
  rw [Tree.toList_extract, toList_shape, List.filterMap_map]
  simp only [Function.comp_def, Node.extract_scalar]

/-- What a selection makes of a record: the listed columns, each once, and of the value of
each what a scalar shape leaves. -/
structure SelectedAs (columns : List String) (record selected : Record) : Prop where
  keys : selected.keys = columns.eraseDups
  values : ∀ column ∈ columns, ∃ value, record.get? column = some value ∧
    selected.get? column = some value.emptied

def FirstMissing (columns : List String) (record : Record) (missing : String) : Prop :=
  ∃ listed later, columns = listed ++ missing :: later ∧
    (∀ column ∈ listed, column ∈ record.keys) ∧ missing ∉ record.keys

variable {columns : List String} {record selected : Record}

theorem SelectedAs.unique {other : Record} (one : SelectedAs columns record selected)
    (another : SelectedAs columns record other) : selected = other := by
  apply OrderedMap.ext_keys_get? (one.keys.trans another.keys.symm)
  intro column member
  rw [one.keys, List.mem_eraseDups] at member
  obtain ⟨value, found, kept⟩ := one.values column member
  obtain ⟨same, again, keptToo⟩ := another.values column member
  cases found.symm.trans again
  rw [kept, keptToo]

theorem selectedAs_extract (complete : ∀ column ∈ columns, column ∈ record.keys) :
    SelectedAs columns record (Tree.extract record (shape columns)) := by
  have entries := toList_extract_shape columns record
  constructor
  · rw [← OrderedMap.map_fst_toList, entries, List.map_filterMap]
    refine (List.filterMap_congr fun column member => ?_).trans List.filterMap_some
    obtain ⟨value, found⟩ := OrderedMap.mem_keys_iff.mp
      (complete column (List.mem_eraseDups.mp member))
    rw [found]
    rfl
  · intro column member
    obtain ⟨value, found⟩ := OrderedMap.mem_keys_iff.mp (complete column member)
    refine ⟨value, found, OrderedMap.get?_eq_some_iff.mpr ?_⟩
    rw [entries, List.mem_filterMap]
    exact ⟨column, List.mem_eraseDups.mpr member, by rw [found]; rfl⟩

theorem select_of_complete (complete : ∀ column ∈ columns, column ∈ record.keys) :
    select columns record = .ok (Tree.extract record (shape columns)) := by
  have nothing : (columns.find? fun column => !record.contains column) = none := by
    rw [List.find?_eq_none]
    intro column member
    simpa [OrderedMap.contains] using complete column member
  unfold select
  rw [nothing]
  rfl

theorem select_of_firstMissing {missing : String} (first : FirstMissing columns record missing) :
    select columns record = .error (.missingColumn missing) := by
  have found : (columns.find? fun column => !record.contains column) = some missing := by
    obtain ⟨listed, later, split, present, absent⟩ := first
    rw [List.find?_eq_some_iff_append]
    refine ⟨by simpa [OrderedMap.contains] using absent, listed, later, split, ?_⟩
    intro column member
    simpa [OrderedMap.contains] using present column member
  unfold select
  rw [found]

/-- A record either has all of some columns, or there is a first one that it lacks. -/
theorem complete_or_firstMissing (columns : List String) (record : Record) :
    (∀ column ∈ columns, column ∈ record.keys) ∨
      ∃ missing, FirstMissing columns record missing := by
  cases found : columns.find? fun column => !record.contains column with
  | none =>
      left
      intro column member
      simpa [OrderedMap.contains] using List.find?_eq_none.mp found column member
  | some missing =>
      right
      obtain ⟨absent, listed, later, split, present⟩ := List.find?_eq_some_iff_append.mp found
      refine ⟨missing, listed, later, split, ?_, by simpa [OrderedMap.contains] using absent⟩
      intro column member
      simpa [OrderedMap.contains] using present column member

theorem SelectedAs.complete (made : SelectedAs columns record selected) :
    ∀ column ∈ columns, column ∈ record.keys := by
  intro column member
  obtain ⟨value, found, _⟩ := made.values column member
  exact OrderedMap.mem_keys_iff.mpr ⟨value, found⟩

theorem select_eq_ok_iff :
    select columns record = .ok selected ↔ SelectedAs columns record selected := by
  constructor
  · intro reached
    rcases complete_or_firstMissing columns record with complete | ⟨missing, first⟩
    · rw [select_of_complete complete] at reached
      cases reached
      exact selectedAs_extract complete
    · rw [select_of_firstMissing first] at reached
      cases reached
  · intro made
    rw [select_of_complete made.complete, (selectedAs_extract made.complete).unique made]

theorem select_eq_error_iff {error : ExecutionError} :
    select columns record = .error error ↔
      ∃ missing, FirstMissing columns record missing ∧ error = .missingColumn missing := by
  constructor
  · intro failed
    rcases complete_or_firstMissing columns record with complete | ⟨missing, first⟩
    · rw [select_of_complete complete] at failed
      cases failed
    · rw [select_of_firstMissing first] at failed
      cases failed
      exact ⟨missing, first, rfl⟩
  · rintro ⟨missing, first, rfl⟩
    exact select_of_firstMissing first

def KeepsValues (columns : List String) (record selected : Record) : Prop :=
  ∀ column ∈ columns, selected.get? column = record.get? column

/-- A selection keeps the values of a record if none of them is a mapping with entries. -/
theorem SelectedAs.keepsValues_iff (made : SelectedAs columns record selected) :
    KeepsValues columns record selected ↔
      ∀ column ∈ columns, ∀ tree, record.get? column = some (.map tree) → tree = .empty := by
  refine forall₂_congr fun column member => ?_
  obtain ⟨value, found, kept⟩ := made.values column member
  rw [found, kept, Option.some_inj, Node.emptied_eq_self_iff]
  simp only [Option.some_inj]

end Record

/-! ## Tables -/

namespace Table

/-- The first column that the first incomplete record of a table lacks. -/
def FirstMissing (columns : List String) (table : Table) (missing : String) : Prop :=
  ∃ before record after, table = before ++ record :: after ∧
    (∀ earlier ∈ before, ∀ column ∈ columns, column ∈ earlier.keys) ∧
    Record.FirstMissing columns record missing

variable {columns : List String} {table selected : Table}

theorem select_eq_ok_iff :
    table.select columns = .ok selected ↔
      List.Forall₂ (Record.SelectedAs columns) table selected := by
  unfold select
  simp only [Except.mapM_eq_ok_iff_forall₂, Record.select_eq_ok_iff]

theorem select_eq_error_iff {error : ExecutionError} :
    table.select columns = .error error ↔
      ∃ missing, FirstMissing columns table missing ∧ error = .missingColumn missing := by
  have succeeds : ∀ record, (∃ cut, Record.select columns record = .ok cut) ↔
      ∀ column ∈ columns, column ∈ record.keys := by
    intro record
    constructor
    · rintro ⟨cut, reached⟩
      exact (Record.select_eq_ok_iff.mp reached).complete
    · intro complete
      exact ⟨_, Record.select_of_complete complete⟩
  unfold select
  simp only [Except.mapM_eq_error_iff, succeeds, Record.select_eq_error_iff]
  constructor
  · rintro ⟨before, record, after, split, complete, missing, first, same⟩
    exact ⟨missing, ⟨before, record, after, split, complete, first⟩, same⟩
  · rintro ⟨missing, ⟨before, record, after, split, complete, first⟩, same⟩
    exact ⟨before, record, after, split, complete, missing, first, same⟩

theorem exists_select_eq_ok_iff :
    (∃ selected, table.select columns = .ok selected) ↔
      ∀ record ∈ table, ∀ column ∈ columns, column ∈ record.keys := by
  constructor
  · rintro ⟨selected, reached⟩ record member
    obtain ⟨cut, _, made⟩ := Related.exists_right (select_eq_ok_iff.mp reached) member
    exact made.complete
  · intro complete
    have made : ∃ selected, table.select columns = .ok selected ∧
        List.Forall₂ (Record.SelectedAs columns) table selected :=
      Except.exists_mapM_eq_ok fun record member =>
        ⟨_, Record.select_of_complete (complete record member),
          Record.selectedAs_extract (complete record member)⟩
    obtain ⟨selected, reached, _⟩ := made
    exact ⟨selected, reached⟩

theorem keepsValues_iff (made : List.Forall₂ (Record.SelectedAs columns) table selected) :
    List.Forall₂ (Record.KeepsValues columns) table selected ↔
      ∀ record ∈ table, ∀ column ∈ columns, ∀ tree,
        record.get? column = some (.map tree) → tree = .empty := by
  induction made with
  | nil => simp
  | cons first _ ih => rw [List.forall₂_cons, List.forall_mem_cons, ih, first.keepsValues_iff]

/-- A selection succeeds exactly on the tables whose records have all the columns, and
otherwise names the first column that the first incomplete record lacks.  Its records
stand in the order of the table and hold the distinct columns in the order of their first
mention, with the values that they had, except that a mapping loses its keys.  A commit
with columns emits the selection, where one without columns emits the table itself. -/
theorem select_empties_mappings (columns : List String) (table : Table) :
    (∀ selected, table.select columns = .ok selected ↔
      List.Forall₂ (Record.SelectedAs columns) table selected) ∧
    (∀ error, table.select columns = .error error ↔
      ∃ missing, FirstMissing columns table missing ∧ error = .missingColumn missing) ∧
    ((∃ selected, table.select columns = .ok selected) ↔
      ∀ record ∈ table, ∀ column ∈ columns, column ∈ record.keys) ∧
    (∀ selected, table.select columns = .ok selected →
      (List.Forall₂ (Record.KeepsValues columns) table selected ↔
        ∀ record ∈ table, ∀ column ∈ columns, ∀ tree,
          record.get? column = some (.map tree) → tree = .empty)) ∧
    ∀ (machine : Machine) (below : List Table), machine.stack = table :: below → ∀ name,
      machine.commit name none = .ok (machine.emit name table) ∧
      machine.commit name (some columns) = (table.select columns).map (machine.emit name) := by
  refine ⟨fun _ => select_eq_ok_iff, fun _ => select_eq_error_iff, exists_select_eq_ok_iff,
    fun _ reached => keepsValues_iff (select_eq_ok_iff.mp reached), ?_⟩
  rintro ⟨_, bindings, output⟩ below rfl name
  exact ⟨rfl, Machine.commit_eq _ name (some columns)⟩

/-- A selected column need not keep its value: the entries of a nested mapping are lost. -/
theorem nested_entries_lost :
    ¬∀ (columns : List String) (table selected : Table), table.select columns = .ok selected →
      List.Forall₂ (Record.KeepsValues columns) table selected := by
  intro keeps
  let record : Record := .ofList [("a", .map (.ofList [("b", .scalar "1")]))]
  have kept := keeps ["a"] [record] [.ofList [("a", .map .empty)]] (by rfl)
  cases kept with
  | cons first _ =>
      have same := first "a" List.mem_cons_self
      have sizes := congrArg (Option.map fun node => node.map?.map OrderedMap.size) same
      exact absurd sizes (by decide)

end Table

end TableScript
