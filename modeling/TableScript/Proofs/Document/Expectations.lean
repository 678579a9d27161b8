import Mathlib.Data.List.Induction
import TableScript.Proofs.Document.Meaning
import TableScript.Proofs.Table.Select
import TableScript.Proofs.Text.Lines
import TableScript.Proofs.Tree.Path

/-!
# Tables that conform to a document

A table conforms to what is expected of it if its records have values at certain paths: an
expected column that holds points is the path to a value in nested mappings.  A selection, and
with it a commit, goes by the keys of a record.  The two agree exactly as long as no expected
column holds a point.
-/

namespace TableScript

/-! ## Columns as paths -/

namespace Path

theorem ofText_of_undotted {column : String} (undotted : '.' ∉ column.toList) :
    ofText column = [column] := by
  unfold ofText Text.split
  rw [Text.pieces_of_notMem undotted, List.map_singleton, String.ofList_toList]

theorem exists_ofText_of_dotted {column : String} (dotted : '.' ∈ column.toList) :
    ∃ key rest, rest ≠ [] ∧ ofText column = key :: rest := by
  obtain ⟨before, after, split, fresh⟩ := List.eq_append_cons_of_mem dotted
  refine ⟨String.ofList before, (Text.pieces '.' after).map String.ofList, ?_, ?_⟩
  · intro nothing
    exact Text.pieces_ne_nil '.' after (List.map_eq_nil_iff.mp nothing)
  · unfold ofText Text.split
    rw [split, Text.pieces_append fresh]
    rfl

end Path

/-- That none of some columns holds a point. -/
def Undotted (columns : List String) : Prop := ∀ column ∈ columns, '.' ∉ column.toList

namespace Record

variable {record : Record} {column : String}

theorem containsPath_of_undotted (undotted : '.' ∉ column.toList) :
    Tree.containsPath record (Path.ofText column) = true ↔ column ∈ record.keys := by
  rw [Path.ofText_of_undotted undotted, OrderedMap.mem_keys_iff, ← Option.isSome_iff_exists]
  rfl

/-- In a record without nested entries there is nothing behind a point. -/
theorem not_containsPath_of_dotted
    (flat : ∀ key, Node.treeOf (record.get? key) = .empty) (dotted : '.' ∈ column.toList) :
    ¬Tree.containsPath record (Path.ofText column) = true := by
  obtain ⟨key, rest, more, path⟩ := Path.exists_ofText_of_dotted dotted
  unfold Tree.containsPath
  rw [path, Tree.find?_cons record key more, flat, Tree.empty_find?]
  exact Bool.false_ne_true

/-- A selected record has no nested entries. -/
theorem SelectedAs.flat {columns : List String} {record selected : Record}
    (made : SelectedAs columns record selected) (key : String) :
    Node.treeOf (selected.get? key) = .empty := by
  by_cases listed : key ∈ columns
  · obtain ⟨value, _, kept⟩ := made.values key listed
    rw [kept]
    cases value with
    | scalar _ => rfl
    | map _ => rfl
    | seq _ => rfl
  · have absent : selected.get? key = none := by
      rw [OrderedMap.get?_eq_none_iff, made.keys, List.mem_eraseDups]
      exact listed
    rw [absent]
    rfl

end Record

/-! ## The expectations of a document -/

namespace Rule

theorem addColumns_nil (columns : List String) : addColumns [] columns = columns.eraseDups := by
  induction columns using List.reverseRecOn with
  | nil => rfl
  | append_singleton earlier column ih =>
      unfold addColumns at ih ⊢
      rw [List.foldl_append, ih, List.eraseDups_append]
      by_cases known : column ∈ earlier
      · simp [List.removeAll, known]
      · simp [List.removeAll, known, List.eraseDups_cons]

/-- Expectations of different tables do not add up, but a column counts once. -/
theorem get?_expectations_expectAll {entries : List (String × List String)}
    (distinct : (entries.map Prod.fst).Nodup) (name : String) :
    (entries.foldl (fun rule entry => rule.expect entry.1 entry.2) empty).expectations.get? name =
      (entries.lookup name).map List.eraseDups := by
  induction entries using List.reverseRecOn generalizing name with
  | nil => rfl
  | append_singleton earlier entry ih =>
      obtain ⟨table, columns⟩ := entry
      rw [List.map_append, List.nodup_append] at distinct
      obtain ⟨before, -, apart⟩ := distinct
      have fresh : earlier.lookup table = none :=
        Lookup.eq_none_iff.mpr fun member => apart table member table List.mem_cons_self rfl
      rw [List.foldl_append, List.lookup_append]
      show (SortedMap.insert _ _ _).get? name = _
      rw [SortedMap.get?_insert, ih before, ih before]
      by_cases same : name = table
      · subst same
        simp [fresh, addColumns_nil]
      · have differs : (name == table) = false := by simp [same]
        simp [same, List.lookup_cons, differs]

theorem expectations_attachAll (rule : Rule) (entries : List (String × String)) :
    (entries.foldl (fun rule entry => rule.attach entry.2 entry.1) rule).expectations =
      rule.expectations := by
  induction entries generalizing rule with
  | nil => rfl
  | cons entry rest ih => exact ih (rule.attach entry.2 entry.1)

theorem get?_expectations_ofDocument (document : Document) (name : String) :
    (ofDocument document).expectations.get? name =
      (document.header.expects.get? name).map List.eraseDups := by
  unfold ofDocument
  rw [expectations_attachAll, get?_expectations_expectAll document.header.expects.keys_nodup]
  rfl

theorem conforms_iff {rule : Rule} {name : String} {columns : List String}
    (expected : rule.expectations.get? name = some columns) (table : Table) :
    rule.conforms name table = true ↔ ∀ record ∈ table, ∀ column ∈ columns,
      Tree.containsPath record (Path.ofText column) = true := by
  unfold conforms
  rw [expected]
  simp only [List.all_eq_true]

/-- A selection of all expected columns conforms if it has no records, or if no expected column
holds a point. -/
theorem conforms_selected_iff {rule : Rule} {name : String} {columns listed : List String}
    (expected : rule.expectations.get? name = some columns) (covered : columns ⊆ listed)
    {table selected : Table} (made : table.select listed = .ok selected) :
    rule.conforms name selected = true ↔ selected = [] ∨ Undotted columns := by
  have each := Table.select_eq_ok_iff.mp made
  rw [conforms_iff expected]
  constructor
  · intro contains
    by_cases nothing : selected = []
    · exact .inl nothing
    · right
      intro column member dotted
      obtain ⟨record, held⟩ := List.exists_mem_of_ne_nil selected nothing
      obtain ⟨_, _, cut⟩ := Related.exists_left each held
      exact Record.not_containsPath_of_dotted cut.flat dotted (contains record held column member)
  · rintro (rfl | undotted)
    · exact List.forall_mem_nil _
    · intro record held column member
      obtain ⟨_, _, cut⟩ := Related.exists_left each held
      rw [Record.containsPath_of_undotted (undotted column member), cut.keys, List.mem_eraseDups]
      exact covered member

/-- To conform and to be selectable is the same for all tables exactly if no expected column holds
a point. -/
theorem conforms_iff_select_iff_undotted {rule : Rule} {name : String} {columns : List String}
    (expected : rule.expectations.get? name = some columns) :
    (∀ table, rule.conforms name table = true ↔
      ∃ selected, table.select columns = .ok selected) ↔ Undotted columns := by
  constructor
  · intro agree
    -- a table that is selected already can be selected again, but has no nested entries
    have complete : ∀ record ∈ [Record.shape columns], ∀ column ∈ columns,
        column ∈ record.keys := by
      rintro record (_ | ⟨_, ⟨⟩⟩) column member
      rw [← OrderedMap.map_fst_toList, Record.toList_shape, List.map_map]
      exact List.mem_map.mpr ⟨column, List.mem_eraseDups.mpr member, rfl⟩
    obtain ⟨selected, made⟩ := Table.exists_select_eq_ok_iff.mpr complete
    have each := Table.select_eq_ok_iff.mp made
    have again : ∃ other, selected.select columns = .ok other := by
      rw [Table.exists_select_eq_ok_iff]
      intro record held column member
      obtain ⟨_, _, cut⟩ := Related.exists_left each held
      rw [cut.keys, List.mem_eraseDups]
      exact member
    obtain nothing | undotted := (conforms_selected_iff expected (List.Subset.refl _) made).mp
      ((agree selected).mpr again)
    · rw [nothing] at each
      cases each
    · exact undotted
  · intro undotted table
    rw [conforms_iff expected, Table.exists_select_eq_ok_iff]
    exact forall₄_congr fun record _ column member =>
      Record.containsPath_of_undotted (undotted column member)

end Rule

/-- A script has names without points only. -/
theorem Document.undotted_of_parseScript {script : String} {document : Document}
    (read : parseScript script = .ok document) {name : String} {listed : List String}
    (declared : document.header.expects.get? name = some listed) : Undotted listed := by
  intro column member dotted
  have wellFormed : (Statement.expects name listed).WellFormed :=
    (printable_of_parseLines read).wellFormed _ (mem_statements.mpr
      (.inr (.inl ⟨(name, listed), SortedMap.get?_eq_some_iff.mp declared, rfl⟩)))
  obtain alnum | underscore := (wellFormed.2.2 column member).2 '.' dotted
  · exact absurd alnum (by decide)
  · exact absurd underscore (by decide)

namespace Rule

/-- The expected columns of a table are those that the document lists, each once.  The table
conforms if its records have values at the paths that these columns denote, and can be selected
if the columns are keys of its records.  That is the same for all tables exactly if no expected
column holds a point, and in the document of a script none does.  A table that is committed with
all expected columns conforms, unless it has records and one of the columns holds a point. -/
theorem conforms_like_selection_iff_undotted {document : Document} {name : String}
    {columns : List String}
    (expected : (ofDocument document).expectations.get? name = some columns) :
    (∃ listed, document.header.expects.get? name = some listed ∧ listed.eraseDups = columns) ∧
    (∀ table, (ofDocument document).conforms name table = true ↔ ∀ record ∈ table,
      ∀ column ∈ columns, Tree.containsPath record (Path.ofText column) = true) ∧
    (∀ table : Table, (∃ selected, table.select columns = .ok selected) ↔ ∀ record ∈ table,
      ∀ column ∈ columns, column ∈ record.keys) ∧
    ((∀ table, (ofDocument document).conforms name table = true ↔
      ∃ selected, table.select columns = .ok selected) ↔ Undotted columns) ∧
    (∀ listed, columns ⊆ listed → ∀ machine after,
      Machine.commit machine name (some listed) = .ok after → ∃ selected,
        after.output = machine.output ++ [⟨name, selected⟩] ∧
        ((ofDocument document).conforms name selected = true ↔
          selected = [] ∨ Undotted columns)) ∧
    ∀ script, Document.parseScript script = .ok document → Undotted columns := by
  have declared := expected
  rw [get?_expectations_ofDocument, Option.map_eq_some_iff] at declared
  obtain ⟨listed, held, same⟩ := declared
  refine ⟨⟨listed, held, same⟩, conforms_iff expected, fun _ => Table.exists_select_eq_ok_iff,
    conforms_iff_select_iff_undotted expected, ?_, ?_⟩
  · rintro chosen covered ⟨stack, bindings, output⟩ after committed
    cases stack with
    | nil => cases committed
    | cons top below =>
        rw [Machine.commit_eq] at committed
        obtain ⟨selected, made, rfl⟩ := Except.map_eq_ok.mp committed
        exact ⟨selected, rfl, conforms_selected_iff expected covered made⟩
  · intro script read column member
    rw [← same, List.mem_eraseDups] at member
    exact Document.undotted_of_parseScript read held column member

def dotted : Document := ⟨⟨.ofList [("t", ["a.b", "c", "c"])], .empty⟩, []⟩

/-- A record that has the column with the point does not conform, and one that has nested
entries instead does. -/
theorem nested_entries_stand_for_dotted_column :
    (ofDocument dotted).expectations.get? "t" = some ["a.b", "c"] ∧
      (ofDocument dotted).conforms "t"
        [.ofList [("a", .map (Tree.ofScalars [("b", "1")])), ("c", .scalar "2")]] = true ∧
      (ofDocument dotted).conforms "t" [Tree.ofScalars [("a.b", "1"), ("c", "2")]] = false ∧
      ¬∀ table, (ofDocument dotted).conforms "t" table = true ↔
        ∃ selected, table.select ["a.b", "c"] = .ok selected := by
  have expected : (ofDocument dotted).expectations.get? "t" = some ["a.b", "c"] := by decide
  obtain ⟨_, paths, _, selections, _⟩ := conforms_like_selection_iff_undotted expected
  refine ⟨expected, (paths _).mpr (by decide), ?_, ?_⟩
  · rw [Bool.eq_false_iff, Ne, paths]
    decide
  · rw [selections]
    intro undotted
    exact undotted "a.b" List.mem_cons_self (by decide)

/-- A record that a commit may cut to the expected columns need not conform. -/
theorem dotted_column_is_selected_only :
    ¬∀ (text : String) (document : Document) (name : String) (columns : List String)
      (table : Table), Document.parseJson text = .ok document →
      (ofDocument document).expectations.get? name = some columns →
      ((ofDocument document).conforms name table = true ↔
        ∃ selected, table.select columns = .ok selected) := by
  intro agree
  have faithful : dotted.Faithful := List.forall_mem_nil _
  have known := agree _ dotted "t" ["a.b", "c"] [Tree.ofScalars [("a.b", "1"), ("c", "2")]]
    (Document.parseJson_of_faithful faithful) (by decide)
  have made : ∃ selected, Table.select ["a.b", "c"] [Tree.ofScalars [("a.b", "1"), ("c", "2")]] =
      .ok selected := ⟨_, rfl⟩
  exact absurd (known.mpr made) (by decide)

end Rule

end TableScript
