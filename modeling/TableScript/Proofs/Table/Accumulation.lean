import Mathlib.Algebra.BigOperators.Group.List.Basic
import Mathlib.Algebra.Ring.Int.Defs
import TableScript.Aggregate
import TableScript.Proofs.Except
import TableScript.Proofs.Map.Ordered

/-!
# What an aggregation comes to

An aggregation goes through the records one by one, and through the chosen columns of each.
If integers may be combined in groups, it comes to what they come to in one pass over all
cells, row by row.  It fails on the first cell, in the same order, that holds no integer.
-/

namespace TableScript

/-! ## Totals -/

namespace Aggregate

/-- That integers may be combined in groups, each of which begins from the identity. -/
structure Groupable (aggregate : Aggregate) : Prop where
  assoc : ∀ first second third, aggregate.combine (aggregate.combine first second) third =
    aggregate.combine first (aggregate.combine second third)
  combine_identity : ∀ value, aggregate.combine value aggregate.identity = value

theorem groupable_add : add.Groupable := ⟨Int.add_assoc, Int.add_zero⟩

theorem groupable_mult : mult.Groupable := ⟨Int.mul_assoc, Int.mul_one⟩

def total (aggregate : Aggregate) (numbers : List Int) : Int :=
  numbers.foldl aggregate.combine aggregate.identity

theorem total_add (numbers : List Int) : add.total numbers = numbers.sum :=
  List.sum_eq_foldl.symm

theorem total_mult (numbers : List Int) : mult.total numbers = numbers.prod :=
  List.prod_eq_foldl.symm

variable {aggregate : Aggregate}

theorem Groupable.combine_total (groupable : aggregate.Groupable) (start : Int)
    (numbers : List Int) :
    aggregate.combine start (aggregate.total numbers) =
      numbers.foldl aggregate.combine start := by
  have associative : Std.Associative aggregate.combine := ⟨groupable.assoc⟩
  calc aggregate.combine start (aggregate.total numbers)
      = numbers.foldl aggregate.combine (aggregate.combine start aggregate.identity) :=
        List.foldl_assoc.symm
    _ = numbers.foldl aggregate.combine start := by rw [groupable.combine_identity]

/-- The totals of rows combine to what all their integers combine to. -/
theorem Groupable.foldl_totals (groupable : aggregate.Groupable) (rows : List (List Int))
    (start : Int) :
    (rows.map aggregate.total).foldl aggregate.combine start =
      rows.flatten.foldl aggregate.combine start := by
  induction rows generalizing start with
  | nil => rfl
  | cons row rest ih =>
      rw [List.map_cons, List.foldl_cons, groupable.combine_total, ih, List.flatten_cons,
        List.foldl_append]

end Aggregate

/-! ## Cells -/

namespace Record

/-- That a cell, a record and a column of it, holds the text of an integer. -/
def Reads (cell : Record × String) (number : Int) : Prop :=
  ∃ text, cell.1.get? cell.2 = some (.scalar text) ∧ Numeral.read? text = some number

/-- Why a cell holds no integer: its record lacks the column, or has another value there. -/
inductive Refuses (cell : Record × String) : ExecutionError → Prop where
  | missing (absent : cell.2 ∉ cell.1.keys) : Refuses cell (.missingColumn cell.2)
  | unreadable {node : Node} (present : cell.1.get? cell.2 = some node)
      (unread : ∀ number, ¬Reads cell number) : Refuses cell (.notANumber cell.2 node.display)

variable {record : Record} {column : String}

theorem reads_iff_of_get? {node : Node} (present : record.get? column = some node)
    {number : Int} :
    Reads (record, column) number ↔ node.scalar?.bind Numeral.read? = some number := by
  unfold Reads
  rw [present]
  cases node with
  | scalar text => simp [Node.scalar?]
  | map tree => simp [Node.scalar?]
  | seq items => simp [Node.scalar?]

theorem number_of_reads {value : Int} (reads : Reads (record, column) value) :
    number record column = .ok value := by
  obtain ⟨text, present, read⟩ := reads
  unfold number
  simp only [present, Node.scalar?, Option.bind_some, read]

theorem number_of_refuses {error : ExecutionError} (refuses : Refuses (record, column) error) :
    number record column = .error error := by
  unfold number
  cases refuses with
  | missing absent => rw [OrderedMap.get?_eq_none_iff.mpr absent]
  | @unreadable node present unread =>
      have nothing : node.scalar?.bind Numeral.read? = none := by
        rw [Option.eq_none_iff_forall_ne_some]
        exact fun value read => unread value ((reads_iff_of_get? present).mpr read)
      rw [present]
      simp only [nothing]

/-- A cell holds an integer, or there is one reason why it does not. -/
theorem reads_or_refuses (record : Record) (column : String) :
    (∃ value, Reads (record, column) value) ∨ ∃ error, Refuses (record, column) error := by
  by_cases readable : ∃ value, Reads (record, column) value
  · exact .inl readable
  · right
    cases found : record.get? column with
    | none => exact ⟨_, .missing (OrderedMap.get?_eq_none_iff.mp found)⟩
    | some node => exact ⟨_, .unreadable found fun value reads => readable ⟨value, reads⟩⟩

theorem number_eq_ok_iff {value : Int} :
    number record column = .ok value ↔ Reads (record, column) value := by
  constructor
  · intro made
    obtain ⟨other, reads⟩ | ⟨error, refuses⟩ := reads_or_refuses record column
    · cases (number_of_reads reads).symm.trans made
      exact reads
    · cases (number_of_refuses refuses).symm.trans made
  · exact number_of_reads

theorem number_eq_error_iff {error : ExecutionError} :
    number record column = .error error ↔ Refuses (record, column) error := by
  constructor
  · intro failed
    obtain ⟨value, reads⟩ | ⟨other, refuses⟩ := reads_or_refuses record column
    · cases (number_of_reads reads).symm.trans failed
    · cases (number_of_refuses refuses).symm.trans failed
      exact refuses
  · exact number_of_refuses

end Record

/-! ## Tables -/

namespace Table

/-- The cells of some columns, row by row. -/
def cells (columns : List String) (table : Table) : List (Record × String) :=
  table.flatMap fun record => columns.map fun column => (record, column)

variable {aggregate : Aggregate} {columns : List String} {table : Table}

/-- An aggregation combines the totals of the records. -/
theorem aggregate_eq_rows (aggregate : Aggregate) (columns : List String) (table : Table) :
    table.aggregate aggregate columns =
      (table.mapM fun record => columns.mapM (Record.number record)).map fun rows =>
        aggregate.total (rows.map aggregate.total) := by
  have each : Record.aggregate aggregate columns = fun record =>
      (columns.mapM (Record.number record)).map aggregate.total := funext fun record =>
    Except.foldlM_map_eq (Record.number record) aggregate.combine columns aggregate.identity
  unfold Table.aggregate
  rw [Except.foldlM_map_eq, each, Except.mapM_change]
  cases table.mapM fun record => columns.mapM (Record.number record) with
  | error failure => rfl
  | ok rows => rfl

theorem mapM_cells (columns : List String) (table : Table) :
    ((cells columns table).mapM fun cell => Record.number cell.1 cell.2) =
      (table.mapM fun record => columns.mapM (Record.number record)).map List.flatten := by
  have each : ∀ record : Record, ((columns.map fun column => (record, column)).mapM
      fun cell => Record.number cell.1 cell.2) = columns.mapM (Record.number record) :=
    fun _ => List.mapM_map
  unfold cells
  rw [Except.mapM_flatMap]
  simp only [each]

/-- If integers may be combined in groups, it makes no difference in which records they are. -/
theorem aggregate_of_groupable (groupable : aggregate.Groupable) (columns : List String)
    (table : Table) :
    table.aggregate aggregate columns =
      ((cells columns table).mapM fun cell => Record.number cell.1 cell.2).map
        aggregate.total := by
  rw [aggregate_eq_rows, mapM_cells]
  cases table.mapM fun record => columns.mapM (Record.number record) with
  | error failure => rfl
  | ok rows => exact congrArg Except.ok (groupable.foldl_totals rows aggregate.identity)

theorem aggregate_eq_ok_iff (groupable : aggregate.Groupable) {value : Int} :
    table.aggregate aggregate columns = .ok value ↔
      ∃ numbers, List.Forall₂ Record.Reads (cells columns table) numbers ∧
        aggregate.total numbers = value := by
  rw [aggregate_of_groupable groupable, Except.map_eq_ok]
  simp only [Except.mapM_eq_ok_iff_forall₂, Record.number_eq_ok_iff, Prod.mk.eta]

/-- An aggregation fails on the first cell that holds no integer. -/
theorem aggregate_eq_error_iff {error : ExecutionError} :
    table.aggregate aggregate columns = .error error ↔
      ∃ before cell after, cells columns table = before ++ cell :: after ∧
        (∀ earlier ∈ before, ∃ number, Record.Reads earlier number) ∧
        Record.Refuses cell error := by
  have same : table.aggregate aggregate columns = .error error ↔
      ((cells columns table).mapM fun cell => Record.number cell.1 cell.2) = .error error := by
    rw [aggregate_eq_rows, mapM_cells, Except.map_eq_error, Except.map_eq_error]
  rw [same, Except.mapM_eq_error_iff]
  simp only [Record.number_eq_ok_iff, Record.number_eq_error_iff, Prod.mk.eta]

theorem exists_aggregate_eq_ok_iff :
    (∃ value, table.aggregate aggregate columns = .ok value) ↔
      ∀ cell ∈ cells columns table, ∃ number, Record.Reads cell number := by
  have same : (∃ value, table.aggregate aggregate columns = .ok value) ↔
      ∃ numbers, ((cells columns table).mapM fun cell => Record.number cell.1 cell.2) =
        .ok numbers := by
    rw [aggregate_eq_rows, mapM_cells]
    cases table.mapM fun record => columns.mapM (Record.number record) with
    | error failure => simp [Except.map]
    | ok rows => simp [Except.map]
  rw [same]
  constructor
  · rintro ⟨numbers, made⟩ cell member
    obtain ⟨number, _, read⟩ := Related.exists_right (Except.forall₂_of_mapM_eq_ok made) member
    exact ⟨number, Record.number_eq_ok_iff.mp read⟩
  · intro readable
    have each : ∀ cell ∈ cells columns table, ∃ number,
        Record.number cell.1 cell.2 = .ok number ∧ Record.Reads cell number :=
      fun cell member => (readable cell member).imp fun number reads =>
        ⟨Record.number_of_reads reads, reads⟩
    obtain ⟨numbers, made, _⟩ := Except.exists_mapM_eq_ok each
    exact ⟨numbers, made⟩

theorem forall_mem_cells_iff {property : Record × String → Prop} :
    (∀ cell ∈ cells columns table, property cell) ↔
      ∀ record ∈ table, ∀ column ∈ columns, property (record, column) := by
  unfold cells
  simp only [List.forall_mem_flatMap, List.forall_mem_map]

end Table

/-- A function that is not known refuses every table.  One that is known comes to a value exactly
on the tables whose records all hold integers in all its columns, and otherwise fails on the
first cell, row by row, that holds none.  If integers may be combined in groups, the value is what
the integers of all cells come to in their order; so the built-in functions give their sum and
their product. -/
theorem Functions.accumulate_combines_cells (functions : Functions) (call : Call)
    (table : Table) :
    (functions.get? call.name = none →
      functions.accumulate call table = .error (.unknownFunction call.name)) ∧
    (∀ aggregate, functions.get? call.name = some aggregate →
      ((∃ value, functions.accumulate call table = .ok value) ↔ ∀ record ∈ table,
        ∀ column ∈ call.arguments, ∃ number, Record.Reads (record, column) number) ∧
      (∀ error, functions.accumulate call table = .error error ↔
        ∃ before cell after, Table.cells call.arguments table = before ++ cell :: after ∧
          (∀ earlier ∈ before, ∃ number, Record.Reads earlier number) ∧
          Record.Refuses cell error) ∧
      (aggregate.Groupable → ∀ value, functions.accumulate call table = .ok value ↔
        ∃ numbers, List.Forall₂ Record.Reads (Table.cells call.arguments table) numbers ∧
          aggregate.total numbers = value)) ∧
    (Aggregate.add.Groupable ∧ ∀ numbers, Aggregate.add.total numbers = numbers.sum) ∧
    Aggregate.mult.Groupable ∧ ∀ numbers, Aggregate.mult.total numbers = numbers.prod := by
  refine ⟨?_, ?_, ⟨Aggregate.groupable_add, Aggregate.total_add⟩, Aggregate.groupable_mult,
    Aggregate.total_mult⟩
  · intro unknown
    unfold accumulate
    rw [unknown]
  · intro aggregate known
    have applied : functions.accumulate call table = table.aggregate aggregate call.arguments := by
      unfold accumulate
      rw [known]
    rw [applied]
    refine ⟨?_, fun _ => Table.aggregate_eq_error_iff, fun groupable _ =>
      Table.aggregate_eq_ok_iff groupable⟩
    rw [Table.exists_aggregate_eq_ok_iff, Table.forall_mem_cells_iff]

/-- A column that is listed twice counts twice, and the first cell that holds no integer is
reported before a column that is missing behind it. -/
theorem listed_columns_count_in_order :
    let table : Table := [Tree.ofScalars [("p", " 1_0 "), ("q", "x")],
      Tree.ofScalars [("q", "3"), ("p", "-2")]]
    Functions.builtin.accumulate ⟨"mult", ["p", "p"]⟩ table = .ok 400 ∧
      Functions.builtin.accumulate ⟨"add", ["p", "q", "z"]⟩ table =
        .error (.notANumber "q" "x") ∧
      Functions.builtin.accumulate ⟨"mean", ["z"]⟩ [] = .error (.unknownFunction "mean") := by
  intro table
  have first : Record.Reads (Tree.ofScalars [("p", " 1_0 "), ("q", "x")], "p") 10 :=
    ⟨" 1_0 ", rfl, by decide⟩
  have second : Record.Reads (Tree.ofScalars [("q", "3"), ("p", "-2")], "p") (-2) :=
    ⟨"-2", rfl, by decide⟩
  have unread : ∀ number,
      ¬Record.Reads (Tree.ofScalars [("p", " 1_0 "), ("q", "x")], "q") number := by
    rintro number ⟨text, present, read⟩
    cases present
    cases read
  have refused : Record.Refuses (Tree.ofScalars [("p", " 1_0 "), ("q", "x")], "q")
      (.notANumber "q" "x") :=
    @Record.Refuses.unreadable (_, "q") (.scalar "x") rfl unread
  obtain ⟨_, mult, _, grouped, _⟩ :=
    Functions.accumulate_combines_cells .builtin ⟨"mult", ["p", "p"]⟩ table
  obtain ⟨_, add, _⟩ :=
    Functions.accumulate_combines_cells .builtin ⟨"add", ["p", "q", "z"]⟩ table
  obtain ⟨unknown, _⟩ := Functions.accumulate_combines_cells .builtin ⟨"mean", ["z"]⟩ []
  refine ⟨?_, ?_, unknown rfl⟩
  · exact ((mult .mult rfl).2.2 grouped 400).mpr
      ⟨[10, 10, -2, -2], .cons first (.cons first (.cons second (.cons second .nil))), rfl⟩
  · exact ((add .add rfl).2.1 _).mpr ⟨[_], _, _, rfl, List.forall_mem_singleton.mpr ⟨10, first⟩,
      refused⟩

end TableScript
