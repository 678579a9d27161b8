import TableScript.Execution.Run
import TableScript.Proofs.Table.Accumulation
import TableScript.Proofs.Text.Numeral

/-!
# Integers in tables

Which values of a column are integers, and that an accumulated integer stays one: to
accumulate the table of a single result again changes nothing.
-/

namespace TableScript

namespace Aggregate

/-- That the identity of an aggregate may stand in front of any integer. -/
def StartsNeutral (aggregate : Aggregate) : Prop :=
  ∀ value, aggregate.combine aggregate.identity value = value

theorem startsNeutral_add : add.StartsNeutral := Int.zero_add

theorem startsNeutral_mult : mult.StartsNeutral := Int.one_mul

end Aggregate

namespace Record

/-- A cell is an integer exactly if its value is a text that denotes it between blanks. -/
theorem number_eq_ok_iff_denotes {record : Record} {column : String} {node : Node}
    (present : record.get? column = some node) {value : Int} :
    number record column = .ok value ↔ ∃ text core, node = .scalar text ∧
      Text.TrimsTo text.toList core ∧ Numeral.Denotes core value := by
  rw [number_eq_ok_iff, Reads, present]
  simp only [Option.some.injEq, Numeral.read?_eq_some_iff, exists_and_left]

theorem number_eq_notANumber {record : Record} {column : String} {node : Node}
    (present : record.get? column = some node)
    (unread : ∀ value, number record column ≠ .ok value) :
    number record column = .error (.notANumber column node.display) := by
  apply number_of_refuses
  exact .unreadable present fun value reads => unread value (number_eq_ok_iff.mpr reads)

/-- The cell of an accumulated integer is the integer. -/
theorem reads_ofScalars_write (column : String) (value : Int) :
    Reads (Tree.ofScalars [(column, Numeral.write value)], column) value := by
  refine ⟨Numeral.write value, ?_, Numeral.read?_write value⟩
  unfold Tree.ofScalars
  rw [OrderedMap.get?_ofList]
  simp

end Record

namespace Machine

variable {functions : Functions} {machine after : Machine} {column name : String} {call : Call}
  {result : Option String}

theorem accumulate_eq_ok
    (accumulated : machine.accumulate functions column call result = .ok after) :
    ∃ top below value, machine.stack = top :: below ∧
      functions.accumulate call top = .ok value ∧
      after = { machine with stack := single (result.getD column) value :: below } := by
  unfold accumulate at accumulated
  split at accumulated
  · next top below stack =>
      obtain ⟨value, total, same⟩ := Except.bind_eq_ok.mp accumulated
      cases same
      exact ⟨top, below, value, stack, total, rfl⟩
  · cases accumulated

/-- A single integer comes to itself. -/
theorem aggregate_single {aggregate : Aggregate} (neutral : aggregate.StartsNeutral)
    (column : String) (value : Int) :
    (single column value).aggregate aggregate [column] = .ok value := by
  have number := Record.number_eq_ok_iff.mpr (Record.reads_ofScalars_write column value)
  have row : Record.aggregate aggregate [column]
      (Tree.ofScalars [(column, Numeral.write value)]) = .ok value := by
    unfold Record.aggregate
    simp only [List.foldlM_cons, List.foldlM_nil, number, Except.map, neutral value]
    rfl
  unfold Table.aggregate single
  simp only [List.foldlM_cons, List.foldlM_nil, row, Except.map, neutral value]
  rfl

/-- To accumulate the table of a single result again, under the same name and by a function that
starts neutral, changes nothing. -/
theorem accumulate_again {aggregate : Aggregate} (known : functions.get? name = some aggregate)
    (neutral : aggregate.StartsNeutral) {value : Int} {below : List Table}
    (stack : machine.stack = single (result.getD column) value :: below) :
    machine.accumulate functions column ⟨name, [result.getD column]⟩ result = .ok machine := by
  have total : functions.accumulate ⟨name, [result.getD column]⟩
      (single (result.getD column) value) = .ok value := by
    unfold Functions.accumulate
    simp only [known]
    exact aggregate_single neutral (result.getD column) value
  obtain ⟨tables, bindings, output⟩ := machine
  obtain rfl : tables = _ := stack
  unfold accumulate
  simp only [total]
  rfl

end Machine

/-- The value of a column is an integer exactly if it is a text that is, between blanks, at most
one sign, a digit, and then digits and underscores; every other value is reported as no number.
What an accumulation writes is the integer that it comes to, so that accumulating it again by
`add` or `mult`, with its only column as argument and result, leaves the machine as it is. -/
theorem Step.accumulated_integers_stay :
    (∀ (record : Record) (column : String) (node : Node), record.get? column = some node →
      (∀ value, Record.number record column = .ok value ↔ ∃ text core, node = .scalar text ∧
        Text.TrimsTo text.toList core ∧ Numeral.Denotes core value) ∧
      ((∀ value, Record.number record column ≠ .ok value) →
        Record.number record column = .error (.notANumber column node.display))) ∧
    (∀ value, Numeral.read? (Numeral.write value) = some value) ∧
    ∀ (functions : Functions) (fetched : Except ExecutionError Table) (machine after : Machine)
      (column : String) (call : Call) (result : Option String),
      (accumulate column call result).perform functions fetched machine = .ok after →
      (∃ below value, after.stack = Machine.single (result.getD column) value :: below ∧
        Record.number (Tree.ofScalars [(result.getD column, Numeral.write value)])
          (result.getD column) = .ok value) ∧
      ∀ name ∈ ["add", "mult"], functions.get? name = Functions.builtin.get? name →
        ∀ (fetched' : Except ExecutionError Table) (column' : String) (result' : Option String),
          result'.getD column' = result.getD column →
          (accumulate column' ⟨name, [result.getD column]⟩ result').perform functions fetched'
            after = .ok after := by
  refine ⟨fun record column node present => ⟨fun value => ?_, ?_⟩, Numeral.read?_write, ?_⟩
  · exact Record.number_eq_ok_iff_denotes present
  · exact Record.number_eq_notANumber present
  · intro functions fetched machine after column call result performed
    obtain ⟨top, below, value, _, _, same⟩ := Machine.accumulate_eq_ok performed
    have stack : after.stack = Machine.single (result.getD column) value :: below := by rw [same]
    refine ⟨⟨below, value, stack, ?_⟩, ?_⟩
    · exact Record.number_eq_ok_iff.mpr (Record.reads_ofScalars_write _ value)
    · intro name listed known _ column' result' named
      rw [← named] at stack ⊢
      rcases List.mem_pair.mp listed with rfl | rfl
      · exact Machine.accumulate_again known Aggregate.startsNeutral_add stack
      · exact Machine.accumulate_again known Aggregate.startsNeutral_mult stack

/-- Blanks around a number do not count and two signs make none, and a total is its own total and
its own product. -/
theorem Step.total_stays :
    let machine : Machine :=
      ⟨[[Tree.ofScalars [("p", "\t+1_2 ")], Tree.ofScalars [("p", "-5")]]], .empty, []⟩
    let after : Machine := ⟨[Machine.single "s" 7], .empty, []⟩
    Record.number (Tree.ofScalars [("p", "\t+1_2 ")]) "p" = .ok 12 ∧
      Record.number (Tree.ofScalars [("p", "+-5")]) "p" = .error (.notANumber "p" "+-5") ∧
      (accumulate "p" ⟨"add", ["p"]⟩ (some "s")).perform .builtin (.ok []) machine = .ok after ∧
      (accumulate "s" ⟨"mult", ["s"]⟩ none).perform .builtin (.ok []) after = .ok after := by
  intro machine after
  obtain ⟨cells, _, machines⟩ := Step.accumulated_integers_stay
  have ran : (accumulate "p" ⟨"add", ["p"]⟩ (some "s")).perform .builtin (.ok []) machine =
      .ok after := rfl
  refine ⟨?_, ?_, ran, ?_⟩
  · refine ((cells _ "p" (.scalar "\t+1_2 ") rfl).1 12).mpr ⟨_, "+1_2".toList, rfl, ?_, ?_⟩
    · exact Text.trimsTo_iff.mpr (by decide)
    · exact Numeral.signed?_eq_some_iff.mp (by decide)
  · refine (cells _ "p" (.scalar "+-5") rfl).2 fun value made => ?_
    cases made
  · exact (machines .builtin (.ok []) machine after "p" _ _ ran).2 "mult" (by decide) rfl
      (.ok []) "s" none rfl

end TableScript
