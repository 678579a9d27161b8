import TableScript.Proofs.Execution.Related
import TableScript.Proofs.Table.KeyOrder

/-!
# Executions up to the order of keys

Records are the same whatever order their keys stand in, and so are mappings inside them.
No execution tells them apart: over tables that are the same it commits tables that are
the same, and it stops at the same step for the same reason, if it stops.
-/

namespace TableScript

theorem Table.indistinguishable_alike (functions : Functions) :
    Indistinguishable ExecutionError.Alike Table.Alike functions where
  error_refl := .refl
  refl := .refl
  select := fun columns _ _ alike => agree_select columns alike
  join := fun pairing _ _ _ _ lefts rights => agree_join pairing lefts rights
  inclusion := fun pairing _ _ _ _ lefts rights => agree_inclusion pairing lefts rights
  accumulate := fun call _ _ alike => agree_accumulate functions call alike

namespace Context

/-- Trees are the same exactly if they become equal by sorting their keys at every depth,
and no execution tells them apart.  Over tables that are the same an execution commits
tables that are the same, and comes to its end or stops at the same step with the same
error, but for the text of a value that is no number. -/
theorem execute_ignores_key_order :
    (∀ first second : Tree, first.same second = true ↔ first.sorted = second.sorted) ∧
    ∀ {context other : Context String} {registry replaced : MemoryRegistry},
      context.Reaches registry → other.Reaches replaced →
      registry.Related Table.Alike replaced → other.functions = context.functions →
      ∀ (rule : Rule) {bindings others : Bindings}, bindings.Related Table.Alike others →
        List.Forall₂ (Commit.Related Table.Alike) (context.executeInto rule bindings []).1.output
            (other.executeInto rule others []).1.output ∧
          (context.failure? rule bindings [] = none ∧ other.failure? rule others [] = none ∨
            ∃ index error otherError, error.withoutValue = otherError.withoutValue ∧
              context.StopsAt rule bindings [] index error ∧
              other.StopsAt rule others [] index otherError) := by
  refine ⟨Tree.same_iff_sorted, ?_⟩
  intro context other registry replaced reaches otherReaches held functions rule bindings others
    bound
  have indistinguishable := Table.indistinguishable_alike context.functions
  exact executeInto_related indistinguishable reaches otherReaches held functions rule bound .nil

/-- A row and a mapping in it have their keys in one order in a registry and in the other
order in another one.  Both executions commit the joined row, and stop at the mapping, which
is no number. -/
theorem nested_keys_stand_in_any_order :
    let rule : Rule := ⟨.empty, .ofList [("s", "u")],
      [.pull ⟨"s", "t", "1"⟩ "p", .push "q", .join ⟨["a"], ["a"], [.keep "a"]⟩,
        .commit "j" none, .accumulate "n" ⟨"add", ["a"]⟩ none]⟩
    let table : Table := [OrderedMap.ofList
      [("a", .map (Tree.ofScalars [("x", "1"), ("y", "2")])), ("b", .scalar "3")]]
    let reordered : Table := [OrderedMap.ofList
      [("b", .scalar "3"), ("a", .map (Tree.ofScalars [("y", "2"), ("x", "1")]))]]
    let bindings : Bindings := OrderedMap.empty.insert "q" table
    let context := Context.new (MemoryRegistry.empty.insert "u" ⟨"s", "t", "1"⟩ table).connector
    let other := Context.new (MemoryRegistry.empty.insert "u" ⟨"s", "t", "1"⟩ reordered).connector
    context.failure? rule bindings [] =
        some (.notANumber "a" "\x7b\"x\":\"1\",\"y\":\"2\"\x7d") ∧
      List.Forall₂ (Commit.Related Table.Alike) (context.executeInto rule bindings []).1.output
        (other.executeInto rule bindings []).1.output ∧
      ∃ index error otherError, error.withoutValue = otherError.withoutValue ∧
        context.StopsAt rule bindings [] index error ∧
        other.StopsAt rule bindings [] index otherError := by
  intro rule table reordered bindings context other
  have same : table.Alike reordered := by
    unfold Table.Alike
    rfl
  have empty : MemoryRegistry.empty.Related Table.Alike .empty := fun _ _ => .none
  have held := empty.insert "u" ⟨"s", "t", "1"⟩ same
  have bound : bindings.Related Table.Alike bindings := by
    intro name
    cases bindings.get? name with
    | none => exact .none
    | some table => exact .some (.refl table)
  have stopped : context.failure? rule bindings [] =
      some (.notANumber "a" "\x7b\"x\":\"1\",\"y\":\"2\"\x7d") := by
    rfl
  obtain ⟨output, ended | stops⟩ :=
    execute_ignores_key_order.2 (.new _) (.new _) held rfl rule bound
  · rw [stopped] at ended
    cases ended.1
  · exact ⟨stopped, output, stops⟩

end Context

end TableScript
