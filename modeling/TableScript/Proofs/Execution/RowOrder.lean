import TableScript.Proofs.Execution.Related
import TableScript.Proofs.Execution.Transition
import TableScript.Proofs.Table.RowOrder

/-!
# Executions up to the order of rows

Two executions of one rule over the same tables with their rows in another order.  The
machines that they pass through hold the same rows, in some order, and what is added up
or multiplied is the same.  Only an inclusion could tell the orders apart, by the first
record that it finds.
-/

namespace TableScript

/-- That a step does not depend on the order of rows: it is no inclusion, and adds up or
multiplies if it accumulates. -/
def Step.OrderFree (functions : Functions) : Step → Prop
  | .inclusion _ => False
  | .accumulate _ call _ =>
      functions.get? call.name = some .add ∨ functions.get? call.name = some .mult
  | _ => True

def Commit.Permuted (first second : Commit) : Prop :=
  first.table = second.table ∧ first.records.Perm second.records

def Bindings.Permuted (first second : Bindings) : Prop :=
  ∀ name, Option.Rel List.Perm (first.get? name) (second.get? name)

def MemoryRegistry.Permuted (first second : MemoryRegistry) : Prop :=
  ∀ url reference,
    Option.Rel List.Perm (first.table? url reference) (second.table? url reference)

structure Machine.Permuted (first second : Machine) : Prop where
  stack : List.Forall₂ List.Perm first.stack second.stack
  bindings : Bindings.Permuted first.bindings second.bindings
  output : List.Forall₂ Commit.Permuted first.output second.output

/-- The frame that an accumulation leaves on top of the stack. -/
def Step.accumulated? : Step → Machine → Option Table
  | .accumulate _ _ _, machine => machine.stack.head?
  | _, _ => none

def Transition.accumulated? (transition : Transition) : Option Table :=
  transition.step.accumulated? transition.after

/-- The frames that accumulations leave in an execution, in the order of the steps. -/
def Context.accumulated {γ : Type} (context : Context γ) (rule : Rule) (bindings : Bindings)
    (output : Output) : List Table :=
  (context.executionTransitions rule bindings output).filterMap Transition.accumulated?

theorem MemoryRegistry.permuted_empty : MemoryRegistry.empty.Permuted .empty :=
  fun _ _ => .none

theorem MemoryRegistry.Permuted.insert {first second : MemoryRegistry}
    (permuted : first.Permuted second) (url : String) (reference : Reference)
    {table other : Table} (perm : table.Perm other) :
    (first.insert url reference table).Permuted (second.insert url reference other) :=
  MemoryRegistry.Related.insert permuted url reference perm

theorem Bindings.permuted_empty : Bindings.Permuted OrderedMap.empty OrderedMap.empty :=
  fun _ => .none

theorem Bindings.Permuted.insert {first second : Bindings} (permuted : first.Permuted second)
    (name : String) {table other : Table} (perm : table.Perm other) :
    Bindings.Permuted (first.insert name table) (second.insert name other) :=
  Bindings.Related.insert permuted name perm

namespace Machine

variable {first second after : Machine} {table other : Table}

/-! ## Single steps -/

theorem permuted_start {bindings others : Bindings} (permuted : bindings.Permuted others) :
    (start bindings []).Permuted (start others []) := ⟨.nil, permuted, .nil⟩

theorem Permuted.place (permuted : first.Permuted second) (perm : table.Perm other) :
    (first.place table).Permuted (second.place other) :=
  ⟨.cons perm permuted.stack, permuted.bindings, permuted.output⟩

theorem Permuted.emit (permuted : first.Permuted second) (name : String)
    (perm : table.Perm other) : (first.emit name table).Permuted (second.emit name other) :=
  ⟨permuted.stack, permuted.bindings.insert name perm,
    List.rel_append permuted.output (.cons ⟨rfl, perm⟩ .nil)⟩

theorem Permuted.receive (permuted : first.Permuted second) (name : String)
    (perm : table.Perm other) :
    (first.receive name table).Permuted (second.receive name other) :=
  ⟨.cons perm permuted.stack, permuted.bindings.insert name perm, permuted.output⟩

/-- That a computation comes to a machine with the same rows in some order. -/
def Follows (after : Machine) (performed : Except ExecutionError Machine) : Prop :=
  ∃ reached, performed = .ok reached ∧ after.Permuted reached

theorem follows_push (permuted : first.Permuted second) {name : String}
    (pushed : first.push name = .ok after) : after.Follows (second.push name) := by
  have bound := permuted.bindings name
  unfold push at pushed ⊢
  cases found : first.bindings.get? name with
  | none =>
      rw [found] at pushed
      cases pushed
  | some table =>
      rw [found] at pushed bound
      cases pushed
      cases other : second.bindings.get? name with
      | none =>
          rw [other] at bound
          cases bound
      | some result =>
          rw [other] at bound
          cases bound with
          | some perm => exact ⟨_, rfl, permuted.place perm⟩

theorem follows_pop (permuted : first.Permuted second) (popped : first.pop = .ok after) :
    after.Follows second.pop := by
  obtain ⟨stack, bindings, output⟩ := first
  obtain ⟨others, _, _⟩ := second
  obtain ⟨frames, bound, committed⟩ := permuted
  cases frames with
  | nil => cases popped
  | cons top below =>
      cases popped
      exact ⟨_, rfl, below, bound, committed⟩

theorem follows_duplicate (permuted : first.Permuted second)
    (duplicated : first.duplicate = .ok after) : after.Follows second.duplicate := by
  obtain ⟨stack, bindings, output⟩ := first
  obtain ⟨others, _, _⟩ := second
  obtain ⟨frames, bound, committed⟩ := permuted
  cases frames with
  | nil => cases duplicated
  | cons top below =>
      cases duplicated
      exact ⟨_, rfl, .cons top (.cons top below), bound, committed⟩

theorem follows_commit (permuted : first.Permuted second) {name : String}
    {columns : Option (List String)} (committed : first.commit name columns = .ok after) :
    after.Follows (second.commit name columns) := by
  obtain ⟨stack, bindings, output⟩ := first
  obtain ⟨others, _, _⟩ := second
  have frames := permuted.stack
  cases frames with
  | nil => cases columns <;> cases committed
  | cons top below =>
      cases columns with
      | none =>
          cases committed
          exact ⟨_, rfl, permuted.emit name top⟩
      | some columns =>
          obtain ⟨selected, made, same⟩ := Except.bind_eq_ok.mp committed
          cases same
          obtain ⟨result, remade, perm⟩ := Table.exists_perm_of_select top made
          exact ⟨_, Except.bind_eq_ok.mpr ⟨result, remade, rfl⟩, permuted.emit name perm⟩

theorem follows_join (permuted : first.Permuted second) {pairing : Pairing}
    (joined : first.pair "join" (Table.join · · pairing) = .ok after) :
    after.Follows (second.pair "join" (Table.join · · pairing)) := by
  obtain ⟨stack, bindings, output⟩ := first
  obtain ⟨others, _, _⟩ := second
  obtain ⟨frames, bound, committed⟩ := permuted
  cases frames with
  | nil => cases joined
  | cons right below =>
      cases below with
      | nil => cases joined
      | cons left below =>
          obtain ⟨table, made, same⟩ := Except.bind_eq_ok.mp joined
          cases same
          obtain ⟨result, remade, perm⟩ := Table.exists_perm_of_join left right made
          exact ⟨_, Except.bind_eq_ok.mpr ⟨result, remade, rfl⟩, .cons perm below, bound,
            committed⟩

/-- An accumulation comes to the same frame, not only to the same rows. -/
theorem follows_accumulate (permuted : first.Permuted second) {functions : Functions}
    {column : String} {call : Call} {result : Option String}
    (orderFree : (Step.accumulate column call result).OrderFree functions)
    (accumulated : first.accumulate functions column call result = .ok after) :
    ∃ reached, second.accumulate functions column call result = .ok reached ∧
      after.Permuted reached ∧ reached.stack.head? = after.stack.head? := by
  obtain ⟨stack, bindings, output⟩ := first
  obtain ⟨others, _, _⟩ := second
  obtain ⟨frames, bound, committed⟩ := permuted
  cases frames with
  | nil => cases accumulated
  | cons top below =>
      obtain ⟨value, made, same⟩ := Except.bind_eq_ok.mp accumulated
      cases same
      refine ⟨_, Except.bind_eq_ok.mpr ⟨value, ?_, rfl⟩, ⟨.cons (.refl _) below, bound,
        committed⟩, rfl⟩
      unfold Functions.accumulate at made ⊢
      obtain sum | product := orderFree
      · rw [sum] at made ⊢
        exact Table.aggregate_of_perm Aggregate.orderFree_add top made
      · rw [product] at made ⊢
        exact Table.aggregate_of_perm Aggregate.orderFree_mult top made

end Machine

/-- What is fetched from two registries with the same rows is in the same rows. -/
theorem MemoryRegistry.Permuted.answer {registry other : MemoryRegistry}
    (permuted : registry.Permuted other) {rule : Rule} {step : Step} {table : Table}
    (answered : registry.answer rule step = .ok table) :
    ∃ result, other.answer rule step = .ok result ∧ table.Perm result := by
  cases step with
  | pull reference target =>
      obtain ⟨url, found, fetched⟩ := Except.bind_eq_ok.mp answered
      have held := permuted url reference
      unfold MemoryRegistry.fetch at fetched
      cases kept : registry.table? url reference with
      | none =>
          rw [kept] at fetched
          cases fetched
      | some first =>
          rw [kept] at fetched held
          cases fetched
          cases otherKept : other.table? url reference with
          | none =>
              rw [otherKept] at held
              cases held
          | some result =>
              rw [otherKept] at held
              cases held with
              | some perm =>
                  refine ⟨result, Except.bind_eq_ok.mpr ⟨url, found, ?_⟩, perm⟩
                  unfold MemoryRegistry.fetch
                  rw [otherKept]
  | _ =>
      cases answered
      exact ⟨[], rfl, .nil⟩

/-- A step that does not depend on the order of rows takes machines with the same rows to
machines with the same rows, and an accumulation leaves the same frame. -/
theorem Step.follows_perform {step : Step} {functions : Functions}
    (orderFree : step.OrderFree functions) {registry other : MemoryRegistry}
    (held : registry.Permuted other) {rule : Rule} {first second after : Machine}
    (permuted : first.Permuted second)
    (performed : step.perform functions (registry.answer rule step) first = .ok after) :
    ∃ reached, step.perform functions (other.answer rule step) second = .ok reached ∧
      after.Permuted reached ∧ step.accumulated? reached = step.accumulated? after := by
  cases step with
  | push table =>
      obtain ⟨reached, ran, follows⟩ := Machine.follows_push permuted performed
      exact ⟨reached, ran, follows, rfl⟩
  | pop =>
      obtain ⟨reached, ran, follows⟩ := Machine.follows_pop permuted performed
      exact ⟨reached, ran, follows, rfl⟩
  | duplicate =>
      obtain ⟨reached, ran, follows⟩ := Machine.follows_duplicate permuted performed
      exact ⟨reached, ran, follows, rfl⟩
  | commit table columns =>
      obtain ⟨reached, ran, follows⟩ := Machine.follows_commit permuted performed
      exact ⟨reached, ran, follows, rfl⟩
  | join pairing =>
      obtain ⟨reached, ran, follows⟩ := Machine.follows_join permuted performed
      exact ⟨reached, ran, follows, rfl⟩
  | inclusion pairing => exact absurd orderFree id
  | accumulate column call result =>
      exact Machine.follows_accumulate permuted orderFree performed
  | pull reference target =>
      obtain ⟨table, answered, received⟩ := Except.map_eq_ok.mp performed
      obtain ⟨result, reanswered, perm⟩ := held.answer answered
      rw [← received]
      exact ⟨_, Except.map_eq_ok.mpr ⟨result, reanswered, rfl⟩, permuted.receive target perm, rfl⟩

/-! ## Runs -/

namespace Context

/-- A run of such steps that comes to its end does so from any machine with the same
rows, over any registry with the same rows. -/
theorem runSteps_permuted {context other : Context String} {registry replaced : MemoryRegistry}
    (reaches : context.Reaches registry) (otherReaches : other.Reaches replaced)
    (held : registry.Permuted replaced) (functions : other.functions = context.functions)
    {rule : Rule} {first second : Machine} (permuted : first.Permuted second)
    {steps : List Step} (orderFree : ∀ step ∈ steps, step.OrderFree context.functions)
    (ended : (context.runSteps rule first steps).1.error? = none) :
    (other.runSteps rule second steps).1.error? = none ∧
      List.Forall₂ Commit.Permuted (context.runSteps rule first steps).1.output
        (other.runSteps rule second steps).1.output ∧
      (other.transitions rule second steps).filterMap Transition.accumulated? =
        (context.transitions rule first steps).filterMap Transition.accumulated? := by
  induction steps generalizing context other first second with
  | nil => exact ⟨rfl, permuted.output, rfl⟩
  | cons step rest ih =>
      obtain ⟨performed, reachesNext⟩ := reaches.runStep rule step first
      obtain ⟨otherPerformed, otherReachesNext⟩ := otherReaches.runStep rule step second
      have kept := context.functions_runStep rule step first
      have otherKept := other.functions_runStep rule step second
      cases ran : context.runStep rule step first with
      | mk outcome next =>
          rw [ran] at performed reachesNext kept
          cases outcome with
          | error error =>
              rw [runSteps_cons_error ran] at ended
              cases ended
          | ok after =>
              obtain ⟨reached, follows, related, frames⟩ :=
                Step.follows_perform (orderFree step List.mem_cons_self) held permuted
                  performed.symm
              cases otherRan : other.runStep rule step second with
              | mk otherOutcome otherNext =>
                  rw [otherRan, functions, follows] at otherPerformed
                  rw [otherRan] at otherReachesNext otherKept
                  cases otherPerformed
                  have later := ih reachesNext otherReachesNext
                    (otherKept.trans (functions.trans kept.symm)) related
                    (fun step member => kept ▸ orderFree step (List.mem_cons_of_mem _ member))
                    (by rwa [runSteps_cons_ok ran] at ended)
                  rw [runSteps_cons_ok ran, runSteps_cons_ok otherRan, transitions_cons_ok ran,
                    transitions_cons_ok otherRan]
                  obtain ⟨reaches, output, others⟩ := later
                  refine ⟨reaches, output, ?_⟩
                  simp only [List.filterMap_cons, Transition.accumulated?, frames, others]

/-- Over a registry in memory an execution is the run of its steps. -/
theorem execute_eq_ok_iff {context after : Context String} {rule : Rule}
    (attached : context.attach rule.repositories.toList = (none, after))
    {bindings : Bindings} {commits : Output} :
    (context.execute rule bindings).1 = .ok commits ↔
      (after.runSteps rule (.start bindings []) rule.steps).1.error? = none ∧
        (after.runSteps rule (.start bindings []) rule.steps).1.output = commits := by
  unfold execute executeInto Ending.result
  rw [attached]
  simp only
  cases (after.runSteps rule (.start bindings []) rule.steps).1.error? with
  | none => simp
  | some error => simp

/-- An execution of steps that do not depend on the order of rows succeeds over the same
tables with their rows in any other order.  It commits the same rows under the same
names, and every accumulation leaves the same frame. -/
theorem execute_ignores_row_order {context other : Context String}
    {registry replaced : MemoryRegistry} (reaches : context.Reaches registry)
    (otherReaches : other.Reaches replaced) (held : registry.Permuted replaced)
    (functions : other.functions = context.functions) {rule : Rule}
    (orderFree : ∀ step ∈ rule.steps, step.OrderFree context.functions)
    {bindings others : Bindings} (bound : bindings.Permuted others) {commits : Output}
    (ran : (context.execute rule bindings).1 = .ok commits) :
    ∃ result, (other.execute rule others).1 = .ok result ∧
      List.Forall₂ Commit.Permuted commits result ∧
      other.accumulated rule others [] = context.accumulated rule bindings [] := by
  obtain ⟨connected, reachesAfter⟩ := reaches.attach rule.repositories.toList
  obtain ⟨otherConnected, otherReachesAfter⟩ := otherReaches.attach rule.repositories.toList
  have kept := context.functions_attach rule.repositories.toList
  have otherKept := other.functions_attach rule.repositories.toList
  cases attached : context.attach rule.repositories.toList with
  | mk failure after =>
      cases otherAttached : other.attach rule.repositories.toList with
      | mk otherFailure otherAfter =>
          rw [attached] at connected reachesAfter kept
          rw [otherAttached] at otherConnected otherReachesAfter otherKept
          cases connected
          cases otherConnected
          obtain ⟨ended, output⟩ := (execute_eq_ok_iff attached).mp ran
          obtain ⟨reaches, permuted, frames⟩ :=
            runSteps_permuted reachesAfter otherReachesAfter held
              (otherKept.trans (functions.trans kept.symm)) (Machine.permuted_start bound)
              (fun step member => kept ▸ orderFree step member) ended
          refine ⟨_, (execute_eq_ok_iff otherAttached).mpr ⟨reaches, rfl⟩, output ▸ permuted, ?_⟩
          rw [accumulated, accumulated, executionTransitions_of_attach_none attached,
            executionTransitions_of_attach_none otherAttached]
          exact frames

/-- Two rows are pulled and joined to the rows of a bound table, which stand the other
way round in a second execution.  Both commit the same rows and the same total. -/
theorem joined_total_ignores_row_order :
    ∃ result,
      ((Context.new (MemoryRegistry.empty.insert "u" ⟨"s", "t", "1"⟩
            [Tree.ofScalars [("a", "2")], Tree.ofScalars [("a", "1")]]).connector).execute
          ⟨.empty, .ofList [("s", "u")],
            [.pull ⟨"s", "t", "1"⟩ "p", .push "q", .join ⟨["a"], ["a"], [.keep "a"]⟩,
              .commit "j" none, .accumulate "n" ⟨"add", ["a"]⟩ none, .commit "n" none]⟩
          (OrderedMap.empty.insert "q"
            [Tree.ofScalars [("a", "1")], Tree.ofScalars [("a", "2")]])).1 =
        .ok result ∧
      List.Forall₂ Commit.Permuted
        [⟨"j", [Tree.ofScalars [("a", "1")], Tree.ofScalars [("a", "2")]]⟩,
          ⟨"n", Machine.single "n" 3⟩] result := by
  have rows : List.Perm [Tree.ofScalars [("a", "1")], Tree.ofScalars [("a", "2")]]
      [Tree.ofScalars [("a", "2")], Tree.ofScalars [("a", "1")]] := .swap _ _ _
  have held := MemoryRegistry.permuted_empty.insert "u" ⟨"s", "t", "1"⟩ rows
  have bound := Bindings.permuted_empty.insert "q" rows.symm
  have orderFree : ∀ step ∈ [.pull ⟨"s", "t", "1"⟩ "p", .push "q",
      .join ⟨["a"], ["a"], [.keep "a"]⟩, .commit "j" none, .accumulate "n" ⟨"add", ["a"]⟩ none,
      .commit "n" none], Step.OrderFree Functions.builtin step := by
    simp only [List.forall_mem_cons, List.not_mem_nil, false_imp_iff, implies_true, and_true]
    exact ⟨trivial, trivial, trivial, trivial, .inl rfl, trivial⟩
  have ran : ((Context.new (MemoryRegistry.empty.insert "u" ⟨"s", "t", "1"⟩
        [Tree.ofScalars [("a", "1")], Tree.ofScalars [("a", "2")]]).connector).execute
      ⟨.empty, .ofList [("s", "u")],
        [.pull ⟨"s", "t", "1"⟩ "p", .push "q", .join ⟨["a"], ["a"], [.keep "a"]⟩,
          .commit "j" none, .accumulate "n" ⟨"add", ["a"]⟩ none, .commit "n" none]⟩
      (OrderedMap.empty.insert "q" [Tree.ofScalars [("a", "2")], Tree.ofScalars [("a", "1")]])).1 =
        .ok [⟨"j", [Tree.ofScalars [("a", "1")], Tree.ofScalars [("a", "2")]]⟩,
          ⟨"n", Machine.single "n" 3⟩] := by
    rfl
  obtain ⟨result, reached, permuted, _⟩ :=
    execute_ignores_row_order (.new _) (.new _) held rfl orderFree bound ran
  exact ⟨result, reached, permuted⟩

end Context

end TableScript
