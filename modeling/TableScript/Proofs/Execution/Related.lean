import TableScript.Proofs.Except
import TableScript.Proofs.Execution.Stop
import TableScript.Proofs.Registry.Memory

/-!
# Two executions

Two executions of one rule over tables that are related.  If no operation of tables tells
related tables apart, the machines that the two executions pass through hold related
tables, and they stop at the same step for related reasons, if they stop.
-/

namespace TableScript

def Commit.Related (relation : Table → Table → Prop) (first second : Commit) : Prop :=
  first.table = second.table ∧ relation first.records second.records

def Bindings.Related (relation : Table → Table → Prop) (first second : Bindings) : Prop :=
  ∀ name, Option.Rel relation (first.get? name) (second.get? name)

def MemoryRegistry.Related (relation : Table → Table → Prop) (first second : MemoryRegistry) :
    Prop :=
  ∀ url reference, Option.Rel relation (first.table? url reference) (second.table? url reference)

/-- That two machines differ in their tables only, and these are related. -/
structure Machine.Related (relation : Table → Table → Prop) (first second : Machine) : Prop where
  stack : List.Forall₂ relation first.stack second.stack
  bindings : Bindings.Related relation first.bindings second.bindings
  output : List.Forall₂ (Commit.Related relation) first.output second.output

/-- That no operation of tables tells related tables apart: it comes to related tables, or
fails with related errors. -/
structure Indistinguishable (errors : ExecutionError → ExecutionError → Prop)
    (relation : Table → Table → Prop) (functions : Functions) : Prop where
  error_refl : ∀ error, errors error error
  refl : ∀ table, relation table table
  select : ∀ columns table other, relation table other →
    Except.Agree errors relation (table.select columns) (other.select columns)
  join : ∀ pairing left right otherLeft otherRight, relation left otherLeft →
    relation right otherRight →
    Except.Agree errors relation (Table.join left right pairing)
      (Table.join otherLeft otherRight pairing)
  inclusion : ∀ pairing left right otherLeft otherRight, relation left otherLeft →
    relation right otherRight →
    Except.Agree errors relation (Table.inclusion left right pairing)
      (Table.inclusion otherLeft otherRight pairing)
  accumulate : ∀ call table other, relation table other →
    Except.Agree errors Eq (functions.accumulate call table) (functions.accumulate call other)

variable {errors : ExecutionError → ExecutionError → Prop} {relation : Table → Table → Prop}

theorem Bindings.Related.insert {first second : Bindings} (related : first.Related relation second)
    (name : String) {table other : Table} (tables : relation table other) :
    Bindings.Related relation (first.insert name table) (second.insert name other) := by
  intro asked
  rw [OrderedMap.get?_insert, OrderedMap.get?_insert]
  split
  · exact .some tables
  · exact related asked

theorem MemoryRegistry.Related.insert {first second : MemoryRegistry}
    (related : first.Related relation second) (url : String) (reference : Reference)
    {table other : Table} (tables : relation table other) :
    (first.insert url reference table).Related relation (second.insert url reference other) := by
  intro askedUrl asked
  rw [MemoryRegistry.table?_insert, MemoryRegistry.table?_insert]
  split
  · exact .some tables
  · exact related askedUrl asked

/-! ## Single steps -/

namespace Machine

variable {first second : Machine} {table other : Table}

theorem Related.place (related : first.Related relation second) (tables : relation table other) :
    (first.place table).Related relation (second.place other) :=
  ⟨.cons tables related.stack, related.bindings, related.output⟩

theorem Related.emit (related : first.Related relation second) (name : String)
    (tables : relation table other) :
    (first.emit name table).Related relation (second.emit name other) :=
  ⟨related.stack, related.bindings.insert name tables,
    List.rel_append related.output (.cons ⟨rfl, tables⟩ .nil)⟩

theorem Related.receive (related : first.Related relation second) (name : String)
    (tables : relation table other) :
    (first.receive name table).Related relation (second.receive name other) :=
  ⟨.cons tables related.stack, related.bindings.insert name tables, related.output⟩

variable {functions : Functions} (indistinguishable : Indistinguishable errors relation functions)
  (related : first.Related relation second)

include indistinguishable related

/-- Too few tables are too few in both machines. -/
theorem agree_underflow (action : String) (needed : Nat) :
    Except.Agree errors (Machine.Related relation) (first.underflow action needed)
      (second.underflow action needed) := by
  unfold underflow depth
  rw [related.stack.length_eq]
  exact .error (indistinguishable.error_refl _)

theorem agree_push (name : String) :
    Except.Agree errors (Machine.Related relation) (first.push name) (second.push name) := by
  have bound := related.bindings name
  unfold push
  generalize first.bindings.get? name = one at bound ⊢
  generalize second.bindings.get? name = another at bound ⊢
  cases bound with
  | none => exact .error (indistinguishable.error_refl _)
  | some tables => exact .ok (related.place tables)

theorem agree_pop :
    Except.Agree errors (Machine.Related relation) first.pop second.pop := by
  have underflow := agree_underflow indistinguishable related "pop" 1
  obtain ⟨stack, bindings, output⟩ := first
  obtain ⟨others, _, _⟩ := second
  obtain ⟨frames, bound, committed⟩ := related
  cases frames with
  | nil => exact underflow
  | cons _ below => exact .ok ⟨below, bound, committed⟩

theorem agree_duplicate :
    Except.Agree errors (Machine.Related relation) first.duplicate second.duplicate := by
  have underflow := agree_underflow indistinguishable related "duplicate" 1
  obtain ⟨stack, bindings, output⟩ := first
  obtain ⟨others, _, _⟩ := second
  obtain ⟨frames, bound, committed⟩ := related
  cases frames with
  | nil => exact underflow
  | cons top below => exact .ok ⟨.cons top (.cons top below), bound, committed⟩

theorem agree_commit (name : String) (columns : Option (List String)) :
    Except.Agree errors (Machine.Related relation) (first.commit name columns)
      (second.commit name columns) := by
  have underflow := agree_underflow indistinguishable related "commit" 1
  obtain ⟨stack, bindings, output⟩ := first
  obtain ⟨others, _, _⟩ := second
  have frames := related.stack
  cases frames with
  | nil => cases columns <;> exact underflow
  | cons top below =>
      cases columns with
      | none => exact .ok (related.emit name top)
      | some columns =>
          apply (indistinguishable.select columns _ _ top).bind
          intro selected other tables
          exact .ok (related.emit name tables)

/-- Two tables are paired by an operation that does not tell related tables apart. -/
theorem agree_pair (action : String) {operation : Table → Table → Except ExecutionError Table}
    (operates : ∀ left right otherLeft otherRight, relation left otherLeft →
      relation right otherRight →
      Except.Agree errors relation (operation left right) (operation otherLeft otherRight)) :
    Except.Agree errors (Machine.Related relation) (first.pair action operation)
      (second.pair action operation) := by
  have underflow := agree_underflow indistinguishable related action 2
  obtain ⟨stack, bindings, output⟩ := first
  obtain ⟨others, _, _⟩ := second
  obtain ⟨frames, bound, committed⟩ := related
  cases frames with
  | nil => exact underflow
  | cons right below =>
      cases below with
      | nil => exact underflow
      | cons left below =>
          apply (operates _ _ _ _ left right).bind
          intro result other tables
          exact .ok ⟨.cons tables below, bound, committed⟩

theorem agree_accumulate (column : String) (call : Call) (result : Option String) :
    Except.Agree errors (Machine.Related relation) (first.accumulate functions column call result)
      (second.accumulate functions column call result) := by
  have underflow := agree_underflow indistinguishable related "accumulate" 1
  obtain ⟨stack, bindings, output⟩ := first
  obtain ⟨others, _, _⟩ := second
  obtain ⟨frames, bound, committed⟩ := related
  cases frames with
  | nil => exact underflow
  | cons top below =>
      apply (indistinguishable.accumulate call _ _ top).bind
      rintro value _ rfl
      exact .ok ⟨.cons (indistinguishable.refl _) below, bound, committed⟩

end Machine

theorem MemoryRegistry.Related.agree_fetch {functions : Functions}
    (indistinguishable : Indistinguishable errors relation functions)
    {registry other : MemoryRegistry} (held : registry.Related relation other) (url : String)
    (reference : Reference) :
    Except.Agree errors relation (registry.fetch url reference) (other.fetch url reference) := by
  have tables := held url reference
  unfold MemoryRegistry.fetch
  generalize registry.table? url reference = one at tables ⊢
  generalize other.table? url reference = another at tables ⊢
  cases tables with
  | none => exact .error (indistinguishable.error_refl _)
  | some tables => exact .ok tables

/-- Two registries with related tables give related tables to a step. -/
theorem MemoryRegistry.Related.agree_answer {functions : Functions}
    (indistinguishable : Indistinguishable errors relation functions)
    {registry other : MemoryRegistry} (held : registry.Related relation other) (rule : Rule)
    (step : Step) :
    Except.Agree errors relation (registry.answer rule step) (other.answer rule step) := by
  cases step with
  | pull reference target =>
      simp only [MemoryRegistry.answer]
      cases rule.urlFor reference.space with
      | error error => exact .error (indistinguishable.error_refl error)
      | ok url => exact held.agree_fetch indistinguishable url reference
  | _ => exact .ok (indistinguishable.refl [])

/-- A step takes machines with related tables to machines with related tables, or stops
both. -/
theorem Step.agree_perform {functions : Functions}
    (indistinguishable : Indistinguishable errors relation functions)
    {registry other : MemoryRegistry} (held : registry.Related relation other) (rule : Rule)
    {first second : Machine} (related : first.Related relation second) (step : Step) :
    Except.Agree errors (Machine.Related relation)
      (step.perform functions (registry.answer rule step) first)
      (step.perform functions (other.answer rule step) second) := by
  cases step with
  | push table => exact Machine.agree_push indistinguishable related table
  | pop => exact Machine.agree_pop indistinguishable related
  | duplicate => exact Machine.agree_duplicate indistinguishable related
  | commit table columns => exact Machine.agree_commit indistinguishable related table columns
  | join pairing =>
      exact Machine.agree_pair indistinguishable related "join" (indistinguishable.join pairing)
  | inclusion pairing =>
      exact Machine.agree_pair indistinguishable related "inclusion"
        (indistinguishable.inclusion pairing)
  | accumulate column call result =>
      exact Machine.agree_accumulate indistinguishable related column call result
  | pull reference target =>
      have answers := held.agree_answer indistinguishable rule (.pull reference target)
      exact answers.map fun _ _ tables => related.receive target tables

/-! ## Runs -/

namespace Context

/-- Two runs of steps that begin with related tables commit related tables, and both come to
their end or stop at the same step for related reasons. -/
theorem runSteps_related {context other : Context String} {registry replaced : MemoryRegistry}
    (indistinguishable : Indistinguishable errors relation context.functions)
    (reaches : context.Reaches registry) (otherReaches : other.Reaches replaced)
    (held : registry.Related relation replaced) (functions : other.functions = context.functions)
    (rule : Rule) {first second : Machine} (related : first.Related relation second)
    (steps : List Step) :
    List.Forall₂ (Commit.Related relation) (context.runSteps rule first steps).1.output
        (other.runSteps rule second steps).1.output ∧
      (context.stepsFailure? rule first steps = none ∧
          other.stepsFailure? rule second steps = none ∨
        ∃ index error otherError, errors error otherError ∧
          context.StepsStopAt rule first steps index error ∧
          other.StepsStopAt rule second steps index otherError) := by
  induction steps generalizing context other first second with
  | nil => exact ⟨related.output, .inl ⟨rfl, rfl⟩⟩
  | cons step rest ih =>
      obtain ⟨performed, reachesNext⟩ := reaches.runStep rule step first
      obtain ⟨otherPerformed, otherReachesNext⟩ := otherReaches.runStep rule step second
      have kept := context.functions_runStep rule step first
      have otherKept := other.functions_runStep rule step second
      have agree := step.agree_perform indistinguishable held rule related
      rw [← performed, ← functions, ← otherPerformed] at agree
      cases ran : context.runStep rule step first with
      | mk outcome next =>
          cases otherRan : other.runStep rule step second with
          | mk otherOutcome otherNext =>
              rw [ran] at reachesNext kept agree
              rw [otherRan] at otherReachesNext otherKept agree
              cases agree with
              | error failures =>
                  rw [runSteps_cons_error ran, runSteps_cons_error otherRan]
                  exact ⟨related.output, .inr ⟨0, _, _, failures, stepsStopAt_zero ran rest,
                    stepsStopAt_zero otherRan rest⟩⟩
              | ok machines =>
                  obtain ⟨output, ends⟩ := ih (kept ▸ indistinguishable) reachesNext
                    otherReachesNext (otherKept.trans (functions.trans kept.symm)) machines
                  rw [runSteps_cons_ok ran, runSteps_cons_ok otherRan,
                    stepsFailure?_cons_ok ran, stepsFailure?_cons_ok otherRan]
                  refine ⟨output, ends.imp id ?_⟩
                  rintro ⟨index, error, otherError, failures, stops, otherStops⟩
                  exact ⟨index + 1, error, otherError, failures, stepsStopAt_succ ran stops,
                    stepsStopAt_succ otherRan otherStops⟩

/-- Two executions over related tables commit related tables, and both come to their end or
stop at the same step for related reasons. -/
theorem executeInto_related {context other : Context String} {registry replaced : MemoryRegistry}
    (indistinguishable : Indistinguishable errors relation context.functions)
    (reaches : context.Reaches registry) (otherReaches : other.Reaches replaced)
    (held : registry.Related relation replaced) (functions : other.functions = context.functions)
    (rule : Rule) {bindings others : Bindings} (bound : bindings.Related relation others)
    {output otherOutput : Output}
    (committed : List.Forall₂ (Commit.Related relation) output otherOutput) :
    List.Forall₂ (Commit.Related relation) (context.executeInto rule bindings output).1.output
        (other.executeInto rule others otherOutput).1.output ∧
      (context.failure? rule bindings output = none ∧
          other.failure? rule others otherOutput = none ∨
        ∃ index error otherError, errors error otherError ∧
          context.StopsAt rule bindings output index error ∧
          other.StopsAt rule others otherOutput index otherError) := by
  obtain ⟨connected, reachesAfter⟩ := reaches.attach rule.repositories.toList
  obtain ⟨otherConnected, otherReachesAfter⟩ := otherReaches.attach rule.repositories.toList
  have kept := context.functions_attach rule.repositories.toList
  have otherKept := other.functions_attach rule.repositories.toList
  cases attached : context.attach rule.repositories.toList with
  | mk failure after =>
      cases otherAttached : other.attach rule.repositories.toList with
      | mk otherFailure otherAfter =>
          rw [attached] at connected reachesAfter kept
          rw [otherAttached] at otherConnected otherReachesAfter otherKept
          cases connected
          cases otherConnected
          have start : (Machine.start bindings output).Related relation
              (.start others otherOutput) := ⟨.nil, bound, committed⟩
          obtain ⟨outputs, ends⟩ := runSteps_related (kept ▸ indistinguishable) reachesAfter
            otherReachesAfter held (otherKept.trans (functions.trans kept.symm)) rule start
            rule.steps
          rw [failure?_of_attach_none attached, failure?_of_attach_none otherAttached]
          unfold executeInto
          rw [attached, otherAttached]
          refine ⟨outputs, ends.imp id ?_⟩
          rintro ⟨index, error, otherError, failures, stops, otherStops⟩
          exact ⟨index, error, otherError, failures, stopsAt_of_steps attached stops,
            stopsAt_of_steps otherAttached otherStops⟩

end Context

end TableScript
