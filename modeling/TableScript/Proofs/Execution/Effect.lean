import TableScript.Proofs.Except
import TableScript.Proofs.Execution.Transition
import TableScript.Proofs.Map.Ordered

/-!
# What transitions change

A transition takes some tables from the top of the stack and leaves others in their place;
the tables below stay.  A commit emits records and binds them to its name, a pull binds what
was fetched, and no other step binds or emits anything.  So what a name is bound to after a
run is the last table that was bound to it, and the output is what the commits emitted.
-/

namespace TableScript

def Step.takes : Step → Nat
  | .pop => 1
  | .join _ => 2
  | .inclusion _ => 2
  | .accumulate _ _ _ => 1
  | _ => 0

/-- How many tables a step leaves on the stack in place of those that it takes. -/
def Step.leaves : Step → Nat
  | .pop => 0
  | .commit _ _ => 0
  | _ => 1

def Step.commits? : Step → Option String
  | .commit table _ => some table
  | _ => none

/-- The records of the top table that a commit of some columns emits. -/
def Machine.projected (machine : Machine) (columns : Option (List String)) :
    Except ExecutionError Table :=
  match machine.stack, columns with
  | top :: _, some columns => top.select columns
  | top :: _, none => .ok top
  | [], _ => machine.underflow "commit" 1

theorem Machine.commit_eq (machine : Machine) (name : String) (columns : Option (List String)) :
    machine.commit name columns = (machine.projected columns).map (machine.emit name) := by
  obtain ⟨stack, bindings, output⟩ := machine
  cases stack with
  | nil => cases columns <;> rfl
  | cons top below =>
      cases columns with
      | none => rfl
      | some columns =>
          simp only [commit, projected]
          cases top.select columns with
          | error error => rfl
          | ok records => rfl

namespace Transition

def commit? (transition : Transition) : Option Commit :=
  match transition.step with
  | .commit name columns => (transition.before.projected columns).toOption.map (⟨name, ·⟩)
  | _ => none

/-- The name that a transition binds, with the table: the records that a commit emits, or the
table that was fetched. -/
def binding? (transition : Transition) : Option (String × Table) :=
  match transition.step with
  | .pull _ target => transition.fetched.toOption.map (target, ·)
  | _ => transition.commit?.map fun commit => (commit.table, commit.records)

end Transition

/-! ## Single steps -/

namespace Machine

/-- What lies between two machines: some tables of the first one give place to others, a name
may be bound, and something may be committed. -/
structure Changes (first second : Machine) (takes leaves : Nat)
    (binding? : Option (String × Table)) (commit? : Option Commit) : Prop where
  stack : ∃ taken left kept, first.stack = taken ++ kept ∧ second.stack = left ++ kept ∧
    taken.length = takes ∧ left.length = leaves
  bindings : second.bindings = first.bindings.insertAll binding?.toList
  output : second.output = first.output ++ commit?.toList

variable {machine after : Machine}

/-- A step that binds and commits nothing changes the stack alone. -/
theorem changes_stack (taken left : List Table) {kept : List Table}
    (stack : machine.stack = taken ++ kept) :
    machine.Changes { machine with stack := left ++ kept } taken.length left.length none none :=
  ⟨⟨taken, left, kept, stack, rfl, rfl, rfl⟩, rfl, (List.append_nil _).symm⟩

theorem changes_push {name : String} (pushed : machine.push name = .ok after) :
    machine.Changes after 0 1 none none := by
  unfold push at pushed
  split at pushed
  · next table _ =>
      cases pushed
      exact changes_stack [] [table] rfl
  · cases pushed

theorem changes_pop (popped : machine.pop = .ok after) :
    machine.Changes after 1 0 none none := by
  unfold pop at popped
  split at popped
  · next top below stack =>
      cases popped
      exact changes_stack [top] [] stack
  · cases popped

theorem changes_duplicate (duplicated : machine.duplicate = .ok after) :
    machine.Changes after 0 1 none none := by
  unfold duplicate at duplicated
  split at duplicated
  · next top _ _ =>
      cases duplicated
      exact changes_stack [] [top] rfl
  · cases duplicated

/-- A commit emits what it projects and binds it to its name. -/
theorem changes_commit {name : String} {columns : Option (List String)}
    (committed : machine.commit name columns = .ok after) :
    ∃ records, machine.projected columns = .ok records ∧
      machine.Changes after 0 0 (some (name, records)) (some ⟨name, records⟩) := by
  rw [commit_eq] at committed
  obtain ⟨records, projected, same⟩ := Except.map_eq_ok.mp committed
  cases same
  exact ⟨records, projected, ⟨[], [], machine.stack, rfl, rfl, rfl, rfl⟩, rfl, rfl⟩

theorem changes_pair {action : String} {operation : Table → Table → Except ExecutionError Table}
    (paired : machine.pair action operation = .ok after) :
    machine.Changes after 2 1 none none := by
  unfold pair at paired
  split at paired
  · next right left below stack =>
      obtain ⟨table, _, same⟩ := Except.bind_eq_ok.mp paired
      cases same
      exact changes_stack [right, left] [table] stack
  · cases paired

theorem changes_accumulate {functions : Functions} {column : String} {call : Call}
    {result : Option String}
    (accumulated : machine.accumulate functions column call result = .ok after) :
    machine.Changes after 1 1 none none := by
  unfold accumulate at accumulated
  split at accumulated
  · next top below stack =>
      obtain ⟨value, _, same⟩ := Except.bind_eq_ok.mp accumulated
      cases same
      exact changes_stack [top] [_] stack
  · cases accumulated

theorem changes_receive (machine : Machine) (name : String) (table : Table) :
    machine.Changes (machine.receive name table) 0 1 (some (name, table)) none :=
  ⟨⟨[], [table], machine.stack, rfl, rfl, rfl, rfl⟩, rfl, (List.append_nil _).symm⟩

end Machine

/-- A transition changes what its step takes, leaves, binds and commits, and nothing else. -/
theorem Transition.changes {functions : Functions} {transition : Transition}
    (performed : transition.Performed functions) :
    transition.before.Changes transition.after transition.step.takes transition.step.leaves
      transition.binding? transition.commit? := by
  obtain ⟨step, before, fetched, after⟩ := transition
  replace performed : step.perform functions fetched before = .ok after := performed
  cases step with
  | push table => exact Machine.changes_push performed
  | pop => exact Machine.changes_pop performed
  | duplicate => exact Machine.changes_duplicate performed
  | commit table columns =>
      obtain ⟨records, projected, changes⟩ := Machine.changes_commit performed
      simp only [binding?, commit?, projected]
      exact changes
  | join pairing => exact Machine.changes_pair performed
  | inclusion pairing => exact Machine.changes_pair performed
  | accumulate column call result => exact Machine.changes_accumulate performed
  | pull reference target =>
      obtain ⟨table, answered, same⟩ := Except.map_eq_ok.mp performed
      cases same
      cases answered
      exact before.changes_receive target table

/-- A transition commits under the name that its step commits under. -/
theorem Transition.map_table_commit? {functions : Functions} {transition : Transition}
    (performed : transition.Performed functions) :
    transition.commit?.map Commit.table = transition.step.commits? := by
  obtain ⟨step, before, fetched, after⟩ := transition
  replace performed : step.perform functions fetched before = .ok after := performed
  cases step with
  | commit table columns =>
      obtain ⟨records, projected, _⟩ := Machine.changes_commit performed
      simp only [commit?, projected]
      rfl
  | _ => rfl

/-! ## Runs -/

namespace Machine.Leads

variable {functions : Functions} {first last : Machine} {transitions : List Transition}

/-- A run has committed what its transitions commit, behind what was committed before. -/
theorem output_eq (leads : Leads functions first transitions last) :
    last.output = first.output ++ transitions.filterMap Transition.commit? := by
  induction leads with
  | nil => simp
  | @cons transition rest last performed _ ih =>
      rw [ih, (Transition.changes performed).output, List.append_assoc, List.filterMap_cons]
      cases transition.commit? with
      | none => rfl
      | some commit => rfl

/-- A name is bound to the last table that a transition binds to it, or else to what it was
bound to before. -/
theorem get?_bindings_eq (leads : Leads functions first transitions last) (name : String) :
    last.bindings.get? name =
      ((transitions.filterMap Transition.binding?).reverse.lookup name).or
        (first.bindings.get? name) := by
  have bindings : last.bindings =
      first.bindings.insertAll (transitions.filterMap Transition.binding?) := by
    induction leads with
    | nil => rfl
    | @cons transition rest last performed _ ih =>
        rw [ih, (Transition.changes performed).bindings, List.filterMap_cons]
        cases transition.binding? with
        | none => rfl
        | some binding => rfl
  rw [bindings, OrderedMap.get?_insertAll]

/-- The commits of a run bear the names under which its steps commit. -/
theorem map_table_commits (leads : Leads functions first transitions last) :
    (transitions.filterMap Transition.commit?).map Commit.table =
      (transitions.map Transition.step).filterMap Step.commits? := by
  induction leads with
  | nil => rfl
  | @cons transition rest last performed _ ih =>
      rw [List.map_cons, List.filterMap_cons, List.filterMap_cons, ← ih,
        ← Transition.map_table_commit? performed]
      cases transition.commit? with
      | none => rfl
      | some commit => rfl

end Machine.Leads

namespace Context

variable {γ : Type}

theorem output_runSteps_eq (context : Context γ) (rule : Rule) (machine : Machine)
    (steps : List Step) :
    (context.runSteps rule machine steps).1.output =
      machine.output ++
        (context.transitions rule machine steps).filterMap Transition.commit? := by
  obtain ⟨last, leads, output⟩ := context.leads_transitions rule machine steps
  rw [output, leads.output_eq]

/-- An execution has committed what its transitions commit, behind what was committed before. -/
theorem output_executeInto_eq (context : Context γ) (rule : Rule) (bindings : Bindings)
    (output : Output) :
    (context.executeInto rule bindings output).1.output =
      output ++
        (context.executionTransitions rule bindings output).filterMap Transition.commit? := by
  unfold executeInto executionTransitions
  cases context.attach rule.repositories.toList with
  | mk failure after =>
      cases failure with
      | some error => exact (List.append_nil output).symm
      | none => exact after.output_runSteps_eq rule (.start bindings output) rule.steps

/-- Every transition of an execution is a step that succeeds. -/
theorem performed_of_mem {context : Context γ} {rule : Rule} {bindings : Bindings}
    {output : Output} {transition : Transition}
    (member : transition ∈ context.executionTransitions rule bindings output) :
    transition.Performed context.functions := by
  have kept := context.functions_attach rule.repositories.toList
  unfold executionTransitions at member
  cases attached : context.attach rule.repositories.toList with
  | mk failure after =>
      rw [attached] at member kept
      cases failure with
      | some error => cases member
      | none =>
          obtain ⟨_, leads, _⟩ :=
            after.leads_transitions rule (.start bindings output) rule.steps
          exact kept ▸ leads.performed member

end Context

end TableScript
