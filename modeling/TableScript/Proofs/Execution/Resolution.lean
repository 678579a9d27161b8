import TableScript.Proofs.Execution.Effect
import TableScript.Proofs.Map.Lookup
import TableScript.Registry.Memory

/-!
# What names stand for

A name stands for the table that was last bound to it, by a commit or by a pull of the same
run, or else for what it was bound to at the start.  A push places exactly that table, and it
fails exactly if there is none.  No other step asks what a name stands for.
-/

namespace TableScript

namespace Transition

def lastBound? (transitions : List Transition) (name : String) : Option Table :=
  (transitions.filterMap Transition.binding?).reverse.lookup name

/-- That a transition binds and commits what its step is for, where a context stands ready to
fetch: a commit emits the projected records and binds them, a pull binds what is fetched from
the repository of its namespace, and no other step binds or commits anything. -/
def Accounted {γ : Type} (transition : Transition) (rule : Rule) (context : Context γ) : Prop :=
  match transition.step with
  | .commit name columns => ∃ records, transition.before.projected columns = .ok records ∧
      transition.commit? = some ⟨name, records⟩ ∧ transition.binding? = some (name, records)
  | .pull reference target => ∃ url table, rule.urlFor reference.space = .ok url ∧
      (context.fetch url reference).1 = .ok table ∧
      transition.commit? = none ∧ transition.binding? = some (target, table)
  | _ => transition.commit? = none ∧ transition.binding? = none

end Transition

/-! ## Commits -/

/-- The last commit under a name has no other one under this name behind it. -/
theorem Output.table?_eq_some_iff {output : Output} {name : String} {records : Table} :
    output.table? name = some records ↔
      ∃ earlier later, output = earlier ++ ⟨name, records⟩ :: later ∧
        ∀ commit ∈ later, commit.table ≠ name := by
  unfold table?
  constructor
  · intro found
    obtain ⟨⟨table, kept⟩, first, same⟩ := Option.map_eq_some_iff.mp found
    obtain ⟨named, later, earlier, split, others⟩ := List.find?_eq_some_iff_append.mp first
    obtain rfl : table = name := beq_iff_eq.mp named
    obtain rfl : kept = records := same
    refine ⟨earlier.reverse, later.reverse, ?_, ?_⟩
    · rw [← List.reverse_reverse output, split]
      simp
    · intro commit member
      simpa using others commit (List.mem_reverse.mp member)
  · rintro ⟨earlier, later, split, others⟩
    have first : output.reverse.find? (fun commit => commit.table == name) =
        some ⟨name, records⟩ := by
      rw [List.find?_eq_some_iff_append]
      refine ⟨beq_self_eq_true name, later.reverse, earlier.reverse, by simp [split], ?_⟩
      intro commit member
      simpa using others commit (List.mem_reverse.mp member)
    rw [first]
    rfl

/-- What was committed last under a name is what the last transition has committed whose step
commits under this name. -/
theorem Transition.table?_commits_eq_some_iff {functions : Functions}
    {transitions : List Transition}
    (performed : ∀ transition ∈ transitions, transition.Performed functions) {name : String}
    {records : Table} :
    Output.table? (transitions.filterMap commit?) name = some records ↔
      ∃ earlier transition later, transitions = earlier ++ transition :: later ∧
        transition.commit? = some ⟨name, records⟩ ∧
        ∀ other ∈ later, other.step.commits? ≠ some name := by
  rw [Output.table?_eq_some_iff]
  constructor
  · rintro ⟨before, behind, split, others⟩
    obtain ⟨first, second, rfl, -, committed⟩ := List.filterMap_eq_append_iff.mp split
    obtain ⟨skipped, transition, later, rfl, -, here, rest⟩ :=
      List.filterMap_eq_cons_iff.mp committed
    refine ⟨first ++ skipped, transition, later, (List.append_assoc ..).symm, here, ?_⟩
    intro other member named
    have whole : other ∈ first ++ (skipped ++ transition :: later) :=
      List.mem_append_right _ (List.mem_append_right _ (List.mem_cons_of_mem _ member))
    rw [← map_table_commit? (performed other whole)] at named
    obtain ⟨commit, made, same⟩ := Option.map_eq_some_iff.mp named
    exact others commit (rest ▸ List.mem_filterMap.mpr ⟨other, member, made⟩) same
  · rintro ⟨earlier, transition, later, rfl, here, others⟩
    refine ⟨earlier.filterMap commit?, later.filterMap commit?, ?_, ?_⟩
    · rw [List.filterMap_append, List.filterMap_cons_some here]
    · intro commit member same
      obtain ⟨other, among, made⟩ := List.mem_filterMap.mp member
      have whole : other ∈ earlier ++ transition :: later :=
        List.mem_append_right _ (List.mem_cons_of_mem _ among)
      apply others other among
      rw [← map_table_commit? (performed other whole), made, ← same]
      rfl

namespace Context

variable {γ : Type}

/-! ## Single steps -/

theorem client_tell (context : Context γ) (events : List Event) (url : String) :
    ∃ others, (context.tell events).client url =
      ((context.client url).1, { (context.client url).2 with events := others }) := by
  simp only [client, tell, note]
  cases context.clients.get? url with
  | some client => exact ⟨_, rfl⟩
  | none =>
      cases context.connector.connect context.calls url with
      | ok client => exact ⟨_, rfl⟩
      | error error => exact ⟨_, rfl⟩

/-- What is fetched does not depend on what was told before. -/
theorem fetch_tell_fst (context : Context γ) (events : List Event) (url : String)
    (reference : Reference) :
    ((context.tell events).fetch url reference).1 = (context.fetch url reference).1 := by
  obtain ⟨others, told⟩ := context.client_tell events url
  unfold fetch
  rw [told]
  cases context.client url with
  | mk answer after =>
      cases answer with
      | error error => rfl
      | ok client => rfl

theorem fetchedFor_pull {context : Context γ} {rule : Rule} {reference : Reference}
    {target : String} {machine : Machine} {table : Table}
    (fetched : context.fetchedFor rule (.pull reference target) machine = .ok table) :
    ∃ url, rule.urlFor reference.space = .ok url ∧ (context.fetch url reference).1 = .ok table := by
  simp only [fetchedFor, fetchFor] at fetched
  cases found : rule.urlFor reference.space with
  | error error =>
      rw [found] at fetched
      cases fetched
  | ok url =>
      rw [found] at fetched
      simp only [fetch_tell_fst] at fetched
      exact ⟨url, rfl, fetched⟩

/-- A step that succeeds binds and commits what it is for. -/
theorem accounted_of_performed {context : Context γ} {rule : Rule} {transition : Transition}
    (performed : transition.Performed context.functions)
    (fetched : transition.fetched =
      context.fetchedFor rule transition.step transition.before) :
    transition.Accounted rule context := by
  obtain ⟨step, before, answer, after⟩ := transition
  replace performed : step.perform context.functions answer before = .ok after := performed
  replace fetched : answer = context.fetchedFor rule step before := fetched
  cases step with
  | commit name columns =>
      obtain ⟨records, projected, _⟩ := Machine.changes_commit performed
      refine ⟨records, projected, ?_, ?_⟩
      · simp only [Transition.commit?, projected]
        rfl
      · simp only [Transition.binding?, Transition.commit?, projected]
        rfl
  | pull reference target =>
      obtain ⟨table, answered, _⟩ := Except.map_eq_ok.mp performed
      obtain ⟨url, found, given⟩ := fetchedFor_pull (fetched.symm.trans answered)
      cases answered
      exact ⟨url, table, found, given, rfl, rfl⟩
  | _ => exact ⟨rfl, rfl⟩

/-- A run that has a transition begins with its step. -/
theorem transitions_eq_cons {context : Context γ} {rule : Rule} {machine : Machine}
    {steps : List Step} {transition : Transition} {rest : List Transition}
    (begins : context.transitions rule machine steps = transition :: rest) :
    steps.head? = some transition.step ∧ transition.Performed context.functions ∧
      transition.fetched = context.fetchedFor rule transition.step transition.before := by
  cases steps with
  | nil => cases begins
  | cons step later =>
      cases ran : context.runStep rule step machine with
      | mk performed after =>
          cases performed with
          | error error =>
              rw [transitions_cons_error ran] at begins
              cases begins
          | ok next =>
              rw [transitions_cons_ok ran] at begins
              cases begins
              exact ⟨rfl, performed_of_runStep ran, rfl⟩

/-! ## Executions -/

/-- Every transition of an execution is a step of its rule, which is performed as in the
context that the execution of the steps before it leaves. -/
theorem getElem?_executionTransitions {context : Context γ} {rule : Rule} {bindings : Bindings}
    {output : Output} {index : Nat} {transition : Transition}
    (here : (context.executionTransitions rule bindings output)[index]? = some transition) :
    rule.steps[index]? = some transition.step ∧
      transition.Accounted rule (context.executeInto (rule.upTo index) bindings output).2 ∧
      transition.before.Changes transition.after transition.step.takes transition.step.leaves
        transition.binding? transition.commit? := by
  cases attached : context.attach rule.repositories.toList with
  | mk failure after =>
      cases failure with
      | some error =>
          unfold executionTransitions at here
          rw [attached] at here
          cases here
      | none =>
          rw [executionTransitions_of_attach_none attached] at here
          obtain ⟨within, _⟩ := List.getElem?_eq_some_iff.mp here
          obtain ⟨middle, reached, _, cut, _, later⟩ :=
            after.exists_cut rule (.start bindings output) rule.steps (Nat.le_of_lt within)
          rw [← List.head?_drop, later] at here
          obtain ⟨rest, begins⟩ := List.head?_eq_some_iff.mp here
          obtain ⟨step, performed, fetched⟩ := transitions_eq_cons begins
          rw [executeInto_upTo_of_attach_none attached, cut]
          rw [List.head?_drop] at step
          exact ⟨step, accounted_of_performed performed fetched, Transition.changes performed⟩

/-- A push that a run comes to places the table that its name was last bound to, or it ends
the run. -/
theorem push_after_cut {context : Context γ} {rule : Rule} {machine : Machine}
    {steps : List Step} {index : Nat} {name : String}
    (taken : index ≤ (context.transitions rule machine steps).length)
    (here : steps[index]? = some (.push name)) :
    let run := context.transitions rule machine steps
    let bound? := (Transition.lastBound? (run.take index) name).or (machine.bindings.get? name)
    (∀ table, bound? = some table → ∃ before fetched,
      run[index]? = some ⟨.push name, before, fetched, before.place table⟩) ∧
    (bound? = none ↔ run.length = index ∧
      (context.runSteps rule machine steps).1.error? = some (.unknownTable name)) := by
  intro run bound?
  obtain ⟨middle, reached, leads, _, whole, later⟩ := context.exists_cut rule machine steps taken
  rw [← List.head?_drop] at here
  obtain ⟨rest, split⟩ := List.head?_eq_some_iff.mp here
  rw [split] at whole later
  have bound : bound? = middle.bindings.get? name := (leads.get?_bindings_eq name).symm
  have pushed := reached.runStep_fst rule (.push name) middle
  cases ran : reached.runStep rule (.push name) middle with
  | mk performed after =>
      replace pushed : performed = middle.push name := (congrArg Prod.fst ran).symm.trans pushed
      unfold Machine.push at pushed
      rw [bound]
      cases found : middle.bindings.get? name with
      | some table =>
          rw [found] at pushed
          rw [pushed] at ran
          rw [transitions_cons_ok ran] at later
          have placed : run[index]? = some ⟨.push name, middle,
              reached.fetchedFor rule (.push name) middle, middle.place table⟩ := by
            rw [← List.head?_drop, later, List.head?_cons]
          refine ⟨?_, ?_⟩
          · intro other same
            cases same
            exact ⟨middle, _, placed⟩
          · refine ⟨nofun, ?_⟩
            rintro ⟨ends, _⟩
            rw [← ends, List.getElem?_length] at placed
            cases placed
      | none =>
          rw [found] at pushed
          rw [pushed] at ran
          rw [transitions_cons_error ran] at later
          refine ⟨nofun, fun _ => ⟨Nat.le_antisymm (List.drop_eq_nil_iff.mp later) taken, ?_⟩,
            fun _ => rfl⟩
          rw [whole, runSteps_cons_error ran]

/-- A push that an execution comes to places the table that was last bound to its name by an
earlier commit or pull, or else at the start; it fails exactly if there is none, and then it
ends the execution.  Every step that succeeds binds and commits what it is for, and it leaves
every table on the stack alone but those that it takes.  From an empty output, the table of a
name is what the last commit under this name has emitted. -/
theorem executeInto_resolves_names (context : Context γ) (rule : Rule) (bindings : Bindings)
    (output : Output) :
    let run := context.executionTransitions rule bindings output
    let ending := (context.executeInto rule bindings output).1
    (∀ index name, (context.attach rule.repositories.toList).1 = none → index ≤ run.length →
      rule.steps[index]? = some (.push name) →
      let bound? := (Transition.lastBound? (run.take index) name).or (bindings.get? name)
      (∀ table, bound? = some table → ∃ before fetched,
        run[index]? = some ⟨.push name, before, fetched, before.place table⟩) ∧
      (bound? = none ↔ run.length = index ∧ ending.error? = some (.unknownTable name))) ∧
    (∀ (index : Nat) (transition : Transition), run[index]? = some transition →
      rule.steps[index]? = some transition.step ∧
      transition.Accounted rule (context.executeInto (rule.upTo index) bindings output).2 ∧
      transition.before.Changes transition.after transition.step.takes transition.step.leaves
        transition.binding? transition.commit?) ∧
    (output = [] → ∀ name records, ending.output.table? name = some records ↔
      ∃ earlier transition later, run = earlier ++ transition :: later ∧
        transition.commit? = some ⟨name, records⟩ ∧
        ∀ other ∈ later, other.step.commits? ≠ some name) := by
  intro run ending
  refine ⟨?_, fun index transition here => getElem?_executionTransitions here, ?_⟩
  · intro index name connected taken here
    cases attached : context.attach rule.repositories.toList with
    | mk failure after =>
        rw [attached] at connected
        obtain rfl : failure = none := connected
        have steps : run = after.transitions rule (.start bindings output) rule.steps :=
          executionTransitions_of_attach_none attached bindings output
        have executed : ending = (after.runSteps rule (.start bindings output) rule.steps).1 :=
          congrArg Prod.fst (executeInto_of_attach_none attached bindings output)
        rw [steps] at taken ⊢
        rw [executed]
        exact push_after_cut taken here
  · intro empty name records
    have committed : ending.output = output ++ run.filterMap Transition.commit? :=
      context.output_executeInto_eq rule bindings output
    rw [committed, empty, List.nil_append]
    exact Transition.table?_commits_eq_some_iff fun transition => performed_of_mem

/-- A name that is given at the start is bound by a pull and then by a commit of one column.
The push behind them places what was committed, and a push of a name that is bound nowhere
ends the execution. -/
theorem committed_columns_shadow_pulled_table :
    let given : Table := [Tree.ofScalars [("a", "1"), ("b", "2")]]
    let pulled : Table := [Tree.ofScalars [("a", "3"), ("b", "4")]]
    let kept : Table := [Tree.ofScalars [("a", "3")]]
    let context := Context.new (MemoryRegistry.empty.insert "u" ⟨"s", "t", "1"⟩ pulled).connector
    let rule : Rule := ⟨.empty, .ofList [("s", "u")],
      [.push "p", .pull ⟨"s", "t", "1"⟩ "p", .push "p", .commit "p" (some ["a"]), .push "p",
        .push "q"]⟩
    let bindings : Bindings := .ofList [("p", given)]
    let run := context.executionTransitions rule bindings []
    (∃ before fetched, run[0]? = some ⟨.push "p", before, fetched, before.place given⟩) ∧
      (∃ before fetched, run[2]? = some ⟨.push "p", before, fetched, before.place pulled⟩) ∧
      (∃ before fetched, run[4]? = some ⟨.push "p", before, fetched, before.place kept⟩) ∧
      (context.executeInto rule bindings []).1.error? = some (.unknownTable "q") ∧
      (context.executeInto rule bindings []).1.output.table? "p" = some kept := by
  intro given pulled kept context rule bindings run
  have connected : (context.attach rule.repositories.toList).1 = none := by
    decide +kernel
  have counted : run.length = 5 := by
    decide +kernel
  obtain ⟨pushes, _, _⟩ := executeInto_resolves_names context rule bindings []
  have within : ∀ index ≤ 5, index ≤ run.length := by
    rw [counted]
    exact fun _ small => small
  have first := (pushes 0 "p" connected (within 0 (by decide)) rfl).1 given
  have second := (pushes 2 "p" connected (within 2 (by decide)) rfl).1 pulled
  have third := (pushes 4 "p" connected (within 4 (by decide)) rfl).1 kept
  have fourth := (pushes 5 "q" connected (within 5 (by decide)) rfl).2
  refine ⟨first ?_, second ?_, third ?_, (fourth.mp ?_).2, ?_⟩
  · rfl
  · rfl
  · rfl
  · decide +kernel
  · rfl

end Context

end TableScript
