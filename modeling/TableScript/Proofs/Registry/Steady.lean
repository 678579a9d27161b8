import TableScript.Proofs.Execution.DataError
import TableScript.Registry.Directory
import TableScript.Registry.Memory

/-!
# Steady connectors

The answers of a connector may depend on everything that was asked before.  Those of a
steady one depend on the question alone, and a context that rests on it keeps no client but
those that it would be given again.  What such a context has done before makes no difference
to what an execution fetches, and so none to how the execution ends.
-/

namespace TableScript

variable {γ : Type}

namespace Connector

/-- That the answers of a connector depend on the questions alone. -/
structure Steady (connector : Connector γ) : Prop where
  connect : ∀ calls url, connector.connect calls url = connector.connect [] url
  tables : ∀ calls client reference,
    connector.tables calls client reference = connector.tables [] client reference

def client (connector : Connector γ) (url : String) : Except ExecutionError γ :=
  (connector.connect [] url).mapError (.repositoryFetch url)

def fetch (connector : Connector γ) (url : String) (reference : Reference) :
    Except ExecutionError Table := do
  (connector.tables [] (← connector.client url) reference).mapError (.repositoryFetch url)

theorem fetch_of_client {connector : Connector γ} {url : String} {client : γ}
    (given : connector.client url = .ok client) (reference : Reference) :
    connector.fetch url reference =
      (connector.tables [] client reference).mapError (.repositoryFetch url) := by
  unfold fetch
  rw [given]
  rfl

/-- What a connector gives to the steps of a rule: tables to those that pull one. -/
def answer (connector : Connector γ) (rule : Rule) : Step → Except ExecutionError Table
  | .pull reference _ => do connector.fetch (← rule.urlFor reference.space) reference
  | _ => .ok []

/-- Why repositories cannot be connected: the first failure in their order. -/
def obstacle? (connector : Connector γ) (repositories : List (String × String)) :
    Option ExecutionError :=
  repositories.findSome? fun entry =>
    match connector.client entry.2 with
    | .ok _ => none
    | .error error => some error

end Connector

theorem MemoryRegistry.steady_connector (registry : MemoryRegistry) :
    registry.connector.Steady := ⟨fun _ _ => rfl, fun _ _ _ => rfl⟩

theorem Directory.steady_connector (directory : Directory) : directory.connector.Steady :=
  ⟨fun _ _ => rfl, fun _ _ _ => rfl⟩

/-- A step looks its function up and asks for nothing else of the functions. -/
theorem Step.perform_congr {functions others : Functions}
    (same : ∀ name, others.get? name = functions.get? name) (step : Step)
    (fetched : Except ExecutionError Table) (machine : Machine) :
    step.perform others fetched machine = step.perform functions fetched machine := by
  cases step with
  | accumulate column call result =>
      simp only [perform, Machine.accumulate, Functions.accumulate, same]
  | _ => rfl

namespace Context

/-- That a context rests on a steady connector: it keeps no client but those that the
connector gives. -/
structure RestsOn (context : Context γ) (connector : Connector γ) : Prop where
  connected : context.connector = connector
  steady : connector.Steady
  clients : ∀ url client, context.clients.get? url = some client →
    connector.connect [] url = .ok client

namespace RestsOn

variable {context : Context γ} {connector : Connector γ}

theorem new (steady : connector.Steady) : (Context.new connector).RestsOn connector := by
  refine ⟨rfl, steady, ?_⟩
  intro url client kept
  cases kept

theorem tell (rests : context.RestsOn connector) (events : List Event) :
    (context.tell events).RestsOn connector := ⟨rests.connected, rests.steady, rests.clients⟩

theorem note (rests : context.RestsOn connector) (call : RegistryCall γ) :
    (context.note call).RestsOn connector := ⟨rests.connected, rests.steady, rests.clients⟩

/-- A client that is given may be kept. -/
theorem keep (rests : context.RestsOn connector) {url : String} {client : γ}
    (given : connector.connect [] url = .ok client) :
    RestsOn { context with clients := context.clients.insert url client } connector := by
  refine ⟨rests.connected, rests.steady, ?_⟩
  intro asked other kept
  rw [OrderedMap.get?_insert] at kept
  split at kept
  · next same =>
      cases kept
      rw [same]
      exact given
  · exact rests.clients asked other kept

theorem client (rests : context.RestsOn connector) (url : String) :
    (context.client url).1 = connector.client url ∧ (context.client url).2.RestsOn connector := by
  unfold Context.client Connector.client
  split
  · next client kept =>
      rw [rests.clients url client kept]
      exact ⟨rfl, rests⟩
  · have noted := (rests.tell [.creatingClient url]).note (.connect url)
    have asked : ((context.tell [.creatingClient url]).note (.connect url)).connector.connect
        context.calls url = connector.connect [] url := by
      rw [noted.connected, rests.steady.connect]
    simp only [asked]
    cases given : connector.connect [] url with
    | error error => exact ⟨rfl, noted⟩
    | ok client => exact ⟨rfl, noted.keep given⟩

theorem fetch (rests : context.RestsOn connector) (url : String) (reference : Reference) :
    (context.fetch url reference).1 = connector.fetch url reference ∧
      (context.fetch url reference).2.RestsOn connector := by
  obtain ⟨answered, after⟩ := rests.client url
  unfold Context.fetch Connector.fetch
  rw [← answered]
  cases found : context.client url with
  | mk answer context =>
      rw [found] at after
      cases answer with
      | error error => exact ⟨rfl, after⟩
      | ok client =>
          have connected : context.connector = connector := after.connected
          refine ⟨?_, (after.tell _).note _⟩
          simp only [ask, connected, rests.steady.tables context.calls]
          rfl

/-- A step gets what the connector has for it. -/
theorem fetchFor (rests : context.RestsOn connector) (rule : Rule) (step : Step) :
    (context.fetchFor rule step).1 = connector.answer rule step ∧
      (context.fetchFor rule step).2.RestsOn connector := by
  cases step with
  | pull reference target =>
      simp only [Context.fetchFor, Connector.answer]
      cases rule.urlFor reference.space with
      | error error => exact ⟨rfl, rests⟩
      | ok url => exact (rests.tell [.pulling reference url target]).fetch url reference
  | _ => exact ⟨rfl, rests⟩

theorem runStep (rests : context.RestsOn connector) (rule : Rule) (step : Step)
    (machine : Machine) :
    (context.runStep rule step machine).1 =
        step.perform context.functions (connector.answer rule step) machine ∧
      (context.runStep rule step machine).2.RestsOn connector := by
  obtain ⟨answered, after⟩ := (rests.tell [.step step.name machine.depth]).fetchFor rule step
  refine ⟨?_, ?_⟩
  · rw [runStep_fst, answered]
  · unfold Context.runStep
    simp only
    split
    · exact after.tell _
    · exact after

theorem attach (rests : context.RestsOn connector) (repositories : List (String × String)) :
    (context.attach repositories).1 = connector.obstacle? repositories ∧
      (context.attach repositories).2.RestsOn connector := by
  induction repositories generalizing context with
  | nil => exact ⟨rfl, rests⟩
  | cons repository rest ih =>
      obtain ⟨name, url⟩ := repository
      obtain ⟨answered, after⟩ := (rests.tell [.attaching name url]).client url
      unfold Context.attach Connector.obstacle?
      rw [List.findSome?_cons, ← answered]
      cases found : (context.tell [.attaching name url]).client url with
      | mk answer context =>
          rw [found] at after
          cases answer with
          | error error => exact ⟨rfl, after⟩
          | ok client => exact ih after

theorem runSteps (rests : context.RestsOn connector) (rule : Rule) (machine : Machine)
    (steps : List Step) : (context.runSteps rule machine steps).2.RestsOn connector := by
  induction steps generalizing context machine with
  | nil => exact rests
  | cons step rest ih =>
      have after := (rests.runStep rule step machine).2
      unfold Context.runSteps
      split
      · next ran =>
          rw [ran] at after
          exact ih after _
      · next ran =>
          rw [ran] at after
          exact after

theorem executeInto (rests : context.RestsOn connector) (rule : Rule) (bindings : Bindings)
    (output : Output) : (context.executeInto rule bindings output).2.RestsOn connector := by
  have after := (rests.attach rule.repositories.toList).2
  unfold Context.executeInto
  split
  · next attached =>
      rw [attached] at after
      exact after.runSteps rule _ rule.steps
  · next attached =>
      rw [attached] at after
      exact after

/-! ## Two contexts -/

variable {other : Context γ}

/-- Steps run to the same end in all contexts that rest on one connector and have the same
functions. -/
theorem runSteps_fst_eq (rests : context.RestsOn connector) (others : other.RestsOn connector)
    (functions : ∀ name, other.functions.get? name = context.functions.get? name) (rule : Rule)
    (machine : Machine) (steps : List Step) :
    (other.runSteps rule machine steps).1 = (context.runSteps rule machine steps).1 := by
  induction steps generalizing context other machine with
  | nil => rfl
  | cons step rest ih =>
      obtain ⟨performed, after⟩ := rests.runStep rule step machine
      obtain ⟨otherPerformed, otherAfter⟩ := others.runStep rule step machine
      have kept := context.functions_runStep rule step machine
      have otherKept := other.functions_runStep rule step machine
      rw [Step.perform_congr functions, ← performed] at otherPerformed
      cases ran : context.runStep rule step machine with
      | mk outcome next =>
          cases otherRan : other.runStep rule step machine with
          | mk otherOutcome otherNext =>
              rw [ran] at after kept otherPerformed
              rw [otherRan] at otherAfter otherKept otherPerformed
              cases otherPerformed
              cases outcome with
              | error error => rw [runSteps_cons_error ran, runSteps_cons_error otherRan]
              | ok machine =>
                  rw [runSteps_cons_ok ran, runSteps_cons_ok otherRan]
                  apply ih after otherAfter
                  intro name
                  rw [otherKept, kept, functions name]

/-- An execution ends in the same way in all contexts that rest on one connector and have
the same functions. -/
theorem executeInto_fst_eq (rests : context.RestsOn connector) (others : other.RestsOn connector)
    (functions : ∀ name, other.functions.get? name = context.functions.get? name) (rule : Rule)
    (bindings : Bindings) (output : Output) :
    (other.executeInto rule bindings output).1 = (context.executeInto rule bindings output).1 := by
  obtain ⟨connected, after⟩ := rests.attach rule.repositories.toList
  obtain ⟨otherConnected, otherAfter⟩ := others.attach rule.repositories.toList
  have kept := context.functions_attach rule.repositories.toList
  have otherKept := other.functions_attach rule.repositories.toList
  rw [← connected] at otherConnected
  unfold Context.executeInto
  cases attached : context.attach rule.repositories.toList with
  | mk failure reached =>
      cases otherAttached : other.attach rule.repositories.toList with
      | mk otherFailure otherReached =>
          rw [attached] at after kept otherConnected
          rw [otherAttached] at otherAfter otherKept otherConnected
          cases otherConnected
          cases failure with
          | some error => rfl
          | none =>
              apply after.runSteps_fst_eq otherAfter
              intro name
              rw [otherKept, kept, functions name]

end RestsOn

end Context

end TableScript
