import TableScript.Execution.Run

/-!
# Failures that depend on data

Three errors of execution depend on what tables hold or on what a registry
answers: a column that is missing, a value that is no number, and a table that
cannot be fetched.  Once its stack is deep enough, its key lists are equally long,
its function is known and its repository is found, a step has no other way to fail.
-/

namespace TableScript

/-- That an error depends on the contents of tables or on a registry. -/
def ExecutionError.OfData : ExecutionError → Prop
  | .missingColumn _ => True
  | .notANumber _ _ => True
  | .repositoryFetch _ _ => True
  | _ => False

def FailsOnData {α : Type} (result : Except ExecutionError α) : Prop :=
  ∀ error, result = .error error → error.OfData

namespace FailsOnData

variable {α β : Type}

theorem ok (value : α) : FailsOnData (.ok value) := by
  intro error failed
  cases failed

theorem error {error : ExecutionError} (ofData : error.OfData) :
    FailsOnData (.error error : Except ExecutionError α) := by
  intro other failed
  cases failed
  exact ofData

theorem bind {result : Except ExecutionError α} {next : α → Except ExecutionError β}
    (first : FailsOnData result) (second : ∀ value, FailsOnData (next value)) :
    FailsOnData (result >>= next) := by
  cases result with
  | error error => exact .error (first error rfl)
  | ok value => exact second value

theorem map {result : Except ExecutionError α} (change : α → β) (only : FailsOnData result) :
    FailsOnData (result.map change) := by
  cases result with
  | error error => exact .error (only error rfl)
  | ok value => exact .ok (change value)

theorem mapM {action : α → Except ExecutionError β} (each : ∀ item, FailsOnData (action item))
    (items : List α) : FailsOnData (items.mapM action) := by
  induction items with
  | nil => exact .ok []
  | cons item rest ih =>
      rw [List.mapM_cons]
      exact (each item).bind fun _ => ih.bind fun _ => .ok _

theorem foldlM {action : β → α → Except ExecutionError β}
    (each : ∀ total item, FailsOnData (action total item)) (items : List α) (total : β) :
    FailsOnData (items.foldlM action total) := by
  induction items generalizing total with
  | nil => exact .ok total
  | cons item rest ih =>
      rw [List.foldlM_cons]
      exact (each total item).bind ih

end FailsOnData

namespace Record

theorem select_failsOnData (columns : List String) (record : Record) :
    FailsOnData (select columns record) := by
  unfold select
  split
  · exact .error trivial
  · exact .ok _

theorem valueOf_failsOnData (left right : Record) (column : String) :
    FailsOnData (valueOf left right column) := by
  unfold valueOf
  split
  · exact .ok _
  · split
    · exact .ok _
    · exact .error trivial

theorem project_failsOnData (projections : List Projection) (pair : Record × Record) :
    FailsOnData (project projections pair) := by
  unfold project
  apply FailsOnData.bind
  · apply FailsOnData.mapM
    intro column
    exact (valueOf_failsOnData pair.1 pair.2 column.source).map _
  · intro entries
    exact .ok _

theorem number_failsOnData (record : Record) (column : String) :
    FailsOnData (number record column) := by
  unfold number
  split
  · exact .error trivial
  · split
    · exact .ok _
    · exact .error trivial

theorem aggregate_failsOnData (combined : Aggregate) (columns : List String) (record : Record) :
    FailsOnData (aggregate combined columns record) :=
  .foldlM (fun _ column => (number_failsOnData record column).map _) columns _

end Record

namespace Table

theorem select_failsOnData (columns : List String) (table : Table) :
    FailsOnData (select columns table) :=
  .mapM (Record.select_failsOnData columns) table

theorem aggregate_failsOnData (combined : Aggregate) (columns : List String) (table : Table) :
    FailsOnData (aggregate combined columns table) :=
  .foldlM (fun _ record => (Record.aggregate_failsOnData combined columns record).map _) table _

end Table

namespace Context

variable {γ : Type}

theorem client_failsOnData (context : Context γ) (url : String) :
    FailsOnData (context.client url).1 := by
  unfold client
  split
  · exact .ok _
  · simp only
    split
    · exact .ok _
    · exact .error trivial

theorem fetch_failsOnData (context : Context γ) (url : String) (reference : Reference) :
    FailsOnData (context.fetch url reference).1 := by
  have connected := context.client_failsOnData url
  unfold fetch
  cases found : context.client url with
  | mk answer after =>
      rw [found] at connected
      cases answer with
      | error error => exact .error (connected error rfl)
      | ok client =>
          simp only [ask]
          cases after.connector.tables after.calls client reference with
          | error error => exact .error trivial
          | ok table => exact .ok table

/-- Connecting a repository leaves the functions of a context alone. -/
theorem functions_client (context : Context γ) (url : String) :
    (context.client url).2.functions = context.functions := by
  unfold client
  split
  · rfl
  · simp only
    split <;> rfl

theorem functions_fetch (context : Context γ) (url : String) (reference : Reference) :
    (context.fetch url reference).2.functions = context.functions := by
  have kept := context.functions_client url
  unfold fetch
  cases found : context.client url with
  | mk answer after =>
      rw [found] at kept
      cases answer with
      | error error => exact kept
      | ok client => exact kept

theorem functions_fetchFor (context : Context γ) (rule : Rule) (step : Step) :
    (context.fetchFor rule step).2.functions = context.functions := by
  unfold fetchFor
  split
  · next reference target =>
      split
      · exact functions_fetch _ _ _
      · rfl
  · rfl

theorem functions_runStep (context : Context γ) (rule : Rule) (step : Step) (machine : Machine) :
    (context.runStep rule step machine).2.functions = context.functions := by
  have kept := (context.tell [.step step.name machine.depth]).functions_fetchFor rule step
  unfold runStep
  simp only
  split
  · exact kept
  · exact kept

/-- Running a step performs it with the table that it pulls. -/
theorem runStep_fst (context : Context γ) (rule : Rule) (step : Step) (machine : Machine) :
    (context.runStep rule step machine).1 =
      step.perform context.functions
        ((context.tell [.step step.name machine.depth]).fetchFor rule step).1 machine := by
  have kept : ((context.tell [.step step.name machine.depth]).fetchFor rule step).2.functions =
      context.functions := functions_fetchFor _ rule step
  unfold runStep
  simp only [kept]
  cases step.perform context.functions
      ((context.tell [.step step.name machine.depth]).fetchFor rule step).1 machine with
  | error error => rfl
  | ok after => rfl

theorem functions_attach (context : Context γ) (repositories : List (String × String)) :
    (context.attach repositories).2.functions = context.functions := by
  induction repositories generalizing context with
  | nil => rfl
  | cons repository rest ih =>
      obtain ⟨name, url⟩ := repository
      have kept := (context.tell [.attaching name url]).functions_client url
      unfold attach
      cases found : (context.tell [.attaching name url]).client url with
      | mk answer after =>
          rw [found] at kept
          cases answer with
          | error error => exact kept
          | ok client =>
              calc (after.attach rest).2.functions
                  = after.functions := ih after
                _ = context.functions := kept

theorem functions_runSteps (context : Context γ) (rule : Rule) (machine : Machine)
    (steps : List Step) :
    (context.runSteps rule machine steps).2.functions = context.functions := by
  induction steps generalizing context machine with
  | nil => rfl
  | cons step rest ih =>
      have kept := context.functions_runStep rule step machine
      cases ran : context.runStep rule step machine with
      | mk performed after =>
          rw [ran] at kept
          cases performed with
          | error error =>
              rw [runSteps_cons_error ran]
              exact kept
          | ok next =>
              rw [runSteps_cons_ok ran, ih]
              exact kept

/-- An execution leaves the functions of its context alone. -/
theorem functions_executeInto (context : Context γ) (rule : Rule) (bindings : Bindings)
    (output : Output) :
    (context.executeInto rule bindings output).2.functions = context.functions := by
  have kept := context.functions_attach rule.repositories.toList
  unfold executeInto
  split
  · next attached =>
      rw [attached] at kept
      rw [functions_runSteps]
      exact kept
  · next attached =>
      rw [attached] at kept
      exact kept

theorem functions_get (context : Context γ) (rule : Rule) (repository : String)
    (reference : Reference) :
    (context.get rule repository reference).2.functions = context.functions := by
  unfold get
  split
  · exact context.functions_fetch _ reference
  · rfl

theorem attach_ofData {context : Context γ} {repositories : List (String × String)}
    {error : ExecutionError} (failed : (context.attach repositories).1 = some error) :
    error.OfData := by
  induction repositories generalizing context with
  | nil => cases failed
  | cons repository rest ih =>
      obtain ⟨name, url⟩ := repository
      have connected := (context.tell [.attaching name url]).client_failsOnData url
      unfold attach at failed
      cases found : (context.tell [.attaching name url]).client url with
      | mk answer after =>
          rw [found] at connected failed
          cases answer with
          | error other =>
              cases failed
              exact connected error rfl
          | ok client => exact ih failed

end Context

end TableScript
