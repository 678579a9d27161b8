import TableScript.Proofs.Execution.Effect
import TableScript.Proofs.Execution.Stop
import TableScript.Proofs.Registry.Steady

/-!
# What an execution leaves behind

Commits are added to the output one by one, and none is ever taken back.  An execution that
fails at a step leaves what the execution of the steps before it leaves, which comes to its
end.  An execution that cannot connect a repository leaves the output alone and begins no
step.
-/

namespace TableScript

def Event.begun? : Event → Option String
  | .step name _ => some name
  | _ => none

namespace Context

variable {γ : Type}

/-! ## Connecting -/

/-- That a context has told more than another one, but of no step that began. -/
def TellsOfNoStep (context after : Context γ) : Prop :=
  ∃ told, after.events = context.events ++ told ∧ ∀ event ∈ told, event.begun? = none

theorem TellsOfNoStep.refl (context : Context γ) : context.TellsOfNoStep context :=
  ⟨[], (List.append_nil _).symm, fun _ member => nomatch member⟩

theorem TellsOfNoStep.trans {context middle after : Context γ}
    (first : context.TellsOfNoStep middle) (second : middle.TellsOfNoStep after) :
    context.TellsOfNoStep after := by
  obtain ⟨earlier, begins, none⟩ := first
  obtain ⟨later, ends, others⟩ := second
  refine ⟨earlier ++ later, by rw [ends, begins, List.append_assoc], ?_⟩
  intro event member
  exact (List.mem_append.mp member).elim (none event) (others event)

theorem tellsOfNoStep_tell (context : Context γ) (event : Event) (none : event.begun? = none) :
    context.TellsOfNoStep (context.tell [event]) := by
  refine ⟨[event], rfl, ?_⟩
  intro told member
  rw [List.mem_singleton.mp member]
  exact none

theorem tellsOfNoStep_client (context : Context γ) (url : String) :
    context.TellsOfNoStep (context.client url).2 := by
  have told := context.tellsOfNoStep_tell (.creatingClient url) rfl
  unfold client
  split
  · exact .refl context
  · simp only
    split
    · exact told
    · exact told

theorem tellsOfNoStep_attach (context : Context γ) (repositories : List (String × String)) :
    context.TellsOfNoStep (context.attach repositories).2 := by
  induction repositories generalizing context with
  | nil => exact .refl context
  | cons repository rest ih =>
      obtain ⟨name, url⟩ := repository
      have told := context.tellsOfNoStep_tell (.attaching name url) rfl
      have connected := told.trans (tellsOfNoStep_client _ url)
      unfold attach
      split
      · next found =>
          rw [found] at connected
          exact connected.trans (ih _)
      · next found =>
          rw [found] at connected
          exact connected

/-! ## Runs -/

/-- The commits of a run bear the names under which its first steps commit. -/
theorem map_table_commits (context : Context γ) (rule : Rule) (machine : Machine)
    (steps : List Step) :
    ((context.transitions rule machine steps).filterMap Transition.commit?).map Commit.table =
      (steps.take (context.transitions rule machine steps).length).filterMap Step.commits? := by
  obtain ⟨_, leads, _⟩ := context.leads_transitions rule machine steps
  rw [leads.map_table_commits, map_step_transitions]

/-- Every step of a run that comes to its end is a transition. -/
theorem length_transitions_of_ended {context : Context γ} {rule : Rule} {machine : Machine}
    {steps : List Step} (ended : context.stepsFailure? rule machine steps = none) :
    (context.transitions rule machine steps).length = steps.length := by
  induction steps generalizing context machine with
  | nil => rfl
  | cons step rest ih =>
      cases ran : context.runStep rule step machine with
      | mk performed after =>
          cases performed with
          | error failure =>
              rw [stepsFailure?_cons_error ran] at ended
              cases ended
          | ok next =>
              rw [stepsFailure?_cons_ok ran] at ended
              rw [transitions_cons_ok ran, List.length_cons, List.length_cons, ih ended]

/-- A run stops behind its last transition. -/
theorem stepsStopAt_length {context : Context γ} {rule : Rule} {machine : Machine}
    {steps : List Step} {error : ExecutionError}
    (stopped : context.stepsFailure? rule machine steps = some error) :
    context.StepsStopAt rule machine steps (context.transitions rule machine steps).length
      error := by
  induction steps generalizing context machine with
  | nil => cases stopped
  | cons step rest ih =>
      cases ran : context.runStep rule step machine with
      | mk performed after =>
          cases performed with
          | error failure =>
              rw [stepsFailure?_cons_error ran] at stopped
              cases stopped
              rw [transitions_cons_error ran]
              exact stepsStopAt_zero ran rest
          | ok next =>
              rw [stepsFailure?_cons_ok ran] at stopped
              rw [transitions_cons_ok ran]
              exact stepsStopAt_succ ran (ih stopped)

/-- A run leaves what the run of the steps that succeed leaves, which comes to its end. -/
theorem runSteps_take_length (context : Context γ) (rule : Rule) (machine : Machine)
    (steps : List Step) :
    (context.runSteps rule machine
        (steps.take (context.transitions rule machine steps).length)).1 =
      ⟨(context.runSteps rule machine steps).1.output, none⟩ := by
  obtain ⟨middle, reached, leads, cut, _, _⟩ :=
    context.exists_cut rule machine steps (Nat.le_refl _)
  rw [List.take_length] at leads
  rw [cut, output_runSteps_eq, leads.output_eq]

/-! ## Executions -/

/-- An execution that comes to its end has a commit for every step that commits. -/
theorem map_table_of_ended {context : Context γ} {rule : Rule} {bindings : Bindings}
    {output : Output} (ended : (context.executeInto rule bindings output).1.error? = none) :
    ((context.executionTransitions rule bindings output).filterMap
        Transition.commit?).map Commit.table =
      rule.steps.filterMap Step.commits? := by
  cases attached : context.attach rule.repositories.toList with
  | mk failure after =>
      cases failure with
      | some error =>
          rw [executeInto_of_attach_some attached] at ended
          cases ended
      | none =>
          rw [executeInto_of_attach_none attached] at ended
          rw [executionTransitions_of_attach_none attached, map_table_commits,
            length_transitions_of_ended ended, List.take_length]

/-- The steps that succeed leave in an execution of their own what they leave in the whole
one. -/
theorem executeInto_upTo_length {context after : Context γ} {rule : Rule}
    (attached : context.attach rule.repositories.toList = (none, after)) (bindings : Bindings)
    (output : Output) :
    (context.executeInto (rule.upTo (context.executionTransitions rule bindings output).length)
        bindings output).1 =
      ⟨(context.executeInto rule bindings output).1.output, none⟩ := by
  rw [executeInto_upTo_of_attach_none attached, executionTransitions_of_attach_none attached,
    runSteps_take_length, executeInto_of_attach_none attached]

/-- An execution stops behind its last transition. -/
theorem stopsAt_length {context after : Context γ} {rule : Rule}
    (attached : context.attach rule.repositories.toList = (none, after)) {bindings : Bindings}
    {output : Output} {error : ExecutionError}
    (stopped : (context.executeInto rule bindings output).1.error? = some error) :
    context.StopsAt rule bindings output (context.executionTransitions rule bindings output).length
      error := by
  rw [executeInto_of_attach_none attached] at stopped
  rw [executionTransitions_of_attach_none attached]
  exact stopsAt_of_steps attached (stepsStopAt_length stopped)

/-- What an execution commits comes behind what was there before.  An execution that comes to
its end has a commit for every step that commits, in their order and under their names.  If a
repository cannot be connected, the output is as it was and no step has begun.  If a step
fails, the output is what the execution of the steps before it leaves, which comes to its end;
and where the answers of the connector depend on the questions alone, that execution may be
made in any context that rests on the connector. -/
theorem executeInto_keeps_commits (context : Context γ) (rule : Rule) (bindings : Bindings)
    (output : Output) :
    let ending := (context.executeInto rule bindings output).1
    let count := (context.executionTransitions rule bindings output).length
    output <+: ending.output ∧
    (ending.error? = none → ∃ commits, ending.output = output ++ commits ∧
      commits.map Commit.table = rule.steps.filterMap Step.commits?) ∧
    (∀ obstacle, (context.attach rule.repositories.toList).1 = some obstacle →
      ending = ⟨output, some obstacle⟩ ∧
        context.TellsOfNoStep (context.executeInto rule bindings output).2) ∧
    (∀ error, (context.attach rule.repositories.toList).1 = none → ending.error? = some error →
      context.StopsAt rule bindings output count error ∧
      (context.executeInto (rule.upTo count) bindings output).1 = ⟨ending.output, none⟩ ∧
      ∀ {connector : Connector γ} {other : Context γ}, context.RestsOn connector →
        other.RestsOn connector →
        (∀ name, other.functions.get? name = context.functions.get? name) →
        (other.executeInto (rule.upTo count) bindings output).1 = ⟨ending.output, none⟩) := by
  intro ending count
  have committed := context.output_executeInto_eq rule bindings output
  cases attached : context.attach rule.repositories.toList with
  | mk failure after =>
      refine ⟨⟨_, committed.symm⟩, ?_, ?_, ?_⟩
      · intro ended
        exact ⟨_, committed, map_table_of_ended ended⟩
      · intro obstacle failed
        obtain rfl : failure = some obstacle := failed
        have told := context.tellsOfNoStep_attach rule.repositories.toList
        have executed := executeInto_of_attach_some attached bindings output
        rw [attached] at told
        rw [executed]
        exact ⟨congrArg Prod.fst executed, told⟩
      · intro error connected stopped
        obtain rfl : failure = none := connected
        have cut := executeInto_upTo_length attached bindings output
        refine ⟨stopsAt_length attached stopped, cut, ?_⟩
        intro connector other rests others functions
        rw [rests.executeInto_fst_eq others functions, cut]

/-- A pulled table is committed, and the commit of a column that it lacks fails.  What was
committed stands, and the two steps that succeeded leave the same when they are executed once
more in the context that the failure leaves. -/
theorem failed_commit_leaves_earlier_ones :
    let table : Table := [Tree.ofScalars [("a", "1")]]
    let context := Context.new (MemoryRegistry.empty.insert "u" ⟨"s", "t", "1"⟩ table).connector
    let rule : Rule := ⟨.empty, .ofList [("s", "u")],
      [.pull ⟨"s", "t", "1"⟩ "p", .commit "kept" none, .commit "lost" (some ["b"]), .pop]⟩
    let earlier : Output := [⟨"before", []⟩]
    let used := (context.executeInto rule .empty earlier).2
    (context.executeInto rule .empty earlier).1 =
        ⟨[⟨"before", []⟩, ⟨"kept", table⟩], some (.missingColumn "b")⟩ ∧
      (used.executeInto (rule.upTo 2) .empty earlier).1 =
        ⟨[⟨"before", []⟩, ⟨"kept", table⟩], none⟩ := by
  intro table context rule earlier used
  have ended : (context.executeInto rule .empty earlier).1 =
      ⟨[⟨"before", []⟩, ⟨"kept", table⟩], some (.missingColumn "b")⟩ := by
    rfl
  have connected : (context.attach rule.repositories.toList).1 = none := by
    rfl
  have counted : (context.executionTransitions rule .empty earlier).length = 2 := by
    rfl
  have rests : context.RestsOn _ := .new (MemoryRegistry.steady_connector _)
  obtain ⟨_, _, _, failed⟩ := executeInto_keeps_commits context rule .empty earlier
  obtain ⟨_, _, again⟩ := failed (.missingColumn "b") connected (congrArg Ending.error? ended)
  have functions : used.functions = context.functions := by
    rfl
  have repeated := again rests (rests.executeInto rule .empty earlier) fun _ => functions ▸ rfl
  rw [counted, ended] at repeated
  exact ⟨ended, repeated⟩

end Context

end TableScript
