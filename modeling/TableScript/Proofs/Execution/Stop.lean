import TableScript.Execution.Run

/-!
# Where an execution stops

An execution stops at a step when its rule, cut to the steps before that one, comes
to its end, and with that step it does not.  Cutting a rule changes nothing about
the steps that are left.
-/

namespace TableScript

def Rule.upTo (rule : Rule) (count : Nat) : Rule :=
  { rule with steps := rule.steps.take count }

namespace Context

variable {γ : Type}

def failure? (context : Context γ) (rule : Rule) (bindings : Bindings) (output : Output) :
    Option ExecutionError :=
  (context.executeInto rule bindings output).1.error?

def StopsAttaching (context : Context γ) (rule : Rule) (bindings : Bindings)
    (output : Output) (error : ExecutionError) : Prop :=
  context.failure? (rule.upTo 0) bindings output = some error ∧
    context.failure? rule bindings output = some error

/-- That an execution stops with an error at a step.  Steps are counted from zero. -/
def StopsAt (context : Context γ) (rule : Rule) (bindings : Bindings) (output : Output)
    (index : Nat) (error : ExecutionError) : Prop :=
  context.failure? (rule.upTo index) bindings output = none ∧
    context.failure? (rule.upTo (index + 1)) bindings output = some error ∧
    context.failure? rule bindings output = some error

/-! ## Runs of steps -/

def stepsFailure? (context : Context γ) (rule : Rule) (machine : Machine) (steps : List Step) :
    Option ExecutionError :=
  (context.runSteps rule machine steps).1.error?

def StepsStopAt (context : Context γ) (rule : Rule) (machine : Machine) (steps : List Step)
    (index : Nat) (error : ExecutionError) : Prop :=
  context.stepsFailure? rule machine (steps.take index) = none ∧
    context.stepsFailure? rule machine (steps.take (index + 1)) = some error ∧
    context.stepsFailure? rule machine steps = some error

theorem stepsFailure?_cons_ok {context after : Context γ} {rule : Rule} {step : Step}
    {machine next : Machine} (ran : context.runStep rule step machine = (.ok next, after))
    (rest : List Step) :
    context.stepsFailure? rule machine (step :: rest) = after.stepsFailure? rule next rest :=
  congrArg (fun ending => ending.1.error?) (runSteps_cons_ok ran rest)

theorem stepsFailure?_cons_error {context after : Context γ} {rule : Rule} {step : Step}
    {machine : Machine} {error : ExecutionError}
    (ran : context.runStep rule step machine = (.error error, after)) (rest : List Step) :
    context.stepsFailure? rule machine (step :: rest) = some error :=
  congrArg (fun ending => ending.1.error?) (runSteps_cons_error ran rest)

/-- A step that fails stops a run that begins with it. -/
theorem stepsStopAt_zero {context after : Context γ} {rule : Rule} {step : Step}
    {machine : Machine} {error : ExecutionError}
    (ran : context.runStep rule step machine = (.error error, after)) (rest : List Step) :
    context.StepsStopAt rule machine (step :: rest) 0 error :=
  ⟨rfl, stepsFailure?_cons_error ran _, stepsFailure?_cons_error ran rest⟩

/-- After a step that succeeds a run stops where the rest of it does. -/
theorem stepsStopAt_succ {context after : Context γ} {rule : Rule} {step : Step}
    {machine next : Machine} (ran : context.runStep rule step machine = (.ok next, after))
    {rest : List Step} {index : Nat} {error : ExecutionError}
    (later : after.StepsStopAt rule next rest index error) :
    context.StepsStopAt rule machine (step :: rest) (index + 1) error := by
  obtain ⟨before, reached, whole⟩ := later
  refine ⟨?_, ?_, ?_⟩
  · exact (stepsFailure?_cons_ok ran _).trans before
  · exact (stepsFailure?_cons_ok ran _).trans reached
  · exact (stepsFailure?_cons_ok ran rest).trans whole

/-! ## Cut rules -/

theorem fetchFor_upTo (context : Context γ) (rule : Rule) (count : Nat) (step : Step) :
    context.fetchFor (rule.upTo count) step = context.fetchFor rule step := by
  cases step <;> rfl

theorem runStep_upTo (context : Context γ) (rule : Rule) (count : Nat) (step : Step)
    (machine : Machine) :
    context.runStep (rule.upTo count) step machine = context.runStep rule step machine := by
  unfold runStep
  rw [fetchFor_upTo]

/-- A run of steps asks a rule for its repositories only. -/
theorem runSteps_upTo (context : Context γ) (rule : Rule) (count : Nat) (machine : Machine)
    (steps : List Step) :
    context.runSteps (rule.upTo count) machine steps = context.runSteps rule machine steps := by
  induction steps generalizing context machine with
  | nil => rfl
  | cons step rest ih =>
      unfold runSteps
      rw [runStep_upTo]
      split
      · exact ih _ _
      · rfl

/-- What happens while the repositories are attached does not depend on the steps. -/
theorem failure?_of_attach_some {context after : Context γ} {rule : Rule}
    {error : ExecutionError}
    (attached : context.attach rule.repositories.toList = (some error, after))
    (bindings : Bindings) (output : Output) :
    context.failure? rule bindings output = some error := by
  unfold failure? executeInto
  rw [attached]

theorem failure?_of_attach_none {context after : Context γ} {rule : Rule}
    (attached : context.attach rule.repositories.toList = (none, after))
    (bindings : Bindings) (output : Output) :
    context.failure? rule bindings output =
      after.stepsFailure? rule (.start bindings output) rule.steps := by
  unfold failure? executeInto
  rw [attached]
  rfl

theorem failure?_upTo_of_attach_none {context after : Context γ} {rule : Rule}
    (attached : context.attach rule.repositories.toList = (none, after))
    (bindings : Bindings) (output : Output) (count : Nat) :
    context.failure? (rule.upTo count) bindings output =
      after.stepsFailure? rule (.start bindings output) (rule.steps.take count) := by
  have same : context.attach (rule.upTo count).repositories.toList = (none, after) := attached
  calc context.failure? (rule.upTo count) bindings output
      = after.stepsFailure? (rule.upTo count) (.start bindings output) (rule.steps.take count) :=
        failure?_of_attach_none same bindings output
    _ = after.stepsFailure? rule (.start bindings output) (rule.steps.take count) := by
        unfold stepsFailure?
        rw [runSteps_upTo]

theorem stopsAttaching_of_attach {context after : Context γ} {rule : Rule}
    {error : ExecutionError}
    (attached : context.attach rule.repositories.toList = (some error, after))
    (bindings : Bindings) (output : Output) :
    context.StopsAttaching rule bindings output error := by
  have same : context.attach (rule.upTo 0).repositories.toList = (some error, after) := attached
  exact ⟨failure?_of_attach_some same bindings output,
    failure?_of_attach_some attached bindings output⟩

/-- Once its repositories are attached, an execution stops where its steps do. -/
theorem stopsAt_of_steps {context after : Context γ} {rule : Rule}
    (attached : context.attach rule.repositories.toList = (none, after))
    {bindings : Bindings} {output : Output} {index : Nat} {error : ExecutionError}
    (stops : after.StepsStopAt rule (.start bindings output) rule.steps index error) :
    context.StopsAt rule bindings output index error := by
  obtain ⟨before, reached, whole⟩ := stops
  refine ⟨?_, ?_, ?_⟩
  · exact (failure?_upTo_of_attach_none attached bindings output index).trans before
  · exact (failure?_upTo_of_attach_none attached bindings output (index + 1)).trans reached
  · exact (failure?_of_attach_none attached bindings output).trans whole

end Context

end TableScript
