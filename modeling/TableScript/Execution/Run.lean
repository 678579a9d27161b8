import TableScript.Execution.Context

/-!
# Executing rules

All attached repositories are connected, in the order of their names, before the
first step.  The steps then run one after the other on a machine with an empty
stack, until one fails.  What was committed up to then stays committed.
-/

namespace TableScript

structure Ending where
  /-- everything committed, also what was committed before an error -/
  output : Output
  /-- why the execution stopped before its end -/
  error? : Option ExecutionError

namespace Ending

def result (ending : Ending) : Except ExecutionError Output :=
  match ending.error? with
  | some error => .error error
  | none => .ok ending.output

end Ending

namespace Step

/-- What a step needs from a machine and does to it.  Only a pulled table comes
from outside: it is `fetched`. -/
def perform (step : Step) (functions : Functions)
    (fetched : Except ExecutionError Table) (machine : Machine) :
    Except ExecutionError Machine :=
  match step with
  | push table => machine.push table
  | pop => machine.pop
  | duplicate => machine.duplicate
  | commit table columns => machine.commit table columns
  | join pairing => machine.pair "join" (Table.join · · pairing)
  | inclusion pairing => machine.pair "inclusion" (Table.inclusion · · pairing)
  | accumulate column call result => machine.accumulate functions column call result
  | pull _ target => fetched.map (machine.receive target)

/-- What is told of a step that was performed, from the machine before it and the
machine after it. -/
def report (step : Step) (before after : Machine) : List Event :=
  match step, before.stack, after.stack with
  | commit table _, _, _ =>
      (after.output.getLast?.toList).map fun commit => .committing table commit.records.length
  | join _, right :: left :: _, result :: _
  | inclusion _, right :: left :: _, result :: _ =>
      [.pairing step.name left.length right.length result.length]
  | _, _, _ => []

end Step

namespace Context

variable {γ : Type}

/-- The table that a step pulls; other steps need none. -/
def fetchFor (context : Context γ) (rule : Rule) :
    Step → Except ExecutionError Table × Context γ
  | .pull reference target =>
      match rule.urlFor reference.space with
      | .ok url => (context.tell [.pulling reference url target]).fetch url reference
      | .error error => (.error error, context)
  | _ => (.ok [], context)

def runStep (context : Context γ) (rule : Rule) (step : Step) (machine : Machine) :
    Except ExecutionError Machine × Context γ :=
  let (fetched, context) :=
    (context.tell [.step step.name machine.depth]).fetchFor rule step
  match step.perform context.functions fetched machine with
  | .ok after => (.ok after, context.tell (step.report machine after))
  | .error error => (.error error, context)

def runSteps (context : Context γ) (rule : Rule) (machine : Machine) :
    List Step → Ending × Context γ
  | [] => (⟨machine.output, none⟩, context)
  | step :: rest =>
      match context.runStep rule step machine with
      | (.ok after, context) => context.runSteps rule after rest
      | (.error error, context) => (⟨machine.output, some error⟩, context)

/-- After a step that succeeds the rest runs on the machine that it leaves. -/
theorem runSteps_cons_ok {context after : Context γ} {rule : Rule} {step : Step}
    {machine next : Machine} (ran : context.runStep rule step machine = (.ok next, after))
    (rest : List Step) :
    context.runSteps rule machine (step :: rest) = after.runSteps rule next rest := by
  simp only [runSteps, ran]

/-- A step that fails ends the execution with what was committed before it. -/
theorem runSteps_cons_error {context after : Context γ} {rule : Rule} {step : Step}
    {machine : Machine} {error : ExecutionError}
    (ran : context.runStep rule step machine = (.error error, after)) (rest : List Step) :
    context.runSteps rule machine (step :: rest) = (⟨machine.output, some error⟩, after) := by
  simp only [runSteps, ran]

def attach (context : Context γ) : List (String × String) → Option ExecutionError × Context γ
  | [] => (none, context)
  | (name, url) :: rest =>
      match (context.tell [.attaching name url]).client url with
      | (.ok _, context) => context.attach rest
      | (.error error, context) => (some error, context)

/-- Execute a rule whose commits are added to an output. -/
def executeInto (context : Context γ) (rule : Rule) (bindings : Bindings) (output : Output) :
    Ending × Context γ :=
  match context.attach rule.repositories.toList with
  | (none, context) => context.runSteps rule (.start bindings output) rule.steps
  | (some error, context) => (⟨output, some error⟩, context)

def execute (context : Context γ) (rule : Rule) (bindings : Bindings) :
    Except ExecutionError Output × Context γ :=
  let (ending, context) := context.executeInto rule bindings []
  (ending.result, context)

end Context

end TableScript
