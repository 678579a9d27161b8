import TableScript.Proofs.Execution.DataError
import TableScript.Proofs.Execution.Stop

/-!
# The transitions of an execution

Every step that succeeds takes an execution from one machine to the next one.  The
transitions of a run lead from its first machine to its last one, and a run may be cut
behind any of them: what is left is a run of the steps that are left.
-/

namespace TableScript

/-- A step that succeeded, with the machines before and after it and what was fetched for
it. -/
structure Transition where
  step : Step
  before : Machine
  fetched : Except ExecutionError Table
  after : Machine

/-- That the machine after a transition is what its step makes of the machine before it. -/
def Transition.Performed (functions : Functions) (transition : Transition) : Prop :=
  transition.step.perform functions transition.fetched transition.before = .ok transition.after

inductive Machine.Leads (functions : Functions) : Machine → List Transition → Machine → Prop where
  | nil (machine : Machine) : Leads functions machine [] machine
  | cons {transition : Transition} {rest : List Transition} {last : Machine}
      (performed : transition.Performed functions)
      (later : Leads functions transition.after rest last) :
      Leads functions transition.before (transition :: rest) last

namespace Machine.Leads

variable {functions : Functions} {first last : Machine}

/-- Every transition is a step that succeeds. -/
theorem performed {transitions : List Transition} (leads : Leads functions first transitions last)
    {transition : Transition} (member : transition ∈ transitions) :
    transition.Performed functions := by
  induction leads with
  | nil => cases member
  | cons performed _ ih =>
      obtain here | later := List.mem_cons.mp member
      · exact here ▸ performed
      · exact ih later

end Machine.Leads

namespace Context

variable {γ : Type}

def fetchedFor (context : Context γ) (rule : Rule) (step : Step) (machine : Machine) :
    Except ExecutionError Table :=
  ((context.tell [.step step.name machine.depth]).fetchFor rule step).1

def transitions (context : Context γ) (rule : Rule) (machine : Machine) :
    List Step → List Transition
  | [] => []
  | step :: rest =>
      match context.runStep rule step machine with
      | (.ok after, next) =>
          ⟨step, machine, context.fetchedFor rule step machine, after⟩ ::
            next.transitions rule after rest
      | (.error _, _) => []

theorem transitions_cons_ok {context after : Context γ} {rule : Rule} {step : Step}
    {machine next : Machine} (ran : context.runStep rule step machine = (.ok next, after))
    (rest : List Step) :
    context.transitions rule machine (step :: rest) =
      ⟨step, machine, context.fetchedFor rule step machine, next⟩ ::
        after.transitions rule next rest := by
  simp only [transitions, ran]

theorem transitions_cons_error {context after : Context γ} {rule : Rule} {step : Step}
    {machine : Machine} {error : ExecutionError}
    (ran : context.runStep rule step machine = (.error error, after)) (rest : List Step) :
    context.transitions rule machine (step :: rest) = [] := by
  simp only [transitions, ran]

/-- A step that succeeds is a transition. -/
theorem performed_of_runStep {context after : Context γ} {rule : Rule} {step : Step}
    {machine next : Machine} (ran : context.runStep rule step machine = (.ok next, after)) :
    Transition.Performed context.functions
      ⟨step, machine, context.fetchedFor rule step machine, next⟩ :=
  (context.runStep_fst rule step machine).symm.trans (congrArg Prod.fst ran)

/-- The transitions of a run lead from its first machine to the one whose output the run
leaves. -/
theorem leads_transitions (context : Context γ) (rule : Rule) (machine : Machine)
    (steps : List Step) :
    ∃ last, Machine.Leads context.functions machine (context.transitions rule machine steps) last ∧
      (context.runSteps rule machine steps).1.output = last.output := by
  induction steps generalizing context machine with
  | nil => exact ⟨machine, .nil machine, rfl⟩
  | cons step rest ih =>
      cases ran : context.runStep rule step machine with
      | mk performed after =>
          cases performed with
          | error error =>
              rw [transitions_cons_error ran, runSteps_cons_error ran]
              exact ⟨machine, .nil machine, rfl⟩
          | ok next =>
              have kept : after.functions = context.functions := by
                rw [← context.functions_runStep rule step machine, ran]
              obtain ⟨last, leads, output⟩ := ih after next
              rw [transitions_cons_ok ran, runSteps_cons_ok ran]
              exact ⟨last, .cons (performed_of_runStep ran) (kept ▸ leads), output⟩

/-- A run may be cut behind any of its transitions.  Up to there it comes to its end, and from
there on it is the run of the steps that are left. -/
theorem exists_cut (context : Context γ) (rule : Rule) (machine : Machine) (steps : List Step)
    {count : Nat} (taken : count ≤ (context.transitions rule machine steps).length) :
    ∃ middle reached,
      Machine.Leads context.functions machine
        ((context.transitions rule machine steps).take count) middle ∧
      context.runSteps rule machine (steps.take count) = (⟨middle.output, none⟩, reached) ∧
      context.runSteps rule machine steps = reached.runSteps rule middle (steps.drop count) ∧
      (context.transitions rule machine steps).drop count =
        reached.transitions rule middle (steps.drop count) := by
  induction count generalizing context machine steps with
  | zero => exact ⟨machine, context, .nil machine, rfl, rfl, rfl⟩
  | succ count ih =>
      cases steps with
      | nil => cases taken
      | cons step rest =>
          cases ran : context.runStep rule step machine with
          | mk performed after =>
              cases performed with
              | error error =>
                  rw [transitions_cons_error ran] at taken
                  cases taken
              | ok next =>
                  have kept : after.functions = context.functions := by
                    rw [← context.functions_runStep rule step machine, ran]
                  rw [transitions_cons_ok ran] at taken ⊢
                  obtain ⟨middle, reached, leads, cut, whole, later⟩ :=
                    ih after next rest (Nat.le_of_succ_le_succ taken)
                  refine ⟨middle, reached, .cons (performed_of_runStep ran) (kept ▸ leads), ?_, ?_,
                    later⟩
                  · exact (runSteps_cons_ok ran _).trans cut
                  · exact (runSteps_cons_ok ran rest).trans whole

/-- The transitions of a run are its first steps. -/
theorem map_step_transitions (context : Context γ) (rule : Rule) (machine : Machine)
    (steps : List Step) :
    (context.transitions rule machine steps).map Transition.step =
      steps.take (context.transitions rule machine steps).length := by
  induction steps generalizing context machine with
  | nil => rfl
  | cons step rest ih =>
      cases ran : context.runStep rule step machine with
      | mk performed after =>
          cases performed with
          | error error => rw [transitions_cons_error ran, List.map_nil, List.length_nil,
              List.take_zero]
          | ok next => rw [transitions_cons_ok ran, List.map_cons, ih, List.length_cons,
              List.take_succ_cons]

/-- The transitions of an execution; there are none if a repository cannot be connected. -/
def executionTransitions (context : Context γ) (rule : Rule) (bindings : Bindings)
    (output : Output) : List Transition :=
  match context.attach rule.repositories.toList with
  | (none, context) => context.transitions rule (.start bindings output) rule.steps
  | (some _, _) => []

theorem executeInto_of_attach_some {context after : Context γ} {rule : Rule}
    {error : ExecutionError}
    (attached : context.attach rule.repositories.toList = (some error, after))
    (bindings : Bindings) (output : Output) :
    context.executeInto rule bindings output = (⟨output, some error⟩, after) := by
  unfold executeInto
  rw [attached]

theorem executeInto_of_attach_none {context after : Context γ} {rule : Rule}
    (attached : context.attach rule.repositories.toList = (none, after)) (bindings : Bindings)
    (output : Output) :
    context.executeInto rule bindings output =
      after.runSteps rule (.start bindings output) rule.steps := by
  unfold executeInto
  rw [attached]

theorem executeInto_upTo_of_attach_none {context after : Context γ} {rule : Rule}
    (attached : context.attach rule.repositories.toList = (none, after)) (bindings : Bindings)
    (output : Output) (count : Nat) :
    context.executeInto (rule.upTo count) bindings output =
      after.runSteps rule (.start bindings output) (rule.steps.take count) := by
  have same : context.attach (rule.upTo count).repositories.toList = (none, after) := attached
  rw [executeInto_of_attach_none same, runSteps_upTo]
  rfl

theorem executionTransitions_of_attach_none {context after : Context γ} {rule : Rule}
    (attached : context.attach rule.repositories.toList = (none, after)) (bindings : Bindings)
    (output : Output) :
    context.executionTransitions rule bindings output =
      after.transitions rule (.start bindings output) rule.steps := by
  unfold executionTransitions
  rw [attached]

end Context

end TableScript
