import TableScript.Proofs.Execution.DataError
import TableScript.Proofs.Execution.Stop
import TableScript.Proofs.Map.Ordered

/-!
# Executions in outline

The outline of a machine is what can be told of it without its tables: how many are
on its stack, and which names are bound.  A step has an outline as well, and the
outline alone decides whether the step fails for a reason that is not in the data.
So the place where a rule stops, if no data stop it before, is known before it runs.
-/

namespace TableScript

/-- A machine without its tables. -/
structure Outline where
  depth : Nat
  bound : Finset String

namespace Outline

def require (outline : Outline) (action : String) (needed : Nat) : Except ExecutionError Unit :=
  if needed ≤ outline.depth then .ok ()
  else .error (.stackUnderflow action needed outline.depth)

def pair (outline : Outline) (action : String) (pairing : Pairing) :
    Except ExecutionError Outline := do
  outline.require action 2
  if pairing.leftKeys.length = pairing.rightKeys.length then
    return { outline with depth := outline.depth - 1 }
  else throw (.mismatchedKeys action pairing.leftKeys.length pairing.rightKeys.length)

/-- The outline after a step of a rule, where some functions are known. -/
def step (functions : Finset String) (rule : Rule) (outline : Outline) :
    Step → Except ExecutionError Outline
  | .push table =>
      if table ∈ outline.bound then .ok { outline with depth := outline.depth + 1 }
      else .error (.unknownTable table)
  | .pop => do
      outline.require "pop" 1
      return { outline with depth := outline.depth - 1 }
  | .duplicate => do
      outline.require "duplicate" 1
      return { outline with depth := outline.depth + 1 }
  | .commit table _ => do
      outline.require "commit" 1
      return { outline with bound := insert table outline.bound }
  | .join pairing => outline.pair "join" pairing
  | .inclusion pairing => outline.pair "inclusion" pairing
  | .accumulate _ call _ => do
      outline.require "accumulate" 1
      if call.name ∈ functions then return outline
      else throw (.unknownFunction call.name)
  | .pull reference target => do
      let _ ← rule.urlFor reference.space
      return ⟨outline.depth + 1, insert target outline.bound⟩

/-- The first of some steps that cannot be taken, with the reason. -/
def stop? (functions : Finset String) (rule : Rule) :
    Outline → List Step → Option (Nat × ExecutionError)
  | _, [] => none
  | outline, step :: rest =>
      match outline.step functions rule step with
      | .error error => some (0, error)
      | .ok next => (stop? functions rule next rest).map fun stop => (stop.1 + 1, stop.2)

end Outline

namespace Machine

def outline (machine : Machine) : Outline := ⟨machine.depth, machine.bindings.keySet⟩

@[simp] theorem outline_place (machine : Machine) (table : Table) :
    (machine.place table).outline = ⟨machine.depth + 1, machine.bindings.keySet⟩ := rfl

@[simp] theorem outline_bind (machine : Machine) (name : String) (table : Table) :
    (machine.bind name table).outline =
      ⟨machine.depth, insert name machine.bindings.keySet⟩ := by
  unfold outline bind
  rw [OrderedMap.keySet_insert]
  rfl

@[simp] theorem outline_emit (machine : Machine) (name : String) (table : Table) :
    (machine.emit name table).outline =
      ⟨machine.depth, insert name machine.bindings.keySet⟩ :=
  machine.outline_bind name table

@[simp] theorem outline_receive (machine : Machine) (name : String) (table : Table) :
    (machine.receive name table).outline =
      ⟨machine.depth + 1, insert name machine.bindings.keySet⟩ := by
  unfold receive
  rw [outline_place, bind, OrderedMap.keySet_insert]
  rfl

end Machine

/-! ## One step -/

/-- That a machine goes where its outline goes: it stops for the same reason, or it
has the outline that is foretold unless its data stop it. -/
def Outline.Foretells : Except ExecutionError Outline → Except ExecutionError Machine → Prop
  | .error expected, performed => performed = .error expected
  | .ok next, .ok after => after.outline = next
  | .ok _, .error error => error.OfData

namespace Outline

/-- A machine made from a result that only data can deny it goes where its outline
goes. -/
theorem foretells_bind {α : Type} {next : Outline} {result : Except ExecutionError α}
    {after : α → Machine} (onData : FailsOnData result)
    (follows : ∀ value, (after value).outline = next) :
    Foretells (.ok next) (result >>= fun value => .ok (after value)) := by
  cases result with
  | error error => exact onData error rfl
  | ok value => exact follows value

theorem foretells_push (machine : Machine) (functions : Finset String) (rule : Rule)
    (name : String) :
    Foretells (machine.outline.step functions rule (.push name)) (machine.push name) := by
  simp only [step, Machine.push]
  by_cases present : name ∈ machine.outline.bound
  · rw [if_pos present]
    obtain ⟨table, found⟩ := OrderedMap.mem_keys_iff.mp (OrderedMap.mem_keySet.mp present)
    rw [found]
    rfl
  · rw [if_neg present]
    have missing : machine.bindings.get? name = none :=
      OrderedMap.get?_eq_none_iff.mpr fun member => present (OrderedMap.mem_keySet.mpr member)
    rw [missing]
    rfl

theorem foretells_pop (machine : Machine) (functions : Finset String) (rule : Rule) :
    Foretells (machine.outline.step functions rule .pop) machine.pop := by
  obtain ⟨stack, bindings, output⟩ := machine
  cases stack with
  | nil => rfl
  | cons top below => rfl

theorem foretells_duplicate (machine : Machine) (functions : Finset String) (rule : Rule) :
    Foretells (machine.outline.step functions rule .duplicate) machine.duplicate := by
  obtain ⟨stack, bindings, output⟩ := machine
  cases stack with
  | nil => rfl
  | cons top below => rfl

theorem foretells_commit (machine : Machine) (functions : Finset String) (rule : Rule)
    (name : String) (columns : Option (List String)) :
    Foretells (machine.outline.step functions rule (.commit name columns))
      (machine.commit name columns) := by
  obtain ⟨stack, bindings, output⟩ := machine
  cases stack with
  | nil => cases columns <;> rfl
  | cons top below =>
      cases columns with
      | none => exact Machine.outline_emit _ _ _
      | some columns =>
          apply foretells_bind
          · exact top.select_failsOnData columns
          · intro records
            exact Machine.outline_emit _ _ _

/-- Two tables are paired by an operation that looks at the key lists first. -/
theorem foretells_pair (machine : Machine) (action : String) (pairing : Pairing)
    {operation : Table → Table → Except ExecutionError Table}
    {rows : Table → Table → Except ExecutionError Table}
    (checked : ∀ left right,
      operation left right = Table.checkKeys action pairing >>= fun _ => rows left right)
    (onData : ∀ left right, FailsOnData (rows left right)) :
    Foretells (machine.outline.pair action pairing) (machine.pair action operation) := by
  obtain ⟨stack, bindings, output⟩ := machine
  match stack with
  | [] => rfl
  | [only] => rfl
  | right :: left :: below =>
      -- both sides compare the key lists before they look at a record
      simp only [Machine.pair, checked, Table.checkKeys, pair]
      by_cases equal : pairing.leftKeys.length = pairing.rightKeys.length
      · rw [if_pos equal, if_pos equal]
        apply foretells_bind
        · exact onData left right
        · intro table
          rfl
      · rw [if_neg equal, if_neg equal]
        rfl

theorem foretells_accumulate (machine : Machine) (functions : Functions) (rule : Rule)
    (column : String) (call : Call) (result : Option String) :
    Foretells (machine.outline.step functions.keySet rule (.accumulate column call result))
      (machine.accumulate functions column call result) := by
  obtain ⟨stack, bindings, output⟩ := machine
  cases stack with
  | nil => rfl
  | cons top below =>
      simp only [step, Machine.accumulate, Functions.accumulate]
      by_cases known : call.name ∈ functions.keySet
      · obtain ⟨aggregate, found⟩ := OrderedMap.mem_keys_iff.mp (OrderedMap.mem_keySet.mp known)
        rw [if_pos known, found]
        apply foretells_bind
        · exact top.aggregate_failsOnData aggregate call.arguments
        · intro value
          rfl
      · have missing : functions.get? call.name = none :=
          OrderedMap.get?_eq_none_iff.mpr fun member => known (OrderedMap.mem_keySet.mpr member)
        rw [if_neg known, missing]
        rfl

/-- A repository is found before anything is fetched from it. -/
theorem foretells_pull {γ : Type} (context : Context γ) (machine : Machine)
    (functions : Finset String) (rule : Rule) (reference : Reference) (target : String) :
    Foretells (machine.outline.step functions rule (.pull reference target))
      ((context.fetchFor rule (.pull reference target)).1.map (machine.receive target)) := by
  simp only [step, Context.fetchFor]
  cases rule.urlFor reference.space with
  | error error => rfl
  | ok url =>
      have onData := (context.tell [.pulling reference url target]).fetch_failsOnData url reference
      cases fetched : ((context.tell [.pulling reference url target]).fetch url reference).1 with
      | error error => exact onData error fetched
      | ok table => exact machine.outline_receive target table

theorem foretells_perform {γ : Type} (context : Context γ) (machine : Machine)
    (functions : Functions) (rule : Rule) (step : Step) :
    Foretells (machine.outline.step functions.keySet rule step)
      (step.perform functions (context.fetchFor rule step).1 machine) := by
  cases step with
  | push table => exact foretells_push machine functions.keySet rule table
  | pop => exact foretells_pop machine functions.keySet rule
  | duplicate => exact foretells_duplicate machine functions.keySet rule
  | commit table columns => exact foretells_commit machine functions.keySet rule table columns
  | join pairing =>
      apply foretells_pair machine "join" pairing
      · intro left right
        rfl
      · intro left right
        exact .mapM (Record.project_failsOnData pairing.projections) _
  | inclusion pairing =>
      apply foretells_pair machine "inclusion" pairing
      · intro left right
        rfl
      · intro left right
        exact .mapM (Record.project_failsOnData pairing.projections) _
  | accumulate column call result =>
      exact foretells_accumulate machine functions rule column call result
  | pull reference target =>
      exact foretells_pull context machine functions.keySet rule reference target

end Outline

/-! ## Runs -/

/-- That a run of steps ends as its outline says: it stops at the step and with the
error that are foretold, or its data stop it before. -/
def Context.EndsAs {γ : Type} (context : Context γ) (rule : Rule) (machine : Machine)
    (steps : List Step) : Option (Nat × ExecutionError) → Prop
  | some (index, error) =>
      (∃ earlier, earlier < index ∧
        ∃ failure, failure.OfData ∧ context.StepsStopAt rule machine steps earlier failure) ∨
      context.StepsStopAt rule machine steps index error
  | none =>
      context.stepsFailure? rule machine steps = none ∨
      ∃ index failure, failure.OfData ∧ context.StepsStopAt rule machine steps index failure

namespace Context

variable {γ : Type}

theorem foretells_runStep (context : Context γ) (rule : Rule) (step : Step) (machine : Machine) :
    Outline.Foretells (machine.outline.step context.functions.keySet rule step)
      (context.runStep rule step machine).1 := by
  rw [runStep_fst]
  exact Outline.foretells_perform _ machine context.functions rule step

/-- After a step that succeeds a run ends as the rest of it does. -/
theorem endsAs_cons {context after : Context γ} {rule : Rule} {step : Step}
    {machine next : Machine} (ran : context.runStep rule step machine = (.ok next, after))
    {rest : List Step} {stop : Option (Nat × ExecutionError)}
    (later : after.EndsAs rule next rest stop) :
    context.EndsAs rule machine (step :: rest)
      (stop.map fun stop => (stop.1 + 1, stop.2)) := by
  cases stop with
  | none =>
      obtain ended | ⟨index, failure, ofData, stops⟩ := later
      · exact .inl ((stepsFailure?_cons_ok ran rest).trans ended)
      · exact .inr ⟨index + 1, failure, ofData, stepsStopAt_succ ran stops⟩
  | some stop =>
      obtain ⟨index, error⟩ := stop
      obtain ⟨earlier, before, failure, ofData, stops⟩ | stops := later
      · exact .inl ⟨earlier + 1, Nat.succ_lt_succ before, failure, ofData,
          stepsStopAt_succ ran stops⟩
      · exact .inr (stepsStopAt_succ ran stops)

/-- A run that its data stop at the first step ends as any outline says that takes
this step. -/
theorem endsAs_of_ofData {context after : Context γ} {rule : Rule} {step : Step}
    {machine : Machine} {failure : ExecutionError} (ofData : failure.OfData)
    (ran : context.runStep rule step machine = (.error failure, after))
    (rest : List Step) (stop : Option (Nat × ExecutionError)) :
    context.EndsAs rule machine (step :: rest)
      (stop.map fun stop => (stop.1 + 1, stop.2)) := by
  have stops := stepsStopAt_zero ran rest
  cases stop with
  | none => exact .inr ⟨0, failure, ofData, stops⟩
  | some stop => exact .inl ⟨0, Nat.succ_pos _, failure, ofData, stops⟩

theorem endsAs_stop? (context : Context γ) (rule : Rule) (machine : Machine)
    (steps : List Step) :
    context.EndsAs rule machine steps
      (Outline.stop? context.functions.keySet rule machine.outline steps) := by
  induction steps generalizing context machine with
  | nil => exact .inl rfl
  | cons step rest ih =>
      have foretold := context.foretells_runStep rule step machine
      have kept := context.functions_runStep rule step machine
      cases ran : context.runStep rule step machine with
      | mk performed after =>
          rw [ran] at foretold kept
          unfold Outline.stop?
          cases expected : machine.outline.step context.functions.keySet rule step with
          | error error =>
              rw [expected] at foretold
              cases foretold
              exact .inr (stepsStopAt_zero ran rest)
          | ok next =>
              rw [expected] at foretold
              cases performed with
              | error failure => exact endsAs_of_ofData foretold ran rest _
              | ok machine =>
                  -- the context knows the same functions after the step as before
                  have later := ih after machine
                  rw [foretold, kept] at later
                  exact endsAs_cons ran later

/-- A rule stops where its outline stops, and for the same reason, unless a missing
column, a value that is no number or a fetch that fails stops it before. -/
theorem stops_as_outlined (context : Context γ) (rule : Rule) (bindings : Bindings)
    (output : Output) :
    match Outline.stop? context.functions.keySet rule ⟨0, bindings.keySet⟩ rule.steps with
    | some (index, error) =>
        (∃ failure, failure.OfData ∧
          (context.StopsAttaching rule bindings output failure ∨
            ∃ earlier < index, context.StopsAt rule bindings output earlier failure)) ∨
        context.StopsAt rule bindings output index error
    | none =>
        context.failure? rule bindings output = none ∨
        ∃ failure, failure.OfData ∧
          (context.StopsAttaching rule bindings output failure ∨
            ∃ index, context.StopsAt rule bindings output index failure) := by
  cases attached : context.attach rule.repositories.toList with
  | mk failed after =>
      cases failed with
      | some failure =>
          have ofData : failure.OfData := attach_ofData (congrArg Prod.fst attached)
          have stops := stopsAttaching_of_attach attached bindings output
          split
          · exact .inl ⟨failure, ofData, .inl stops⟩
          · exact .inr ⟨failure, ofData, .inl stops⟩
      | none =>
          have kept : after.functions = context.functions := by
            rw [← context.functions_attach rule.repositories.toList, attached]
          have ends := after.endsAs_stop? rule (.start bindings output) rule.steps
          rw [kept] at ends
          have start : (Machine.start bindings output).outline = ⟨0, bindings.keySet⟩ := rfl
          rw [start] at ends
          split
          · next index error stop =>
              rw [stop] at ends
              obtain ⟨earlier, before, failure, ofData, stops⟩ | stops := ends
              · have stopsAt := stopsAt_of_steps attached stops
                exact .inl ⟨failure, ofData, .inr ⟨earlier, before, stopsAt⟩⟩
              · exact .inr (stopsAt_of_steps attached stops)
          · next stop =>
              rw [stop] at ends
              obtain ended | ⟨index, failure, ofData, stops⟩ := ends
              · exact .inl ((failure?_of_attach_none attached bindings output).trans ended)
              · exact .inr ⟨failure, ofData, .inr ⟨index, stopsAt_of_steps attached stops⟩⟩

end Context

end TableScript
