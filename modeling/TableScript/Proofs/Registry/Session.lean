import TableScript.Proofs.Map.Ordered
import TableScript.Proofs.Registry.Memory

/-!
# Sessions

A session is what is done with one context over a registry in memory.  Whatever is done, the
context keeps no client for a URL but the client of this URL, and no function but those that
were registered.  So no execution can tell what was executed or fetched before it in the same
session.
-/

namespace TableScript

inductive Operation where
  | register (name : String) (aggregate : Aggregate)
  | insert (url : String) (reference : Reference) (table : Table)
  | execute (rule : Rule) (bindings : Bindings) (output : Output)
  | fetch (url : String) (reference : Reference)
  | get (rule : Rule) (repository : String) (reference : Reference)

def Operation.registration? : Operation → Option (String × Aggregate)
  | register name aggregate => some (name, aggregate)
  | _ => none

/-- A registry in memory and a context that is used over it. -/
structure Session where
  registry : MemoryRegistry
  context : Context String

namespace Session

def start (registry : MemoryRegistry) : Session := ⟨registry, .new registry.connector⟩

def perform (session : Session) : Operation → Session
  | .register name aggregate =>
      { session with context := session.context.register name aggregate }
  | .insert url reference table =>
      let registry := session.registry.insert url reference table
      ⟨registry, { session.context with connector := registry.connector }⟩
  | .execute rule bindings output =>
      { session with context := (session.context.executeInto rule bindings output).2 }
  | .fetch url reference =>
      { session with context := (session.context.fetch url reference).2 }
  | .get rule repository reference =>
      { session with context := (session.context.get rule repository reference).2 }

def run (session : Session) (operations : List Operation) : Session :=
  operations.foldl perform session

/-! ## Single operations -/

theorem reaches_perform {session : Session} (reaches : session.context.Reaches session.registry)
    (operation : Operation) :
    (session.perform operation).context.Reaches (session.perform operation).registry := by
  cases operation with
  | register name aggregate => exact reaches.register name aggregate
  | insert url reference table => exact reaches.restock _
  | execute rule bindings output => exact reaches.executeInto rule bindings output
  | fetch url reference => exact reaches.fetch url reference
  | get rule repository reference => exact reaches.get rule repository reference

/-- Only a registration changes the functions of a session. -/
theorem functions_perform (session : Session) (operation : Operation) :
    (session.perform operation).context.functions =
      session.context.functions.insertAll operation.registration?.toList := by
  cases operation with
  | register name aggregate => rfl
  | insert url reference table => rfl
  | execute rule bindings output => exact session.context.functions_executeInto rule bindings output
  | fetch url reference => exact session.context.functions_fetch url reference
  | get rule repository reference => exact session.context.functions_get rule repository reference

/-! ## Whole sessions -/

/-- A session keeps reaching its registry. -/
theorem reaches_run {session : Session} (reaches : session.context.Reaches session.registry)
    (operations : List Operation) :
    (session.run operations).context.Reaches (session.run operations).registry := by
  induction operations generalizing session with
  | nil => exact reaches
  | cons operation rest ih => exact ih (reaches_perform reaches operation)

/-- The functions of a session are those that were registered. -/
theorem functions_run (session : Session) (operations : List Operation) :
    (session.run operations).context.functions =
      session.context.functions.insertAll (operations.filterMap Operation.registration?) := by
  induction operations generalizing session with
  | nil => rfl
  | cons operation rest ih =>
      have later := ih (session.perform operation)
      rw [functions_perform] at later
      refine later.trans ?_
      rw [List.filterMap_cons]
      cases operation.registration? with
      | none => rfl
      | some entry => rfl

end Session

namespace Context

variable {γ : Type}

def registerAll (context : Context γ) (entries : List (String × Aggregate)) : Context γ :=
  entries.foldl (fun context entry => context.register entry.1 entry.2) context

theorem registerAll_eq (context : Context γ) (entries : List (String × Aggregate)) :
    context.registerAll entries =
      { context with functions := context.functions.insertAll entries } := by
  induction entries generalizing context with
  | nil => rfl
  | cons entry rest ih => exact ih (context.register entry.1 entry.2)

end Context

/-- Registries that hold the same tables give the same answers. -/
theorem MemoryRegistry.connector_congr {registry other : MemoryRegistry}
    (same : ∀ url reference, other.table? url reference = registry.table? url reference) :
    other.connector = registry.connector := by
  unfold connector
  simp only [same]

/-- An execution in a session ends as it does in a new context with the same functions, over
any registry with the same tables: with the same error, if any, and the same output. -/
theorem Session.executeInto_forgets (registry other : MemoryRegistry)
    (operations : List Operation)
    (same : ∀ url reference, other.table? url reference =
      ((start registry).run operations).registry.table? url reference)
    (rule : Rule) (bindings : Bindings) (output : Output) :
    (((start registry).run operations).context.executeInto rule bindings output).1 =
      (((Context.new other.connector).registerAll
        (operations.filterMap Operation.registration?)).executeInto rule bindings output).1 := by
  have begins : (start registry).context.Reaches (start registry).registry := .new registry
  have used := Context.reaches_iff_restsOn.mp (reaches_run begins operations)
  have registered := functions_run (start registry) operations
  rw [Context.registerAll_eq, MemoryRegistry.connector_congr same]
  -- the new context keeps no client at all
  have fresh : Context.RestsOn
      { Context.new ((start registry).run operations).registry.connector with
        functions := Functions.builtin.insertAll (operations.filterMap Operation.registration?) }
      ((start registry).run operations).registry.connector :=
    ⟨rfl, used.steady, fun _ _ kept => nomatch kept⟩
  apply fresh.executeInto_fst_eq used
  intro name
  rw [registered]
  rfl

/-- A session has executed a rule that fails behind a commit, fetched a table that is missing
and asked for a repository that is not attached.  Then it pulls a table that was inserted
meanwhile for another URL, under the same reference as before.  It gets this table, it can use
the function that was registered first, and it cannot push what was committed before. -/
theorem Session.other_url_and_lost_commit :
    let reference : Reference := ⟨"s", "t", "1"⟩
    let first : Table := [Tree.ofScalars [("a", "1")]]
    let second : Table := [Tree.ofScalars [("a", "2")]]
    let registry := MemoryRegistry.empty.insert "u" reference first
    let failing : Rule := ⟨.empty, .ofList [("s", "u")],
      [.pull reference "p", .commit "kept" none, .push "missing"]⟩
    let further : Rule := ⟨.empty, .ofList [("s", "v")],
      [.pull reference "p", .accumulate "a" ⟨"last", ["a"]⟩ none, .commit "total" none,
        .push "kept"]⟩
    let operations : List Operation := [.register "last" ⟨0, fun _ value => value⟩,
      .execute failing (.ofList [("given", first)]) [], .insert "v" reference second,
      .fetch "w" reference, .get failing "r" reference]
    let other := (MemoryRegistry.empty.insert "v" reference second).insert "u" reference first
    let used := (start registry).run operations
    let fresh := (Context.new other.connector).register "last" ⟨0, fun _ value => value⟩
    used.context.clients.get? "u" = some "u" ∧
      (used.context.executeInto further .empty []).1 = (fresh.executeInto further .empty []).1 ∧
      (fresh.executeInto further .empty []).1 =
        ⟨[⟨"total", second⟩], some (.unknownTable "kept")⟩ := by
  intro reference first second registry failing further operations other used fresh
  have same : ∀ url asked, other.table? url asked = used.registry.table? url asked := by
    intro url asked
    have stocked : used.registry = registry.insert "v" reference second := rfl
    have apart : ("u", reference) ≠ ("v", reference) := by decide
    rw [stocked, MemoryRegistry.table?_insert, MemoryRegistry.table?_insert,
      MemoryRegistry.table?_insert, MemoryRegistry.table?_insert]
    by_cases here : (url, asked) = ("u", reference)
    · rw [here, if_pos rfl, if_neg apart, if_pos rfl]
    · rw [if_neg here, if_neg here]
  refine ⟨?_, executeInto_forgets registry other operations same further .empty [], ?_⟩
  · decide +kernel
  · rfl

end TableScript
