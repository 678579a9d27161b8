import TableScript.Proofs.Registry.Steady

/-!
# Executions over a registry in memory

A registry in memory answers every question in the same way whenever it is asked, and
nothing fails but a fetch of a table that it does not hold.  What a context has done
before makes no difference to the tables that its steps pull.
-/

namespace TableScript

namespace MemoryRegistry

def fetch (registry : MemoryRegistry) (url : String) (reference : Reference) :
    Except ExecutionError Table :=
  match registry.table? url reference with
  | some table => .ok table
  | none => .error (.repositoryFetch url (.noTable url reference))

def answer (registry : MemoryRegistry) (rule : Rule) : Step → Except ExecutionError Table
  | .pull reference _ => do registry.fetch (← rule.urlFor reference.space) reference
  | _ => .ok []

theorem table?_insert (registry : MemoryRegistry) (url : String) (reference : Reference)
    (table : Table) (askedUrl : String) (asked : Reference) :
    (registry.insert url reference table).table? askedUrl asked =
      if (askedUrl, asked) = (url, reference) then some table
      else registry.table? askedUrl asked := by
  unfold insert table?
  rw [List.lookup_cons]
  by_cases same : (askedUrl, asked) = (url, reference)
  · rw [if_pos same, beq_iff_eq.mpr same]
  · rw [if_neg same, beq_eq_false_iff_ne.mpr same]

theorem fetch_connector (registry : MemoryRegistry) (url : String) (reference : Reference) :
    registry.connector.fetch url reference = registry.fetch url reference := by
  have given : registry.connector.client url = .ok url := rfl
  rw [Connector.fetch_of_client given]
  simp only [connector, fetch]
  cases registry.table? url reference with
  | none => rfl
  | some table => rfl

theorem answer_connector (registry : MemoryRegistry) (rule : Rule) (step : Step) :
    registry.connector.answer rule step = registry.answer rule step := by
  cases step with
  | pull reference target => simp only [Connector.answer, answer, fetch_connector]
  | _ => rfl

/-- Every repository can be connected. -/
theorem obstacle?_connector (registry : MemoryRegistry) (repositories : List (String × String)) :
    registry.connector.obstacle? repositories = none := by
  unfold Connector.obstacle?
  rw [List.findSome?_eq_none_iff]
  intro repository _
  rfl

end MemoryRegistry

namespace Context

/-- That a context is connected to a registry in memory. -/
structure Reaches (context : Context String) (registry : MemoryRegistry) : Prop where
  connector : context.connector = registry.connector
  clients : ∀ url client, context.clients.get? url = some client → client = url

variable {context : Context String} {registry : MemoryRegistry}

/-- The client of a URL is the URL itself. -/
theorem reaches_iff_restsOn : context.Reaches registry ↔ context.RestsOn registry.connector := by
  constructor
  · intro reaches
    refine ⟨reaches.connector, registry.steady_connector, ?_⟩
    intro url client kept
    exact congrArg Except.ok (reaches.clients url client kept).symm
  · intro rests
    refine ⟨rests.connected, ?_⟩
    intro url client kept
    exact (Except.ok.inj (rests.clients url client kept)).symm

namespace Reaches

theorem new (registry : MemoryRegistry) : (Context.new registry.connector).Reaches registry :=
  reaches_iff_restsOn.mpr (.new registry.steady_connector)

theorem runStep (reaches : context.Reaches registry) (rule : Rule) (step : Step)
    (machine : Machine) :
    (context.runStep rule step machine).1 =
        step.perform context.functions (registry.answer rule step) machine ∧
      (context.runStep rule step machine).2.Reaches registry := by
  obtain ⟨performed, after⟩ := (reaches_iff_restsOn.mp reaches).runStep rule step machine
  rw [registry.answer_connector] at performed
  exact ⟨performed, reaches_iff_restsOn.mpr after⟩

theorem attach (reaches : context.Reaches registry) (repositories : List (String × String)) :
    (context.attach repositories).1 = none ∧ (context.attach repositories).2.Reaches registry := by
  obtain ⟨connected, after⟩ := (reaches_iff_restsOn.mp reaches).attach repositories
  rw [registry.obstacle?_connector] at connected
  exact ⟨connected, reaches_iff_restsOn.mpr after⟩

theorem fetch (reaches : context.Reaches registry) (url : String) (reference : Reference) :
    (context.fetch url reference).2.Reaches registry :=
  reaches_iff_restsOn.mpr ((reaches_iff_restsOn.mp reaches).fetch url reference).2

theorem get (reaches : context.Reaches registry) (rule : Rule) (repository : String)
    (reference : Reference) : (context.get rule repository reference).2.Reaches registry := by
  unfold Context.get
  split
  · exact reaches.fetch _ reference
  · exact reaches

theorem executeInto (reaches : context.Reaches registry) (rule : Rule) (bindings : Bindings)
    (output : Output) : (context.executeInto rule bindings output).2.Reaches registry :=
  reaches_iff_restsOn.mpr ((reaches_iff_restsOn.mp reaches).executeInto rule bindings output)

theorem register (reaches : context.Reaches registry) (name : String) (aggregate : Aggregate) :
    (context.register name aggregate).Reaches registry := ⟨reaches.connector, reaches.clients⟩

/-- The clients that are kept serve whatever tables there are. -/
theorem restock (reaches : context.Reaches registry) (other : MemoryRegistry) :
    Reaches { context with connector := other.connector } other := ⟨rfl, reaches.clients⟩

end Reaches

end Context

end TableScript
