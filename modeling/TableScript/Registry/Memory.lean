import TableScript.Error
import TableScript.Event
import TableScript.Table.Basic

/-!
# Registries

Where versioned tables come from.  A connector turns the URL of a repository into
a client, and a client answers with the table of a reference.  An answer may depend
on everything that was asked before it.  A registry in memory is a connector whose
answers depend on the URL and the reference only.
-/

namespace TableScript

/-! ## Connectors -/

/-- A call that a connector receives, or one of its clients. -/
inductive RegistryCall (γ : Type) where
  | connect (url : String)
  | fetch (client : γ) (reference : Reference)
deriving DecidableEq, Repr

namespace RegistryCall

def connected? {γ : Type} : RegistryCall γ → Option String
  | connect url => some url
  | fetch _ _ => none

end RegistryCall

/-- A source of registry clients of type `γ`.  The calls that were made before a
call are the first argument of its answer. -/
structure Connector (γ : Type) where
  connect : List (RegistryCall γ) → String → Except FetchError γ
  tables : List (RegistryCall γ) → γ → Reference → Except FetchError Table
  /-- what a client tells when it is asked for a table -/
  events : γ → Reference → List Event

/-! ## Tables in memory -/

/-- Tables by the URL of their repository and their reference, the latest first. -/
structure MemoryRegistry where
  shelf : List ((String × Reference) × Table)
deriving Inhabited

namespace MemoryRegistry

def empty : MemoryRegistry := ⟨[]⟩

/-- The registry with a table added; it takes the place of an earlier one of the
same name. -/
def insert (registry : MemoryRegistry) (url : String) (reference : Reference)
    (table : Table) : MemoryRegistry :=
  ⟨((url, reference), table) :: registry.shelf⟩

def table? (registry : MemoryRegistry) (url : String) (reference : Reference) :
    Option Table :=
  registry.shelf.lookup (url, reference)

/-- The registry as a connector.  Every URL has a client, which is the URL
itself. -/
def connector (registry : MemoryRegistry) : Connector String where
  connect := fun _ url => .ok url
  tables := fun _ url reference =>
    match registry.table? url reference with
    | some table => .ok table
    | none => .error (.noTable url reference)
  events := fun _ _ => []

end MemoryRegistry

end TableScript
