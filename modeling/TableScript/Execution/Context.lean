import TableScript.Execution.Machine
import TableScript.Registry.Memory

/-!
# Contexts

A context outlives the executions that are run in it.  It keeps the clients of
the repositories that it has connected to, one for each URL, and nothing else of
an execution.  It also keeps a record of the calls that its connector and its
clients have received, and of the events.  Operations answer with the context
that they leave, also when they fail.
-/

namespace TableScript

structure Context (γ : Type) where
  connector : Connector γ
  functions : Functions
  /-- the clients of the repositories by URL -/
  clients : OrderedMap γ
  /-- the calls received so far, in order -/
  calls : List (RegistryCall γ)
  /-- what happened so far, in order -/
  events : List Event

namespace Context

variable {γ : Type}

def new (connector : Connector γ) : Context γ := ⟨connector, .builtin, .empty, [], []⟩

def register (context : Context γ) (name : String) (aggregate : Aggregate) : Context γ :=
  { context with functions := context.functions.insert name aggregate }

def tell (context : Context γ) (events : List Event) : Context γ :=
  { context with events := context.events ++ events }

def note (context : Context γ) (call : RegistryCall γ) : Context γ :=
  { context with calls := context.calls ++ [call] }

/-- The URLs that the context connected to, in order. -/
def connections (context : Context γ) : List String :=
  context.calls.filterMap RegistryCall.connected?

/-- How many times a client was asked for a table. -/
def fetchCount [DecidableEq γ] (context : Context γ) (client : γ) (reference : Reference) : Nat :=
  context.calls.count (.fetch client reference)

/-- The client of a repository, which is connected at the first request.  A failed
connection is tried again the next time. -/
def client (context : Context γ) (url : String) : Except ExecutionError γ × Context γ :=
  match context.clients.get? url with
  | some client => (.ok client, context)
  | none =>
      let earlier := context.calls
      let context := (context.tell [.creatingClient url]).note (.connect url)
      match context.connector.connect earlier url with
      | .ok client => (.ok client, { context with clients := context.clients.insert url client })
      | .error error => (.error (.repositoryFetch url error), context)

def ask (context : Context γ) (client : γ) (reference : Reference) :
    Except FetchError Table × Context γ :=
  (context.connector.tables context.calls client reference,
    (context.tell (context.connector.events client reference)).note (.fetch client reference))

def fetch (context : Context γ) (url : String) (reference : Reference) :
    Except ExecutionError Table × Context γ :=
  match context.client url with
  | (.ok client, context) =>
      let (answer, context) := context.ask client reference
      (answer.mapError (.repositoryFetch url), context)
  | (.error error, context) => (.error error, context)

/-- Fetch a table by a connection of its own, past the clients of the context. -/
def fetchApart (context : Context γ) (url : String) (reference : Reference) :
    Except FetchError Table × Context γ :=
  match context.connector.connect context.calls url with
  | .ok client => (context.note (.connect url)).ask client reference
  | .error error => (.error error, context.note (.connect url))

/-- Fetch a table from the repository that a rule attaches under a name. -/
def get (context : Context γ) (rule : Rule) (repository : String) (reference : Reference) :
    Except ExecutionError Table × Context γ :=
  match rule.repository? repository with
  | some url => context.fetch url reference
  | none => (.error (.unknownRepository repository), context)

end Context

end TableScript
