import TableScript.Proofs.Execution.Transition
import TableScript.Proofs.Registry.Session

/-!
# What a session asks of its registry

A context connects to a URL when it is first used and keeps the client.  It keeps no table:
every pull that is carried out, every fetch and every get of an attached repository asks for
its table again, also when it was asked for before or is missing.

One operation asks for its connections first and for its tables afterwards (`Asks`).  The
connections of a whole session are the URLs of its operations without repetitions.
-/

namespace TableScript

/-! ## First occurrences -/

theorem eraseDups_of_nodup {names : List String} (distinct : names.Nodup) :
    names.eraseDups = names := by
  induction names with
  | nil => rfl
  | cons name rest ih =>
      obtain ⟨fresh, distinct⟩ := List.nodup_cons.mp distinct
      have kept : rest.filter (fun other => !other == name) = rest := by
        rw [List.filter_eq_self]
        rintro other member
        simpa using fun same : other = name => fresh (same ▸ member)
      rw [List.eraseDups_cons, kept, ih distinct]

/-- Repetitions may be left out before further names follow. -/
theorem eraseDups_append_eraseDups (names further : List String) :
    (names.eraseDups ++ further).eraseDups = (names ++ further).eraseDups := by
  have removed : further.removeAll names.eraseDups = further.removeAll names := by
    unfold List.removeAll
    apply List.filter_congr
    intro name _
    simp only [List.elem_eq_contains, List.contains_eq_mem, List.mem_eraseDups]
  rw [List.eraseDups_append, List.eraseDups_append, removed,
    eraseDups_of_nodup (OrderedMap.nodup_eraseDups names)]

theorem eraseDups_append_singleton {names : List String} (distinct : names.Nodup) (name : String) :
    (names ++ [name]).eraseDups = if name ∈ names then names else names ++ [name] := by
  rw [List.eraseDups_append, eraseDups_of_nodup distinct]
  by_cases known : name ∈ names
  · simp [List.removeAll, known]
  · simp [List.removeAll, known, List.eraseDups_cons]

/-! ## What is asked for -/

namespace Rule

/-- The URLs of the repositories of a rule, in the order of their names. -/
def urls (rule : Rule) : List String := rule.repositories.toList.map Prod.snd

/-- A namespace is served by the repository of its name, or else by the only one. -/
theorem urlFor_eq_ok_iff {rule : Rule} {space url : String} :
    rule.urlFor space = .ok url ↔
      rule.repository? space = some url ∨
        rule.repository? space = none ∧ ∃ name, rule.repositories.toList = [(name, url)] := by
  unfold urlFor
  cases rule.repository? space with
  | some found => simp
  | none =>
      rcases rule.repositories.toList with _ | ⟨⟨name, only⟩, _ | ⟨second, rest⟩⟩
      · simp
      · simp
      · simp

theorem mem_urls_of_urlFor {rule : Rule} {space url : String}
    (served : rule.urlFor space = .ok url) : url ∈ rule.urls := by
  rcases urlFor_eq_ok_iff.mp served with named | ⟨_, name, only⟩
  · exact List.mem_map_of_mem (Lookup.mem_of_eq_some named)
  · rw [urls, only]
    exact List.mem_cons_self

/-- The table that a step asks for, with the URL: only a pull asks for one, if there is a
repository that serves its namespace. -/
def request? (rule : Rule) : Step → Option (String × Reference)
  | .pull reference _ => (rule.urlFor reference.space).toOption.map fun url => (url, reference)
  | _ => none

end Rule

def RegistryCall.fetched? {γ : Type} : RegistryCall γ → Option (γ × Reference)
  | connect _ => none
  | fetch client reference => some (client, reference)

namespace Context

def fetches {γ : Type} (context : Context γ) : List (γ × Reference) :=
  context.calls.filterMap RegistryCall.fetched?

theorem fetchCount_eq {γ : Type} [DecidableEq γ] (context : Context γ) (client : γ)
    (reference : Reference) :
    context.fetchCount client reference = context.fetches.count (client, reference) := by
  unfold fetchCount fetches
  induction context.calls with
  | nil => rfl
  | cons call rest ih =>
      cases call with
      | connect other =>
          rw [List.count_cons_of_ne (by simp), ih]
          rfl
      | fetch other asked => simp [RegistryCall.fetched?, List.count_cons, ih]

/-- The steps that an execution carries out: those that succeed, and the one that fails. -/
def attempted {γ : Type} (context : Context γ) (rule : Rule) (bindings : Bindings)
    (output : Output) : List Step :=
  rule.steps.take ((context.executionTransitions rule bindings output).length + 1)

end Context

namespace Operation

def urls : Operation → List String
  | register _ _ => []
  | insert _ _ _ => []
  | execute rule _ _ => rule.urls
  | fetch url _ => [url]
  | get rule repository _ => (rule.repository? repository).toList

end Operation

namespace Session

def requestsOf (session : Session) : Operation → List (String × Reference)
  | .register _ _ => []
  | .insert _ _ _ => []
  | .execute rule bindings output =>
      (session.context.attempted rule bindings output).filterMap rule.request?
  | .fetch url reference => [(url, reference)]
  | .get rule repository reference =>
      (rule.repository? repository).toList.map fun url => (url, reference)

def requests (session : Session) : List Operation → List (String × Reference)
  | [] => []
  | operation :: rest => session.requestsOf operation ++ (session.perform operation).requests rest

end Session

/-! ## Calls -/

namespace Context

/-- That a context makes calls to come to another one: it connects to those of some URLs
that it was not connected to, and then it asks for tables. -/
def Asks (context : Context String) (urls : List String) (requests : List (String × Reference))
    (after : Context String) : Prop :=
  ∃ connected,
    after.calls = context.calls ++ connected.map .connect ++
      requests.map (fun request => .fetch request.1 request.2) ∧
    context.connections ++ connected = (context.connections ++ urls).eraseDups

namespace Asks

variable {context middle after : Context String} {urls more : List String}
  {requests further : List (String × Reference)}

theorem connections (asks : context.Asks urls requests after) :
    after.connections = (context.connections ++ urls).eraseDups := by
  obtain ⟨connected, calls, new⟩ := asks
  have asked : (requests.map fun request => RegistryCall.fetch request.1 request.2).filterMap
      RegistryCall.connected? = [] := by
    simp [List.filterMap_map, RegistryCall.connected?, Function.comp_def]
  have connects : (connected.map (RegistryCall.connect (γ := String))).filterMap
      RegistryCall.connected? = connected := by
    simp [List.filterMap_map, RegistryCall.connected?, Function.comp_def]
  unfold Context.connections at new ⊢
  rw [calls, List.filterMap_append, List.filterMap_append, asked, connects, List.append_nil, new]

theorem fetches (asks : context.Asks urls requests after) :
    after.fetches = context.fetches ++ requests := by
  obtain ⟨connected, calls, _⟩ := asks
  unfold Context.fetches
  rw [calls]
  simp [List.filterMap_map, RegistryCall.fetched?, Function.comp_def]

theorem connections_eq (asks : context.Asks [] requests after)
    (distinct : context.connections.Nodup) : after.connections = context.connections := by
  rw [asks.connections, List.append_nil, eraseDups_of_nodup distinct]

theorem nothing (distinct : context.connections.Nodup) : context.Asks [] [] context :=
  ⟨[], by simp, by simp [eraseDups_of_nodup distinct]⟩

/-- Further URLs may be used as long as no table was asked for. -/
theorem connecting (first : context.Asks urls [] middle)
    (second : middle.Asks more requests after) :
    context.Asks (urls ++ more) requests after := by
  have known := first.connections
  obtain ⟨one, calls, new⟩ := first
  obtain ⟨other, later, newer⟩ := second
  refine ⟨one ++ other, ?_, ?_⟩
  · rw [later, calls]
    simp
  · calc context.connections ++ (one ++ other)
        = middle.connections ++ other := by rw [← List.append_assoc, new, known]
      _ = ((context.connections ++ urls).eraseDups ++ more).eraseDups := by rw [newer, known]
      _ = (context.connections ++ (urls ++ more)).eraseDups := by
          rw [eraseDups_append_eraseDups, List.append_assoc]

/-- Further tables may be asked for without new connections. -/
theorem fetching (first : context.Asks urls requests middle)
    (second : middle.Asks [] further after) :
    context.Asks urls (requests ++ further) after := by
  have known := first.connections
  obtain ⟨one, calls, new⟩ := first
  obtain ⟨other, later, newer⟩ := second
  have none : other = [] := by
    rw [List.append_nil, known, eraseDups_of_nodup (OrderedMap.nodup_eraseDups _)] at newer
    exact List.append_right_eq_self.mp newer
  refine ⟨one, ?_, new⟩
  rw [later, calls, none]
  simp

/-- The use of a URL that is connected leaves no trace. -/
theorem of_connected {url : String} (connected : url ∈ context.connections)
    (distinct : context.connections.Nodup) (asks : context.Asks [url] requests after) :
    context.Asks [] requests after := by
  obtain ⟨new, calls, known⟩ := asks
  refine ⟨new, calls, ?_⟩
  rw [known, eraseDups_append_singleton distinct, if_pos connected, List.append_nil,
    eraseDups_of_nodup distinct]

end Asks

/-- That a context keeps a client for the URLs that it connected to and for no others, and
that it connected to no URL twice. -/
structure Tracks (context : Context String) (registry : MemoryRegistry) : Prop where
  reaches : context.Reaches registry
  distinct : context.connections.Nodup
  kept : ∀ url, url ∈ context.clients.keys ↔ url ∈ context.connections

namespace Tracks

variable {context : Context String} {registry : MemoryRegistry}

theorem tell (tracks : context.Tracks registry) (events : List Event) :
    (context.tell events).Tracks registry :=
  ⟨⟨tracks.reaches.connector, tracks.reaches.clients⟩, tracks.distinct, tracks.kept⟩

theorem new (registry : MemoryRegistry) : (Context.new registry.connector).Tracks registry :=
  ⟨.new registry, .nil, fun _ => .rfl⟩

/-- A URL that is new is connected, and its client is kept.  The client of a URL is the one
that answers for it. -/
theorem client (tracks : context.Tracks registry) (url : String) :
    (context.client url).1 = .ok url ∧
      context.Asks [url] [] (context.client url).2 ∧ (context.client url).2.Tracks registry := by
  have reached := reaches_iff_restsOn.mp tracks.reaches
  have after := reaches_iff_restsOn.mpr (reached.client url).2
  have answered : (context.client url).1 = .ok url := (reached.client url).1
  refine ⟨answered, ?_⟩
  by_cases known : url ∈ context.connections
  · obtain ⟨client, kept⟩ := OrderedMap.mem_keys_iff.mp ((tracks.kept url).mpr known)
    have same : (context.client url).2 = context := by
      unfold Context.client
      rw [kept]
    rw [same]
    refine ⟨⟨[], by simp, ?_⟩, tracks⟩
    rw [eraseDups_append_singleton tracks.distinct, if_pos known, List.append_nil]
  · have missing := OrderedMap.get?_eq_none_iff.mpr fun member =>
      known ((tracks.kept url).mp member)
    have calls : (context.client url).2.calls = context.calls ++ [.connect url] := by
      unfold Context.client
      rw [missing]
      simp only
      split <;> rfl
    have clients : (context.client url).2.clients = context.clients.insert url url := by
      have connects : context.connector.connect context.calls url = .ok url := by
        rw [tracks.reaches.connector]
        rfl
      unfold Context.client
      rw [missing]
      simp only [Context.note, Context.tell, connects]
    have asks : context.Asks [url] [] (context.client url).2 := by
      refine ⟨[url], by simp [calls], ?_⟩
      rw [eraseDups_append_singleton tracks.distinct, if_neg known]
    refine ⟨asks, after, ?_, ?_⟩
    · rw [asks.connections]
      exact OrderedMap.nodup_eraseDups _
    · intro other
      rw [asks.connections, clients, OrderedMap.mem_keys_insert, List.mem_eraseDups,
        List.mem_append, List.mem_singleton, tracks.kept other, or_comm]

theorem ask (tracks : context.Tracks registry) (client : String) (reference : Reference) :
    context.Asks [] [(client, reference)] (context.ask client reference).2 ∧
      (context.ask client reference).2.Tracks registry := by
  have asks : context.Asks [] [(client, reference)] (context.ask client reference).2 :=
    ⟨[], by simp [Context.ask, note, Context.tell], by simp [eraseDups_of_nodup tracks.distinct]⟩
  have same := asks.connections_eq tracks.distinct
  refine ⟨asks, ⟨tracks.reaches.connector, tracks.reaches.clients⟩, ?_, ?_⟩
  · rw [same]
    exact tracks.distinct
  · rw [same]
    exact tracks.kept

theorem fetch (tracks : context.Tracks registry) (url : String) (reference : Reference) :
    context.Asks [url] [(url, reference)] (context.fetch url reference).2 ∧
      (context.fetch url reference).2.Tracks registry := by
  obtain ⟨given, asks, after⟩ := tracks.client url
  unfold Context.fetch
  cases found : context.client url with
  | mk answer next =>
      rw [found] at given asks after
      cases given
      obtain ⟨asked, kept⟩ := after.ask url reference
      exact ⟨asks.fetching asked, kept⟩

/-! ## Executions -/

variable {rule : Rule}

/-- A step asks for nothing but the table that it pulls, if all URLs of its rule are
connected. -/
theorem runStep (tracks : context.Tracks registry)
    (attached : ∀ url ∈ rule.urls, url ∈ context.connections) (step : Step) (machine : Machine) :
    context.Asks [] (rule.request? step).toList (context.runStep rule step machine).2 ∧
      (context.runStep rule step machine).2.Tracks registry := by
  have fetched : context.Asks [] (rule.request? step).toList
        ((context.tell [.step step.name machine.depth]).fetchFor rule step).2 ∧
      ((context.tell [.step step.name machine.depth]).fetchFor rule step).2.Tracks registry := by
    have told := tracks.tell [.step step.name machine.depth]
    have nothing : context.Asks [] [] (context.tell [.step step.name machine.depth]) :=
      .nothing tracks.distinct
    cases step with
    | pull reference target =>
        simp only [Rule.request?, fetchFor]
        cases served : rule.urlFor reference.space with
        | error error => exact ⟨nothing, told⟩
        | ok url =>
            have connected := attached url (Rule.mem_urls_of_urlFor served)
            obtain ⟨asks, after⟩ := (told.tell [.pulling reference url target]).fetch url reference
            exact ⟨asks.of_connected connected tracks.distinct, after⟩
    | _ => exact ⟨nothing, told⟩
  obtain ⟨asks, after⟩ := fetched
  unfold Context.runStep
  simp only
  split
  · exact ⟨asks, after.tell _⟩
  · exact ⟨asks, after⟩

/-- A run asks for the tables that its steps pull, up to the one that fails. -/
theorem runSteps (tracks : context.Tracks registry)
    (attached : ∀ url ∈ rule.urls, url ∈ context.connections) (machine : Machine)
    (steps : List Step) :
    context.Asks [] ((steps.take ((context.transitions rule machine steps).length + 1)).filterMap
        rule.request?) (context.runSteps rule machine steps).2 ∧
      (context.runSteps rule machine steps).2.Tracks registry := by
  induction steps generalizing context machine with
  | nil => exact ⟨.nothing tracks.distinct, tracks⟩
  | cons step rest ih =>
      obtain ⟨asks, after⟩ := tracks.runStep attached step machine
      have first : ∀ count, ((step :: rest).take (count + 1)).filterMap rule.request? =
          (rule.request? step).toList ++ (rest.take count).filterMap rule.request? := by
        intro count
        rw [List.take_succ_cons, List.filterMap_cons]
        cases rule.request? step with
        | none => rfl
        | some request => rfl
      cases ran : context.runStep rule step machine with
      | mk performed next =>
          rw [ran] at asks after
          cases performed with
          | error error =>
              rw [transitions_cons_error ran, runSteps_cons_error ran, List.length_nil, first]
              simpa using ⟨asks, after⟩
          | ok machine =>
              have known := asks.connections_eq tracks.distinct
              obtain ⟨asked, kept⟩ := ih after (by rw [known]; exact attached) machine
              rw [transitions_cons_ok ran, runSteps_cons_ok ran, List.length_cons, first]
              exact ⟨asks.fetching asked, kept⟩

/-- All repositories get connected, in their order. -/
theorem attach (tracks : context.Tracks registry) (repositories : List (String × String)) :
    (context.attach repositories).1 = none ∧
      context.Asks (repositories.map Prod.snd) [] (context.attach repositories).2 ∧
      (context.attach repositories).2.Tracks registry := by
  induction repositories generalizing context with
  | nil => exact ⟨rfl, .nothing tracks.distinct, tracks⟩
  | cons repository rest ih =>
      obtain ⟨name, url⟩ := repository
      obtain ⟨given, asks, after⟩ := (tracks.tell [.attaching name url]).client url
      unfold Context.attach
      cases found : (context.tell [.attaching name url]).client url with
      | mk answer next =>
          rw [found] at given asks after
          cases given
          obtain ⟨connected, more, kept⟩ := ih after
          exact ⟨connected, asks.connecting more, kept⟩

/-- An execution connects all repositories before it runs its steps, which connect nothing. -/
theorem exists_attached (tracks : context.Tracks registry) (rule : Rule) :
    ∃ attached, context.attach rule.repositories.toList = (none, attached) ∧
      context.Asks rule.urls [] attached ∧ attached.Tracks registry ∧
      ∀ machine steps,
        attached.Asks []
          ((steps.take ((attached.transitions rule machine steps).length + 1)).filterMap
            rule.request?)
          (attached.runSteps rule machine steps).2 ∧
        (attached.runSteps rule machine steps).2.Tracks registry := by
  obtain ⟨connected, asks, after⟩ := tracks.attach rule.repositories.toList
  refine ⟨_, Prod.ext connected rfl, asks, after, fun machine steps =>
    after.runSteps ?_ machine steps⟩
  intro url member
  rw [asks.connections, List.mem_eraseDups]
  exact List.mem_append_right _ member

theorem executeInto (tracks : context.Tracks registry) (rule : Rule) (bindings : Bindings)
    (output : Output) :
    context.Asks rule.urls ((context.attempted rule bindings output).filterMap rule.request?)
        (context.executeInto rule bindings output).2 ∧
      (context.executeInto rule bindings output).2.Tracks registry := by
  obtain ⟨attached, connected, asks, _, runs⟩ := tracks.exists_attached rule
  obtain ⟨asked, kept⟩ := runs (.start bindings output) rule.steps
  rw [attempted, executionTransitions_of_attach_none connected,
    executeInto_of_attach_none connected]
  exact ⟨asks.fetching asked, kept⟩

end Tracks

end Context

/-! ## Sessions -/

namespace Session

variable {session : Session}

theorem tracks_perform (tracks : session.context.Tracks session.registry) (operation : Operation) :
    session.context.Asks operation.urls (session.requestsOf operation)
        (session.perform operation).context ∧
      (session.perform operation).context.Tracks (session.perform operation).registry := by
  have nothing : session.context.Asks [] [] session.context := .nothing tracks.distinct
  cases operation with
  | register name aggregate =>
      exact ⟨nothing, tracks.reaches.register name aggregate, tracks.distinct, tracks.kept⟩
  | insert url reference table =>
      exact ⟨nothing, tracks.reaches.restock _, tracks.distinct, tracks.kept⟩
  | execute rule bindings output => exact tracks.executeInto rule bindings output
  | fetch url reference => exact tracks.fetch url reference
  | get rule repository reference =>
      simp only [perform, Operation.urls, requestsOf, Context.get]
      cases rule.repository? repository with
      | none => exact ⟨nothing, tracks⟩
      | some url => exact tracks.fetch url reference

/-- A session connects to the URLs that its operations use, and asks for what they ask. -/
theorem tracks_run (tracks : session.context.Tracks session.registry)
    (operations : List Operation) :
    (session.run operations).context.Tracks (session.run operations).registry ∧
      (session.run operations).context.connections =
        (session.context.connections ++ operations.flatMap Operation.urls).eraseDups ∧
      (session.run operations).context.fetches =
        session.context.fetches ++ session.requests operations := by
  induction operations generalizing session with
  | nil =>
      refine ⟨tracks, ?_, ?_⟩
      · simp [run, eraseDups_of_nodup tracks.distinct]
      · simp [run, requests]
  | cons operation rest ih =>
      obtain ⟨asks, after⟩ := tracks_perform tracks operation
      obtain ⟨kept, connections, fetches⟩ := ih after
      refine ⟨kept, connections.trans ?_, fetches.trans ?_⟩
      · rw [asks.connections, eraseDups_append_eraseDups, List.append_assoc, List.flatMap_cons]
      · rw [asks.fetches, List.append_assoc, requests]

/-- Whatever is done in a session, its context has connected once to every URL that was used,
in the order of their first use, and has asked for a table each time that an operation or a
step that was carried out needed it.  An execution uses the URLs of all its repositories in
the order of their names, before its first step. -/
theorem connects_once_and_fetches_always (registry : MemoryRegistry)
    (operations : List Operation) :
    let used := ((start registry).run operations).context
    used.connections.Nodup ∧
      used.connections = (operations.flatMap Operation.urls).eraseDups ∧
      (∀ url reference, used.fetchCount url reference =
        ((start registry).requests operations).count (url, reference)) ∧
      ∀ rule, ∃ attached, used.attach rule.repositories.toList = (none, attached) ∧
        attached.connections = (used.connections ++ rule.urls).eraseDups ∧
        attached.fetches = used.fetches ∧
        ∀ bindings output,
          used.executeInto rule bindings output =
            attached.runSteps rule (.start bindings output) rule.steps ∧
          (used.executeInto rule bindings output).2.connections = attached.connections := by
  intro used
  have begins : (start registry).context.Tracks (start registry).registry := .new registry
  obtain ⟨tracks, connections, fetches⟩ := tracks_run begins operations
  refine ⟨tracks.distinct, connections, ?_, ?_⟩
  · intro url reference
    rw [Context.fetchCount_eq, fetches]
    rfl
  · intro rule
    obtain ⟨attached, connected, asks, after, runs⟩ := tracks.exists_attached rule
    refine ⟨attached, connected, asks.connections, ?_, ?_⟩
    · rw [asks.fetches, List.append_nil]
    · intro bindings output
      rw [Context.executeInto_of_attach_none connected]
      exact ⟨rfl, (runs _ _).1.connections_eq after.distinct⟩

end Session

end TableScript
