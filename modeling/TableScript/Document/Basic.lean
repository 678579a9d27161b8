import TableScript.SortedMap
import TableScript.Statement
import TableScript.Tree.Json

/-!
# Documents

The canonical form of a script: a header, which says what columns tables are
expected to have and where repositories are, and the actions in program order.

The interchange form of a document is the tree

`meta: (expects: (table: [column, …], …), repositories: (name: url, …))`,
`actions: [(name: kind, …), …]`

in which empty sections and absent options are left out.  Reading a tree passes
over keys that it does not know.  It reports the first thing that is wrong, in a
fixed order: the header before the actions, expectations before repositories, and
the fields of an action in the order given at its reader.
-/

namespace TableScript

structure Header where
  /-- the expected columns of tables -/
  expects : SortedMap (List String)
  /-- the URLs of repositories -/
  repositories : SortedMap String
deriving DecidableEq, Inhabited

namespace Header

def empty : Header := ⟨.empty, .empty⟩

def isEmpty (header : Header) : Bool := header.expects.isEmpty && header.repositories.isEmpty

end Header

structure Document where
  header : Header
  actions : List Action
deriving DecidableEq, Inhabited

namespace Document

def empty : Document := ⟨.empty, []⟩

/-- The statements of a document: attachments, then expectations, then actions. -/
def statements (document : Document) : List Statement :=
  (document.header.repositories.toList.map fun entry => .attach entry.2 entry.1) ++
    (document.header.expects.toList.map fun entry => .expects entry.1 entry.2) ++
    document.actions.map .action

end Document

/-! ## Documents as trees -/

namespace Node

def expectScalar (field expected : String) : Node → Except DocumentError String
  | .scalar text => .ok text
  | other => .error (.wrongKind field expected (some other.kind))

def expectMap (field expected : String) : Node → Except DocumentError Tree
  | .map tree => .ok tree
  | other => .error (.wrongKind field expected (some other.kind))

def expectSeq (field expected : String) : Node → Except DocumentError (List Node)
  | .seq items => .ok items
  | other => .error (.wrongKind field expected (some other.kind))

def expectNames (field : String) (node : Node) : Except DocumentError (List String) := do
  let items ← node.expectSeq field "a sequence of names"
  items.mapM (expectScalar field "a name")

end Node

namespace Tree

/-- The value of a field that an action, or a part of one, must have. -/
def field (owner name : String) (tree : Tree) : Except DocumentError Node :=
  match tree.get? name with
  | some node => .ok node
  | none => .error (.missingField owner name)

def scalarField (owner name : String) (tree : Tree) : Except DocumentError String := do
  (← field owner name tree).expectScalar name "a scalar"

def mapField (owner name : String) (tree : Tree) : Except DocumentError Tree := do
  (← field owner name tree).expectMap name "a mapping"

def namesField (owner name : String) (tree : Tree) : Except DocumentError (List String) := do
  (← field owner name tree).expectNames name

/-- What `read` makes of a field, if it is there. -/
def optionalField {α : Type} (name : String) (read : Node → Except DocumentError α)
    (tree : Tree) : Except DocumentError (Option α) :=
  match tree.get? name with
  | some node => (read node).map some
  | none => .ok none

end Tree

namespace Pairing

def fields (pairing : Pairing) : List (String × Node) :=
  ("using", .map (OrderedMap.ofList
      [("left", .ofNames pairing.leftKeys), ("right", .ofNames pairing.rightKeys)])) ::
    match pairing.projections with
    | [] => []
    | projections =>
        [("include", .map (Tree.ofScalars
          (projections.map fun column => (column.source, column.target))))]

def projectionsOf (node : Node) : Except DocumentError (List Projection) := do
  let entries ← node.expectMap "include" "a mapping"
  entries.toList.mapM fun entry =>
    (entry.2.expectScalar entry.1 "a column name").map fun target => ⟨entry.1, target⟩

/-- Read a pairing: that `using` is there, then `include`, then the two key
lists. -/
def ofTree (owner : String) (tree : Tree) : Except DocumentError Pairing := do
  let keys ← Tree.mapField owner "using" tree
  let projections ← Tree.optionalField "include" projectionsOf tree
  let leftKeys ← Tree.namesField "using" "left" keys
  let rightKeys ← Tree.namesField "using" "right" keys
  return ⟨leftKeys, rightKeys, projections.getD []⟩

end Pairing

namespace Call

def toTree (call : Call) : Tree :=
  OrderedMap.ofList [("name", .scalar call.name), ("args", .ofNames call.arguments)]

def ofTree (tree : Tree) : Except DocumentError Call := do
  let name ← Tree.scalarField "function" "name" tree
  let arguments ← Tree.namesField "function" "args" tree
  return ⟨name, arguments⟩

end Call

namespace Step

/-- The fields of a step other than its name. -/
def fields : Step → List (String × Node)
  | push table => [("table", .scalar table)]
  | pop => []
  | duplicate => []
  | commit table none => [("table", .scalar table)]
  | commit table (some columns) => [("table", .scalar table), ("columns", .ofNames columns)]
  | join pairing => pairing.fields
  | inclusion pairing => pairing.fields
  | accumulate column call none =>
      [("column", .scalar column), ("function", .map call.toTree)]
  | accumulate column call (some result) =>
      [("column", .scalar column), ("function", .map call.toTree), ("result", .scalar result)]
  | pull reference target =>
      [("namespace", .scalar reference.space), ("table", .scalar reference.name),
        ("version", .scalar reference.version), ("as", .scalar target)]

end Step

namespace Action

def fields : Action → List (String × Node)
  | .step it => it.fields
  | .invoke rule =>
      [("namespace", .scalar rule.space), ("rule", .scalar rule.name),
        ("version", .scalar rule.version)]
  | .unrecognized _ => []

def toTree (action : Action) : Tree :=
  OrderedMap.ofList (("name", .scalar action.name) :: action.fields)

/-- Read a commit: its table, then its columns. -/
def commitOfTree (tree : Tree) : Except DocumentError Step := do
  let table ← Tree.scalarField "commit" "table" tree
  let columns ← Tree.optionalField "columns" (Node.expectNames "columns") tree
  return .commit table columns

/-- Read an accumulation: that its function is there, its column, the function,
its result. -/
def accumulateOfTree (tree : Tree) : Except DocumentError Step := do
  let function ← Tree.mapField "accumulate" "function" tree
  let column ← Tree.scalarField "accumulate" "column" tree
  let call ← Call.ofTree function
  let result ← Tree.optionalField "result" (Node.expectScalar "result" "a name") tree
  return .accumulate column call result

/-- Read a pull: namespace, table, version and target. -/
def pullOfTree (tree : Tree) : Except DocumentError Step := do
  let space ← Tree.scalarField "pull" "namespace" tree
  let table ← Tree.scalarField "pull" "table" tree
  let version ← Tree.scalarField "pull" "version" tree
  let target ← Tree.scalarField "pull" "as" tree
  return .pull ⟨space, table, version⟩ target

/-- Read an invocation: namespace, rule and version. -/
def invokeOfTree (tree : Tree) : Except DocumentError Action := do
  let space ← Tree.scalarField "invoke" "namespace" tree
  let rule ← Tree.scalarField "invoke" "rule" tree
  let version ← Tree.scalarField "invoke" "version" tree
  return .invoke ⟨space, rule, version⟩

/-- Read an action: its name, then the fields that the name calls for. -/
def ofTree (tree : Tree) : Except DocumentError Action := do
  match ← Tree.scalarField "action" "name" tree with
  | "push" => return .step (.push (← Tree.scalarField "push" "table" tree))
  | "pop" => return .step .pop
  | "duplicate" => return .step .duplicate
  | "commit" => return .step (← commitOfTree tree)
  | "join" => return .step (.join (← Pairing.ofTree "join" tree))
  | "inclusion" => return .step (.inclusion (← Pairing.ofTree "inclusion" tree))
  | "accumulate" => return .step (← accumulateOfTree tree)
  | "pull" => return .step (← pullOfTree tree)
  | "invoke" => invokeOfTree tree
  | other => return .unrecognized other

end Action

namespace Header

def expectsTree (header : Header) : Tree :=
  OrderedMap.ofList (header.expects.toList.map fun entry => (entry.1, .ofNames entry.2))

def repositoriesTree (header : Header) : Tree := Tree.ofScalars header.repositories.toList

def toTree (header : Header) : Tree :=
  OrderedMap.ofList
    ((if header.expects.isEmpty then [] else [("expects", .map header.expectsTree)]) ++
      if header.repositories.isEmpty then []
      else [("repositories", .map header.repositoriesTree)])

def expectsOf (node : Node) : Except DocumentError (SortedMap (List String)) := do
  let tables ← node.expectMap "expects" "a mapping"
  let entries ← tables.toList.mapM fun entry =>
    (entry.2.expectNames entry.1).map fun columns => (entry.1, columns)
  return SortedMap.ofList entries

def repositoriesOf (node : Node) : Except DocumentError (SortedMap String) := do
  let names ← node.expectMap "repositories" "a mapping"
  let entries ← names.toList.mapM fun entry =>
    (entry.2.expectScalar entry.1 "a URL").map fun url => (entry.1, url)
  return SortedMap.ofList entries

/-- Read a header: its expectations, then its repositories. -/
def ofNode (node : Node) : Except DocumentError Header := do
  let sections ← node.expectMap "meta" "a mapping"
  let expects ← Tree.optionalField "expects" expectsOf sections
  let repositories ← Tree.optionalField "repositories" repositoriesOf sections
  return ⟨expects.getD .empty, repositories.getD .empty⟩

end Header

namespace Document

def toTree (document : Document) : Tree :=
  OrderedMap.ofList
    ((if document.header.isEmpty then [] else [("meta", .map document.header.toTree)]) ++
      if document.actions.isEmpty then []
      else [("actions", .seq (document.actions.map fun action => .map action.toTree))])

def actionsOf (node : Node) : Except DocumentError (List Action) := do
  let items ← node.expectSeq "actions" "a sequence"
  items.mapM fun item => do
    Action.ofTree (← item.expectMap "actions" "a mapping")

def ofTree (tree : Tree) : Except DocumentError Document := do
  let header ← Tree.optionalField "meta" Header.ofNode tree
  let actions ← Tree.optionalField "actions" actionsOf tree
  return ⟨header.getD .empty, actions.getD []⟩

def ofJson (value : Json.Value) : Except DocumentError Document := do
  ofTree (← Tree.ofJson value)

def parseJson (text : String) : Except DocumentError Document :=
  match Json.parse? text with
  | some value => ofJson value
  | none => .error .malformedJson

/-- Read a document from a JSON text as it comes: the document is taken from the
value at the beginning before the text behind it is looked at, so that of two faults
the one of the document is found. -/
def parseFirstJson (text : String) : Except DocumentError Document := do
  match Json.parseFirst? text with
  | none => throw .malformedJson
  | some (value, rest) =>
      let document ← ofJson value
      if rest.isEmpty then return document else throw .malformedJson

/-- Both ways of reading accept the same texts. -/
theorem parseFirstJson_eq_ok_iff {text : String} {document : Document} :
    parseFirstJson text = .ok document ↔ parseJson text = .ok document := by
  unfold parseFirstJson parseJson Json.parse?
  cases first : Json.parseFirst? text with
  | none => simp [throw, throwThe, MonadExceptOf.throw]
  | some found =>
      obtain ⟨value, rest⟩ := found
      cases rest <;> cases decoded : ofJson value <;>
        simp [decoded, bind, Except.bind, pure, Except.pure, throw, throwThe, MonadExceptOf.throw]

def toJson (document : Document) : Json.Value := document.toTree.toJson

end Document

end TableScript
