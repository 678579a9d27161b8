import TableScript.Document.Basic
import TableScript.Tree.Basic

/-!
# Documents put together

Every statement contributes a fragment: a piece of the header, which is merged
into what the header holds already, or an action, which is added at the end.  A
draft collects the fragments, and what it holds is read as a document.

Documents merge as their trees do: later declarations replace earlier ones of the
same name, and actions merge by position.
-/

namespace TableScript

/-! ## Drafts -/

inductive Fragment where
  /-- merged into the root of the document -/
  | root (tree : Tree)
  /-- added to its actions -/
  | action (node : Node)

namespace Fragment

/-- A section of the header as a tree that holds the whole document. -/
def ofSection (name : String) (entries : Tree) : Tree :=
  OrderedMap.ofList [("meta", .map (OrderedMap.ofList [(name, .map entries)]))]

def toJson : Fragment → Json.Value
  | root tree => tree.toJson
  | action node => node.toJson

end Fragment

namespace Statement

def fragment : Statement → Fragment
  | .expects table columns =>
      .root (Fragment.ofSection "expects" (OrderedMap.ofList [(table, .ofNames columns)]))
  | .attach url name =>
      .root (Fragment.ofSection "repositories" (OrderedMap.ofList [(name, .scalar url)]))
  | .action it => .action (.map it.toTree)

end Statement

structure Draft where
  root : Tree
  actions : List Node

namespace Draft

def empty : Draft := ⟨.empty, []⟩

def add (draft : Draft) : Fragment → Draft
  | .root tree => { draft with root := draft.root.merge tree }
  | .action node => { draft with actions := draft.actions ++ [node] }

/-- What the draft holds, as a tree; it has actions once one has been added. -/
def tree (draft : Draft) : Tree :=
  if draft.actions.isEmpty then draft.root else draft.root.insert "actions" (.seq draft.actions)

def document (draft : Draft) : Except DocumentError Document := Document.ofTree draft.tree

def ofStatements (statements : List Statement) : Draft :=
  statements.foldl (fun draft statement => draft.add statement.fragment) empty

end Draft

/-! ## Merging -/

namespace Document

def merge (document other : Document) : Except DocumentError Document :=
  ofTree (document.toTree.merge other.toTree)

/-- The documents of a list laid one over the other, read once at the end. -/
def combine (documents : List Document) : Except DocumentError Document :=
  match Tree.combine? (documents.map toTree) with
  | some tree => ofTree tree
  | none => .ok empty

end Document

end TableScript
