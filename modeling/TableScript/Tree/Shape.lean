import TableScript.Tree.Basic

/-!
# The shape of a tree

`Tree.extract doc shape` keeps of `doc` what has a counterpart in `shape`, in the
order of `shape`.  Keys without a counterpart are dropped, mappings recurse, and
sequences recurse by position up to the shorter one.  A mapping whose counterpart
is no mapping loses all its keys; every other value is taken as it is.
-/

namespace TableScript

namespace Node

mutual

/-- The part of a node that its counterpart has a shape for. -/
def extract (doc : Node) : Node → Node
  | .scalar _ =>
      match doc with
      | .map _ => .map .empty
      | other => other
  | .map ⟨_, shape⟩ =>
      match doc with
      | .map tree => .map (OrderedMap.ofList (extractEntries tree shape))
      | other => other
  | .seq shapes =>
      match doc with
      | .map _ => .map .empty
      | .seq items => .seq (extractItems items shapes)
      | other => other

def extractEntries (doc : Tree) {keys : List String} :
    Entries Node keys → List (String × Node)
  | .nil => []
  | .cons key shape rest _ =>
      match doc.get? key with
      | some value => (key, value.extract shape) :: extractEntries doc rest
      | none => extractEntries doc rest

/-- The items that have a counterpart; a mapping facing a mapping is cut to its
shape. -/
def extractItems : List Node → List Node → List Node
  | item :: rest, shape :: shapes =>
      (match item, shape with
        | .map tree, .map ⟨_, entries⟩ => .map (OrderedMap.ofList (extractEntries tree entries))
        | item, _ => item) :: extractItems rest shapes
  | _, _ => []

end

end Node

namespace Tree

def extract (doc shape : Tree) : Tree :=
  OrderedMap.ofList (Node.extractEntries doc shape.entries)

end Tree

end TableScript
