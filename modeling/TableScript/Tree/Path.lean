import TableScript.Text.Basic
import TableScript.Tree.Basic

/-!
# Paths into trees

A path names a value by the keys that lead to it through nested mappings.  In
text its keys are separated by points; a key may be empty, and a key that itself
holds a point cannot be named.
-/

namespace TableScript

/-- The keys that lead to a value, outermost first. -/
abbrev Path := List String

/-- The path that a dotted text denotes; it has at least one key. -/
def Path.ofText (text : String) : Path := Text.split '.' text

namespace Tree

def find? (tree : Tree) : Path → Option Node
  | [] => none
  | [key] => tree.get? key
  | key :: next :: rest =>
      match tree.get? key with
      | some (.map inner) => find? inner (next :: rest)
      | _ => none

def containsPath (tree : Tree) (path : Path) : Bool := (tree.find? path).isSome

/-- The tree with a value put at a path.  Mappings on the way are kept, created
where nothing stands, and take the place of any other value. -/
def put (tree : Tree) (path : Path) (value : Node) : Tree :=
  match path with
  | [] => tree
  | [key] => tree.insert key value
  | key :: next :: rest =>
      let inner : Tree :=
        match tree.get? key with
        | some (.map existing) => existing
        | _ => .empty
      tree.insert key (.map (put inner (next :: rest) value))

/-- A new tree with the value at each source path copied to its target path, in
the order of the list.  Sources that name no value are passed over. -/
def transform (tree : Tree) (paths : List (Path × Path)) : Tree :=
  paths.foldl
    (fun out pair =>
      match tree.find? pair.1 with
      | some value => out.put pair.2 value
      | none => out)
    .empty

/-- `transform` with sources and targets exchanged. -/
def transformInverted (tree : Tree) (paths : List (Path × Path)) : Tree :=
  tree.transform (paths.map Prod.swap)

end Tree

end TableScript
