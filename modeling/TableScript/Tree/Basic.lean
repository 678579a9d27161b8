import TableScript.OrderedMap

/-!
# Trees

Nested documents: a node is a scalar text, a mapping from keys to nodes, or a
sequence of nodes.  A tree is a mapping; its keys are distinct at every depth and
keep the order of their first insertion.

Two nodes are the same document, `Node.same`, when they differ at most in the
order of keys.  Equality of Lean values is finer: it takes the order into account.

`Tree.merge dest src` lays `src` over `dest`.  Two mappings under one key merge
key by key.  Two sequences merge by position: item `i` of the result is item `i`
of `src`, merged into item `i` of `dest` where both are mappings, and the result
is as long as `src`.  Any other value of `src` replaces its counterpart.  Keys of
`dest` keep their places; new keys follow in the order of `src`.
-/

namespace TableScript

inductive Node where
  | scalar (text : String)
  | map (entries : OrderedMap Node)
  | seq (items : List Node)

abbrev Tree := OrderedMap Node

instance : Inhabited Node := ⟨.scalar ""⟩

inductive Kind where
  | scalar
  | mapping
  | sequence
deriving DecidableEq, Repr

namespace Kind

def name : Kind → String
  | scalar => "scalar"
  | mapping => "mapping"
  | sequence => "sequence"

end Kind

namespace Node

def kind : Node → Kind
  | .scalar _ => .scalar
  | .map _ => .mapping
  | .seq _ => .sequence

def scalar? : Node → Option String
  | .scalar text => some text
  | _ => none

def map? : Node → Option Tree
  | .map tree => some tree
  | _ => none

def seq? : Node → Option (List Node)
  | .seq items => some items
  | _ => none

def ofNames (names : List String) : Node := .seq (names.map .scalar)

mutual

/-- Whether two nodes are the same up to the order of keys. -/
def same : Node → Node → Bool
  | .scalar first, .scalar second => first == second
  | .map ⟨keys, entries⟩, .map other =>
      keys.length == other.size && sameEntries entries other
  | .seq first, .seq second => sameItems first second
  | _, _ => false

def sameEntries {keys : List String} : Entries Node keys → Tree → Bool
  | .nil, _ => true
  | .cons key value rest _, other =>
      (match other.get? key with
        | some counterpart => value.same counterpart
        | none => false) && sameEntries rest other

def sameItems : List Node → List Node → Bool
  | [], [] => true
  | first :: rest, second :: others => first.same second && sameItems rest others
  | _, _ => false

end

end Node

namespace Tree

/-- The text of `key` if it holds a scalar. -/
def scalar? (tree : Tree) (key : String) : Option String := (tree.get? key).bind Node.scalar?

def same (first second : Tree) : Bool := (Node.map first).same (.map second)

def ofScalars (pairs : List (String × String)) : Tree :=
  OrderedMap.ofList (pairs.map fun pair => (pair.1, .scalar pair.2))

end Tree

/-! ## Merging -/

namespace Node

mutual

/-- A node laid over the value that stood in its place, if there was one. -/
def mergeOnto (dest : Option Node) : Node → Node
  | .scalar text => .scalar text
  | .map ⟨keys, entries⟩ =>
      match dest with
      | some (.map tree) => .map (tree.insertAll (mergeEntries tree entries))
      | _ => .map ⟨keys, entries⟩
  | .seq items =>
      match dest with
      | some (.seq existing) => .seq (mergeItems existing items)
      | _ => .seq items

/-- The entries of a mapping, each laid over its counterpart in `dest`. -/
def mergeEntries (dest : Tree) {keys : List String} :
    Entries Node keys → List (String × Node)
  | .nil => []
  | .cons key value rest _ =>
      (key, value.mergeOnto (dest.get? key)) :: mergeEntries dest rest

/-- The items of a sequence, each mapping laid over the mapping in its position. -/
def mergeItems (dest : List Node) : List Node → List Node
  | [] => []
  | item :: rest =>
      (match dest.head?, item with
        | some (.map tree), .map ⟨_, entries⟩ =>
            .map (tree.insertAll (mergeEntries tree entries))
        | _, item => item) :: mergeItems dest.tail rest

end

end Node

namespace Tree

def merge (dest src : Tree) : Tree :=
  dest.insertAll (Node.mergeEntries dest src.entries)

/-- All trees of a list laid one over the other from the left; nothing for no
trees. -/
def combine? : List Tree → Option Tree
  | [] => none
  | first :: rest => some (rest.foldl merge first)

end Tree

end TableScript
