import Mathlib.Data.List.Basic
import TableScript.Proofs.Map.Ordered
import TableScript.Tree.Basic

/-!
# Mappings nested in trees

A mapping stands in a value at a slot: either it is the value, or it is an item of it.
Laying trees over one another and cutting them to a shape go from mappings to the mappings
in their values and look no deeper into sequences, so a statement about trees is proved
by `Tree.nested_induction`, from the mappings in the values of a tree.
-/

namespace TableScript

/-- Where in a value a mapping may stand. -/
inductive Slot where
  | whole
  | item (index : Nat)

namespace Node

def inner? : Node → Slot → Option Tree
  | node, .whole => node.map?
  | node, .item index => (node.seq?.bind fun items => items[index]?).bind map?

/-- A value that is another mapping now, if it was one. -/
def mapWhole (change : Tree → Tree) : Node → Node
  | .map tree => .map (change tree)
  | other => other

/-- A value with another mapping at each of its slots that holds one. -/
def mapInner (change : Slot → Tree → Tree) : Node → Node
  | .seq items => .seq (items.mapIdx fun index item => item.mapWhole (change (.item index)))
  | other => other.mapWhole (change .whole)

theorem map?_eq_some_iff {node : Node} {tree : Tree} :
    node.map? = some tree ↔ node = .map tree := by
  cases node with
  | scalar text => simp [map?]
  | map inner => simp [map?]
  | seq items => simp [map?]

theorem map?_mapWhole (change : Tree → Tree) (node : Node) :
    (node.mapWhole change).map? = node.map?.map change := by
  cases node with
  | scalar text => rfl
  | map tree => rfl
  | seq items => rfl

theorem mapWhole_id (node : Node) : (node.mapWhole fun tree => tree) = node := by
  cases node with
  | scalar text => rfl
  | map tree => rfl
  | seq items => rfl

theorem mapWhole_congr {change other : Tree → Tree} {node : Node}
    (agree : ∀ tree, node.map? = some tree → change tree = other tree) :
    node.mapWhole change = node.mapWhole other := by
  cases node with
  | scalar text => rfl
  | map tree => exact congrArg map (agree tree rfl)
  | seq items => rfl

theorem inner?_mapInner (change : Slot → Tree → Tree) (node : Node) (slot : Slot) :
    (node.mapInner change).inner? slot = (node.inner? slot).map (change slot) := by
  cases slot with
  | whole =>
      cases node with
      | scalar text => rfl
      | map tree => rfl
      | seq items => rfl
  | item index =>
      cases node with
      | scalar text => rfl
      | map tree => rfl
      | seq items =>
          change ((items.mapIdx _)[index]?).bind map? = (items[index]?.bind map?).map _
          rw [List.getElem?_mapIdx]
          cases items[index]? with
          | none => rfl
          | some item => exact map?_mapWhole _ item

theorem mapInner_congr {change other : Slot → Tree → Tree} {node : Node}
    (agree : ∀ slot tree, node.inner? slot = some tree → change slot tree = other slot tree) :
    node.mapInner change = node.mapInner other := by
  cases node with
  | scalar text => rfl
  | map tree => exact congrArg map (agree .whole tree rfl)
  | seq items =>
      refine congrArg seq (List.mapIdx_eq_mapIdx_iff.mpr fun index bound => ?_)
      apply mapWhole_congr
      intro tree found
      apply agree (.item index) tree
      change (items[index]?).bind map? = some tree
      rw [List.getElem?_eq_getElem bound]
      exact found

theorem mapInner_mapInner (first second : Slot → Tree → Tree) (node : Node) :
    (node.mapInner first).mapInner second =
      node.mapInner fun slot tree => second slot (first slot tree) := by
  cases node with
  | scalar text => rfl
  | map tree => rfl
  | seq items =>
      refine congrArg seq ((List.mapIdx_mapIdx ..).trans ?_)
      apply List.mapIdx_eq_mapIdx_iff.mpr
      intro index bound
      cases items[index] with
      | scalar text => rfl
      | map tree => rfl
      | seq items => rfl

theorem mapInner_id (node : Node) : (node.mapInner fun _ tree => tree) = node := by
  cases node with
  | scalar text => rfl
  | map tree => rfl
  | seq items =>
      refine congrArg seq (List.mapIdx_eq_iff.mpr fun index => ?_)
      simp only [mapWhole_id, Option.map_id_fun', id]

theorem mapInner_eq_self {change : Slot → Tree → Tree} {node : Node}
    (kept : ∀ slot tree, node.inner? slot = some tree → change slot tree = tree) :
    node.mapInner change = node :=
  (mapInner_congr kept).trans node.mapInner_id

end Node

/-! ## Sites -/

/-- A way into a tree, from each mapping to one that stands in a value of it. -/
abbrev Site := List (String × Slot)

namespace Tree

def innerAt? (tree : Tree) (turn : String × Slot) : Option Tree :=
  (tree.get? turn.1).bind fun node => node.inner? turn.2

def nested? (tree : Tree) : Site → Option Tree
  | [] => some tree
  | turn :: rest => (tree.innerAt? turn).bind fun inner => nested? inner rest

theorem innerAt?_of_get? {tree : Tree} {key : String} {node : Node}
    (found : tree.get? key = some node) (slot : Slot) :
    tree.innerAt? (key, slot) = node.inner? slot := by
  rw [innerAt?, found]
  rfl

theorem innerAt?_whole_eq_some_iff {tree inner : Tree} {key : String} :
    tree.innerAt? (key, .whole) = some inner ↔ tree.get? key = some (.map inner) := by
  simp [innerAt?, Node.inner?, Option.bind_eq_some_iff, Node.map?_eq_some_iff]

theorem mem_keys_of_innerAt? {tree inner : Tree} {turn : String × Slot}
    (found : tree.innerAt? turn = some inner) : turn.1 ∈ tree.keys := by
  obtain ⟨node, held, _⟩ := Option.bind_eq_some_iff.mp found
  exact OrderedMap.mem_keys_iff.mpr ⟨node, held⟩

/-- Every mapping stands in some tree at a given slot of the value of a given key. -/
theorem exists_innerAt?_eq (turn : String × Slot) (inner : Tree) :
    ∃ tree : Tree, tree.innerAt? turn = some inner := by
  have alone : ∀ (key : String) (node : Node),
      (OrderedMap.ofList [(key, node)]).get? key = some node := by
    intro key node
    rw [OrderedMap.get?_ofList]
    simp
  obtain ⟨key, slot⟩ := turn
  cases slot with
  | whole => exact ⟨_, innerAt?_of_get? (alone key (.map inner)) .whole⟩
  | item index =>
      refine ⟨_, (innerAt?_of_get? (alone key (.seq (.replicate index (.scalar "") ++
        [.map inner]))) (.item index)).trans ?_⟩
      simp [Node.inner?, Node.seq?, Node.map?]

end Tree

/-! ## Induction -/

/-- That a property passes to a tree from the mappings in its values. -/
def Tree.Inherits (property : Tree → Prop) : Prop :=
  ∀ tree : Tree, (∀ key node, tree.get? key = some node →
    ∀ slot inner, node.inner? slot = some inner → property inner) → property tree

mutual

private theorem inherited_of_inner? {motive : Tree → Prop} (nested : Tree.Inherits motive) :
    ∀ (node : Node) (slot : Slot) (inner : Tree), node.inner? slot = some inner → motive inner
  | .map ⟨keys, entries⟩, .whole, _, found => by
      cases found
      apply nested
      intro key node held
      exact inherited_of_mem nested entries (key, node) (OrderedMap.get?_eq_some_iff.mp held)
  | .seq items, .item index, inner, found => inherited_of_item nested items index inner found

private theorem inherited_of_mem {motive : Tree → Prop} (nested : Tree.Inherits motive) :
    ∀ {keys : List String} (entries : Entries Node keys), ∀ entry ∈ entries.toList,
      ∀ slot inner, entry.2.inner? slot = some inner → motive inner
  | _, .nil => by
      intro entry member
      cases member
  | _, .cons key value rest _ => by
      rw [Entries.toList, List.forall_mem_cons]
      exact ⟨inherited_of_inner? nested value, inherited_of_mem nested rest⟩

private theorem inherited_of_item {motive : Tree → Prop} (nested : Tree.Inherits motive) :
    ∀ (items : List Node) (index : Nat) (inner : Tree),
      items[index]?.bind Node.map? = some inner → motive inner
  | item :: _, 0, inner, found => inherited_of_inner? nested item .whole inner found
  | _ :: rest, index + 1, inner, found => inherited_of_item nested rest index inner found

end

/-- What holds of a tree if it holds of the mappings in its values holds of every tree. -/
@[elab_as_elim]
theorem Tree.nested_induction {motive : Tree → Prop} (tree : Tree)
    (nested : ∀ tree : Tree, (∀ key node, tree.get? key = some node →
      ∀ slot inner, node.inner? slot = some inner → motive inner) → motive tree) : motive tree :=
  inherited_of_inner? nested (.map tree) .whole tree rfl

end TableScript
