import TableScript.Proofs.Map.Sorted
import TableScript.Tree.Shape

/-!
# Trees up to the order of keys

Two nodes are the same when they become equal by sorting the keys of all mappings in
them.  So being the same is an equivalence, and two trees are the same when every key
has the same value in both, or in neither.
-/

namespace TableScript

/-- Maps that list the entries of sorted maps are equal only if these are. -/
theorem SortedMap.ofList_toList_inj {α : Type} {first second : SortedMap α} :
    OrderedMap.ofList first.toList = OrderedMap.ofList second.toList ↔ first = second := by
  constructor
  · intro same
    have listed := congrArg OrderedMap.toList same
    rw [OrderedMap.toList_ofList_of_nodup first.keys_nodup,
      OrderedMap.toList_ofList_of_nodup second.keys_nodup] at listed
    exact SortedMap.ext_toList listed
  · intro same
    rw [same]

namespace OrderedMap

/-- Two maps agree in all keys if they are of the same size and one of them agrees with
the other in the keys that it has. -/
theorem map_get?_eq_iff {α β : Type} (change : α → β) (first second : OrderedMap α) :
    (∀ key, (first.get? key).map change = (second.get? key).map change) ↔
      first.keys.length = second.size ∧
        ∀ entry ∈ first.toList, (second.get? entry.1).map change = some (change entry.2) := by
  constructor
  · intro agree
    have members : ∀ key, key ∈ first.keys ↔ key ∈ second.keys := by
      intro key
      have values := congrArg Option.isSome (agree key)
      rw [Option.isSome_map, Option.isSome_map] at values
      rw [mem_keys_iff, mem_keys_iff, ← Option.isSome_iff_exists, ← Option.isSome_iff_exists,
        values]
    have perm : first.keys.Perm second.keys :=
      (List.perm_ext_iff_of_nodup first.entries.keys_nodup second.entries.keys_nodup).mpr members
    refine ⟨perm.length_eq, ?_⟩
    intro entry member
    rw [← agree entry.1, get?_eq_some_iff.mpr member]
    rfl
  · rintro ⟨sizes, each⟩ key
    cases found : first.get? key with
    | some value => exact (each (key, value) (get?_eq_some_iff.mp found)).symm
    | none =>
        -- the keys of the first map are keys of the second one, which has no room for others
        have subset : first.keys ⊆ second.keys := by
          intro name member
          obtain ⟨value, held⟩ := mem_keys_iff.mp member
          obtain ⟨other, present, _⟩ :=
            Option.map_eq_some_iff.mp (each (name, value) (get?_eq_some_iff.mp held))
          exact mem_keys_iff.mpr ⟨other, present⟩
        have perm : first.keys.Perm second.keys :=
          (List.subperm_of_subset first.entries.keys_nodup subset).perm_of_length_le sizes.ge
        have absent : second.get? key = none :=
          get?_eq_none_iff.mpr fun member =>
            get?_eq_none_iff.mp found (perm.mem_iff.mpr member)
        rw [absent]

end OrderedMap

namespace Node

mutual

/-- A node with the keys of every mapping in it in ascending order. -/
def sorted : Node → Node
  | .scalar text => .scalar text
  | .map ⟨_, entries⟩ => .map (OrderedMap.ofList (SortedMap.ofList (sortedEntries entries)).toList)
  | .seq items => .seq (sortedItems items)

def sortedEntries {keys : List String} : Entries Node keys → List (String × Node)
  | .nil => []
  | .cons key value rest _ => (key, value.sorted) :: sortedEntries rest

def sortedItems : List Node → List Node
  | [] => []
  | item :: rest => item.sorted :: sortedItems rest

end

theorem sortedEntries_eq {keys : List String} (entries : Entries Node keys) :
    sortedEntries entries = entries.toList.map fun entry => (entry.1, entry.2.sorted) := by
  induction entries with
  | nil => rfl
  | cons key value rest fresh ih =>
      unfold sortedEntries
      rw [ih]
      rfl

/-- Mappings are sorted to the same mapping if the values of every key are. -/
theorem sorted_map_eq_iff (first second : Tree) :
    (Node.map first).sorted = (Node.map second).sorted ↔
      ∀ key, (first.get? key).map sorted = (second.get? key).map sorted := by
  have values : ∀ (tree : Tree) (key : String),
      (SortedMap.ofList (sortedEntries tree.entries)).get? key = (tree.get? key).map sorted := by
    intro tree key
    have distinct : ((sortedEntries tree.entries).map Prod.fst).Nodup := by
      rw [sortedEntries_eq, List.map_map]
      exact tree.toList_nodup
    rw [SortedMap.get?_ofList, Lookup.reverse_eq distinct, sortedEntries_eq,
      Lookup.map_eq fun _ value => sorted value]
    rfl
  simp only [sorted, Node.map.injEq, SortedMap.ofList_toList_inj, ← values]
  constructor
  · intro same key
    rw [same]
  · exact SortedMap.ext_get?

mutual

/-- Two nodes are the same if they are equal once their keys are sorted. -/
theorem same_iff_sorted : ∀ first second : Node,
    first.same second = true ↔ first.sorted = second.sorted
  | .scalar first, .scalar second => by simp [same, sorted]
  | .map ⟨keys, entries⟩, .map other => by
      rw [sorted_map_eq_iff, OrderedMap.map_get?_eq_iff, same, Bool.and_eq_true, beq_iff_eq,
        sameEntries_iff entries other]
      rfl
  | .seq first, .seq second => by simp [same, sorted, sameItems_iff first second]
  | .scalar _, .map _ => by simp [same, sorted]
  | .scalar _, .seq _ => by simp [same, sorted]
  | .map _, .scalar _ => by simp [same, sorted]
  | .map _, .seq _ => by simp [same, sorted]
  | .seq _, .scalar _ => by simp [same, sorted]
  | .seq _, .map _ => by simp [same, sorted]

/-- Every entry has a counterpart if its key has a value that is sorted to the same. -/
theorem sameEntries_iff : ∀ {keys : List String} (entries : Entries Node keys) (other : Tree),
    sameEntries entries other = true ↔
      ∀ entry ∈ entries.toList, (other.get? entry.1).map sorted = some entry.2.sorted
  | _, .nil, _ => by simp [sameEntries, Entries.toList]
  | _, .cons key value rest _, other => by
      rw [sameEntries, Bool.and_eq_true, sameEntries_iff rest other, Entries.toList,
        List.forall_mem_cons]
      cases other.get? key with
      | none => simp
      | some counterpart => simp [same_iff_sorted value counterpart, eq_comm]

theorem sameItems_iff : ∀ first second : List Node,
    sameItems first second = true ↔ sortedItems first = sortedItems second
  | [], [] => by simp [sameItems, sortedItems]
  | first :: rest, second :: others => by
      simp [sameItems, sortedItems, same_iff_sorted first second, sameItems_iff rest others]
  | [], _ :: _ => by simp [sameItems, sortedItems]
  | _ :: _, [] => by simp [sameItems, sortedItems]

end

/-- That two nodes are the same up to the order of keys. -/
def Alike (first second : Node) : Prop := first.same second = true

theorem alike_iff_sorted {first second : Node} :
    first.Alike second ↔ first.sorted = second.sorted := same_iff_sorted first second

theorem Alike.refl (node : Node) : node.Alike node := alike_iff_sorted.mpr rfl

theorem same_comm (first second : Node) : first.same second = second.same first := by
  rw [Bool.eq_iff_iff, same_iff_sorted, same_iff_sorted, eq_comm]

/-- Nodes may be compared through nodes that are the same. -/
theorem same_congr {first second left right : Node} (lefts : first.Alike left)
    (rights : second.Alike right) : first.same second = left.same right := by
  rw [Bool.eq_iff_iff, same_iff_sorted, same_iff_sorted, alike_iff_sorted.mp lefts,
    alike_iff_sorted.mp rights]

end Node

namespace Tree

def sorted (tree : Tree) : Tree :=
  OrderedMap.ofList (SortedMap.ofList (Node.sortedEntries tree.entries)).toList

def Alike (first second : Tree) : Prop := first.same second = true

theorem same_iff_sorted (first second : Tree) :
    first.same second = true ↔ first.sorted = second.sorted := by
  rw [same, Node.same_iff_sorted]
  exact Node.map.injEq _ _ ▸ Iff.rfl

theorem alike_iff_get? {first second : Tree} :
    first.Alike second ↔ ∀ key, Option.Rel Node.Alike (first.get? key) (second.get? key) := by
  have values : ∀ found other : Option Node,
      found.map Node.sorted = other.map Node.sorted ↔ Option.Rel Node.Alike found other := by
    intro found other
    cases found with
    | none =>
        cases other with
        | none => simp
        | some value => simp
    | some value =>
        cases other with
        | none => simp
        | some counterpart => simp [Node.alike_iff_sorted]
  unfold Alike same
  rw [Node.same_iff_sorted, Node.sorted_map_eq_iff]
  exact forall_congr' fun key => values _ _

theorem Alike.refl (tree : Tree) : tree.Alike tree := Node.Alike.refl (.map tree)

end Tree

/-! ## Building and cutting -/

def AlikeEntries (first second : String × Node) : Prop :=
  first.1 = second.1 ∧ first.2.Alike second.2

namespace Tree

theorem alike_ofList {entries others : List (String × Node)}
    (alike : List.Forall₂ AlikeEntries entries others) :
    Tree.Alike (OrderedMap.ofList entries) (OrderedMap.ofList others) := by
  rw [alike_iff_get?]
  intro key
  rw [OrderedMap.get?_ofList, OrderedMap.get?_ofList]
  have backwards := List.forall₂_reverse_iff.mpr alike
  generalize entries.reverse = entries at backwards ⊢
  generalize others.reverse = others at backwards ⊢
  induction backwards with
  | nil => exact .none
  | @cons entry other _ _ first _ ih =>
      obtain ⟨name, value⟩ := entry
      obtain ⟨_, counterpart⟩ := other
      obtain ⟨rfl, values⟩ := first
      rw [List.lookup_cons, List.lookup_cons]
      cases key == name with
      | true => exact .some values
      | false => exact ih

end Tree

namespace Node

mutual

/-- Of nodes that are the same a shape cuts out parts that are the same. -/
theorem alike_extract : ∀ {first second : Node}, first.Alike second →
    ∀ shape : Node, (first.extract shape).Alike (second.extract shape)
  | .scalar _, .scalar _, alike, .scalar _ => alike
  | .map _, .map _, _, .scalar _ => Alike.refl (.map .empty)
  | .seq _, .seq _, alike, .scalar _ => alike
  | .scalar _, .scalar _, alike, .map ⟨_, _⟩ => alike
  | .map _, .map _, alike, .map ⟨_, shape⟩ => Tree.alike_ofList (alike_extractEntries alike shape)
  | .seq _, .seq _, alike, .map ⟨_, _⟩ => alike
  | .scalar _, .scalar _, alike, .seq _ => alike
  | .map _, .map _, _, .seq _ => Alike.refl (.map .empty)
  | .seq _, .seq _, alike, .seq shapes => alike_extractItems alike shapes
termination_by structural _ _ _ shape => shape

theorem alike_extractEntries {first second : Tree} (alike : first.Alike second) :
    ∀ {keys : List String} (shape : Entries Node keys),
      List.Forall₂ AlikeEntries (extractEntries first shape) (extractEntries second shape)
  | _, .nil => .nil
  | _, .cons key value rest _ => by
      have values := Tree.alike_iff_get?.mp alike key
      unfold extractEntries
      generalize first.get? key = found at values ⊢
      generalize second.get? key = other at values ⊢
      cases values with
      | none => exact alike_extractEntries alike rest
      | some values =>
          exact .cons ⟨rfl, alike_extract values value⟩ (alike_extractEntries alike rest)
termination_by structural _ shape => shape

theorem alike_extractItems : ∀ {first second : List Node}, sameItems first second = true →
    ∀ shapes, sameItems (extractItems first shapes) (extractItems second shapes) = true
  | [], [], _, _ => by simp [extractItems, sameItems]
  | _ :: _, _ :: _, _, [] => by simp [extractItems, sameItems]
  | item :: rest, other :: others, alike, shape :: shapes => by
      have first : item.Alike other := (Bool.and_eq_true_iff.mp alike).1
      have later := alike_extractItems (Bool.and_eq_true_iff.mp alike).2 shapes
      unfold extractItems sameItems
      rw [later, Bool.and_true]
      -- only a mapping that faces a mapping is cut
      match item, other, first, shape with
      | .map _, .map _, first, .map ⟨_, entries⟩ =>
          exact Tree.alike_ofList (alike_extractEntries first entries)
      | .map _, .map _, first, .scalar _ => exact first
      | .map _, .map _, first, .seq _ => exact first
      | .scalar _, .scalar _, first, _ => exact first
      | .seq _, .seq _, first, _ => exact first
termination_by structural _ _ _ shapes => shapes

end

theorem Alike.scalar? {first second : Node} (alike : first.Alike second) :
    first.scalar? = second.scalar? := by
  match first, second, alike with
  | .scalar _, .scalar _, alike => exact congrArg some (beq_iff_eq.mp alike)
  | .map _, .map _, _ => rfl
  | .seq _, .seq _, _ => rfl

end Node

/-- Of trees that are the same a shape cuts out trees that are the same. -/
theorem Tree.alike_extract {first second : Tree} (alike : first.Alike second) (shape : Tree) :
    (first.extract shape).Alike (second.extract shape) :=
  alike_ofList (Node.alike_extractEntries alike shape.entries)

end TableScript
