import TableScript.Proofs.Tree.Nesting
import TableScript.Tree.Basic

/-!
# The theory of merging trees

What a tree holds after another one was laid over it.  A text and a list of names
take the place of whatever stood there; a mapping is laid over the mapping in its
place key by key, and over anything else as over a mapping without entries.
-/

namespace TableScript

namespace Node

def treeOf : Option Node → Tree
  | some (.map tree) => tree
  | _ => .empty

theorem mergeOnto_none (node : Node) : node.mergeOnto none = node := by
  cases node with
  | scalar text => rfl
  | map tree =>
      cases tree
      rfl
  | seq items => rfl

theorem mergeEntries_eq (dest : Tree) {keys : List String} (entries : Entries Node keys) :
    mergeEntries dest entries =
      entries.toList.map fun entry => (entry.1, entry.2.mergeOnto (dest.get? entry.1)) := by
  induction entries with
  | nil => rfl
  | cons key value rest fresh ih =>
      unfold mergeEntries
      rw [ih]
      rfl

end Node

namespace Tree

theorem merge_eq (dest src : Tree) :
    dest.merge src = dest.insertAll
      (src.toList.map fun entry => (entry.1, entry.2.mergeOnto (dest.get? entry.1))) := by
  unfold merge
  rw [Node.mergeEntries_eq]
  rfl

/-- Every value of the upper tree is laid over its counterpart in the lower one. -/
theorem get?_merge (dest src : Tree) (key : String) :
    (dest.merge src).get? key =
      match src.get? key with
      | some node => some (node.mergeOnto (dest.get? key))
      | none => dest.get? key := by
  have distinct : ((src.toList.map fun entry =>
      (entry.1, entry.2.mergeOnto (dest.get? entry.1))).map Prod.fst).Nodup := by
    rw [List.map_map]
    exact src.toList_nodup
  rw [merge_eq, OrderedMap.get?_insertAll, Lookup.reverse_eq distinct,
    Lookup.map_eq fun name node => Node.mergeOnto (dest.get? name) node]
  unfold OrderedMap.get?
  cases src.toList.lookup key with
  | none => rfl
  | some node => rfl

/-- The keys of the lower tree keep their places, and the other keys of the upper tree follow
them. -/
theorem keys_merge (dest src : Tree) :
    (dest.merge src).keys = dest.keys ++ src.keys.filter (· ∉ dest.keys) := by
  have names : (src.toList.map fun entry =>
      (entry.1, entry.2.mergeOnto (dest.get? entry.1))).map Prod.fst = src.keys := by
    rw [List.map_map]
    exact src.map_fst_toList
  rw [merge_eq, OrderedMap.keys_insertAll_of_nodup _ (by rw [names]; exact src.entries.keys_nodup),
    names]

theorem mem_keys_merge {dest src : Tree} {key : String} :
    key ∈ (dest.merge src).keys ↔ key ∈ dest.keys ∨ key ∈ src.keys := by
  rw [keys_merge, List.mem_append, List.mem_filter, decide_eq_true_iff]
  by_cases below : key ∈ dest.keys
  · simp [below]
  · simp [below]

theorem get?_merge_of_some {dest src : Tree} {key : String} {node : Node}
    (found : src.get? key = some node) :
    (dest.merge src).get? key = some (node.mergeOnto (dest.get? key)) := by
  rw [get?_merge, found]

theorem get?_merge_of_none {dest src : Tree} {key : String} (absent : src.get? key = none) :
    (dest.merge src).get? key = dest.get? key := by
  rw [get?_merge, absent]

theorem empty_merge (src : Tree) : merge .empty src = src := by
  have same : (src.toList.map fun entry =>
      (entry.1, entry.2.mergeOnto (OrderedMap.empty.get? entry.1))) = src.toList := by
    have each : ∀ entry ∈ src.toList,
        (entry.1, entry.2.mergeOnto (OrderedMap.empty.get? entry.1)) = entry := by
      intro entry _
      rw [OrderedMap.get?_empty, Node.mergeOnto_none]
    exact (List.map_congr_left each).trans (List.map_id _)
  rw [merge_eq, same]
  exact OrderedMap.ofList_toList src

/-- Entries that take the place of whatever stood there are inserted as they are. -/
theorem merge_ofList {entries : List (String × Node)}
    (distinct : (entries.map Prod.fst).Nodup)
    (leaves : ∀ entry ∈ entries, ∀ dest, entry.2.mergeOnto dest = entry.2) (tree : Tree) :
    tree.merge (OrderedMap.ofList entries) = tree.insertAll entries := by
  have same : (entries.map fun entry => (entry.1, entry.2.mergeOnto (tree.get? entry.1))) =
      entries := by
    have each : ∀ entry ∈ entries,
        (entry.1, entry.2.mergeOnto (tree.get? entry.1)) = entry := by
      intro entry member
      rw [leaves entry member]
    exact (List.map_congr_left each).trans (List.map_id _)
  rw [merge_eq, OrderedMap.toList_ofList_of_nodup distinct, same]

theorem merge_singleton (tree : Tree) (key : String) (node : Node) :
    tree.merge (OrderedMap.ofList [(key, node)]) =
      tree.insert key (node.mergeOnto (tree.get? key)) := rfl

end Tree

namespace Node

/-- A mapping is laid over the mapping in its place. -/
theorem mergeOnto_map (src : Tree) (dest : Option Node) :
    (Node.map src).mergeOnto dest = .map ((treeOf dest).merge src) := by
  have alone : Node.map src = .map (Tree.merge .empty src) := by rw [Tree.empty_merge]
  match dest with
  | some (.map _) => rfl
  | none => exact alone
  | some (.scalar _) => exact alone
  | some (.seq _) => exact alone

/-- A mapping with a single entry is laid over the entries that stand in its place. -/
theorem mergeOnto_singleton (key : String) (node : Node) (dest : Option Node) :
    (Node.map (OrderedMap.ofList [(key, node)])).mergeOnto dest =
      .map ((treeOf dest).insert key (node.mergeOnto ((treeOf dest).get? key))) := by
  rw [mergeOnto_map, Tree.merge_singleton]

/-! ## Sequences -/

theorem mergeItems_scalars (existing : List Node) (names : List String) :
    mergeItems existing (names.map .scalar) = names.map .scalar := by
  induction names generalizing existing with
  | nil => rfl
  | cons name rest ih =>
      have laid : mergeItems existing (.scalar name :: rest.map .scalar) =
          .scalar name :: mergeItems existing.tail (rest.map .scalar) := by
        cases existing with
        | nil => rfl
        | cons item others => cases item <;> rfl
      rw [List.map_cons, laid, ih]

/-- Names take the place of whatever stood there. -/
theorem mergeOnto_ofNames (names : List String) (dest : Option Node) :
    (ofNames names).mergeOnto dest = ofNames names := by
  unfold ofNames
  match dest with
  | some (.seq existing) => exact congrArg Node.seq (mergeItems_scalars existing names)
  | none => rfl
  | some (.scalar _) => rfl
  | some (.map _) => rfl

theorem mergeItems_nil (items : List Node) : mergeItems [] items = items := by
  induction items with
  | nil => rfl
  | cons item rest ih => exact congrArg (item :: ·) ih

/-- A mapping in a sequence is laid over the mapping in the same position. -/
theorem mergeItems_map_cons (existing : List Node) (src : Tree) (rest : List Node) :
    mergeItems existing (.map src :: rest) =
      .map ((treeOf existing.head?).merge src) :: mergeItems existing.tail rest := by
  have alone : Node.map src = .map (Tree.merge .empty src) := by rw [Tree.empty_merge]
  cases existing with
  | nil => exact congrArg (· :: mergeItems [] rest) alone
  | cons item others =>
      cases item with
      | map tree => rfl
      | scalar text => exact congrArg (· :: mergeItems others rest) alone
      | seq items => exact congrArg (· :: mergeItems others rest) alone

end Node

namespace Tree

variable {dest src : Tree} {key : String}

theorem get?_merge_of_scalar {text : String} (found : src.get? key = some (.scalar text)) :
    (dest.merge src).get? key = some (.scalar text) := get?_merge_of_some found

theorem get?_merge_of_names {names : List String} (found : src.get? key = some (.ofNames names)) :
    (dest.merge src).get? key = some (.ofNames names) := by
  rw [get?_merge_of_some found, Node.mergeOnto_ofNames]

theorem get?_merge_of_map {fields : Tree} (found : src.get? key = some (.map fields)) :
    (dest.merge src).get? key = some (.map ((Node.treeOf (dest.get? key)).merge fields)) := by
  rw [get?_merge_of_some found, Node.mergeOnto_map]

end Tree

/-! ## Nested mappings -/

namespace Node

/-- The mapping at a slot of a value, without entries if there is none. -/
def treeAt (value : Option Node) (slot : Slot) : Tree :=
  (value.bind fun node => node.inner? slot).getD .empty

theorem treeAt_of_inner? {node : Node} {slot : Slot} {inner : Tree}
    (found : node.inner? slot = some inner) : treeAt (some node) slot = inner := by
  rw [treeAt, Option.bind_some, found, Option.getD_some]

theorem treeAt_whole (value : Option Node) : treeAt value .whole = treeOf value := by
  match value with
  | none => rfl
  | some (.scalar _) => rfl
  | some (.map _) => rfl
  | some (.seq _) => rfl

theorem treeAt_item (items : List Node) (index : Nat) :
    treeAt (some (.seq items)) (.item index) = treeOf items[index]? :=
  treeAt_whole items[index]?

/-- Of the items of a sequence only a mapping is laid over the item in its position. -/
theorem mergeItems_cons (existing : List Node) (item : Node) (rest : List Node) :
    mergeItems existing (item :: rest) =
      item.mapWhole (treeOf existing.head?).merge :: mergeItems existing.tail rest := by
  match item, existing with
  | .map tree, existing => exact mergeItems_map_cons existing tree rest
  | .scalar _, [] => rfl
  | .scalar _, .scalar _ :: _ => rfl
  | .scalar _, .map _ :: _ => rfl
  | .scalar _, .seq _ :: _ => rfl
  | .seq _, [] => rfl
  | .seq _, .scalar _ :: _ => rfl
  | .seq _, .map _ :: _ => rfl
  | .seq _, .seq _ :: _ => rfl

theorem mergeItems_eq_mapIdx (existing items : List Node) :
    mergeItems existing items =
      items.mapIdx fun index item => item.mapWhole (treeOf existing[index]?).merge := by
  induction items generalizing existing with
  | nil => rfl
  | cons item rest ih =>
      rw [mergeItems_cons, ih, List.mapIdx_cons, List.head?_eq_getElem?]
      simp only [List.getElem?_tail]

/-- A value is laid over another one by laying each mapping in it over the mapping at the
same slot. -/
theorem mergeOnto_eq_mapInner (node : Node) (dest : Option Node) :
    node.mergeOnto dest = node.mapInner fun slot tree => (treeAt dest slot).merge tree := by
  have alone : ∀ items : List Node,
      seq items = (seq items).mapInner fun _ tree => Tree.merge .empty tree := by
    intro items
    simp only [Tree.empty_merge, mapInner_id]
  cases node with
  | scalar text => rfl
  | map tree =>
      rw [mergeOnto_map, ← treeAt_whole]
      rfl
  | seq items =>
      match dest with
      | none => exact alone items
      | some (.scalar _) => exact alone items
      | some (.map _) => exact alone items
      | some (.seq existing) =>
          change seq (mergeItems existing items) = _
          simp only [mergeItems_eq_mapIdx, ← treeAt_item]
          rfl

theorem inner?_mergeOnto (node : Node) (dest : Option Node) (slot : Slot) :
    (node.mergeOnto dest).inner? slot = (node.inner? slot).map (treeAt dest slot).merge := by
  rw [mergeOnto_eq_mapInner, inner?_mapInner]

theorem treeAt_mergeOnto {node : Node} {slot : Slot} {inner : Tree}
    (found : node.inner? slot = some inner) (dest : Option Node) :
    treeAt (some (node.mergeOnto dest)) slot = (treeAt dest slot).merge inner := by
  apply treeAt_of_inner?
  rw [inner?_mergeOnto, found, Option.map_some]

end Node

namespace Tree

/-- A mapping in a value of the upper tree is laid over the mapping at the same slot; the
mappings in a value of the lower tree remain if the upper tree has no value for its key. -/
theorem innerAt?_merge (dest src : Tree) (turn : String × Slot) :
    (dest.merge src).innerAt? turn =
      if turn.1 ∈ src.keys then
        (src.innerAt? turn).map ((dest.innerAt? turn).getD .empty).merge
      else dest.innerAt? turn := by
  obtain ⟨key, slot⟩ := turn
  cases found : src.get? key with
  | none =>
      rw [if_neg (OrderedMap.get?_eq_none_iff.mp found), innerAt?, get?_merge_of_none found]
      rfl
  | some node =>
      rw [if_pos (OrderedMap.mem_keys_iff.mpr ⟨node, found⟩), innerAt?,
        get?_merge_of_some found, Option.bind_some, Node.inner?_mergeOnto,
        innerAt?_of_get? found]
      rfl

theorem innerAt?_merge_of_some (dest : Tree) {src above : Tree} {turn : String × Slot}
    (found : src.innerAt? turn = some above) :
    (dest.merge src).innerAt? turn = some (((dest.innerAt? turn).getD .empty).merge above) := by
  rw [innerAt?_merge, if_pos (mem_keys_of_innerAt? found), found, Option.map_some]

/-- Mappings at the same site of two trees are laid over one another. -/
theorem nested?_merge {dest src : Tree} {site : Site} {below above : Tree}
    (lower : dest.nested? site = some below) (upper : src.nested? site = some above) :
    (dest.merge src).nested? site = some (below.merge above) := by
  induction site generalizing dest src with
  | nil =>
      cases lower
      cases upper
      rfl
  | cons turn rest ih =>
      obtain ⟨dest', first, lower⟩ := Option.bind_eq_some_iff.mp lower
      obtain ⟨src', second, upper⟩ := Option.bind_eq_some_iff.mp upper
      rw [nested?, innerAt?_merge_of_some dest second, first]
      exact ih lower upper

end Tree

/-! ## Sections -/

def sectionOf (entries : List (String × Node)) : Option Node :=
  if entries.isEmpty then none else some (.map (OrderedMap.ofList entries))

theorem treeOf_sectionOf (entries : List (String × Node)) :
    Node.treeOf (sectionOf entries) = OrderedMap.ofList entries := by
  cases entries with
  | nil => rfl
  | cons entry rest => rfl

theorem sectionOf_append_singleton (entries : List (String × Node)) (key : String) (node : Node) :
    sectionOf (entries ++ [(key, node)]) =
      some (.map ((Node.treeOf (sectionOf entries)).insert key node)) := by
  have filled : (entries ++ [(key, node)]).isEmpty = false := by simp
  unfold sectionOf
  rw [filled, ← sectionOf, treeOf_sectionOf]
  unfold OrderedMap.ofList
  rw [OrderedMap.insertAll_append_singleton]
  rfl

/-- A section of values that take the place of whatever stood there is laid over
another section: its entries follow the entries below. -/
theorem Tree.get?_merge_section {dest src : Tree} {key : String}
    {earlier entries : List (String × Node)} (below : dest.get? key = sectionOf earlier)
    (above : src.get? key = sectionOf entries) (distinct : (entries.map Prod.fst).Nodup)
    (leaves : ∀ entry ∈ entries, ∀ dest, entry.2.mergeOnto dest = entry.2) :
    (dest.merge src).get? key = sectionOf (earlier ++ entries) := by
  cases entries with
  | nil =>
      rw [get?_merge_of_none above, below, List.append_nil]
  | cons entry rest =>
      have filled : (earlier ++ entry :: rest).isEmpty = false := by simp
      rw [get?_merge_of_some above, below, Node.mergeOnto_map, treeOf_sectionOf,
        merge_ofList distinct leaves]
      unfold sectionOf OrderedMap.ofList OrderedMap.insertAll
      rw [filled, List.foldl_append]
      rfl

end TableScript
