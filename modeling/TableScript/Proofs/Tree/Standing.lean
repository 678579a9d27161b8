import TableScript.Proofs.Tree.Absorption

/-!
# Nodes that stand in others

One node stands in another if it changes nothing when it is laid over it.  Then whatever is
found in the one by a way through keys and positions is found in the other by the same way:
a text is the same text, a mapping has all its keys, and a sequence is of the same length.
-/

namespace TableScript

namespace Node

/-- That a node changes nothing when it is laid over another one. -/
def StandsIn (node other : Node) : Prop := node.mergeOnto (some other) = other

theorem standsIn_refl (node : Node) : node.StandsIn node := by
  cases node with
  | scalar text => rfl
  | map tree => exact (mergeOnto_map tree _).trans (congrArg map (Tree.merge_self tree))
  | seq items =>
      refine congrArg seq ((mergeItems_eq_mapIdx items items).trans ?_)
      apply List.ext_getElem?
      intro index
      rw [List.getElem?_mapIdx]
      cases items[index]? with
      | none => rfl
      | some item =>
          cases item with
          | scalar text => rfl
          | map tree => exact congrArg (fun tree => some (map tree)) (Tree.merge_self tree)
          | seq items => rfl

theorem scalar_standsIn_iff {text : String} {other : Node} :
    (scalar text).StandsIn other ↔ other = scalar text := eq_comm

/-- A mapping stands only in a mapping. -/
theorem map_standsIn_iff {part : Tree} {other : Node} :
    (map part).StandsIn other ↔ ∃ whole : Tree, other = map whole ∧ whole.merge part = whole := by
  unfold StandsIn
  rw [mergeOnto_map]
  constructor
  · intro same
    cases other with
    | map whole => exact ⟨whole, rfl, map.inj same⟩
    | _ => cases same
  · rintro ⟨whole, rfl, same⟩
    exact congrArg map same

/-- A sequence stands only in a sequence of its length, every item of it in the item at the
same position. -/
theorem exists_of_seq_standsIn {items : List Node} {other : Node}
    (stands : (seq items).StandsIn other) :
    ∃ others, other = seq others ∧ items.length = others.length ∧
      ∀ (index : Nat) (item : Node), items[index]? = some item →
        ∃ counterpart, others[index]? = some counterpart ∧ item.StandsIn counterpart := by
  unfold StandsIn at stands
  cases other with
  | seq others =>
      have same : items.mapIdx (fun index item => item.mapWhole (treeOf others[index]?).merge) =
          others := (mergeItems_eq_mapIdx others items).symm.trans (seq.inj stands)
      have length : items.length = others.length :=
        List.length_mapIdx.symm.trans (congrArg List.length same)
      refine ⟨others, rfl, length, ?_⟩
      intro index item here
      have there := congrArg (fun list => list[index]?) same
      simp only [List.getElem?_mapIdx, here, Option.map_some] at there
      refine ⟨_, there.symm, ?_⟩
      -- only a mapping is laid over the item in its position, other items take its place
      cases item with
      | scalar text => rfl
      | map tree =>
          rw [mapWhole, map_standsIn_iff]
          exact ⟨_, rfl, Tree.merge_merge_self _ tree⟩
      | seq inner => exact standsIn_refl (seq inner)
  | scalar text => cases stands
  | map tree => cases stands

end Node

namespace Tree

variable {tree part : Tree} {key : String} {node : Node}

def Carries (tree : Tree) (key : String) (node : Node) : Prop :=
  ∃ other, tree.get? key = some other ∧ node.StandsIn other

theorem carries_of_get? (found : tree.get? key = some node) : tree.Carries key node :=
  ⟨node, found, node.standsIn_refl⟩

theorem carries_map {whole : Tree} (found : tree.get? key = some (.map whole))
    (absorbed : whole.merge part = whole) : tree.Carries key (.map part) :=
  ⟨.map whole, found, Node.map_standsIn_iff.mpr ⟨whole, rfl, absorbed⟩⟩

/-- A tree changes nothing over another one exactly if that one carries all its values. -/
theorem merge_eq_self_iff :
    tree.merge part = tree ↔ ∀ key node, part.get? key = some node → tree.Carries key node := by
  constructor
  · intro same key node found
    have laid := @get?_merge_of_some tree part key node found
    rw [same] at laid
    refine ⟨_, laid, ?_⟩
    unfold Node.StandsIn
    rw [← laid]
  · intro carries
    have known : part.keys.filter (· ∉ tree.keys) = [] := by
      rw [List.filter_eq_nil_iff]
      intro key member
      obtain ⟨node, found⟩ := OrderedMap.mem_keys_iff.mp member
      obtain ⟨other, present, _⟩ := carries key node found
      simpa using OrderedMap.mem_keys_iff.mpr ⟨other, present⟩
    apply OrderedMap.ext_keys_get?
    · rw [keys_merge, known, List.append_nil]
    · intro key _
      cases found : part.get? key with
      | none => exact get?_merge_of_none found
      | some node =>
          obtain ⟨other, present, same⟩ := carries key node found
          rw [get?_merge_of_some found, present]
          exact congrArg some same

/-- A tree that is put together from entries changes nothing over one that carries them. -/
theorem merge_ofList_eq_self {entries : List (String × Node)}
    (carries : ∀ entry ∈ entries, tree.Carries entry.1 entry.2) :
    tree.merge (OrderedMap.ofList entries) = tree := by
  rw [merge_eq_self_iff]
  intro key node found
  have held := OrderedMap.get?_eq_some_iff.mp found
  exact carries (key, node) (OrderedMap.mem_of_mem_toList_ofList held)

end Tree

/-! ## Places -/

inductive Turn where
  | key (name : String)
  | item (index : Nat)

/-- A way into a node, through the values of keys and the items of sequences. -/
abbrev Place := List Turn

namespace Node

def at? : Node → Place → Option Node
  | node, [] => some node
  | .map tree, .key name :: rest => (tree.get? name).bind fun inner => inner.at? rest
  | .seq items, .item index :: rest => items[index]?.bind fun inner => inner.at? rest
  | _, _ => none

/-- That another node has what a node has at its own level: the text, the keys, or the number
of items. -/
def Outlines : Node → Node → Prop
  | .scalar text, other => other = .scalar text
  | .map part, other => ∃ whole : Tree, other = .map whole ∧ part.keys ⊆ whole.keys
  | .seq items, other => ∃ others, other = .seq others ∧ items.length = others.length

theorem StandsIn.outlines {node other : Node} (stands : node.StandsIn other) :
    node.Outlines other := by
  cases node with
  | scalar text => exact scalar_standsIn_iff.mp stands
  | map part =>
      obtain ⟨whole, same, absorbed⟩ := map_standsIn_iff.mp stands
      refine ⟨whole, same, ?_⟩
      intro key member
      rw [← absorbed]
      exact Tree.mem_keys_merge.mpr (.inr member)
  | seq items =>
      obtain ⟨others, same, length, _⟩ := exists_of_seq_standsIn stands
      exact ⟨others, same, length⟩

/-- Whatever is in a node stands in what is at the same place of a node that it stands in. -/
theorem StandsIn.at? {node other inner : Node} {place : Place} (stands : node.StandsIn other)
    (found : node.at? place = some inner) :
    ∃ counterpart, other.at? place = some counterpart ∧ inner.StandsIn counterpart := by
  induction place generalizing node other with
  | nil =>
      cases found
      exact ⟨other, rfl, stands⟩
  | cons turn rest ih =>
      match node, turn with
      | .map part, .key name =>
          obtain ⟨node, here, found⟩ := Option.bind_eq_some_iff.mp found
          obtain ⟨whole, rfl, absorbed⟩ := map_standsIn_iff.mp stands
          obtain ⟨next, there, stands⟩ := Tree.merge_eq_self_iff.mp absorbed name node here
          obtain ⟨counterpart, reached, same⟩ := ih stands found
          exact ⟨counterpart, Option.bind_eq_some_iff.mpr ⟨next, there, reached⟩, same⟩
      | .seq items, .item index =>
          obtain ⟨node, here, found⟩ := Option.bind_eq_some_iff.mp found
          obtain ⟨others, rfl, _, each⟩ := exists_of_seq_standsIn stands
          obtain ⟨next, there, stands⟩ := each index node here
          obtain ⟨counterpart, reached, same⟩ := ih stands found
          exact ⟨counterpart, Option.bind_eq_some_iff.mpr ⟨next, there, reached⟩, same⟩

end Node

end TableScript
