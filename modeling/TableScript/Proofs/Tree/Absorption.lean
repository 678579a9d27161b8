import TableScript.Proofs.Tree.Merge
import TableScript.Proofs.Tree.Shape

/-!
# Merging twice and cutting back

Laying a tree over another one loses nothing of it: it is cut out again by its own shape,
and to lay it over the result once more changes nothing.  Both are proved from the mappings
in its values, since merging and cutting change a value at its slots only.
-/

namespace TableScript

namespace Node

variable {node : Node}

/-- A value with other mappings at its slots is cut, by its own shape, at these slots. -/
theorem extract_mapInner (change : Slot → Tree → Tree) (node : Node) :
    (node.mapInner change).extract node =
      node.mapInner fun slot tree => (change slot tree).extract tree := by
  cases node with
  | scalar text => rfl
  | map tree => rfl
  | seq items =>
      refine (extract_seq _ items).trans (congrArg seq ?_)
      apply List.ext_getElem?
      intro index
      rw [List.getElem?_zipWith, List.getElem?_mapIdx, List.getElem?_mapIdx]
      match items[index]? with
      | none => rfl
      | some (.scalar _) => rfl
      | some (.map _) => rfl
      | some (.seq _) => rfl

theorem extract_mergeOnto
    (nested : ∀ slot inner, node.inner? slot = some inner →
      ∀ below : Tree, (below.merge inner).extract inner = inner) (dest : Option Node) :
    (node.mergeOnto dest).extract node = node := by
  rw [mergeOnto_eq_mapInner, extract_mapInner]
  apply mapInner_eq_self
  intro slot inner found
  exact nested slot inner found (treeAt dest slot)

theorem mergeOnto_mergeOnto
    (nested : ∀ slot inner, node.inner? slot = some inner →
      ∀ below : Tree, (below.merge inner).merge inner = below.merge inner) (dest : Option Node) :
    node.mergeOnto (some (node.mergeOnto dest)) = node.mergeOnto dest := by
  rw [mergeOnto_eq_mapInner node (some _)]
  conv_rhs => rw [mergeOnto_eq_mapInner]
  apply mapInner_congr
  intro slot inner found
  rw [treeAt_mergeOnto found]
  exact nested slot inner found (treeAt dest slot)

end Node

namespace Tree

/-- A tree that was laid over another one is cut out again by its own shape. -/
theorem extract_merge (dest src : Tree) : (dest.merge src).extract src = src := by
  induction src using nested_induction generalizing dest with
  | nested src ih =>
      apply OrderedMap.ext_keys_get?
      · rw [keys_extract, List.filter_eq_self]
        intro key member
        exact decide_eq_true (mem_keys_merge.mpr (.inr member))
      · intro key _
        rw [get?_extract, get?_merge]
        cases found : src.get? key with
        | none => rfl
        | some node =>
            exact congrArg some (Node.extract_mergeOnto (ih key node found) (dest.get? key))

/-- To lay a tree over the same one again changes nothing. -/
theorem merge_merge_self (dest src : Tree) : (dest.merge src).merge src = dest.merge src := by
  induction src using nested_induction generalizing dest with
  | nested src ih =>
      apply OrderedMap.ext_keys_get?
      · have nothing : src.keys.filter (· ∉ (dest.merge src).keys) = [] := by
          rw [List.filter_eq_nil_iff]
          intro key member
          simp [mem_keys_merge, member]
        rw [keys_merge (dest.merge src), nothing, List.append_nil]
      · intro key _
        rw [get?_merge (dest.merge src), get?_merge dest]
        cases found : src.get? key with
        | none => rfl
        | some node =>
            exact congrArg some (Node.mergeOnto_mergeOnto (ih key node found) (dest.get? key))

theorem merge_self (tree : Tree) : tree.merge tree = tree := by
  have again := merge_merge_self .empty tree
  rwa [empty_merge] at again

/-- What was laid over a tree can be cut out again, and laid over it again without effect, with
every key in its place.  The keys of the lower tree stand first and the other keys of the
upper one follow them; so they do at every site at which both trees have a mapping, where
these two mappings are laid over one another in the same way. -/
theorem merge_absorbs_and_gives_back (dest src : Tree) :
    (dest.merge src).extract src = src ∧
    (dest.merge src).merge src = dest.merge src ∧
    src.merge src = src ∧
    (dest.merge src).keys = dest.keys ++ src.keys.filter (· ∉ dest.keys) ∧
    ∀ (site : Site) (below above : Tree), dest.nested? site = some below →
      src.nested? site = some above →
        (dest.merge src).nested? site = some (below.merge above) ∧
        (below.merge above).keys = below.keys ++ above.keys.filter (· ∉ below.keys) := by
  refine ⟨extract_merge dest src, merge_merge_self dest src, merge_self src,
    keys_merge dest src, ?_⟩
  intro site below above lower upper
  exact ⟨nested?_merge lower upper, keys_merge below above⟩

/-- A record of a sequence is laid over the record in its position, whose keys stay in front. -/
theorem record_merges_in_position :
    let dest : Tree := .ofList
      [("l", .seq [.map (ofScalars [("p", "1"), ("q", "2")]), .scalar "s"]), ("k", .scalar "t")]
    let src : Tree := .ofList
      [("m", .scalar "u"), ("l", .seq [.map (ofScalars [("r", "3"), ("p", "4")])])]
    (dest.merge src).extract src = src ∧
      (dest.merge src).keys = ["l", "k", "m"] ∧
      (dest.merge src).nested? [("l", .item 0)] =
        some (ofScalars [("p", "4"), ("q", "2"), ("r", "3")]) := by
  intro dest src
  obtain ⟨cut, _, _, keys, sites⟩ := merge_absorbs_and_gives_back dest src
  exact ⟨cut, keys, (sites [("l", .item 0)] _ _ rfl rfl).1⟩

end Tree

end TableScript
