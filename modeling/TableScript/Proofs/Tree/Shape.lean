import Mathlib.Data.List.Nodup
import TableScript.Proofs.Tree.Nesting
import TableScript.Tree.Shape

/-!
# The theory of cutting trees to a shape

What is left of a tree: the keys of the shape that the tree has, in the order of the
shape, each with what its value keeps of itself by the value in the shape.
-/

namespace TableScript

namespace Node

theorem extractEntries_eq (doc : Tree) {keys : List String} (shapes : Entries Node keys) :
    extractEntries doc shapes = shapes.toList.filterMap fun entry =>
      (doc.get? entry.1).map fun value => (entry.1, value.extract entry.2) := by
  induction shapes with
  | nil => rfl
  | cons key shape rest _ ih =>
      simp only [extractEntries, Entries.toList, List.filterMap_cons, ih]
      cases doc.get? key with
      | none => rfl
      | some value => rfl

theorem map_fst_extractEntries (doc : Tree) {keys : List String} (shapes : Entries Node keys) :
    (extractEntries doc shapes).map Prod.fst = keys.filter (· ∈ doc.keys) := by
  induction shapes with
  | nil => rfl
  | cons key shape rest _ ih =>
      unfold extractEntries
      cases found : doc.get? key with
      | none =>
          have absent : key ∉ doc.keys := OrderedMap.get?_eq_none_iff.mp found
          simp [absent, ih]
      | some value =>
          have present : key ∈ doc.keys := OrderedMap.mem_keys_iff.mpr ⟨value, found⟩
          simp [present, ih]

theorem nodup_extractEntries (doc : Tree) {keys : List String} (shapes : Entries Node keys) :
    ((extractEntries doc shapes).map Prod.fst).Nodup := by
  rw [map_fst_extractEntries]
  exact shapes.keys_nodup.filter _

/-- An item of a sequence that is cut: only a mapping that faces a mapping loses anything. -/
def cut : Node → Node → Node
  | .map tree, .map shape => .map (Tree.extract tree shape)
  | item, _ => item

theorem extractItems_eq (items shapes : List Node) :
    extractItems items shapes = List.zipWith cut items shapes := by
  induction items generalizing shapes with
  | nil =>
      unfold extractItems
      rfl
  | cons item rest ih =>
      cases shapes with
      | nil => rfl
      | cons shape others =>
          unfold extractItems
          rw [ih, List.zipWith_cons_cons]
          cases item with
          | map tree => cases shape <;> rfl
          | scalar text => rfl
          | seq items => rfl

theorem extract_seq (items shapes : List Node) :
    (Node.seq items).extract (.seq shapes) = .seq (List.zipWith cut items shapes) :=
  congrArg seq (extractItems_eq items shapes)

theorem scalar_extract (text : String) (shape : Node) :
    (Node.scalar text).extract shape = .scalar text := by
  cases shape with
  | scalar other => rfl
  | map tree => rfl
  | seq items => rfl

end Node

namespace Tree

theorem toList_extract (doc shape : Tree) :
    (doc.extract shape).toList = shape.toList.filterMap fun entry =>
      (doc.get? entry.1).map fun value => (entry.1, value.extract entry.2) := by
  rw [extract, OrderedMap.toList_ofList_of_nodup (Node.nodup_extractEntries doc shape.entries),
    Node.extractEntries_eq]
  rfl

/-- The keys of the shape that the tree has are left, in the order of the shape. -/
theorem keys_extract (doc shape : Tree) :
    (doc.extract shape).keys = shape.keys.filter (· ∈ doc.keys) := by
  rw [← OrderedMap.map_fst_toList, extract,
    OrderedMap.toList_ofList_of_nodup (Node.nodup_extractEntries doc shape.entries),
    Node.map_fst_extractEntries]

/-- A value is left under the keys that both trees have. -/
theorem get?_extract (doc shape : Tree) (key : String) :
    (doc.extract shape).get? key = (shape.get? key).bind fun counterpart =>
      (doc.get? key).map fun value => value.extract counterpart := by
  apply Option.ext
  intro left
  rw [OrderedMap.get?_eq_some_iff, toList_extract, List.mem_filterMap]
  simp only [Option.bind_eq_some_iff, Option.map_eq_some_iff, Prod.mk.injEq]
  constructor
  · rintro ⟨⟨_, counterpart⟩, member, value, found, rfl, rfl⟩
    exact ⟨counterpart, OrderedMap.get?_eq_some_iff.mpr member, value, found, rfl⟩
  · rintro ⟨counterpart, listed, value, found, rfl⟩
    exact ⟨(key, counterpart), OrderedMap.get?_eq_some_iff.mp listed, value, found, rfl, rfl⟩

theorem empty_extract (shape : Tree) : extract .empty shape = .empty := by
  apply OrderedMap.ext_toList
  rw [toList_extract]
  exact List.filterMap_eq_nil_iff.mpr fun _ _ => rfl

end Tree

/-! ## Cutting twice -/

theorem Node.extract_extract {shape : Node}
    (nested : ∀ slot inner, shape.inner? slot = some inner →
      ∀ doc : Tree, (doc.extract inner).extract inner = doc.extract inner) (value : Node) :
    (value.extract shape).extract shape = value.extract shape := by
  cases value with
  | scalar text => rw [scalar_extract, scalar_extract]
  | map tree =>
      cases shape with
      | scalar text => rfl
      | seq shapes => rfl
      | map shape => exact congrArg map (nested .whole shape rfl tree)
  | seq items =>
      cases shape with
      | scalar text => rfl
      | map shape => rfl
      | seq shapes =>
          rw [extract_seq, extract_seq]
          apply congrArg seq
          apply List.ext_getElem?
          intro index
          have again := nested (.item index)
          change ∀ inner, (shapes[index]?.bind map?) = some inner → _ at again
          rw [List.getElem?_zipWith, List.getElem?_zipWith]
          match items[index]?, shapes[index]?, again with
          | none, _, _ => rfl
          | some _, none, _ => rfl
          | some (.map tree), some (.map shape), again =>
              exact congrArg some (congrArg map (again shape rfl tree))
          | some (.map _), some (.scalar _), _ => rfl
          | some (.map _), some (.seq _), _ => rfl
          | some (.scalar _), some _, _ => rfl
          | some (.seq _), some _, _ => rfl

/-- To cut a tree to the same shape again changes nothing. -/
theorem Tree.extract_extract (doc shape : Tree) :
    (doc.extract shape).extract shape = doc.extract shape := by
  induction shape using nested_induction generalizing doc with
  | nested shape ih =>
      apply OrderedMap.ext_keys_get?
      · rw [keys_extract, keys_extract]
        apply List.filter_congr
        intro key member
        simp [member]
      · intro key _
        rw [get?_extract, get?_extract]
        cases found : shape.get? key with
        | none => rfl
        | some counterpart =>
            cases doc.get? key with
            | none => rfl
            | some value =>
                exact congrArg some (Node.extract_extract (ih key counterpart found) value)

end TableScript
