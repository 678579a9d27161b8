import TableScript.Document.Basic
import TableScript.Proofs.Json.RoundTrip

/-!
# Documents through JSON text

No document is nested more than five deep, far less than a reader of JSON allows, so
the indented text of a document stands for its tree.
-/

namespace TableScript

namespace Node

theorem entriesHeight_le {keys : List String} {entries : Entries Node keys} {bound : Nat}
    (values : ∀ entry ∈ entries.toList, entry.2.height ≤ bound) :
    entriesHeight entries ≤ bound := by
  induction entries with
  | nil => exact Nat.zero_le bound
  | cons key value rest fresh ih =>
      have first : value.height ≤ bound := values (key, value) List.mem_cons_self
      have others := ih fun entry member => values entry (List.mem_cons_of_mem _ member)
      simp only [entriesHeight]
      omega

theorem itemsHeight_le {items : List Node} {bound : Nat}
    (each : ∀ item ∈ items, item.height ≤ bound) : itemsHeight items ≤ bound := by
  induction items with
  | nil => exact Nat.zero_le bound
  | cons item rest ih =>
      have first := each item List.mem_cons_self
      have others := ih fun item member => each item (List.mem_cons_of_mem _ member)
      simp only [itemsHeight]
      omega

theorem height_seq_le {items : List Node} {bound : Nat}
    (each : ∀ item ∈ items, item.height ≤ bound) : (seq items).height ≤ bound + 1 := by
  simp only [height]
  exact Nat.succ_le_succ (itemsHeight_le each)

theorem height_ofNames_le (names : List String) : (ofNames names).height ≤ 1 := by
  apply height_seq_le
  intro item member
  obtain ⟨name, _, rfl⟩ := List.mem_map.mp member
  exact Nat.le_refl 0

/-- A mapping is one higher than the highest of the values it is built from. -/
theorem height_map_ofList_le {pairs : List (String × Node)} {bound : Nat}
    (values : ∀ pair ∈ pairs, pair.2.height ≤ bound) :
    (map (OrderedMap.ofList pairs)).height ≤ bound + 1 := by
  have kept : ∀ entry ∈ (OrderedMap.ofList pairs).toList, entry.2.height ≤ bound := by
    intro entry member
    exact values entry (OrderedMap.mem_of_mem_toList_ofList member)
  generalize OrderedMap.ofList pairs = built at kept ⊢
  obtain ⟨keys, entries⟩ := built
  simp only [height]
  exact Nat.succ_le_succ (entriesHeight_le kept)

end Node

namespace Pairing

theorem height_fields_le (pairing : Pairing) :
    ∀ field ∈ pairing.fields, field.2.height ≤ 2 := by
  have keys : (Node.map (OrderedMap.ofList [("left", .ofNames pairing.leftKeys),
      ("right", .ofNames pairing.rightKeys)])).height ≤ 2 := by
    apply Node.height_map_ofList_le
    intro field member
    simp only [List.mem_cons, List.not_mem_nil, or_false] at member
    obtain same | same := member
    · subst same
      exact Node.height_ofNames_le pairing.leftKeys
    · subst same
      exact Node.height_ofNames_le pairing.rightKeys
  have columns : (Node.map (Tree.ofScalars
      (pairing.projections.map fun column => (column.source, column.target)))).height ≤ 1 := by
    apply Node.height_map_ofList_le
    intro pair member
    obtain ⟨_, _, rfl⟩ := List.mem_map.mp member
    exact Nat.le_refl 0
  intro field member
  unfold fields at member
  obtain same | later := List.mem_cons.mp member
  · subst same
    exact keys
  · split at later
    · cases later
    · rw [List.mem_singleton] at later
      subst later
      exact Nat.le_succ_of_le columns

end Pairing

namespace Action

theorem height_fields_le (action : Action) :
    ∀ field ∈ action.fields, field.2.height ≤ 2 := by
  have scalar : ∀ text : String, (Node.scalar text).height ≤ 2 := fun _ => Nat.zero_le 2
  have names : ∀ columns : List String, (Node.ofNames columns).height ≤ 2 :=
    fun columns => Nat.le_succ_of_le (Node.height_ofNames_le columns)
  have call : ∀ call : Call, (Node.map call.toTree).height ≤ 2 := by
    intro call
    apply Node.height_map_ofList_le
    simp [Node.height_ofNames_le, Node.height]
  cases action with
  | step it =>
      cases it with
      | join pairing => exact pairing.height_fields_le
      | inclusion pairing => exact pairing.height_fields_le
      | commit table columns =>
          cases columns <;> simp [fields, Step.fields, scalar, names]
      | accumulate column function result =>
          cases result <;> simp [fields, Step.fields, scalar, call]
      | _ => simp [fields, Step.fields, scalar]
  | invoke rule => simp [fields, scalar]
  | unrecognized name => simp [fields]

theorem height_toTree_le (action : Action) : (Node.map action.toTree).height ≤ 3 := by
  apply Node.height_map_ofList_le
  intro field member
  obtain same | later := List.mem_cons.mp member
  · subst same
    exact Nat.zero_le 2
  · exact action.height_fields_le field later

end Action

namespace Header

theorem height_toTree_le (header : Header) : (Node.map header.toTree).height ≤ 3 := by
  have expects : (Node.map header.expectsTree).height ≤ 2 := by
    apply Node.height_map_ofList_le
    intro pair member
    obtain ⟨entry, _, rfl⟩ := List.mem_map.mp member
    exact Node.height_ofNames_le entry.2
  have repositories : (Node.map header.repositoriesTree).height ≤ 1 := by
    apply Node.height_map_ofList_le
    intro pair member
    obtain ⟨entry, _, rfl⟩ := List.mem_map.mp member
    exact Nat.le_refl 0
  apply Node.height_map_ofList_le
  intro pair member
  obtain first | second := List.mem_append.mp member
  · split at first
    · cases first
    · rw [List.mem_singleton] at first
      subst first
      exact expects
  · split at second
    · cases second
    · rw [List.mem_singleton] at second
      subst second
      exact Nat.le_succ_of_le repositories

end Header

namespace Document

theorem height_toTree_le (document : Document) : document.toTree.height ≤ 5 := by
  apply Node.height_map_ofList_le
  intro pair member
  obtain first | second := List.mem_append.mp member
  · split at first
    · cases first
    · rw [List.mem_singleton] at first
      subst first
      exact Nat.le_succ_of_le document.header.height_toTree_le
  · split at second
    · cases second
    · rw [List.mem_singleton] at second
      subst second
      apply Node.height_seq_le
      intro item member
      obtain ⟨action, _, rfl⟩ := List.mem_map.mp member
      exact action.height_toTree_le

/-- The indented JSON text of a document stands for its tree. -/
theorem parseJson_pretty (document : Document) :
    parseJson document.toJson.pretty = ofTree document.toTree := by
  have room : document.toTree.height ≤ Json.maxDepth :=
    Nat.le_trans document.height_toTree_le (by decide)
  unfold parseJson toJson
  rw [Tree.parse?_pretty room]
  simp only [ofJson, Tree.ofJson_toJson]
  rfl

end Document

end TableScript
