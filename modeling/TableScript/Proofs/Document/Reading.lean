import TableScript.Proofs.Document.Faithful
import TableScript.Proofs.Tree.Standing

/-!
# Documents in the trees that they were read from

Reading passes over what it does not know, but it makes nothing up: the tree of a document
stands in every tree that the document was read from.
-/

namespace TableScript

namespace Tree

variable {tree : Tree} {owner name : String}

theorem carries_of_scalarField {text : String} (read : scalarField owner name tree = .ok text) :
    tree.Carries name (.scalar text) :=
  carries_of_get? (scalarField_eq_ok_iff.mp read)

theorem carries_of_namesField {names : List String}
    (read : namesField owner name tree = .ok names) : tree.Carries name (.ofNames names) :=
  carries_of_get? (namesField_eq_ok_iff.mp read)

variable {α β : Type}

/-- Values that were read from the entries of a mapping one by one are written to entries that
stand in this mapping. -/
theorem standsIn_of_mapM {read : String × Node → Except DocumentError α} {write : α → Node}
    {make : String × Node → α → β} {entryOf : β → String × Node}
    (known : ∀ entry value, read entry = .ok value → entry.2 = write value)
    (again : ∀ key value, entryOf (make (key, write value) value) = (key, write value))
    {values kept : List β}
    (listed : tree.toList.mapM (fun entry => (read entry).map (make entry)) = .ok values)
    (among : kept ⊆ values) :
    (Node.map (OrderedMap.ofList (kept.map entryOf))).StandsIn (.map tree) := by
  refine Node.map_standsIn_iff.mpr ⟨tree, rfl, merge_ofList_eq_self ?_⟩
  rw [List.forall_mem_map]
  intro value member
  obtain ⟨⟨key, node⟩, held, made⟩ := Except.exists_of_mem_mapM listed (among member)
  obtain ⟨inner, found, same⟩ := Except.map_eq_ok.mp made
  have written : node = write inner := known (key, node) inner found
  rw [written] at held same
  rw [← same, again]
  exact carries_of_get? (OrderedMap.get?_eq_some_iff.mpr held)

/-- A tree carries a section that was read from it, if the section says anything. -/
theorem carries_section {read : Node → Except DocumentError α} {write : α → Node}
    {absent : α → Bool} {blank : α}
    (stands : ∀ node value, read node = .ok value → (write value).StandsIn node)
    (nothing : absent blank = true) {value : Option α}
    (found : optionalField name read tree = .ok value) :
    ∀ entry ∈ (if absent (value.getD blank) then [] else [(name, write (value.getD blank))]),
      tree.Carries entry.1 entry.2 := by
  cases value with
  | none =>
      rw [Option.getD_none, if_pos nothing]
      exact List.forall_mem_nil _
  | some value =>
      obtain ⟨node, present, made⟩ := optionalField_eq_some_iff.mp found
      rw [Option.getD_some]
      split
      · exact List.forall_mem_nil _
      · exact List.forall_mem_singleton.mpr ⟨node, present, stands node value made⟩

end Tree

/-! ## Actions -/

namespace Pairing

theorem standsIn_of_projectionsOf {node : Node} {projections : List Projection}
    (read : projectionsOf node = .ok projections) :
    (Node.map (Tree.ofScalars
      (projections.map fun column => (column.source, column.target)))).StandsIn node := by
  obtain ⟨tree, found, listed⟩ := Except.bind_eq_ok.mp read
  rw [Node.expectMap_eq_ok_iff.mp found, Tree.ofScalars, List.map_map]
  exact Tree.standsIn_of_mapM (fun _ _ => Node.expectScalar_eq_ok_iff.mp) (fun _ _ => rfl) listed
    (List.Subset.refl _)

theorem carries_fields {owner : String} {tree : Tree} {pairing : Pairing}
    (read : ofTree owner tree = .ok pairing) :
    ∀ entry ∈ pairing.fields, tree.Carries entry.1 entry.2 := by
  unfold ofTree at read
  simp only [Except.bind_eq_ok] at read
  obtain ⟨keys, found, listed, included, leftKeys, left, rightKeys, right, same⟩ := read
  cases same
  have both : keys.merge (OrderedMap.ofList
      [("left", .ofNames leftKeys), ("right", .ofNames rightKeys)]) = keys := by
    apply Tree.merge_ofList_eq_self
    simp only [List.forall_mem_cons, List.not_mem_nil, false_implies, implies_true, and_true]
    exact ⟨Tree.carries_of_namesField left, Tree.carries_of_namesField right⟩
  refine List.forall_mem_cons.mpr ⟨Tree.carries_map (Tree.mapField_eq_ok_iff.mp found) both, ?_⟩
  cases listed with
  | none => exact List.forall_mem_nil _
  | some projections =>
      obtain ⟨node, present, made⟩ := Tree.optionalField_eq_some_iff.mp included
      -- a section without columns may be there, but it is not written
      cases projections with
      | nil => exact List.forall_mem_nil _
      | cons column rest =>
          exact List.forall_mem_singleton.mpr ⟨node, present, standsIn_of_projectionsOf made⟩

end Pairing

theorem Call.merge_toTree_of_ofTree {tree : Tree} {call : Call} (read : ofTree tree = .ok call) :
    tree.merge call.toTree = tree := by
  unfold ofTree at read
  simp only [Except.bind_eq_ok] at read
  obtain ⟨name, named, arguments, applied, same⟩ := read
  cases same
  apply Tree.merge_ofList_eq_self
  exact List.forall_mem_cons.mpr ⟨Tree.carries_of_scalarField named,
    List.forall_mem_singleton.mpr (Tree.carries_of_namesField applied)⟩

namespace Action

open TableScript.Tree (carries_of_get? carries_of_scalarField carries_map mapField_eq_ok_iff
  optionalField_eq_some_iff)

theorem carries_commit {tree : Tree} {step : Step} (read : commitOfTree tree = .ok step) :
    step.name = "commit" ∧ ∀ entry ∈ step.fields, tree.Carries entry.1 entry.2 := by
  unfold commitOfTree at read
  simp only [Except.bind_eq_ok] at read
  obtain ⟨table, named, columns, listed, same⟩ := read
  cases same
  refine ⟨rfl, ?_⟩
  have first := carries_of_scalarField named
  cases columns with
  | none => exact List.forall_mem_singleton.mpr first
  | some columns =>
      obtain ⟨node, found, names⟩ := optionalField_eq_some_iff.mp listed
      rw [Node.expectNames_eq_ok_iff.mp names] at found
      exact List.forall_mem_cons.mpr ⟨first, List.forall_mem_singleton.mpr (carries_of_get? found)⟩

theorem carries_accumulate {tree : Tree} {step : Step} (read : accumulateOfTree tree = .ok step) :
    step.name = "accumulate" ∧ ∀ entry ∈ step.fields, tree.Carries entry.1 entry.2 := by
  unfold accumulateOfTree at read
  simp only [Except.bind_eq_ok] at read
  obtain ⟨function, found, column, source, call, applied, result, named, same⟩ := read
  cases same
  refine ⟨rfl, ?_⟩
  have first := carries_of_scalarField source
  have second := carries_map (mapField_eq_ok_iff.mp found) (Call.merge_toTree_of_ofTree applied)
  cases result with
  | none => exact List.forall_mem_cons.mpr ⟨first, List.forall_mem_singleton.mpr second⟩
  | some result =>
      obtain ⟨node, found, name⟩ := optionalField_eq_some_iff.mp named
      rw [Node.expectScalar_eq_ok_iff.mp name] at found
      exact List.forall_mem_cons.mpr ⟨first, List.forall_mem_cons.mpr
        ⟨second, List.forall_mem_singleton.mpr (carries_of_get? found)⟩⟩

theorem carries_pull {tree : Tree} {step : Step} (read : pullOfTree tree = .ok step) :
    step.name = "pull" ∧ ∀ entry ∈ step.fields, tree.Carries entry.1 entry.2 := by
  unfold pullOfTree at read
  simp only [Except.bind_eq_ok] at read
  obtain ⟨space, first, table, second, version, third, target, fourth, same⟩ := read
  cases same
  refine ⟨rfl, ?_⟩
  simp only [Step.fields, List.forall_mem_cons, List.not_mem_nil, false_implies, implies_true,
    and_true]
  exact ⟨carries_of_scalarField first, carries_of_scalarField second,
    carries_of_scalarField third, carries_of_scalarField fourth⟩

theorem carries_invoke {tree : Tree} {action : Action} (read : invokeOfTree tree = .ok action) :
    action.name = "invoke" ∧ ∀ entry ∈ action.fields, tree.Carries entry.1 entry.2 := by
  unfold invokeOfTree at read
  simp only [Except.bind_eq_ok] at read
  obtain ⟨space, first, rule, second, version, third, same⟩ := read
  cases same
  refine ⟨rfl, ?_⟩
  simp only [fields, List.forall_mem_cons, List.not_mem_nil, false_implies, implies_true, and_true]
  exact ⟨carries_of_scalarField first, carries_of_scalarField second,
    carries_of_scalarField third⟩

/-- A tree that an action was read from carries the name and the fields of the action. -/
theorem carries_fields {tree : Tree} {action : Action} (read : ofTree tree = .ok action) :
    tree.Carries "name" (.scalar action.name) ∧
      ∀ entry ∈ action.fields, tree.Carries entry.1 entry.2 := by
  unfold ofTree at read
  rw [Except.bind_eq_ok] at read
  obtain ⟨name, found, read⟩ := read
  have named := carries_of_scalarField found
  split at read
  · obtain ⟨table, found, same⟩ := Except.bind_eq_ok.mp read
    cases same
    exact ⟨named, List.forall_mem_singleton.mpr (carries_of_scalarField found)⟩
  · cases read
    exact ⟨named, List.forall_mem_nil _⟩
  · cases read
    exact ⟨named, List.forall_mem_nil _⟩
  · obtain ⟨it, made, same⟩ := Except.bind_eq_ok.mp read
    cases same
    obtain ⟨known, carries⟩ := carries_commit made
    rw [← known] at named
    exact ⟨named, carries⟩
  · obtain ⟨pairing, made, same⟩ := Except.bind_eq_ok.mp read
    cases same
    exact ⟨named, Pairing.carries_fields made⟩
  · obtain ⟨pairing, made, same⟩ := Except.bind_eq_ok.mp read
    cases same
    exact ⟨named, Pairing.carries_fields made⟩
  · obtain ⟨it, made, same⟩ := Except.bind_eq_ok.mp read
    cases same
    obtain ⟨known, carries⟩ := carries_accumulate made
    rw [← known] at named
    exact ⟨named, carries⟩
  · obtain ⟨it, made, same⟩ := Except.bind_eq_ok.mp read
    cases same
    obtain ⟨known, carries⟩ := carries_pull made
    rw [← known] at named
    exact ⟨named, carries⟩
  · obtain ⟨known, carries⟩ := carries_invoke read
    rw [← known] at named
    exact ⟨named, carries⟩
  · cases read
    exact ⟨named, List.forall_mem_nil _⟩

theorem merge_toTree_of_ofTree {tree : Tree} {action : Action} (read : ofTree tree = .ok action) :
    tree.merge action.toTree = tree :=
  Tree.merge_ofList_eq_self (List.forall_mem_cons.mpr (carries_fields read))

end Action

/-! ## Documents -/

namespace Header

theorem standsIn_of_expectsOf {node : Node} {expects : SortedMap (List String)}
    (read : expectsOf node = .ok expects) :
    (Node.map (expectsTree ⟨expects, .empty⟩)).StandsIn node := by
  obtain ⟨tables, found, read⟩ := Except.bind_eq_ok.mp read
  obtain ⟨entries, listed, same⟩ := Except.bind_eq_ok.mp read
  cases same
  rw [Node.expectMap_eq_ok_iff.mp found]
  exact Tree.standsIn_of_mapM (fun _ _ => Node.expectNames_eq_ok_iff.mp) (fun _ _ => rfl) listed
    fun _ member => SortedMap.mem_of_mem_toList_ofList member

theorem standsIn_of_repositoriesOf {node : Node} {repositories : SortedMap String}
    (read : repositoriesOf node = .ok repositories) :
    (Node.map (repositoriesTree ⟨.empty, repositories⟩)).StandsIn node := by
  obtain ⟨names, found, read⟩ := Except.bind_eq_ok.mp read
  obtain ⟨entries, listed, same⟩ := Except.bind_eq_ok.mp read
  cases same
  rw [Node.expectMap_eq_ok_iff.mp found]
  exact Tree.standsIn_of_mapM (fun _ _ => Node.expectScalar_eq_ok_iff.mp) (fun _ _ => rfl) listed
    fun _ member => SortedMap.mem_of_mem_toList_ofList member

theorem standsIn_of_ofNode {node : Node} {header : Header} (read : ofNode node = .ok header) :
    (Node.map header.toTree).StandsIn node := by
  unfold ofNode at read
  simp only [Except.bind_eq_ok] at read
  obtain ⟨sections, found, expects, listed, repositories, attached, same⟩ := read
  cases same
  rw [Node.map_standsIn_iff]
  refine ⟨sections, Node.expectMap_eq_ok_iff.mp found, Tree.merge_ofList_eq_self ?_⟩
  exact List.forall_mem_append.mpr
    ⟨Tree.carries_section (fun _ _ => standsIn_of_expectsOf) rfl listed,
      Tree.carries_section (fun _ _ => standsIn_of_repositoriesOf) rfl attached⟩

end Header

namespace Document

theorem standsIn_of_actionsOf {node : Node} {actions : List Action}
    (read : actionsOf node = .ok actions) :
    (Node.seq (actions.map fun action => .map action.toTree)).StandsIn node := by
  obtain ⟨items, rfl, each⟩ := actionsOf_eq_ok_iff.mp read
  refine congrArg Node.seq ?_
  clear read
  induction each with
  | nil => rfl
  | cons first _ ih =>
      obtain ⟨fields, rfl, made⟩ := first
      rw [List.map_cons, Node.mergeItems_map_cons]
      exact congrArg₂ List.cons (congrArg Node.map (Action.merge_toTree_of_ofTree made)) ih

theorem merge_toTree_of_ofTree {tree : Tree} {document : Document}
    (read : ofTree tree = .ok document) : tree.merge document.toTree = tree := by
  unfold ofTree at read
  simp only [Except.bind_eq_ok] at read
  obtain ⟨header, described, actions, listed, same⟩ := read
  cases same
  apply Tree.merge_ofList_eq_self
  exact List.forall_mem_append.mpr
    ⟨Tree.carries_section (fun _ _ => Header.standsIn_of_ofNode) rfl described,
      Tree.carries_section (fun _ _ => standsIn_of_actionsOf) rfl listed⟩

/-- Reading a document makes nothing up.  The tree of a document changes nothing, not even the
order of keys, when it is laid over the tree that the document was read from.  At every place
where it has a text, a mapping or a sequence, that one has the same text, a mapping with these
keys or a sequence of the same length.  The actions were read from the items one by one. -/
theorem reading_makes_nothing_up {tree : Tree} {document : Document}
    (read : ofTree tree = .ok document) :
    tree.merge document.toTree = tree ∧
      (∀ place node, (Node.map document.toTree).at? place = some node →
        ∃ other, (Node.map tree).at? place = some other ∧ node.Outlines other) ∧
      ∃ items, (tree.get? "actions").getD (.seq []) = .seq items ∧
        List.Forall₂ ReadsAction items document.actions := by
  have absorbed := merge_toTree_of_ofTree read
  refine ⟨absorbed, ?_, readsAction_of_ofTree read⟩
  intro place node found
  have stands : (Node.map document.toTree).StandsIn (.map tree) :=
    Node.map_standsIn_iff.mpr ⟨tree, rfl, absorbed⟩
  obtain ⟨other, there, stands⟩ := stands.at? found
  exact ⟨other, there, stands.outlines⟩

/-- A tree with its keys in another order, with fields that no reader knows, an empty section
and an action of an unknown name. -/
theorem later_version_stays_as_it_is :
    let tree : Tree := .ofList
      [("note", .seq [.scalar "n"]),
        ("actions", .seq
          [.map (.ofList [("table", .scalar "t"), ("on", .map .empty), ("name", .scalar "push")]),
            .map (.ofList [("name", .scalar "sort"), ("by", .ofNames ["a"])])]),
        ("meta", .map (.ofList
          [("repositories", .map (Tree.ofScalars [("s", "v"), ("r", "u")])),
            ("expects", .map .empty)]))]
    let document : Document :=
      ⟨⟨.empty, .ofList [("r", "u"), ("s", "v")]⟩, [.step (.push "t"), .unrecognized "sort"]⟩
    ofTree tree = .ok document ∧ tree.merge document.toTree = tree ∧
      document.toTree.keys = ["meta", "actions"] ∧
      (Node.map tree).at? [.key "actions", .item 0, .key "table"] = some (.scalar "t") := by
  intro tree document
  have read : ofTree tree = .ok document := by rfl
  obtain ⟨absorbed, placed, _⟩ := reading_makes_nothing_up read
  obtain ⟨other, found, same⟩ := placed [.key "actions", .item 0, .key "table"] (.scalar "t") rfl
  exact ⟨read, absorbed, rfl, found.trans (congrArg some same)⟩

end Document

end TableScript
