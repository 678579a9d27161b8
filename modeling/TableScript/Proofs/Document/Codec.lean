import TableScript.Document.Basic
import TableScript.Proofs.Except
import TableScript.Proofs.Map.Ordered
import TableScript.Proofs.Map.Sorted
import TableScript.Proofs.Tree.Merge

/-!
# Documents through trees

What is read from the tree of a document.  Everything comes back but the columns of
an `include` that a later column of the same source overrules: the mapping that
holds them has one entry for every source.  An action whose name is unknown comes
back only if the name is unknown to the reader as well.
-/

namespace TableScript

/-! ## Fields -/

namespace Node

variable {node : Node} {field expected : String}

theorem expectScalar_eq_ok_iff {text : String} :
    node.expectScalar field expected = .ok text ↔ node = .scalar text := by
  cases node with
  | scalar other => simp [expectScalar]
  | map tree => simp [expectScalar]
  | seq items => simp [expectScalar]

theorem expectMap_eq_ok_iff {tree : Tree} :
    node.expectMap field expected = .ok tree ↔ node = .map tree := by
  cases node with
  | scalar text => simp [expectMap]
  | map other => simp [expectMap]
  | seq items => simp [expectMap]

theorem expectSeq_eq_ok_iff {items : List Node} :
    node.expectSeq field expected = .ok items ↔ node = .seq items := by
  cases node with
  | scalar text => simp [expectSeq]
  | map tree => simp [expectSeq]
  | seq others => simp [expectSeq]

theorem expectNames_ofNames (field : String) (names : List String) :
    (ofNames names).expectNames field = .ok names := by
  have each : ∀ item ∈ names.map Node.scalar,
      expectScalar field "a name" item = .ok (item.scalar?.getD "") := by
    intro item member
    obtain ⟨name, _, rfl⟩ := List.mem_map.mp member
    rfl
  unfold expectNames ofNames
  show (names.map Node.scalar).mapM _ = _
  rw [Except.mapM_eq_ok each, List.map_map]
  exact congrArg Except.ok (List.map_id names)

theorem expectNames_eq_ok_iff {names : List String} :
    node.expectNames field = .ok names ↔ node = .ofNames names := by
  constructor
  · intro read
    obtain ⟨items, listed, made⟩ := Except.bind_eq_ok.mp read
    rw [expectSeq_eq_ok_iff] at listed
    have each := Except.forall₂_of_mapM_eq_ok made
    simp only [expectScalar_eq_ok_iff] at each
    rw [listed, ofNames]
    refine congrArg seq (List.forall₂_eq_eq_eq ▸ ?_)
    rw [List.forall₂_map_right_iff]
    exact each
  · rintro rfl
    exact expectNames_ofNames field names

end Node

namespace Tree

theorem toList_ofScalars (pairs : List (String × String)) :
    (ofScalars pairs).toList =
      (OrderedMap.ofList pairs).toList.map fun pair => (pair.1, .scalar pair.2) :=
  OrderedMap.toList_ofList_map Node.scalar pairs

variable {tree : Tree} {owner name : String}

theorem field_bind_eq_ok_iff {α : Type} {read : Node → Except DocumentError α} {value : α} :
    (field owner name tree >>= read) = .ok value ↔
      ∃ node, tree.get? name = some node ∧ read node = .ok value := by
  unfold field
  rw [Except.bind_eq_ok]
  cases tree.get? name with
  | none => simp
  | some found => simp

theorem scalarField_eq_ok_iff {text : String} :
    scalarField owner name tree = .ok text ↔ tree.get? name = some (.scalar text) := by
  unfold scalarField
  simp [field_bind_eq_ok_iff, Node.expectScalar_eq_ok_iff]

theorem mapField_eq_ok_iff {inner : Tree} :
    mapField owner name tree = .ok inner ↔ tree.get? name = some (.map inner) := by
  unfold mapField
  simp [field_bind_eq_ok_iff, Node.expectMap_eq_ok_iff]

theorem namesField_eq_ok_iff {names : List String} :
    namesField owner name tree = .ok names ↔ tree.get? name = some (.ofNames names) := by
  unfold namesField
  simp [field_bind_eq_ok_iff, Node.expectNames_eq_ok_iff]

variable {α : Type} {read : Node → Except DocumentError α}

theorem optionalField_eq_none_iff :
    optionalField name read tree = .ok none ↔ tree.get? name = none := by
  unfold optionalField
  cases tree.get? name with
  | none => simp
  | some node => simp [Except.map_eq_ok]

theorem optionalField_eq_some_iff {value : α} :
    optionalField name read tree = .ok (some value) ↔
      ∃ node, tree.get? name = some node ∧ read node = .ok value := by
  unfold optionalField
  cases tree.get? name with
  | none => simp
  | some node => simp [Except.map_eq_ok]

theorem optionalField_section {absent : Bool} {node : Node} {value : α}
    (found : tree.get? name = if absent then none else some node) (reads : read node = .ok value) :
    optionalField name read tree = .ok (if absent then none else some value) := by
  cases absent with
  | true => exact optionalField_eq_none_iff.mpr found
  | false => exact optionalField_eq_some_iff.mpr ⟨node, found, reads⟩

end Tree

/-! ## Actions -/

namespace Pairing

/-- The columns that are left when they are kept by their sources: a later column
takes the place of an earlier one of the same source. -/
def settle (projections : List Projection) : List Projection :=
  (OrderedMap.ofList (projections.map fun column => (column.source, column.target))).toList.map
    fun entry => ⟨entry.1, entry.2⟩

def settled (pairing : Pairing) : Pairing :=
  { pairing with projections := settle pairing.projections }

def Distinct (pairing : Pairing) : Prop := (pairing.projections.map Projection.source).Nodup

instance (pairing : Pairing) : Decidable pairing.Distinct :=
  inferInstanceAs (Decidable (List.Nodup _))

theorem settle_of_nodup {projections : List Projection}
    (distinct : (projections.map Projection.source).Nodup) : settle projections = projections := by
  unfold settle
  rw [OrderedMap.toList_ofList_of_nodup (by rw [List.map_map]; exact distinct), List.map_map]
  exact List.map_id projections

theorem nodup_settle (projections : List Projection) :
    ((settle projections).map Projection.source).Nodup := by
  unfold settle
  rw [List.map_map]
  exact OrderedMap.toList_nodup _

/-- Columns may be kept by their sources before others follow them. -/
theorem settle_settle_append (earlier later : List Projection) :
    settle (settle earlier ++ later) = settle (earlier ++ later) := by
  have pairs : (settle earlier).map (fun column => (column.source, column.target)) =
      (OrderedMap.ofList (earlier.map fun column => (column.source, column.target))).toList := by
    unfold settle
    rw [List.map_map]
    exact List.map_id _
  unfold settle at pairs ⊢
  rw [List.map_append, pairs, OrderedMap.ofList_toList_append, List.map_append]

theorem settled_of_distinct {pairing : Pairing} (distinct : pairing.Distinct) :
    pairing.settled = pairing := by
  unfold settled
  rw [settle_of_nodup distinct]

theorem projectionsOf_ofScalars (projections : List Projection) :
    projectionsOf (.map (Tree.ofScalars
        (projections.map fun column => (column.source, column.target)))) =
      .ok (settle projections) := by
  unfold projectionsOf settle
  show (Tree.ofScalars _).toList.mapM _ = _
  rw [Tree.toList_ofScalars]
  generalize (OrderedMap.ofList _).toList = entries
  have each : ∀ entry ∈ entries.map fun pair : String × String => (pair.1, Node.scalar pair.2),
      ((entry.2.expectScalar entry.1 "a column name").map fun target =>
        (⟨entry.1, target⟩ : Projection)) = .ok ⟨entry.1, entry.2.scalar?.getD ""⟩ := by
    intro entry member
    obtain ⟨pair, _, rfl⟩ := List.mem_map.mp member
    rfl
  rw [Except.mapM_eq_ok each, List.map_map]
  rfl

structure HeldBy (pairing : Pairing) (tree : Tree) : Prop where
  keys : ∃ keys, tree.get? "using" = some (.map keys) ∧
    keys.get? "left" = some (.ofNames pairing.leftKeys) ∧
    keys.get? "right" = some (.ofNames pairing.rightKeys)
  projections : tree.get? "include" =
    sectionOf (pairing.projections.map fun column => (column.source, .scalar column.target))

theorem ofTree_of_heldBy {tree : Tree} {pairing : Pairing} (owner : String)
    (held : pairing.HeldBy tree) : ofTree owner tree = .ok pairing.settled := by
  obtain ⟨leftKeys, rightKeys, projections⟩ := pairing
  obtain ⟨⟨fields, found, left, right⟩, listed⟩ := held
  have keys : Tree.mapField owner "using" tree = .ok fields := Tree.mapField_eq_ok_iff.mpr found
  have leftRead : Tree.namesField "using" "left" fields = .ok leftKeys :=
    Tree.namesField_eq_ok_iff.mpr left
  have rightRead : Tree.namesField "using" "right" fields = .ok rightKeys :=
    Tree.namesField_eq_ok_iff.mpr right
  -- `using` is always written, `include` only where it lists something
  cases projections with
  | nil =>
      have none : Tree.optionalField "include" projectionsOf tree = .ok none :=
        Tree.optionalField_eq_none_iff.mpr listed
      unfold ofTree
      rw [keys, none]
      simp only [bind, Except.bind, leftRead, rightRead]
      rfl
  | cons column rest =>
      have read := projectionsOf_ofScalars (column :: rest)
      unfold Tree.ofScalars at read
      rw [List.map_map] at read
      have some : Tree.optionalField "include" projectionsOf tree =
          .ok (some (settle (column :: rest))) :=
        Tree.optionalField_eq_some_iff.mpr ⟨_, listed, read⟩
      unfold ofTree
      rw [keys, some]
      simp only [bind, Except.bind, leftRead, rightRead]
      rfl

end Pairing

namespace Call

structure HeldBy (call : Call) (tree : Tree) : Prop where
  name : tree.get? "name" = some (.scalar call.name)
  arguments : tree.get? "args" = some (.ofNames call.arguments)

theorem ofTree_of_heldBy {tree : Tree} {call : Call} (held : call.HeldBy tree) :
    ofTree tree = .ok call := by
  unfold ofTree
  rw [Tree.scalarField_eq_ok_iff.mpr held.name,
    Tree.namesField_eq_ok_iff.mpr held.arguments]
  rfl

end Call

namespace Action

def knownNames : List String :=
  ["push", "pop", "duplicate", "commit", "join", "inclusion", "accumulate", "pull", "invoke"]

/-- That the name of an action means this action to a reader. -/
def Readable : Action → Prop
  | .unrecognized name => name ∉ knownNames
  | _ => True

def settled : Action → Action
  | .step (.join pairing) => .step (.join pairing.settled)
  | .step (.inclusion pairing) => .step (.inclusion pairing.settled)
  | other => other

theorem fields_nodup (action : Action) :
    ((("name", Node.scalar action.name) :: action.fields).map Prod.fst).Nodup := by
  cases action with
  | step it =>
      cases it with
      | commit table columns => cases columns <;> simp [fields, Step.fields]
      | join pairing =>
          simp only [fields, Step.fields, Pairing.fields]
          split <;> simp
      | inclusion pairing =>
          simp only [fields, Step.fields, Pairing.fields]
          split <;> simp
      | accumulate column call result => cases result <;> simp [fields, Step.fields]
      | _ => simp [fields, Step.fields]
  | invoke rule => simp [fields]
  | unrecognized name => simp [fields]

theorem get?_toTree (action : Action) (key : String) :
    action.toTree.get? key = (("name", Node.scalar action.name) :: action.fields).lookup key :=
  OrderedMap.get?_ofList_of_nodup action.fields_nodup key

/-- That a tree has the fields that the name of an action calls for. -/
def HeldBy : Action → Tree → Prop
  | .step (.push table), tree => tree.get? "table" = some (.scalar table)
  | .step .pop, _ => True
  | .step .duplicate, _ => True
  | .step (.commit table columns), tree =>
      tree.get? "table" = some (.scalar table) ∧ tree.get? "columns" = columns.map .ofNames
  | .step (.join pairing), tree => pairing.HeldBy tree
  | .step (.inclusion pairing), tree => pairing.HeldBy tree
  | .step (.accumulate column call result), tree =>
      tree.get? "column" = some (.scalar column) ∧
        (∃ fields, tree.get? "function" = some (.map fields) ∧ call.HeldBy fields) ∧
        tree.get? "result" = result.map .scalar
  | .step (.pull reference target), tree =>
      tree.get? "namespace" = some (.scalar reference.space) ∧
        tree.get? "table" = some (.scalar reference.name) ∧
        tree.get? "version" = some (.scalar reference.version) ∧
        tree.get? "as" = some (.scalar target)
  | .invoke rule, tree =>
      tree.get? "namespace" = some (.scalar rule.space) ∧
        tree.get? "rule" = some (.scalar rule.name) ∧
        tree.get? "version" = some (.scalar rule.version)
  | .unrecognized _, _ => True

theorem commitOfTree_of_heldBy {tree : Tree} {table : String} {columns : Option (List String)}
    (held : (Action.step (.commit table columns)).HeldBy tree) :
    commitOfTree tree = .ok (.commit table columns) := by
  obtain ⟨named, listed⟩ := held
  have columnsRead : Tree.optionalField "columns" (Node.expectNames "columns") tree =
      .ok columns := by
    cases columns with
    | none => exact Tree.optionalField_eq_none_iff.mpr listed
    | some columns =>
        exact Tree.optionalField_eq_some_iff.mpr
          ⟨_, listed, Node.expectNames_ofNames "columns" columns⟩
  unfold commitOfTree
  rw [Tree.scalarField_eq_ok_iff.mpr named, columnsRead]
  rfl

theorem accumulateOfTree_of_heldBy {tree : Tree} {column : String} {call : Call}
    {result : Option String} (held : (Action.step (.accumulate column call result)).HeldBy tree) :
    accumulateOfTree tree = .ok (.accumulate column call result) := by
  obtain ⟨source, ⟨fields, function, applied⟩, target⟩ := held
  have resultRead : Tree.optionalField "result" (Node.expectScalar "result" "a name") tree =
      .ok result := by
    cases result with
    | none => exact Tree.optionalField_eq_none_iff.mpr target
    | some result => exact Tree.optionalField_eq_some_iff.mpr ⟨_, target, rfl⟩
  unfold accumulateOfTree
  rw [Tree.mapField_eq_ok_iff.mpr function, Tree.scalarField_eq_ok_iff.mpr source]
  simp only [bind, Except.bind, Call.ofTree_of_heldBy applied, resultRead]
  rfl

theorem pullOfTree_of_heldBy {tree : Tree} {reference : Reference} {target : String}
    (held : (Action.step (.pull reference target)).HeldBy tree) :
    pullOfTree tree = .ok (.pull reference target) := by
  obtain ⟨space, table, version, named⟩ := held
  unfold pullOfTree
  rw [Tree.scalarField_eq_ok_iff.mpr space, Tree.scalarField_eq_ok_iff.mpr table,
    Tree.scalarField_eq_ok_iff.mpr version, Tree.scalarField_eq_ok_iff.mpr named]
  rfl

theorem invokeOfTree_of_heldBy {tree : Tree} {rule : Reference}
    (held : (Action.invoke rule).HeldBy tree) : invokeOfTree tree = .ok (.invoke rule) := by
  obtain ⟨space, name, version⟩ := held
  unfold invokeOfTree
  rw [Tree.scalarField_eq_ok_iff.mpr space, Tree.scalarField_eq_ok_iff.mpr name,
    Tree.scalarField_eq_ok_iff.mpr version]
  rfl

/-- A tree with the name and the fields of an action is read as the action, its columns
kept by their sources. -/
theorem ofTree_of_heldBy {tree : Tree} {action : Action} (readable : action.Readable)
    (named : tree.get? "name" = some (.scalar action.name)) (held : action.HeldBy tree) :
    ofTree tree = .ok action.settled := by
  unfold ofTree
  rw [Tree.scalarField_eq_ok_iff.mpr named]
  simp only [bind, Except.bind]
  cases action with
  | step it =>
      cases it with
      | push table =>
          have pushed : Tree.scalarField "push" "table" tree = .ok table :=
            Tree.scalarField_eq_ok_iff.mpr held
          simp only [Action.name, Step.name, pushed]
          rfl
      | pop => rfl
      | duplicate => rfl
      | commit table columns =>
          simp only [Action.name, Step.name, commitOfTree_of_heldBy held]
          rfl
      | join pairing =>
          simp only [Action.name, Step.name, Pairing.ofTree_of_heldBy "join" held]
          rfl
      | inclusion pairing =>
          simp only [Action.name, Step.name, Pairing.ofTree_of_heldBy "inclusion" held]
          rfl
      | accumulate column call result =>
          simp only [Action.name, Step.name, accumulateOfTree_of_heldBy held]
          rfl
      | pull reference target =>
          simp only [Action.name, Step.name, pullOfTree_of_heldBy held]
          rfl
  | invoke rule => exact invokeOfTree_of_heldBy held
  | unrecognized name =>
      unfold Readable knownNames at readable
      simp only [Action.name]
      split
      all_goals first | rfl | simp at readable

theorem pairing_heldBy_toTree {action : Action} {pairing : Pairing}
    (fields : action.fields = pairing.fields) : pairing.HeldBy action.toTree := by
  obtain ⟨leftKeys, rightKeys, projections⟩ := pairing
  refine ⟨⟨OrderedMap.ofList [("left", .ofNames leftKeys), ("right", .ofNames rightKeys)],
    ?_, rfl, rfl⟩, ?_⟩
  · rw [get?_toTree, fields]
    rfl
  · rw [get?_toTree, fields]
    cases projections with
    | nil => rfl
    | cons column rest =>
        show some (Node.map (Tree.ofScalars _)) = some (.map _)
        unfold Tree.ofScalars
        rw [List.map_map]
        rfl

/-- The tree of an action has its fields. -/
theorem heldBy_toTree (action : Action) : action.HeldBy action.toTree := by
  cases action with
  | step it =>
      cases it with
      | push table => exact get?_toTree _ "table"
      | pop => trivial
      | duplicate => trivial
      | commit table columns =>
          cases columns <;> exact ⟨get?_toTree _ "table", get?_toTree _ "columns"⟩
      | join pairing => exact pairing_heldBy_toTree rfl
      | inclusion pairing => exact pairing_heldBy_toTree rfl
      | accumulate column call result =>
          cases result <;> exact ⟨get?_toTree _ "column",
            ⟨call.toTree, get?_toTree _ "function", ⟨rfl, rfl⟩⟩, get?_toTree _ "result"⟩
      | pull reference target =>
          exact ⟨get?_toTree _ "namespace", get?_toTree _ "table", get?_toTree _ "version",
            get?_toTree _ "as"⟩
  | invoke rule =>
      exact ⟨get?_toTree _ "namespace", get?_toTree _ "rule", get?_toTree _ "version"⟩
  | unrecognized name => trivial

theorem ofTree_toTree {action : Action} (readable : action.Readable) :
    ofTree action.toTree = .ok action.settled :=
  ofTree_of_heldBy readable (action.get?_toTree "name") action.heldBy_toTree

end Action

/-! ## Headers -/

/-- What one or two optional entries of a mapping have under their keys. -/
theorem OrderedMap.get?_ofList_sections {α : Type} {first second : String} (differ : first ≠ second)
    (noFirst noSecond : Bool) (one other : α) :
    (ofList ((if noFirst then [] else [(first, one)]) ++
        if noSecond then [] else [(second, other)])).get? first =
      (if noFirst then none else some one) ∧
    (ofList ((if noFirst then [] else [(first, one)]) ++
        if noSecond then [] else [(second, other)])).get? second =
      (if noSecond then none else some other) := by
  have forth : (first == second) = false := by simp [differ]
  have back : (second == first) = false := by simp [Ne.symm differ]
  rw [get?_ofList, get?_ofList]
  cases noFirst with
  | true => cases noSecond <;> simp [List.lookup_cons, forth]
  | false => cases noSecond <;> simp [List.lookup_cons, forth, back]

theorem SortedMap.eq_empty_of_isEmpty {α : Type} {map : SortedMap α}
    (nothing : map.isEmpty = true) : map = .empty :=
  SortedMap.ext_toList (List.isEmpty_iff.mp nothing)

/-- What an optional section adds to the section that says nothing. -/
theorem SortedMap.getD_section {α : Type} (map : SortedMap α) :
    (if map.isEmpty then none else some map).getD .empty = map := by
  split
  · next nothing => exact (eq_empty_of_isEmpty nothing).symm
  · rfl

namespace Header

/-- Expectations are read from a section into which they were put one by one. -/
theorem expectsOf_ofList (entries : List (String × List String)) :
    expectsOf (.map (OrderedMap.ofList
        (entries.map fun entry => (entry.1, Node.ofNames entry.2)))) =
      .ok (SortedMap.ofList entries) := by
  unfold expectsOf
  simp only [Node.expectMap, bind, Except.bind]
  rw [OrderedMap.toList_ofList_map]
  have each : ((OrderedMap.ofList entries).toList.map fun entry =>
      (entry.1, Node.ofNames entry.2)).mapM
        (fun entry => (entry.2.expectNames entry.1).map fun columns => (entry.1, columns)) =
          (.ok (OrderedMap.ofList entries).toList : Except DocumentError _) := by
    rw [Except.mapM_eq_ok_iff_forall₂, List.forall₂_map_left_iff, List.forall₂_same]
    intro entry _
    rw [Node.expectNames_ofNames]
    rfl
  rw [each]
  exact congrArg Except.ok (SortedMap.ofList_toList_ofList entries)

/-- Attachments are read from a section into which they were put one by one. -/
theorem repositoriesOf_ofList (entries : List (String × String)) :
    repositoriesOf (.map (OrderedMap.ofList
        (entries.map fun entry => (entry.1, Node.scalar entry.2)))) =
      .ok (SortedMap.ofList entries) := by
  unfold repositoriesOf
  simp only [Node.expectMap, bind, Except.bind]
  rw [OrderedMap.toList_ofList_map]
  have each : ((OrderedMap.ofList entries).toList.map fun entry =>
      (entry.1, Node.scalar entry.2)).mapM
        (fun entry => (entry.2.expectScalar entry.1 "a URL").map fun url => (entry.1, url)) =
          (.ok (OrderedMap.ofList entries).toList : Except DocumentError _) := by
    rw [Except.mapM_eq_ok_iff_forall₂, List.forall₂_map_left_iff, List.forall₂_same]
    intro entry _
    rfl
  rw [each]
  exact congrArg Except.ok (SortedMap.ofList_toList_ofList entries)

theorem expectsOf_expectsTree (header : Header) :
    expectsOf (.map header.expectsTree) = .ok header.expects := by
  rw [← SortedMap.ofList_toList header.expects]
  exact expectsOf_ofList header.expects.toList

theorem repositoriesOf_repositoriesTree (header : Header) :
    repositoriesOf (.map header.repositoriesTree) = .ok header.repositories := by
  rw [← SortedMap.ofList_toList header.repositories]
  exact repositoriesOf_ofList header.repositories.toList

theorem get?_toTree (header : Header) :
    header.toTree.get? "expects" =
      (if header.expects.isEmpty then none else some (.map header.expectsTree)) ∧
    header.toTree.get? "repositories" =
      (if header.repositories.isEmpty then none else some (.map header.repositoriesTree)) :=
  OrderedMap.get?_ofList_sections (by decide : "expects" ≠ "repositories")
    header.expects.isEmpty header.repositories.isEmpty (Node.map header.expectsTree)
    (.map header.repositoriesTree)

/-- A header is read back from its tree. -/
theorem ofNode_toTree (header : Header) : ofNode (.map header.toTree) = .ok header := by
  obtain ⟨first, second⟩ := header.get?_toTree
  have expects : Tree.optionalField "expects" expectsOf header.toTree =
      .ok (if header.expects.isEmpty then none else some header.expects) :=
    Tree.optionalField_section first header.expectsOf_expectsTree
  have repositories : Tree.optionalField "repositories" repositoriesOf header.toTree =
      .ok (if header.repositories.isEmpty then none else some header.repositories) :=
    Tree.optionalField_section second header.repositoriesOf_repositoriesTree
  unfold ofNode
  simp only [Node.expectMap, bind, Except.bind, expects, repositories, SortedMap.getD_section]
  rfl

theorem eq_empty_of_isEmpty {header : Header} (nothing : header.isEmpty = true) :
    header = .empty := by
  obtain ⟨expects, repositories⟩ := header
  obtain ⟨noExpects, noRepositories⟩ := Bool.and_eq_true_iff.mp nothing
  have first : expects = .empty := SortedMap.eq_empty_of_isEmpty noExpects
  have second : repositories = .empty := SortedMap.eq_empty_of_isEmpty noRepositories
  rw [first, second]
  rfl

end Header

/-! ## Documents -/

namespace Document

def ReadsAction (item : Node) (action : Action) : Prop :=
  ∃ fields, item = .map fields ∧ Action.ofTree fields = .ok action

theorem actionsOf_eq_ok_iff {node : Node} {actions : List Action} :
    actionsOf node = .ok actions ↔
      ∃ items, node = .seq items ∧ List.Forall₂ ReadsAction items actions := by
  unfold actionsOf
  simp only [Except.bind_eq_ok, Node.expectSeq_eq_ok_iff, Except.mapM_eq_ok_iff_forall₂,
    Node.expectMap_eq_ok_iff]
  rfl

theorem actionsOf_toTree {actions : List Action}
    (readable : ∀ action ∈ actions, action.Readable) :
    actionsOf (.seq (actions.map fun action => .map action.toTree)) =
      .ok (actions.map Action.settled) := by
  rw [actionsOf_eq_ok_iff]
  refine ⟨_, rfl, ?_⟩
  rw [List.forall₂_map_left_iff, List.forall₂_map_right_iff, List.forall₂_same]
  intro action member
  exact ⟨action.toTree, rfl, Action.ofTree_toTree (readable action member)⟩

theorem get?_toTree (document : Document) :
    document.toTree.get? "meta" =
      (if document.header.isEmpty then none else some (.map document.header.toTree)) ∧
    document.toTree.get? "actions" =
      (if document.actions.isEmpty then none
        else some (.seq (document.actions.map fun action => .map action.toTree))) := by
  unfold toTree
  exact OrderedMap.get?_ofList_sections (by decide : "meta" ≠ "actions") document.header.isEmpty
    document.actions.isEmpty (Node.map document.header.toTree)
    (.seq (document.actions.map fun action => .map action.toTree))

theorem ofTree_toTree {document : Document}
    (readable : ∀ action ∈ document.actions, action.Readable) :
    ofTree document.toTree =
      .ok { document with actions := document.actions.map Action.settled } := by
  obtain ⟨first, second⟩ := document.get?_toTree
  have header : Tree.optionalField "meta" Header.ofNode document.toTree =
      .ok (if document.header.isEmpty then none else some document.header) :=
    Tree.optionalField_section first document.header.ofNode_toTree
  have actions : Tree.optionalField "actions" actionsOf document.toTree =
      .ok (if document.actions.isEmpty then none
        else some (document.actions.map Action.settled)) :=
    Tree.optionalField_section second (actionsOf_toTree readable)
  have headers : (if document.header.isEmpty then none else some document.header).getD .empty =
      document.header := by
    split
    · next nothing => exact (Header.eq_empty_of_isEmpty nothing).symm
    · rfl
  have listed : (if document.actions.isEmpty then none
      else some (document.actions.map Action.settled)).getD [] =
        document.actions.map Action.settled := by
    split
    · next nothing =>
        rw [List.isEmpty_iff.mp nothing]
        rfl
    · rfl
  unfold ofTree
  simp only [bind, Except.bind, header, actions, headers, listed]
  rfl

/-- The actions of a document were read one by one from the items of its section. -/
theorem readsAction_of_ofTree {tree : Tree} {document : Document}
    (read : ofTree tree = .ok document) :
    ∃ items, (tree.get? "actions").getD (.seq []) = .seq items ∧
      List.Forall₂ ReadsAction items document.actions := by
  unfold ofTree at read
  simp only [Except.bind_eq_ok] at read
  obtain ⟨header, _, actions, listed, same⟩ := read
  cases same
  cases actions with
  | none =>
      refine ⟨[], ?_, .nil⟩
      rw [Tree.optionalField_eq_none_iff.mp listed, Option.getD_none]
  | some actions =>
      obtain ⟨node, present, made⟩ := Tree.optionalField_eq_some_iff.mp listed
      obtain ⟨items, rfl, each⟩ := actionsOf_eq_ok_iff.mp made
      exact ⟨items, by rw [present, Option.getD_some], each⟩

end Document

end TableScript
