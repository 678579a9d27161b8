import TableScript.Document.Script
import TableScript.Proofs.Document.Codec

/-!
# Documents from statements

Merging the fragments of statements comes to this: of several expectations of one
table, and of several attachments under one name, the last one counts, and the
actions stand in the order of the statements.
-/

namespace TableScript

namespace Statement

def expectation? : Statement → Option (String × List String)
  | .expects table columns => some (table, columns)
  | _ => none

def attachment? : Statement → Option (String × String)
  | .attach url name => some (name, url)
  | _ => none

def action? : Statement → Option Action
  | .action it => some it
  | _ => none

variable {statement : Statement}

theorem expectation?_eq_some_iff {entry : String × List String} :
    statement.expectation? = some entry ↔ statement = .expects entry.1 entry.2 := by
  cases statement <;> simp [expectation?, Prod.ext_iff]

theorem attachment?_eq_some_iff {entry : String × String} :
    statement.attachment? = some entry ↔ statement = .attach entry.2 entry.1 := by
  cases statement <;> simp [attachment?, Prod.ext_iff, and_comm]

theorem action?_eq_some_iff {it : Action} :
    statement.action? = some it ↔ statement = .action it := by
  cases statement <;> simp [action?]

end Statement

/-! ## Merging one entry -/

namespace Tree

/-- Merging one entry of a section of the header sets this entry. -/
theorem merge_ofSection {node : Node} (leaf : ∀ dest, node.mergeOnto dest = node) (tree : Tree)
    (name key : String) :
    tree.merge (Fragment.ofSection name (OrderedMap.ofList [(key, node)])) =
      tree.insert "meta" (.map ((Node.treeOf (tree.get? "meta")).insert name
        (.map ((Node.treeOf ((Node.treeOf (tree.get? "meta")).get? name)).insert key node)))) := by
  unfold Fragment.ofSection
  rw [merge_singleton, Node.mergeOnto_singleton, Node.mergeOnto_singleton, leaf]

end Tree

/-! ## What a draft holds -/

structure HoldsSections (root : Tree) (expects repositories : List (String × Node)) : Prop where
  sections : root.get? "meta" = none ∧ expects = [] ∧ repositories = [] ∨
    ∃ sections, root.get? "meta" = some (.map sections) ∧
      sections.get? "expects" = sectionOf expects ∧
      sections.get? "repositories" = sectionOf repositories

namespace HoldsSections

variable {root : Tree} {expects repositories : List (String × Node)}

theorem empty : HoldsSections .empty [] [] := ⟨.inl ⟨rfl, rfl, rfl⟩⟩

theorem expects_eq (holds : HoldsSections root expects repositories) :
    (Node.treeOf (root.get? "meta")).get? "expects" = sectionOf expects := by
  obtain ⟨found, none, _⟩ | ⟨sections, found, held, _⟩ := holds.sections
  · rw [found, none]
    rfl
  · rw [found]
    exact held

theorem repositories_eq (holds : HoldsSections root expects repositories) :
    (Node.treeOf (root.get? "meta")).get? "repositories" = sectionOf repositories := by
  obtain ⟨found, _, none⟩ | ⟨sections, found, _, held⟩ := holds.sections
  · rw [found, none]
    rfl
  · rw [found]
    exact held

/-- The sections of a header are laid over the sections of another one. -/
theorem merge {src : Tree} {laterExpects laterRepositories : List (String × Node)}
    (holds : HoldsSections root expects repositories)
    (later : HoldsSections src laterExpects laterRepositories)
    (tables : (laterExpects.map Prod.fst).Nodup)
    (names : (laterRepositories.map Prod.fst).Nodup)
    (leaves : ∀ entry ∈ laterExpects ++ laterRepositories, ∀ dest,
      entry.2.mergeOnto dest = entry.2) :
    HoldsSections (root.merge src) (expects ++ laterExpects)
      (repositories ++ laterRepositories) := by
  obtain ⟨absent, noExpects, noRepositories⟩ | ⟨sections, found, expected, attached⟩ :=
    later.sections
  · rw [noExpects, noRepositories, List.append_nil, List.append_nil]
    refine ⟨?_⟩
    rw [Tree.get?_merge_of_none absent]
    exact holds.sections
  · refine ⟨.inr ⟨_, Tree.get?_merge_of_map found, ?_, ?_⟩⟩
    · exact Tree.get?_merge_section holds.expects_eq expected tables
        fun entry member => leaves entry (List.mem_append_left _ member)
    · exact Tree.get?_merge_section holds.repositories_eq attached names
        fun entry member => leaves entry (List.mem_append_right _ member)

end HoldsSections

/-- That a tree holds the sections of a header and no actions. -/
structure HoldsHeader (root : Tree) (expects repositories : List (String × Node)) : Prop
    extends HoldsSections root expects repositories where
  noActions : root.get? "actions" = none

namespace HoldsHeader

variable {root : Tree} {expects repositories : List (String × Node)}

theorem empty : HoldsHeader .empty [] [] := ⟨.empty, rfl⟩

theorem expect (holds : HoldsHeader root expects repositories) (table : String)
    (columns : List String) :
    HoldsHeader (root.merge (Fragment.ofSection "expects"
        (OrderedMap.ofList [(table, .ofNames columns)])))
      (expects ++ [(table, .ofNames columns)]) repositories := by
  rw [Tree.merge_ofSection (Node.mergeOnto_ofNames columns)]
  refine ⟨⟨.inr ⟨_, OrderedMap.get?_insert _ _ _ _, ?_, ?_⟩⟩, ?_⟩
  · rw [OrderedMap.get?_insert, if_pos rfl, holds.expects_eq, sectionOf_append_singleton]
  · rw [OrderedMap.get?_insert, if_neg (by decide)]
    exact holds.repositories_eq
  · rw [OrderedMap.get?_insert, if_neg (by decide)]
    exact holds.noActions

theorem attach (holds : HoldsHeader root expects repositories) (name url : String) :
    HoldsHeader (root.merge (Fragment.ofSection "repositories"
        (OrderedMap.ofList [(name, .scalar url)])))
      expects (repositories ++ [(name, .scalar url)]) := by
  rw [Tree.merge_ofSection (fun _ => rfl)]
  refine ⟨⟨.inr ⟨_, OrderedMap.get?_insert _ _ _ _, ?_, ?_⟩⟩, ?_⟩
  · rw [OrderedMap.get?_insert, if_neg (by decide)]
    exact holds.expects_eq
  · rw [OrderedMap.get?_insert, if_pos rfl, holds.repositories_eq, sectionOf_append_singleton]
  · rw [OrderedMap.get?_insert, if_neg (by decide)]
    exact holds.noActions

end HoldsHeader

/-! ## What a draft is read as -/

def Header.ofStatements (statements : List Statement) : Header :=
  ⟨.ofList (statements.filterMap Statement.expectation?),
    .ofList (statements.filterMap Statement.attachment?)⟩

namespace Draft

/-- A draft of statements holds their expectations, attachments and actions. -/
theorem holds_ofStatements (statements : List Statement) :
    HoldsHeader (ofStatements statements).root
        ((statements.filterMap Statement.expectation?).map fun entry =>
          (entry.1, .ofNames entry.2))
        ((statements.filterMap Statement.attachment?).map fun entry =>
          (entry.1, .scalar entry.2)) ∧
      (ofStatements statements).actions =
        (statements.filterMap Statement.action?).map fun action => .map action.toTree := by
  -- fragments are added at the end, so the last statement meets the draft of the others
  induction statements using List.reverseRecOn with
  | nil => exact ⟨.empty, rfl⟩
  | append_singleton earlier last ih =>
      obtain ⟨header, actions⟩ := ih
      have step : ofStatements (earlier ++ [last]) = (ofStatements earlier).add last.fragment := by
        unfold ofStatements
        rw [List.foldl_append]
        rfl
      rw [step]
      simp only [List.filterMap_append, List.map_append]
      cases last with
      | expects table columns =>
          have attached : [Statement.expects table columns].filterMap Statement.attachment? = [] :=
            rfl
          have acted : [Statement.expects table columns].filterMap Statement.action? = [] := rfl
          simp only [attached, acted, List.map_nil, List.append_nil]
          exact ⟨header.expect table columns, actions⟩
      | attach url name =>
          have expected : [Statement.attach url name].filterMap Statement.expectation? = [] := rfl
          have acted : [Statement.attach url name].filterMap Statement.action? = [] := rfl
          simp only [expected, acted, List.map_nil, List.append_nil]
          exact ⟨header.attach name url, actions⟩
      | action it =>
          have expected : [Statement.action it].filterMap Statement.expectation? = [] := rfl
          have attached : [Statement.action it].filterMap Statement.attachment? = [] := rfl
          simp only [expected, attached, List.map_nil, List.append_nil]
          exact ⟨header, congrArg (· ++ [Node.map it.toTree]) actions⟩

end Draft

/-- A section of the header is read as the map of its entries. -/
theorem getD_sectionOf {α β : Type} (entries : List (String × α)) (write : α → β) :
    (if (entries.map fun entry => (entry.1, write entry.2)).isEmpty then none
      else some (SortedMap.ofList entries)).getD .empty = SortedMap.ofList entries := by
  cases entries with
  | nil => rfl
  | cons entry rest => rfl

theorem HoldsSections.optionalField_meta {root : Tree} {expects : List (String × List String)}
    {repositories : List (String × String)}
    (holds : HoldsSections root (expects.map fun entry => (entry.1, .ofNames entry.2))
      (repositories.map fun entry => (entry.1, .scalar entry.2))) :
    ∃ header, Tree.optionalField "meta" Header.ofNode root = .ok header ∧
      header.getD .empty = ⟨.ofList expects, .ofList repositories⟩ := by
  obtain ⟨found, noExpects, noRepositories⟩ | ⟨sections, found, expected, attached⟩ :=
    holds.sections
  · rw [List.map_eq_nil_iff] at noExpects noRepositories
    subst noExpects noRepositories
    exact ⟨none, Tree.optionalField_eq_none_iff.mpr found, rfl⟩
  · have first := Tree.optionalField_section expected (Header.expectsOf_ofList expects)
    have second := Tree.optionalField_section attached (Header.repositoriesOf_ofList repositories)
    refine ⟨some ⟨.ofList expects, .ofList repositories⟩, ?_, rfl⟩
    rw [Tree.optionalField_eq_some_iff]
    refine ⟨_, found, ?_⟩
    unfold Header.ofNode
    simp only [Node.expectMap, bind, Except.bind, first, second, getD_sectionOf]
    rfl

namespace Document

/-- The last word of some statements on every table and on every repository, and
their actions in order. -/
def gather (statements : List Statement) : Document :=
  ⟨.ofStatements statements, (statements.filterMap Statement.action?).map Action.settled⟩

theorem ofStatements_eq {statements : List Statement}
    (readable : ∀ action ∈ statements.filterMap Statement.action?, action.Readable) :
    ofStatements statements = .ok (gather statements) := by
  obtain ⟨holds, actions⟩ := Draft.holds_ofStatements statements
  obtain ⟨header, headerRead, headerIs⟩ := holds.optionalField_meta
  unfold ofStatements gather Draft.document Draft.tree
  rw [actions]
  generalize statements.filterMap Statement.action? = listed at readable
  cases listed with
  | nil =>
      have none : Tree.optionalField "actions" actionsOf (Draft.ofStatements statements).root =
          .ok none :=
        Tree.optionalField_eq_none_iff.mpr holds.noActions
      unfold ofTree
      simp only [List.map_nil, List.isEmpty_nil, if_true, bind, Except.bind, headerRead, none,
        headerIs]
      rfl
  | cons action rest =>
      have other : Tree.optionalField "meta" Header.ofNode
          ((Draft.ofStatements statements).root.insert "actions"
            (.seq ((action :: rest).map fun action => .map action.toTree))) = .ok header := by
        rw [← headerRead]
        unfold Tree.optionalField
        rw [OrderedMap.get?_insert, if_neg (by decide)]
      have here : Tree.optionalField "actions" actionsOf
          ((Draft.ofStatements statements).root.insert "actions"
            (.seq ((action :: rest).map fun action => .map action.toTree))) =
            .ok (some ((action :: rest).map Action.settled)) :=
        Tree.optionalField_eq_some_iff.mpr
          ⟨_, OrderedMap.get?_insert _ _ _ _, actionsOf_toTree readable⟩
      unfold ofTree
      simp only [List.map_cons, List.isEmpty_cons, Bool.false_eq_true, if_false, bind, Except.bind]
      rw [List.map_cons] at other here
      simp only [other, here, headerIs]
      rfl

theorem filterMap_expectation?_statements (document : Document) :
    document.statements.filterMap Statement.expectation? = document.header.expects.toList := by
  simp [statements, List.filterMap_map, Function.comp_def, Statement.expectation?]

theorem filterMap_attachment?_statements (document : Document) :
    document.statements.filterMap Statement.attachment? = document.header.repositories.toList := by
  simp [statements, List.filterMap_map, Function.comp_def, Statement.attachment?]

theorem filterMap_action?_statements (document : Document) :
    document.statements.filterMap Statement.action? = document.actions := by
  simp [statements, List.filterMap_map, Function.comp_def, Statement.action?]

theorem gather_statements {document : Document}
    (settled : ∀ action ∈ document.actions, action.settled = action) :
    gather document.statements = document := by
  have actions : document.actions.map Action.settled = document.actions :=
    (List.map_congr_left settled).trans (List.map_id _)
  unfold gather Header.ofStatements
  rw [filterMap_expectation?_statements, filterMap_attachment?_statements,
    filterMap_action?_statements, SortedMap.ofList_toList, SortedMap.ofList_toList, actions]

theorem mem_statements {document : Document} {statement : Statement} :
    statement ∈ document.statements ↔
      (∃ entry ∈ document.header.repositories.toList, statement = .attach entry.2 entry.1) ∨
      (∃ entry ∈ document.header.expects.toList, statement = .expects entry.1 entry.2) ∨
      ∃ action ∈ document.actions, statement = .action action := by
  unfold statements
  rw [List.mem_append, List.mem_append, List.mem_map, List.mem_map, List.mem_map, or_assoc]
  simp only [eq_comm]

/-- Whatever is gathered is among the statements, up to the columns that overrule
each other. -/
theorem mem_statements_gather {statements : List Statement} {statement : Statement}
    (member : statement ∈ (gather statements).statements) :
    statement ∈ statements ∨
      ∃ action, .action action ∈ statements ∧ statement = .action action.settled := by
  obtain ⟨entry, held, same⟩ | ⟨entry, held, same⟩ | ⟨action, held, same⟩ :=
    mem_statements.mp member
  · have known := SortedMap.mem_of_mem_toList_ofList held
    obtain ⟨source, given, attaches⟩ := List.mem_filterMap.mp known
    rw [Statement.attachment?_eq_some_iff.mp attaches] at given
    exact .inl (same ▸ given)
  · have known := SortedMap.mem_of_mem_toList_ofList held
    obtain ⟨source, given, expects⟩ := List.mem_filterMap.mp known
    rw [Statement.expectation?_eq_some_iff.mp expects] at given
    exact .inl (same ▸ given)
  · obtain ⟨first, known, settles⟩ := List.mem_map.mp held
    obtain ⟨source, given, acts⟩ := List.mem_filterMap.mp known
    rw [Statement.action?_eq_some_iff.mp acts] at given
    exact .inr ⟨first, given, by rw [same, settles]⟩

end Document

end TableScript
