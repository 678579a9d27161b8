import TableScript.Proofs.Document.Draft
import TableScript.Proofs.Document.Layers

/-!
# Combining documents

Several documents are laid one over the other, and the result is read once at the end.
Merging them one after the other reads the result after every document instead, and
what the reader does not see is gone.  The headers do not tell the difference.  An
action does where its optional field shows through an action that has no such field.
-/

namespace TableScript

/-! ## Positions -/

namespace Pile

/-- The piles that arise when every position gets one more action; further piles are
dropped. -/
def layEach : List Pile → List Action → List Pile
  | _, [] => []
  | [], action :: rest => ⟨action, []⟩ :: layEach [] rest
  | pile :: piles, action :: rest => pile.lay action :: layEach piles rest

/-- Piles with the actions of one more document upon them; a document without actions
leaves them as they are. -/
def layAll (piles : List Pile) (actions : List Action) : List Pile :=
  if actions.isEmpty then piles else layEach piles actions

/-- That a tree arose from laying the actions of a pile one over the other. -/
structure HeldBy (pile : Pile) (tree : Tree) : Prop where
  faithful : pile.top.Faithful
  laid : ∃ lower : Tree, (optionsOf pile.below).HeldBy lower ∧ tree = lower.merge pile.top.toTree

theorem ofTree_of_heldBy {pile : Pile} {tree : Tree} (held : pile.HeldBy tree) :
    Action.ofTree tree = .ok pile.seen := by
  obtain ⟨faithful, lower, options, same⟩ := held
  rw [same]
  exact Action.ofTree_merge options faithful

theorem heldBy_singleton {action : Action} (faithful : action.Faithful) :
    HeldBy ⟨action, []⟩ action.toTree :=
  ⟨faithful, .empty, Options.heldBy_empty, (Tree.empty_merge action.toTree).symm⟩

theorem heldBy_lay {pile : Pile} {tree : Tree} {action : Action} (held : pile.HeldBy tree)
    (faithful : action.Faithful) : (pile.lay action).HeldBy (tree.merge action.toTree) := by
  obtain ⟨below, lower, options, same⟩ := held
  refine ⟨faithful, tree, ?_, rfl⟩
  rw [same]
  exact Action.options_heldBy_merge options below

def HeldByEach (piles : List Pile) (items : List Node) : Prop :=
  List.Forall₂ (fun pile item => ∃ tree, item = Node.map tree ∧ pile.HeldBy tree) piles items

theorem heldByEach_layEach {piles : List Pile} {items : List Node} {actions : List Action}
    (held : HeldByEach piles items) (faithful : ∀ action ∈ actions, action.Faithful) :
    HeldByEach (layEach piles actions)
      (Node.mergeItems items (actions.map fun action => .map action.toTree)) := by
  induction actions generalizing piles items with
  | nil => exact .nil
  | cons action rest ih =>
      have first := faithful action List.mem_cons_self
      have others : ∀ action ∈ rest, action.Faithful := fun action member =>
        faithful action (List.mem_cons_of_mem _ member)
      rw [List.map_cons, Node.mergeItems_map_cons]
      cases held with
      | nil =>
          refine .cons ⟨_, rfl, ?_⟩ (ih .nil others)
          rw [show Node.treeOf (([] : List Node).head?) = .empty from rfl, Tree.empty_merge]
          exact heldBy_singleton first
      | cons pile later =>
          obtain ⟨tree, same, held⟩ := pile
          subst same
          exact .cons ⟨_, rfl, heldBy_lay held first⟩ (ih later others)

theorem actionsOf_heldByEach {piles : List Pile} {items : List Node}
    (held : HeldByEach piles items) :
    Document.actionsOf (.seq items) = .ok (piles.map seen) := by
  rw [Document.actionsOf_eq_ok_iff]
  refine ⟨items, rfl, ?_⟩
  rw [List.forall₂_map_right_iff]
  refine held.flip.imp ?_
  rintro item pile ⟨tree, same, held⟩
  exact ⟨tree, same, ofTree_of_heldBy held⟩

end Pile

/-! ## What documents come to -/

namespace Document

def piles (documents : List Document) : List Pile :=
  documents.foldl (fun piles document => Pile.layAll piles document.actions) []

def lastHeader (documents : List Document) : Header :=
  ⟨.ofList (documents.flatMap fun document => document.header.expects.toList),
    .ofList (documents.flatMap fun document => document.header.repositories.toList)⟩

theorem piles_append_singleton (documents : List Document) (document : Document) :
    piles (documents ++ [document]) = Pile.layAll (piles documents) document.actions := by
  unfold piles
  rw [List.foldl_append]
  rfl

theorem sectionOf_toList {α : Type} (map : SortedMap α) (write : α → Node) :
    sectionOf (map.toList.map fun entry => (entry.1, write entry.2)) =
      if map.isEmpty then none
      else some (.map (OrderedMap.ofList
        (map.toList.map fun entry => (entry.1, write entry.2)))) := by
  unfold sectionOf SortedMap.isEmpty
  rw [List.isEmpty_map]

/-- The tree of a document holds the sections of its header. -/
theorem sections_toTree (document : Document) :
    HoldsSections document.toTree
      (document.header.expects.toList.map fun entry => (entry.1, .ofNames entry.2))
      (document.header.repositories.toList.map fun entry => (entry.1, .scalar entry.2)) := by
  obtain ⟨found, _⟩ := document.get?_toTree
  obtain ⟨expected, attached⟩ := document.header.get?_toTree
  refine ⟨?_⟩
  cases nothing : document.header.isEmpty with
  | true =>
      rw [nothing] at found
      rw [Header.eq_empty_of_isEmpty nothing]
      exact .inl ⟨found, rfl, rfl⟩
  | false =>
      rw [nothing] at found
      exact .inr ⟨_, found, expected.trans (sectionOf_toList _ Node.ofNames).symm,
        attached.trans (sectionOf_toList _ Node.scalar).symm⟩

/-- That a tree arose from laying documents one over the other. -/
structure Overlaid (documents : List Document) (root : Tree) : Prop where
  sections : HoldsSections root
    ((documents.flatMap fun document => document.header.expects.toList).map
      fun entry => (entry.1, .ofNames entry.2))
    ((documents.flatMap fun document => document.header.repositories.toList).map
      fun entry => (entry.1, .scalar entry.2))
  actions : root.get? "actions" = none ∧ piles documents = [] ∨
    ∃ items, root.get? "actions" = some (.seq items) ∧ Pile.HeldByEach (piles documents) items

namespace Overlaid

variable {documents : List Document} {document : Document} {root : Tree}

theorem empty : Overlaid [] .empty := ⟨.empty, .inl ⟨rfl, rfl⟩⟩

theorem merge (overlaid : Overlaid documents root) (faithful : document.Faithful) :
    Overlaid (documents ++ [document]) (root.merge document.toTree) := by
  obtain ⟨_, own⟩ := document.get?_toTree
  constructor
  · simp only [List.flatMap_append, List.flatMap_singleton, List.map_append]
    apply overlaid.sections.merge document.sections_toTree
    · rw [List.map_map]
      exact document.header.expects.keys_nodup
    · rw [List.map_map]
      exact document.header.repositories.keys_nodup
    · intro entry member dest
      obtain expected | attached := List.mem_append.mp member
      · obtain ⟨given, _, same⟩ := List.mem_map.mp expected
        rw [← same]
        exact Node.mergeOnto_ofNames given.2 dest
      · obtain ⟨given, _, same⟩ := List.mem_map.mp attached
        rw [← same]
        rfl
  · rw [piles_append_singleton]
    unfold Pile.layAll
    cases nothing : document.actions.isEmpty with
    | true =>
        rw [nothing] at own
        rw [Tree.get?_merge_of_none own]
        exact overlaid.actions
    | false =>
        rw [nothing] at own
        right
        obtain ⟨absent, none⟩ | ⟨items, found, held⟩ := overlaid.actions
        · rw [Tree.get?_merge_of_some own, absent, none]
          have each := Pile.heldByEach_layEach .nil faithful
          rw [Node.mergeItems_nil] at each
          exact ⟨_, rfl, each⟩
        · rw [Tree.get?_merge_of_some own, found]
          exact ⟨_, rfl, Pile.heldByEach_layEach held faithful⟩

theorem read (overlaid : Overlaid documents root) :
    ofTree root = .ok ⟨lastHeader documents, (piles documents).map Pile.seen⟩ := by
  obtain ⟨header, headerRead, headerIs⟩ := overlaid.sections.optionalField_meta
  have actions : ∃ actions, Tree.optionalField "actions" actionsOf root = .ok actions ∧
      actions.getD [] = (piles documents).map Pile.seen := by
    obtain ⟨absent, none⟩ | ⟨items, found, held⟩ := overlaid.actions
    · refine ⟨.none, Tree.optionalField_eq_none_iff.mpr absent, ?_⟩
      rw [none]
      rfl
    · exact ⟨_, Tree.optionalField_eq_some_iff.mpr ⟨_, found, Pile.actionsOf_heldByEach held⟩, rfl⟩
  obtain ⟨actions, actionsRead, actionsAre⟩ := actions
  unfold ofTree
  simp only [headerRead, actionsRead, bind, Except.bind, headerIs, actionsAre]
  rfl

/-- Documents laid one over the other from the left. -/
theorem foldl {others : List Document} (overlaid : Overlaid documents root)
    (faithful : ∀ document ∈ others, document.Faithful) :
    Overlaid (documents ++ others) ((others.map toTree).foldl Tree.merge root) := by
  induction others generalizing documents root with
  | nil =>
      rw [List.append_nil]
      exact overlaid
  | cons document rest ih =>
      have laid := ih (overlaid.merge (faithful document List.mem_cons_self))
        fun other member => faithful other (List.mem_cons_of_mem _ member)
      rw [List.append_assoc] at laid
      exact laid

end Overlaid

/-! ## Reading once and reading each time -/

theorem combine_eq {documents : List Document}
    (faithful : ∀ document ∈ documents, document.Faithful) :
    combine documents = .ok ⟨lastHeader documents, (piles documents).map Pile.seen⟩ := by
  have overlaid := Overlaid.empty.foldl faithful
  cases documents with
  | nil => rfl
  | cons first rest =>
      have whole : (rest.map toTree).foldl Tree.merge first.toTree =
          ((first :: rest).map toTree).foldl Tree.merge .empty := by
        rw [List.map_cons, List.foldl_cons, Tree.empty_merge]
      show ofTree ((rest.map toTree).foldl Tree.merge first.toTree) = _
      rw [whole]
      exact overlaid.read

theorem merge_eq {first second : Document} (one : first.Faithful) (other : second.Faithful) :
    first.merge second =
      .ok ⟨lastHeader [first, second], (piles [first, second]).map Pile.seen⟩ := by
  have combined : combine [first, second] =
      .ok ⟨lastHeader [first, second], (piles [first, second]).map Pile.seen⟩ := by
    apply combine_eq
    intro document member
    simp only [List.mem_cons, List.not_mem_nil, or_false] at member
    obtain same | same := member
    · exact same ▸ one
    · exact same ▸ other
  exact combined

end Document

namespace Pile

theorem layEach_nil (actions : List Action) :
    layEach [] actions = actions.map fun action => ⟨action, []⟩ := by
  induction actions with
  | nil => rfl
  | cons action rest ih => exact congrArg (⟨action, []⟩ :: ·) ih

theorem layAll_nil (actions : List Action) :
    layAll [] actions = actions.map fun action => ⟨action, []⟩ := by
  unfold layAll
  cases actions with
  | nil => rfl
  | cons action rest => exact layEach_nil (action :: rest)

theorem map_seen_singletons {actions : List Action}
    (faithful : ∀ action ∈ actions, action.Faithful) :
    (actions.map fun action => (⟨action, []⟩ : Pile)).map seen = actions := by
  have each : ∀ action ∈ actions, seen ⟨action, []⟩ = action := fun action member =>
    seen_singleton (faithful action member)
  rw [List.map_map]
  exact (List.map_congr_left each).trans (List.map_id _)

/-- Laid upon what was read of piles, actions are seen as upon the recent parts of the
piles. -/
theorem seen_layEach_seen (piles : List Pile) (actions : List Action) :
    (layEach (piles.map fun pile => ⟨pile.recent.seen, []⟩) actions).map seen =
      (layEach piles actions).map fun pile => pile.recent.seen := by
  induction actions generalizing piles with
  | nil => rfl
  | cons action rest ih =>
      cases piles with
      | nil => exact congrArg (seen ⟨action, []⟩ :: ·) (ih [])
      | cons pile others =>
          show seen ⟨action, [pile.recent.seen]⟩ :: _ = (pile.lay action).recent.seen :: _
          rw [seen_lay_seen, ih others]

theorem seen_layAll_seen {piles : List Pile} (readable : ∀ pile ∈ piles, pile.top.Readable)
    (actions : List Action) :
    (layAll (piles.map fun pile => ⟨pile.recent.seen, []⟩) actions).map seen =
      (layAll piles actions).map fun pile => pile.recent.seen := by
  unfold layAll
  cases actions with
  | nil =>
      simp only [List.isEmpty_nil, if_true]
      rw [List.map_map]
      apply List.map_congr_left
      intro pile member
      exact seen_singleton (faithful_seen (readable pile member))
  | cons action rest => exact seen_layEach_seen piles (action :: rest)

theorem mem_layEach {piles : List Pile} {actions : List Action} {pile : Pile}
    (member : pile ∈ layEach piles actions) : pile.top ∈ actions := by
  induction actions generalizing piles with
  | nil => cases member
  | cons action rest ih =>
      cases piles with
      | nil =>
          obtain here | later := List.mem_cons.mp member
          · exact here ▸ List.mem_cons_self
          · exact List.mem_cons_of_mem _ (ih later)
      | cons lower others =>
          obtain here | later := List.mem_cons.mp member
          · exact here ▸ List.mem_cons_self
          · exact List.mem_cons_of_mem _ (ih later)

end Pile

namespace Document

/-- Every action that is read comes from one of the documents. -/
theorem readable_of_mem_piles {documents : List Document}
    (faithful : ∀ document ∈ documents, document.Faithful) {pile : Pile}
    (member : pile ∈ piles documents) : pile.top.Readable := by
  induction documents using List.reverseRecOn with
  | nil => cases member
  | append_singleton earlier last ih =>
      rw [piles_append_singleton] at member
      unfold Pile.layAll at member
      split at member
      · exact ih (fun document listed => faithful document (List.mem_append_left _ listed)) member
      · have own := faithful last (by simp) pile.top (Pile.mem_layEach member)
        exact Action.readable_of_faithful own

theorem lastHeader_append_singleton (documents : List Document) (document : Document)
    (actions : List Action) :
    lastHeader [⟨lastHeader documents, actions⟩, document] =
      lastHeader (documents ++ [document]) := by
  unfold lastHeader
  simp only [List.flatMap_append, List.flatMap_cons, List.flatMap_nil, List.append_nil,
    SortedMap.ofList_toList_append]

theorem foldlM_merge_eq {first : Document} {rest : List Document}
    (faithful : ∀ document ∈ first :: rest, document.Faithful) :
    rest.foldlM merge first =
      .ok ⟨lastHeader (first :: rest),
        (piles (first :: rest)).map fun pile => pile.recent.seen⟩ := by
  induction rest using List.reverseRecOn with
  | nil =>
      have header : lastHeader [first] = first.header := by
        unfold lastHeader
        simp only [List.flatMap_cons, List.flatMap_nil, List.append_nil, SortedMap.ofList_toList]
      have actions : (piles [first]).map (fun pile => pile.recent.seen) = first.actions := by
        have seen := Pile.map_seen_singletons (faithful first List.mem_cons_self)
        show (Pile.layAll [] first.actions).map _ = _
        rw [Pile.layAll_nil, List.map_map]
        rwa [List.map_map] at seen
      rw [header, actions]
      rfl
  | append_singleton earlier last ih =>
      have before : ∀ document ∈ first :: earlier, document.Faithful := fun document member =>
        faithful document (List.mem_append_left [last] member)
      have own : last.Faithful := faithful last (List.mem_append_right (first :: earlier) (by simp))
      have readable : ∀ pile ∈ piles (first :: earlier), pile.top.Readable := fun pile member =>
        readable_of_mem_piles before member
      have merged : Faithful ⟨lastHeader (first :: earlier),
          (piles (first :: earlier)).map fun pile => pile.recent.seen⟩ := by
        intro action member
        obtain ⟨pile, listed, same⟩ := List.mem_map.mp member
        rw [← same]
        exact Pile.faithful_seen (readable pile listed)
      have actions : (piles [⟨lastHeader (first :: earlier),
            (piles (first :: earlier)).map fun pile => pile.recent.seen⟩, last]).map Pile.seen =
          (piles (first :: earlier ++ [last])).map fun pile => pile.recent.seen := by
        rw [piles_append_singleton]
        show (Pile.layAll (Pile.layAll [] _) last.actions).map Pile.seen = _
        rw [Pile.layAll_nil, List.map_map]
        exact Pile.seen_layAll_seen readable last.actions
      rw [List.foldlM_append, ih before]
      simp only [List.foldlM_cons, List.foldlM_nil, bind, Except.bind]
      rw [merge_eq merged own, lastHeader_append_singleton, actions]
      rfl

/-- Documents laid one over the other are read to the same header whether they are read
once at the end or after every document, and neither way fails.  Every action is seen
through its whole pile in the first case, and in the second through the part of it
that is recent. -/
theorem combine_eq_foldlM_merge_iff (first : Document) (rest : List Document)
    (obtained : ∀ document ∈ first :: rest, document.Obtained) :
    combine (first :: rest) =
        .ok ⟨lastHeader (first :: rest), (piles (first :: rest)).map Pile.seen⟩ ∧
      rest.foldlM merge first =
        .ok ⟨lastHeader (first :: rest),
          (piles (first :: rest)).map fun pile => pile.recent.seen⟩ ∧
      (combine (first :: rest) = rest.foldlM merge first ↔
        ∀ pile ∈ piles (first :: rest), pile.seen = pile.recent.seen) := by
  have faithful : ∀ document ∈ first :: rest, document.Faithful := fun document member =>
    faithful_of_obtained (obtained document member)
  refine ⟨combine_eq faithful, foldlM_merge_eq faithful, ?_⟩
  rw [combine_eq faithful, foldlM_merge_eq faithful]
  constructor
  · intro same
    exact List.map_inj_left.mp (congrArg Document.actions (Except.ok.inj same))
  · intro each
    rw [List.map_congr_left each]

/-- The columns of a commit are kept under a commit that names none, either way. -/
theorem recommitting_keeps_columns :
    ∃ first second : Document, first.Obtained ∧ second.Obtained ∧
      combine [first, second] = .ok ⟨.empty, [.step (.commit "t" (some ["a"]))]⟩ ∧
      [second].foldlM merge first = .ok ⟨.empty, [.step (.commit "t" (some ["a"]))]⟩ := by
  have one : Document.Obtained ⟨.empty, [.step (.commit "t" (some ["a"]))]⟩ :=
    .lines (show ofLines ["COMMIT t[a]"] = _ by decide +kernel)
  have other : Document.Obtained ⟨.empty, [.step (.commit "t" none)]⟩ :=
    .lines (show ofLines ["COMMIT t"] = _ by decide +kernel)
  have both : ∀ document ∈ [Document.mk .empty [.step (.commit "t" (some ["a"]))],
      ⟨.empty, [.step (.commit "t" none)]⟩], document.Obtained := by
    simp [one, other]
  obtain ⟨combined, folded, _⟩ := combine_eq_foldlM_merge_iff _ _ both
  exact ⟨_, _, one, other, combined, folded⟩

/-- Under an action of another kind the columns of a commit show through only where
nothing is read in between. -/
theorem covered_columns_show_through :
    ¬ ∀ (first : Document) (rest : List Document),
      (∀ document ∈ first :: rest, document.Obtained) →
        combine (first :: rest) = rest.foldlM merge first := by
  intro always
  have bottom : Document.Obtained ⟨.empty, [.step (.commit "t" (some ["a"]))]⟩ :=
    .lines (show ofLines ["COMMIT t[a]"] = _ by decide +kernel)
  have between : Document.Obtained ⟨.empty, [.step .pop]⟩ :=
    .lines (show ofLines ["POP"] = _ by decide +kernel)
  have top : Document.Obtained ⟨.empty, [.step (.commit "t" none)]⟩ :=
    .lines (show ofLines ["COMMIT t"] = _ by decide +kernel)
  have all : ∀ document ∈ [Document.mk .empty [.step (.commit "t" (some ["a"]))],
      ⟨.empty, [.step .pop]⟩, ⟨.empty, [.step (.commit "t" none)]⟩], document.Obtained := by
    simp [bottom, between, top]
  have faithful := fun document member => faithful_of_obtained (all document member)
  have same := always _ _ all
  rw [combine_eq faithful, foldlM_merge_eq faithful] at same
  exact absurd (congrArg Document.actions (Except.ok.inj same)) (by decide)

end Document

end TableScript
