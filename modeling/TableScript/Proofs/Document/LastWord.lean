import TableScript.Proofs.Document.Script

/-!
# The last word

What a document says is told by its statements alone: the actions in their order, and
on every table and every repository the last word of them.  In a list of columns the
last word on a source counts as well, at the place of the first.  So a declaration may
stand anywhere among statements that do not speak of the same thing.
-/

namespace TableScript

/-! ## Columns -/

/-- That some columns are what is kept of listed ones: every source once, in the order
in which the sources come up, and under the last of its names. -/
structure Projection.KeptOf (listed kept : List Projection) : Prop where
  places : kept.map Projection.source = (listed.map Projection.source).eraseDups
  targets : ∀ column ∈ kept, ∃ before after, listed = before ++ column :: after ∧
    column.source ∉ after.map Projection.source

namespace Pairing

theorem map_source_settle (projections : List Projection) :
    (settle projections).map Projection.source =
      (projections.map Projection.source).eraseDups := by
  have sources : (projections.map fun column => (column.source, column.target)).map Prod.fst =
      projections.map Projection.source := by
    rw [List.map_map]
    rfl
  unfold settle
  rw [List.map_map, ← sources, ← OrderedMap.map_fst_toList_ofList]
  rfl

theorem keptOf_settle (projections : List Projection) :
    Projection.KeptOf projections (settle projections) := by
  refine ⟨map_source_settle projections, ?_⟩
  intro column member
  obtain ⟨entry, held, same⟩ := List.mem_map.mp member
  have found := OrderedMap.get?_eq_some_iff.mpr held
  rw [OrderedMap.get?_ofList] at found
  obtain ⟨before, after, split, fresh⟩ := Lookup.reverse_eq_some_iff.mp found
  -- the pairs were made from the columns, so they part where the columns do
  obtain ⟨front, rest, whole, _, tail⟩ := List.map_eq_append_iff.mp split
  obtain ⟨here, back, parted, is, later⟩ := List.map_eq_cons_iff.mp tail
  have column_eq : here = column := by
    obtain ⟨source, target⟩ := here
    obtain ⟨sources, targets⟩ := Prod.mk.inj is
    rw [← same, ← sources, ← targets]
  refine ⟨front, back, by rw [whole, parted, column_eq], ?_⟩
  have sources : back.map Projection.source = after.map Prod.fst := by
    rw [← later, List.map_map]
    rfl
  rw [sources, ← same]
  exact fresh

theorem settled_eq_self_iff {pairing : Pairing} :
    pairing.settled = pairing ↔ pairing.Distinct := by
  constructor
  · intro same
    have kept : settle pairing.projections = pairing.projections :=
      congrArg Pairing.projections same
    unfold Distinct
    rw [← kept]
    exact nodup_settle pairing.projections
  · exact settled_of_distinct

end Pairing

namespace Action

/-- That an action is kept as another: the same action, but of the columns of a
pairing only the last word on every source. -/
inductive KeptAs : Action → Action → Prop
  | join {left right : List String} {listed kept : List Projection} :
      Projection.KeptOf listed kept →
        KeptAs (.step (.join ⟨left, right, listed⟩)) (.step (.join ⟨left, right, kept⟩))
  | inclusion {left right : List String} {listed kept : List Projection} :
      Projection.KeptOf listed kept →
        KeptAs (.step (.inclusion ⟨left, right, listed⟩)) (.step (.inclusion ⟨left, right, kept⟩))
  | unchanged {action : Action} :
      (∀ pairing, action ≠ .step (.join pairing) ∧ action ≠ .step (.inclusion pairing)) →
        KeptAs action action

theorem keptAs_settled (action : Action) : action.KeptAs action.settled := by
  cases action with
  | step it =>
      cases it with
      | join pairing => exact .join (Pairing.keptOf_settle pairing.projections)
      | inclusion pairing => exact .inclusion (Pairing.keptOf_settle pairing.projections)
      | _ => exact .unchanged fun pairing => ⟨by simp, by simp⟩
  | invoke rule => exact .unchanged fun pairing => ⟨by simp, by simp⟩
  | unrecognized name => exact .unchanged fun pairing => ⟨by simp, by simp⟩

end Action

/-! ## Declarations -/

namespace Statement

def LastExpects (statements : List Statement) (table : String) (columns : List String) : Prop :=
  ∃ before after, statements = before ++ .expects table columns :: after ∧
    ∀ others, .expects table others ∉ after

def LastAttaches (statements : List Statement) (name url : String) : Prop :=
  ∃ before after, statements = before ++ .attach url name :: after ∧
    ∀ other, .attach other name ∉ after

/-- That two statements may change places: they are not both actions, and they do not
declare the same table or the same repository. -/
def Independent : Statement → Statement → Prop
  | .expects table _, .expects other _ => table ≠ other
  | .attach _ name, .attach _ other => name ≠ other
  | .action _, .action _ => False
  | _, _ => True

/-- The last entry of a key comes from the last statement that has one. -/
theorem lookup_reverse_filterMap {α : Type} (part? : Statement → Option (String × α))
    (statements : List Statement) (key : String) (value : α) :
    (statements.filterMap part?).reverse.lookup key = some value ↔
      ∃ before statement after, statements = before ++ statement :: after ∧
        part? statement = some (key, value) ∧
        ∀ later ∈ after, ∀ other, part? later ≠ some (key, other) := by
  rw [Lookup.reverse_eq_some_iff]
  constructor
  · intro found
    obtain ⟨before, after, split, fresh⟩ := found
    obtain ⟨front, rest, whole, _, tail⟩ := List.filterMap_eq_append_iff.mp split
    obtain ⟨silent, statement, back, parted, _, tells, later⟩ :=
      List.filterMap_eq_cons_iff.mp tail
    refine ⟨front ++ silent, statement, back, by simp [whole, parted], tells, ?_⟩
    intro other member value same
    apply fresh
    rw [← later]
    exact List.mem_map.mpr ⟨(key, value), List.mem_filterMap.mpr ⟨other, member, same⟩, rfl⟩
  · intro found
    obtain ⟨before, statement, after, split, tells, last⟩ := found
    refine ⟨before.filterMap part?, after.filterMap part?, by simp [split, tells], ?_⟩
    intro listed
    obtain ⟨⟨name, other⟩, member, same⟩ := List.mem_map.mp listed
    obtain ⟨later, known, told⟩ := List.mem_filterMap.mp member
    exact last later known other (told.trans (by rw [← same]))

theorem lookup_expectations_iff {statements : List Statement} {table : String}
    {columns : List String} :
    (statements.filterMap expectation?).reverse.lookup table = some columns ↔
      LastExpects statements table columns := by
  rw [lookup_reverse_filterMap]
  constructor
  · intro found
    obtain ⟨before, statement, after, split, tells, last⟩ := found
    rw [expectation?_eq_some_iff] at tells
    exact ⟨before, after, tells ▸ split, fun others member => last _ member others rfl⟩
  · intro found
    obtain ⟨before, after, split, last⟩ := found
    refine ⟨before, _, after, split, rfl, ?_⟩
    intro later member others told
    rw [expectation?_eq_some_iff] at told
    exact last others (told ▸ member)

theorem lookup_attachments_iff {statements : List Statement} {name url : String} :
    (statements.filterMap attachment?).reverse.lookup name = some url ↔
      LastAttaches statements name url := by
  rw [lookup_reverse_filterMap]
  constructor
  · intro found
    obtain ⟨before, statement, after, split, tells, last⟩ := found
    rw [attachment?_eq_some_iff] at tells
    exact ⟨before, after, tells ▸ split, fun other member => last _ member other rfl⟩
  · intro found
    obtain ⟨before, after, split, last⟩ := found
    refine ⟨before, _, after, split, rfl, ?_⟩
    intro later member other told
    rw [attachment?_eq_some_iff] at told
    exact last other (told ▸ member)

/-- That a list of statements comes from another when two independent neighbours change
places. -/
inductive Swapped : List Statement → List Statement → Prop
  | swap {first second : Statement} (front back : List Statement) :
      first.Independent second →
        Swapped (front ++ first :: second :: back) (front ++ second :: first :: back)

/-- Independent statements have no common key among their entries, and one of them is no
action. -/
theorem apart_of_independent {first second : Statement} (independent : first.Independent second) :
    (∀ key ∈ ([first].filterMap expectation?).map Prod.fst,
        key ∉ ([second].filterMap expectation?).map Prod.fst) ∧
      (∀ key ∈ ([first].filterMap attachment?).map Prod.fst,
        key ∉ ([second].filterMap attachment?).map Prod.fst) ∧
      ([first].filterMap action? = [] ∨ [second].filterMap action? = []) := by
  cases first with
  | expects table columns =>
      cases second with
      | expects other others =>
          have differ : table ≠ other := independent
          simp [expectation?, attachment?, action?, differ]
      | attach url name => simp [expectation?, attachment?, action?]
      | action it => simp [expectation?, attachment?, action?]
  | attach url name =>
      cases second with
      | expects table columns => simp [expectation?, attachment?, action?]
      | attach other others =>
          have differ : name ≠ others := independent
          simp [expectation?, attachment?, action?, differ]
      | action it => simp [expectation?, attachment?, action?]
  | action it =>
      cases second with
      | expects table columns => simp [expectation?, attachment?, action?]
      | attach url name => simp [expectation?, attachment?, action?]
      | action other => exact absurd independent id

end Statement

/-! ## Documents -/

namespace Document

/-- That a document holds what some statements say, with the last word on every table
and repository. -/
structure HoldsLastWord (statements : List Statement) (document : Document) : Prop where
  actions : List.Forall₂ Action.KeptAs (statements.filterMap Statement.action?) document.actions
  tables : ∀ table, (∃ columns, document.header.expects.get? table = some columns) ↔
    ∃ columns, .expects table columns ∈ statements
  columns : ∀ table columns, document.header.expects.get? table = some columns ↔
    Statement.LastExpects statements table columns
  repositories : ∀ name, (∃ url, document.header.repositories.get? name = some url) ↔
    ∃ url, .attach url name ∈ statements
  urls : ∀ name url, document.header.repositories.get? name = some url ↔
    Statement.LastAttaches statements name url

theorem gather_holdsLastWord (statements : List Statement) :
    HoldsLastWord statements (gather statements) := by
  have columns : ∀ table columns,
      (gather statements).header.expects.get? table = some columns ↔
        Statement.LastExpects statements table columns := by
    intro table columns
    rw [← Statement.lookup_expectations_iff, ← SortedMap.get?_ofList]
    rfl
  have urls : ∀ name url, (gather statements).header.repositories.get? name = some url ↔
      Statement.LastAttaches statements name url := by
    intro name url
    rw [← Statement.lookup_attachments_iff, ← SortedMap.get?_ofList]
    rfl
  refine ⟨?_, ?_, columns, ?_, urls⟩
  · show List.Forall₂ Action.KeptAs _ ((statements.filterMap Statement.action?).map Action.settled)
    rw [List.forall₂_map_right_iff, List.forall₂_same]
    exact fun action _ => action.keptAs_settled
  · intro table
    refine SortedMap.exists_get?_ofList.trans ?_
    simp [Statement.expectation?_eq_some_iff]
  · intro name
    refine SortedMap.exists_get?_ofList.trans ?_
    simp [Statement.attachment?_eq_some_iff]

/-- Independent statements may change places. -/
theorem gather_swapped {statements others : List Statement}
    (swapped : Statement.Swapped statements others) : gather statements = gather others := by
  cases swapped with
  | @swap first second front back independent =>
      obtain ⟨tables, repositories, oneAction⟩ := Statement.apart_of_independent independent
      show gather (front ++ ([first] ++ ([second] ++ back))) =
        gather (front ++ ([second] ++ ([first] ++ back)))
      unfold gather Header.ofStatements
      simp only [List.filterMap_append]
      rw [SortedMap.ofList_moved tables, SortedMap.ofList_moved repositories]
      obtain nothing | nothing := oneAction
      · rw [nothing]
        rfl
      · rw [nothing]
        rfl

theorem gather_rearranged {statements others : List Statement}
    (swaps : Relation.ReflTransGen Statement.Swapped statements others) :
    gather others = gather statements := by
  induction swaps with
  | refl => rfl
  | tail _ swapped ih => exact (gather_swapped swapped).symm.trans ih

abbrev Accepted (lines : List String) (statements : List Statement) : Prop :=
  List.Forall₂ (fun line statement => Statement.parse line = .ok statement) lines statements

theorem ofLines_of_accepted {lines : List String} {statements : List Statement}
    (accepted : Accepted lines statements) : ofLines lines = .ok (gather statements) := by
  have spelled : List.Forall₂ Statement.Spells statements lines :=
    accepted.flip.imp fun _ _ read => Statement.spells_of_parse read
  unfold ofLines
  rw [parseLines_eq_ok_iff, Script.map_snd_numbered]
  exact ⟨statements, spelled, rfl⟩

/-- Lines that are all accepted make a document, which holds the last word of their
statements.  It stays the same however often independent neighbours change places. -/
theorem ofLines_holds_last_word {lines : List String} {statements : List Statement}
    (accepted : Accepted lines statements) :
    (∃ document, ofLines lines = .ok document ∧ HoldsLastWord statements document) ∧
      ∀ moved rearranged, Relation.ReflTransGen Statement.Swapped statements rearranged →
        Accepted moved rearranged → ofLines moved = ofLines lines := by
  refine ⟨⟨_, ofLines_of_accepted accepted, gather_holdsLastWord statements⟩, ?_⟩
  intro moved rearranged swaps accepted'
  rw [ofLines_of_accepted accepted, ofLines_of_accepted accepted', gather_rearranged swaps]

def redeclaring : List String :=
  ["EXPECTS t[a]", "JOIN USING [[k], [k]] INCLUDE [p AS q, r, p AS s]", "ATTACH u AS t",
    "expects t[b]"]

def redeclared : List Statement :=
  [.expects "t" ["a"],
    .action (.step (.join ⟨["k"], ["k"], [⟨"p", "q"⟩, ⟨"r", "r"⟩, ⟨"p", "s"⟩]⟩)),
    .attach "u" "t", .expects "t" ["b"]]

theorem redeclaring_holds_last_word :
    Accepted redeclaring redeclared ∧
      (∃ document, ofLines redeclaring = .ok document ∧ HoldsLastWord redeclared document) ∧
      ofLines ["JOIN USING [[k], [k]] INCLUDE [p AS q, r, p AS s]", "EXPECTS t[a]",
        "ATTACH u AS t", "expects t[b]"] = ofLines redeclaring := by
  have first : Statement.parse "EXPECTS t[a]" = .ok (.expects "t" ["a"]) := by decide +kernel
  have second : Statement.parse "JOIN USING [[k], [k]] INCLUDE [p AS q, r, p AS s]" =
      .ok (.action (.step (.join ⟨["k"], ["k"], [⟨"p", "q"⟩, ⟨"r", "r"⟩, ⟨"p", "s"⟩]⟩))) := by
    decide +kernel
  have third : Statement.parse "ATTACH u AS t" = .ok (.attach "u" "t") := by decide +kernel
  have fourth : Statement.parse "expects t[b]" = .ok (.expects "t" ["b"]) := by decide +kernel
  have accepted : Accepted redeclaring redeclared :=
    .cons first (.cons second (.cons third (.cons fourth .nil)))
  obtain ⟨held, moves⟩ := ofLines_holds_last_word accepted
  refine ⟨accepted, held, ?_⟩
  exact moves _ _ (.single (.swap [] [.attach "u" "t", .expects "t" ["b"]] trivial))
    (.cons second (.cons first (.cons third (.cons fourth .nil))))

end Document

end TableScript
