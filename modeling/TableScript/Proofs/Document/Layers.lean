import TableScript.Proofs.Document.Faithful
import TableScript.Proofs.Tree.Merge

/-!
# Layers of actions

Actions that come to stand in one position are laid one over the other.  Of the fields
that an action must have, those of the uppermost action are read.  A field that may be
left out shows through from the layers below, and it does so through actions that have
no such field too.
-/

namespace TableScript

/-! ## Fields that may be left out -/

/-- The fields that one or another action may leave out. -/
structure Options where
  columns : Option (List String)
  result : Option String
  projections : List Projection

namespace Options

def none : Options := ⟨.none, .none, []⟩

/-- Options laid over others: the others show through where these say nothing, and
the columns of pairings follow each other. -/
def above (upper lower : Options) : Options :=
  ⟨upper.columns.or lower.columns, upper.result.or lower.result,
    lower.projections ++ upper.projections⟩

@[simp] theorem columns_above (upper lower : Options) :
    (upper.above lower).columns = upper.columns.or lower.columns := rfl

@[simp] theorem result_above (upper lower : Options) :
    (upper.above lower).result = upper.result.or lower.result := rfl

@[simp] theorem projections_above (upper lower : Options) :
    (upper.above lower).projections = lower.projections ++ upper.projections := rfl

@[simp] theorem above_none (options : Options) : options.above .none = options := by
  obtain ⟨columns, result, projections⟩ := options
  simp [above, none]

end Options

namespace Action

def options : Action → Options
  | .step (.commit _ columns) => ⟨columns, none, []⟩
  | .step (.accumulate _ _ result) => ⟨none, result, []⟩
  | .step (.join pairing) => ⟨none, none, pairing.projections⟩
  | .step (.inclusion pairing) => ⟨none, none, pairing.projections⟩
  | _ => .none

def option? : Action → Option String
  | .step (.commit _ _) => some "columns"
  | .step (.accumulate _ _ _) => some "result"
  | .step (.join _) => some "include"
  | .step (.inclusion _) => some "include"
  | _ => none

/-- The action with what some options say in the field that it may leave out. -/
def withOptions (options : Options) : Action → Action
  | .step (.commit table _) => .step (.commit table options.columns)
  | .step (.accumulate column call _) => .step (.accumulate column call options.result)
  | .step (.join pairing) => .step (.join { pairing with projections := options.projections })
  | .step (.inclusion pairing) =>
      .step (.inclusion { pairing with projections := options.projections })
  | other => other

def seenWith (options : Options) (action : Action) : Action :=
  (action.withOptions options).settled

variable {action : Action} {options others : Options}

theorem withOptions_options (action : Action) : action.withOptions action.options = action := by
  cases action with
  | step it => cases it <;> rfl
  | invoke rule => rfl
  | unrecognized name => rfl

theorem name_withOptions (options : Options) (action : Action) :
    (action.withOptions options).name = action.name := by
  cases action with
  | step it => cases it <;> rfl
  | invoke rule => rfl
  | unrecognized name => rfl

theorem readable_withOptions (readable : action.Readable) :
    (action.withOptions options).Readable := by
  cases action with
  | step it => cases it <;> trivial
  | invoke rule => trivial
  | unrecognized name => exact readable

theorem faithful_seenWith (readable : action.Readable) :
    (action.seenWith options).Faithful := by
  cases action with
  | step it =>
      cases it with
      | join pairing => exact Pairing.nodup_settle options.projections
      | inclusion pairing => exact Pairing.nodup_settle options.projections
      | _ => trivial
  | invoke rule => trivial
  | unrecognized name => exact readable

/-- An action is seen through its own field only. -/
theorem seenWith_congr
    (columns : action.option? = some "columns" → options.columns = others.columns)
    (result : action.option? = some "result" → options.result = others.result)
    (projections : action.option? = some "include" →
      Pairing.settle options.projections = Pairing.settle others.projections) :
    action.seenWith options = action.seenWith others := by
  cases action with
  | step it =>
      cases it with
      | commit table listed =>
          show Action.step (.commit table options.columns) = .step (.commit table others.columns)
          rw [columns rfl]
      | accumulate column call named =>
          show Action.step (.accumulate column call options.result) =
            .step (.accumulate column call others.result)
          rw [result rfl]
      | join pairing =>
          show Action.step (.join ⟨_, _, Pairing.settle options.projections⟩) =
            .step (.join ⟨_, _, Pairing.settle others.projections⟩)
          rw [projections rfl]
      | inclusion pairing =>
          show Action.step (.inclusion ⟨_, _, Pairing.settle options.projections⟩) =
            .step (.inclusion ⟨_, _, Pairing.settle others.projections⟩)
          rw [projections rfl]
      | _ => rfl
  | invoke rule => rfl
  | unrecognized name => rfl

/-- Of the options that an action was read with, it keeps those of its own field. -/
theorem options_seenWith (options : Options) (action : Action) :
    (action.seenWith options).options =
      ⟨if action.option? = some "columns" then options.columns else none,
        if action.option? = some "result" then options.result else none,
        if action.option? = some "include" then Pairing.settle options.projections else []⟩ := by
  cases action with
  | step it => cases it <;> rfl
  | invoke rule => rfl
  | unrecognized name => rfl

end Action

/-! ## One layer over another -/

structure Options.HeldBy (options : Options) (tree : Tree) : Prop where
  columns : tree.get? "columns" = options.columns.map .ofNames
  result : tree.get? "result" = options.result.map .scalar
  projections : tree.get? "include" =
    sectionOf (options.projections.map fun column => (column.source, .scalar column.target))

theorem Options.heldBy_empty : Options.none.HeldBy .empty := ⟨rfl, rfl, rfl⟩

namespace Action

open TableScript.Tree (get?_merge_of_scalar get?_merge_of_names get?_merge_of_map)

variable {action : Action} {lower : Options} {tree : Tree}

theorem pairing_options_heldBy_toTree {pairing : Pairing}
    (fields : action.fields = pairing.fields)
    (options : action.options = ⟨none, none, pairing.projections⟩) :
    action.options.HeldBy action.toTree := by
  have held := pairing_heldBy_toTree fields
  obtain ⟨leftKeys, rightKeys, projections⟩ := pairing
  rw [options]
  refine ⟨?_, ?_, held.projections⟩
  · rw [get?_toTree, fields]
    cases projections <;> rfl
  · rw [get?_toTree, fields]
    cases projections <;> rfl

/-- The tree of an action has its options. -/
theorem options_heldBy_toTree (action : Action) : action.options.HeldBy action.toTree := by
  cases action with
  | step it =>
      cases it with
      | join pairing => exact pairing_options_heldBy_toTree rfl rfl
      | inclusion pairing => exact pairing_options_heldBy_toTree rfl rfl
      | commit table columns =>
          cases columns <;>
            exact ⟨get?_toTree _ "columns", get?_toTree _ "result", get?_toTree _ "include"⟩
      | accumulate column call result =>
          cases result <;>
            exact ⟨get?_toTree _ "columns", get?_toTree _ "result", get?_toTree _ "include"⟩
      | _ => exact ⟨get?_toTree _ "columns", get?_toTree _ "result", get?_toTree _ "include"⟩
  | invoke rule =>
      exact ⟨get?_toTree _ "columns", get?_toTree _ "result", get?_toTree _ "include"⟩
  | unrecognized name =>
      exact ⟨get?_toTree _ "columns", get?_toTree _ "result", get?_toTree _ "include"⟩

theorem nodup_options (faithful : action.Faithful) :
    (action.options.projections.map Projection.source).Nodup := by
  cases action with
  | step it =>
      cases it with
      | join pairing => exact faithful
      | inclusion pairing => exact faithful
      | _ => exact List.nodup_nil
  | invoke rule => exact List.nodup_nil
  | unrecognized name => exact List.nodup_nil

/-- Where an action is laid over a tree, its options are laid over those of the tree. -/
theorem options_heldBy_merge (held : lower.HeldBy tree) (faithful : action.Faithful) :
    (action.options.above lower).HeldBy (tree.merge action.toTree) := by
  have own := action.options_heldBy_toTree
  refine ⟨?_, ?_, ?_⟩
  · rw [Tree.get?_merge, own.columns, held.columns, Options.columns_above]
    cases action.options.columns with
    | none => rfl
    | some columns => exact congrArg some (Node.mergeOnto_ofNames columns _)
  · rw [Tree.get?_merge, own.result, held.result, Options.result_above]
    cases action.options.result with
    | none => rfl
    | some result => rfl
  · rw [Options.projections_above, List.map_append]
    apply Tree.get?_merge_section held.projections own.projections
    · rw [List.map_map]
      exact nodup_options faithful
    · intro entry member dest
      obtain ⟨column, _, same⟩ := List.mem_map.mp member
      rw [← same]
      rfl

theorem pairing_heldBy_merge {src : Tree} {pairing : Pairing} {projections : List Projection}
    (own : pairing.HeldBy src)
    (listed : (tree.merge src).get? "include" =
      sectionOf (projections.map fun column => (column.source, .scalar column.target))) :
    ({ pairing with projections := projections } : Pairing).HeldBy (tree.merge src) := by
  obtain ⟨⟨fields, found, left, right⟩, _⟩ := own
  exact ⟨⟨_, get?_merge_of_map found, get?_merge_of_names left, get?_merge_of_names right⟩,
    listed⟩

theorem call_heldBy_merge {fields : Tree} {call : Call} (own : call.HeldBy fields) :
    call.HeldBy (tree.merge fields) :=
  ⟨get?_merge_of_scalar own.name, get?_merge_of_names own.arguments⟩

/-- Where an action is laid over a tree, the fields that it must have are its own. -/
theorem withOptions_heldBy_merge {options : Options}
    (held : options.HeldBy (tree.merge action.toTree)) :
    (action.withOptions options).HeldBy (tree.merge action.toTree) := by
  have own := action.heldBy_toTree
  cases action with
  | step it =>
      cases it with
      | push table => exact get?_merge_of_scalar own
      | pop => trivial
      | duplicate => trivial
      | commit table columns => exact ⟨get?_merge_of_scalar own.1, held.columns⟩
      | join pairing => exact pairing_heldBy_merge own held.projections
      | inclusion pairing => exact pairing_heldBy_merge own held.projections
      | accumulate column call result =>
          obtain ⟨source, ⟨fields, function, applied⟩, _⟩ := own
          exact ⟨get?_merge_of_scalar source,
            ⟨_, get?_merge_of_map function, call_heldBy_merge applied⟩, held.result⟩
      | pull reference target =>
          obtain ⟨space, table, version, named⟩ := own
          exact ⟨get?_merge_of_scalar space, get?_merge_of_scalar table,
            get?_merge_of_scalar version, get?_merge_of_scalar named⟩
  | invoke rule =>
      obtain ⟨space, name, version⟩ := own
      exact ⟨get?_merge_of_scalar space, get?_merge_of_scalar name,
        get?_merge_of_scalar version⟩
  | unrecognized name => trivial

/-- An action that is laid over a tree is seen with its options laid over those of the
tree. -/
theorem ofTree_merge (held : lower.HeldBy tree) (faithful : action.Faithful) :
    ofTree (tree.merge action.toTree) = .ok (action.seenWith (action.options.above lower)) := by
  have named : (tree.merge action.toTree).get? "name" =
      some (.scalar (action.withOptions (action.options.above lower)).name) := by
    rw [name_withOptions]
    exact get?_merge_of_scalar (action.get?_toTree "name")
  exact ofTree_of_heldBy (readable_withOptions (readable_of_faithful faithful)) named
    (withOptions_heldBy_merge (options_heldBy_merge held faithful))

end Action

/-! ## Piles -/

/-- The actions that came to stand in one position. -/
structure Pile where
  top : Action
  /-- the actions below, from the top down -/
  below : List Action

namespace Pile

def layers (pile : Pile) : List Action := pile.top :: pile.below

def lay (pile : Pile) (action : Action) : Pile := ⟨action, pile.layers⟩

/-- The options that show through some actions, given from the top down. -/
def optionsOf (layers : List Action) : Options :=
  layers.foldr (fun action lower => action.options.above lower) .none

def seen (pile : Pile) : Action := pile.top.seenWith (optionsOf pile.layers)

/-- A pile without the actions below the last change of the field that may be left
out. -/
def recent (pile : Pile) : Pile :=
  ⟨pile.top, pile.below.takeWhile fun action => action.option? = pile.top.option?⟩

theorem recent_lay (pile : Pile) (action : Action) :
    (pile.lay action).recent =
      ⟨action, if pile.top.option? = action.option? then pile.recent.layers else []⟩ := by
  unfold recent lay layers
  by_cases alike : pile.top.option? = action.option?
  · simp [alike]
  · simp [alike]

theorem seen_singleton {action : Action} (faithful : action.Faithful) :
    seen ⟨action, []⟩ = action := by
  unfold seen layers optionsOf Action.seenWith
  rw [List.foldr_cons, List.foldr_nil, Options.above_none, Action.withOptions_options,
    Action.settled_of_faithful faithful]

theorem faithful_seen {pile : Pile} (readable : pile.top.Readable) : pile.seen.Faithful :=
  Action.faithful_seenWith readable

/-- Laid upon what was read of a pile, an action is seen as it is upon the recent part
of the pile. -/
theorem seen_lay_seen (pile : Pile) (action : Action) :
    seen ⟨action, [pile.recent.seen]⟩ = (pile.lay action).recent.seen := by
  have kept := Action.options_seenWith (optionsOf pile.recent.layers) pile.top
  rw [recent_lay]
  show action.seenWith (action.options.above (pile.recent.seen.options.above .none)) =
    action.seenWith (action.options.above (optionsOf _))
  rw [Options.above_none]
  show action.seenWith (action.options.above (pile.top.seenWith _).options) = _
  rw [kept]
  apply Action.seenWith_congr
  · intro own
    rw [own]
    by_cases alike : pile.top.option? = some "columns"
    · simp [alike]
    · simp [alike, optionsOf, Options.none]
  · intro own
    rw [own]
    by_cases alike : pile.top.option? = some "result"
    · simp [alike]
    · simp [alike, optionsOf, Options.none]
  · intro own
    rw [own]
    by_cases alike : pile.top.option? = some "include"
    · simp [alike, Pairing.settle_settle_append]
    · simp [alike, optionsOf, Options.none]

end Pile

end TableScript
