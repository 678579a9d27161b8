import TableScript.Proofs.Document.Sections
import TableScript.Proofs.Tree.Absorption

/-!
# One document upon another

Merging two documents never fails.  The header says what the upper document says, and
where that is silent what the lower one says.  The actions are those of the upper
document unless it has none.  An action that comes to lie upon another one says all that
it said before.  Only the field that it may leave out can come from below, where the
action there has that field too, and the columns of a pairing go upon those of the pairing
below.
-/

namespace TableScript

/-! ## Actions upon actions -/

namespace Projection

/-- Columns upon others: a column below keeps its place and takes the new name of its
source, if there is one, and the columns of further sources follow. -/
def upon (upper lower : List Projection) : List Projection :=
  (lower.map fun column =>
      (upper.find? fun other => other.source == column.source).getD column) ++
    upper.filter fun column => column.source ∉ lower.map source

theorem upon_nil (upper : List Projection) : upon upper [] = upper :=
  List.filter_eq_self.mpr fun _ _ => rfl

/-- Columns are looked up by their sources as entries are by their keys. -/
theorem lookup_pairs (columns : List Projection) (source : String) :
    (columns.map fun column => (column.source, column.target)).lookup source =
      (columns.find? fun column => column.source == source).map target := by
  induction columns with
  | nil => rfl
  | cons column rest ih =>
      rw [List.map_cons, List.lookup_cons, List.find?_cons, ih, Bool.beq_comm]
      cases column.source == source with
      | true => rfl
      | false => rfl

end Projection

namespace Pairing

def upon (upper lower : Pairing) : Pairing :=
  { upper with projections := Projection.upon upper.projections lower.projections }

/-- Columns that follow others are settled upon them. -/
theorem settle_append {lower upper : List Projection}
    (below : (lower.map Projection.source).Nodup) (above : (upper.map Projection.source).Nodup) :
    settle (lower ++ upper) = Projection.upon upper lower := by
  have sources : ∀ columns : List Projection,
      (columns.map fun column => (column.source, column.target)).map Prod.fst =
        columns.map Projection.source := by
    intro columns
    rw [List.map_map]
    rfl
  -- the columns above are inserted into the mapping of those below
  have gathered : OrderedMap.ofList ((lower ++ upper).map fun column =>
        (column.source, column.target)) =
      (OrderedMap.ofList (lower.map fun column => (column.source, column.target))).insertAll
        (upper.map fun column => (column.source, column.target)) := by
    unfold OrderedMap.ofList OrderedMap.insertAll
    rw [List.map_append, List.foldl_append]
  have listed := OrderedMap.toList_ofList_of_nodup ((sources lower).symm ▸ below)
  have keys : (OrderedMap.ofList (lower.map fun column =>
      (column.source, column.target))).keys = lower.map Projection.source := by
    rw [← OrderedMap.map_fst_toList, listed, sources]
  unfold settle Projection.upon
  rw [gathered, OrderedMap.toList_insertAll _ ((sources upper).symm ▸ above), listed, keys,
    List.map_append, List.map_map, List.map_map, List.filter_map, List.map_map]
  congr 1
  · apply List.map_congr_left
    intro column _
    simp only [Function.comp_apply, Projection.lookup_pairs]
    cases found : upper.find? fun other => other.source == column.source with
    | none => rfl
    | some other =>
        have same : other.source = column.source := by simpa using List.find?_some found
        simp only [Option.map_some, Option.getD_some, ← same]
  · exact List.map_id _

end Pairing

namespace Action

/-- What comes of an action that is laid upon another one.  The columns of a commit and the
result of an accumulation are taken over where they are left out, and the columns of two
pairings are joined, whichever way they pair. -/
def upon : Action → Action → Action
  | .step (.commit table none), .step (.commit _ columns) => .step (.commit table columns)
  | .step (.accumulate column call none), .step (.accumulate _ _ result) =>
      .step (.accumulate column call result)
  | .step (.join upper), .step (.join lower) => .step (.join (upper.upon lower))
  | .step (.join upper), .step (.inclusion lower) => .step (.join (upper.upon lower))
  | .step (.inclusion upper), .step (.join lower) => .step (.inclusion (upper.upon lower))
  | .step (.inclusion upper), .step (.inclusion lower) => .step (.inclusion (upper.upon lower))
  | upper, _ => upper

variable {upper lower : Action}

/-- Whichever way an action pairs, its columns go upon those of the action below. -/
theorem pairs_upon {pairs : Pairing → Step} (either : pairs = .join ∨ pairs = .inclusion)
    (pairing : Pairing) (lower : Action) :
    upon (.step (pairs pairing)) lower = .step (pairs
      { pairing with
        projections := Projection.upon pairing.projections lower.options.projections }) := by
  have alone := congrArg
    (fun columns => Action.step (pairs { pairing with projections := columns }))
    (Projection.upon_nil pairing.projections).symm
  rcases either with rfl | rfl <;> cases lower with
  | step under =>
      cases under with
      | join other => rfl
      | inclusion other => rfl
      | _ => exact alone
  | _ => exact alone

/-- Seen through the options of the action below, an action is what comes of laying it
upon that action. -/
theorem seenWith_above_options (above : upper.Faithful) (below : lower.Faithful) :
    upper.seenWith (upper.options.above lower.options) = upper.upon lower := by
  -- the kind of the lower action matters only where the upper one leaves a field out
  cases upper with
  | step it =>
      cases it with
      | commit table columns =>
          cases columns with
          | some listed => cases lower <;> rfl
          | none =>
              cases lower with
              | step under => cases under <;> rfl
              | _ => rfl
      | accumulate column call result =>
          cases result with
          | some named => cases lower <;> rfl
          | none =>
              cases lower with
              | step under => cases under <;> rfl
              | _ => rfl
      | join pairing =>
          rw [pairs_upon (.inl rfl), ← Pairing.settle_append (nodup_options below) above]
          rfl
      | inclusion pairing =>
          rw [pairs_upon (.inr rfl), ← Pairing.settle_append (nodup_options below) above]
          rfl
      | _ => rfl
  | invoke rule => rfl
  | unrecognized name => rfl

end Action

/-! ## Documents upon documents -/

namespace Pile

/-- An action upon a single one is seen as what comes of laying it there. -/
theorem seen_pair {upper lower : Action} (above : upper.Faithful) (below : lower.Faithful) :
    seen ⟨upper, [lower]⟩ = upper.upon lower := by
  unfold seen layers optionsOf
  rw [List.foldr_cons, List.foldr_cons, List.foldr_nil, Options.above_none,
    Action.seenWith_above_options above below]

theorem length_layEach (piles : List Pile) (actions : List Action) :
    (layEach piles actions).length = actions.length := by
  induction actions generalizing piles with
  | nil => rfl
  | cons action rest ih =>
      cases piles with
      | nil => exact congrArg Nat.succ (ih [])
      | cons pile others => exact congrArg Nat.succ (ih others)

theorem getElem?_layEach (piles : List Pile) (actions : List Action) (index : Nat) :
    (layEach piles actions)[index]? = actions[index]?.map fun action =>
      ⟨action, (piles[index]?.map layers).getD []⟩ := by
  induction actions generalizing piles index with
  | nil => rfl
  | cons action rest ih =>
      cases piles with
      | nil =>
          cases index with
          | zero => rfl
          | succ index => exact ih [] index
      | cons pile others =>
          cases index with
          | zero => rfl
          | succ index => exact ih others index

end Pile

namespace Document

theorem lastSaid?_pair {α : Type} (word : Document → Option α) (first second : Document) :
    lastSaid? word [first, second] = (word second).or (word first) := by
  rw [← List.singleton_append, lastSaid?_append, lastSaid?_singleton, lastSaid?_singleton]

/-- Two documents merge to the last word of both and to the actions of both in piles of
at most two. -/
theorem merge_eq_layAll {first second : Document} (one : first.Faithful)
    (other : second.Faithful) :
    first.merge second = .ok ⟨lastHeader [first, second],
      (Pile.layAll (first.actions.map fun action => ⟨action, []⟩) second.actions).map
        Pile.seen⟩ := by
  rw [merge_eq one other, ← Pile.layAll_nil]
  rfl

/-- Of the actions upon piles of one action each, every one is seen upon the action in its
position, if there is one. -/
theorem getElem?_seen_layEach {upper lower : List Action}
    (above : ∀ action ∈ upper, action.Faithful)
    (below : ∀ action ∈ lower, action.Faithful) (index : Nat) :
    ((Pile.layEach (lower.map fun action => ⟨action, []⟩) upper).map Pile.seen)[index]? =
      upper[index]?.map fun action => (lower[index]?.map action.upon).getD action := by
  rw [List.getElem?_map, Pile.getElem?_layEach, List.getElem?_map, Option.map_map]
  cases here : upper[index]? with
  | none => rfl
  | some action =>
      have faithful := above action (List.mem_of_getElem? here)
      cases under : lower[index]? with
      | none => exact congrArg some (Pile.seen_singleton faithful)
      | some other =>
          exact congrArg some (Pile.seen_pair faithful (below other (List.mem_of_getElem? under)))

/-- Merging two documents never fails.  The header says what the second document says and
otherwise what the first one says.  The actions are those of the first document if the second
has none, and otherwise those of the second, each upon the action in its position.  A document
that is merged with itself stays as it is. -/
theorem merge_lays_actions_upon (first second : Document) (one : first.Obtained)
    (other : second.Obtained) :
    ∃ merged, first.merge second = .ok merged ∧
      (∀ table, merged.header.expects.get? table =
        (second.header.expects.get? table).or (first.header.expects.get? table)) ∧
      (∀ name, merged.header.repositories.get? name =
        (second.header.repositories.get? name).or (first.header.repositories.get? name)) ∧
      (second.actions = [] → merged.actions = first.actions) ∧
      (second.actions ≠ [] → merged.actions.length = second.actions.length ∧
        ∀ (index : Nat) (upper : Action), second.actions[index]? = some upper →
          (first.actions[index]? = none → merged.actions[index]? = some upper) ∧
          ∀ lower : Action, first.actions[index]? = some lower →
            merged.actions[index]? = some (upper.upon lower)) ∧
      first.merge first = .ok first := by
  have firstFaithful := faithful_of_obtained one
  have secondFaithful := faithful_of_obtained other
  refine ⟨_, merge_eq_layAll firstFaithful secondFaithful, ?_, ?_, ?_, ?_, ?_⟩
  · intro table
    rw [get?_expects_lastHeader, lastSaid?_pair]
  · intro name
    rw [get?_repositories_lastHeader, lastSaid?_pair]
  · intro silent
    rw [silent]
    exact Pile.map_seen_singletons firstFaithful
  · intro filled
    have laid : Pile.layAll (first.actions.map fun action => ⟨action, []⟩) second.actions =
        Pile.layEach (first.actions.map fun action => ⟨action, []⟩) second.actions :=
      if_neg (by rwa [List.isEmpty_iff])
    rw [laid]
    refine ⟨by rw [List.length_map, Pile.length_layEach], ?_⟩
    intro index upper here
    have seen := getElem?_seen_layEach secondFaithful firstFaithful index
    rw [here] at seen
    refine ⟨?_, ?_⟩
    · intro absent
      rw [seen, absent]
      rfl
    · intro lower under
      rw [seen, under]
      rfl
  · show ofTree (first.toTree.merge first.toTree) = _
    rw [Tree.merge_self, ofTree_toTree_of_faithful firstFaithful]

/-- Columns of a commit, a result and columns of a join show through from the lower document,
the last ones under an inclusion. -/
theorem optional_fields_show_through :
    ∃ first second : Document,
      ofLines ["EXPECTS t[a]", "COMMIT t[a, b]", "JOIN USING [[k], [k]] INCLUDE [p AS q, r]",
        "ACCUMULATE n USING add(m) AS o", "POP"] = .ok first ∧
      ofLines ["ATTACH u AS s", "COMMIT v", "INCLUSION USING [[l], [m]] INCLUDE [w, p AS z]",
        "ACCUMULATE x USING mult(y)"] = .ok second ∧
      ∃ merged, first.merge second = .ok merged ∧
        merged.header.expects.get? "t" = some ["a"] ∧
        merged.header.repositories.get? "s" = some "u" ∧
        merged.actions.length = 3 ∧
        merged.actions[0]? = some (.step (.commit "v" (some ["a", "b"]))) ∧
        merged.actions[1]? = some (.step
          (.inclusion ⟨["l"], ["m"], [⟨"p", "z"⟩, ⟨"r", "r"⟩, ⟨"w", "w"⟩]⟩)) ∧
        merged.actions[2]? = some (.step (.accumulate "x" ⟨"mult", ["y"]⟩ (some "o"))) := by
  have first : ofLines ["EXPECTS t[a]", "COMMIT t[a, b]",
      "JOIN USING [[k], [k]] INCLUDE [p AS q, r]", "ACCUMULATE n USING add(m) AS o", "POP"] =
      .ok ⟨⟨.ofList [("t", ["a"])], .empty⟩, [.step (.commit "t" (some ["a", "b"])),
        .step (.join ⟨["k"], ["k"], [⟨"p", "q"⟩, ⟨"r", "r"⟩]⟩),
        .step (.accumulate "n" ⟨"add", ["m"]⟩ (some "o")), .step .pop]⟩ := by decide +kernel
  have second : ofLines ["ATTACH u AS s", "COMMIT v",
      "INCLUSION USING [[l], [m]] INCLUDE [w, p AS z]", "ACCUMULATE x USING mult(y)"] =
      .ok ⟨⟨.empty, .ofList [("s", "u")]⟩, [.step (.commit "v" none),
        .step (.inclusion ⟨["l"], ["m"], [⟨"w", "w"⟩, ⟨"p", "z"⟩]⟩),
        .step (.accumulate "x" ⟨"mult", ["y"]⟩ none)]⟩ := by decide +kernel
  obtain ⟨merged, made, expects, repositories, _, laid, _⟩ :=
    merge_lays_actions_upon _ _ (.lines first) (.lines second)
  obtain ⟨length, each⟩ := laid (by simp)
  exact ⟨_, _, first, second, merged, made, expects "t", repositories "s", length,
    (each 0 _ rfl).2 _ rfl, (each 1 _ rfl).2 _ rfl, (each 2 _ rfl).2 _ rfl⟩

end Document

end TableScript
