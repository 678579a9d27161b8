import Mathlib.Data.Fintype.EquivFin
import TableScript.Proofs.Tree.Path

/-!
# When merging is associative

Three trees may be merged in either grouping, whatever the lowest one is, exactly if each
mapping of the top tree lies on a mapping of the middle tree wherever the middle tree has a
value under its key.  Else the top mapping replaces what the middle tree has there in the
one grouping, and is laid over the lowest tree in the other.  Trees whose mappings match,
and which have none in sequences, are of this sort.
-/

namespace TableScript

/-- A value that is laid over another one may be laid over it before or after that one is laid
over a third, if its mappings lie on mappings of the middle value with which this holds. -/
theorem Node.mergeOnto_assoc {middle top : Node}
    (nested : ∀ slot inner, top.inner? slot = some inner →
      ∃ under, middle.inner? slot = some under ∧
        ∀ below : Tree, (below.merge under).merge inner = below.merge (under.merge inner))
    (bottom : Option Node) :
    top.mergeOnto (some (middle.mergeOnto bottom)) =
      (top.mergeOnto (some middle)).mergeOnto bottom := by
  rw [mergeOnto_eq_mapInner top, mergeOnto_eq_mapInner top, mergeOnto_eq_mapInner (mapInner ..),
    mapInner_mapInner]
  apply mapInner_congr
  intro slot inner found
  obtain ⟨under, stands, assoc⟩ := nested slot inner found
  rw [treeAt_mergeOnto stands, treeAt_of_inner? stands]
  exact assoc (treeAt bottom slot)

namespace Tree

/-- That each mapping of an upper tree lies on a mapping of the lower one, where the lower one
has a value under its key. -/
def Supports (lower upper : Tree) : Prop :=
  ∀ (site : Site) (below above : Tree), lower.nested? site = some below →
    upper.nested? site = some above → ∀ turn inner, above.innerAt? turn = some inner →
      turn.1 ∈ below.keys → ∃ under, below.innerAt? turn = some under

variable {first second third : Tree}

theorem Supports.inner {under inner : Tree} {turn : String × Slot}
    (supports : second.Supports third) (below : second.innerAt? turn = some under)
    (above : third.innerAt? turn = some inner) : under.Supports inner := by
  intro site lower upper found held
  apply supports (turn :: site) lower upper
  · rw [nested?, below]
    exact found
  · rw [nested?, above]
    exact held

/-! ## Sufficiency -/

theorem keys_merge_assoc (first second third : Tree) :
    ((first.merge second).merge third).keys = (first.merge (second.merge third)).keys := by
  simp only [keys_merge, List.filter_append, List.filter_filter, List.append_assoc]
  congr 2
  apply List.filter_congr
  intro key _
  by_cases low : key ∈ first.keys
  · simp [low]
  · simp [low]

theorem merge_assoc_of_supports (supports : second.Supports third) (first : Tree) :
    (first.merge second).merge third = first.merge (second.merge third) := by
  induction third using nested_induction generalizing first second with
  | nested third ih =>
      apply OrderedMap.ext_keys_get? (keys_merge_assoc first second third)
      intro key _
      rw [get?_merge (first.merge second), get?_merge first (second.merge third),
        get?_merge first second, get?_merge second third]
      cases top : third.get? key with
      | none => rfl
      | some upper =>
          cases middle : second.get? key with
          | none => simp only [Node.mergeOnto_none]
          | some lower =>
              refine congrArg some (Node.mergeOnto_assoc ?_ (first.get? key))
              intro slot inner stands
              have above := (innerAt?_of_get? top slot).trans stands
              have present : key ∈ second.keys := OrderedMap.mem_keys_iff.mpr ⟨lower, middle⟩
              obtain ⟨under, below⟩ :=
                supports [] second third rfl rfl (key, slot) inner above present
              refine ⟨under, (innerAt?_of_get? middle slot).symm.trans below, ?_⟩
              exact ih key upper top slot inner stands (supports.inner below above)

/-! ## Necessity -/

/-- A mapping that replaces a value of the middle tree is laid over a mapping of the lowest tree
only if the upper trees are merged first. -/
theorem exists_innerAt?_of_merge_assoc
    (assoc : ∀ first : Tree, (first.merge second).merge third = first.merge (second.merge third))
    {turn : String × Slot} {inner : Tree} (above : third.innerAt? turn = some inner)
    (present : turn.1 ∈ second.keys) : ∃ under, second.innerAt? turn = some under := by
  cases below : second.innerAt? turn with
  | some under => exact ⟨under, rfl⟩
  | none =>
      obtain ⟨name, fresh⟩ := Infinite.exists_notMem_finset inner.keySet
      rw [OrderedMap.mem_keySet] at fresh
      let lone : Tree := OrderedMap.ofList [(name, .scalar "")]
      obtain ⟨first, bottom⟩ := exists_innerAt?_eq turn lone
      have replaced : ((first.merge second).merge third).innerAt? turn = some inner := by
        rw [innerAt?_merge_of_some _ above, innerAt?_merge, if_pos present, below]
        exact congrArg some (empty_merge inner)
      have laid : (first.merge (second.merge third)).innerAt? turn = some (lone.merge inner) := by
        have upper : (second.merge third).innerAt? turn = some inner := by
          rw [innerAt?_merge_of_some _ above, below]
          exact congrArg some (empty_merge inner)
        rw [innerAt?_merge_of_some _ upper, bottom, Option.getD_some]
      rw [assoc first, laid, Option.some_inj] at replaced
      have kept : name ∈ (lone.merge inner).keys := by
        rw [keys_merge]
        exact List.mem_append_left _ List.mem_cons_self
      rw [replaced] at kept
      exact absurd kept fresh

theorem supports_of_merge_assoc
    (assoc : ∀ first : Tree, (first.merge second).merge third = first.merge (second.merge third)) :
    second.Supports third := by
  intro site below above lower upper turn inner found present
  induction site generalizing second third with
  | nil =>
      cases lower
      cases upper
      exact exists_innerAt?_of_merge_assoc assoc found present
  | cons step rest ih =>
      obtain ⟨under, middle, lower⟩ := Option.bind_eq_some_iff.mp lower
      obtain ⟨upon, top, upper⟩ := Option.bind_eq_some_iff.mp upper
      refine ih (fun deep => ?_) lower upper
      obtain ⟨first, bottom⟩ := exists_innerAt?_eq step deep
      have left := innerAt?_merge_of_some (first.merge second) top
      rw [innerAt?_merge_of_some first middle, bottom] at left
      have right := innerAt?_merge_of_some first (innerAt?_merge_of_some second top)
      rw [middle, bottom, ← assoc first, left] at right
      exact Option.some.inj right

/-- Merging onto every tree is associative exactly if the middle tree supports the top one. -/
theorem merge_assoc_iff_supports :
    (∀ first : Tree, (first.merge second).merge third = first.merge (second.merge third)) ↔
      second.Supports third :=
  ⟨supports_of_merge_assoc, merge_assoc_of_supports⟩

/-! ## Trees of matching kinds -/

/-- That wherever two trees both have a value, both values are mappings or neither is. -/
def Compatible (first second : Tree) : Prop :=
  ∀ (path : Path) (one other : Node), first.find? path = some one →
    second.find? path = some other → (one.kind = .mapping ↔ other.kind = .mapping)

/-- That no sequence to which a path leads has a mapping among its items. -/
def Recordless (tree : Tree) : Prop :=
  ∀ (path : Path) (items : List Node), tree.find? path = some (.seq items) →
    ∀ item ∈ items, item.kind ≠ .mapping

theorem compatible_iff : first.Compatible second ↔ ∀ key one other,
    first.get? key = some one → second.get? key = some other →
      (one.kind = .mapping ↔ other.kind = .mapping) ∧
      ∀ left right : Tree, one = .map left → other = .map right → left.Compatible right := by
  constructor
  · intro compatible key one other found faced
    refine ⟨compatible [key] one other found faced, ?_⟩
    rintro left right rfl rfl path value counterpart stands facing
    have more : path ≠ [] := by
      rintro rfl
      cases stands
    apply compatible (key :: path)
    · exact (find?_cons_eq_some_iff more).mpr ⟨left, found, stands⟩
    · exact (find?_cons_eq_some_iff more).mpr ⟨right, faced, facing⟩
  · intro each path one other found faced
    cases path using Path.key_induction with
    | nil => cases found
    | last key => exact (each key one other found faced).1
    | further key rest more =>
        obtain ⟨left, lower, stands⟩ := (find?_cons_eq_some_iff more).mp found
        obtain ⟨right, upper, facing⟩ := (find?_cons_eq_some_iff more).mp faced
        exact (each key _ _ lower upper).2 left right rfl rfl rest one other stands facing

theorem recordless_iff {tree : Tree} : tree.Recordless ↔ ∀ key node, tree.get? key = some node →
    (∀ items, node = .seq items → ∀ item ∈ items, item.kind ≠ .mapping) ∧
    ∀ inner : Tree, node = .map inner → inner.Recordless := by
  constructor
  · intro recordless key node held
    constructor
    · rintro items rfl
      exact recordless [key] items held
    · rintro inner rfl path items found
      have more : path ≠ [] := by
        rintro rfl
        cases found
      exact recordless (key :: path) items ((find?_cons_eq_some_iff more).mpr ⟨inner, held, found⟩)
  · intro each path items found
    cases path using Path.key_induction with
    | nil => cases found
    | last key => exact (each key _ found).1 items rfl
    | further key rest more =>
        obtain ⟨inner, held, stands⟩ := (find?_cons_eq_some_iff more).mp found
        exact (each key _ held).2 inner rfl rest items stands

theorem exists_scalar_of_get?_ofScalars {pairs : List (String × String)} {key : String}
    {node : Node} (found : (ofScalars pairs).get? key = some node) :
    ∃ text, node = .scalar text := by
  have listed := OrderedMap.mem_of_mem_toList_ofList (OrderedMap.get?_eq_some_iff.mp found)
  obtain ⟨pair, _, same⟩ := List.mem_map.mp listed
  cases same
  exact ⟨pair.2, rfl⟩

theorem compatible_ofScalars (pairs others : List (String × String)) :
    (ofScalars pairs).Compatible (ofScalars others) := by
  rw [compatible_iff]
  intro key one other found faced
  obtain ⟨text, rfl⟩ := exists_scalar_of_get?_ofScalars found
  obtain ⟨counterpart, rfl⟩ := exists_scalar_of_get?_ofScalars faced
  exact ⟨Iff.rfl, nofun⟩

theorem recordless_ofScalars (pairs : List (String × String)) :
    (ofScalars pairs).Recordless := by
  rw [recordless_iff]
  intro key node held
  obtain ⟨text, rfl⟩ := exists_scalar_of_get?_ofScalars held
  exact ⟨nofun, nofun⟩

/-- A tree without records has no mappings in its values but those that are these values. -/
theorem Recordless.slot_eq_whole {tree inner : Tree} {turn : String × Slot}
    (recordless : tree.Recordless) (found : tree.innerAt? turn = some inner) :
    turn.2 = .whole := by
  obtain ⟨key, slot⟩ := turn
  cases slot with
  | whole => rfl
  | item index =>
      obtain ⟨node, held, stands⟩ := Option.bind_eq_some_iff.mp found
      cases node with
      | scalar text => cases stands
      | map tree => cases stands
      | seq items =>
          obtain ⟨item, listed, mapping⟩ := Option.bind_eq_some_iff.mp stands
          have plain := (recordless_iff.mp recordless key _ held).1 items rfl item
            (List.mem_of_getElem? listed)
          rw [Node.map?_eq_some_iff.mp mapping] at plain
          exact absurd rfl plain

theorem supports_of_compatible (compatible : second.Compatible third)
    (recordless : third.Recordless) : second.Supports third := by
  intro site below above lower upper turn inner found present
  induction site generalizing second third with
  | nil =>
      cases lower
      cases upper
      obtain ⟨key, slot⟩ := turn
      cases recordless.slot_eq_whole found
      obtain ⟨node, held⟩ := OrderedMap.mem_keys_iff.mp present
      rw [innerAt?_whole_eq_some_iff] at found
      have mapping : node.kind = .mapping :=
        (compatible_iff.mp compatible key node (.map inner) held found).1.mpr rfl
      cases node with
      | scalar text => cases mapping
      | seq items => cases mapping
      | map under => exact ⟨under, innerAt?_whole_eq_some_iff.mpr held⟩
  | cons step rest ih =>
      obtain ⟨under, middle, lowerRest⟩ := Option.bind_eq_some_iff.mp lower
      obtain ⟨upon, top, upperRest⟩ := Option.bind_eq_some_iff.mp upper
      obtain ⟨key, slot⟩ := step
      cases recordless.slot_eq_whole top
      rw [innerAt?_whole_eq_some_iff] at middle top
      have alike : under.Compatible upon :=
        (compatible_iff.mp compatible key _ _ middle top).2 under upon rfl rfl
      have plain : upon.Recordless := (recordless_iff.mp recordless key _ top).2 upon rfl
      exact ih alike plain lowerRest upperRest

/-- Merging is associative, with every key in its place, if the values that the upper two trees
have at the same path are both mappings or both none, and no sequence of the top tree holds a
mapping.  Nothing is asked of the lowest tree. -/
theorem merge_assoc_of_compatible (first : Tree) {second third : Tree}
    (compatible : second.Compatible third) (recordless : third.Recordless) :
    (first.merge second).merge third = first.merge (second.merge third) :=
  merge_assoc_of_supports (supports_of_compatible compatible recordless) first

/-- Names give way to a text and a mapping to a mapping in either grouping. -/
theorem renamed_lists_merge_in_either_grouping :
    let first : Tree := .ofList [("m", .map (ofScalars [("y", "1")])), ("l", .ofNames ["p"])]
    let second : Tree := .ofList [("l", .ofNames ["q", "r"]), ("m", .map (ofScalars [("x", "2")]))]
    let third : Tree := .ofList [("m", .map (ofScalars [("x", "3")])), ("l", .scalar "s")]
    second.Compatible third ∧ third.Recordless ∧
      (first.merge second).merge third = first.merge (second.merge third) ∧
      first.merge (second.merge third) =
        .ofList [("m", .map (ofScalars [("y", "1"), ("x", "3")])), ("l", .scalar "s")] := by
  intro first second third
  have values : ∀ {key : String} {node : Node} {entries : List (String × Node)} {tree : Tree},
      tree.toList = entries → tree.get? key = some node → (key, node) ∈ entries := by
    rintro key node _ tree rfl found
    exact OrderedMap.get?_eq_some_iff.mp found
  have compatible : second.Compatible third := by
    rw [compatible_iff]
    intro key one other found faced
    have listed := values (show second.toList = [_, _] from rfl) found
    simp only [List.mem_cons, List.not_mem_nil, or_false, Prod.mk.injEq] at listed
    rcases listed with ⟨rfl, rfl⟩ | ⟨rfl, rfl⟩
    · cases faced
      exact ⟨by decide, nofun⟩
    · cases faced
      refine ⟨Iff.rfl, ?_⟩
      rintro _ _ ⟨⟩ ⟨⟩
      exact compatible_ofScalars _ _
  have recordless : third.Recordless := by
    rw [recordless_iff]
    intro key node held
    have listed := values (show third.toList = [_, _] from rfl) held
    simp only [List.mem_cons, List.not_mem_nil, or_false, Prod.mk.injEq] at listed
    rcases listed with ⟨rfl, rfl⟩ | ⟨rfl, rfl⟩
    · refine ⟨nofun, ?_⟩
      rintro _ ⟨⟩
      exact recordless_ofScalars _
    · exact ⟨nofun, nofun⟩
  exact ⟨compatible, recordless, merge_assoc_of_compatible first compatible recordless, rfl⟩

end Tree

end TableScript
