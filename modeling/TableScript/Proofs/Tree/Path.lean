import TableScript.Proofs.Tree.Merge
import TableScript.Proofs.Tree.Shape
import TableScript.Tree.Path

/-!
# Paths through merged and cut trees

What stands at a path of a tree that was laid over another one, and of a tree that was cut
to a shape.  The upper tree hides what lies below the values of it that are no mappings,
and shows the lower tree at all other paths that it does not have itself; a shape leaves
exactly the paths that both trees have.  All this holds of every list of keys, so of the
paths that dotted texts denote.
-/

namespace TableScript

/-- Induction over the keys of a path.  A path goes through the mappings under all its keys but
the last one, which has a case of its own. -/
@[elab_as_elim]
theorem Path.key_induction {motive : Path → Prop} (nil : motive [])
    (last : ∀ key, motive [key])
    (further : ∀ key rest, rest ≠ [] → motive rest → motive (key :: rest)) :
    ∀ path, motive path
  | [] => nil
  | [key] => last key
  | key :: next :: rest =>
      further key (next :: rest) (List.cons_ne_nil next rest)
        (Path.key_induction nil last further (next :: rest))

namespace Tree

/-! ## Steps of a path -/

theorem empty_find? (path : Path) : find? .empty path = none := by
  match path with
  | [] => rfl
  | [_] => rfl
  | _ :: _ :: _ => rfl

/-- Behind its first key a path leads through the mapping under that key. -/
theorem find?_cons (tree : Tree) (key : String) {rest : Path} (more : rest ≠ []) :
    tree.find? (key :: rest) = find? (Node.treeOf (tree.get? key)) rest := by
  obtain ⟨next, later, rfl⟩ := List.exists_cons_of_ne_nil more
  rw [find?]
  match tree.get? key with
  | some (.map inner) => rfl
  | none => exact (empty_find? _).symm
  | some (.scalar _) => exact (empty_find? _).symm
  | some (.seq _) => exact (empty_find? _).symm

theorem find?_cons_eq_some_iff {tree : Tree} {key : String} {rest : Path} (more : rest ≠ [])
    {node : Node} : tree.find? (key :: rest) = some node ↔
      ∃ inner : Tree, tree.get? key = some (.map inner) ∧ inner.find? rest = some node := by
  have nothing : find? .empty rest ≠ some node := by
    rw [empty_find?]
    exact (Option.some_ne_none node).symm
  rw [find?_cons tree key more]
  match tree.get? key with
  | some (.map inner) => simp [Node.treeOf]
  | none => simpa [Node.treeOf] using nothing
  | some (.scalar _) => simpa [Node.treeOf] using nothing
  | some (.seq _) => simpa [Node.treeOf] using nothing

/-! ## Merging -/

/-- That every value of a tree at a proper beginning of a path is a mapping. -/
def LetsThrough (tree : Tree) (path : Path) : Prop :=
  ∀ front : Path, front ≠ [] → front ≠ path → front <+: path →
    ∀ node, tree.find? front = some node → node.kind = .mapping

theorem letsThrough_nil (tree : Tree) : tree.LetsThrough [] := by
  intro front filled _ begins
  exact absurd (List.prefix_nil.mp begins) filled

theorem letsThrough_singleton (tree : Tree) (key : String) : tree.LetsThrough [key] := by
  intro front filled proper begins
  obtain rfl | ⟨later, rfl, nothing⟩ := List.prefix_cons_iff.mp begins
  · exact absurd rfl filled
  · rw [List.prefix_nil.mp nothing] at proper
    exact absurd rfl proper

theorem letsThrough_cons (tree : Tree) (key : String) {rest : Path} (more : rest ≠ []) :
    tree.LetsThrough (key :: rest) ↔ ∀ node, tree.get? key = some node →
      ∃ inner : Tree, node = .map inner ∧ inner.LetsThrough rest := by
  constructor
  · intro lets node found
    have mapping : node.kind = .mapping := by
      refine lets [key] (List.cons_ne_nil key []) ?_ ⟨rest, rfl⟩ node found
      intro whole
      exact more (List.cons.inj whole).2.symm
    cases node with
    | scalar text => cases mapping
    | seq items => cases mapping
    | map inner =>
        refine ⟨inner, rfl, ?_⟩
        intro front filled proper begins node stands
        refine lets (key :: front) (List.cons_ne_nil key front) ?_ ?_ node ?_
        · intro whole
          exact proper (List.cons.inj whole).2
        · exact List.cons_prefix_cons.mpr ⟨rfl, begins⟩
        · exact (find?_cons_eq_some_iff filled).mpr ⟨inner, found, stands⟩
  · intro lets front filled proper begins node stands
    obtain rfl | ⟨later, rfl, behind⟩ := List.prefix_cons_iff.mp begins
    · exact absurd rfl filled
    · by_cases last : later = []
      · subst last
        obtain ⟨inner, rfl, _⟩ := lets node stands
        rfl
      · obtain ⟨inner, found, stands⟩ := (find?_cons_eq_some_iff last).mp stands
        obtain ⟨_, ⟨⟩, deeper⟩ := lets (.map inner) found
        refine deeper later last ?_ behind node stands
        intro whole
        exact proper (congrArg (key :: ·) whole)

variable {dest src : Tree} {path : Path}

/-- A path that names a value leads through mappings. -/
theorem letsThrough_of_find? {node : Node} (found : src.find? path = some node) :
    src.LetsThrough path := by
  induction path using Path.key_induction generalizing src with
  | nil => exact letsThrough_nil src
  | last key => exact letsThrough_singleton src key
  | further key rest more ih =>
      obtain ⟨inner, held, stands⟩ := (find?_cons_eq_some_iff more).mp found
      rw [letsThrough_cons src key more, held]
      rintro value ⟨⟩
      exact ⟨inner, rfl, ih stands⟩

/-- At a path that the upper tree lets through, its value is laid over the value of the lower
tree; where it has none, that value remains. -/
theorem find?_merge_of_letsThrough (lets : src.LetsThrough path) :
    (dest.merge src).find? path =
      match src.find? path with
      | some node => some (node.mergeOnto (dest.find? path))
      | none => dest.find? path := by
  induction path using Path.key_induction generalizing dest src with
  | nil => rfl
  | last key => exact get?_merge dest src key
  | further key rest more ih =>
      rw [find?_cons _ key more, find?_cons src key more, find?_cons dest key more]
      cases found : src.get? key with
      | none =>
          have nothing : find? (Node.treeOf none) rest = none := empty_find? rest
          rw [get?_merge_of_none found, nothing]
      | some value =>
          obtain ⟨inner, rfl, deeper⟩ := (letsThrough_cons src key more).mp lets value found
          rw [get?_merge_of_map found]
          exact ih deeper

/-- Below a value of the upper tree that is no mapping nothing is left. -/
theorem find?_merge_of_not_letsThrough (blocked : ¬src.LetsThrough path) :
    (dest.merge src).find? path = none := by
  induction path using Path.key_induction generalizing dest src with
  | nil => rfl
  | last key => exact absurd (letsThrough_singleton src key) blocked
  | further key rest more ih =>
      rw [letsThrough_cons src key more] at blocked
      push Not at blocked
      obtain ⟨value, found, blocked⟩ := blocked
      rw [find?_cons _ key more, get?_merge_of_some found]
      match value with
      | .map inner =>
          rw [Node.mergeOnto_map]
          exact ih (blocked inner rfl)
      | .scalar _ => exact empty_find? rest
      | .seq _ =>
          rw [Node.mergeOnto_eq_mapInner]
          exact empty_find? rest

/-- A tree laid over another one has its own paths, and of the lower tree those that it lets
through.  What it has no value for remains as it was, and its own scalars are found. -/
theorem merge_shows_what_is_let_through (dest src : Tree) (path : Path) :
    ((dest.merge src).containsPath path = true ↔
      src.containsPath path = true ∨ dest.containsPath path = true ∧ src.LetsThrough path) ∧
    (src.containsPath path = false → (dest.merge src).containsPath path = true →
      (dest.merge src).find? path = dest.find? path) ∧
    ∀ text, src.find? path = some (.scalar text) →
      (dest.merge src).find? path = some (.scalar text) := by
  unfold containsPath
  by_cases lets : src.LetsThrough path
  · rw [find?_merge_of_letsThrough lets]
    cases src.find? path with
    | none => simp [lets]
    | some node =>
        refine ⟨by simp, nofun, ?_⟩
        rintro text ⟨⟩
        rfl
  · have absent : src.find? path = none := by
      rw [Option.eq_none_iff_forall_ne_some]
      intro node found
      exact lets (letsThrough_of_find? found)
    rw [find?_merge_of_not_letsThrough lets, absent]
    simp [lets]

/-- A value remains beside the keys that are laid over its mapping. -/
theorem neighbour_remains :
    let dest : Tree := .ofList [("a", .map (ofScalars [("b", "1"), ("c", "2")]))]
    let src : Tree := .ofList [("d", .scalar "3"), ("a", .map (ofScalars [("b", "4")]))]
    src.containsPath (.ofText "a.c") = false ∧
      (dest.merge src).containsPath (.ofText "a.c") = true ∧
      (dest.merge src).find? (.ofText "a.c") = dest.find? (.ofText "a.c") ∧
      (dest.merge src).find? (.ofText "a.b") = some (.scalar "4") := by
  intro dest src
  have lacking : src.containsPath (.ofText "a.c") = false := by decide
  have shown : (dest.merge src).containsPath (.ofText "a.c") = true := by decide
  have other := merge_shows_what_is_let_through dest src (.ofText "a.b")
  exact ⟨lacking, shown, (merge_shows_what_is_let_through dest src _).2.1 lacking shown,
    other.2.2 "4" rfl⟩

/-! ## Cutting to a shape -/

theorem treeOf_extract (value shape : Node) :
    Node.treeOf (some (value.extract shape)) =
      Tree.extract (Node.treeOf (some value)) (Node.treeOf (some shape)) := by
  cases value with
  | scalar text =>
      rw [Node.scalar_extract]
      exact (empty_extract _).symm
  | map tree => cases shape <;> rfl
  | seq items => cases shape <;> exact (empty_extract _).symm

/-- Behind its first key a path leads through mappings that are cut to one another. -/
theorem treeOf_get?_extract (doc shape : Tree) (key : String) :
    Node.treeOf ((doc.extract shape).get? key) =
      Tree.extract (Node.treeOf (doc.get? key)) (Node.treeOf (shape.get? key)) := by
  rw [get?_extract]
  cases shape.get? key with
  | none => rfl
  | some counterpart =>
      cases doc.get? key with
      | none => exact (empty_extract _).symm
      | some value => exact treeOf_extract value counterpart

/-- At a path that both trees have, the value is cut to its counterpart. -/
theorem find?_extract (doc shape : Tree) (path : Path) :
    (doc.extract shape).find? path = (shape.find? path).bind fun counterpart =>
      (doc.find? path).map fun value => value.extract counterpart := by
  induction path using Path.key_induction generalizing doc shape with
  | nil => rfl
  | last key => exact get?_extract doc shape key
  | further key rest more ih =>
      rw [find?_cons _ key more, find?_cons shape key more, find?_cons doc key more,
        treeOf_get?_extract, ih]

/-- A mapping of a cut tree keeps the keys that its counterpart lists, in the order of these. -/
theorem keys_of_find?_extract {doc shape inner : Tree} {path : Path}
    (found : (doc.extract shape).find? path = some (.map inner)) :
    ∃ uncut, doc.find? path = some (.map uncut) ∧
      inner.keys = (Node.treeOf (shape.find? path)).keys.filter (· ∈ uncut.keys) := by
  rw [find?_extract] at found
  obtain ⟨counterpart, faced, found⟩ := Option.bind_eq_some_iff.mp found
  obtain ⟨value, held, same⟩ := Option.map_eq_some_iff.mp found
  have cut := treeOf_extract value counterpart
  cases value with
  | scalar text =>
      rw [Node.scalar_extract] at same
      cases same
  | seq items => cases counterpart <;> cases same
  | map uncut =>
      refine ⟨uncut, held, ?_⟩
      rw [same] at cut
      rw [faced, ← keys_extract]
      exact congrArg OrderedMap.keys cut

/-- Cutting a tree to a shape leaves exactly the paths that both have, and the scalars at them.
The keys of each mapping stand in the order of the shape, and to cut again changes nothing. -/
theorem extract_intersects_paths (doc shape : Tree) :
    (∀ path, (doc.extract shape).containsPath path = true ↔
      doc.containsPath path = true ∧ shape.containsPath path = true) ∧
    (∀ path text, shape.containsPath path = true → doc.find? path = some (.scalar text) →
      (doc.extract shape).find? path = some (.scalar text)) ∧
    (doc.extract shape).keys = shape.keys.filter (· ∈ doc.keys) ∧
    (∀ path inner, (doc.extract shape).find? path = some (.map inner) →
      ∃ uncut, doc.find? path = some (.map uncut) ∧
        inner.keys = (Node.treeOf (shape.find? path)).keys.filter (· ∈ uncut.keys)) ∧
    (doc.extract shape).extract shape = doc.extract shape := by
  refine ⟨?_, ?_, keys_extract doc shape, fun _ _ => keys_of_find?_extract,
    extract_extract doc shape⟩
  · intro path
    unfold containsPath
    rw [find?_extract]
    cases shape.find? path with
    | none => simp
    | some counterpart => simp
  · intro path text listed found
    obtain ⟨counterpart, faced⟩ := Option.isSome_iff_exists.mp listed
    rw [find?_extract, faced, found, Option.bind_some, Option.map_some, Node.scalar_extract]

/-- A mapping is cut to the keys of a mapping, in their order, and to none by a scalar. -/
theorem shape_orders_keys :
    let doc : Tree := .ofList
      [("a", .map (ofScalars [("b", "1"), ("c", "2"), ("d", "3")])),
        ("e", .map (ofScalars [("f", "4")]))]
    let shape : Tree := .ofList
      [("e", .scalar ""), ("a", .map (ofScalars [("d", ""), ("x", ""), ("b", "")]))]
    (doc.extract shape).find? (.ofText "a") = some (.map (ofScalars [("d", "3"), ("b", "1")])) ∧
      (doc.extract shape).find? (.ofText "a.d") = some (.scalar "3") ∧
      (doc.extract shape).find? (.ofText "e") = some (.map .empty) ∧
      (∃ uncut, doc.find? (.ofText "e") = some (.map uncut)) := by
  intro doc shape
  obtain ⟨_, scalars, _, levels, _⟩ := extract_intersects_paths doc shape
  have emptied : (doc.extract shape).find? (.ofText "e") = some (.map .empty) := rfl
  obtain ⟨uncut, held, _⟩ := levels _ _ emptied
  exact ⟨rfl, scalars (.ofText "a.d") "3" (by decide) rfl, emptied, uncut, held⟩

end Tree

end TableScript
