import TableScript.Proofs.Tree.Path

/-!
# Moving values between paths

A value that is put at a path is found there, and nothing changes at the paths that neither
begin with it nor begin it.  So if the targets of a transformation lie apart from each other,
each of them holds in the end what stood at its source, and the transformation can be undone.
-/

namespace TableScript

namespace Path

/-- That neither of two paths leads through the other. -/
def Apart (first second : Path) : Prop := ¬first <+: second ∧ ¬second <+: first

instance (first second : Path) : Decidable (first.Apart second) :=
  inferInstanceAs (Decidable (_ ∧ _))

theorem Apart.symm {first second : Path} (apart : first.Apart second) : second.Apart first :=
  ⟨apart.2, apart.1⟩

theorem apart_cons {key : String} {first second : Path} :
    Apart (key :: first) (key :: second) ↔ first.Apart second := by
  unfold Apart
  rw [List.prefix_cons_inj, List.prefix_cons_inj]

/-- Paths that lie apart have keys. -/
theorem Apart.exists_cons {first second : Path} (apart : first.Apart second) :
    (∃ key rest, first = key :: rest) ∧ ∃ key rest, second = key :: rest := by
  constructor
  · cases first with
    | nil => exact absurd List.nil_prefix apart.1
    | cons key rest => exact ⟨key, rest, rfl⟩
  · cases second with
    | nil => exact absurd List.nil_prefix apart.2
    | cons key rest => exact ⟨key, rest, rfl⟩

def ofTexts (entries : List (String × String)) : List (Path × Path) :=
  entries.map fun entry => (ofText entry.1, ofText entry.2)

theorem ofText_ne_nil (text : String) : ofText text ≠ [] := fun nothing =>
  Text.pieces_ne_nil '.' text.toList (List.map_eq_nil_iff.mp nothing)

end Path

namespace Tree

/-! ## Putting one value -/

/-- Behind its first key a path leads into the mapping under that key, or into a new one. -/
theorem put_cons (tree : Tree) (key : String) {rest : Path} (more : rest ≠ []) (value : Node) :
    tree.put (key :: rest) value =
      tree.insert key (.map ((Node.treeOf (tree.get? key)).put rest value)) := by
  obtain ⟨next, later, rfl⟩ := List.exists_cons_of_ne_nil more
  rw [put]
  match tree.get? key with
  | some (.map inner) => rfl
  | none => rfl
  | some (.scalar _) => rfl
  | some (.seq _) => rfl

/-- Only the value of its first key is changed by putting a value at a path. -/
theorem find?_put_of_ne (tree : Tree) {key other : String} (differ : other ≠ key)
    (rest later : Path) (value : Node) :
    (tree.put (key :: rest) value).find? (other :: later) = tree.find? (other :: later) := by
  have kept : (tree.put (key :: rest) value).get? other = tree.get? other := by
    cases rest with
    | nil => exact (OrderedMap.get?_insert _ _ _ _).trans (if_neg differ)
    | cons next rest =>
        rw [put_cons tree key (List.cons_ne_nil next rest), OrderedMap.get?_insert, if_neg differ]
  cases later with
  | nil => exact kept
  | cons next later =>
      rw [find?_cons _ other (List.cons_ne_nil next later),
        find?_cons tree other (List.cons_ne_nil next later), kept]

/-- A value is found where it was put. -/
theorem find?_put (tree : Tree) {path : Path} (named : path ≠ []) (value : Node) :
    (tree.put path value).find? path = some value := by
  induction path using Path.key_induction generalizing tree with
  | nil => exact absurd rfl named
  | last key => exact (OrderedMap.get?_insert _ _ _ _).trans (if_pos rfl)
  | further key rest more ih =>
      rw [find?_cons _ key more, put_cons tree key more, OrderedMap.get?_insert, if_pos rfl]
      exact ih _ more

/-- What stands apart from a path is not changed by putting a value there. -/
theorem find?_put_of_apart (tree : Tree) {path other : Path} (apart : path.Apart other)
    (value : Node) : (tree.put path value).find? other = tree.find? other := by
  induction path using Path.key_induction generalizing tree other with
  | nil => exact absurd List.nil_prefix apart.1
  | last key =>
      obtain ⟨-, first, later, rfl⟩ := apart.exists_cons
      refine find?_put_of_ne tree ?_ [] later value
      rintro rfl
      exact apart.1 ⟨later, rfl⟩
  | further key rest more ih =>
      obtain ⟨-, first, later, rfl⟩ := apart.exists_cons
      by_cases same : first = key
      · subst same
        have deeper := Path.apart_cons.mp apart
        have behind : later ≠ [] := by
          rintro rfl
          exact deeper.2 List.nil_prefix
        rw [find?_cons _ first behind, find?_cons tree first behind, put_cons tree first more,
          OrderedMap.get?_insert, if_pos rfl]
        exact ih _ deeper
      · exact find?_put_of_ne tree same rest later value

/-! ## Copying values -/

def copy (tree out : Tree) (pair : Path × Path) : Tree :=
  match tree.find? pair.1 with
  | some value => out.put pair.2 value
  | none => out

theorem transform_eq_foldl (tree : Tree) (paths : List (Path × Path)) :
    tree.transform paths = paths.foldl tree.copy .empty := rfl

variable {tree out : Tree}

/-- A target that was free holds what stands at the source. -/
theorem find?_copy {pair : Path × Path} (named : pair.2 ≠ [])
    (free : out.find? pair.2 = none) : (tree.copy out pair).find? pair.2 = tree.find? pair.1 := by
  unfold copy
  cases tree.find? pair.1 with
  | none => exact free
  | some value => exact find?_put out named value

theorem find?_copy_of_apart {pair : Path × Path} {path : Path} (apart : pair.2.Apart path) :
    (tree.copy out pair).find? path = out.find? path := by
  unfold copy
  cases tree.find? pair.1 with
  | none => rfl
  | some value => exact find?_put_of_apart out apart value

theorem find?_foldl_copy_of_apart {paths : List (Path × Path)} {path : Path}
    (apart : ∀ pair ∈ paths, pair.2.Apart path) :
    (paths.foldl tree.copy out).find? path = out.find? path := by
  induction paths generalizing out with
  | nil => rfl
  | cons pair rest ih =>
      obtain ⟨here, later⟩ := List.forall_mem_cons.mp apart
      rw [List.foldl_cons, ih later, find?_copy_of_apart here]

/-- Targets that lie apart and are free all hold what stands at their sources in the end. -/
theorem find?_foldl_copy {paths : List (Path × Path)}
    (named : ∀ pair ∈ paths, pair.2 ≠ [])
    (apart : paths.Pairwise fun first second => first.2.Apart second.2)
    (free : ∀ pair ∈ paths, out.find? pair.2 = none) :
    ∀ pair ∈ paths, (paths.foldl tree.copy out).find? pair.2 = tree.find? pair.1 := by
  induction paths generalizing out with
  | nil => exact List.forall_mem_nil _
  | cons first rest ih =>
      obtain ⟨before, others⟩ := List.pairwise_cons.mp apart
      obtain ⟨firstNamed, named⟩ := List.forall_mem_cons.mp named
      obtain ⟨firstFree, free⟩ := List.forall_mem_cons.mp free
      refine List.forall_mem_cons.mpr ⟨?_, ih named others ?_⟩
      · -- what is copied later does not disturb the first target
        rw [List.foldl_cons, find?_foldl_copy_of_apart fun pair member =>
          (before pair member).symm]
        exact find?_copy firstNamed firstFree
      · -- nor does the first copy make up values at the other targets
        intro pair member
        rw [find?_copy_of_apart (before pair member)]
        exact free pair member

/-! ## Transforming -/

/-- Of two trees that agree at two sources the same is copied. -/
theorem copy_congr {other : Tree} {source origin : Path}
    (same : tree.find? source = other.find? origin) (target : Path) :
    tree.copy out (source, target) = other.copy out (origin, target) := by
  unfold copy
  rw [same]

theorem transformInverted_eq_foldl (tree : Tree) (paths : List (Path × Path)) :
    tree.transformInverted paths =
      paths.foldl (fun out pair => tree.copy out pair.swap) .empty := by
  unfold transformInverted
  rw [transform_eq_foldl, List.foldl_map]

/-- A transformation with targets that lie apart puts at each of them what stands at its source,
or nothing.  With sources and targets exchanged it puts all of this back where it was, in the order
in which it would have been copied there at first. -/
theorem transform_places_and_puts_back (tree : Tree) {entries : List (String × String)}
    (apart : (entries.map fun entry => Path.ofText entry.2).Pairwise Path.Apart) :
    (∀ entry ∈ entries,
      (tree.transform (Path.ofTexts entries)).find? (Path.ofText entry.2) =
        tree.find? (Path.ofText entry.1) ∧
      ((tree.transform (Path.ofTexts entries)).containsPath (Path.ofText entry.2) = true ↔
        tree.containsPath (Path.ofText entry.1) = true)) ∧
    (tree.transform (Path.ofTexts entries)).transformInverted (Path.ofTexts entries) =
      tree.transform (Path.ofTexts (entries.map fun entry => (entry.1, entry.1))) := by
  have placed : ∀ entry ∈ entries,
      (tree.transform (Path.ofTexts entries)).find? (Path.ofText entry.2) =
        tree.find? (Path.ofText entry.1) := by
    have named : ∀ pair ∈ Path.ofTexts entries, pair.2 ≠ [] :=
      List.forall_mem_map.mpr fun entry _ => Path.ofText_ne_nil entry.2
    have targets : (Path.ofTexts entries).Pairwise fun first second =>
        first.2.Apart second.2 := by
      unfold Path.ofTexts
      rw [List.pairwise_map] at apart ⊢
      exact apart
    rw [transform_eq_foldl]
    exact List.forall_mem_map.mp
      (find?_foldl_copy named targets fun pair _ => empty_find? pair.2)
  refine ⟨fun entry member => ⟨placed entry member, ?_⟩, ?_⟩
  · unfold containsPath
    rw [placed entry member]
  · rw [transformInverted_eq_foldl,
      transform_eq_foldl tree (Path.ofTexts (entries.map fun entry => (entry.1, entry.1)))]
    unfold Path.ofTexts at placed ⊢
    rw [List.foldl_map, List.map_map, List.foldl_map]
    exact List.foldl_ext _ _ _ fun out entry member => copy_congr (placed entry member) _

/-- Values from one mapping are gathered beside each other, and go back into one mapping. -/
theorem gathered_values_go_back :
    let tree : Tree := .ofList [("c", .scalar "2"),
      ("a", .map (ofScalars [("b", "1"), ("d", "3")]))]
    let entries := [("a.d", "x.y"), ("c", "x.z.w"), ("a.e", "v"), ("a.b", "x.z.u")]
    (entries.map fun entry => Path.ofText entry.2).Pairwise Path.Apart ∧
      (tree.transform (Path.ofTexts entries)).find? (.ofText "x.z.u") = some (.scalar "1") ∧
      (tree.transform (Path.ofTexts entries)).containsPath (.ofText "v") = false ∧
      (tree.transform (Path.ofTexts entries)).transformInverted (Path.ofTexts entries) =
        .ofList [("a", .map (ofScalars [("d", "3"), ("b", "1")])), ("c", .scalar "2")] := by
  intro tree entries
  have apart : (entries.map fun entry => Path.ofText entry.2).Pairwise Path.Apart := by decide
  obtain ⟨placed, back⟩ := transform_places_and_puts_back tree apart
  refine ⟨apart, (placed ("a.b", "x.z.u") (by decide)).1, ?_, back⟩
  rw [Bool.eq_false_iff, Ne, (placed ("a.e", "v") (by decide)).2]
  decide

end Tree

end TableScript
