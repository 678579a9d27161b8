import TableScript.Proofs.Table.Join
import TableScript.Proofs.Table.KeyOrder

/-!
# Inclusions and joins

An inclusion keeps of a join the first record that each left record makes.  So it succeeds
where the join does.  It looks at the right table beyond the first match only to find it: if
the left records supply all columns, then of the right records it matters only which there
are.
-/

namespace TableScript

/-- Of a left record that has all sources of the columns any right record makes the same. -/
theorem Record.project_of_supplied {projections : List Projection} {first : Record}
    (supplied : ∀ column ∈ projections, column.source ∈ first.keys) (second other : Record) :
    project projections (first, second) = project projections (first, other) := by
  have complete : ∀ right, Complete projections (first, right) := fun _ column member =>
    .inl (supplied column member)
  have same : ∀ column ∈ projections,
      drawn (first, second) column = drawn (first, other) column := by
    intro column member
    obtain ⟨value, found⟩ := OrderedMap.mem_keys_iff.mp (supplied column member)
    rw [drawn, drawn, found]
    rfl
  rw [project_of_complete (complete second), project_of_complete (complete other),
    List.map_congr_left same]

namespace Table

variable {left right other : Table} {pairing : Pairing}

def matched (pairing : Pairing) (right : Table) (record : Record) : Bool :=
  right.any (Record.joins pairing record)

theorem matched_iff {record : Record} :
    matched pairing right record = true ↔
      ∃ second ∈ right, Record.Matches pairing (record, second) := by
  unfold matched
  simp only [List.any_eq_true, Record.joins_iff_matches]

theorem matched_eq_isSome (pairing : Pairing) (right : Table) (record : Record) :
    matched pairing right record = (right.find? (Record.joins pairing record)).isSome := by
  unfold matched
  rw [Bool.eq_iff_iff, List.any_eq_true, List.find?_isSome]

/-! ## Left records one by one -/

theorem matchingPairs_eq_flatMap (pairing : Pairing) (left right : Table) :
    matchingPairs pairing left right =
      left.flatMap fun record => matchingPairs pairing [record] right := by
  unfold matchingPairs
  simp only [List.flatMap_singleton]

theorem firstMatches_eq_flatMap (pairing : Pairing) (left right : Table) :
    firstMatches pairing left right =
      left.flatMap fun record => (matchingPairs pairing [record] right).take 1 := by
  have each : ∀ record : Record, (matchingPairs pairing [record] right).take 1 =
      ((right.find? (Record.joins pairing record)).map fun second => (record, second)).toList := by
    intro record
    unfold matchingPairs
    rw [List.flatMap_singleton, ← List.map_take, List.take_one, List.head?_filter,
      Option.toList_map]
  unfold firstMatches
  rw [List.filterMap_eq_flatMap_toList]
  simp only [each]

theorem inclusion_of_paired (left right : Table)
    (paired : pairing.leftKeys.length = pairing.rightKeys.length) :
    inclusion left right pairing =
      (firstMatches pairing left right).mapM (Record.project pairing.projections) := by
  unfold inclusion checkKeys
  rw [if_pos paired]
  rfl

/-- A join is made of the joins of the left records. -/
theorem join_eq_ok_iff_parts (paired : pairing.leftKeys.length = pairing.rightKeys.length)
    {joined : Table} :
    join left right pairing = .ok joined ↔
      ∃ parts, left.mapM (fun record => join [record] right pairing) = .ok parts ∧
        joined = parts.flatten := by
  rw [join_of_paired left right paired, matchingPairs_eq_flatMap, Except.mapM_flatMap_eq_ok]
  simp only [join_of_paired _ right paired]

/-- Where the left records can be joined, an inclusion keeps the first record of each join. -/
theorem inclusion_of_parts (paired : pairing.leftKeys.length = pairing.rightKeys.length)
    {parts : List Table}
    (joined : left.mapM (fun record => join [record] right pairing) = .ok parts) :
    inclusion left right pairing = .ok (parts.flatMap fun part => part.take 1) := by
  rw [inclusion_of_paired left right paired, firstMatches_eq_flatMap, Except.mapM_flatMap_eq_ok]
  refine ⟨parts.map fun part => part.take 1, ?_, List.flatMap_def⟩
  rw [Except.mapM_eq_ok_iff_forall₂, List.forall₂_map_right_iff]
  refine (Except.forall₂_of_mapM_eq_ok joined).imp ?_
  intro record part made
  rw [join_of_paired _ right paired, Except.mapM_eq_ok_iff_forall₂] at made
  exact Except.mapM_eq_ok_iff_forall₂.mpr (List.forall₂_take 1 made)

theorem sublist_flatten_of_take (parts : List Table) :
    (parts.flatMap fun part => part.take 1).Sublist parts.flatten := by
  induction parts with
  | nil => exact .refl _
  | cons part rest ih => exact (List.take_sublist 1 part).append ih

/-- An inclusion has a record for each left record that matches anything. -/
theorem length_of_inclusion (paired : pairing.leftKeys.length = pairing.rightKeys.length)
    {included : Table} (made : inclusion left right pairing = .ok included) :
    included.length = left.countP (matched pairing right) := by
  rw [inclusion_of_paired left right paired] at made
  rw [← (Except.forall₂_of_mapM_eq_ok made).length_eq]
  unfold firstMatches
  rw [List.length_filterMap_eq_countP]
  congr 1
  funext record
  rw [Option.isSome_map, matched_eq_isSome]

/-- Where an inclusion lacks a column, the join lacks one. -/
theorem join_fails_of_inclusion (paired : pairing.leftKeys.length = pairing.rightKeys.length)
    {error : ExecutionError} (failed : inclusion left right pairing = .error error) :
    ∃ missing, join left right pairing = .error (.missingColumn missing) := by
  cases made : join left right pairing with
  | ok joined =>
      obtain ⟨parts, each, _⟩ := (join_eq_ok_iff_parts paired).mp made
      cases (inclusion_of_parts paired each).symm.trans failed
  | error other =>
      obtain ⟨_, _, _, missing, _, _, _, same⟩ := (join_eq_error_iff paired).mp made
      exact ⟨missing, congrArg Except.error same⟩

/-! ## Which right records there are -/

/-- That two tables have the same records, in whatever order and number. -/
structure SameRecords (first second : Table) : Prop where
  forth : ∀ record ∈ first, ∃ twin ∈ second, Tree.Alike record twin
  back : ∀ record ∈ second, ∃ twin ∈ first, Tree.Alike record twin

theorem sameRecords_of_subset {first second : Table} (forth : first ⊆ second)
    (back : second ⊆ first) : SameRecords first second :=
  ⟨fun record member => ⟨record, forth member, .refl record⟩,
    fun record member => ⟨record, back member, .refl record⟩⟩

theorem matched_of_matched (known : ∀ record ∈ right, ∃ twin ∈ other, Tree.Alike record twin)
    {record : Record} (matching : matched pairing right record = true) :
    matched pairing other record = true := by
  obtain ⟨second, member, joined⟩ := List.any_eq_true.mp matching
  obtain ⟨twin, listed, alike⟩ := known second member
  refine List.any_eq_true.mpr ⟨twin, listed, ?_⟩
  rwa [← Record.joins_congr (.refl record) alike]

theorem SameRecords.matched_eq (same : SameRecords right other) (record : Record) :
    matched pairing right record = matched pairing other record :=
  Bool.eq_iff_iff.mpr ⟨matched_of_matched same.forth, matched_of_matched same.back⟩

theorem project_firstMatches_congr
    (same : ∀ record, matched pairing right record = matched pairing other record)
    (supplied : ∀ record ∈ left, matched pairing right record = true →
      ∀ column ∈ pairing.projections, column.source ∈ record.keys) :
    (firstMatches pairing left right).mapM (Record.project pairing.projections) =
      (firstMatches pairing left other).mapM (Record.project pairing.projections) := by
  induction left with
  | nil => rfl
  | cons record rest ih =>
      obtain ⟨first, later⟩ := List.forall_mem_cons.mp supplied
      have agree := same record
      rw [matched_eq_isSome] at first
      rw [matched_eq_isSome, matched_eq_isSome] at agree
      unfold firstMatches at ih ⊢
      rw [List.filterMap_cons, List.filterMap_cons]
      -- a match is found in both tables or in none
      cases here : right.find? (Record.joins pairing record) with
      | none =>
          cases there : other.find? (Record.joins pairing record) with
          | none => exact ih later
          | some twin =>
              rw [here, there] at agree
              cases agree
      | some second =>
          cases there : other.find? (Record.joins pairing record) with
          | none =>
              rw [here, there] at agree
              cases agree
          | some twin =>
              simp only [Option.map_some]
              rw [List.mapM_cons, List.mapM_cons, ih later,
                Record.project_of_supplied (first (by rw [here]; rfl)) second twin]

/-- Where keys are paired one by one, an inclusion succeeds if the join does, with the first
record of the join of each left record: one for each that matches anything, in the order of the
join.  If it lacks a column, the join lacks one too.  If the left records that match anything
have all sources of the columns, it makes no difference in which order and how often the right
records come. -/
theorem inclusion_agrees_with_join (left right : Table) (pairing : Pairing)
    (paired : pairing.leftKeys.length = pairing.rightKeys.length) :
    (∀ joined, join left right pairing = .ok joined →
      ∃ parts included, left.mapM (fun record => join [record] right pairing) = .ok parts ∧
        inclusion left right pairing = .ok included ∧
        included = (parts.flatMap fun part => part.take 1) ∧
        included.length = left.countP (matched pairing right) ∧ included.Sublist joined) ∧
    (∀ column, inclusion left right pairing = .error (.missingColumn column) →
      ∃ other, join left right pairing = .error (.missingColumn other)) ∧
    ((∀ record ∈ left, (∃ second ∈ right, Record.Matches pairing (record, second)) →
        ∀ column ∈ pairing.projections, column.source ∈ record.keys) →
      ∀ other, SameRecords right other →
        inclusion left right pairing = inclusion left other pairing) := by
  refine ⟨?_, fun _ => join_fails_of_inclusion paired, ?_⟩
  · intro joined made
    obtain ⟨parts, each, rfl⟩ := (join_eq_ok_iff_parts paired).mp made
    have included := inclusion_of_parts paired each
    exact ⟨parts, _, each, included, rfl, length_of_inclusion paired included,
      sublist_flatten_of_take parts⟩
  · intro supplied other same
    simp only [← matched_iff] at supplied
    rw [inclusion_of_paired left right paired, inclusion_of_paired left other paired]
    exact project_firstMatches_congr same.matched_eq supplied

/-- The right records in another order, with one of them twice. -/
theorem shuffled_records_are_included_alike :
    let left : Table := [Tree.ofScalars [("k", "1"), ("a", "x")],
      Tree.ofScalars [("k", "2"), ("a", "y")], Tree.ofScalars [("k", "1"), ("a", "z")]]
    let first : Record := Tree.ofScalars [("j", "1"), ("b", "p")]
    let second : Record := Tree.ofScalars [("j", "1"), ("b", "q")]
    let pairing : Pairing := ⟨["k"], ["j"], [⟨"a", "c"⟩]⟩
    pairing.leftKeys.length = pairing.rightKeys.length ∧
      (∃ included, inclusion left [first, second] pairing = .ok included ∧
        included.length = 2) ∧
      inclusion left [first, second] pairing = inclusion left [second, first, second] pairing := by
  intro left first second pairing
  obtain ⟨agrees, _, alike⟩ := inclusion_agrees_with_join left [first, second] pairing rfl
  have joined : join left [first, second] pairing = .ok [Tree.ofScalars [("c", "x")],
      Tree.ofScalars [("c", "x")], Tree.ofScalars [("c", "z")], Tree.ofScalars [("c", "z")]] := by
    rfl
  obtain ⟨_, included, _, made, _, length, _⟩ := agrees _ joined
  have supplied : ∀ record ∈ left, ∀ column ∈ pairing.projections, column.source ∈ record.keys := by
    decide
  have same : SameRecords [first, second] [second, first, second] :=
    sameRecords_of_subset (by simp) (by simp)
  exact ⟨rfl, ⟨included, made, length⟩,
    alike (fun record member _ => supplied record member) _ same⟩

end Table

end TableScript
