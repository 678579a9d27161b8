import Mathlib.Data.List.Forall2
import TableScript.Proofs.Except
import TableScript.Proofs.Map.Ordered
import TableScript.Proofs.Tree.Same
import TableScript.Table.Join

/-!
# What a join holds

A join has one record for every pair of places at which the left and the right table match,
in lexicographic order.  A record holds the listed columns, each with the value of the last
source that was given for it, and of the two records that match the left one is asked first.
The join fails on the first pair that lacks a source.
-/

namespace TableScript

/-! ## Pairs of records -/

namespace Record

def Matches (pairing : Pairing) (pair : Record × Record) : Prop :=
  ∀ keys ∈ pairing.leftKeys.zip pairing.rightKeys, ∃ first second,
    pair.1.get? keys.1 = some first ∧ pair.2.get? keys.2 = some second ∧ first.Alike second

def Supplies (pair : Record × Record) (column : String) : Prop :=
  column ∈ pair.1.keys ∨ column ∈ pair.2.keys

def Complete (projections : List Projection) (pair : Record × Record) : Prop :=
  ∀ column ∈ projections, Supplies pair column.source

/-- The first source of some columns that two records lack. -/
def FirstLacking (projections : List Projection) (pair : Record × Record) (missing : String) :
    Prop :=
  ∃ before column after, projections = before ++ column :: after ∧ Complete before pair ∧
    ¬Supplies pair column.source ∧ column.source = missing

/-- What a join makes of two records: the listed columns, each once, with the value that the
left record, or else the right one, has under the last source that is given for it. -/
structure JoinedAs (projections : List Projection) (pair : Record × Record) (joined : Record) :
    Prop where
  keys : joined.keys = (projections.map Projection.target).eraseDups
  values : ∀ before column after, projections = before ++ column :: after →
    column.target ∉ after.map Projection.target →
      joined.get? column.target = (pair.1.get? column.source).or (pair.2.get? column.source)

variable {projections : List Projection} {pair : Record × Record} {joined : Record}

theorem joins_iff_matches (pairing : Pairing) (first second : Record) :
    joins pairing first second = true ↔ Matches pairing (first, second) := by
  unfold joins Matches
  rw [List.all_eq_true]
  refine forall₂_congr fun keys _ => ?_
  unfold keyMatches
  cases first.get? keys.1 with
  | none => simp
  | some one =>
      cases second.get? keys.2 with
      | none => simp
      | some other => simp [Node.Alike]

theorem supplies_iff {column : String} :
    Supplies pair column ↔ ∃ value, (pair.1.get? column).or (pair.2.get? column) = some value := by
  unfold Supplies
  rw [OrderedMap.mem_keys_iff, OrderedMap.mem_keys_iff]
  cases pair.1.get? column with
  | none => simp
  | some value => simp

theorem valueOf_eq (first second : Record) (column : String) :
    valueOf first second column =
      match (first.get? column).or (second.get? column) with
      | some value => .ok value
      | none => .error (.missingColumn column) := by
  unfold valueOf
  cases first.get? column with
  | none => rfl
  | some value => rfl

/-- The last of some columns under a name. -/
theorem exists_last_target {name : String} (listed : name ∈ projections.map Projection.target) :
    ∃ before column after, projections = before ++ column :: after ∧ column.target = name ∧
      name ∉ after.map Projection.target := by
  induction projections with
  | nil => cases listed
  | cons column rest ih =>
      by_cases later : name ∈ rest.map Projection.target
      · obtain ⟨before, last, after, split, named, fresh⟩ := ih later
        exact ⟨column :: before, last, after, congrArg (column :: ·) split, named, fresh⟩
      · obtain here | there := List.mem_cons.mp listed
        · exact ⟨[], column, rest, rfl, here.symm, later⟩
        · exact absurd there later

theorem JoinedAs.unique {other : Record} (one : JoinedAs projections pair joined)
    (another : JoinedAs projections pair other) : joined = other := by
  apply OrderedMap.ext_keys_get? (one.keys.trans another.keys.symm)
  intro name member
  rw [one.keys, List.mem_eraseDups] at member
  obtain ⟨before, column, after, split, rfl, fresh⟩ := exists_last_target member
  rw [one.values before column after split fresh, another.values before column after split fresh]

def drawn (pair : Record × Record) (column : Projection) : String × Node :=
  (column.target, ((pair.1.get? column.source).or (pair.2.get? column.source)).getD default)

theorem project_of_complete (complete : Complete projections pair) :
    project projections pair = .ok (OrderedMap.ofList (projections.map (drawn pair))) := by
  have each : ∀ column ∈ projections,
      ((valueOf pair.1 pair.2 column.source).map fun value => (column.target, value)) =
        .ok (drawn pair column) := by
    intro column member
    obtain ⟨value, found⟩ := supplies_iff.mp (complete column member)
    rw [valueOf_eq, drawn, found]
    rfl
  unfold project
  rw [Except.mapM_eq_ok each]
  rfl

theorem joinedAs_drawn (complete : Complete projections pair) :
    JoinedAs projections pair (OrderedMap.ofList (projections.map (drawn pair))) := by
  have targets : ∀ columns : List Projection,
      (columns.map (drawn pair)).map Prod.fst = columns.map Projection.target := by
    intro columns
    rw [List.map_map]
    rfl
  constructor
  · rw [← OrderedMap.map_fst_toList, OrderedMap.map_fst_toList_ofList, targets]
  · intro before column after split fresh
    have member : column ∈ projections := by
      rw [split]
      exact List.mem_append_right before List.mem_cons_self
    obtain ⟨value, found⟩ := supplies_iff.mp (complete column member)
    have here : drawn pair column = (column.target, value) := by rw [drawn, found, Option.getD_some]
    rw [OrderedMap.get?_ofList, found, Lookup.reverse_eq_some_iff]
    refine ⟨before.map (drawn pair), after.map (drawn pair), ?_, by rwa [targets]⟩
    rw [split, List.map_append, List.map_cons, here]

theorem project_of_firstLacking {missing : String}
    (lacking : FirstLacking projections pair missing) :
    project projections pair = .error (.missingColumn missing) := by
  obtain ⟨before, column, after, split, complete, absent, rfl⟩ := lacking
  have nothing : (pair.1.get? column.source).or (pair.2.get? column.source) = none := by
    rw [← Option.not_isSome_iff_eq_none, Option.isSome_iff_exists, ← supplies_iff]
    exact absent
  have failed : (projections.mapM fun column =>
      (valueOf pair.1 pair.2 column.source).map fun value => (column.target, value)) =
        .error (.missingColumn column.source) := by
    rw [Except.mapM_eq_error_iff]
    refine ⟨before, column, after, split, ?_, ?_⟩
    · intro earlier member
      obtain ⟨value, found⟩ := supplies_iff.mp (complete earlier member)
      exact ⟨(earlier.target, value), by rw [valueOf_eq, found]; rfl⟩
    · rw [valueOf_eq, nothing]
      rfl
  unfold project
  rw [failed]
  rfl

/-- Two records either have all sources of some columns, or there is a first one that they
lack. -/
theorem complete_or_firstLacking (projections : List Projection) (pair : Record × Record) :
    Complete projections pair ∨ ∃ missing, FirstLacking projections pair missing := by
  induction projections with
  | nil => exact .inl (List.forall_mem_nil _)
  | cons column rest ih =>
      by_cases here : Supplies pair column.source
      · obtain complete | ⟨missing, before, later, after, split, complete, absent, same⟩ := ih
        · exact .inl (List.forall_mem_cons.mpr ⟨here, complete⟩)
        · exact .inr ⟨missing, column :: before, later, after, congrArg (column :: ·) split,
            List.forall_mem_cons.mpr ⟨here, complete⟩, absent, same⟩
      · exact .inr ⟨_, [], column, rest, rfl, List.forall_mem_nil _, here, rfl⟩

theorem project_eq_ok_iff :
    project projections pair = .ok joined ↔
      Complete projections pair ∧ JoinedAs projections pair joined := by
  constructor
  · intro made
    obtain complete | ⟨missing, lacking⟩ := complete_or_firstLacking projections pair
    · cases (project_of_complete complete).symm.trans made
      exact ⟨complete, joinedAs_drawn complete⟩
    · cases (project_of_firstLacking lacking).symm.trans made
  · rintro ⟨complete, made⟩
    rw [project_of_complete complete, (joinedAs_drawn complete).unique made]

theorem project_eq_error_iff {error : ExecutionError} :
    project projections pair = .error error ↔
      ∃ missing, FirstLacking projections pair missing ∧ error = .missingColumn missing := by
  constructor
  · intro failed
    obtain complete | ⟨missing, lacking⟩ := complete_or_firstLacking projections pair
    · cases (project_of_complete complete).symm.trans failed
    · cases (project_of_firstLacking lacking).symm.trans failed
      exact ⟨missing, lacking, rfl⟩
  · rintro ⟨missing, lacking, rfl⟩
    exact project_of_firstLacking lacking

theorem exists_project_eq_ok_iff :
    (∃ joined, project projections pair = .ok joined) ↔ Complete projections pair := by
  constructor
  · rintro ⟨joined, made⟩
    exact (project_eq_ok_iff.mp made).1
  · intro complete
    exact ⟨_, project_of_complete complete⟩

end Record

/-! ## Places -/

namespace Table

def recordsAt? (left right : Table) (place : Nat × Nat) : Option (Record × Record) :=
  left[place.1]?.bind fun first => right[place.2]?.map fun second => (first, second)

/-- That a place has records, and something holds of them. -/
def HoldsAt (left right : Table) (property : Record × Record → Prop) (place : Nat × Nat) : Prop :=
  ∃ pair, recordsAt? left right place = some pair ∧ property pair

/-- The places at which two tables match, in lexicographic order. -/
structure MatchingPlaces (pairing : Pairing) (left right : Table) (places : List (Nat × Nat)) :
    Prop where
  ascending : places.Pairwise (Prod.Lex (· < ·) (· < ·))
  mem_iff : ∀ place, place ∈ places ↔ HoldsAt left right (Record.Matches pairing) place

def placedPairs (pairing : Pairing) (left right : Table) :
    List ((Record × Record) × (Nat × Nat)) :=
  left.zipIdx.flatMap fun first =>
    (right.zipIdx.filter fun second => Record.joins pairing first.1 second.1).map fun second =>
      ((first.1, second.1), (first.2, second.2))

variable {left right : Table} {pairing : Pairing}

theorem map_fst_placedPairs (pairing : Pairing) (left right : Table) :
    (placedPairs pairing left right).map Prod.fst = matchingPairs pairing left right := by
  unfold placedPairs matchingPairs
  conv_rhs => rw [← List.zipIdx_map_fst 0 left]
  rw [List.map_flatMap, List.flatMap_map]
  apply List.flatMap_congr
  intro first _
  conv_rhs => rw [← List.zipIdx_map_fst 0 right]
  rw [List.filter_map, List.map_map, List.map_map]
  rfl

theorem recordsAt?_eq_some_iff {pair : Record × Record} {place : Nat × Nat} :
    recordsAt? left right place = some pair ↔
      left[place.1]? = some pair.1 ∧ right[place.2]? = some pair.2 := by
  unfold recordsAt?
  rw [Option.bind_eq_some_iff]
  constructor
  · rintro ⟨first, here, found⟩
    obtain ⟨second, there, rfl⟩ := Option.map_eq_some_iff.mp found
    exact ⟨here, there⟩
  · rintro ⟨here, there⟩
    exact ⟨pair.1, here, Option.map_eq_some_iff.mpr ⟨pair.2, there, rfl⟩⟩

theorem mem_placedPairs {pair : Record × Record} {place : Nat × Nat} :
    (pair, place) ∈ placedPairs pairing left right ↔
      recordsAt? left right place = some pair ∧ Record.Matches pairing pair := by
  unfold placedPairs
  simp only [recordsAt?_eq_some_iff, List.mem_flatMap, List.mem_map, List.mem_filter,
    List.mem_zipIdx_iff_getElem?, Record.joins_iff_matches]
  constructor
  · rintro ⟨⟨first, index⟩, here, ⟨second, position⟩, ⟨there, same⟩, made⟩
    cases made
    exact ⟨⟨here, there⟩, same⟩
  · rintro ⟨⟨here, there⟩, same⟩
    exact ⟨(pair.1, place.1), here, (pair.2, place.2), ⟨there, same⟩, rfl⟩

theorem ascending_placedPairs (pairing : Pairing) (left right : Table) :
    ((placedPairs pairing left right).map Prod.snd).Pairwise (Prod.Lex (· < ·) (· < ·)) := by
  have ascending : ∀ table : Table, table.zipIdx.Pairwise fun first second =>
      first.2 < second.2 := by
    intro table
    have positions : (table.zipIdx.map Prod.snd).Pairwise (· < ·) := by
      rw [List.zipIdx_map_snd]
      exact List.pairwise_lt_range'
    exact List.pairwise_map.mp positions
  unfold placedPairs
  rw [List.pairwise_map, List.pairwise_flatMap]
  -- for one left record the right positions ascend, and from one to the next the left ones
  constructor
  · intro first _
    rw [List.pairwise_map]
    refine ((ascending right).filter _).imp ?_
    intro one other before
    exact Prod.Lex.right first.2 before
  · refine (ascending left).imp fun before => ?_
    intro one first other second
    obtain ⟨_, _, rfl⟩ := List.mem_map.mp first
    obtain ⟨_, _, rfl⟩ := List.mem_map.mp second
    exact Prod.Lex.left _ _ before

theorem matchingPlaces_placedPairs (pairing : Pairing) (left right : Table) :
    MatchingPlaces pairing left right ((placedPairs pairing left right).map Prod.snd) := by
  refine ⟨ascending_placedPairs pairing left right, ?_⟩
  intro place
  rw [List.mem_map]
  constructor
  · rintro ⟨⟨pair, _⟩, member, rfl⟩
    exact ⟨pair, mem_placedPairs.mp member⟩
  · rintro ⟨pair, found⟩
    exact ⟨(pair, place), mem_placedPairs.mpr found, rfl⟩

/-- What holds at the place of matching records holds of them. -/
theorem holdsAt_iff {placed : (Record × Record) × (Nat × Nat)}
    (member : placed ∈ placedPairs pairing left right) (property : Record × Record → Prop) :
    HoldsAt left right property placed.2 ↔ property placed.1 := by
  have found : recordsAt? left right placed.2 = some placed.1 := (mem_placedPairs.mp member).1
  constructor
  · rintro ⟨pair, here, holds⟩
    cases found.symm.trans here
    exact holds
  · intro holds
    exact ⟨placed.1, found, holds⟩

theorem join_of_paired (left right : Table)
    (paired : pairing.leftKeys.length = pairing.rightKeys.length) :
    join left right pairing =
      (matchingPairs pairing left right).mapM (Record.project pairing.projections) := by
  unfold join checkKeys
  rw [if_pos paired]
  rfl

theorem join_eq_mapM_placedPairs (left right : Table)
    (paired : pairing.leftKeys.length = pairing.rightKeys.length) :
    join left right pairing = (placedPairs pairing left right).mapM fun placed =>
      Record.project pairing.projections placed.1 := by
  rw [join_of_paired left right paired, ← map_fst_placedPairs]
  exact List.mapM_map

theorem forall_mem_places_iff {some : List ((Record × Record) × (Nat × Nat))}
    (known : some ⊆ placedPairs pairing left right) (property : Record × Record → Prop) :
    (∀ place ∈ some.map Prod.snd, HoldsAt left right property place) ↔
      ∀ placed ∈ some, property placed.1 := by
  rw [List.forall_mem_map]
  exact forall₂_congr fun _ member => holdsAt_iff (known member) property

/-- A join succeeds with what it makes of the records at the matching places, if they all have
the sources of its columns. -/
theorem join_eq_ok_iff (paired : pairing.leftKeys.length = pairing.rightKeys.length)
    {joined : Table} :
    join left right pairing = .ok joined ↔
      (∀ place ∈ (placedPairs pairing left right).map Prod.snd,
        HoldsAt left right (Record.Complete pairing.projections) place) ∧
      List.Forall₂ (fun place record =>
          HoldsAt left right (fun pair => Record.JoinedAs pairing.projections pair record) place)
        ((placedPairs pairing left right).map Prod.snd) joined := by
  rw [join_eq_mapM_placedPairs left right paired, Except.mapM_eq_ok_iff_forall₂,
    forall_mem_places_iff (List.Subset.refl _), List.forall₂_map_left_iff]
  simp only [Record.project_eq_ok_iff, List.forall₂_and_left]
  refine and_congr_right fun _ => Related.congr_left fun placed member record => ?_
  exact (holdsAt_iff member fun pair =>
    Record.JoinedAs pairing.projections pair record).symm

theorem exists_join_eq_ok_iff (paired : pairing.leftKeys.length = pairing.rightKeys.length) :
    (∃ joined, join left right pairing = .ok joined) ↔
      ∀ place ∈ (placedPairs pairing left right).map Prod.snd,
        HoldsAt left right (Record.Complete pairing.projections) place := by
  constructor
  · rintro ⟨joined, made⟩
    exact ((join_eq_ok_iff paired).mp made).1
  · intro complete
    rw [forall_mem_places_iff (List.Subset.refl _)] at complete
    rw [join_eq_mapM_placedPairs left right paired]
    exact ⟨_, Except.mapM_eq_ok fun placed member =>
      Record.project_of_complete (complete placed member)⟩

/-- A join fails on the first matching place whose records lack a source. -/
theorem join_eq_error_iff (paired : pairing.leftKeys.length = pairing.rightKeys.length)
    {error : ExecutionError} :
    join left right pairing = .error error ↔
      ∃ before place after missing,
        (placedPairs pairing left right).map Prod.snd = before ++ place :: after ∧
        (∀ earlier ∈ before,
          HoldsAt left right (Record.Complete pairing.projections) earlier) ∧
        HoldsAt left right
          (fun pair => Record.FirstLacking pairing.projections pair missing) place ∧
        error = .missingColumn missing := by
  rw [join_eq_mapM_placedPairs left right paired, Except.mapM_eq_error_iff]
  simp only [Record.exists_project_eq_ok_iff, Record.project_eq_error_iff]
  constructor
  · rintro ⟨before, placed, after, split, complete, missing, lacking, same⟩
    have known : before ++ placed :: after ⊆ placedPairs pairing left right :=
      split ▸ List.Subset.refl _
    obtain ⟨front, here⟩ := List.append_subset.mp known
    refine ⟨before.map Prod.snd, placed.2, after.map Prod.snd, missing, ?_,
      (forall_mem_places_iff front _).mpr complete,
      (holdsAt_iff (here List.mem_cons_self) fun pair =>
        Record.FirstLacking pairing.projections pair missing).mpr lacking, same⟩
    rw [split, List.map_append, List.map_cons]
  · rintro ⟨_, _, _, missing, split, complete, lacking, same⟩
    obtain ⟨before, rest, whole, rfl, later⟩ := List.map_eq_append_iff.mp split
    obtain ⟨placed, after, rfl, rfl, rfl⟩ := List.map_eq_cons_iff.mp later
    have known : before ++ placed :: after ⊆ placedPairs pairing left right :=
      whole ▸ List.Subset.refl _
    obtain ⟨front, here⟩ := List.append_subset.mp known
    exact ⟨before, placed, after, whole, (forall_mem_places_iff front _).mp complete, missing,
      (holdsAt_iff (here List.mem_cons_self) _).mp lacking, same⟩

theorem join_of_mismatched (left right : Table)
    (differ : pairing.leftKeys.length ≠ pairing.rightKeys.length) :
    join left right pairing =
      .error (.mismatchedKeys "join" pairing.leftKeys.length pairing.rightKeys.length) := by
  unfold join checkKeys
  rw [if_neg differ]
  rfl

/-- A join fails if it does not pair keys one by one.  Otherwise it has a record for each place
at which the tables match, in lexicographic order, if the records at all of them have the sources
of its columns, and if not it names the first source that is lacking at the first place where
one is. -/
theorem join_goes_by_matching_places (left right : Table) (pairing : Pairing) :
    (pairing.leftKeys.length ≠ pairing.rightKeys.length → join left right pairing =
      .error (.mismatchedKeys "join" pairing.leftKeys.length pairing.rightKeys.length)) ∧
    (pairing.leftKeys.length = pairing.rightKeys.length →
      ∃ places, MatchingPlaces pairing left right places ∧
        ((∃ joined, join left right pairing = .ok joined) ↔ ∀ place ∈ places,
          HoldsAt left right (Record.Complete pairing.projections) place) ∧
        (∀ joined, join left right pairing = .ok joined → List.Forall₂ (fun place record =>
          HoldsAt left right (fun pair => Record.JoinedAs pairing.projections pair record) place)
            places joined) ∧
        ∀ error, join left right pairing = .error error ↔
          ∃ before place after missing, places = before ++ place :: after ∧
            (∀ earlier ∈ before,
              HoldsAt left right (Record.Complete pairing.projections) earlier) ∧
            HoldsAt left right
              (fun pair => Record.FirstLacking pairing.projections pair missing) place ∧
            error = .missingColumn missing) := by
  refine ⟨join_of_mismatched left right, ?_⟩
  intro paired
  refine ⟨_, matchingPlaces_placedPairs pairing left right, exists_join_eq_ok_iff paired, ?_,
    fun _ => join_eq_error_iff paired⟩
  intro joined made
  exact ((join_eq_ok_iff paired).mp made).2

/-- Two columns under one name, the last of which holds a value of the right record. -/
theorem last_source_is_joined :
    let left : Table :=
      [Tree.ofScalars [("k", "1"), ("a", "x")], Tree.ofScalars [("k", "2"), ("a", "y")]]
    let right : Table := [Tree.ofScalars [("j", "1"), ("b", "p")], Tree.ofScalars [("b", "q")],
      Tree.ofScalars [("b", "r"), ("j", "1")]]
    let pairing : Pairing := ⟨["k"], ["j"], [⟨"a", "c"⟩, ⟨"k", "k"⟩, ⟨"b", "c"⟩]⟩
    pairing.leftKeys.length = pairing.rightKeys.length ∧
      join left right pairing =
        .ok [Tree.ofScalars [("c", "p"), ("k", "1")], Tree.ofScalars [("c", "r"), ("k", "1")]] ∧
      ∃ places, MatchingPlaces pairing left right places ∧ places.length = 2 ∧
        (0, 2) ∈ places := by
  intro left right pairing
  have made : join left right pairing =
      .ok [Tree.ofScalars [("c", "p"), ("k", "1")], Tree.ofScalars [("c", "r"), ("k", "1")]] := by
    rfl
  obtain ⟨places, matching, _, each, _⟩ :=
    (join_goes_by_matching_places left right pairing).2 rfl
  refine ⟨rfl, made, places, matching, (each _ made).length_eq, ?_⟩
  rw [matching.mem_iff]
  exact ⟨_, rfl, (Record.joins_iff_matches pairing _ _).mp (by rfl)⟩

end Table

end TableScript
