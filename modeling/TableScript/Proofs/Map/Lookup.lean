import Mathlib.Data.List.Nodup

/-!
# Looking up in lists of pairs

A list of pairs whose keys are distinct may be read in any order; where a key
occurs again, reading from the end finds its last value.
-/

namespace TableScript

namespace Lookup

variable {α : Type*}

theorem mem_of_eq_some {pairs : List (String × α)} {key : String} {value : α}
    (found : pairs.lookup key = some value) : (key, value) ∈ pairs := by
  obtain ⟨before, after, split, _⟩ := List.lookup_eq_some_iff.mp found
  rw [split]
  exact List.mem_append_right before List.mem_cons_self

theorem eq_some_iff_mem {pairs : List (String × α)} (distinct : (pairs.map Prod.fst).Nodup)
    {key : String} {value : α} :
    pairs.lookup key = some value ↔ (key, value) ∈ pairs := by
  induction pairs with
  | nil => simp
  | cons entry rest ih =>
      obtain ⟨name, current⟩ := entry
      obtain ⟨fresh, tail⟩ := List.nodup_cons.mp distinct
      by_cases same : key = name
      · subst same
        have absent : (key, value) ∉ rest := by
          intro member
          exact fresh (List.mem_map.mpr ⟨(key, value), member, rfl⟩)
        simp [absent, eq_comm]
      · have differs : (key == name) = false := by simp [same]
        simp [List.lookup_cons, differs, same, ih tail]

theorem map_eq {β : Type*} (change : String → α → β) (pairs : List (String × α)) (key : String) :
    (pairs.map fun entry => (entry.1, change entry.1 entry.2)).lookup key =
      (pairs.lookup key).map (change key) := by
  induction pairs with
  | nil => rfl
  | cons entry rest ih =>
      obtain ⟨name, value⟩ := entry
      by_cases same : key = name
      · simp [same]
      · have differs : (key == name) = false := by simp [same]
        simp [List.lookup_cons, differs, ih]

theorem reverse_eq {pairs : List (String × α)} (distinct : (pairs.map Prod.fst).Nodup)
    (key : String) : pairs.reverse.lookup key = pairs.lookup key := by
  have backwards : (pairs.reverse.map Prod.fst).Nodup := by
    rw [List.map_reverse]
    exact List.nodup_reverse.mpr distinct
  apply Option.ext
  intro value
  rw [eq_some_iff_mem backwards, eq_some_iff_mem distinct, List.mem_reverse]

/-- The last value of a key in a list with one more pair at its end. -/
theorem reverse_append_singleton (pairs : List (String × α)) (key name : String) (value : α) :
    (pairs ++ [(name, value)]).reverse.lookup key =
      if key = name then some value else pairs.reverse.lookup key := by
  rw [List.reverse_append]
  by_cases same : key = name
  · simp [same]
  · have differs : (key == name) = false := by simp [same]
    simp [List.lookup_cons, differs, same]

theorem eq_none_iff {pairs : List (String × α)} {key : String} :
    pairs.lookup key = none ↔ key ∉ pairs.map Prod.fst := by
  rw [List.lookup_eq_none_iff, List.mem_map]
  constructor
  · intro others found
    obtain ⟨entry, member, same⟩ := found
    simpa [same] using others entry member
  · intro absent entry member
    simpa using fun same : key = entry.1 => absent ⟨entry, member, same.symm⟩

theorem exists_eq_some_iff {pairs : List (String × α)} {key : String} :
    (∃ value, pairs.lookup key = some value) ↔ key ∈ pairs.map Prod.fst := by
  rw [← Option.ne_none_iff_exists', Ne, eq_none_iff, not_not]

/-- The last value of a key stands where the key does not occur again behind it. -/
theorem reverse_eq_some_iff {pairs : List (String × α)} {key : String} {value : α} :
    pairs.reverse.lookup key = some value ↔
      ∃ before after, pairs = before ++ (key, value) :: after ∧ key ∉ after.map Prod.fst := by
  rw [List.lookup_eq_some_iff]
  constructor
  · intro found
    obtain ⟨after, before, split, others⟩ := found
    refine ⟨before.reverse, after.reverse, ?_, ?_⟩
    · have whole := congrArg List.reverse split
      simpa using whole
    · rw [← eq_none_iff, List.lookup_eq_none_iff]
      intro entry member
      exact others entry (List.mem_reverse.mp member)
  · intro found
    obtain ⟨before, after, split, fresh⟩ := found
    refine ⟨after.reverse, before.reverse, by simp [split], ?_⟩
    intro entry member
    have listed := List.mem_map_of_mem (f := Prod.fst) (List.mem_reverse.mp member)
    simpa using fun same : key = entry.1 => fresh (same ▸ listed)

/-- Lists without a common key may be read in either order. -/
theorem append_comm {first second : List (String × α)}
    (apart : ∀ key ∈ first.map Prod.fst, key ∉ second.map Prod.fst) (key : String) :
    (first ++ second).lookup key = (second ++ first).lookup key := by
  rw [List.lookup_append, List.lookup_append]
  by_cases listed : key ∈ first.map Prod.fst
  · have absent : second.lookup key = none := eq_none_iff.mpr (apart key listed)
    simp [absent]
  · have absent : first.lookup key = none := eq_none_iff.mpr listed
    simp [absent]

end Lookup

end TableScript
