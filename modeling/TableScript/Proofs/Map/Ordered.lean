import Mathlib.Data.Finset.Dedup
import Mathlib.Data.Finset.Insert
import Mathlib.Data.List.Induction
import TableScript.OrderedMap
import TableScript.Proofs.Map.Lookup

/-!
# The theory of ordered maps

Which keys have values, how insertion changes them, and what a map that is built
from a list of pairs holds.
-/

namespace TableScript

namespace OrderedMap

universe u

variable {α : Type u}

/-- The keys of a map are the strings that have values. -/
theorem mem_keys_iff {map : OrderedMap α} {key : String} :
    key ∈ map.keys ↔ ∃ value, map.get? key = some value := by
  rw [← map_fst_toList]
  unfold get?
  induction map.toList with
  | nil => simp
  | cons entry rest ih =>
      obtain ⟨name, current⟩ := entry
      by_cases same : key = name
      · simp [same]
      · have differs : (key == name) = false := by simp [same]
        simpa [same, List.lookup_cons, differs] using ih

theorem get?_eq_none_iff {map : OrderedMap α} {key : String} :
    map.get? key = none ↔ key ∉ map.keys := by
  rw [mem_keys_iff]
  cases map.get? key with
  | none => simp
  | some value => simp

theorem contains_eq_isSome (map : OrderedMap α) (key : String) :
    map.contains key = (map.get? key).isSome := by
  unfold contains
  rw [Bool.eq_iff_iff, List.contains_iff_mem, mem_keys_iff, Option.isSome_iff_exists]

theorem mem_keys_insert (map : OrderedMap α) (key other : String) (value : α) :
    other ∈ (map.insert key value).keys ↔ other = key ∨ other ∈ map.keys := by
  rw [mem_keys_iff, mem_keys_iff, get?_insert]
  by_cases same : other = key
  · simp [same]
  · simp [same]

def keySet (map : OrderedMap α) : Finset String := map.keys.toFinset

@[simp] theorem mem_keySet {map : OrderedMap α} {key : String} :
    key ∈ map.keySet ↔ key ∈ map.keys := List.mem_toFinset

theorem keySet_insert (map : OrderedMap α) (key : String) (value : α) :
    (map.insert key value).keySet = Insert.insert key map.keySet := by
  apply Finset.ext
  intro other
  rw [mem_keySet, mem_keys_insert, Finset.mem_insert, mem_keySet]

theorem keys_insert (map : OrderedMap α) (key : String) (value : α) :
    (map.insert key value).keys = if key ∈ map.keys then map.keys else map.keys ++ [key] := by
  rw [← map_fst_toList, toList_insert, map_fst_upsert, map_fst_toList]

theorem get?_eq_some_iff {map : OrderedMap α} {key : String} {value : α} :
    map.get? key = some value ↔ (key, value) ∈ map.toList :=
  Lookup.eq_some_iff_mem map.toList_nodup

/-- The entries of a map are its keys with their values. -/
theorem toList_eq_filterMap (map : OrderedMap α) :
    map.toList = map.keys.filterMap fun key => (map.get? key).map fun value => (key, value) := by
  have found : ∀ entry ∈ map.toList,
      ((map.get? entry.1).map fun value => (entry.1, value)) = some entry := by
    rintro ⟨key, value⟩ member
    rw [get?_eq_some_iff.mpr member]
    rfl
  rw [← map_fst_toList, List.filterMap_map]
  exact (List.filterMap_some.symm.trans (List.filterMap_congr fun entry member =>
    (found entry member).symm))

/-- Maps with the same keys in the same order are equal if the keys have equal values. -/
theorem ext_keys_get? {first second : OrderedMap α} (keys : first.keys = second.keys)
    (values : ∀ key ∈ first.keys, first.get? key = second.get? key) : first = second := by
  apply ext_toList
  rw [toList_eq_filterMap, toList_eq_filterMap second, ← keys]
  apply List.filterMap_congr
  intro key member
  rw [values key member]

/-! ## Maps built from pairs -/

theorem insertAll_append_singleton (map : OrderedMap α) (earlier : List (String × α))
    (key : String) (value : α) :
    map.insertAll (earlier ++ [(key, value)]) = (map.insertAll earlier).insert key value := by
  unfold insertAll
  rw [List.foldl_append]
  rfl

theorem get?_insertAll (map : OrderedMap α) (pairs : List (String × α)) (key : String) :
    (map.insertAll pairs).get? key = (pairs.reverse.lookup key).or (map.get? key) := by
  induction pairs using List.reverseRecOn with
  | nil => rfl
  | append_singleton earlier last ih =>
      obtain ⟨name, value⟩ := last
      rw [insertAll_append_singleton, get?_insert, ih, Lookup.reverse_append_singleton]
      by_cases same : key = name
      · simp [same]
      · simp [same]

/-- A map built from pairs has the last value of every key. -/
theorem get?_ofList (pairs : List (String × α)) (key : String) :
    (ofList pairs).get? key = pairs.reverse.lookup key := by
  unfold ofList
  rw [get?_insertAll]
  simp

/-- A map built from pairs holds some of these pairs. -/
theorem mem_of_mem_toList_ofList {pairs : List (String × α)} {entry : String × α}
    (member : entry ∈ (ofList pairs).toList) : entry ∈ pairs := by
  obtain ⟨key, value⟩ := entry
  have found := get?_eq_some_iff.mpr member
  rw [get?_ofList] at found
  exact List.mem_reverse.mp (Lookup.mem_of_eq_some found)

theorem get?_ofList_of_nodup {pairs : List (String × α)} (distinct : (pairs.map Prod.fst).Nodup)
    (key : String) : (ofList pairs).get? key = pairs.lookup key := by
  rw [get?_ofList, Lookup.reverse_eq distinct]

/-- New keys follow the keys of a map in their order. -/
theorem keys_insertAll_of_nodup (map : OrderedMap α) {pairs : List (String × α)}
    (distinct : (pairs.map Prod.fst).Nodup) :
    (map.insertAll pairs).keys =
      map.keys ++ (pairs.map Prod.fst).filter (· ∉ map.keys) := by
  induction pairs using List.reverseRecOn with
  | nil => exact (List.append_nil map.keys).symm
  | append_singleton earlier last ih =>
      obtain ⟨name, value⟩ := last
      rw [List.map_append, List.nodup_append] at distinct
      obtain ⟨before, -, apart⟩ := distinct
      have fresh : name ∉ earlier.map Prod.fst := fun member =>
        apart name member name List.mem_cons_self rfl
      rw [insertAll_append_singleton, keys_insert, ih before, List.map_append, List.filter_append]
      by_cases present : name ∈ map.keys
      · simp [present]
      · simp [present, fresh]

/-- Pairs with distinct keys that are inserted in a map replace values where they stand, and
the others follow in their order. -/
theorem toList_insertAll (map : OrderedMap α) {pairs : List (String × α)}
    (distinct : (pairs.map Prod.fst).Nodup) :
    (map.insertAll pairs).toList =
      (map.toList.map fun entry => (entry.1, (pairs.lookup entry.1).getD entry.2)) ++
        pairs.filter fun entry => entry.1 ∉ map.keys := by
  have values : ∀ key, (map.insertAll pairs).get? key =
      (pairs.lookup key).or (map.get? key) := by
    intro key
    rw [get?_insertAll, Lookup.reverse_eq distinct]
  have kept : map.keys.filterMap (fun key =>
        ((pairs.lookup key).or (map.get? key)).map fun value => (key, value)) =
      map.toList.map fun entry => (entry.1, (pairs.lookup entry.1).getD entry.2) := by
    rw [← map_fst_toList, List.filterMap_map, ← List.filterMap_eq_map]
    apply List.filterMap_congr
    intro entry member
    have held := get?_eq_some_iff.mpr member
    simp only [Function.comp_apply, held]
    cases pairs.lookup entry.1 with
    | none => rfl
    | some value => rfl
  have added : ((pairs.map Prod.fst).filter (· ∉ map.keys)).filterMap (fun key =>
        ((pairs.lookup key).or (map.get? key)).map fun value => (key, value)) =
      pairs.filter fun entry => entry.1 ∉ map.keys := by
    rw [List.filter_map, List.filterMap_map]
    refine (List.filterMap_congr fun entry member => ?_).trans List.filterMap_some
    have listed := (Lookup.eq_some_iff_mem distinct).mpr (List.mem_of_mem_filter member)
    simp only [Function.comp_apply, listed]
    rfl
  rw [toList_eq_filterMap, keys_insertAll_of_nodup map distinct, List.filterMap_append]
  simp only [values, kept, added]

/-- A map built from pairs with distinct keys holds these pairs in their order. -/
theorem toList_ofList_of_nodup {pairs : List (String × α)}
    (distinct : (pairs.map Prod.fst).Nodup) : (ofList pairs).toList = pairs := by
  have fresh : (pairs.filter fun entry => entry.1 ∉ (empty : OrderedMap α).keys) = pairs :=
    List.filter_eq_self.mpr fun _ _ => rfl
  exact (toList_insertAll empty distinct).trans fresh

/-- A map built from pairs has every key once, where it occurs first. -/
theorem map_fst_toList_ofList (pairs : List (String × α)) :
    (ofList pairs).toList.map Prod.fst = (pairs.map Prod.fst).eraseDups := by
  induction pairs using List.reverseRecOn with
  | nil => rfl
  | append_singleton earlier last ih =>
      obtain ⟨name, value⟩ := last
      unfold ofList at ih ⊢
      have before : name ∈ (empty.insertAll earlier).toList.map Prod.fst ↔
          name ∈ earlier.map Prod.fst := by
        rw [ih]
        exact List.mem_eraseDups
      rw [insertAll_append_singleton, toList_insert, map_fst_upsert, ih, List.map_append,
        List.eraseDups_append]
      rw [ih] at before
      by_cases listed : name ∈ earlier.map Prod.fst
      · rw [if_pos (before.mpr listed)]
        have nothing : ([(name, value)].map Prod.fst).removeAll (earlier.map Prod.fst) = [] := by
          simpa [List.removeAll] using listed
        rw [nothing]
        simp
      · rw [if_neg fun member => listed (before.mp member)]
        have alone : ([(name, value)].map Prod.fst).removeAll (earlier.map Prod.fst) = [name] := by
          simpa [List.removeAll] using listed
        rw [alone]
        rfl

theorem nodup_eraseDups (names : List String) : names.eraseDups.Nodup := by
  have listed := map_fst_toList_ofList (names.map fun name => (name, ()))
  rw [List.map_map, show Prod.fst ∘ (fun name : String => (name, ())) = id from rfl,
    List.map_id] at listed
  rw [← listed]
  exact toList_nodup _

theorem upsert_map {β : Type*} (change : α → β) (key : String) (value : α)
    (pairs : List (String × α)) :
    upsert key (change value) (pairs.map fun pair => (pair.1, change pair.2)) =
      (upsert key value pairs).map fun pair => (pair.1, change pair.2) := by
  induction pairs with
  | nil => rfl
  | cons entry rest ih =>
      by_cases same : entry.1 = key
      · simp [upsert, same]
      · simp [upsert, same, ih]

/-- A map built from pairs with changed values holds the changed values. -/
theorem toList_ofList_map {β : Type*} (change : α → β) (pairs : List (String × α)) :
    (ofList (pairs.map fun pair => (pair.1, change pair.2))).toList =
      (ofList pairs).toList.map fun pair => (pair.1, change pair.2) := by
  induction pairs using List.reverseRecOn with
  | nil => rfl
  | append_singleton earlier last ih =>
      obtain ⟨name, value⟩ := last
      unfold ofList at ih ⊢
      rw [List.map_append, List.map_cons, List.map_nil, insertAll_append_singleton,
        insertAll_append_singleton, toList_insert, toList_insert, ih, upsert_map]

theorem ofList_toList (map : OrderedMap α) : ofList map.toList = map :=
  ext_toList (toList_ofList_of_nodup map.toList_nodup)

/-- Pairs may be gathered in a map before others follow them. -/
theorem ofList_toList_append (earlier later : List (String × α)) :
    ofList ((ofList earlier).toList ++ later) = ofList (earlier ++ later) := by
  have gathered : (empty : OrderedMap α).insertAll (ofList earlier).toList = ofList earlier :=
    ofList_toList (ofList earlier)
  unfold ofList insertAll at gathered ⊢
  rw [List.foldl_append, gathered, List.foldl_append]

end OrderedMap

end TableScript
