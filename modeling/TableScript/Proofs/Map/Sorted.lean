import Mathlib.Data.List.Induction
import TableScript.Proofs.Map.Ordered
import TableScript.SortedMap

/-!
# The theory of sorted maps

A sorted map is determined by the values of its keys, whatever order they were
inserted in.
-/

namespace TableScript

namespace SortedMap

universe u

variable {α : Type u}

theorem keys_nodup (map : SortedMap α) : (map.toList.map Prod.fst).Nodup := by
  unfold List.Nodup
  rw [List.pairwise_map]
  exact map.ascending.imp fun before same => absurd (same ▸ before) (String.lt_irrefl _)

theorem get?_eq_some_iff {map : SortedMap α} {key : String} {value : α} :
    map.get? key = some value ↔ (key, value) ∈ map.toList :=
  Lookup.eq_some_iff_mem map.keys_nodup

/-- Maps in which every key has the same value are equal. -/
theorem ext_get? {first second : SortedMap α} (same : ∀ key, first.get? key = second.get? key) :
    first = second := by
  have members : ∀ entry, entry ∈ first.toList ↔ entry ∈ second.toList := by
    intro entry
    obtain ⟨key, value⟩ := entry
    rw [← get?_eq_some_iff, ← get?_eq_some_iff, same key]
  have perm : first.toList.Perm second.toList :=
    (List.perm_ext_iff_of_nodup (List.Nodup.of_map _ first.keys_nodup)
      (List.Nodup.of_map _ second.keys_nodup)).mpr members
  apply ext_toList
  apply perm.eq_of_pairwise _ first.ascending second.ascending
  intro entry other _ _ before after
  exact absurd (String.lt_trans before after) (String.lt_irrefl _)

/-- A map built from pairs has the last value of every key. -/
theorem get?_ofList (pairs : List (String × α)) (key : String) :
    (ofList pairs).get? key = pairs.reverse.lookup key := by
  induction pairs using List.reverseRecOn with
  | nil => rfl
  | append_singleton earlier last ih =>
      obtain ⟨name, value⟩ := last
      have step : ofList (earlier ++ [(name, value)]) = (ofList earlier).insert name value := by
        unfold ofList
        rw [List.foldl_append]
        rfl
      rw [step, get?_insert, ih, Lookup.reverse_append_singleton]

/-- A map built from pairs has a value for the keys of the pairs. -/
theorem exists_get?_ofList {pairs : List (String × α)} {key : String} :
    (∃ value, (ofList pairs).get? key = some value) ↔ key ∈ pairs.map Prod.fst := by
  simp only [get?_ofList]
  rw [Lookup.exists_eq_some_iff, List.map_reverse, List.mem_reverse]

/-- A map built from pairs holds some of these pairs. -/
theorem mem_of_mem_toList_ofList {pairs : List (String × α)} {entry : String × α}
    (member : entry ∈ (ofList pairs).toList) : entry ∈ pairs := by
  obtain ⟨key, value⟩ := entry
  have found := get?_eq_some_iff.mpr member
  rw [get?_ofList] at found
  exact List.mem_reverse.mp (Lookup.mem_of_eq_some found)

theorem ofList_toList (map : SortedMap α) : ofList map.toList = map := by
  apply ext_get?
  intro key
  rw [get?_ofList, Lookup.reverse_eq map.keys_nodup]
  rfl

/-- Pairs may change places with pairs of other keys. -/
theorem ofList_moved {moved middle : List (String × α)}
    (apart : ∀ key ∈ moved.map Prod.fst, key ∉ middle.map Prod.fst)
    (front back : List (String × α)) :
    ofList (front ++ (moved ++ (middle ++ back))) =
      ofList (front ++ (middle ++ (moved ++ back))) := by
  apply ext_get?
  intro key
  have backwards : ∀ key ∈ middle.reverse.map Prod.fst, key ∉ moved.reverse.map Prod.fst := by
    intro key inMiddle inMoved
    rw [List.map_reverse, List.mem_reverse] at inMiddle inMoved
    exact apart key inMoved inMiddle
  have swapped := Lookup.append_comm backwards key
  rw [List.lookup_append, List.lookup_append] at swapped
  rw [get?_ofList, get?_ofList]
  simp only [List.reverse_append, List.lookup_append, Option.or_assoc]
  rw [← @Option.or_assoc _ (middle.reverse.lookup key), swapped, Option.or_assoc]

/-- Pairs may be sorted before others follow them. -/
theorem ofList_toList_append (earlier later : List (String × α)) :
    ofList ((ofList earlier).toList ++ later) = ofList (earlier ++ later) := by
  have sorted : ofList (ofList earlier).toList = ofList earlier := ofList_toList (ofList earlier)
  unfold ofList at sorted ⊢
  rw [List.foldl_append, sorted, List.foldl_append]

/-- Pairs may be gathered in an ordered map before they are sorted. -/
theorem ofList_toList_ofList (pairs : List (String × α)) :
    ofList (OrderedMap.ofList pairs).toList = ofList pairs := by
  apply ext_get?
  intro key
  rw [get?_ofList, get?_ofList, Lookup.reverse_eq (OrderedMap.toList_nodup _),
    ← OrderedMap.get?_ofList]
  rfl

end SortedMap

end TableScript
