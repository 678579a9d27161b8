/-!
# Sorted maps

Finite maps from strings whose entries stand in ascending order of their keys,
compared character by character.  The order is part of the type, so two maps are
equal exactly when they hold the same entries.
-/

namespace TableScript

universe u

/-- A finite map from strings with its entries in ascending order of the keys. -/
structure SortedMap (α : Type u) where
  toList : List (String × α)
  ascending : toList.Pairwise fun first second => first.1 < second.1
deriving DecidableEq

namespace SortedMap

variable {α : Type u}

def empty : SortedMap α := ⟨[], .nil⟩

instance : EmptyCollection (SortedMap α) := ⟨empty⟩

instance : Inhabited (SortedMap α) := ⟨empty⟩

/-- Maps with the same entries are equal. -/
theorem ext_toList {first second : SortedMap α} (same : first.toList = second.toList) :
    first = second := by
  cases first
  cases second
  cases same
  rfl

def isEmpty (map : SortedMap α) : Bool := map.toList.isEmpty

def get? (map : SortedMap α) (key : String) : Option α := map.toList.lookup key

/-- Put an entry at its place, in exchange for an entry of the same key. -/
def place (key : String) (value : α) : List (String × α) → List (String × α)
  | [] => [(key, value)]
  | entry :: rest =>
      if key < entry.1 then (key, value) :: entry :: rest
      else if entry.1 < key then entry :: place key value rest
      else (key, value) :: rest

theorem mem_place {key : String} {value : α} {pairs : List (String × α)}
    {entry : String × α} (member : entry ∈ place key value pairs) :
    entry = (key, value) ∨ entry ∈ pairs := by
  induction pairs with
  | nil => simpa [place] using member
  | cons head rest ih =>
      simp only [place] at member
      split at member
      · simpa using member
      · split at member
        · rcases List.mem_cons.mp member with here | later
          · exact .inr (by simp [here])
          · rcases ih later with placed | old
            · exact .inl placed
            · exact .inr (by simp [old])
        · rcases List.mem_cons.mp member with here | later
          · exact .inl here
          · exact .inr (by simp [later])

theorem place_ascending (key : String) (value : α) {pairs : List (String × α)}
    (ascending : pairs.Pairwise fun first second => first.1 < second.1) :
    (place key value pairs).Pairwise fun first second => first.1 < second.1 := by
  induction pairs with
  | nil => simp [place]
  | cons head rest ih =>
      obtain ⟨above, tail⟩ := List.pairwise_cons.mp ascending
      simp only [place]
      split
      · next before =>
          refine List.pairwise_cons.mpr ⟨?_, ascending⟩
          intro entry member
          rcases List.mem_cons.mp member with rfl | later
          · exact before
          · exact String.lt_trans before (above entry later)
      · next notBefore =>
          split
          · next after =>
              refine List.pairwise_cons.mpr ⟨?_, ih tail⟩
              intro entry member
              rcases mem_place member with rfl | old
              · exact after
              · exact above entry old
          · next notAfter =>
              have same : key = head.1 :=
                String.le_antisymm (String.not_lt.mp notAfter) (String.not_lt.mp notBefore)
              refine List.pairwise_cons.mpr ⟨?_, tail⟩
              intro entry member
              simpa [same] using above entry member

def insert (map : SortedMap α) (key : String) (value : α) : SortedMap α :=
  ⟨place key value map.toList, place_ascending key value map.ascending⟩

/-- The map holding a list of pairs, the last value of a repeated key winning. -/
def ofList (pairs : List (String × α)) : SortedMap α :=
  pairs.foldl (fun current pair => current.insert pair.1 pair.2) empty

theorem lookup_place (key other : String) (value : α) {pairs : List (String × α)}
    (ascending : pairs.Pairwise fun first second => first.1 < second.1) :
    (place key value pairs).lookup other =
      if other = key then some value else pairs.lookup other := by
  induction pairs with
  | nil =>
      by_cases same : other = key
      · simp [place, same]
      · have differs : (other == key) = false := by simp [same]
        simp [place, List.lookup_cons, same, differs]
  | cons head rest ih =>
      obtain ⟨name, current⟩ := head
      obtain ⟨_, tail⟩ := List.pairwise_cons.mp ascending
      simp only [place]
      split
      · by_cases same : other = key
        · simp [same]
        · have differs : (other == key) = false := by simp [same]
          simp [List.lookup_cons, same, differs]
      · next notBefore =>
          split
          · by_cases here : other = name
            · subst here
              have differs : other ≠ key := by
                rintro rfl
                exact absurd ‹_› (String.lt_irrefl _)
              simp [differs]
            · have differs : (other == name) = false := by simp [here]
              simp [List.lookup_cons, differs, ih tail]
          · next notAfter =>
              have same : key = name :=
                String.le_antisymm (String.not_lt.mp notAfter) (String.not_lt.mp notBefore)
              subst same
              by_cases here : other = key
              · simp [here]
              · have differs : (other == key) = false := by simp [here]
                simp [List.lookup_cons, here, differs]

@[simp] theorem get?_empty (key : String) : (empty : SortedMap α).get? key = none := rfl

/-- Insertion changes the value of the inserted key and of no other. -/
theorem get?_insert (map : SortedMap α) (key other : String) (value : α) :
    (map.insert key value).get? other = if other = key then some value else map.get? other :=
  lookup_place key other value map.ascending

end SortedMap

end TableScript
