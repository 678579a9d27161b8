/-!
# Ordered maps

Finite maps from strings that keep their entries in the order in which the keys
were first inserted.  Inserting under a present key replaces the value where it
stands; erasing a key leaves the order of the others alone.

Distinctness of the keys is part of the type: every entry carries a proof that
its key does not occur further on.  Because that proof mentions keys only, a
type may be defined by recursion through `OrderedMap`, as nested documents are.

The view of a map is its list of entries, `toList`; two maps with the same view
are equal (`ext_toList`).
-/

namespace TableScript

universe u v

/-- The entries of an ordered map, indexed by the list of their keys. -/
inductive Entries (α : Type u) : List String → Type u where
  | nil : Entries α []
  | cons {keys : List String} (key : String) (value : α) (rest : Entries α keys)
      (fresh : key ∉ keys) : Entries α (key :: keys)

namespace Entries

variable {α : Type u}

def toList : {keys : List String} → Entries α keys → List (String × α)
  | _, .nil => []
  | _, .cons key value rest _ => (key, value) :: rest.toList

theorem map_fst_toList {keys : List String} (entries : Entries α keys) :
    entries.toList.map Prod.fst = keys := by
  induction entries with
  | nil => rfl
  | cons key value rest fresh ih => simp [toList, ih]

theorem keys_nodup {keys : List String} (entries : Entries α keys) :
    keys.Nodup := by
  induction entries with
  | nil => exact List.nodup_nil
  | cons key value rest fresh ih => exact List.nodup_cons.mpr ⟨fresh, ih⟩

end Entries

/-- A finite map from strings with its entries in order of first insertion. -/
structure OrderedMap (α : Type u) where
  keys : List String
  entries : Entries α keys

namespace OrderedMap

variable {α : Type u}

def empty : OrderedMap α := ⟨[], .nil⟩

instance : EmptyCollection (OrderedMap α) := ⟨empty⟩

instance : Inhabited (OrderedMap α) := ⟨empty⟩

def toList (map : OrderedMap α) : List (String × α) := map.entries.toList

def cons (key : String) (value : α) (rest : OrderedMap α) (fresh : key ∉ rest.keys) :
    OrderedMap α :=
  ⟨key :: rest.keys, .cons key value rest.entries fresh⟩

/-- The map with these entries, whose keys are distinct, and its keys. -/
def keyed : (pairs : List (String × α)) → (pairs.map Prod.fst).Nodup →
    { map : OrderedMap α // map.keys = pairs.map Prod.fst }
  | [], _ => ⟨empty, rfl⟩
  | (key, value) :: rest, distinct =>
      let tail := keyed rest (List.nodup_cons.mp distinct).2
      have fresh : key ∉ tail.1.keys := by
        rw [tail.2]
        exact (List.nodup_cons.mp distinct).1
      ⟨cons key value tail.1 fresh, congrArg (key :: ·) tail.2⟩

/-- The map with these entries, whose keys are distinct. -/
def ofDistinct (pairs : List (String × α)) (distinct : (pairs.map Prod.fst).Nodup) :
    OrderedMap α :=
  (keyed pairs distinct).1

@[simp] theorem toList_empty : (empty : OrderedMap α).toList = [] := rfl

@[simp] theorem toList_cons (key : String) (value : α) (rest : OrderedMap α)
    (fresh : key ∉ rest.keys) :
    (cons key value rest fresh).toList = (key, value) :: rest.toList := rfl

@[simp] theorem toList_ofDistinct (pairs : List (String × α))
    (distinct : (pairs.map Prod.fst).Nodup) :
    (ofDistinct pairs distinct).toList = pairs := by
  induction pairs with
  | nil => rfl
  | cons pair rest ih =>
      exact congrArg (pair :: ·) (ih (List.nodup_cons.mp distinct).2)

theorem map_fst_toList (map : OrderedMap α) : map.toList.map Prod.fst = map.keys :=
  map.entries.map_fst_toList

theorem toList_nodup (map : OrderedMap α) : (map.toList.map Prod.fst).Nodup := by
  rw [map_fst_toList]
  exact map.entries.keys_nodup

private theorem cons_congr {first second : OrderedMap α} (same : first = second)
    (key : String) (value : α) (fresh : key ∉ first.keys) (fresh' : key ∉ second.keys) :
    cons key value first fresh = cons key value second fresh' := by
  subst same
  rfl

private theorem ofDistinct_entries {keys : List String} (entries : Entries α keys)
    (distinct : (entries.toList.map Prod.fst).Nodup) :
    ofDistinct entries.toList distinct = ⟨keys, entries⟩ := by
  induction entries with
  | nil => rfl
  | cons key value rest fresh ih =>
      have tail : (rest.toList.map Prod.fst).Nodup := (List.nodup_cons.mp distinct).2
      exact cons_congr (ih tail) key value _ fresh

/-- A map is rebuilt from its view. -/
@[simp] theorem ofDistinct_toList (map : OrderedMap α)
    (distinct : (map.toList.map Prod.fst).Nodup) :
    ofDistinct map.toList distinct = map :=
  ofDistinct_entries map.entries distinct

/-- Maps with the same entries in the same order are equal. -/
theorem ext_toList {first second : OrderedMap α} (same : first.toList = second.toList) :
    first = second := by
  rw [← ofDistinct_toList first first.toList_nodup,
    ← ofDistinct_toList second second.toList_nodup]
  congr 1

instance [DecidableEq α] : DecidableEq (OrderedMap α) := fun first second =>
  decidable_of_iff (first.toList = second.toList)
    ⟨ext_toList, fun same => same ▸ rfl⟩

def size (map : OrderedMap α) : Nat := map.keys.length

def isEmpty (map : OrderedMap α) : Bool := map.keys.isEmpty

def contains (map : OrderedMap α) (key : String) : Bool := map.keys.contains key

def get? (map : OrderedMap α) (key : String) : Option α := map.toList.lookup key

/-- Replace the value of `key` where it stands, or add it at the end. -/
def upsert (key : String) (value : α) : List (String × α) → List (String × α)
  | [] => [(key, value)]
  | entry :: rest =>
      if entry.1 = key then (key, value) :: rest else entry :: upsert key value rest

theorem map_fst_upsert (key : String) (value : α) (pairs : List (String × α)) :
    (upsert key value pairs).map Prod.fst =
      if key ∈ pairs.map Prod.fst then pairs.map Prod.fst
      else pairs.map Prod.fst ++ [key] := by
  induction pairs with
  | nil => simp [upsert]
  | cons entry rest ih =>
      by_cases same : entry.1 = key
      · simp [upsert, same]
      · have other : ¬key = entry.1 := fun h => same h.symm
        simp only [upsert, same, if_false, List.map_cons, ih, List.mem_cons, other, false_or]
        split <;> simp

theorem upsert_nodup (key : String) (value : α) {pairs : List (String × α)}
    (distinct : (pairs.map Prod.fst).Nodup) :
    ((upsert key value pairs).map Prod.fst).Nodup := by
  rw [map_fst_upsert]
  split
  · exact distinct
  · next absent =>
      rw [List.nodup_append]
      refine ⟨distinct, by simp, ?_⟩
      intro name present other added
      rw [List.mem_singleton] at added
      rintro rfl
      exact absent (added ▸ present)

def insert (map : OrderedMap α) (key : String) (value : α) : OrderedMap α :=
  ofDistinct (upsert key value map.toList) (upsert_nodup key value map.toList_nodup)

@[simp] theorem toList_insert (map : OrderedMap α) (key : String) (value : α) :
    (map.insert key value).toList = upsert key value map.toList :=
  toList_ofDistinct _ _

/-- The map with every pair of a list inserted in turn. -/
def insertAll (map : OrderedMap α) (pairs : List (String × α)) : OrderedMap α :=
  pairs.foldl (fun current pair => current.insert pair.1 pair.2) map

/-- The map holding a list of pairs; a repeated key keeps its first place and
takes its last value. -/
def ofList (pairs : List (String × α)) : OrderedMap α := empty.insertAll pairs

def erase (map : OrderedMap α) (key : String) : OrderedMap α :=
  ofDistinct (map.toList.filter fun entry => entry.1 ≠ key)
    (map.toList_nodup.sublist (List.Sublist.map _ List.filter_sublist))

@[simp] theorem toList_erase (map : OrderedMap α) (key : String) :
    (map.erase key).toList = map.toList.filter fun entry => entry.1 ≠ key :=
  toList_ofDistinct _ _

/-! ## Looking up -/

theorem lookup_upsert (key other : String) (value : α) (pairs : List (String × α)) :
    (upsert key value pairs).lookup other =
      if other = key then some value else pairs.lookup other := by
  induction pairs with
  | nil =>
      by_cases same : other = key
      · simp [upsert, same]
      · have differs : (other == key) = false := by simp [same]
        simp [upsert, List.lookup_cons, same, differs]
  | cons entry rest ih =>
      obtain ⟨name, current⟩ := entry
      by_cases here : name = key
      · subst here
        by_cases same : other = name
        · simp [upsert, same]
        · have differs : (other == name) = false := by simp [same]
          simp [upsert, List.lookup_cons, same, differs]
      · by_cases same : other = name
        · subst same
          simp [upsert, here]
        · have differs : (other == name) = false := by simp [same]
          simp [upsert, here, List.lookup_cons, differs, ih]

@[simp] theorem get?_empty (key : String) : (empty : OrderedMap α).get? key = none := rfl

/-- Insertion changes the value of the inserted key and of no other. -/
theorem get?_insert (map : OrderedMap α) (key other : String) (value : α) :
    (map.insert key value).get? other = if other = key then some value else map.get? other := by
  rw [get?, toList_insert, lookup_upsert]
  rfl

end OrderedMap

end TableScript
