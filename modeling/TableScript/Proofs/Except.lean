import Mathlib.Data.List.Forall2

/-!
# Results

When a computation in steps, or one for every item of a list, comes to a value.
-/

namespace TableScript

/-! ## Lists related item by item -/

namespace Related

variable {α β : Type} {relation : α → β → Prop} {items : List α} {values : List β}

theorem exists_left (related : List.Forall₂ relation items values) {value : β}
    (member : value ∈ values) : ∃ item ∈ items, relation item value := by
  induction related with
  | nil => cases member
  | cons first _ ih =>
      obtain here | later := List.mem_cons.mp member
      · subst here
        exact ⟨_, List.mem_cons_self, first⟩
      · obtain ⟨item, known, relates⟩ := ih later
        exact ⟨item, List.mem_cons_of_mem _ known, relates⟩

theorem exists_right (related : List.Forall₂ relation items values) {item : α}
    (member : item ∈ items) : ∃ value ∈ values, relation item value :=
  exists_left related.flip member

/-- Relations that agree on the items of a list relate it to the same lists. -/
theorem congr_left {other : α → β → Prop}
    (agree : ∀ item ∈ items, ∀ value, relation item value ↔ other item value) :
    List.Forall₂ relation items values ↔ List.Forall₂ other items values := by
  induction items generalizing values with
  | nil => simp only [List.forall₂_nil_left_iff]
  | cons item rest ih =>
      obtain ⟨first, later⟩ := List.forall_mem_cons.mp agree
      cases values with
      | nil => simp
      | cons value others => rw [List.forall₂_cons, List.forall₂_cons, first value, ih later]

end Related

/-! ## Computations -/

namespace Except

variable {α β ε : Type}

theorem bind_eq_ok {result : Except ε α} {next : α → Except ε β} {value : β} :
    (result >>= next) = .ok value ↔ ∃ middle, result = .ok middle ∧ next middle = .ok value := by
  cases result with
  | error error =>
      constructor
      · intro failed
        cases failed
      · intro found
        obtain ⟨_, failed, _⟩ := found
        cases failed
  | ok middle =>
      constructor
      · intro reached
        exact ⟨middle, rfl, reached⟩
      · intro found
        obtain ⟨other, same, reached⟩ := found
        cases same
        exact reached

theorem map_eq_ok {result : Except ε α} {change : α → β} {value : β} :
    result.map change = .ok value ↔ ∃ middle, result = .ok middle ∧ change middle = value := by
  cases result with
  | error error => simp [Except.map]
  | ok middle => simp [Except.map]

theorem map_eq_error {result : Except ε α} {change : α → β} {error : ε} :
    result.map change = .error error ↔ result = .error error := by
  cases result with
  | error failure => simp [Except.map]
  | ok middle => simp [Except.map]

theorem mapM_eq_ok {action : α → Except ε β} {change : α → β} {items : List α}
    (each : ∀ item ∈ items, action item = .ok (change item)) :
    items.mapM action = .ok (items.map change) := by
  induction items with
  | nil => rfl
  | cons item rest ih =>
      have first := each item List.mem_cons_self
      have others := ih fun item member => each item (List.mem_cons_of_mem _ member)
      rw [List.mapM_cons, first, others]
      rfl

theorem mapM_cons_eq_ok {action : α → Except ε β} {item : α} {rest : List α} {values : List β} :
    (item :: rest).mapM action = .ok values ↔
      ∃ value others, action item = .ok value ∧ rest.mapM action = .ok others ∧
        values = value :: others := by
  rw [List.mapM_cons, bind_eq_ok]
  constructor
  · intro reached
    obtain ⟨value, first, reached⟩ := reached
    obtain ⟨others, later, same⟩ := bind_eq_ok.mp reached
    cases same
    exact ⟨value, others, first, later, rfl⟩
  · intro made
    obtain ⟨value, others, first, later, same⟩ := made
    exact ⟨value, first, bind_eq_ok.mpr ⟨others, later, congrArg Except.ok same.symm⟩⟩

/-- A list of results is made item by item. -/
theorem forall₂_of_mapM_eq_ok {action : α → Except ε β} {items : List α} {values : List β}
    (reached : items.mapM action = .ok values) :
    List.Forall₂ (fun item value => action item = .ok value) items values := by
  induction items generalizing values with
  | nil =>
      cases reached
      exact .nil
  | cons item rest ih =>
      obtain ⟨value, others, first, later, same⟩ := mapM_cons_eq_ok.mp reached
      rw [same]
      exact .cons first (ih later)

theorem mapM_eq_ok_iff_forall₂ {action : α → Except ε β} {items : List α} {values : List β} :
    items.mapM action = .ok values ↔
      List.Forall₂ (fun item value => action item = .ok value) items values := by
  constructor
  · exact forall₂_of_mapM_eq_ok
  · intro made
    induction made with
    | nil => rfl
    | cons first _ later => exact mapM_cons_eq_ok.mpr ⟨_, _, first, later, rfl⟩

theorem mapM_change {γ : Type} (action : α → Except ε β) (change : β → γ) (items : List α) :
    items.mapM (fun item => (action item).map change) =
      (items.mapM action).map (List.map change) := by
  induction items with
  | nil => rfl
  | cons item rest ih =>
      rw [List.mapM_cons, List.mapM_cons, ih]
      cases action item with
      | error failure => rfl
      | ok value =>
          cases rest.mapM action with
          | error failure => rfl
          | ok values => rfl

/-- Results for a list in parts come part by part. -/
theorem mapM_flatMap {γ : Type} (action : α → Except ε β) (part : γ → List α) (items : List γ) :
    (items.flatMap part).mapM action =
      (items.mapM fun item => (part item).mapM action).map List.flatten := by
  induction items with
  | nil => rfl
  | cons item rest ih =>
      rw [List.flatMap_cons, List.mapM_append, ih, List.mapM_cons]
      cases (part item).mapM action with
      | error failure => rfl
      | ok values =>
          cases rest.mapM fun item => (part item).mapM action with
          | error failure => rfl
          | ok others => rfl

theorem mapM_flatMap_eq_ok {γ : Type} {action : α → Except ε β} {part : γ → List α}
    {items : List γ} {values : List β} :
    (items.flatMap part).mapM action = .ok values ↔
      ∃ parts, items.mapM (fun item => (part item).mapM action) = .ok parts ∧
        values = parts.flatten := by
  rw [mapM_flatMap, map_eq_ok]
  simp only [eq_comm]

/-- To combine results as they come is to combine them all in the end. -/
theorem foldlM_map_eq {γ : Type} (read : α → Except ε β) (combine : γ → β → γ) (items : List α)
    (start : γ) :
    items.foldlM (fun total item => (read item).map (combine total)) start =
      (items.mapM read).map fun values => values.foldl combine start := by
  induction items generalizing start with
  | nil => rfl
  | cons item rest ih =>
      rw [List.foldlM_cons, List.mapM_cons]
      cases read item with
      | error failure => rfl
      | ok value =>
          refine (ih (combine start value)).trans ?_
          cases rest.mapM read with
          | error failure => rfl
          | ok values => rfl

/-- A list fails like the first item that does. -/
theorem mapM_eq_error_iff {action : α → Except ε β} {items : List α} {error : ε} :
    items.mapM action = .error error ↔
      ∃ before item after, items = before ++ item :: after ∧
        (∀ earlier ∈ before, ∃ value, action earlier = .ok value) ∧
        action item = .error error := by
  induction items with
  | nil =>
      rw [List.mapM_nil]
      simp [pure, Except.pure]
  | cons first rest ih =>
      rw [List.mapM_cons]
      cases made : action first with
      | error failure =>
          change (.error failure : Except ε (List β)) = .error error ↔ _
          constructor
          · intro failed
            cases failed
            exact ⟨[], first, rest, rfl, by simp, made⟩
          · rintro ⟨_ | ⟨head, tail⟩, item, after, split, fine, failed⟩
            · cases split
              cases made.symm.trans failed
              rfl
            · cases split
              obtain ⟨value, succeeded⟩ := fine first List.mem_cons_self
              rw [made] at succeeded
              cases succeeded
      | ok value =>
          have through : (do
                let others ← rest.mapM action
                return value :: others) = (.error error : Except ε (List β)) ↔
              rest.mapM action = .error error := by
            cases rest.mapM action with
            | error failure => rfl
            | ok others => simp [bind, Except.bind, pure, Except.pure]
          refine through.trans (ih.trans ?_)
          constructor
          · rintro ⟨before, item, after, split, fine, failed⟩
            refine ⟨first :: before, item, after, by rw [split]; rfl, ?_, failed⟩
            exact List.forall_mem_cons.mpr ⟨⟨value, made⟩, fine⟩
          · rintro ⟨_ | ⟨head, tail⟩, item, after, split, fine, failed⟩
            · cases split
              rw [made] at failed
              cases failed
            · cases split
              exact ⟨tail, item, after, rfl, (List.forall_mem_cons.mp fine).2, failed⟩

/-- Every value of a list of results is made from an item. -/
theorem exists_of_mem_mapM {action : α → Except ε β} {items : List α} {values : List β}
    (reached : items.mapM action = .ok values) {value : β} (member : value ∈ values) :
    ∃ item ∈ items, action item = .ok value :=
  Related.exists_left (forall₂_of_mapM_eq_ok reached) member

/-- If every item comes to a value, so does the list. -/
theorem exists_mapM_eq_ok {action : α → Except ε β} {relation : α → β → Prop} {items : List α}
    (each : ∀ item ∈ items, ∃ value, action item = .ok value ∧ relation item value) :
    ∃ values, items.mapM action = .ok values ∧ List.Forall₂ relation items values := by
  induction items with
  | nil => exact ⟨[], rfl, .nil⟩
  | cons item rest ih =>
      obtain ⟨value, first, related⟩ := each item List.mem_cons_self
      obtain ⟨values, later, relates⟩ := ih fun item member =>
        each item (List.mem_cons_of_mem _ member)
      refine ⟨value :: values, ?_, .cons related relates⟩
      rw [List.mapM_cons, first, later]
      rfl

/-- The results for a list come in the order of its items. -/
theorem exists_perm_of_mapM {action : α → Except ε β} {items others : List α} {values : List β}
    (perm : items.Perm others) (reached : items.mapM action = .ok values) :
    ∃ results, others.mapM action = .ok results ∧ values.Perm results := by
  induction perm generalizing values with
  | nil => exact ⟨values, reached, .refl values⟩
  | cons item _ ih =>
      obtain ⟨value, rest, first, later, same⟩ := mapM_cons_eq_ok.mp reached
      obtain ⟨results, made, permuted⟩ := ih later
      rw [same]
      exact ⟨value :: results, mapM_cons_eq_ok.mpr ⟨value, results, first, made, rfl⟩,
        permuted.cons value⟩
  | swap first second rest =>
      obtain ⟨one, tail, here, later, same⟩ := mapM_cons_eq_ok.mp reached
      obtain ⟨other, results, next, made, split⟩ := mapM_cons_eq_ok.mp later
      rw [same, split]
      have behind := mapM_cons_eq_ok.mpr ⟨one, results, here, made, rfl⟩
      exact ⟨other :: one :: results, mapM_cons_eq_ok.mpr ⟨other, _, next, behind, rfl⟩,
        .swap other one results⟩
  | trans _ _ ihFirst ihSecond =>
      obtain ⟨between, made, permuted⟩ := ihFirst reached
      obtain ⟨results, remade, further⟩ := ihSecond made
      exact ⟨results, remade, permuted.trans further⟩

/-- Results that may be combined in any order come to the same for items in any
order. -/
theorem foldlM_map_of_perm {γ : Type} {read : α → Except ε β} {combine : γ → β → γ}
    (commutes : ∀ total first second,
      combine (combine total first) second = combine (combine total second) first)
    {items others : List α} (perm : items.Perm others) {total result : γ}
    (reached : items.foldlM (fun total item => (read item).map (combine total)) total =
      .ok result) :
    others.foldlM (fun total item => (read item).map (combine total)) total = .ok result := by
  rw [foldlM_map_eq, map_eq_ok] at reached ⊢
  obtain ⟨values, made, rfl⟩ := reached
  obtain ⟨results, remade, permuted⟩ := exists_perm_of_mapM perm made
  exact ⟨results, remade, permuted.symm.foldl_eq' (fun first _ second _ total =>
    commutes total first second) total⟩

/-! ## Two computations -/

/-- That two computations come to values that are related, or fail with errors that are. -/
inductive Agree {α β ε : Type} (errors : ε → ε → Prop) (values : α → β → Prop) :
    Except ε α → Except ε β → Prop where
  | ok {value : α} {other : β} (related : values value other) :
      Agree errors values (.ok value) (.ok other)
  | error {error other : ε} (related : errors error other) :
      Agree errors values (.error error) (.error other)

namespace Agree

variable {α β α' β' ε : Type} {errors : ε → ε → Prop} {values : α → β → Prop}
  {results : α' → β' → Prop}

theorem bind {first : Except ε α} {second : Except ε β} {next : α → Except ε α'}
    {other : β → Except ε β'} (agree : Agree errors values first second)
    (each : ∀ value counterpart, values value counterpart →
      Agree errors results (next value) (other counterpart)) :
    Agree errors results (first >>= next) (second >>= other) := by
  cases agree with
  | ok related => exact each _ _ related
  | error related => exact .error related

theorem map {first : Except ε α} {second : Except ε β} {change : α → α'} {other : β → β'}
    (agree : Agree errors values first second)
    (each : ∀ value counterpart, values value counterpart →
      results (change value) (other counterpart)) :
    Agree errors results (first.map change) (second.map other) := by
  cases agree with
  | ok related => exact .ok (each _ _ related)
  | error related => exact .error related

/-- Computations for the items of two lists agree if they do item by item. -/
theorem mapM {action : α → Except ε α'} {other : β → Except ε β'}
    (each : ∀ item counterpart, values item counterpart →
      Agree errors results (action item) (other counterpart))
    {items : List α} {others : List β} (related : List.Forall₂ values items others) :
    Agree errors (List.Forall₂ results) (items.mapM action) (others.mapM other) := by
  induction related with
  | nil => exact .ok .nil
  | cons first _ ih =>
      rw [List.mapM_cons, List.mapM_cons]
      exact (each _ _ first).bind fun _ _ here => ih.bind fun _ _ later => .ok (.cons here later)

/-- Computations that go through two lists agree if they do step by step. -/
theorem foldlM {action : α' → α → Except ε α'} {other : β' → β → Except ε β'}
    (each : ∀ total total' item counterpart, results total total' → values item counterpart →
      Agree errors results (action total item) (other total' counterpart))
    {items : List α} {others : List β} (related : List.Forall₂ values items others)
    {total : α'} {total' : β'} (start : results total total') :
    Agree errors results (items.foldlM action total) (others.foldlM other total') := by
  induction related generalizing total total' with
  | nil => exact .ok start
  | cons first _ ih =>
      rw [List.foldlM_cons, List.foldlM_cons]
      exact (each _ _ _ _ start first).bind fun _ _ next => ih next

end Agree

end Except

end TableScript
