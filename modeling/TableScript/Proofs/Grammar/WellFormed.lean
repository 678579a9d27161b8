import TableScript.Proofs.Grammar.Spelling

/-!
# Statements that can be spelled

What the names, the URL and the lists of a statement must be like for a line to
spell it.
-/

namespace TableScript

def Spelling.IsNames (listed : List String) : Prop :=
  listed ≠ [] ∧ ∀ value ∈ listed, IsName value

open Spelling

def Reference.WellFormed (reference : Reference) : Prop :=
  IsName reference.space ∧ IsName reference.name ∧ IsName reference.version

def Projection.WellFormed (column : Projection) : Prop :=
  IsName column.source ∧ IsName column.target

def Pairing.WellFormed (pairing : Pairing) : Prop :=
  IsNames pairing.leftKeys ∧ IsNames pairing.rightKeys ∧
    ∀ column ∈ pairing.projections, column.WellFormed

def Call.WellFormed (call : Call) : Prop := IsName call.name ∧ IsNames call.arguments

def Step.WellFormed : Step → Prop
  | push table => IsName table
  | pop => True
  | duplicate => True
  | commit table columns => IsName table ∧ ∀ listed ∈ columns, IsNames listed
  | join pairing => pairing.WellFormed
  | inclusion pairing => pairing.WellFormed
  | accumulate column call result =>
      IsName column ∧ call.WellFormed ∧ ∀ target ∈ result, IsName target
  | pull reference target => reference.WellFormed ∧ IsName target

def Action.WellFormed : Action → Prop
  | .step it => it.WellFormed
  | .invoke rule => rule.WellFormed
  | .unrecognized _ => False

/-- That a statement is made of names, of a URL where it has one, and of lists that
are not empty. -/
def Statement.WellFormed : Statement → Prop
  | .expects table columns => IsName table ∧ IsNames columns
  | .attach url name => IsUrl url ∧ IsName name
  | .action it => it.WellFormed

/-! ## Deciding -/

-- characters are finitely many, so the instance that Lean would find tries all of them
instance (value : String) : Decidable (IsName value) :=
  decidable_of_iff
    (value.toList ≠ [] ∧ value.toList.all fun c => c.isAlphanum ∨ c = '_')
    (by simp [IsName])

instance (value : String) : Decidable (IsUrl value) :=
  decidable_of_iff (value.toList ≠ [] ∧ value.toList.all fun c => c ≠ ' ' ∧ c ≠ '\t')
    (by simp [IsUrl])

instance (listed : List String) : Decidable (IsNames listed) :=
  inferInstanceAs (Decidable (_ ∧ _))

instance (reference : Reference) : Decidable reference.WellFormed :=
  inferInstanceAs (Decidable (_ ∧ _))

instance (column : Projection) : Decidable column.WellFormed :=
  inferInstanceAs (Decidable (_ ∧ _))

instance (pairing : Pairing) : Decidable pairing.WellFormed :=
  inferInstanceAs (Decidable (_ ∧ _))

instance (call : Call) : Decidable call.WellFormed := inferInstanceAs (Decidable (_ ∧ _))

instance : (step : Step) → Decidable step.WellFormed
  | .push table => inferInstanceAs (Decidable (IsName table))
  | .pop => inferInstanceAs (Decidable True)
  | .duplicate => inferInstanceAs (Decidable True)
  | .commit table columns =>
      inferInstanceAs (Decidable (IsName table ∧ ∀ listed ∈ columns, IsNames listed))
  | .join pairing => inferInstanceAs (Decidable pairing.WellFormed)
  | .inclusion pairing => inferInstanceAs (Decidable pairing.WellFormed)
  | .accumulate column call result =>
      inferInstanceAs
        (Decidable (IsName column ∧ call.WellFormed ∧ ∀ target ∈ result, IsName target))
  | .pull reference target => inferInstanceAs (Decidable (reference.WellFormed ∧ IsName target))

instance : (action : Action) → Decidable action.WellFormed
  | .step it => inferInstanceAs (Decidable it.WellFormed)
  | .invoke rule => inferInstanceAs (Decidable rule.WellFormed)
  | .unrecognized _ => inferInstanceAs (Decidable False)

instance : (statement : Statement) → Decidable statement.WellFormed
  | .expects table columns => inferInstanceAs (Decidable (IsName table ∧ IsNames columns))
  | .attach url name => inferInstanceAs (Decidable (IsUrl url ∧ IsName name))
  | .action it => inferInstanceAs (Decidable it.WellFormed)

/-! ## Whatever is spelled is well-formed -/

namespace Spelling

def Inhabited (language : Language Char) : Prop := ∃ text, text ∈ language

theorem inhabited_mul {first second : Language Char} (both : Inhabited (first * second)) :
    Inhabited first ∧ Inhabited second := by
  obtain ⟨text, member⟩ := both
  obtain ⟨front, inFirst, back, inSecond, _⟩ := Language.mem_mul.mp member
  exact ⟨⟨front, inFirst⟩, ⟨back, inSecond⟩⟩

theorem isName_of_inhabited {value : String} (spelled : Inhabited (name value)) :
    IsName value := by
  obtain ⟨text, member⟩ := spelled
  exact member.2

theorem isUrl_of_inhabited {value : String} (spelled : Inhabited (url value)) :
    IsUrl value := by
  obtain ⟨text, member⟩ := spelled
  exact member.2

theorem inhabited_further {α : Type} {item : α → Language Char} {further : List α}
    (spelled : Inhabited (further.map fun next => word "," * gap * item next).prod) :
    ∀ value ∈ further, Inhabited (item value) := by
  induction further with
  | nil =>
      intro value member
      cases member
  | cons next others ih =>
      rw [List.map_cons, List.prod_cons] at spelled
      obtain ⟨one, more⟩ := inhabited_mul spelled
      intro value member
      obtain same | later := List.mem_cons.mp member
      · subst same
        exact (inhabited_mul one).2
      · exact ih more value later

/-- A list that is spelled has some items, each of which is spelled. -/
theorem inhabited_separated {α : Type} {item : α → Language Char} {listed : List α}
    (spelled : Inhabited (separated item listed)) :
    listed ≠ [] ∧ ∀ value ∈ listed, Inhabited (item value) := by
  cases listed with
  | nil =>
      obtain ⟨text, member⟩ := spelled
      exact absurd member (Language.notMem_zero text)
  | cons first rest =>
      obtain ⟨here, further⟩ := inhabited_mul spelled
      refine ⟨List.cons_ne_nil first rest, ?_⟩
      intro value member
      obtain same | later := List.mem_cons.mp member
      · subst same
        exact here
      · exact inhabited_further further value later

theorem isNames_of_inhabited {listed : List String} (spelled : Inhabited (names listed)) :
    IsNames listed := by
  obtain ⟨some, each⟩ := inhabited_separated spelled
  exact ⟨some, fun value member => isName_of_inhabited (each value member)⟩

theorem isNames_of_columns {listed : List String} (spelled : Inhabited (columns listed)) :
    IsNames listed :=
  isNames_of_inhabited (inhabited_mul (inhabited_mul spelled).1).2

theorem wellFormed_of_reference {it : Reference} (spelled : Inhabited (reference it)) :
    it.WellFormed := by
  obtain ⟨front, version⟩ := inhabited_mul spelled
  obtain ⟨front, _⟩ := inhabited_mul front
  obtain ⟨front, name⟩ := inhabited_mul front
  obtain ⟨space, _⟩ := inhabited_mul front
  exact ⟨isName_of_inhabited space, isName_of_inhabited name, isName_of_inhabited version⟩

theorem wellFormed_of_call {it : Call} (spelled : Inhabited (call it)) : it.WellFormed := by
  obtain ⟨front, _⟩ := inhabited_mul spelled
  obtain ⟨front, arguments⟩ := inhabited_mul front
  obtain ⟨name, _⟩ := inhabited_mul front
  exact ⟨isName_of_inhabited name, isNames_of_inhabited arguments⟩

theorem wellFormed_of_projection {column : Projection} (spelled : Inhabited (projection column)) :
    column.WellFormed := by
  obtain ⟨text, member⟩ := spelled
  obtain both | once := (Language.mem_add _ _ _).mp member
  · obtain ⟨front, target⟩ := inhabited_mul ⟨text, both⟩
    obtain ⟨source, _⟩ := inhabited_mul front
    exact ⟨isName_of_inhabited source, isName_of_inhabited target⟩
  · split at once
    · next same =>
        have source := isName_of_inhabited ⟨text, once⟩
        exact ⟨source, same ▸ source⟩
    · exact absurd once (Language.notMem_zero text)

theorem wellFormed_of_pairing {it : Pairing} (spelled : Inhabited (pairing it)) :
    it.WellFormed := by
  obtain ⟨front, listed⟩ := inhabited_mul spelled
  obtain ⟨_, keys⟩ := inhabited_mul front
  obtain ⟨keys, _⟩ := inhabited_mul keys
  obtain ⟨keys, _⟩ := inhabited_mul keys
  obtain ⟨keys, right⟩ := inhabited_mul keys
  obtain ⟨keys, _⟩ := inhabited_mul keys
  obtain ⟨keys, _⟩ := inhabited_mul keys
  obtain ⟨keys, _⟩ := inhabited_mul keys
  obtain ⟨keys, _⟩ := inhabited_mul keys
  obtain ⟨_, left⟩ := inhabited_mul keys
  refine ⟨isNames_of_inhabited left, isNames_of_inhabited right, ?_⟩
  obtain ⟨leftKeys, rightKeys, projections⟩ := it
  cases projections with
  | nil =>
      intro column member
      cases member
  | cons first rest =>
      obtain ⟨listed, _⟩ := inhabited_mul listed
      obtain ⟨_, listed⟩ := inhabited_mul listed
      intro column member
      exact wellFormed_of_projection ((inhabited_separated listed).2 column member)

end Spelling

theorem Step.wellFormed_of_operands {step : Step} (spelled : Inhabited step.operands) :
    step.WellFormed := by
  cases step with
  | push table => exact isName_of_inhabited (inhabited_mul spelled).2
  | pop => trivial
  | duplicate => trivial
  | commit table columns =>
      obtain ⟨front, listed⟩ := inhabited_mul spelled
      refine ⟨isName_of_inhabited (inhabited_mul front).2, ?_⟩
      intro names given
      cases given
      exact isNames_of_columns listed
  | join pairing => exact wellFormed_of_pairing spelled
  | inclusion pairing => exact wellFormed_of_pairing spelled
  | accumulate column call result =>
      obtain ⟨front, target⟩ := inhabited_mul spelled
      obtain ⟨front, applied⟩ := inhabited_mul front
      obtain ⟨front, _⟩ := inhabited_mul front
      refine ⟨isName_of_inhabited (inhabited_mul front).2, wellFormed_of_call applied, ?_⟩
      intro name given
      cases given
      exact isName_of_inhabited (inhabited_mul target).2
  | pull reference target =>
      obtain ⟨front, name⟩ := inhabited_mul spelled
      obtain ⟨front, _⟩ := inhabited_mul front
      exact ⟨wellFormed_of_reference (inhabited_mul front).2, isName_of_inhabited name⟩

theorem Statement.wellFormed_of_spells {statement : Statement} {line : String}
    (spells : statement.Spells line) : statement.WellFormed := by
  have spelled : Inhabited statement.operands := (inhabited_mul ⟨line.toList, spells⟩).2
  cases statement with
  | expects table columns =>
      obtain ⟨front, listed⟩ := inhabited_mul spelled
      exact ⟨isName_of_inhabited (inhabited_mul front).2, isNames_of_columns listed⟩
  | attach url name =>
      obtain ⟨front, name⟩ := inhabited_mul spelled
      obtain ⟨front, _⟩ := inhabited_mul front
      exact ⟨isUrl_of_inhabited (inhabited_mul front).2, isName_of_inhabited name⟩
  | action it =>
      cases it with
      | step it => exact Step.wellFormed_of_operands spelled
      | invoke rule => exact wellFormed_of_reference (inhabited_mul spelled).2
      | unrecognized name =>
          obtain ⟨text, member⟩ := spelled
          exact absurd member (Language.notMem_zero text)

end TableScript
