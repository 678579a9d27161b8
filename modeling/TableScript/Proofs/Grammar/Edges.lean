import TableScript.Proofs.Grammar.Statement
import TableScript.Proofs.Grammar.WellFormed
import TableScript.Proofs.Text.Lines

/-!
# The edges of spelled lines

A line that spells a statement neither begins nor ends with a blank character and is
no comment, so it is a line of a script as it stands, unless its URL breaks it.
-/

namespace TableScript

namespace Spelling

/-! ## Ends -/

def EndsVisibly (language : Language Char) : Prop :=
  ∀ text ∈ language, ∃ front last, text = front ++ [last] ∧ Text.isBlank last = false

theorem endsVisibly_mul (first : Language Char) {second : Language Char}
    (ends : EndsVisibly second) : EndsVisibly (first * second) := by
  intro text member
  obtain ⟨start, _, back, inSecond, same⟩ := Language.mem_mul.mp member
  obtain ⟨front, last, split, visible⟩ := ends back inSecond
  refine ⟨start ++ front, last, ?_, visible⟩
  rw [← same, split, List.append_assoc]

theorem endsVisibly_of_forall {language : Language Char}
    (some : [] ∉ language)
    (visible : ∀ text ∈ language, ∀ c ∈ text, Text.isBlank c = false) : EndsVisibly language := by
  intro text member
  have filled : text ≠ [] := by
    intro same
    rw [same] at member
    exact some member
  refine ⟨text.dropLast, text.getLast filled, (List.dropLast_append_getLast filled).symm, ?_⟩
  exact visible text member _ (List.getLast_mem filled)

theorem isBlank_of_isName {value : String} (isName : IsName value) :
    ∀ c ∈ value.toList, Text.isBlank c = false := by
  intro c member
  obtain named | same := isName.2 c member
  · exact Text.isBlank_of_isAlphanum named
  · rw [same]
    decide

theorem endsVisibly_name (value : String) : EndsVisibly (name value) := by
  apply endsVisibly_of_forall
  · intro member
    exact member.2.1 member.1.symm
  · intro text member
    obtain ⟨same, isName⟩ := member
    rw [same]
    exact isBlank_of_isName isName

theorem endsVisibly_bracket : EndsVisibly (word "]") := by
  intro text member
  exact ⟨[], ']', member, by decide⟩

theorem endsVisibly_call (it : Call) : EndsVisibly (call it) := by
  apply endsVisibly_mul
  intro text member
  exact ⟨[], ')', member, by decide⟩

theorem endsVisibly_pairing (it : Pairing) : EndsVisibly (pairing it) := by
  obtain ⟨leftKeys, rightKeys, projections⟩ := it
  cases projections with
  | nil =>
      unfold pairing
      show EndsVisibly (_ * 1)
      rw [mul_one]
      exact endsVisibly_mul _ (endsVisibly_mul _ endsVisibly_bracket)
  | cons first rest => exact endsVisibly_mul _ (endsVisibly_mul _ endsVisibly_bracket)

/-- Lower case moves capitals only. -/
theorem toLower_eq_self {c : Char} (small : ¬ ('A'.val ≤ c.val ∧ c.val ≤ 'Z'.val)) :
    c.toLower = c := dif_neg small

theorem isAlpha_of_toLower {c : Char} (letter : c.toLower.isAlpha = true) :
    c.isAlpha = true := by
  by_cases capital : 'A'.val ≤ c.val ∧ c.val ≤ 'Z'.val
  · have upper : c.isUpper = true := decide_eq_true capital
    exact Bool.or_eq_true_iff.mpr (.inl upper)
  · rwa [toLower_eq_self capital] at letter

/-- A keyword consists of letters, in whatever case it is written. -/
theorem isAlpha_of_mem_anyCase {keyword : String}
    (letters : keyword.toList.all fun c => c.toLower.isAlpha) {text : List Char}
    (member : text ∈ Grammar.anyCase keyword) : ∀ c ∈ text, c.isAlpha = true := by
  intro c inText
  have lower : text.map Char.toLower = keyword.toList.map Char.toLower := member
  have inLower : c.toLower ∈ keyword.toList.map Char.toLower := by
    rw [← lower]
    exact List.mem_map_of_mem inText
  obtain ⟨letter, known, same⟩ := List.mem_map.mp inLower
  apply isAlpha_of_toLower
  rw [← same]
  exact List.all_eq_true.mp letters letter known

theorem isAlphanum_of_isAlpha {c : Char} (letter : c.isAlpha = true) : c.isAlphanum = true :=
  Bool.or_eq_true_iff.mpr (.inl letter)

theorem endsVisibly_anyCase {keyword : String} (filled : keyword.toList ≠ [])
    (letters : keyword.toList.all fun c => c.toLower.isAlpha) :
    EndsVisibly (Grammar.anyCase keyword) := by
  apply endsVisibly_of_forall
  · intro member
    have same : [].map Char.toLower = keyword.toList.map Char.toLower := member
    exact filled (List.map_eq_nil_iff.mp same.symm)
  · intro text member c inText
    exact Text.isBlank_of_isAlphanum
      (isAlphanum_of_isAlpha (isAlpha_of_mem_anyCase letters member c inText))

end Spelling

open Spelling

theorem Grammar.keywords_letters :
    ∀ keyword ∈ Grammar.keywords,
      keyword.toList ≠ [] ∧ keyword.toList.all fun c => c.toLower.isAlpha := by
  decide

theorem Step.endsVisibly (step : Step) :
    EndsVisibly (Grammar.anyCase step.keyword * step.operands) := by
  cases step with
  | push table => exact endsVisibly_mul _ (endsVisibly_mul _ (endsVisibly_name table))
  | pop =>
      show EndsVisibly (_ * 1)
      rw [mul_one]
      exact endsVisibly_anyCase (by decide) (by decide)
  | duplicate =>
      show EndsVisibly (_ * 1)
      rw [mul_one]
      exact endsVisibly_anyCase (by decide) (by decide)
  | commit table columns =>
      cases columns with
      | none =>
          show EndsVisibly (_ * (_ * _ * 1))
          rw [mul_one]
          exact endsVisibly_mul _ (endsVisibly_mul _ (endsVisibly_name table))
      | some columns =>
          exact endsVisibly_mul _ (endsVisibly_mul _ (endsVisibly_mul _ endsVisibly_bracket))
  | join pairing => exact endsVisibly_mul _ (endsVisibly_pairing pairing)
  | inclusion pairing => exact endsVisibly_mul _ (endsVisibly_pairing pairing)
  | accumulate column call result =>
      cases result with
      | none =>
          show EndsVisibly (_ * (_ * _ * 1))
          rw [mul_one]
          exact endsVisibly_mul _ (endsVisibly_mul _ (endsVisibly_call call))
      | some target =>
          exact endsVisibly_mul _ (endsVisibly_mul _ (endsVisibly_mul _ (endsVisibly_name target)))
  | pull reference target =>
      exact endsVisibly_mul _ (endsVisibly_mul _ (endsVisibly_name target))

namespace Statement

theorem endsVisibly (statement : Statement) : EndsVisibly statement.spellings := by
  cases statement with
  | expects table columns =>
      exact endsVisibly_mul _ (endsVisibly_mul _ (endsVisibly_mul _ endsVisibly_bracket))
  | attach url name => exact endsVisibly_mul _ (endsVisibly_mul _ (endsVisibly_name name))
  | action it =>
      cases it with
      | step it => exact it.endsVisibly
      | invoke rule =>
          exact endsVisibly_mul _ (endsVisibly_mul _ (endsVisibly_mul _
            (endsVisibly_name rule.version)))
      | unrecognized name =>
          intro text member
          exact absurd member (by
            show text ∉ _ * (0 : Language Char)
            rw [mul_zero]
            exact Language.notMem_zero text)

/-! ## Beginnings -/

theorem starts_of_spells {statement : Statement} {line : String} (spells : statement.Spells line) :
    ∃ first rest, line.toList = first :: rest ∧ first.isAlpha = true := by
  obtain ⟨filled, letters⟩ :=
    Grammar.keywords_letters statement.keyword (Grammar.keyword_mem_keywords spells)
  obtain ⟨front, inKeyword, back, _, same⟩ := Language.mem_mul.mp spells
  cases front with
  | nil =>
      have empty : [].map Char.toLower = statement.keyword.toList.map Char.toLower := inKeyword
      exact absurd (List.map_eq_nil_iff.mp empty.symm) filled
  | cons first others =>
      refine ⟨first, others ++ back, same.symm, ?_⟩
      exact isAlpha_of_mem_anyCase letters inKeyword first List.mem_cons_self

theorem tight_of_spells {statement : Statement} {line : String} (spells : statement.Spells line) :
    Text.Tight line.toList := by
  obtain ⟨first, rest, begins, letter⟩ := starts_of_spells spells
  exact ⟨⟨first, rest, begins, Text.isBlank_of_isAlphanum (isAlphanum_of_isAlpha letter)⟩,
    statement.endsVisibly line.toList spells⟩

/-- A line that spells a statement is no comment. -/
theorem isStatement_of_spells {statement : Statement} {line : String}
    (spells : statement.Spells line) : Script.isStatement line = true := by
  obtain ⟨first, rest, begins, letter⟩ := starts_of_spells spells
  unfold Script.isStatement
  rw [begins]
  have other : first ≠ '#' := by
    intro same
    rw [same] at letter
    exact absurd letter (by decide)
  simp [other]

end Statement

/-! ## Line feeds -/

namespace Spelling

def Unbroken (language : Language Char) : Prop := ∀ text ∈ language, '\n' ∉ text

theorem unbroken_zero : Unbroken 0 := by
  intro text member
  exact absurd member (Language.notMem_zero text)

theorem unbroken_one : Unbroken 1 := by
  intro text member
  rw [(Language.mem_one text).mp member]
  exact List.not_mem_nil

theorem unbroken_mul {first second : Language Char} (one : Unbroken first)
    (other : Unbroken second) : Unbroken (first * second) := by
  intro text member
  obtain ⟨front, inFirst, back, inSecond, same⟩ := Language.mem_mul.mp member
  rw [← same, List.mem_append, not_or]
  exact ⟨one front inFirst, other back inSecond⟩

theorem unbroken_add {first second : Language Char} (one : Unbroken first)
    (other : Unbroken second) : Unbroken (first + second) := by
  intro text member
  obtain here | there := (Language.mem_add first second text).mp member
  · exact one text here
  · exact other text there

theorem unbroken_word {text : String} (single : '\n' ∉ text.toList) : Unbroken (word text) := by
  intro read member
  have same : read = text.toList := member
  rw [same]
  exact single

theorem unbroken_gap : Unbroken gap := by
  intro text member feed
  obtain blank | tab := member.2 '\n' feed
  · exact absurd blank (by decide)
  · exact absurd tab (by decide)

theorem unbroken_name (value : String) : Unbroken (name value) := by
  intro text member feed
  obtain ⟨same, isName⟩ := member
  rw [same] at feed
  exact absurd (isBlank_of_isName isName '\n' feed) (by decide)

theorem unbroken_spaced {text : String} (single : '\n' ∉ text.toList) : Unbroken (spaced text) :=
  unbroken_mul (unbroken_mul unbroken_gap (unbroken_word single)) unbroken_gap

theorem unbroken_separated {α : Type} {item : α → Language Char}
    (each : ∀ value, Unbroken (item value)) (listed : List α) :
    Unbroken (separated item listed) := by
  cases listed with
  | nil => exact unbroken_zero
  | cons first rest =>
      apply unbroken_mul (each first)
      induction rest with
      | nil => exact unbroken_one
      | cons next others ih =>
          rw [List.map_cons, List.prod_cons]
          exact unbroken_mul
            (unbroken_mul (unbroken_mul (unbroken_word (by decide)) unbroken_gap) (each next)) ih

theorem unbroken_names (listed : List String) : Unbroken (names listed) :=
  unbroken_separated unbroken_name listed

theorem unbroken_columns (listed : List String) : Unbroken (columns listed) :=
  unbroken_mul (unbroken_mul (unbroken_word (by decide)) (unbroken_names listed))
    (unbroken_word (by decide))

theorem unbroken_reference (it : Reference) : Unbroken (reference it) :=
  unbroken_mul (unbroken_mul (unbroken_mul (unbroken_mul (unbroken_name it.space)
    (unbroken_word (by decide))) (unbroken_name it.name)) (unbroken_word (by decide)))
    (unbroken_name it.version)

theorem unbroken_call (it : Call) : Unbroken (call it) :=
  unbroken_mul (unbroken_mul (unbroken_mul (unbroken_name it.name) (unbroken_word (by decide)))
    (unbroken_names it.arguments)) (unbroken_word (by decide))

theorem unbroken_projection (column : Projection) : Unbroken (projection column) := by
  apply unbroken_add
  · exact unbroken_mul (unbroken_mul (unbroken_name column.source)
      (unbroken_spaced (by decide))) (unbroken_name column.target)
  · split
    · exact unbroken_name column.source
    · exact unbroken_zero

theorem unbroken_includes (projections : List Projection) : Unbroken (includes projections) := by
  cases projections with
  | nil => exact unbroken_one
  | cons first rest =>
      exact unbroken_mul (unbroken_mul (unbroken_mul (unbroken_spaced (by decide))
        (unbroken_word (by decide))) (unbroken_separated unbroken_projection _))
        (unbroken_word (by decide))

theorem unbroken_keys (left right : List String) : Unbroken (keys left right) := by
  have opening : Unbroken (word "[") := unbroken_word (by decide)
  have closing : Unbroken (word "]") := unbroken_word (by decide)
  have comma : Unbroken (word ",") := unbroken_word (by decide)
  have first := unbroken_mul (unbroken_mul (unbroken_mul opening opening) (unbroken_names left))
    closing
  have parted := unbroken_mul (unbroken_mul first comma) (unbroken_add unbroken_one unbroken_gap)
  exact unbroken_mul (unbroken_mul (unbroken_mul (unbroken_mul parted opening)
    (unbroken_names right)) closing) closing

theorem unbroken_pairing (it : Pairing) : Unbroken (pairing it) :=
  unbroken_mul (unbroken_mul (unbroken_spaced (by decide))
    (unbroken_keys it.leftKeys it.rightKeys)) (unbroken_includes it.projections)

theorem unbroken_anyCase {keyword : String}
    (letters : keyword.toList.all fun c => c.toLower.isAlpha) :
    Unbroken (Grammar.anyCase keyword) := by
  intro text member feed
  exact absurd (isAlpha_of_mem_anyCase letters member '\n' feed) (by decide)

end Spelling

theorem Step.unbroken_operands (step : Step) : Unbroken step.operands := by
  cases step with
  | push table => exact unbroken_mul unbroken_gap (unbroken_name table)
  | pop => exact unbroken_one
  | duplicate => exact unbroken_one
  | commit table columns =>
      apply unbroken_mul (unbroken_mul unbroken_gap (unbroken_name table))
      cases columns with
      | none => exact unbroken_one
      | some columns => exact unbroken_columns columns
  | join pairing => exact unbroken_pairing pairing
  | inclusion pairing => exact unbroken_pairing pairing
  | accumulate column call result =>
      have using' : Unbroken (spaced "USING") := unbroken_spaced (by decide)
      have front := unbroken_mul (unbroken_mul unbroken_gap (unbroken_name column)) using'
      apply unbroken_mul (unbroken_mul front (unbroken_call call))
      cases result with
      | none => exact unbroken_one
      | some target => exact unbroken_mul (unbroken_spaced (by decide)) (unbroken_name target)
  | pull reference target =>
      exact unbroken_mul (unbroken_mul (unbroken_mul unbroken_gap (unbroken_reference reference))
        (unbroken_spaced (by decide))) (unbroken_name target)

namespace Statement

/-- That a statement is no attachment of a URL with a line feed. -/
def SingleLine : Statement → Prop
  | .attach url _ => '\n' ∉ url.toList
  | _ => True

/-- Only the URL of a statement can break the lines that spell it. -/
theorem singleLine_iff_of_spells {statement : Statement} {line : String}
    (spells : statement.Spells line) : statement.SingleLine ↔ '\n' ∉ line.toList := by
  have keyword : Unbroken (Grammar.anyCase statement.keyword) :=
    unbroken_anyCase
      (Grammar.keywords_letters statement.keyword (Grammar.keyword_mem_keywords spells)).2
  cases statement with
  | expects table columns =>
      have unbroken := unbroken_mul keyword
        (unbroken_mul (unbroken_mul unbroken_gap (unbroken_name table)) (unbroken_columns columns))
      exact iff_of_true trivial (unbroken line.toList spells)
  | attach url name =>
      obtain ⟨word, inKeyword, operands, inOperands, line⟩ := Language.mem_mul.mp spells
      obtain ⟨front, inFront, last, inName, rest⟩ := Language.mem_mul.mp inOperands
      obtain ⟨start, inStart, clause, inClause, middle⟩ := Language.mem_mul.mp inFront
      obtain ⟨blanks, inGap, located, inUrl, head⟩ := Language.mem_mul.mp inStart
      have same : located = url.toList := inUrl.1
      have as : Unbroken (spaced "AS") := unbroken_spaced (by decide)
      have inWord := keyword word inKeyword
      have inBlanks := unbroken_gap blanks inGap
      have inAs := as clause inClause
      have inLast := unbroken_name name last inName
      rw [← line, ← rest, ← middle, ← head, same]
      simp only [List.mem_append, not_or, SingleLine]
      constructor
      · intro single
        exact ⟨inWord, ⟨⟨inBlanks, single⟩, inAs⟩, inLast⟩
      · intro whole
        exact whole.2.1.1.2
  | action it =>
      cases it with
      | step it =>
          exact iff_of_true trivial
            (unbroken_mul keyword it.unbroken_operands line.toList spells)
      | invoke rule =>
          have unbroken := unbroken_mul keyword
            (unbroken_mul unbroken_gap (unbroken_reference rule))
          exact iff_of_true trivial (unbroken line.toList spells)
      | unrecognized name => exact absurd (wellFormed_of_spells spells) id

end Statement

end TableScript
