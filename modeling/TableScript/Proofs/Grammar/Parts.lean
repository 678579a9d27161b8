import TableScript.Proofs.Grammar.Lookahead
import TableScript.Proofs.Grammar.Spelling

/-!
# The parts of statements

For every part of the grammar of statements its language, which is the one by which
`Spelling` describes it, and that the next character decides how it is read.
-/

namespace TableScript

namespace Grammar

variable {α β : Type}

/-! ## The languages of the parts -/

@[simp] theorem texts_literal (text : String) : (literal text).texts = Spelling.word text :=
  iSup_const

@[simp] theorem texts_keyword (text : String) : (keyword text).texts = anyCase text :=
  iSup_const

@[simp] theorem texts_gap : gap.texts = Spelling.gap := by
  ext text
  simp only [mem_texts, gap, denotes, runOf, Spelling.gap]
  constructor
  · intro found
    rcases found with ⟨value, -, some_char, inside⟩
    exact ⟨some_char, by simpa [isGapChar] using inside⟩
  · intro read
    rcases read with ⟨some_char, inside⟩
    exact ⟨String.ofList text, by simp, some_char, by simpa [isGapChar] using inside⟩

@[simp] theorem texts_both (one : Grammar α) (other : Grammar β) :
    (one.both other).texts = one.texts * other.texts := by
  simp only [texts, denotes, iSup_prod, Language.iSup_mul, Language.mul_iSup]
  exact iSup_comm

@[simp] theorem texts_map (f : α → β) (inner : Grammar α) : (map f inner).texts = inner.texts := by
  ext text
  simp [mem_texts, mem_denotes_map]

@[simp] theorem texts_optional (inner : Grammar α) : inner.optional.texts = 1 + inner.texts := by
  ext text
  simp [mem_texts, Language.mem_add, Option.exists, denotes]

@[simp] theorem texts_right (one : Grammar α) (other : Grammar β) :
    (one.right other).texts = one.texts * other.texts := by
  simp [right]

@[simp] theorem texts_left (one : Grammar α) (other : Grammar β) :
    (one.left other).texts = one.texts * other.texts := by
  simp [left]

@[simp] theorem denotes_right (one : Grammar α) (other : Grammar β) (value : β) :
    (one.right other).denotes value = one.texts * other.denotes value := by
  ext text
  simp [right, denotes, texts, Language.iSup_mul, Language.mem_iSup]

@[simp] theorem denotes_left (one : Grammar α) (other : Grammar β) (value : α) :
    (one.left other).denotes value = one.denotes value * other.texts := by
  ext text
  simp [left, denotes, texts, Language.mul_iSup, Language.mem_iSup]

theorem denotes_map {f : α → β} {inner : Grammar α} {value : β} (read : α)
    (only : ∀ other, f other = value ↔ other = read) :
    (map f inner).denotes value = inner.denotes read := by
  ext text
  simp [mem_denotes_map, only]

@[simp] theorem denotes_name : name.denotes = Spelling.name := by
  funext value
  ext text
  simp only [name, denotes, runOf, Spelling.name, Spelling.IsName, isNameChar]
  constructor
  · intro read
    rcases read with ⟨rfl, some_char, inside⟩
    exact ⟨rfl, some_char, by simpa using inside⟩
  · intro read
    rcases read with ⟨rfl, some_char, inside⟩
    exact ⟨rfl, some_char, by simpa using inside⟩

@[simp] theorem denotes_url : url.denotes = Spelling.url := by
  funext value
  ext text
  simp only [url, denotes, runOf, Spelling.url, Spelling.IsUrl, isGapChar]
  constructor
  · intro read
    rcases read with ⟨rfl, some_char, inside⟩
    exact ⟨rfl, some_char, by simpa using inside⟩
  · intro read
    rcases read with ⟨rfl, some_char, inside⟩
    exact ⟨rfl, some_char, by simpa using inside⟩

@[simp] theorem denotes_commaSeparated (item : Grammar α) :
    (commaSeparated item).denotes = Spelling.separated item.denotes := by
  have next : ((literal ",").right (gap.right item)).denotes =
      fun value => Spelling.word "," * Spelling.gap * item.denotes value :=
    funext fun value => by simp [mul_assoc]
  funext values
  cases values with
  | nil =>
      ext text
      simp [commaSeparated, mem_denotes_map, Spelling.separated]
  | cons value values =>
      rw [commaSeparated, denotes_map (value, values) (by simp [Prod.ext_iff]), denotes, denotes,
        next, Spelling.separated]

@[simp] theorem denotes_names : names.denotes = Spelling.names := by
  funext values
  simp [names, denotes, Spelling.names]

@[simp] theorem texts_spaced (text : String) : (spaced text).texts = Spelling.spaced text := by
  simp [spaced, Spelling.spaced, mul_assoc]

@[simp] theorem denotes_columns : columns.denotes = Spelling.columns := by
  funext listed
  simp [columns, denotes, Spelling.columns, mul_assoc]

@[simp] theorem denotes_reference : reference.denotes = Spelling.reference := by
  funext it
  obtain ⟨space, table, version⟩ := it
  rw [reference, denotes, denotes_map (space, table, version) (by simp [Prod.ext_iff])]
  simp [denotes, Spelling.reference, mul_assoc]

@[simp] theorem denotes_call : call.denotes = Spelling.call := by
  funext it
  obtain ⟨function, arguments⟩ := it
  rw [call, denotes, denotes_map (function, arguments) (by simp [Prod.ext_iff])]
  simp [denotes, Spelling.call, mul_assoc]

@[simp] theorem denotes_nameAs : nameAs.denotes = Spelling.projection := by
  funext it
  obtain ⟨source, target⟩ := it
  ext text
  rw [nameAs, denotes, mem_denotes_map, Spelling.projection, Language.mem_add]
  constructor
  · intro read
    rcases read with ⟨⟨source', target?⟩, same, inside⟩
    cases target? with
    | none =>
        obtain ⟨rfl, rfl⟩ := Projection.mk.inj same
        exact .inr (by simpa [denotes] using inside)
    | some target' =>
        obtain ⟨rfl, rfl⟩ := Projection.mk.inj same
        exact .inl (by simpa [denotes, mul_assoc] using inside)
  · intro either
    rcases either with full | short
    · exact ⟨(source, some target), rfl, by simpa [denotes, mul_assoc] using full⟩
    · by_cases same : source = target
      · subst same
        exact ⟨(source, none), rfl, by simpa [denotes] using short⟩
      · simp [same] at short

@[simp] theorem denotes_keys (both : List String × List String) :
    keys.denotes both = Spelling.keys both.1 both.2 := by
  simp [keys, denotes, Spelling.keys, mul_assoc]

@[simp] theorem denotes_projections (listed : List Projection) :
    projections.denotes listed =
      Spelling.word "[" * Spelling.separated Spelling.projection listed * Spelling.word "]" := by
  simp [projections, denotes, mul_assoc]

/-- The optional clause denotes the listed columns; that it is left out says that
there are none, and no clause lists none. -/
theorem denotes_includes {listed? : Option (List Projection)} :
    ((spaced "INCLUDE").right projections).optional.denotes listed? =
      if listed? = some [] then 0 else Spelling.includes (listed?.getD []) := by
  match listed? with
  | none => rfl
  | some [] => simp [denotes, Spelling.separated]
  | some (_ :: _) => simp [denotes, Spelling.includes, mul_assoc]

@[simp] theorem denotes_pairing (it : Pairing) :
    pairing.denotes it = Spelling.word "USING" * Spelling.gap *
      Spelling.keys it.leftKeys it.rightKeys * Spelling.includes it.projections := by
  obtain ⟨leftKeys, rightKeys, listed⟩ := it
  ext text
  rw [pairing, mem_denotes_map]
  constructor
  · intro read
    rcases read with ⟨⟨⟨leftKeys', rightKeys'⟩, listed?⟩, same, inside⟩
    obtain ⟨rfl, rfl, rfl⟩ := Pairing.mk.inj same
    rw [denotes_right, denotes_right, denotes, denotes_includes] at inside
    split at inside
    · simp at inside
    · simpa [mul_assoc] using inside
  · intro inside
    refine ⟨((leftKeys, rightKeys), if listed = [] then none else some listed), ?_, ?_⟩
    · by_cases none_listed : listed = [] <;> simp [none_listed]
    · rw [denotes_right, denotes_right, denotes, denotes_includes]
      by_cases none_listed : listed = [] <;> simpa [none_listed, mul_assoc] using inside

/-! ## One character decides -/

/-- No punctuation belongs to a name or to a gap. -/
@[simp] theorem punctuation_apart :
    (isNameChar ',' = false ∧ isNameChar ':' = false ∧ isNameChar '[' = false ∧
        isNameChar ']' = false ∧ isNameChar '(' = false ∧ isNameChar ')' = false) ∧
      isGapChar ',' = false ∧ isGapChar ':' = false ∧ isGapChar '[' = false ∧
        isGapChar ']' = false ∧ isGapChar '(' = false ∧ isGapChar ')' = false := by
  decide

/-- The words inside a statement begin with no gap. -/
@[simp] theorem clauses_apart :
    isGapChar 'A' = false ∧ isGapChar 'I' = false ∧ isGapChar 'U' = false := by
  decide

theorem isGapChar_of_isNameChar {c : Char} (inName : isNameChar c = true) :
    isGapChar c = false := by
  cases inGap : isGapChar c with
  | false => rfl
  | true =>
      simp only [isGapChar, Bool.or_eq_true, beq_iff_eq] at inGap
      rcases inGap with rfl | rfl <;> simp [isNameChar] at inName

theorem isNameChar_of_isGapChar {c : Char} (inGap : isGapChar c = true) :
    isNameChar c = false := by
  cases inName : isNameChar c with
  | false => rfl
  | true => simp [isGapChar_of_isNameChar inName] at inGap

theorem predictive_commaSeparated {item : Grammar α} {next : Set Char}
    (inner : item.Predictive (insert ',' next)) (some_text : item.nullable = false)
    (starts : ∀ c ∈ item.first, isGapChar c = false) (comma : ',' ∉ next) :
    (commaSeparated item).Predictive next := by
  have before : (((literal ",").right (gap.right item)).many).opening next = insert ',' next := by
    ext c
    simp [opening, first, nullable, right]
  have again : ((literal ",").right (gap.right item)).first ∪ next = insert ',' next := by
    ext c
    simp [first, nullable, right]
  refine ⟨before ▸ inner, ⟨trivial, ?_, again ▸ inner⟩, rfl, ?_⟩
  · intro c begins
    rcases begins with opens | ⟨empty, -⟩
    · exact starts c opens
    · simp [some_text] at empty
  · simpa [first, nullable, right] using comma

theorem predictive_names {next : Set Char} (comma : ',' ∉ next)
    (outside : ∀ c ∈ next, isNameChar c = false) : names.Predictive next := by
  refine predictive_commaSeparated ?_ rfl (fun c => isGapChar_of_isNameChar) comma
  intro c member
  rcases member with rfl | follows
  · decide
  · exact outside c follows

theorem predictive_columns (next : Set Char) : columns.Predictive next := by
  refine ⟨trivial, predictive_names ?_ ?_, trivial⟩ <;> simp [opening, first, nullable]

theorem predictive_reference {next : Set Char} (outside : ∀ c ∈ next, isNameChar c = false) :
    reference.Predictive next := by
  simpa [reference, Predictive, opening, first, nullable, right, name] using outside

theorem predictive_call (next : Set Char) : call.Predictive next := by
  refine ⟨?_, trivial, predictive_names ?_ ?_, trivial⟩ <;>
    simp [opening, first, nullable, right, name, Predictive]

theorem predictive_keys (next : Set Char) : keys.Predictive next := by
  refine ⟨trivial, trivial, predictive_names ?_ ?_, trivial, trivial, ⟨?_, rfl, ?_⟩, trivial,
    predictive_names ?_ ?_, trivial, trivial⟩ <;>
    simp [opening, first, nullable, right, left, gap, Predictive]

theorem predictive_nameAs {next : Set Char} (names : ∀ c ∈ next, isNameChar c = false)
    (gaps : ∀ c ∈ next, isGapChar c = false) : nameAs.Predictive next := by
  have apart : Disjoint {c | isGapChar c = true} next :=
    Set.disjoint_left.mpr fun c inGap follows => by simp [gaps c follows] at inGap
  have outside : ∀ c, isGapChar c = true ∨ c ∈ next → isNameChar c = false := by
    intro c either
    rcases either with inGap | follows
    · exact isNameChar_of_isGapChar inGap
    · exact names c follows
  have blanks : ∀ c, isNameChar c = true → isGapChar c = false := fun c => isGapChar_of_isNameChar
  simpa [nameAs, name, spaced, gap, right, left, Predictive, opening, first, nullable, apart]
    using And.intro outside (And.intro blanks names)

theorem predictive_projections (next : Set Char) : projections.Predictive next := by
  have before : (literal "]").opening next = {']'} := by
    ext c
    simp [opening, first, nullable]
  refine ⟨trivial, ?_, trivial⟩
  rw [before]
  refine predictive_commaSeparated (predictive_nameAs ?_ ?_) rfl ?_ ?_
  · simp
  · simp
  · intro c begins
    rcases begins with inName | ⟨empty, -⟩
    · exact isGapChar_of_isNameChar inName
    · simp [name, nullable] at empty
  · simp

@[simp] theorem nullable_columns : columns.nullable = false := rfl

@[simp] theorem nullable_keys : keys.nullable = false := rfl

@[simp] theorem nullable_call : call.nullable = false := rfl

@[simp] theorem nullable_reference : reference.nullable = false := rfl

theorem first_columns : columns.first = {'['} := by
  ext c
  simp [columns, first, nullable, right]

theorem first_keys : keys.first = {'['} := by
  ext c
  simp [keys, first, nullable, right]

theorem first_projections : projections.first = {'['} := by
  ext c
  simp [projections, first, nullable, right]

theorem first_call : call.first = {c | isNameChar c} := by
  ext c
  simp [call, name, first, nullable]

theorem first_reference : reference.first = {c | isNameChar c} := by
  ext c
  simp [reference, name, first, nullable]

end Grammar

end TableScript
