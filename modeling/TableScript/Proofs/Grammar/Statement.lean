import TableScript.Script
import TableScript.Proofs.Grammar.Parts

/-!
# Statements are read as they are spelled

A line is read as a statement exactly if it spells the statement.  Each alternative
of the grammar stands for the statements with one keyword, and no keyword begins
another, so that the alternatives keep out of each other's way.
-/

namespace TableScript

namespace Grammar

variable {α β : Type}

/-! ## The alternatives -/

/-- A grammar denotes exactly the values with a keyword among `words`, each by the
keyword in any case and its operands. -/
def Covers (grammar : Grammar α) (keyword : α → String) (operands : α → Language Char)
    (words : List String) : Prop :=
  ∀ (value : α) (text : List Char), text ∈ grammar.denotes value ↔
    keyword value ∈ words ∧ text ∈ anyCase (keyword value) * operands value

/-- An alternative that begins with a keyword. -/
theorem covers_map {f : α → β} {word : String} {inner : Grammar α} {keyword : β → String}
    {operands : β → Language Char} (keywords : ∀ read, keyword (f read) = word)
    (same : ∀ read, inner.denotes read = anyCase word * operands (f read))
    (onto : ∀ value, keyword value = word → ∃ read, f read = value) :
    (map f inner).Covers keyword operands [word] := by
  intro value text
  rw [mem_denotes_map, List.mem_singleton]
  constructor
  · intro found
    obtain ⟨read, here, inside⟩ := found
    subst here
    refine ⟨keywords read, ?_⟩
    rwa [keywords, ← same]
  · intro spelled
    obtain ⟨isWord, inside⟩ := spelled
    obtain ⟨read, here⟩ := onto value isWord
    subst here
    refine ⟨read, rfl, ?_⟩
    rwa [same, ← keywords read]

theorem covers_orElse {one other : Grammar α} {keyword : α → String}
    {operands : α → Language Char} {words words' : List String}
    (coversOne : one.Covers keyword operands words)
    (coversOther : other.Covers keyword operands words') :
    (one.orElse other).Covers keyword operands (words ++ words') := by
  intro value text
  rw [denotes, Language.mem_add, coversOne, coversOther, List.mem_append, or_and_right]

theorem covers_ofStep {step : Grammar Step} {words : List String}
    (covers : step.Covers Step.keyword Step.operands words)
    (steps : ∀ statement : Statement, statement.keyword ∈ words →
      ∃ it, statement = .action (.step it)) :
    (ofStep step).Covers Statement.keyword Statement.operands words := by
  intro statement text
  rw [ofStep, mem_denotes_map]
  constructor
  · intro found
    obtain ⟨it, here, inside⟩ := found
    subst here
    exact (covers it text).mp inside
  · intro spelled
    obtain ⟨isWord, inside⟩ := spelled
    obtain ⟨it, here⟩ := steps statement isWord
    subst here
    exact ⟨it, rfl, (covers it text).mpr ⟨isWord, inside⟩⟩

theorem covers_expects : expects.Covers Statement.keyword Statement.operands ["EXPECTS"] := by
  refine covers_map (fun _ => rfl) (fun read => ?_) ?_
  · simp [denotes, Statement.operands, mul_assoc]
  · intro statement isWord
    cases statement with
    | expects table columns => exact ⟨(table, columns), rfl⟩
    | attach url name => simp [Statement.keyword] at isWord
    | action it =>
        cases it with
        | step it => cases it <;> simp [Statement.keyword, Step.keyword] at isWord
        | invoke rule => simp [Statement.keyword] at isWord
        | unrecognized name => simp [Statement.keyword] at isWord

theorem covers_attach : attach.Covers Statement.keyword Statement.operands ["ATTACH"] := by
  refine covers_map (fun _ => rfl) (fun read => ?_) ?_
  · simp [denotes, Statement.operands, mul_assoc]
  · intro statement isWord
    cases statement with
    | expects table columns => simp [Statement.keyword] at isWord
    | attach url name => exact ⟨(url, name), rfl⟩
    | action it =>
        cases it with
        | step it => cases it <;> simp [Statement.keyword, Step.keyword] at isWord
        | invoke rule => simp [Statement.keyword] at isWord
        | unrecognized name => simp [Statement.keyword] at isWord

theorem covers_invoke :
    (map (fun read => Statement.action (.invoke read)) invoke).Covers
      Statement.keyword Statement.operands ["INVOKE"] := by
  refine covers_map (fun _ => rfl) (fun read => ?_) ?_
  · simp [invoke, denotes, Statement.operands]
  · intro statement isWord
    cases statement with
    | expects table columns => simp [Statement.keyword] at isWord
    | attach url name => simp [Statement.keyword] at isWord
    | action it =>
        cases it with
        | step it => cases it <;> simp [Statement.keyword, Step.keyword] at isWord
        | invoke rule => exact ⟨rule, rfl⟩
        | unrecognized name => simp [Statement.keyword] at isWord

theorem covers_commit : commit.Covers Step.keyword Step.operands ["COMMIT"] := by
  refine covers_map (fun _ => rfl) (fun read => ?_) ?_
  · obtain ⟨table, _ | listed⟩ := read <;>
      simp [denotes, Step.operands, Spelling.columnsIfAny, mul_assoc]
  · intro step isWord
    cases step with
    | commit table columns => exact ⟨(table, columns), rfl⟩
    | _ => simp [Step.keyword] at isWord

theorem covers_join : join.Covers Step.keyword Step.operands ["JOIN"] := by
  refine covers_map (fun _ => rfl) (fun read => ?_) ?_
  · simp [Step.operands, Spelling.pairing, Spelling.spaced, mul_assoc]
  · intro step isWord
    cases step with
    | join pairing => exact ⟨pairing, rfl⟩
    | _ => simp [Step.keyword] at isWord

theorem covers_inclusion : inclusion.Covers Step.keyword Step.operands ["INCLUSION"] := by
  refine covers_map (fun _ => rfl) (fun read => ?_) ?_
  · simp [Step.operands, Spelling.pairing, Spelling.spaced, mul_assoc]
  · intro step isWord
    cases step with
    | inclusion pairing => exact ⟨pairing, rfl⟩
    | _ => simp [Step.keyword] at isWord

theorem covers_accumulate : accumulate.Covers Step.keyword Step.operands ["ACCUMULATE"] := by
  refine covers_map (fun _ => rfl) (fun read => ?_) ?_
  · obtain ⟨column, it, _ | result⟩ := read <;>
      simp [denotes, Step.operands, Spelling.asName, mul_assoc]
  · intro step isWord
    cases step with
    | accumulate column call result => exact ⟨(column, call, result), rfl⟩
    | _ => simp [Step.keyword] at isWord

theorem covers_push : push.Covers Step.keyword Step.operands ["PUSH"] := by
  refine covers_map (fun _ => rfl) (fun read => ?_) ?_
  · simp [Step.operands]
  · intro step isWord
    cases step with
    | push table => exact ⟨table, rfl⟩
    | _ => simp [Step.keyword] at isWord

theorem covers_pop : pop.Covers Step.keyword Step.operands ["POP"] := by
  refine covers_map (fun _ => rfl) (fun _ => ?_) ?_
  · simp [denotes, Step.operands]
  · intro step isWord
    cases step with
    | pop => exact ⟨(), rfl⟩
    | _ => simp [Step.keyword] at isWord

theorem covers_duplicate : duplicate.Covers Step.keyword Step.operands ["DUPLICATE"] := by
  refine covers_map (fun _ => rfl) (fun _ => ?_) ?_
  · simp [denotes, Step.operands]
  · intro step isWord
    cases step with
    | duplicate => exact ⟨(), rfl⟩
    | _ => simp [Step.keyword] at isWord

theorem covers_pull : pull.Covers Step.keyword Step.operands ["PULL"] := by
  refine covers_map (fun _ => rfl) (fun read => ?_) ?_
  · simp [denotes, Step.operands, mul_assoc]
  · intro step isWord
    cases step with
    | pull reference target => exact ⟨(reference, target), rfl⟩
    | _ => simp [Step.keyword] at isWord

def alternatives : Grammar Statement :=
  expects.orElse <| (ofStep commit).orElse <| (ofStep join).orElse <|
    (ofStep inclusion).orElse <| (ofStep accumulate).orElse <| (ofStep push).orElse <|
    (ofStep pop).orElse <| (ofStep duplicate).orElse <| attach.orElse <|
    (ofStep pull).orElse <| invoke.map fun read => .action (.invoke read)

theorem statement_eq_alternatives :
    statement = rule .statement (alternatives.left (rule .endOfLine endOfText)) := rfl

theorem exists_step_of_keyword {statement : Statement} {words : List String}
    (isWord : statement.keyword ∈ words)
    (apart : ∀ word ∈ words, word ∉ ["EXPECTS", "ATTACH", "INVOKE", ""]) :
    ∃ it, statement = .action (.step it) := by
  have other := apart _ isWord
  rcases statement with _ | _ | (_ | _ | _) <;> simp_all [Statement.keyword]

theorem excludes_of_covers {one other : Grammar α} {keyword : α → String}
    {operands : α → Language Char} {words words' : List String}
    (coversOne : one.Covers keyword operands words)
    (coversOther : other.Covers keyword operands words')
    (clash : ∀ word ∈ words, ∀ word' ∈ words',
      ¬ (word.toList.map Char.toLower <+: word'.toList.map Char.toLower ∨
        word'.toList.map Char.toLower <+: word.toList.map Char.toLower)) :
    one.Excludes other := by
  intro value value' text text' inOne inOther comparable
  obtain ⟨isWord, inside⟩ := (coversOne value text).mp inOne
  obtain ⟨isWord', inside'⟩ := (coversOther value' text').mp inOther
  obtain ⟨start, startMem, more, _, rfl⟩ := Language.mem_mul.mp inside
  obtain ⟨start', startMem', more', _, rfl⟩ := Language.mem_mul.mp inside'
  have lower : start.map Char.toLower = (keyword value).toList.map Char.toLower := startMem
  have lower' : start'.map Char.toLower = (keyword value').toList.map Char.toLower := startMem'
  apply clash _ isWord _ isWord'
  rw [← lower, ← lower']
  rcases comparable with begins | begins
  · have inOther := (List.prefix_append start more).trans begins
    exact List.prefix_or_prefix_of_prefix (inOther.map _)
      ((List.prefix_append start' more').map _)
  · have inOne := (List.prefix_append start' more').trans begins
    exact List.prefix_or_prefix_of_prefix ((List.prefix_append start more).map _)
      (inOne.map _)

/-! ## One character decides -/

theorem predictive_expects : expects.Predictive ∅ := by
  simp +contextual [expects, predictive_columns, first_columns, name, gap, right, Predictive,
    opening, first, nullable, isGapChar_of_isNameChar]

theorem predictive_commit : commit.Predictive ∅ := by
  simp +contextual [commit, predictive_columns, first_columns, name, gap, right, Predictive,
    opening, first, nullable, isGapChar_of_isNameChar]

theorem predictive_pairing : pairing.Predictive ∅ := by
  simp [pairing, predictive_keys, predictive_projections, first_keys, first_projections, spaced,
    gap, right, left, Predictive, opening, first, nullable]

theorem predictive_gap_pairing : (gap.right pairing).Predictive ∅ := by
  refine ⟨?_, predictive_pairing⟩
  simp [gap, pairing, right, Predictive, opening, first, nullable]

theorem predictive_accumulate : accumulate.Predictive ∅ := by
  simp +contextual [accumulate, predictive_call, first_call, spaced, gap, name, right, left,
    Predictive, opening, first, nullable, isGapChar_of_isNameChar, isNameChar_of_isGapChar]

theorem predictive_push : push.Predictive ∅ := by
  simp +contextual [push, name, gap, right, Predictive, opening, first, isGapChar_of_isNameChar]

theorem predictive_attach : attach.Predictive ∅ := by
  simp +contextual [attach, url, spaced, gap, name, right, left, Predictive, opening, first,
    nullable, isGapChar_of_isNameChar]

theorem predictive_pull : pull.Predictive ∅ := by
  simp +contextual [pull, predictive_reference, first_reference, spaced, gap, name, right, left,
    Predictive, opening, first, nullable, isGapChar_of_isNameChar, isNameChar_of_isGapChar]

theorem predictive_invoke : invoke.Predictive ∅ := by
  simp +contextual [invoke, predictive_reference, first_reference, gap, right, Predictive, opening,
    isGapChar_of_isNameChar]

/-! ## The grammar of a line -/

/-- A grammar that covers the values with some keywords and that one character
decides, up to the end of the line. -/
structure Alternative (grammar : Grammar α) (keyword : α → String) (operands : α → Language Char)
    (words : List String) : Prop where
  covers : grammar.Covers keyword operands words
  predictive : grammar.Predictive ∅

/-- An alternative in front of others whose keywords neither begin its own nor begin
with them. -/
theorem Alternative.orElse {one other : Grammar α} {keyword : α → String}
    {operands : α → Language Char} {words words' : List String}
    (first : one.Alternative keyword operands words)
    (rest : other.Alternative keyword operands words')
    (clash : ∀ word ∈ words, ∀ word' ∈ words',
      ¬ (word.toList.map Char.toLower <+: word'.toList.map Char.toLower ∨
        word'.toList.map Char.toLower <+: word.toList.map Char.toLower)) :
    (one.orElse other).Alternative keyword operands (words ++ words') :=
  ⟨covers_orElse first.covers rest.covers, first.predictive, rest.predictive,
    excludes_of_covers first.covers rest.covers clash⟩

theorem Alternative.ofStep {step : Grammar Step} {words : List String}
    (inner : step.Alternative Step.keyword Step.operands words)
    (apart : ∀ word ∈ words, word ∉ ["EXPECTS", "ATTACH", "INVOKE", ""]) :
    (ofStep step).Alternative Statement.keyword Statement.operands words :=
  ⟨covers_ofStep inner.covers fun _ isWord => exists_step_of_keyword isWord apart,
    inner.predictive⟩

def keywords : List String :=
  ["EXPECTS", "COMMIT", "JOIN", "INCLUSION", "ACCUMULATE", "PUSH", "POP", "DUPLICATE", "ATTACH",
    "PULL", "INVOKE"]

theorem alternative_alternatives :
    alternatives.Alternative Statement.keyword Statement.operands keywords := by
  have join := Alternative.ofStep ⟨covers_join, trivial, predictive_gap_pairing⟩ (by decide)
  have inclusion := Alternative.ofStep ⟨covers_inclusion, trivial, predictive_gap_pairing⟩
    (by decide)
  refine .orElse ⟨covers_expects, predictive_expects⟩ ?_ (by decide)
  refine .orElse (.ofStep ⟨covers_commit, predictive_commit⟩ (by decide)) ?_ (by decide)
  refine .orElse join ?_ (by decide)
  refine .orElse inclusion ?_ (by decide)
  refine .orElse (.ofStep ⟨covers_accumulate, predictive_accumulate⟩ (by decide)) ?_ (by decide)
  refine .orElse (.ofStep ⟨covers_push, predictive_push⟩ (by decide)) ?_ (by decide)
  refine .orElse (.ofStep ⟨covers_pop, trivial⟩ (by decide)) ?_ (by decide)
  refine .orElse (.ofStep ⟨covers_duplicate, trivial⟩ (by decide)) ?_ (by decide)
  refine .orElse ⟨covers_attach, predictive_attach⟩ ?_ (by decide)
  refine .orElse (.ofStep ⟨covers_pull, predictive_pull⟩ (by decide)) ?_ (by decide)
  exact ⟨covers_invoke, predictive_invoke⟩

theorem keyword_mem_keywords {statement : Statement} {text : List Char}
    (member : text ∈ statement.spellings) : statement.keyword ∈ keywords := by
  rcases statement with _ | _ | ((_ | _ | _ | _ | _ | _ | _ | _) | _ | _)
  case action.unrecognized => simp [Statement.spellings, Statement.operands] at member
  all_goals simp [Statement.keyword, Step.keyword, keywords]

/-- The grammar denotes a statement by its spellings. -/
theorem denotes_statement (it : Statement) : statement.denotes it = it.spellings := by
  ext text
  have ends : (rule .endOfLine endOfText).texts = 1 := iSup_const
  rw [statement_eq_alternatives, denotes, denotes_left, ends, mul_one,
    alternative_alternatives.covers]
  exact ⟨fun found => found.2, fun member => ⟨keyword_mem_keywords member, member⟩⟩

theorem predictive_statement : statement.Predictive ∅ := by
  rw [statement_eq_alternatives]
  refine ⟨?_, rfl⟩
  have ends : (rule .endOfLine endOfText).opening ∅ = ∅ := by simp [opening, first]
  rw [ends]
  exact alternative_alternatives.predictive

theorem rest_eq_nil_of_parse {it : Statement} {text rest : List Char}
    (parsed : statement.parse text = some (it, rest)) : rest = [] := by
  rw [statement_eq_alternatives, parse, left, parse, Option.map_eq_some_iff] at parsed
  obtain ⟨⟨⟨found, ends⟩, left⟩, both, same⟩ := parsed
  obtain ⟨-, rfl⟩ := Prod.mk.inj same
  simp only [parse] at both
  split at both
  · simp at both
  · split at both
    · simp_all
    · simp at both

end Grammar

namespace Statement

theorem spells_of_parse {statement : Statement} {line : String}
    (read : parse line = .ok statement) : statement.Spells line := by
  rw [parse, parseAt] at read
  split at read
  · next found rest parsed =>
      obtain rfl := Except.ok.inj read
      obtain rfl := Grammar.rest_eq_nil_of_parse parsed
      obtain ⟨text, member, split⟩ := Grammar.parse_sound parsed
      rw [List.append_nil] at split
      rwa [Grammar.denotes_statement, split] at member
  · simp at read

theorem parse_of_spells {statement : Statement} {line : String}
    (spells : statement.Spells line) : parse line = .ok statement := by
  have member : line.toList ∈ Grammar.statement.denotes statement := by
    rw [Grammar.denotes_statement]
    exact spells
  have ends : Grammar.Opens ∅ [] := by simp [Grammar.Opens]
  have read := Grammar.parse_complete Grammar.predictive_statement member ends
  rw [List.append_nil] at read
  rw [parse, parseAt, read]

/-- A line is read as a statement exactly if it spells the statement, so that it
spells at most one, and it is refused exactly if it spells none. -/
theorem parse_eq_ok_iff_spells (line : String) :
    (∀ statement, parse line = .ok statement ↔ statement.Spells line) ∧
      (∀ statement other : Statement, statement.Spells line → other.Spells line →
        statement = other) ∧
      ((∃ error, parse line = .error error) ↔
        ∀ statement : Statement, ¬ statement.Spells line) := by
  have exactly : ∀ statement, parse line = .ok statement ↔ statement.Spells line :=
    fun statement => ⟨spells_of_parse, parse_of_spells⟩
  refine ⟨exactly, fun statement other spells spells' => ?_, ?_, fun none => ?_⟩
  · exact Except.ok.inj ((parse_of_spells spells).symm.trans (parse_of_spells spells'))
  · intro refused statement spells
    obtain ⟨error, failed⟩ := refused
    rw [parse_of_spells spells] at failed
    cases failed
  · cases read : parse line with
    | ok statement => exact absurd (spells_of_parse read) (none statement)
    | error error => exact ⟨error, rfl⟩

end Statement

end TableScript
