import Mathlib.Computability.Language
import Mathlib.Order.CompletePartialOrder
import TableScript.Grammar.Basic

/-!
# The language of a grammar

A grammar says which texts denote a value, whatever the order in which its
alternatives are tried and however much its repetitions take: `Grammar.denotes`
sends every value to the language of its texts.  What is read off the beginning of
a text is always a text of the value (`parse_sound`).  The converse needs more and
is the subject of `TableScript.Proofs.Grammar.Lookahead`.
-/

namespace TableScript

namespace Grammar

variable {α β : Type}

/-- The spellings of a word with its ASCII letters in any case. -/
def anyCase (word : String) : Language Char :=
  {text | text.map Char.toLower = word.toList.map Char.toLower}

/-- The nonempty text of a value, all of whose characters are in a set. -/
def runOf (charset : Char → Bool) (value : String) : Language Char :=
  {text | text = value.toList ∧ text ≠ [] ∧ ∀ c ∈ text, charset c}

def denotes : {α : Type} → Grammar α → α → Language Char
  | _, .literal text, _ => {text.toList}
  | _, .keyword text, _ => anyCase text
  | _, .run charset, value => runOf charset value
  | _, .endOfText, _ => 1
  | _, .map f inner, value => ⨆ read, ⨆ _ : f read = value, inner.denotes read
  | _, .both first second, value => first.denotes value.1 * second.denotes value.2
  | _, .orElse first second, value => first.denotes value + second.denotes value
  | _, .optional inner, some value => inner.denotes value
  | _, .optional _, none => 1
  | _, .many inner, values => (values.map inner.denotes).prod
  | _, .rule _ inner, value => inner.denotes value

def texts (grammar : Grammar α) : Language Char := ⨆ value, grammar.denotes value

theorem mem_texts {grammar : Grammar α} {text : List Char} :
    text ∈ grammar.texts ↔ ∃ value, text ∈ grammar.denotes value :=
  Language.mem_iSup

theorem mem_denotes_map {f : α → β} {inner : Grammar α} {value : β} {text : List Char} :
    text ∈ (map f inner).denotes value ↔ ∃ read, f read = value ∧ text ∈ inner.denotes read := by
  simp only [denotes, Language.mem_iSup, exists_prop]

/-! ## Reading is sound -/

theorem dropStart?_sound {same : Char → Char → Bool} {start text rest : List Char}
    (dropped : dropStart? same start text = some rest) :
    ∃ read, read ++ rest = text ∧ List.Forall₂ (fun expected c => same expected c) start read := by
  induction start generalizing text with
  | nil =>
      simp only [dropStart?, Option.some.injEq] at dropped
      exact ⟨[], by simp [dropped], .nil⟩
  | cons expected start ih =>
      cases text with
      | nil => simp [dropStart?] at dropped
      | cons c text =>
          simp only [dropStart?] at dropped
          split at dropped
          · next agrees =>
              obtain ⟨read, split, letters⟩ := ih dropped
              exact ⟨c :: read, by simp [split], .cons agrees letters⟩
          · simp at dropped

theorem eq_of_same_characters {start read : List Char}
    (same : List.Forall₂ (fun expected c => (expected == c) = true) start read) :
    read = start := by
  induction same with
  | nil => rfl
  | cons agrees _ ih => rw [ih, eq_of_beq agrees]

theorem toLower_of_same_letters {start read : List Char}
    (same : List.Forall₂ (fun expected c => sameLetter expected c = true) start read) :
    read.map Char.toLower = start.map Char.toLower := by
  induction same with
  | nil => rfl
  | cons agrees _ ih => rw [List.map_cons, List.map_cons, ih, eq_of_beq agrees]

theorem repeated_sound {step : List Char → Option (α × List Char)} (language : α → Language Char)
    (sound : ∀ {text value rest}, step text = some (value, rest) →
      ∃ read ∈ language value, read ++ rest = text) (text : List Char) :
    ∃ read ∈ ((repeated step text).1.map language).prod,
      read ++ (repeated step text).2 = text := by
  fun_induction repeated step text with
  | case1 text stops => exact ⟨[], Language.nil_mem_one, rfl⟩
  | case2 text value rest stepped shorter others last again ih =>
      obtain ⟨first, firstMem, firstSplit⟩ := sound stepped
      rw [again] at ih
      obtain ⟨more, moreMem, moreSplit⟩ := ih
      refine ⟨first ++ more, ?_, by simp [moreSplit, firstSplit]⟩
      simpa using Language.append_mem_mul firstMem moreMem
  | case3 text value rest stepped longer => exact ⟨[], Language.nil_mem_one, rfl⟩

/-- What is read off a text denotes the value that is read. -/
theorem parse_sound {grammar : Grammar α} {text rest : List Char} {value : α}
    (reads : grammar.parse text = some (value, rest)) :
    ∃ read ∈ grammar.denotes value, read ++ rest = text := by
  induction grammar generalizing text rest with
  | literal start =>
      simp only [parse, Option.map_eq_some_iff, Prod.mk.injEq, true_and, exists_eq_right] at reads
      obtain ⟨read, split, same⟩ := dropStart?_sound reads
      exact ⟨read, eq_of_same_characters same, split⟩
  | keyword start =>
      simp only [parse, Option.map_eq_some_iff, Prod.mk.injEq, true_and, exists_eq_right] at reads
      obtain ⟨read, split, same⟩ := dropStart?_sound reads
      exact ⟨read, toLower_of_same_letters same, split⟩
  | run charset =>
      simp only [parse] at reads
      split at reads
      · simp at reads
      · next some_char =>
          simp only [Option.some.injEq, Prod.mk.injEq] at reads
          obtain ⟨rfl, rfl⟩ := reads
          refine ⟨text.takeWhile charset, ⟨by simp, by simpa using some_char, ?_⟩,
            List.takeWhile_append_dropWhile⟩
          intro c member
          exact List.all_eq_true.mp List.all_takeWhile c member
  | endOfText =>
      simp only [parse] at reads
      split at reads
      · next ends =>
          simp only [Option.some.injEq, Prod.mk.injEq, true_and] at reads
          exact ⟨[], Language.nil_mem_one, by simp_all⟩
      · simp at reads
  | map f inner ih =>
      simp only [parse, Option.map_eq_some_iff, Prod.mk.injEq] at reads
      obtain ⟨⟨value, rest⟩, first, rfl, rfl⟩ := reads
      obtain ⟨read, member, split⟩ := ih first
      exact ⟨read, mem_denotes_map.mpr ⟨value, rfl, member⟩, split⟩
  | both first second ihFirst ihSecond =>
      simp only [parse] at reads
      split at reads
      · simp at reads
      · next value middle before =>
          simp only [Option.map_eq_some_iff, Prod.mk.injEq] at reads
          obtain ⟨⟨other, rest⟩, after, rfl, rfl⟩ := reads
          obtain ⟨start, startMem, startSplit⟩ := ihFirst before
          obtain ⟨more, moreMem, moreSplit⟩ := ihSecond after
          exact ⟨start ++ more, Language.append_mem_mul startMem moreMem,
            by simp [moreSplit, startSplit]⟩
  | orElse first second ihFirst ihSecond =>
      -- which alternative was tried first makes no difference to the language
      simp only [parse] at reads
      split at reads
      · next found =>
          rw [reads] at found
          obtain ⟨read, member, split⟩ := ihFirst found
          exact ⟨read, .inl member, split⟩
      · obtain ⟨read, member, split⟩ := ihSecond reads
        exact ⟨read, .inr member, split⟩
  | optional inner ih =>
      simp only [parse] at reads
      split at reads
      · next found =>
          simp only [Option.some.injEq, Prod.mk.injEq] at reads
          obtain ⟨rfl, rfl⟩ := reads
          exact ih found
      · simp only [Option.some.injEq, Prod.mk.injEq] at reads
        obtain ⟨rfl, rfl⟩ := reads
        exact ⟨[], Language.nil_mem_one, rfl⟩
  | many inner ih =>
      simp only [parse, Option.some.injEq] at reads
      have sound := repeated_sound inner.denotes ih text
      rw [reads] at sound
      exact sound
  | rule part inner ih => exact ih reads

end Grammar

end TableScript
