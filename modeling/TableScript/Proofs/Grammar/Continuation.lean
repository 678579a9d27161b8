import TableScript.Grammar.Trace
import TableScript.Proofs.Grammar.Statement

/-!
# What could have stood where a reading failed

A trace names parts that failed at its furthest position.  Each of them can really stand
there: some text with the same beginning is read, and the part is one of those that its
reading matches at the position.  The argument goes down through the grammar with the text
before the current part.  A part *fits* behind that text if each of its texts is continued
there to a text that the whole grammar reads; so what fits behind a part that was read is
what comes next, and a part that fails fits where it was tried.
-/

namespace TableScript

namespace Grammar

variable {α β γ : Type}

/-! ## Parts that denote something -/

/-- That every part of a grammar denotes some text. -/
def Productive : {α : Type} → Grammar α → Prop
  | _, .literal _ => True
  | _, .keyword _ => True
  | _, .run charset => ∃ c, charset c = true
  | _, .endOfText => True
  | _, .map _ inner => inner.Productive
  | _, .both first second => first.Productive ∧ second.Productive
  | _, .orElse first second => first.Productive ∧ second.Productive
  | _, .optional inner => inner.Productive
  | _, .many inner => inner.Productive
  | _, .rule _ inner => inner.Productive

theorem exists_mem_denotes {grammar : Grammar α} (productive : grammar.Productive) :
    ∃ value text, text ∈ grammar.denotes value := by
  induction grammar with
  | literal word => exact ⟨(), word.toList, rfl⟩
  | keyword word => exact ⟨(), word.toList, rfl⟩
  | run charset =>
      obtain ⟨c, inside⟩ := productive
      refine ⟨String.ofList [c], [c], by simp, by simp, ?_⟩
      intro d member
      rwa [List.mem_singleton.mp member]
  | endOfText => exact ⟨(), [], rfl⟩
  | map f inner ih =>
      obtain ⟨value, text, member⟩ := ih productive
      exact ⟨f value, text, mem_denotes_map.mpr ⟨value, rfl, member⟩⟩
  | both one two ihOne ihTwo =>
      obtain ⟨value, text, member⟩ := ihOne productive.1
      obtain ⟨other, more, moreMem⟩ := ihTwo productive.2
      exact ⟨(value, other), text ++ more, Language.append_mem_mul member moreMem⟩
  | orElse one two ihOne _ =>
      obtain ⟨value, text, member⟩ := ihOne productive.1
      exact ⟨value, text, .inl member⟩
  | optional inner _ => exact ⟨none, [], rfl⟩
  | many inner _ => exact ⟨[], [], rfl⟩
  | rule part inner ih => exact ih productive

/-! ## What parts match -/

section Matched

variable {inner : Grammar α} {value : α} {text rest : List Char}

theorem matched_both {one : Grammar α} {two : Grammar β} {other : β} {more : List Char}
    (readOne : one.parse (text ++ (more ++ rest)) = some (value, more ++ rest))
    (readTwo : two.parse (more ++ rest) = some (other, rest)) (position : Nat) :
    (one.both two).matched position (text ++ (more ++ rest)) =
      one.matched position (text ++ (more ++ rest)) ++
        two.matched (position + text.length) (more ++ rest) := by
  have taken : (text ++ (more ++ rest)).length - (more ++ rest).length = text.length := by simp
  simp only [matched, readOne, readTwo, taken]

theorem matchedRepeatedly_cons (read : inner.parse (text ++ rest) = some (value, rest))
    (filled : text ≠ []) (position : Nat) :
    matchedRepeatedly inner.parse inner.matched position (text ++ rest) =
      inner.matched position (text ++ rest) ++
        matchedRepeatedly inner.parse inner.matched (position + text.length) rest := by
  have taken : (text ++ rest).length - rest.length = text.length := by simp
  have shorter : rest.length < (text ++ rest).length := by
    have := List.length_pos_iff.mpr filled
    simpa using this
  rw [matchedRepeatedly]
  simp only [read, shorter, if_true, taken]

theorem ne_nil_of_mem {text : List Char} (some_text : inner.nullable = false)
    (member : text ∈ inner.denotes value) : text ≠ [] := by
  rintro rfl
  rw [nullable_of_nil_mem member] at some_text
  cases some_text

end Matched

/-! ## Where parts fit -/

/-- That a part fits behind a text: each of its texts is continued there, by one of `next` or
nothing, to a text that the whole grammar reads, and what the part matches is matched in it. -/
def Fits (whole : Grammar γ) (next : Set Char) (before : List Char) (part : Grammar α) : Prop :=
  ∀ (value : α) (text : List Char), text ∈ part.denotes value →
    ∃ rest, Opens next rest ∧ (∃ read, whole.parse (before ++ (text ++ rest)) = some read) ∧
      part.matched before.length (text ++ rest) ⊆ whole.matched 0 (before ++ (text ++ rest))

namespace Fits

variable {whole : Grammar γ} {next : Set Char} {before : List Char}

theorem inner_map {f : α → β} {inner : Grammar α} (fits : Fits whole next before (map f inner)) :
    Fits whole next before inner :=
  fun value text member => fits (f value) text (mem_denotes_map.mpr ⟨value, rfl, member⟩)

theorem inner_optional {inner : Grammar α} (fits : Fits whole next before inner.optional) :
    Fits whole next before inner := by
  intro value text member
  have given : text ∈ inner.optional.denotes (some value) := member
  exact fits (some value) text given

theorem inner_rule {part : Production} {inner : Grammar α}
    (fits : Fits whole next before (rule part inner)) (predictive : inner.Predictive next) :
    Fits whole next before inner := by
  intro value text member
  obtain ⟨rest, follows, reads, within⟩ := fits value text member
  refine ⟨rest, follows, reads, ?_⟩
  simp only [matched, parse_complete predictive member follows] at within
  exact (List.cons_subset.mp within).2

theorem first_both {one : Grammar α} {two : Grammar β}
    (fits : Fits whole next before (one.both two))
    (predictive : (one.both two).Predictive next) (productive : two.Productive) :
    Fits whole (two.opening next) before one := by
  intro value text member
  obtain ⟨other, more, moreMem⟩ := exists_mem_denotes productive
  have joined : text ++ more ∈ (one.both two).denotes (value, other) :=
    Language.append_mem_mul member moreMem
  obtain ⟨rest, follows, reads, within⟩ := fits _ _ joined
  have opens := opens_opening moreMem follows
  rw [List.append_assoc] at reads within
  rw [matched_both (parse_complete predictive.1 member opens)
    (parse_complete predictive.2 moreMem follows)] at within
  exact ⟨more ++ rest, opens, reads, (List.append_subset.mp within).1⟩

theorem second_both {one : Grammar α} {two : Grammar β} {value : α} {start : List Char}
    (fits : Fits whole next before (one.both two)) (predictive : (one.both two).Predictive next)
    (startMem : start ∈ one.denotes value) : Fits whole next (before ++ start) two := by
  intro other text member
  have joined : start ++ text ∈ (one.both two).denotes (value, other) :=
    Language.append_mem_mul startMem member
  obtain ⟨rest, follows, reads, within⟩ := fits _ _ joined
  have opens := opens_opening member follows
  rw [List.append_assoc] at reads within
  rw [matched_both (parse_complete predictive.1 startMem opens)
    (parse_complete predictive.2 member follows)] at within
  simp only [List.append_assoc, List.length_append]
  exact ⟨rest, follows, reads, (List.append_subset.mp within).2⟩

theorem first_orElse {one two : Grammar α} (fits : Fits whole next before (one.orElse two))
    (predictive : one.Predictive next) : Fits whole next before one := by
  intro value text member
  obtain ⟨rest, follows, reads, within⟩ := fits value text (.inl member)
  simp only [matched, parse_complete predictive member follows] at within
  exact ⟨rest, follows, reads, within⟩

theorem second_orElse {one two : Grammar α} (fits : Fits whole next before (one.orElse two))
    (excludes : one.Excludes two) : Fits whole next before two := by
  intro value text member
  obtain ⟨rest, follows, reads, within⟩ := fits value text (.inr member)
  simp only [matched, parse_eq_none_of_excludes excludes member rest] at within
  exact ⟨rest, follows, reads, within⟩

theorem item_many {inner : Grammar α} (fits : Fits whole next before inner.many)
    (predictive : inner.Predictive (inner.first ∪ next)) (some_text : inner.nullable = false) :
    Fits whole (inner.first ∪ next) before inner := by
  intro value text member
  have once : text ∈ inner.many.denotes [value] := by
    simpa only [denotes, List.map_cons, List.map_nil, List.prod_singleton] using member
  obtain ⟨rest, follows, reads, within⟩ := fits _ _ once
  have opens : Opens (inner.first ∪ next) rest := fun c head => .inr (follows c head)
  rw [matched, matchedRepeatedly_cons (parse_complete predictive member opens)
    (ne_nil_of_mem some_text member)] at within
  exact ⟨rest, opens, reads, (List.append_subset.mp within).1⟩

/-- Behind an item that was read the repetition fits again. -/
theorem again_many {inner : Grammar α} {value : α} {start : List Char}
    (fits : Fits whole next before inner.many)
    (predictive : inner.Predictive (inner.first ∪ next)) (some_text : inner.nullable = false)
    (startMem : start ∈ inner.denotes value) : Fits whole next (before ++ start) inner.many := by
  intro values text member
  have joined : start ++ text ∈ inner.many.denotes (value :: values) := by
    rw [denotes, List.map_cons, List.prod_cons]
    exact Language.append_mem_mul startMem member
  obtain ⟨rest, follows, reads, within⟩ := fits _ _ joined
  have opens : Opens (inner.first ∪ next) (text ++ rest) :=
    opens_append (fun c head => .inl (opens_of_mem_prod opens_of_mem member c head))
      fun _ c head => .inr (follows c head)
  rw [List.append_assoc] at reads within
  rw [matched, matchedRepeatedly_cons (parse_complete predictive startMem opens)
    (ne_nil_of_mem some_text startMem)] at within
  simp only [List.append_assoc, List.length_append, matched]
  exact ⟨rest, follows, reads, (List.append_subset.mp within).2⟩

end Fits

/-! ## Sound traces -/

/-- That a named part can stand at a position behind the beginning of a text. -/
def Viable (whole : Grammar γ) (text : List Char) (position : Nat) (part : Production) : Prop :=
  ∃ other, (∃ read, whole.parse other = some read) ∧
    other.take position = text.take position ∧ (part, position) ∈ whole.matched 0 other

theorem viable_of_fits {whole : Grammar γ} {next : Set Char} {before : List Char}
    {part : Production} {inner : Grammar α} (fits : Fits whole next before (rule part inner))
    (productive : inner.Productive) (predictive : inner.Predictive next) (rest : List Char) :
    whole.Viable (before ++ rest) before.length part := by
  obtain ⟨value, text, member⟩ := exists_mem_denotes productive
  obtain ⟨more, follows, reads, within⟩ := fits value text member
  simp only [matched, parse_complete predictive member follows] at within
  refine ⟨before ++ (text ++ more), reads, ?_, (List.cons_subset.mp within).1⟩
  rw [List.take_left, List.take_left]

end Grammar

namespace Trace

open Grammar (Viable)

variable {γ : Type} {whole : Grammar γ} {text : List Char} {trace : Trace} {part : Production}
  {position : Nat}

/-- That a trace keeps to a text and names only parts that can stand where they failed, and some
part if it is not at the beginning. -/
structure Sound (whole : Grammar γ) (text : List Char) (trace : Trace) : Prop where
  within : trace.furthest ≤ text.length
  viable : ∀ part ∈ trace.failed, whole.Viable text trace.furthest part
  named : trace.furthest ≠ 0 → trace.failed ≠ []

theorem sound_start (whole : Grammar γ) (text : List Char) : Sound whole text start := by
  refine ⟨Nat.zero_le _, ?_, fun moved => absurd rfl moved⟩
  intro part member
  cases member

/-- Something is named where a failure was noted. -/
theorem failed_note_ne_nil (named : trace.furthest ≠ 0 → trace.failed ≠ []) (part : Production)
    (position before : Nat) : (trace.note part position before).failed ≠ [] := by
  unfold note
  split
  · next one =>
      -- a count above zero counts names
      rintro empty
      simp [count, empty] at one
  · split
    · simp
    · split
      · simp
      · next near => exact named (by omega)

theorem Sound.note (sound : Sound whole text trace) (within : position ≤ text.length)
    (viable : whole.Viable text position part) (before : Nat) :
    Sound whole text (trace.note part position before) := by
  refine ⟨?_, ?_, fun _ => failed_note_ne_nil sound.named part position before⟩
  · unfold Trace.note
    split
    · exact sound.within
    · split
      · exact within
      · split
        · exact within
        · exact sound.within
  · unfold Trace.note
    split
    · exact sound.viable
    · split
      · next same =>
          intro other member
          rcases List.mem_append.mp member with earlier | last
          · have known := sound.viable other (List.mem_of_mem_take earlier)
            rwa [← same] at known
          · rwa [List.mem_singleton.mp last]
      · split
        · intro other member
          rwa [List.mem_singleton.mp member]
        · exact sound.viable

end Trace

namespace Grammar

open Trace (Sound)

variable {α γ : Type} {whole : Grammar γ}

theorem sound_repeated {inner : Grammar α} {next : Set Char}
    (predictive : inner.Predictive (inner.first ∪ next)) (some_text : inner.nullable = false)
    (step : ∀ {before rest : List Char} {trace : Trace},
      Fits whole (inner.first ∪ next) before inner → Sound whole (before ++ rest) trace →
      Sound whole (before ++ rest) (inner.trace before.length rest trace))
    {before rest : List Char} {trace : Trace} (fits : Fits whole next before inner.many)
    (sound : Sound whole (before ++ rest) trace) :
    Sound whole (before ++ rest)
      (Trace.repeated inner.parse inner.trace before.length rest trace) := by
  induction length : rest.length using Nat.strong_induction_on generalizing before rest trace with
  | _ n ih =>
      have once := step (fits.item_many predictive some_text) sound
      rw [Trace.repeated]
      split
      · exact once
      · next value behind parsed =>
          obtain ⟨start, startMem, rfl⟩ := parse_sound parsed
          have filled := List.length_pos_iff.mpr (ne_nil_of_mem some_text startMem)
          have shorter : behind.length < (start ++ behind).length := by simpa using filled
          have taken : before.length + ((start ++ behind).length - behind.length) =
              (before ++ start).length := by simp
          rw [if_pos shorter, taken]
          rw [← List.append_assoc] at once ⊢
          exact ih behind.length (length ▸ shorter)
            (fits.again_many predictive some_text startMem) once rfl

/-- What is noted by a part that fits keeps a trace sound. -/
theorem sound_trace {grammar : Grammar α} {next : Set Char} {before rest : List Char}
    {trace : Trace} (productive : grammar.Productive) (predictive : grammar.Predictive next)
    (fits : Fits whole next before grammar) (sound : Sound whole (before ++ rest) trace) :
    Sound whole (before ++ rest) (grammar.trace before.length rest trace) := by
  induction grammar generalizing next before rest trace with
  | literal word => exact sound
  | keyword word => exact sound
  | run charset => exact sound
  | endOfText => exact sound
  | map f inner ih => exact ih productive predictive fits.inner_map sound
  | both one two ihOne ihTwo =>
      have after := ihOne productive.1 predictive.1
        (fits.first_both predictive productive.2) sound
      simp only [Grammar.trace]
      split
      · exact after
      · next value behind parsed =>
          -- the second part goes on behind the text of the first
          obtain ⟨start, startMem, rfl⟩ := parse_sound parsed
          have taken : before.length + ((start ++ behind).length - behind.length) =
              (before ++ start).length := by simp
          rw [taken]
          rw [← List.append_assoc] at after ⊢
          exact ihTwo productive.2 predictive.2 (fits.second_both predictive startMem) after
  | orElse one two ihOne ihTwo =>
      obtain ⟨predictOne, predictTwo, excludes⟩ := predictive
      have after := ihOne productive.1 predictOne (fits.first_orElse predictOne) sound
      simp only [Grammar.trace]
      split
      · exact after
      · exact ihTwo productive.2 predictTwo (fits.second_orElse excludes) after
  | optional inner ih => exact ih productive predictive.1 fits.inner_optional sound
  | many inner ih =>
      obtain ⟨predictInner, some_text, _⟩ := predictive
      exact sound_repeated predictInner some_text (ih productive predictInner) fits sound
  | rule part inner ih =>
      have after := ih productive predictive (fits.inner_rule predictive) sound
      simp only [Grammar.trace]
      split
      · exact after
      · refine after.note ?_ (viable_of_fits fits productive predictive rest) _
        simp

/-- A grammar fits at the beginning. -/
theorem fits_whole (predictive : whole.Predictive ∅) : Fits whole ∅ [] whole := by
  intro value text member
  have ends : Opens ∅ [] := by simp [Opens]
  have read := parse_complete predictive member ends
  exact ⟨[], ends, ⟨_, read⟩, fun _ known => known⟩

/-- The trace of a named grammar that refuses a text names something. -/
theorem failed_trace_ne_nil {part : Production} {inner : Grammar γ} {text : List Char}
    (productive : inner.Productive) (predictive : inner.Predictive ∅)
    (refused : (rule part inner).parse text = none) :
    ((rule part inner).trace 0 text .start).failed ≠ [] := by
  have predictiveWhole : (rule part inner).Predictive ∅ := predictive
  have fits : Fits (rule part inner) ∅ [] (rule part inner) := fits_whole predictiveWhole
  have start : Sound (rule part inner) ([] ++ text) .start := Trace.sound_start _ text
  have sound := sound_trace productive predictive (fits.inner_rule predictive) start
  rw [parse] at refused
  rw [trace, refused]
  exact Trace.failed_note_ne_nil sound.named part _ _

/-! ## Statements -/

def parts : {α : Type} → Grammar α → List Production
  | _, .literal _ => []
  | _, .keyword _ => []
  | _, .run _ => []
  | _, .endOfText => []
  | _, .map _ inner => inner.parts
  | _, .both first second => first.parts ++ second.parts
  | _, .orElse first second => first.parts ++ second.parts
  | _, .optional inner => inner.parts
  | _, .many inner => inner.parts
  | _, .rule part inner => part :: inner.parts

theorem mem_parts_of_matchedRepeatedly {inner : Grammar α}
    (known : ∀ {position text found}, found ∈ inner.matched position text → found.1 ∈ inner.parts)
    {position : Nat} {text : List Char} {found : Match}
    (member : found ∈ matchedRepeatedly inner.parse inner.matched position text) :
    found.1 ∈ inner.parts := by
  fun_induction matchedRepeatedly inner.parse inner.matched position text with
  | case1 => cases member
  | case2 position text value rest read shorter ih =>
      rcases List.mem_append.mp member with here | later
      · exact known here
      · exact ih later
  | case3 => cases member

/-- Whatever is matched is a part of the grammar. -/
theorem mem_parts_of_matched {grammar : Grammar α} {position : Nat} {text : List Char}
    {found : Match} (member : found ∈ grammar.matched position text) :
    found.1 ∈ grammar.parts := by
  induction grammar generalizing position text found with
  | literal word => cases member
  | keyword word => cases member
  | run charset => cases member
  | endOfText => cases member
  | map f inner ih => exact ih member
  | both one two ihOne ihTwo =>
      simp only [matched] at member
      split at member
      · cases member
      · split at member
        · cases member
        · rcases List.mem_append.mp member with here | later
          · exact List.mem_append_left _ (ihOne here)
          · exact List.mem_append_right _ (ihTwo later)
  | orElse one two ihOne ihTwo =>
      simp only [matched] at member
      split at member
      · exact List.mem_append_left _ (ihOne member)
      · exact List.mem_append_right _ (ihTwo member)
  | optional inner ih => exact ih member
  | many inner ih =>
      simp only [matched] at member
      have inside : _ ∈ inner.parts := mem_parts_of_matchedRepeatedly ih member
      exact inside
  | rule part inner ih =>
      simp only [matched] at member
      split at member
      · rcases List.mem_cons.mp member with rfl | later
        · exact List.mem_cons_self
        · exact List.mem_cons_of_mem part (ih later)
      · cases member

theorem productive_statement : statement.Productive := by
  have named : ∃ c, isNameChar c = true := ⟨'a', by decide⟩
  have spaced : ∃ c, isGapChar c = true := ⟨' ', by decide⟩
  have located : ∃ c, (!isGapChar c) = true := ⟨'a', by decide⟩
  have listed : names.Productive := ⟨named, trivial, spaced, named⟩
  have renamed : nameAs.Productive := ⟨named, ⟨spaced, trivial, spaced⟩, named⟩
  have bracketed : columns.Productive := ⟨trivial, listed, trivial⟩
  have referred : reference.Productive := ⟨named, trivial, named, trivial, named⟩
  have called : call.Productive := ⟨named, trivial, listed, trivial⟩
  have as : ((Grammar.spaced "AS").right name).Productive := ⟨⟨spaced, trivial, spaced⟩, named⟩
  have keyed : keys.Productive :=
    ⟨trivial, trivial, listed, trivial, trivial, spaced, trivial, listed, trivial, trivial⟩
  have projected : projections.Productive := ⟨trivial, ⟨renamed, trivial, spaced, renamed⟩, trivial⟩
  have paired : pairing.Productive :=
    ⟨trivial, spaced, keyed, ⟨spaced, trivial, spaced⟩, projected⟩
  exact ⟨⟨⟨trivial, spaced, named, bracketed⟩, ⟨trivial, spaced, named, bracketed⟩,
    ⟨trivial, spaced, paired⟩, ⟨trivial, spaced, paired⟩,
    ⟨trivial, spaced, named, ⟨spaced, trivial, spaced⟩, called, as⟩, ⟨trivial, spaced, named⟩,
    trivial, trivial, ⟨trivial, spaced, located, as⟩, ⟨trivial, spaced, referred, as⟩,
    trivial, spaced, referred⟩, trivial⟩

theorem endOfLine_notMem_alternatives : .endOfLine ∉ alternatives.parts := by decide

/-- The end of a line is matched behind all of its characters. -/
theorem eq_length_of_matched_endOfLine {text : List Char} {position : Nat}
    (member : (.endOfLine, position) ∈ statement.matched 0 text) : position = text.length := by
  rw [statement_eq_alternatives, left] at member
  simp only [matched] at member
  split at member
  · rcases List.mem_cons.mp member with same | member
    · cases same
    · split at member
      · cases member
      · next value rest _ =>
          split at member
          · cases member
          · next ends =>
              have none_left : rest = [] := by
                simp only [parse, Option.ite_none_right_eq_some, List.isEmpty_iff] at ends
                exact ends.1
              rcases List.mem_append.mp member with inside | last
              · exact absurd (mem_parts_of_matched inside) endOfLine_notMem_alternatives
              · simp only [parse, none_left, List.isEmpty_nil, if_true, List.mem_singleton] at last
                simpa [none_left] using last
  · cases member

/-- The parts that are named for a refused text can stand where it is refused. -/
theorem sound_trace_statement (text : List Char) :
    Trace.Sound statement text (statement.trace 0 text .start) :=
  sound_trace productive_statement predictive_statement (fits_whole predictive_statement)
    (Trace.sound_start statement text)

theorem failed_trace_statement_ne_nil {text : List Char} (refused : statement.parse text = none) :
    (statement.trace 0 text .start).failed ≠ [] := by
  have productive : (alternatives.left (rule .endOfLine endOfText)).Productive :=
    productive_statement
  have predictive : (alternatives.left (rule .endOfLine endOfText)).Predictive ∅ :=
    predictive_statement
  rw [statement_eq_alternatives] at refused ⊢
  exact failed_trace_ne_nil productive predictive refused

end Grammar

namespace Statement

theorem parse_eq_ok_of_parse {text : List Char} {read : Statement × List Char}
    (reads : Grammar.statement.parse text = some read) :
    parse (String.ofList text) = .ok read.1 := by
  rw [parse, parseAt, String.toList_ofList, reads]

/-- A refused statement names some parts that were expected, all at one position inside the line.
Each of them could have stood there: the text before the position is itself a statement if the end
of the line was expected, and otherwise some statement begins with that text and has the part
behind it. -/
theorem refusal_names_continuations {number : Nat} {line : String} {error : SyntaxError}
    (refused : parseAt number line = .error error) :
    error.statement = line ∧ error.position ≤ line.length ∧
      error.expected ≠ [] ∧ error.expectedWords ≠ [] ∧
      (∃ accepted it, parse accepted = .ok it ∧ error.before <+: accepted.toList) ∧
      ∀ part ∈ error.expected,
        (part = .endOfLine → ∃ it, parse (String.ofList error.before) = .ok it) ∧
        (part ≠ .endOfLine → ∃ accepted it, parse accepted = .ok it ∧
          accepted.toList.take error.position = error.before ∧
          (part, error.position) ∈ Grammar.statement.matched 0 accepted.toList) := by
  rw [parseAt] at refused
  split at refused
  · cases refused
  · next none =>
      cases refused
      have sound := Grammar.sound_trace_statement line.toList
      have named := Grammar.failed_trace_statement_ne_nil none
      generalize Grammar.statement.trace 0 line.toList .start = trace at sound named
      obtain ⟨first, rest, some⟩ := List.exists_cons_of_ne_nil named
      have member : first ∈ trace.failed := some ▸ List.mem_cons_self
      refine ⟨rfl, ?_, named, ?_, ?_, ?_⟩
      · exact String.length_toList ▸ sound.within
      · have listed : first ∈ Production.all.filter (trace.failed.contains ·) :=
          List.mem_filter.mpr ⟨Production.mem_all first, List.contains_iff_mem.mpr member⟩
        exact List.ne_nil_of_mem (List.mem_map_of_mem listed)
      · obtain ⟨other, ⟨read, reads⟩, same, _⟩ := sound.viable first member
        refine ⟨String.ofList other, read.1, parse_eq_ok_of_parse reads, ?_⟩
        rw [String.toList_ofList, SyntaxError.before, ← same]
        exact List.take_prefix _ _
      · intro part known
        obtain ⟨other, ⟨read, reads⟩, same, matched⟩ := sound.viable part known
        constructor
        · rintro rfl
          have ends := Grammar.eq_length_of_matched_endOfLine matched
          have whole : SyntaxError.before ⟨number, line, trace.furthest, trace.failed⟩ = other := by
            rw [SyntaxError.before, ← same, ends, List.take_length]
          exact ⟨read.1, whole ▸ parse_eq_ok_of_parse reads⟩
        · intro _
          refine ⟨String.ofList other, read.1, parse_eq_ok_of_parse reads, ?_, ?_⟩
          · rw [String.toList_ofList]
            exact same
          · rwa [String.toList_ofList]

/-- Behind the table of a commit its columns or the end of the line are expected. -/
theorem columns_or_end_expected :
    parseAt 3 "commit foo x" = .error ⟨3, "commit foo x", 10, [.columns, .endOfLine]⟩ ∧
      (∃ it, parse "commit foo" = .ok it) ∧
      ∃ accepted it, parse accepted = .ok it ∧
        accepted.toList.take 10 = "commit foo".toList ∧
        (.columns, 10) ∈ Grammar.statement.matched 0 accepted.toList := by
  have refused : parseAt 3 "commit foo x" =
      .error ⟨3, "commit foo x", 10, [.columns, .endOfLine]⟩ := by
    rfl
  obtain ⟨_, _, _, _, _, each⟩ := refusal_names_continuations refused
  refine ⟨refused, (each .endOfLine (by decide)).1 rfl, ?_⟩
  exact (each .columns (by decide)).2 (by decide)

end Statement

end TableScript
