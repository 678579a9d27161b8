import TableScript.Proofs.Grammar.Cut
import TableScript.Proofs.Grammar.Parts

/-!
# Lexemes

A text cut into names, gaps and other characters, without being read, and what it is when each gap
is a single space.  Lexemes can also be settled: the key lists of a pairing are kept apart, and a
column that is named as itself is named once.
-/

namespace TableScript

open Grammar (isGapChar isNameChar Opens opens_cons opens_append)

/-! ## Lexemes -/

/-- A part of a line: a gap, a name or another character. -/
inductive Lexeme where
  | gap
  | name (letters : List Char)
  | mark (c : Char)
deriving DecidableEq

namespace Lexeme

/-- A character in front of lexemes.  It belongs to the first of them if it goes on with it. -/
def push (c : Char) (lexemes : List Lexeme) : List Lexeme :=
  if isGapChar c then
    match lexemes with
    | gap :: rest => gap :: rest
    | _ => gap :: lexemes
  else if isNameChar c then
    match lexemes with
    | name letters :: rest => name (c :: letters) :: rest
    | _ => name [c] :: lexemes
  else mark c :: lexemes

def ofText (text : List Char) : List Lexeme := text.foldr push []

def text : Lexeme → List Char
  | gap => [' ']
  | name letters => letters
  | mark c => [c]

/-- The text of some lexemes, with one space for each gap. -/
def render (lexemes : List Lexeme) : List Char := lexemes.flatMap text

/-- A lexeme in front of others that are settled.  A comma and a bracket are kept apart, and a name
that is given to itself is not repeated. -/
def settle : Lexeme → List Lexeme → List Lexeme
  | gap, rest => gap :: rest
  | mark c, rest =>
      if c = ',' ∧ rest.head? = some (mark '[') then mark c :: gap :: rest else mark c :: rest
  | name letters, rest =>
      if rest.take 4 = [gap, name "AS".toList, gap, name letters] then name letters :: rest.drop 4
      else name letters :: rest

def settleAll (lexemes : List Lexeme) : List Lexeme := lexemes.foldr settle []

end Lexeme

def oneSpaced (text : List Char) : List Char := Lexeme.render (Lexeme.ofText text)

/-- A text with one space for each of its gaps, in which the key lists are kept apart and no name
is given to itself. -/
def settled (text : List Char) : List Char := Lexeme.render (Lexeme.settleAll (Lexeme.ofText text))

open Spelling

/-! ## Cutting a text into lexemes -/

namespace Lexeme

theorem isGapChar_eq_true_iff {c : Char} : isGapChar c = true ↔ c ∈ blanks := by
  simp [isGapChar, blanks]

theorem ofText_mark {c : Char} (noGap : isGapChar c = false) (noName : isNameChar c = false)
    (rest : List Char) : ofText (c :: rest) = mark c :: ofText rest := by
  show push c (ofText rest) = _
  simp [push, noGap, noName]

theorem head?_ofText_ne_gap {text : List Char} (visible : Opens blanksᶜ text) :
    (ofText text).head? ≠ some gap := by
  cases text with
  | nil => simp [ofText]
  | cons c rest =>
      have noGap : ¬isGapChar c = true :=
        fun inGap => visible c rfl (isGapChar_eq_true_iff.mp inGap)
      show (push c (ofText rest)).head? ≠ _
      unfold push
      rw [if_neg noGap]
      split
      · split <;> simp
      · simp

theorem head?_ofText_ne_name {text : List Char} (opens : Opens {c | isNameChar c = false} text)
    (letters : List Char) : (ofText text).head? ≠ some (name letters) := by
  cases text with
  | nil => simp [ofText]
  | cons c rest =>
      have noName : isNameChar c = false := opens c rfl
      show (push c (ofText rest)).head? ≠ _
      unfold push
      rw [noName]
      split
      · split <;> simp
      · simp

theorem ofText_gap {blank rest : List Char} (member : blank ∈ Spelling.gap)
    (visible : Opens blanksᶜ rest) : ofText (blank ++ rest) = gap :: ofText rest := by
  obtain ⟨filled, each⟩ := member
  induction blank with
  | nil => exact absurd rfl filled
  | cons c others ih =>
      have inGap : isGapChar c = true := isGapChar_eq_true_iff.mpr (each c List.mem_cons_self)
      show push c (ofText (others ++ rest)) = _
      cases others with
      | nil =>
          have ends := head?_ofText_ne_gap visible
          unfold push
          rw [if_pos inGap, List.nil_append]
          split
          · next same => simp [same] at ends
          · rfl
      | cons d others =>
          have later := fun e member => each e (List.mem_cons_of_mem c member)
          rw [ih (List.cons_ne_nil d others) later]
          simp [push, inGap]

theorem ofText_name {letters rest : List Char} (filled : letters ≠ [])
    (named : ∀ c ∈ letters, isNameChar c = true) (opens : Opens {c | isNameChar c = false} rest) :
    ofText (letters ++ rest) = name letters :: ofText rest := by
  induction letters with
  | nil => exact absurd rfl filled
  | cons c others ih =>
      have inName : isNameChar c = true := named c List.mem_cons_self
      have noGap : ¬isGapChar c = true := fun inGap => by
        rw [Grammar.isNameChar_of_isGapChar inGap] at inName
        cases inName
      show push c (ofText (others ++ rest)) = _
      cases others with
      | nil =>
          have ends := head?_ofText_ne_name opens
          unfold push
          rw [if_neg noGap, if_pos inName, List.nil_append]
          split
          · next letters _ same => simp [same] at ends
          · rfl
      | cons d others =>
          have later := fun e member => named e (List.mem_cons_of_mem c member)
          rw [ih (List.cons_ne_nil d others) later]
          simp [push, inName, noGap]

theorem render_push {c : Char} (noGap : ¬isGapChar c = true) (lexemes : List Lexeme) :
    render (push c lexemes) = c :: render lexemes := by
  unfold push
  rw [if_neg noGap]
  split
  · split <;> simp [render, text]
  · simp [render, text]

end Lexeme

/-- What holds no blank stays as it is. -/
theorem oneSpaced_append {text : List Char} (unspaced : Unspaced text) (rest : List Char) :
    oneSpaced (text ++ rest) = text ++ oneSpaced rest := by
  induction text with
  | nil => rfl
  | cons c text ih =>
      have noGap : ¬isGapChar c = true := fun inGap =>
        unspaced.notMem_blanks c List.mem_cons_self (Lexeme.isGapChar_eq_true_iff.mp inGap)
      have later := ih fun d member => unspaced d (List.mem_cons_of_mem c member)
      rw [List.cons_append, List.cons_append, ← later]
      exact Lexeme.render_push noGap _

/-! ## Settled lexemes -/

namespace Lexeme

variable {lexemes : List Lexeme} {text rest : List Char}

theorem head?_settleAll (lexemes : List Lexeme) : (settleAll lexemes).head? = lexemes.head? := by
  cases lexemes with
  | nil => rfl
  | cons lexeme rest =>
      show (settle lexeme (settleAll rest)).head? = some lexeme
      cases lexeme with
      | gap => rfl
      | name letters => simp only [settle]; split <;> rfl
      | mark c => simp only [settle]; split <;> rfl

theorem settle_name {letters : List Char}
    (noClause : lexemes.take 4 ≠ [gap, name "AS".toList, gap, name letters]) :
    settle (name letters) lexemes = name letters :: lexemes :=
  if_neg noClause

theorem settle_name_of_head? {letters : List Char} (noGap : lexemes.head? ≠ some gap) :
    settle (name letters) lexemes = name letters :: lexemes := by
  apply settle_name
  cases lexemes with
  | nil => simp
  | cons lexeme rest => exact fun same => noGap (congrArg some (List.cons.inj same).1)

theorem settle_mark {c : Char} (apart : c ≠ ',' ∨ lexemes.head? ≠ some (mark '[')) :
    settle (mark c) lexemes = mark c :: lexemes :=
  if_neg fun both => apart.elim (fun noComma => noComma both.1) fun noBracket => noBracket both.2

theorem settleAll_gap {blank : List Char} (member : blank ∈ Spelling.gap)
    (visible : Opens blanksᶜ rest) :
    settleAll (ofText (blank ++ rest)) = gap :: settleAll (ofText rest) := by
  rw [ofText_gap member visible]
  rfl

theorem settleAll_name {value : String} (isName : IsName value)
    (opens : Opens {c | isNameChar c = false} rest) :
    settleAll (ofText (value.toList ++ rest)) =
      settle (name value.toList) (settleAll (ofText rest)) := by
  have named : ∀ c ∈ value.toList, isNameChar c = true := by
    intro c member
    rcases isName.2 c member with letter | rfl
    · simp [isNameChar, letter]
    · rfl
  rw [ofText_name isName.1 named opens]
  rfl

theorem settleAll_mark {c : Char} (noGap : isGapChar c = false) (noName : isNameChar c = false)
    (rest : List Char) :
    settleAll (ofText (c :: rest)) = settle (mark c) (settleAll (ofText rest)) := by
  rw [ofText_mark noGap noName]
  rfl

theorem head?_settleAll_ne_gap (visible : Opens blanksᶜ text) :
    (settleAll (ofText text)).head? ≠ some gap := by
  rw [head?_settleAll]
  exact head?_ofText_ne_gap visible

end Lexeme

end TableScript
