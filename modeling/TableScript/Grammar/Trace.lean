import TableScript.Grammar.Basic

/-!
# What a grammar met on its way

Two more ways to go through a text by a grammar.  `Grammar.matched` lists where
the named parts of a successful reading stand.  `Grammar.trace` keeps, whether or
not the reading succeeds, the furthest position at which a named part failed and
the names of the parts that failed there: what a message can say was expected.

The names are kept as few and as large as possible.  A part that fails where it
began takes the place of the names that failed inside it, unless there was just
one; that one then stands for it.
-/

namespace TableScript

/-- The furthest position at which a named part failed, and the parts that failed
there, in the order in which they were noted. -/
structure Trace where
  furthest : Nat
  failed : List Production
deriving DecidableEq, Repr

namespace Trace

def start : Trace := ⟨0, []⟩

def count (trace : Trace) (position : Nat) : Nat :=
  if position = trace.furthest then trace.failed.length else 0

/-- Note that a part failed which began at `position`, when `before` failures were
noted there. -/
def note (trace : Trace) (part : Production) (position before : Nat) : Trace :=
  if trace.count position = before + 1 then trace
  else if position = trace.furthest then
    ⟨position, trace.failed.take before ++ [part]⟩
  else if trace.furthest < position then ⟨position, [part]⟩
  else trace

def repeated {α : Type} (step : List Char → Option (α × List Char))
    (inner : Nat → List Char → Trace → Trace)
    (position : Nat) (text : List Char) (trace : Trace) : Trace :=
  let trace := inner position text trace
  match step text with
  | none => trace
  | some (_, rest) =>
      if rest.length < text.length then
        repeated step inner (position + (text.length - rest.length)) rest trace
      else trace
termination_by text.length

end Trace

/-- A named part and the position at which it begins. -/
abbrev Match := Production × Nat

namespace Grammar

def matchedRepeatedly {α : Type} (step : List Char → Option (α × List Char))
    (inner : Nat → List Char → List Match) (position : Nat) (text : List Char) : List Match :=
  match step text with
  | none => []
  | some (_, rest) =>
      if rest.length < text.length then
        inner position text ++
          matchedRepeatedly step inner (position + (text.length - rest.length)) rest
      else []
termination_by text.length

/-- The named parts of a reading that begins at `position`, outer parts before
inner ones; none if the text is not read. -/
def matched : {α : Type} → Grammar α → Nat → List Char → List Match
  | _, .literal _, _, _ => []
  | _, .keyword _, _, _ => []
  | _, .run _, _, _ => []
  | _, .endOfText, _, _ => []
  | _, .map _ inner, position, text => inner.matched position text
  | _, .both first second, position, text =>
      match first.parse text with
      | none => []
      | some (_, rest) =>
          match second.parse rest with
          | none => []
          | some _ =>
              first.matched position text ++
                second.matched (position + (text.length - rest.length)) rest
  | _, .orElse first second, position, text =>
      match first.parse text with
      | some _ => first.matched position text
      | none => second.matched position text
  | _, .optional inner, position, text => inner.matched position text
  | _, .many inner, position, text =>
      matchedRepeatedly inner.parse inner.matched position text
  | _, .rule part inner, position, text =>
      match inner.parse text with
      | some _ => (part, position) :: inner.matched position text
      | none => []

/-- What is noted of failures in a reading that begins at `position`. -/
def trace : {α : Type} → Grammar α → Nat → List Char → Trace → Trace
  | _, .literal _, _, _, noted => noted
  | _, .keyword _, _, _, noted => noted
  | _, .run _, _, _, noted => noted
  | _, .endOfText, _, _, noted => noted
  | _, .map _ inner, position, text, noted => inner.trace position text noted
  | _, .both first second, position, text, noted =>
      match first.parse text with
      | none => first.trace position text noted
      | some (_, rest) =>
          second.trace (position + (text.length - rest.length)) rest
            (first.trace position text noted)
  | _, .orElse first second, position, text, noted =>
      match first.parse text with
      | some _ => first.trace position text noted
      | none => second.trace position text (first.trace position text noted)
  | _, .optional inner, position, text, noted => inner.trace position text noted
  | _, .many inner, position, text, noted =>
      Trace.repeated inner.parse inner.trace position text noted
  | _, .rule part inner, position, text, noted =>
      match inner.parse text with
      | some _ => inner.trace position text noted
      | none => (inner.trace position text noted).note part position (noted.count position)

end Grammar

end TableScript
