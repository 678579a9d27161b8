/-!
# Grammars

A grammar is data: a description of how a text is taken apart and of the value
that its parts make up.  `Grammar.parse` reads a text by it.  Alternatives are
tried in order and the first that reads wins; repetition takes as much as it can
and never gives anything back.

The named parts of a statement are its productions.  Their names are what a message
about a refused statement says it expected, and they are listed there in the order of
their type.
-/

namespace TableScript

/-! ## Productions -/

/-- A named part of a statement, or the end of the line. -/
inductive Production where
  | endOfLine
  | name
  | names
  | url
  | nameAs
  | columns
  | reference
  | keys
  | projections
  | call
  | expects
  | commit
  | join
  | inclusion
  | accumulate
  | push
  | pop
  | duplicate
  | attach
  | pull
  | invoke
  | statement
deriving DecidableEq, Repr

namespace Production

/-- All productions, in the order in which messages list them. -/
def all : List Production :=
  [endOfLine, name, names, url, nameAs, columns, reference, keys, projections, call, expects,
    commit, join, inclusion, accumulate, push, pop, duplicate, attach, pull, invoke, statement]

theorem mem_all (production : Production) : production ∈ all := by
  cases production <;> decide

def label : Production → String
  | endOfLine => "EOI"
  | name => "name"
  | names => "names"
  | url => "url"
  | nameAs => "name_as"
  | columns => "columns"
  | reference => "rule_ref"
  | keys => "using"
  | projections => "include"
  | call => "function"
  | expects => "expects"
  | commit => "commit"
  | join => "join"
  | inclusion => "inclusion"
  | accumulate => "accumulate"
  | push => "push"
  | pop => "pop"
  | duplicate => "duplicate"
  | attach => "attach"
  | pull => "pull"
  | invoke => "invoke"
  | statement => "statement"

end Production

/-! ## Reading -/

inductive Grammar : Type → Type 1 where
  /-- exactly this text -/
  | literal (text : String) : Grammar Unit
  /-- this text with its ASCII letters in any case -/
  | keyword (text : String) : Grammar Unit
  /-- one or more characters of a set, as many as there are -/
  | run (charset : Char → Bool) : Grammar String
  /-- nothing, at the end of the text -/
  | endOfText : Grammar Unit
  /-- the inner text, with its value changed by a function -/
  | map {α β : Type} (f : α → β) (inner : Grammar α) : Grammar β
  /-- one text after the other -/
  | both {α β : Type} (first : Grammar α) (second : Grammar β) : Grammar (α × β)
  /-- the first of two that reads -/
  | orElse {α : Type} (first second : Grammar α) : Grammar α
  /-- the inner text or nothing -/
  | optional {α : Type} (inner : Grammar α) : Grammar (Option α)
  /-- the inner text as often as it reads -/
  | many {α : Type} (inner : Grammar α) : Grammar (List α)
  /-- a named part -/
  | rule {α : Type} (part : Production) (inner : Grammar α) : Grammar α

namespace Grammar

variable {α β : Type}

/-- One text after the other, with the value of the first. -/
def left (first : Grammar α) (second : Grammar β) : Grammar α :=
  (first.both second).map Prod.fst

/-- One text after the other, with the value of the second. -/
def right (first : Grammar α) (second : Grammar β) : Grammar β :=
  (first.both second).map Prod.snd

/-- The rest of a text after a beginning that is compared character by
character. -/
def dropStart? (same : Char → Char → Bool) : List Char → List Char → Option (List Char)
  | [], text => some text
  | _ :: _, [] => none
  | expected :: start, c :: text => if same expected c then dropStart? same start text else none

def sameLetter (first second : Char) : Bool := first.toLower == second.toLower

/-- Take values off a text for as long as each step leaves a shorter text. -/
def repeated (step : List Char → Option (α × List Char)) (text : List Char) :
    List α × List Char :=
  match step text with
  | none => ([], text)
  | some (value, rest) =>
      if rest.length < text.length then
        let (others, last) := repeated step rest
        (value :: others, last)
      else ([], text)
termination_by text.length

/-- Read a text from its beginning: the value, and what is left over. -/
def parse : {α : Type} → Grammar α → List Char → Option (α × List Char)
  | _, .literal start, text =>
      (dropStart? (· == ·) start.toList text).map fun rest => ((), rest)
  | _, .keyword start, text =>
      (dropStart? sameLetter start.toList text).map fun rest => ((), rest)
  | _, .run charset, text =>
      if (text.takeWhile charset).isEmpty then none
      else some (String.ofList (text.takeWhile charset), text.dropWhile charset)
  | _, .endOfText, text => if text.isEmpty then some ((), []) else none
  | _, .map f inner, text => (inner.parse text).map fun read => (f read.1, read.2)
  | _, .both first second, text =>
      match first.parse text with
      | none => none
      | some (value, rest) => (second.parse rest).map fun read => ((value, read.1), read.2)
  | _, .orElse first second, text =>
      match first.parse text with
      | some read => some read
      | none => second.parse text
  | _, .optional inner, text =>
      match inner.parse text with
      | some (value, rest) => some (some value, rest)
      | none => some (none, text)
  | _, .many inner, text => some (repeated inner.parse text)
  | _, .rule _ inner, text => inner.parse text

end Grammar

end TableScript
