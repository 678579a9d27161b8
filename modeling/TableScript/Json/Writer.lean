import TableScript.Json.Value

/-!
# Writing JSON

One writer serves two layouts: compact text without any white space, and text
with a line for every item, indented by two spaces for every open array or
object.  In both, characters are escaped only where JSON requires it.
-/

namespace TableScript

namespace Json

/-- The white space of a layout: what stands before an item or a closing bracket
at some depth, and what follows a colon. -/
structure Layout where
  lineBreak : Nat → List Char
  afterColon : List Char

namespace Layout

def compact : Layout where
  lineBreak := fun _ => []
  afterColon := []

def pretty : Layout where
  lineBreak := fun depth => '\n' :: List.replicate (2 * depth) ' '
  afterColon := [' ']

end Layout

namespace Writer

def escapedChar (c : Char) : List Char :=
  match c with
  | '"' => ['\\', '"']
  | '\\' => ['\\', '\\']
  | '\x08' => ['\\', 'b']
  | '\x0c' => ['\\', 'f']
  | '\n' => ['\\', 'n']
  | '\r' => ['\\', 'r']
  | '\t' => ['\\', 't']
  | c =>
      if c.toNat < 0x20 then
        ['\\', 'u', '0', '0', Nat.digitChar (c.toNat / 16), Nat.digitChar (c.toNat % 16)]
      else [c]

def stringChars (text : String) : List Char :=
  '"' :: text.toList.flatMap escapedChar ++ ['"']

end Writer

namespace Value

mutual

/-- The text of a value that stands inside `depth` open arrays and objects. -/
def chars (layout : Layout) (depth : Nat) : Value → List Char
  | .null => ['n', 'u', 'l', 'l']
  | .bool true => ['t', 'r', 'u', 'e']
  | .bool false => ['f', 'a', 'l', 's', 'e']
  | .number value => value.chars
  | .string text => Writer.stringChars text
  | .array [] => ['[', ']']
  | .array (item :: rest) =>
      '[' :: layout.lineBreak (depth + 1) ++ item.chars layout (depth + 1) ++
        itemsChars layout (depth + 1) rest ++ layout.lineBreak depth ++ [']']
  | .object ⟨_, .nil⟩ => ['\x7b', '\x7d']
  | .object ⟨_, .cons name value rest _⟩ =>
      '\x7b' :: layout.lineBreak (depth + 1) ++ Writer.stringChars name ++ ':' ::
        layout.afterColon ++ value.chars layout (depth + 1) ++
        membersChars layout (depth + 1) rest ++ layout.lineBreak depth ++ ['\x7d']

/-- The text of the items after the first. -/
def itemsChars (layout : Layout) (depth : Nat) : List Value → List Char
  | [] => []
  | item :: rest =>
      ',' :: layout.lineBreak depth ++ item.chars layout depth ++ itemsChars layout depth rest

def membersChars (layout : Layout) (depth : Nat) :
    {names : List String} → Entries Value names → List Char
  | _, .nil => []
  | _, .cons name value rest _ =>
      ',' :: layout.lineBreak depth ++ Writer.stringChars name ++ ':' :: layout.afterColon ++
        value.chars layout depth ++ membersChars layout depth rest

end

def compact (value : Value) : String := String.ofList (value.chars .compact 0)

def pretty (value : Value) : String := String.ofList (value.chars .pretty 0)

end Value

end Json

end TableScript
