import TableScript.Error
import TableScript.Json.Reader
import TableScript.Json.Writer

/-!
# Trees and JSON

Every node has a JSON value, in which all scalars are strings.  In the other
direction a JSON number or truth value becomes a scalar with its text, and `null`
has no node.
-/

namespace TableScript

namespace Node

mutual

def toJson : Node → Json.Value
  | .scalar text => .string text
  | .map ⟨_, entries⟩ => .object ⟨_, entriesToJson entries⟩
  | .seq items => .array (itemsToJson items)

def entriesToJson {keys : List String} : Entries Node keys → Entries Json.Value keys
  | .nil => .nil
  | .cons key value rest fresh => .cons key value.toJson (entriesToJson rest) fresh

def itemsToJson : List Node → List Json.Value
  | [] => []
  | item :: rest => item.toJson :: itemsToJson rest

end

mutual

def ofJson : Json.Value → Except DocumentError Node
  | .null => .error (.unsupportedValue "null")
  | .bool value => .ok (.scalar (if value then "true" else "false"))
  | .number value => .ok (.scalar value.text)
  | .string text => .ok (.scalar text)
  | .array items => (itemsOfJson items).map .seq
  | .object ⟨_, members⟩ => (entriesOfJson members).map fun entries => .map ⟨_, entries⟩

def entriesOfJson {keys : List String} :
    Entries Json.Value keys → Except DocumentError (Entries Node keys)
  | .nil => .ok .nil
  | .cons key member rest fresh => do
      let value ← ofJson member
      let others ← entriesOfJson rest
      return .cons key value others fresh

def itemsOfJson : List Json.Value → Except DocumentError (List Node)
  | [] => .ok []
  | item :: rest => do
      let value ← ofJson item
      let others ← itemsOfJson rest
      return value :: others

end

def jsonText (node : Node) : String := node.toJson.compact

/-- A node as messages show it: a scalar by its text, any other node as JSON. -/
def display : Node → String
  | .scalar text => text
  | other => other.jsonText

end Node

namespace Tree

def toJson (tree : Tree) : Json.Value := (Node.map tree).toJson

def jsonText (tree : Tree) : String := (Node.map tree).jsonText

/-- The tree that a JSON value stands for, which must be an object. -/
def ofJson : Json.Value → Except DocumentError Tree
  | .object ⟨_, members⟩ => (Node.entriesOfJson members).map fun entries => ⟨_, entries⟩
  | _ => .error (.wrongKind "document" "a mapping" none)

end Tree

end TableScript
