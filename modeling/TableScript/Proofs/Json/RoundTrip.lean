import TableScript.Proofs.Json.Strings
import TableScript.Proofs.Map.Ordered
import TableScript.Tree.Json

/-!
# Trees through JSON text

A node is written as a text whose tokens do not depend on the layout, and these
tokens are read back as the JSON value of the node, as long as it is not nested more
deeply than the reader allows.  The JSON value in turn stands for the node.
-/

namespace TableScript

open Json

namespace Node

/-! ## Nodes as tokens -/

mutual

def tokens : Node → List Token
  | .scalar text => [.quoted text]
  | .map ⟨_, .nil⟩ => [.openObject, .closeObject]
  | .map ⟨_, .cons key value rest _⟩ =>
      .openObject :: .quoted key :: .colon :: value.tokens ++ entriesTokens rest ++ [.closeObject]
  | .seq [] => [.openArray, .closeArray]
  | .seq (item :: rest) => .openArray :: item.tokens ++ itemsTokens rest ++ [.closeArray]

def entriesTokens {keys : List String} : Entries Node keys → List Token
  | .nil => []
  | .cons key value rest _ =>
      .comma :: .quoted key :: .colon :: value.tokens ++ entriesTokens rest

def itemsTokens : List Node → List Token
  | [] => []
  | item :: rest => .comma :: item.tokens ++ itemsTokens rest

end

mutual

/-- How many mappings and sequences stand inside each other. -/
def height : Node → Nat
  | .scalar _ => 0
  | .map ⟨_, entries⟩ => entriesHeight entries + 1
  | .seq items => itemsHeight items + 1

def entriesHeight {keys : List String} : Entries Node keys → Nat
  | .nil => 0
  | .cons _ value rest _ => max value.height (entriesHeight rest)

def itemsHeight : List Node → Nat
  | [] => 0
  | item :: rest => max item.height (itemsHeight rest)

end

end Node

/-! ## From text to tokens -/

structure Json.Layout.Blank (layout : Layout) : Prop where
  lineBreak : ∀ depth, ∀ c ∈ layout.lineBreak depth, Token.isSpace c = true
  afterColon : ∀ c ∈ layout.afterColon, Token.isSpace c = true

theorem Json.Layout.pretty_blank : Layout.pretty.Blank := by
  constructor
  · intro depth c member
    have kind : c = '\n' ∨ c = ' ' := by
      simp only [Layout.pretty, List.mem_cons, List.mem_replicate] at member
      tauto
    obtain same | same := kind
    · subst same
      rfl
    · subst same
      rfl
  · intro c member
    have same : c = ' ' := List.mem_singleton.mp member
    subst same
    rfl

namespace Node

variable {layout : Layout}

mutual

/-- The text of a node has the tokens of the node. -/
theorem tokens_chars (blank : layout.Blank) (depth : Nat) (rest : List Char) :
    ∀ node : Node,
      Token.tokens (node.toJson.chars layout depth ++ rest) = node.tokens ++ Token.tokens rest
  | .scalar text => Token.tokens_stringChars text rest
  | .map ⟨_, .nil⟩ => by simp [toJson, entriesToJson, Value.chars, tokens]
  | .map ⟨_, .cons key value others _⟩ => by
      simp only [toJson, entriesToJson, Value.chars, tokens, List.append_assoc, List.cons_append,
        List.nil_append, Token.tokens_openObject, Token.tokens_colon,
        Token.tokens_append_of_spaces (blank.lineBreak _), Token.tokens_stringChars,
        Token.tokens_append_of_spaces blank.afterColon, tokens_chars blank _ _ value,
        tokens_membersChars blank _ _ others, Token.tokens_closeObject]
  | .seq [] => by simp [toJson, itemsToJson, Value.chars, tokens]
  | .seq (item :: others) => by
      simp only [toJson, itemsToJson, Value.chars, tokens, List.append_assoc, List.cons_append,
        List.nil_append, Token.tokens_openArray, Token.tokens_append_of_spaces (blank.lineBreak _),
        tokens_chars blank _ _ item, tokens_itemsChars blank _ _ others, Token.tokens_closeArray]

theorem tokens_membersChars (blank : layout.Blank) (depth : Nat) (rest : List Char) :
    ∀ {keys : List String} (entries : Entries Node keys),
      Token.tokens (Value.membersChars layout depth (entriesToJson entries) ++ rest) =
        entriesTokens entries ++ Token.tokens rest
  | _, .nil => rfl
  | _, .cons key value others _ => by
      simp only [entriesToJson, Value.membersChars, entriesTokens, List.append_assoc,
        List.cons_append, Token.tokens_comma, Token.tokens_colon,
        Token.tokens_append_of_spaces (blank.lineBreak _), Token.tokens_stringChars,
        Token.tokens_append_of_spaces blank.afterColon, tokens_chars blank _ _ value,
        tokens_membersChars blank _ _ others]

theorem tokens_itemsChars (blank : layout.Blank) (depth : Nat) (rest : List Char) :
    ∀ items : List Node,
      Token.tokens (Value.itemsChars layout depth (itemsToJson items) ++ rest) =
        itemsTokens items ++ Token.tokens rest
  | [] => rfl
  | item :: others => by
      simp only [itemsToJson, Value.itemsChars, itemsTokens, List.append_assoc, List.cons_append,
        Token.tokens_comma, Token.tokens_append_of_spaces (blank.lineBreak _),
        tokens_chars blank _ _ item, tokens_itemsChars blank _ _ others]

end

/-! ## From tokens to values -/

theorem tokens_ne_closeArray (node : Node) (rest : List Token) :
    ∀ others, node.tokens ++ rest ≠ .closeArray :: others := by
  intro others same
  match node with
  | .scalar _ => cases same
  | .map ⟨_, .nil⟩ => cases same
  | .map ⟨_, .cons _ _ _ _⟩ => cases same
  | .seq [] => cases same
  | .seq (_ :: _) => cases same

theorem readValue_openArray {stack : List Frame} {rest : List Token}
    (filled : ∀ others, rest ≠ .closeArray :: others) (room : stack.length < maxDepth) :
    readValue stack (.openArray :: rest) = readValue (.array [] :: stack) rest := by
  match rest with
  | [] => exact if_pos room
  | token :: rest =>
      cases token with
      | closeArray => exact absurd rfl (filled rest)
      | _ => exact if_pos room

mutual

/-- The tokens of a node are read as its JSON value. -/
theorem readValue_tokens :
    ∀ (node : Node) (stack : List Frame) (rest : List Token),
      stack.length + node.height ≤ maxDepth →
        readValue stack (node.tokens ++ rest) = resume node.toJson stack rest
  | .scalar text, stack, rest, _ => rfl
  | .map ⟨_, .nil⟩, stack, rest, room => by
      have below : stack.length < maxDepth := by
        simp only [height, entriesHeight] at room
        omega
      show (if stack.length < maxDepth then _ else _) = _
      rw [if_pos below]
      rfl
  | .map ⟨_, .cons key value others fresh⟩, stack, rest, room => by
      simp only [height, entriesHeight] at room
      have below : stack.length < maxDepth := by omega
      have inside : (Frame.object .empty key :: stack).length + value.height ≤ maxDepth := by
        simp only [List.length_cons]
        omega
      -- the members that were read one by one are the entries, since no key repeats
      have built : ((OrderedMap.empty : OrderedMap Value).insert key value.toJson).insertAll
          (entriesToJson others).toList = ⟨_, entriesToJson (.cons key value others fresh)⟩ :=
        OrderedMap.ofList_toList ⟨_, entriesToJson (.cons key value others fresh)⟩
      have opened : readValue stack ((Node.map ⟨_, .cons key value others fresh⟩).tokens ++ rest) =
          if stack.length < maxDepth then
            readValue (.object .empty key :: stack)
              (value.tokens ++ (entriesTokens others ++ .closeObject :: rest))
          else none := by
        simp only [tokens, List.append_assoc, List.cons_append, List.nil_append]
        rfl
      rw [opened, if_pos below, readValue_tokens value _ _ inside,
        resume_entriesTokens others value.toJson .empty key stack rest (by omega), built]
      rfl
  | .seq [], stack, rest, room => by
      have below : stack.length < maxDepth := by
        simp only [height, itemsHeight] at room
        omega
      show (if stack.length < maxDepth then _ else _) = _
      rw [if_pos below]
      rfl
  | .seq (item :: others), stack, rest, room => by
      simp only [height, itemsHeight] at room
      have below : stack.length < maxDepth := by omega
      have inside : (Frame.array [] :: stack).length + item.height ≤ maxDepth := by
        simp only [List.length_cons]
        omega
      simp only [tokens, List.append_assoc, List.cons_append, List.nil_append]
      rw [readValue_openArray (tokens_ne_closeArray item _) below,
        readValue_tokens item _ _ inside,
        resume_itemsTokens others item.toJson [] stack rest (by omega)]
      rfl

theorem resume_entriesTokens :
    ∀ {keys : List String} (entries : Entries Node keys) (value : Value)
      (members : OrderedMap Value) (name : String) (outer : List Frame) (rest : List Token),
      outer.length + 1 + entriesHeight entries ≤ maxDepth →
        resume value (.object members name :: outer)
            (entriesTokens entries ++ .closeObject :: rest) =
          resume (.object ((members.insert name value).insertAll (entriesToJson entries).toList))
            outer rest
  | _, .nil, value, members, name, outer, rest, _ => rfl
  | _, .cons key item others fresh, value, members, name, outer, rest, room => by
      simp only [entriesHeight] at room
      have inside : (Frame.object (members.insert name value) key :: outer).length + item.height ≤
          maxDepth := by
        simp only [List.length_cons]
        omega
      have next : resume value (.object members name :: outer)
            (entriesTokens (.cons key item others fresh) ++ .closeObject :: rest) =
          readValue (.object (members.insert name value) key :: outer)
            (item.tokens ++ (entriesTokens others ++ .closeObject :: rest)) := by
        simp only [entriesTokens, List.append_assoc, List.cons_append]
        rfl
      rw [next, readValue_tokens item _ _ inside,
        resume_entriesTokens others item.toJson _ key outer rest (by omega)]
      rfl

theorem resume_itemsTokens :
    ∀ (items : List Node) (value : Value) (read : List Value) (outer : List Frame)
      (rest : List Token),
      outer.length + 1 + itemsHeight items ≤ maxDepth →
        resume value (.array read :: outer) (itemsTokens items ++ .closeArray :: rest) =
          resume (.array ((value :: read).reverse ++ itemsToJson items)) outer rest
  | [], value, read, outer, rest, _ => by
      rw [itemsToJson, List.append_nil]
      rfl
  | item :: others, value, read, outer, rest, room => by
      simp only [itemsHeight] at room
      have inside : (Frame.array (value :: read) :: outer).length + item.height ≤ maxDepth := by
        simp only [List.length_cons]
        omega
      have next : resume value (.array read :: outer)
            (itemsTokens (item :: others) ++ .closeArray :: rest) =
          readValue (.array (value :: read) :: outer)
            (item.tokens ++ (itemsTokens others ++ .closeArray :: rest)) := by
        simp only [itemsTokens, List.append_assoc, List.cons_append]
        rfl
      rw [next, readValue_tokens item _ _ inside,
        resume_itemsTokens others item.toJson _ outer rest (by omega)]
      simp [itemsToJson]

end

/-- The JSON text of a node is read back, in any layout. -/
theorem parse?_chars (blank : layout.Blank) {node : Node} (room : node.height ≤ maxDepth) :
    Json.parse? (String.ofList (node.toJson.chars layout 0)) = some node.toJson := by
  rw [Json.parse?_eq_some_iff]
  unfold Json.parseFirst?
  have lexed := tokens_chars blank 0 [] node
  have empty : Token.tokens [] = [] := by rw [Token.tokens]
  rw [List.append_nil, empty] at lexed
  rw [String.toList_ofList, lexed, readValue_tokens node [] [] (by simpa using room)]
  rfl

/-! ## From values to nodes -/

mutual

theorem ofJson_toJson : ∀ node : Node, ofJson node.toJson = .ok node
  | .scalar text => rfl
  | .map ⟨_, entries⟩ => by
      simp only [toJson, ofJson, entriesOfJson_toJson entries]
      rfl
  | .seq items => by
      simp only [toJson, ofJson, itemsOfJson_toJson items]
      rfl

theorem entriesOfJson_toJson :
    ∀ {keys : List String} (entries : Entries Node keys),
      entriesOfJson (entriesToJson entries) = .ok entries
  | _, .nil => rfl
  | _, .cons key value rest _ => by
      simp only [entriesToJson, entriesOfJson, ofJson_toJson value, entriesOfJson_toJson rest]
      rfl

theorem itemsOfJson_toJson :
    ∀ items : List Node, itemsOfJson (itemsToJson items) = .ok items
  | [] => rfl
  | item :: rest => by
      simp only [itemsToJson, itemsOfJson, ofJson_toJson item, itemsOfJson_toJson rest]
      rfl

end

end Node

namespace Tree

def height (tree : Tree) : Nat := (Node.map tree).height

theorem ofJson_toJson (tree : Tree) : ofJson tree.toJson = .ok tree := by
  obtain ⟨keys, entries⟩ := tree
  simp only [toJson, Node.toJson, ofJson, Node.entriesOfJson_toJson entries]
  rfl

theorem parse?_pretty {tree : Tree} (room : tree.height ≤ maxDepth) :
    Json.parse? tree.toJson.pretty = some tree.toJson :=
  Node.parse?_chars Layout.pretty_blank room

end Tree

end TableScript
