import TableScript.Json.Reader
import TableScript.Json.Writer

/-!
# Strings in JSON text

The reader of strings undoes the escapes of the writer, character by character, and
white space between tokens leaves no trace.
-/

namespace TableScript

namespace Json

namespace Writer

/-- The two hexadecimal digits of a control character are read back. -/
theorem hexUnit?_digits :
    ∀ unit < 0x20,
      Token.hexUnit? '0' '0' (Nat.digitChar (unit / 16)) (Nat.digitChar (unit % 16)) =
        some unit := by
  decide

theorem ofUnit?_toNat {c : Char} (control : c.toNat < 0x20) :
    Token.ofUnit? c.toNat = some c := by
  have plain : ¬(0xD800 ≤ c.toNat) := by omega
  unfold Token.ofUnit?
  simp [plain, Char.ofNat_toNat]

theorem character?_escapedChar (c : Char) (rest : List Char) :
    Token.character? (escapedChar c ++ rest) = some (c, rest) := by
  unfold escapedChar
  split
  · rfl
  · rfl
  · rfl
  · rfl
  · rfl
  · rfl
  · rfl
  · next noQuote noBackslash _ _ _ _ _ =>
      split
      · next control =>
          -- control characters without a letter of their own are written as units
          have digits := hexUnit?_digits c.toNat control
          have unit := ofUnit?_toNat control
          have read : Token.unit? (['\\', 'u', '0', '0', Nat.digitChar (c.toNat / 16),
              Nat.digitChar (c.toNat % 16)] ++ rest) = some (c.toNat, rest) := by
            show (Token.hexUnit? _ _ _ _).map _ = _
            rw [digits]
            rfl
          show Token.escape? (['\\', 'u', '0', '0', Nat.digitChar (c.toNat / 16),
            Nat.digitChar (c.toNat % 16)] ++ rest) = some (c, rest)
          unfold Token.escape?
          rw [read]
          simp only [unit]
      · next printable =>
          have plain : c ≠ '\\' := by
            intro same
            exact noBackslash same
          show (if c = '\\' then _ else if c.toNat < 0x20 then _ else _) = _
          rw [if_neg plain, if_neg printable]
          rfl

/-- No character is escaped as a closing quote. -/
theorem head?_escapedChar_ne (c : Char) (rest : List Char) :
    (escapedChar c ++ rest).head? ≠ some '"' := by
  unfold escapedChar
  split
  · simp
  · simp
  · simp
  · simp
  · simp
  · simp
  · simp
  · next noQuote _ _ _ _ _ _ =>
      split
      · simp
      · intro same
        exact noQuote (Option.some.inj same)

theorem content?_of_character? {text rest : List Char} {c : Char}
    (open' : text.head? ≠ some '"') (read : Token.character? text = some (c, rest)) :
    Token.content? text = (Token.content? rest).map fun found => (c :: found.1, found.2) := by
  rw [Token.content?.eq_def]
  split
  · exact absurd rfl open'
  · split
    · next failed => simp [read] at failed
    · next found =>
        rw [read] at found
        cases found
        rfl

/-- The inside of a string is read back. -/
theorem content?_escaped (text rest : List Char) :
    Token.content? (text.flatMap escapedChar ++ '"' :: rest) = some (text, rest) := by
  induction text with
  | nil =>
      rw [Token.content?.eq_def]
      rfl
  | cons c text ih =>
      have first := character?_escapedChar c (text.flatMap escapedChar ++ '"' :: rest)
      have opens := head?_escapedChar_ne c (text.flatMap escapedChar ++ '"' :: rest)
      rw [List.flatMap_cons, List.append_assoc, content?_of_character? opens first, ih]
      rfl

theorem token?_stringChars (text : String) (rest : List Char) :
    Token.token? (stringChars text ++ rest) = some (.quoted text, rest) := by
  have inside : stringChars text ++ rest =
      '"' :: (text.toList.flatMap escapedChar ++ '"' :: rest) := by
    simp [stringChars]
  rw [inside]
  show (Token.content? _).map _ = _
  rw [content?_escaped]
  simp

end Writer

namespace Token

/-- White space before a token leaves no trace. -/
theorem tokens_append_of_spaces {spaces : List Char} (all : ∀ c ∈ spaces, isSpace c = true)
    (rest : List Char) : tokens (spaces ++ rest) = tokens rest := by
  induction spaces with
  | nil => rfl
  | cons c others ih =>
      rw [List.cons_append, tokens, if_pos (all c List.mem_cons_self)]
      exact ih fun c member => all c (List.mem_cons_of_mem _ member)

theorem tokens_of_token? {c : Char} {text rest : List Char} {token : Token}
    (visible : isSpace c = false) (read : token? (c :: text) = some (token, rest)) :
    tokens (c :: text) = token :: tokens rest := by
  rw [tokens, if_neg (by simp [visible])]
  split
  · next failed => simp [read] at failed
  · next found =>
      rw [read] at found
      cases found
      rfl

theorem tokens_stringChars (text : String) (rest : List Char) :
    tokens (Writer.stringChars text ++ rest) = .quoted text :: tokens rest := by
  have read := Writer.token?_stringChars text rest
  exact tokens_of_token? rfl read

@[simp] theorem tokens_openArray (rest : List Char) :
    tokens ('[' :: rest) = .openArray :: tokens rest := tokens_of_token? rfl rfl

@[simp] theorem tokens_closeArray (rest : List Char) :
    tokens (']' :: rest) = .closeArray :: tokens rest := tokens_of_token? rfl rfl

@[simp] theorem tokens_openObject (rest : List Char) :
    tokens ('\x7b' :: rest) = .openObject :: tokens rest := tokens_of_token? rfl rfl

@[simp] theorem tokens_closeObject (rest : List Char) :
    tokens ('\x7d' :: rest) = .closeObject :: tokens rest := tokens_of_token? rfl rfl

@[simp] theorem tokens_colon (rest : List Char) :
    tokens (':' :: rest) = .colon :: tokens rest := tokens_of_token? rfl rfl

@[simp] theorem tokens_comma (rest : List Char) :
    tokens (',' :: rest) = .comma :: tokens rest := tokens_of_token? rfl rfl

end Token

end Json

end TableScript
