import TableScript.Proofs.Grammar.Language

/-!
# Grammars that one character decides

Reading takes the first alternative that reads and gives nothing back, so in general
it misses texts that a grammar denotes.  It misses none where the next character
always decides: a run of characters is not followed by one of its own, an optional
or repeated part begins otherwise than what follows it, and no alternative denotes
the beginning of a text of another.  `Grammar.Predictive` says so of a grammar and
of the characters that may follow its texts, and `parse_complete` is the converse
of `parse_sound` for such grammars.
-/

namespace TableScript

namespace Grammar

variable {α β : Type}

/-! ## What texts begin with -/

def nullable : {α : Type} → Grammar α → Bool
  | _, .literal text => text.toList.isEmpty
  | _, .keyword text => text.toList.isEmpty
  | _, .run _ => false
  | _, .endOfText => true
  | _, .map _ inner => inner.nullable
  | _, .both first second => first.nullable && second.nullable
  | _, .orElse first second => first.nullable || second.nullable
  | _, .optional _ => true
  | _, .many _ => true
  | _, .rule _ inner => inner.nullable

def first : {α : Type} → Grammar α → Set Char
  | _, .literal text => {c | c ∈ text.toList.head?}
  | _, .keyword text => {c | ∃ letter ∈ text.toList.head?, letter.toLower = c.toLower}
  | _, .run charset => {c | charset c}
  | _, .endOfText => ∅
  | _, .map _ inner => inner.first
  | _, .both start more => {c | c ∈ start.first ∨ start.nullable ∧ c ∈ more.first}
  | _, .orElse one other => one.first ∪ other.first
  | _, .optional inner => inner.first
  | _, .many inner => inner.first
  | _, .rule _ inner => inner.first

/-- The characters that can come next where a grammar is read before one of `next`. -/
def opening (grammar : Grammar α) (next : Set Char) : Set Char :=
  {c | c ∈ grammar.first ∨ grammar.nullable ∧ c ∈ next}

/-- Whether a text is empty or begins with a character of a set. -/
def Opens (set : Set Char) (text : List Char) : Prop := ∀ c ∈ text.head?, c ∈ set

theorem opens_cons {set : Set Char} {c : Char} (member : c ∈ set) (rest : List Char) :
    Opens set (c :: rest) := by
  rintro d ⟨⟩
  exact member

theorem opens_append {set : Set Char} {text rest : List Char} (start : Opens set text)
    (empty : text = [] → Opens set rest) : Opens set (text ++ rest) := by
  cases text with
  | nil => exact empty rfl
  | cons c text => exact start

theorem nullable_of_nil_mem {grammar : Grammar α} {value : α}
    (empty : [] ∈ grammar.denotes value) : grammar.nullable = true := by
  induction grammar with
  | literal word =>
      have same : [] = word.toList := empty
      rw [nullable, ← same]
      rfl
  | keyword word =>
      have same : [].map Char.toLower = word.toList.map Char.toLower := empty
      have letters : word.toList = [] := List.map_eq_nil_iff.mp same.symm
      rw [nullable, letters]
      rfl
  | run charset => exact absurd rfl empty.2.1
  | endOfText => rfl
  | map f inner ih =>
      obtain ⟨read, _, member⟩ := mem_denotes_map.mp empty
      exact ih member
  | both one two ihOne ihTwo =>
      obtain ⟨start, startMem, more, moreMem, split⟩ := Language.mem_mul.mp empty
      obtain ⟨rfl, rfl⟩ := List.append_eq_nil_iff.mp split
      simp [nullable, ihOne startMem, ihTwo moreMem]
  | orElse one two ihOne ihTwo =>
      rcases (Language.mem_add _ _ _).mp empty with inOne | inTwo
      · simp [nullable, ihOne inOne]
      · simp [nullable, ihTwo inTwo]
  | optional inner ih => rfl
  | many inner ih => rfl
  | rule part inner ih => exact ih empty

theorem opens_of_mem_prod {language : α → Language Char} {set : Set Char}
    (opens : ∀ {value text}, text ∈ language value → Opens set text)
    {values : List α} {text : List Char} (member : text ∈ (values.map language).prod) :
    Opens set text := by
  induction values generalizing text with
  | nil =>
      have empty : text = [] := member
      simp [empty, Opens]
  | cons value values ih =>
      rw [List.map_cons, List.prod_cons] at member
      obtain ⟨start, startMem, more, moreMem, rfl⟩ := Language.mem_mul.mp member
      exact opens_append (opens startMem) fun _ => ih moreMem

/-- The first character of a text is one of those that `first` names. -/
theorem opens_of_mem {grammar : Grammar α} {value : α} {text : List Char}
    (member : text ∈ grammar.denotes value) : Opens grammar.first text := by
  induction grammar generalizing text with
  | literal word =>
      have same : text = word.toList := member
      simp [Opens, first, same]
  | keyword word =>
      have same : text.map Char.toLower = word.toList.map Char.toLower := member
      intro c head
      have heads := congrArg List.head? same
      simp only [List.head?_map] at heads
      rw [Option.mem_def.mp head] at heads
      cases letter : word.toList.head? with
      | none => simp [letter] at heads
      | some d =>
          rw [letter] at heads
          exact ⟨d, letter, (Option.some.inj heads).symm⟩
  | run charset =>
      obtain ⟨_, _, inside⟩ := member
      exact fun c head => inside c (List.mem_of_mem_head? head)
  | endOfText =>
      have empty : text = [] := member
      simp [empty, Opens]
  | map f inner ih =>
      obtain ⟨read, _, inInner⟩ := mem_denotes_map.mp member
      exact ih inInner
  | both one two ihOne ihTwo =>
      obtain ⟨start, startMem, more, moreMem, rfl⟩ := Language.mem_mul.mp member
      refine opens_append (fun c head => .inl (ihOne startMem c head)) ?_
      intro empty c head
      subst empty
      exact .inr ⟨nullable_of_nil_mem startMem, ihTwo moreMem c head⟩
  | orElse one two ihOne ihTwo =>
      rcases (Language.mem_add _ _ _).mp member with inOne | inTwo
      · exact fun c head => .inl (ihOne inOne c head)
      · exact fun c head => .inr (ihTwo inTwo c head)
  | optional inner ih =>
      cases value with
      | none =>
          have empty : text = [] := member
          simp [empty, Opens]
      | some value => exact ih member
  | many inner ih => exact opens_of_mem_prod ih member
  | rule part inner ih => exact ih member

theorem opens_opening {grammar : Grammar α} {value : α} {text rest : List Char} {next : Set Char}
    (member : text ∈ grammar.denotes value) (follows : Opens next rest) :
    Opens (grammar.opening next) (text ++ rest) := by
  refine opens_append (fun c head => .inl (opens_of_mem member c head)) ?_
  intro empty c head
  subst empty
  exact .inr ⟨nullable_of_nil_mem member, follows c head⟩

/-! ## Predictive grammars -/

/-- Whether no text of one grammar begins a text of another, or the other way
round. -/
def Excludes (one : Grammar α) (other : Grammar β) : Prop :=
  ∀ {value : α} {value' : β} {text text' : List Char}, text ∈ one.denotes value →
    text' ∈ other.denotes value' → ¬ (text <+: text' ∨ text' <+: text)

/-- Whether the next character decides how a grammar is read, where one of `next` or
nothing follows. -/
def Predictive : {α : Type} → Grammar α → Set Char → Prop
  | _, .literal _, _ => True
  | _, .keyword _, _ => True
  | _, .run charset, next => ∀ c ∈ next, charset c = false
  | _, .endOfText, next => next = ∅
  | _, .map _ inner, next => inner.Predictive next
  | _, .both start more, next => start.Predictive (more.opening next) ∧ more.Predictive next
  | _, .orElse one other, next =>
      one.Predictive next ∧ other.Predictive next ∧ one.Excludes other
  | _, .optional inner, next =>
      inner.Predictive next ∧ inner.nullable = false ∧ Disjoint inner.first next
  | _, .many inner, next =>
      inner.Predictive (inner.first ∪ next) ∧ inner.nullable = false ∧ Disjoint inner.first next
  | _, .rule _ inner, next => inner.Predictive next

theorem dropStart?_append {same : Char → Char → Bool} {start text : List Char}
    (agree : List.Forall₂ (fun expected c => same expected c = true) start text)
    (rest : List Char) : dropStart? same start (text ++ rest) = some rest := by
  induction agree with
  | nil => rfl
  | cons agrees _ ih => simp [dropStart?, agrees, ih]

theorem forall₂_sameLetter {word text : List Char}
    (same : text.map Char.toLower = word.map Char.toLower) :
    List.Forall₂ (fun expected c => sameLetter expected c = true) word text := by
  induction word generalizing text with
  | nil => simp_all
  | cons letter word ih =>
      cases text with
      | nil => simp at same
      | cons c text =>
          simp only [List.map_cons, List.cons.injEq] at same
          exact .cons (by simp [sameLetter, same.1]) (ih same.2)

theorem takeWhile_append_of_opens {charset : Char → Bool} {text rest : List Char} {next : Set Char}
    (inside : ∀ c ∈ text, charset c = true) (outside : ∀ c ∈ next, charset c = false)
    (follows : Opens next rest) :
    (text ++ rest).takeWhile charset = text ∧ (text ++ rest).dropWhile charset = rest := by
  rw [List.takeWhile_append_of_pos inside, List.dropWhile_append_of_pos inside]
  cases rest with
  | nil => simp
  | cons c rest => simp [outside c (follows c rfl)]

/-- A grammar that needs another first character does not read. -/
theorem parse_eq_none {grammar : Grammar α} {next : Set Char} {text : List Char}
    (some_text : grammar.nullable = false) (apart : Disjoint grammar.first next)
    (opens : Opens next text) : grammar.parse text = none := by
  cases parsed : grammar.parse text with
  | none => rfl
  | some found =>
      obtain ⟨read, member, split⟩ := parse_sound parsed
      cases read with
      | nil => simp [nullable_of_nil_mem member] at some_text
      | cons c read =>
          have inFirst : c ∈ grammar.first := opens_of_mem member c rfl
          have inNext : c ∈ next := opens c (by simp [← split])
          exact absurd inNext (Set.disjoint_left.mp apart inFirst)

theorem repeated_complete {inner : Grammar α} {next : Set Char}
    (some_text : inner.nullable = false) (apart : Disjoint inner.first next)
    (complete : ∀ {value text rest}, text ∈ inner.denotes value →
      Opens (inner.first ∪ next) rest → inner.parse (text ++ rest) = some (value, rest))
    {values : List α} {text rest : List Char}
    (member : text ∈ (values.map inner.denotes).prod) (follows : Opens next rest) :
    repeated inner.parse (text ++ rest) = (values, rest) := by
  induction values generalizing text with
  | nil =>
      have empty : text = [] := member
      rw [repeated]
      simp [empty, parse_eq_none some_text apart follows]
  | cons value values ih =>
      rw [List.map_cons, List.prod_cons] at member
      obtain ⟨start, startMem, more, moreMem, rfl⟩ := Language.mem_mul.mp member
      have startLength : start ≠ [] := by
        intro empty
        subst empty
        simp [nullable_of_nil_mem startMem] at some_text
      have opens : Opens (inner.first ∪ next) (more ++ rest) :=
        opens_append (fun c head => .inl (opens_of_mem_prod opens_of_mem moreMem c head))
          fun _ c head => .inr (follows c head)
      rw [repeated, List.append_assoc, complete startMem opens]
      have shorter : (more ++ rest).length < (start ++ (more ++ rest)).length := by
        have := List.length_pos_iff.mpr startLength
        simp only [List.length_append]
        omega
      simp only [shorter, if_true, ih moreMem]

/-- A grammar does not read where a text of another stands that it excludes: what it read would
begin that text, or the text would begin it. -/
theorem parse_eq_none_of_excludes {one : Grammar α} {other : Grammar β} {value : β}
    {text : List Char} (excludes : one.Excludes other) (member : text ∈ other.denotes value)
    (rest : List Char) : one.parse (text ++ rest) = none := by
  cases parsed : one.parse (text ++ rest) with
  | none => rfl
  | some found =>
      obtain ⟨read, readMem, split⟩ := parse_sound parsed
      have comparable := List.prefix_or_prefix_of_prefix
        (List.prefix_append read found.2) (split ▸ List.prefix_append text rest)
      exact absurd comparable (excludes readMem member)

/-- A predictive grammar reads every text that it denotes, up to its end. -/
theorem parse_complete {grammar : Grammar α} {next : Set Char} {value : α}
    {text rest : List Char} (predictive : grammar.Predictive next)
    (member : text ∈ grammar.denotes value) (follows : Opens next rest) :
    grammar.parse (text ++ rest) = some (value, rest) := by
  induction grammar generalizing next text rest with
  | literal word =>
      have same : text = word.toList := member
      have agree : List.Forall₂ (fun expected c => (expected == c) = true) word.toList text := by
        rw [same, List.forall₂_same]
        exact fun c _ => beq_self_eq_true c
      simp [parse, dropStart?_append agree rest]
  | keyword word => simp [parse, dropStart?_append (forall₂_sameLetter member) rest]
  | run charset =>
      obtain ⟨rfl, some_char, inside⟩ := member
      obtain ⟨taken, dropped⟩ := takeWhile_append_of_opens inside predictive follows
      simp [parse, taken, dropped, some_char]
  | endOfText =>
      have empty : text = [] := member
      have nothing : next = ∅ := predictive
      have ends : rest = [] := by
        cases rest with
        | nil => rfl
        | cons c rest => simpa [nothing] using follows c rfl
      simp [parse, empty, ends]
  | map f inner ih =>
      obtain ⟨read, rfl, inInner⟩ := mem_denotes_map.mp member
      simp [parse, ih predictive inInner follows]
  | both one two ihOne ihTwo =>
      obtain ⟨start, startMem, more, moreMem, rfl⟩ := Language.mem_mul.mp member
      have before := ihOne predictive.1 startMem (opens_opening moreMem follows)
      have after := ihTwo predictive.2 moreMem follows
      rw [List.append_assoc]
      simp [parse, before, after]
  | orElse one two ihOne ihTwo =>
      obtain ⟨predictOne, predictTwo, excludes⟩ := predictive
      rcases (Language.mem_add _ _ _).mp member with inOne | inTwo
      · simp [parse, ihOne predictOne inOne follows]
      · simp [parse, parse_eq_none_of_excludes excludes inTwo rest,
          ihTwo predictTwo inTwo follows]
  | optional inner ih =>
      obtain ⟨predictInner, some_text, apart⟩ := predictive
      cases value with
      | none =>
          have empty : text = [] := member
          simp [parse, empty, parse_eq_none some_text apart follows]
      | some value => simp [parse, ih predictInner member follows]
  | many inner ih =>
      obtain ⟨predictInner, some_text, apart⟩ := predictive
      have all := repeated_complete some_text apart (ih predictInner) member follows
      simp [parse, all]
  | rule part inner ih => exact ih predictive member follows

end Grammar

end TableScript
