import TableScript.Proofs.Grammar.Edges
import TableScript.Proofs.Grammar.Lexeme
import TableScript.Proofs.Grammar.Plain

/-!
# Normal lines

A line is normalized without being read: its keyword is put in capitals, its gaps are made single
spaces, and in a join or an inclusion the key lists are kept apart by a space and a column that is
named as itself is named once.  The line that is written for what a line says is the normal form of
that line.
-/

namespace TableScript

open Grammar (isGapChar isNameChar Opens opens_cons opens_append)

def pairingKeywords : List String := ["JOIN", "INCLUSION"]

/-- The normal form of a line: its keyword in capitals, and what stands behind it with single
spaces, settled if the keyword says that tables are paired. -/
def normalForm (line : String) : String :=
  let keyword := String.ofList ((line.toList.takeWhile fun c => !isGapChar c).map Char.toUpper)
  let operands := line.toList.dropWhile fun c => !isGapChar c
  keyword ++
    String.ofList (if keyword ∈ pairingKeywords then settled operands else oneSpaced operands)

open Spelling

/-! ## Rewriting the texts of a language -/

namespace Spelling

/-- That a rewriting makes the same text of all texts of a language, with anything behind them
that begins with a character of a set. -/
def Rewrites (rewrite : List Char → List Char) (next : Set Char) (language : Language Char)
    (written : List Char) : Prop :=
  ∀ text ∈ language, ∀ rest, Opens next rest → rewrite (text ++ rest) = written ++ rewrite rest

def Starts (set : Set Char) (language : Language Char) : Prop :=
  ∀ text ∈ language, text ≠ [] ∧ Opens set text

variable {rewrite : List Char → List Char} {mid next : Set Char} {first second : Language Char}
  {front back : List Char}

theorem Starts.mul (starts : Starts next first) (second : Language Char) :
    Starts next (first * second) := by
  intro text member
  obtain ⟨one, inFirst, other, _, rfl⟩ := Language.mem_mul.mp member
  obtain ⟨filled, opens⟩ := starts one inFirst
  exact ⟨by simp [filled], opens_append opens fun empty => absurd empty filled⟩

theorem starts_word {text : String} (filled : text.toList ≠ []) (opens : Opens next text.toList) :
    Starts next (word text) := by
  rintro _ rfl
  exact ⟨filled, opens⟩

theorem starts_mark {mark : String} {c : Char} (same : mark.toList = [c]) (inSet : c ∈ next) :
    Starts next (word mark) :=
  starts_word (by simp [same]) (same ▸ opens_cons inSet [])

theorem startsVisibly_name (value : String) : Starts blanksᶜ (name value) :=
  fun text member => ⟨(items_name value text member).1, (items_name value text member).2.visible⟩

theorem startsVisibly_projection (column : Projection) : Starts blanksᶜ (projection column) := by
  rw [projection_eq]
  exact (startsVisibly_name _).mul _

theorem Rewrites.mul (one : Rewrites rewrite mid first front)
    (other : Rewrites rewrite next second back)
    (opens : ∀ text ∈ second, ∀ rest, Opens next rest → Opens mid (text ++ rest)) :
    Rewrites rewrite next (first * second) (front ++ back) := by
  intro text member rest follows
  obtain ⟨text, inFirst, more, inSecond, rfl⟩ := Language.mem_mul.mp member
  rw [List.append_assoc, List.append_assoc, one text inFirst _ (opens more inSecond rest follows),
    other more inSecond rest follows]

theorem Rewrites.mul_starts (one : Rewrites rewrite mid first front)
    (other : Rewrites rewrite next second back) (starts : Starts mid second) :
    Rewrites rewrite next (first * second) (front ++ back) := by
  refine one.mul other fun text member rest follows => ?_
  obtain ⟨filled, opens⟩ := starts text member
  exact opens_append opens fun empty => absurd empty filled

theorem Rewrites.mul_any (one : Rewrites rewrite Set.univ first front)
    (other : Rewrites rewrite next second back) :
    Rewrites rewrite next (first * second) (front ++ back) :=
  one.mul other fun _ _ _ _ _ _ => trivial

theorem Rewrites.one : Rewrites rewrite next 1 [] := by
  intro text member rest _
  rw [(Language.mem_one text).mp member]
  rfl

/-- Whatever the gaps of a list are like, its items are written with a comma and a space between
them. -/
theorem Rewrites.separated {α : Type} {item : α → Language Char} {write : α → String}
    {listed : List α} (comma : ',' ∈ next)
    (gapped : Rewrites rewrite blanksᶜ (word "," * gap) ", ".toList)
    (starts : ∀ value, Starts blanksᶜ (item value))
    (each : ∀ value, Rewrites rewrite next (item value) (write value).toList) :
    Rewrites rewrite next (separated item listed)
      (Text.joined ", " (listed.map write)).toList := by
  induction listed with
  | nil => exact fun text member => absurd member (Language.notMem_zero text)
  | cons value others ih =>
      rw [separated_cons, List.map_cons, toList_joined_cons]
      cases others with
      | nil =>
          have none : Rewrites rewrite next (following item []) (further []) := Rewrites.one
          refine (each value).mul none fun text member rest follows => ?_
          rw [(Language.mem_one text).mp member]
          exact follows
      | cons another others =>
          have listedVisibly : Starts blanksᶜ (Spelling.separated item (another :: others)) :=
            separated_cons item another others ▸ (starts another).mul _
          have behind := gapped.mul_starts ih listedVisibly
          rw [mul_assoc] at behind
          refine (each value).mul behind fun text member rest _ => ?_
          obtain ⟨_, rfl, tail, _, rfl⟩ := Language.mem_mul.mp member
          exact opens_cons comma _

/-! ## Single spaces -/

def Spaces (language : Language Char) (written : List Char) : Prop :=
  Rewrites oneSpaced Set.univ language written

theorem Spaces.mul (one : Spaces first front) (other : Spaces second back) :
    Spaces (first * second) (front ++ back) :=
  one.mul_any other

theorem Spaces.one : Spaces 1 [] := Rewrites.one

theorem spaces_of_unspaced {written : List Char} (same : ∀ text ∈ first, text = written)
    (unspaced : ∀ text ∈ first, Unspaced text) : Spaces first written := by
  intro text member rest _
  rw [oneSpaced_append (unspaced text member), same text member]

theorem spaces_word (text : String) (unspaced : Unspaced text.toList) :
    Spaces (word text) text.toList :=
  spaces_of_unspaced (fun _ same => same) fun _ same => same ▸ unspaced

theorem spaces_name (value : String) : Spaces (name value) value.toList :=
  spaces_of_unspaced (fun _ member => member.1) fun text member => (items_name value text member).2

theorem spaces_url (value : String) : Spaces (url value) value.toList :=
  spaces_of_unspaced (fun _ member => member.1) fun _ member => member.1 ▸ member.2.2

theorem rewrites_gap : Rewrites oneSpaced blanksᶜ gap [' '] := by
  intro text member rest visible
  unfold oneSpaced
  rw [Lexeme.ofText_gap member visible]
  rfl

theorem Spaces.gap_mul (behind : Spaces first back) (starts : Starts blanksᶜ first) :
    Spaces (gap * first) (' ' :: back) :=
  rewrites_gap.mul_starts behind starts

theorem Spaces.spaced_mul (behind : Spaces first back) (text : String) (filled : text.toList ≠ [])
    (unspaced : Unspaced text.toList) (starts : Starts blanksᶜ first) :
    Spaces (spaced text * first) (' ' :: (text.toList ++ ' ' :: back)) := by
  simp only [spaced, mul_assoc]
  exact ((spaces_word text unspaced).mul (behind.gap_mul starts)).gap_mul
    ((starts_word filled unspaced.visible).mul _)

theorem spaces_names (listed : List String) :
    Spaces (names listed) (Listing.names listed).toList := by
  have comma : Rewrites oneSpaced blanksᶜ (word "," * gap) ", ".toList :=
    Rewrites.mul_any (spaces_word "," (by decide)) rewrites_gap
  have spaces : Spaces (names listed) (Text.joined ", " (listed.map id)).toList :=
    Rewrites.separated (Set.mem_univ _) comma startsVisibly_name spaces_name
  rwa [List.map_id] at spaces

theorem spaces_columns (listed : List String) :
    Spaces (columns listed) ('[' :: ((Listing.names listed).toList ++ "]".toList)) := by
  unfold columns
  rw [mul_assoc]
  exact (spaces_word "[" (by decide)).mul ((spaces_names listed).mul (spaces_word "]" (by decide)))

theorem spaces_reference (it : Reference) : Spaces (reference it) it.text.toList :=
  spaces_of_unspaced (fun _ member => (wellFormed_of_mem_reference member).2)
    fun text member => (items_reference it text member).2

theorem startsVisibly_reference (it : Reference) : Starts blanksᶜ (reference it) :=
  fun text member =>
    ⟨(items_reference it text member).1, (items_reference it text member).2.visible⟩

theorem spaces_asName (result : Option String) :
    Spaces (asName result) (Listing.asName result).toList := by
  cases result with
  | none => exact Spaces.one
  | some target =>
      rw [toList_asName]
      exact (spaces_name target).spaced_mul "AS" (by decide) (by decide) (startsVisibly_name target)

end Spelling

/-- What stands behind the keyword of a step that pairs no tables comes to what is written there. -/
theorem Step.spaces_operands {step : Step} (single : step.keyword ∉ pairingKeywords) :
    Spaces step.operands step.operandText := by
  cases step with
  | push table => exact (spaces_name table).gap_mul (startsVisibly_name table)
  | pop => exact Spaces.one
  | duplicate => exact Spaces.one
  | commit table columns =>
      rw [Step.operands, mul_assoc]
      cases columns with
      | none =>
          have table_alone := ((spaces_name table).mul Spaces.one).gap_mul
            ((startsVisibly_name table).mul _)
          rwa [List.append_nil] at table_alone
      | some columns =>
          exact ((spaces_name table).mul (spaces_columns columns)).gap_mul
            ((startsVisibly_name table).mul _)
  | join pairing => exact absurd (by decide : "JOIN" ∈ pairingKeywords) single
  | inclusion pairing => exact absurd (by decide : "INCLUSION" ∈ pairingKeywords) single
  | accumulate column call result =>
      obtain ⟨called, arguments⟩ := call
      simp only [Step.operands, Spelling.call, mul_assoc]
      have applied := (spaces_name called).mul ((spaces_word "(" (by decide)).mul
        ((spaces_names arguments).mul ((spaces_word ")" (by decide)).mul (spaces_asName result))))
      have clause := applied.spaced_mul "USING" (by decide) (by decide)
        ((startsVisibly_name called).mul _)
      exact ((spaces_name column).mul clause).gap_mul ((startsVisibly_name column).mul _)
  | pull reference target =>
      simp only [Step.operands, mul_assoc]
      have clause := (spaces_name target).spaced_mul "AS" (by decide) (by decide)
        (startsVisibly_name target)
      exact ((spaces_reference reference).mul clause).gap_mul
        ((startsVisibly_reference reference).mul _)

/-- What stands behind the keyword of a statement that pairs no tables comes to what is written
there. -/
theorem Statement.spaces_operands {statement : Statement}
    (single : statement.keyword ∉ pairingKeywords) :
    Spaces statement.operands statement.operandText := by
  cases statement with
  | expects table columns =>
      rw [operands, mul_assoc]
      exact ((spaces_name table).mul (spaces_columns columns)).gap_mul
        ((startsVisibly_name table).mul _)
  | attach located named =>
      have starts : Starts blanksᶜ (url located) :=
        fun text member => ⟨member.1 ▸ member.2.1, Unspaced.visible (member.1 ▸ member.2.2)⟩
      simp only [operands, mul_assoc]
      have clause := (spaces_name named).spaced_mul "AS" (by decide) (by decide)
        (startsVisibly_name named)
      exact ((spaces_url located).mul clause).gap_mul (starts.mul _)
  | action it =>
      cases it with
      | step it => exact it.spaces_operands single
      | invoke rule => exact (spaces_reference rule).gap_mul (startsVisibly_reference rule)
      | unrecognized name => exact fun text member => absurd member (Language.notMem_zero text)

/-! ## Settled texts -/

namespace Spelling

open Lexeme (settleAll settleAll_gap settleAll_name settleAll_mark settle_name settle_mark
  settle_name_of_head? head?_settleAll_ne_gap ofText)

def marks : Set Char := {c | isNameChar c = false ∧ isGapChar c = false}

variable {text rest : List Char}

theorem nameless_of_marks (opens : Opens marks text) : Opens {c | isNameChar c = false} text :=
  fun c head => (opens c head).1

theorem visible_of_marks (opens : Opens marks text) : Opens blanksᶜ text := by
  intro c head blank
  have noGap := (opens c head).2
  rw [Lexeme.isGapChar_eq_true_iff.mpr blank] at noGap
  cases noGap

theorem nameless_of_blanks (opens : Opens blanks text) : Opens {c | isNameChar c = false} text :=
  fun c head => Grammar.isNameChar_of_isGapChar (Lexeme.isGapChar_eq_true_iff.mpr (opens c head))

theorem opens_blanks_of_gap {blank : List Char} (member : blank ∈ gap) (rest : List Char) :
    Opens blanks (blank ++ rest) := by
  obtain ⟨filled, each⟩ := member
  exact opens_append (fun c head => each c (List.mem_of_mem_head? head))
    fun empty => absurd empty filled

theorem settles_name (value : String) : Rewrites settled marks (name value) value.toList := by
  rintro text ⟨rfl, isName⟩ rest follows
  unfold settled
  rw [settleAll_name isName (nameless_of_marks follows),
    settle_name_of_head? (head?_settleAll_ne_gap (visible_of_marks follows))]
  rfl

theorem settles_mark {mark : String} {c : Char} (same : mark.toList = [c])
    (noComma : c ≠ ',') (isMark : c ∈ marks) :
    Rewrites settled Set.univ (word mark) mark.toList := by
  rintro text rfl rest _
  unfold settled
  rw [same, List.singleton_append, settleAll_mark isMark.2 isMark.1, settle_mark (.inl noComma)]
  rfl

theorem settles_comma_gap : Rewrites settled blanksᶜ (word "," * gap) ", ".toList := by
  intro text member rest visible
  obtain ⟨_, rfl, blank, inGap, rfl⟩ := Language.mem_mul.mp member
  have comma : ",".toList ++ blank ++ rest = ',' :: (blank ++ rest) := rfl
  unfold settled
  rw [comma, settleAll_mark rfl rfl, settleAll_gap inGap visible, settle_mark (.inr (by simp))]
  rfl

/-- The key lists are kept apart, whether they were or not. -/
theorem settles_comma_bracket :
    Rewrites settled Set.univ (word "," * ((1 + gap) * word "[")) ", [".toList := by
  intro text member rest _
  obtain ⟨_, rfl, tail, inTail, rfl⟩ := Language.mem_mul.mp member
  obtain ⟨blank, either, _, rfl, rfl⟩ := Language.mem_mul.mp inTail
  have bracket : settleAll (ofText ('[' :: rest)) = .mark '[' :: settleAll (ofText rest) := by
    rw [settleAll_mark rfl rfl, settle_mark (.inl (by decide))]
  rcases (Language.mem_add _ _ _).mp either with none | inGap
  · rw [(Language.mem_one blank).mp none]
    have comma : ",".toList ++ ([] ++ "[".toList) ++ rest = ',' :: '[' :: rest := rfl
    unfold settled
    rw [comma, settleAll_mark rfl rfl, bracket]
    rfl
  · have comma : ",".toList ++ (blank ++ "[".toList) ++ rest = ',' :: (blank ++ '[' :: rest) := by
      simp
    unfold settled
    rw [comma, settleAll_mark rfl rfl, settleAll_gap inGap (opens_cons (by decide) _), bracket,
      settle_mark (.inr (by simp))]
    rfl

theorem settleAll_spaced {text spelled : List Char} {word : String} (isName : IsName word)
    (member : spelled ∈ spaced word) (visible : Opens blanksᶜ text) :
    settleAll (ofText (spelled ++ text)) =
      .gap :: Lexeme.settle (.name word.toList) (.gap :: settleAll (ofText text)) := by
  obtain ⟨front, inFront, blank, inGap, rfl⟩ := Language.mem_mul.mp member
  obtain ⟨start, inStart, _, rfl, rfl⟩ := Language.mem_mul.mp inFront
  have regroup : start ++ word.toList ++ blank ++ text =
      start ++ (word.toList ++ (blank ++ text)) := by simp
  have named : Opens blanksᶜ (word.toList ++ (blank ++ text)) :=
    opens_append (unspaced_of_isName isName).visible fun empty => absurd empty isName.1
  have gapped := nameless_of_blanks (opens_blanks_of_gap inGap text)
  rw [regroup, settleAll_gap inStart named, settleAll_name isName gapped,
    settleAll_gap inGap visible]

/-- A word stays if no name follows it. -/
theorem settles_spaced (text : String) (isName : IsName text) :
    Rewrites settled marks (spaced text) (' ' :: (text.toList ++ [' '])) := by
  intro spelled member rest follows
  have noClause : (Lexeme.gap :: settleAll (ofText rest)).take 4 ≠
      [.gap, .name "AS".toList, .gap, .name text.toList] := by
    have nameless := Lexeme.head?_ofText_ne_name (nameless_of_marks follows) "AS".toList
    rw [← Lexeme.head?_settleAll] at nameless
    intro same
    cases lexemes : settleAll (ofText rest) with
    | nil => simp [lexemes] at same
    | cons lexeme others => simp_all
  unfold settled
  rw [settleAll_spaced isName member (visible_of_marks follows), settle_name noClause]
  simp [Lexeme.render, Lexeme.text]

/-- The lexemes of a clause that names a column, behind the column. -/
theorem settleAll_clause {column : Projection} {clause : List Char}
    (member : clause ∈ spaced "AS" * name column.target) (follows : Opens marks rest) :
    settleAll (ofText (clause ++ rest)) =
      .gap :: .name "AS".toList :: .gap :: .name column.target.toList ::
        settleAll (ofText rest) := by
  obtain ⟨front, inFront, _, ⟨rfl, isTarget⟩, rfl⟩ := Language.mem_mul.mp member
  have noGap := head?_settleAll_ne_gap (visible_of_marks follows)
  have target : settleAll (ofText (column.target.toList ++ rest)) =
      .name column.target.toList :: settleAll (ofText rest) := by
    rw [settleAll_name isTarget (nameless_of_marks follows), settle_name_of_head? noGap]
  have visible : Opens blanksᶜ (column.target.toList ++ rest) :=
    opens_append (unspaced_of_isName isTarget).visible fun empty => absurd empty isTarget.1
  -- `AS` is no column that is named here, for no further gap follows the name
  have noClause : (Lexeme.gap :: .name column.target.toList :: settleAll (ofText rest)).take 4 ≠
      [.gap, .name "AS".toList, .gap, .name "AS".toList] := by
    intro same
    cases lexemes : settleAll (ofText rest) with
    | nil => simp [lexemes] at same
    | cons lexeme others => simp_all
  rw [List.append_assoc, settleAll_spaced (by decide) inFront visible, target,
    settle_name noClause]

/-- A column is written with its name behind `AS` only if it gets another one. -/
theorem settles_projection (column : Projection) :
    Rewrites settled marks (projection column) (Listing.projection column).toList := by
  intro text member rest follows
  rw [toList_projection]
  unfold asClause
  rcases (Language.mem_add _ _ _).mp member with full | short
  · rw [mul_assoc] at full
    obtain ⟨_, ⟨rfl, isSource⟩, clause, inClause, rfl⟩ := Language.mem_mul.mp full
    have behind := settleAll_clause inClause follows
    obtain ⟨blank, others, rfl, isBlank⟩ := exists_blank_of_gap (by
      simpa only [spaced, mul_assoc] using inClause)
    have opens : Opens blanks (blank :: others ++ rest) := opens_cons isBlank _
    unfold settled
    rw [List.append_assoc, settleAll_name isSource (nameless_of_blanks opens), behind]
    split
    · next same => simp [Lexeme.settle, same, Lexeme.render, Lexeme.text]
    · next differs =>
        have apart : column.target.toList ≠ column.source.toList :=
          fun same => differs (String.toList_inj.mp same).symm
        simp [Lexeme.settle, apart, Lexeme.render, Lexeme.text]
  · split at short
    · next same =>
        rw [if_pos same, List.append_nil]
        exact settles_name column.source text short rest follows
    · exact absurd short (Language.notMem_zero text)

theorem settles_names (listed : List String) :
    Rewrites settled marks (names listed) (Listing.names listed).toList := by
  have comma : ',' ∈ marks := ⟨rfl, rfl⟩
  have settles : Rewrites settled marks (names listed)
      (Text.joined ", " (listed.map id)).toList :=
    Rewrites.separated comma settles_comma_gap startsVisibly_name settles_name
  rwa [List.map_id] at settles

theorem settles_open : Rewrites settled Set.univ (word "[") "[".toList :=
  settles_mark (c := '[') rfl (by decide) ⟨rfl, rfl⟩

theorem settles_close : Rewrites settled Set.univ (word "]") "]".toList :=
  settles_mark (c := ']') rfl (by decide) ⟨rfl, rfl⟩

theorem starts_open : Starts marks (word "[") := starts_mark (c := '[') rfl ⟨rfl, rfl⟩

theorem starts_close : Starts marks (word "]") := starts_mark (c := ']') rfl ⟨rfl, rfl⟩

theorem settles_includes (listed : List Projection) :
    Rewrites settled Set.univ (includes listed) (includesText listed) := by
  cases listed with
  | nil => exact Rewrites.one
  | cons first rest =>
      have columns : Rewrites settled marks (Spelling.separated projection (first :: rest))
          (written (first :: rest)) :=
        Rewrites.separated ⟨rfl, rfl⟩ settles_comma_gap startsVisibly_projection settles_projection
      have closed := columns.mul_starts settles_close starts_close
      have clause := (settles_spaced "INCLUDE" (by decide)).mul_starts
        (settles_open.mul_any closed) (starts_open.mul _)
      simpa [includes, includesText, mul_assoc] using clause

theorem starts_keys (left right : List String) : Starts marks (keys left right) := by
  simp only [keys, mul_assoc]
  exact starts_open.mul _

theorem settles_keys (left right : List String) :
    Rewrites settled Set.univ (keys left right)
      ('[' :: '[' :: ((Listing.names left).toList ++ ']' :: ',' :: ' ' :: '[' ::
        ((Listing.names right).toList ++ "]]".toList))) := by
  have second := (settles_names right).mul_starts (settles_close.mul_any settles_close)
    (starts_close.mul _)
  have first := (settles_names left).mul_starts
    (settles_close.mul_any (settles_comma_bracket.mul_any second)) (starts_close.mul _)
  have both := settles_open.mul_any (settles_open.mul_any first)
  simpa [keys, mul_assoc] using both

theorem settles_pairing (it : Pairing) :
    Rewrites settled Set.univ (pairing it) (Listing.pairing it).toList := by
  have keyed := (settles_keys it.leftKeys it.rightKeys).mul_any (settles_includes it.projections)
  have whole := (settles_spaced "USING" (by decide)).mul_starts keyed
    ((starts_keys it.leftKeys it.rightKeys).mul _)
  rw [toList_pairing, keysText, pairing, mul_assoc]
  simpa using whole

end Spelling

/-! ## Normal lines -/

theorem Grammar.keywords_capital :
    ∀ keyword ∈ Grammar.keywords, keyword.toList.map Char.toUpper = keyword.toList := by
  decide

/-- Capitals that are put in lower case come back. -/
theorem toUpper_toLower (c : Char) : c.toLower.toUpper = c.toUpper := by
  by_cases capital : 'A'.val ≤ c.val ∧ c.val ≤ 'Z'.val
  · have letters : ∀ number ≤ 'Z'.toNat,
        (Char.ofNat number).toLower.toUpper = (Char.ofNat number).toUpper := by decide
    have back := letters c.toNat capital.2
    rwa [Char.ofNat_toNat] at back
  · rw [toLower_eq_self capital]

theorem map_toUpper_of_mem_anyCase {keyword : String} (known : keyword ∈ Grammar.keywords)
    {text : List Char} (member : text ∈ Grammar.anyCase keyword) :
    text.map Char.toUpper = keyword.toList := by
  have lower : text.map Char.toLower = keyword.toList.map Char.toLower := member
  have upper := congrArg (List.map Char.toUpper) lower
  simp only [List.map_map, Function.comp_def, toUpper_toLower] at upper
  rw [upper, Grammar.keywords_capital keyword known]

theorem Step.operands_open {step : Step} {text : List Char} (member : text ∈ step.operands) :
    Opens blanks text := by
  cases step with
  | pop | duplicate =>
      rw [(Language.mem_one text).mp member]
      simp [Opens]
  | _ =>
      simp only [operands, pairing, spaced, mul_assoc] at member
      obtain ⟨c, others, rfl, isBlank⟩ := exists_blank_of_gap member
      exact opens_cons isBlank others

namespace Statement

variable {statement : Statement} {text : List Char}

theorem operands_open (member : text ∈ statement.operands) : Opens blanks text := by
  cases statement with
  | action it =>
      cases it with
      | step it => exact it.operands_open member
      | invoke rule =>
          obtain ⟨c, others, rfl, isBlank⟩ := exists_blank_of_gap member
          exact opens_cons isBlank others
      | unrecognized name => exact absurd member (Language.notMem_zero text)
  | _ =>
      simp only [operands, mul_assoc] at member
      obtain ⟨c, others, rfl, isBlank⟩ := exists_blank_of_gap member
      exact opens_cons isBlank others

theorem settles_operands (pairs : statement.keyword ∈ pairingKeywords) :
    Rewrites settled Set.univ statement.operands statement.operandText := by
  rcases statement with _ | _ | ((_ | _ | _ | _ | pairing | pairing | _ | _) | _ | _)
  case action.step.join => exact settles_pairing pairing
  case action.step.inclusion => exact settles_pairing pairing
  all_goals simp [keyword, Step.keyword, pairingKeywords] at pairs

/-- A line is cut behind its keyword at the first blank. -/
theorem cut_of_spells {line : String} (spells : statement.Spells line) :
    ((line.toList.takeWhile fun c => !isGapChar c).map Char.toUpper = statement.keyword.toList) ∧
      (line.toList.dropWhile fun c => !isGapChar c) ∈ statement.operands := by
  have known := Grammar.keyword_mem_keywords spells
  obtain ⟨front, inKeyword, back, inOperands, same⟩ := Language.mem_mul.mp spells
  have clear : ∀ c ∈ front, (!isGapChar c) = true := by
    intro c member
    have letter := isAlpha_of_mem_anyCase (Grammar.keywords_letters _ known).2 inKeyword c member
    have inName : isNameChar c = true := by simp [isNameChar, isAlphanum_of_isAlpha letter]
    rw [Grammar.isGapChar_of_isNameChar inName]
    rfl
  have opens := operands_open inOperands
  have stops : back.takeWhile (fun c => !isGapChar c) = [] ∧
      back.dropWhile (fun c => !isGapChar c) = back := by
    cases back with
    | nil => exact ⟨rfl, rfl⟩
    | cons c others =>
        have inGap : isGapChar c = true := Lexeme.isGapChar_eq_true_iff.mpr (opens c rfl)
        simp [inGap]
  rw [← same, List.takeWhile_append_of_pos clear, List.dropWhile_append_of_pos clear, stops.1,
    stops.2, List.append_nil]
  exact ⟨map_toUpper_of_mem_anyCase known inKeyword, inOperands⟩

/-- What a line spells is written as the normal form of the line. -/
theorem line_eq_normalForm {line : String} (spells : statement.Spells line) :
    statement.line = .ok (normalForm line) := by
  obtain ⟨written, writes, _⟩ := spells_line (wellFormed_of_spells spells)
  obtain ⟨capitals, inOperands⟩ := cut_of_spells spells
  have nothing : Opens Set.univ [] := by simp [Opens]
  rw [writes, Except.ok.injEq, ← String.toList_inj, toList_line writes]
  unfold normalForm
  simp only [capitals, String.ofList_toList, String.toList_append, String.toList_ofList]
  congr 1
  split
  · next pairs =>
      have settles := settles_operands pairs _ inOperands [] nothing
      rw [List.append_nil] at settles
      exact (settles.trans (List.append_nil _)).symm
  · next single =>
      have spaces := spaces_operands single _ inOperands [] nothing
      rw [List.append_nil] at spaces
      exact (spaces.trans (List.append_nil _)).symm

/-- Whatever a line is read as is written as the normal form of the line, which is read as the same
statement and is its own normal form. -/
theorem writes_normal_form {line : String} (read : parse line = .ok statement) :
    statement.line = .ok (normalForm line) ∧ parse (normalForm line) = .ok statement ∧
      normalForm (normalForm line) = normalForm line := by
  have spells := spells_of_parse read
  have writes := line_eq_normalForm spells
  obtain ⟨written, writes', spells'⟩ := spells_line (wellFormed_of_spells spells)
  have same : written = normalForm line := Except.ok.inj (writes'.symm.trans writes)
  rw [same] at spells'
  exact ⟨writes, parse_of_spells spells',
    Except.ok.inj ((line_eq_normalForm spells').symm.trans writes)⟩

/-- Capitals, gaps, key lists and a column that is named as itself. -/
theorem join_written_normally :
    let line := "join \t USING [[a,  b],[x, y]] INCLUDE [p AS p, q  AS r, p AS t]"
    let normal := "JOIN USING [[a, b], [x, y]] INCLUDE [p, q AS r, p AS t]"
    let join := Statement.action (.step (.join ⟨["a", "b"], ["x", "y"],
      [⟨"p", "p"⟩, ⟨"q", "r"⟩, ⟨"p", "t"⟩]⟩))
    parse line = .ok join ∧ normalForm line = normal ∧ join.line = .ok normal ∧
      parse normal = .ok join ∧ normalForm normal = normal := by
  intro line normal join
  have read : parse line = .ok join := by decide +kernel
  have normalized : normalForm line = normal := by decide +kernel
  obtain ⟨writes, again, itself⟩ := writes_normal_form read
  rw [normalized] at writes again itself
  exact ⟨read, normalized, writes, again, itself⟩

end Statement

end TableScript
