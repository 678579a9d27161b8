import TableScript.Proofs.Document.Script

/-!
# Lines that are passed over

Which lines of a script are read, and what its document and its error owe to the others.  Blank
lines, comments, blanks at the ends of lines and the kind of line ends leave the document of a
script as it is; they can only move the number of the line that refuses it.
-/

namespace TableScript

namespace Script

/-! ## The lines to read -/

/-- The lines to read among the lines of a script, trimmed, with their numbers. -/
def remaining (lines : List (List Char)) : List (Nat × String) :=
  ((numbered 1 (lines.map String.ofList)).map fun line => (line.1, Text.trim line.2)).filter
    fun line => isStatement line.2

theorem numberedLines_eq_remaining {script : String} {lines : List (List Char)}
    (cuts : Text.CutsInto script.toList lines) : numberedLines script = remaining lines := by
  unfold numberedLines remaining Text.lines
  rw [Text.linesOfPieces_of_cutsInto cuts]

/-- That a script has a line with this number to read: trimmed, it is neither empty nor a
comment. -/
def Remains (script : String) (number : Nat) (line : String) : Prop :=
  ∃ lines index whole, Text.CutsInto script.toList lines ∧ lines[index]? = some whole ∧
    number = index + 1 ∧ Text.TrimsTo whole line.toList ∧
    line.toList ≠ [] ∧ line.toList.head? ≠ some '#'

theorem isStatement_iff {line : String} :
    isStatement line = true ↔ line.toList ≠ [] ∧ line.toList.head? ≠ some '#' := by
  unfold isStatement
  cases line.toList with
  | nil => simp
  | cons c rest => simp

theorem mem_numbered {α : Type} {first number : Nat} {item : α} {items : List α} :
    (number, item) ∈ numbered first items ↔
      ∃ index, items[index]? = some item ∧ number = first + index := by
  induction items generalizing first with
  | nil => simp [numbered]
  | cons head rest ih =>
      rw [numbered, List.mem_cons, ih, Prod.mk.injEq]
      constructor
      · rintro (⟨rfl, rfl⟩ | ⟨index, at_index, rfl⟩)
        · exact ⟨0, rfl, rfl⟩
        · exact ⟨index + 1, at_index, by omega⟩
      · rintro ⟨_ | index, at_index, rfl⟩
        · exact .inl ⟨rfl, (Option.some.inj at_index).symm⟩
        · exact .inr ⟨index, at_index, by omega⟩

theorem ascending_numbered {α : Type} (first : Nat) (items : List α) :
    (numbered first items).Pairwise fun one other => one.1 < other.1 := by
  induction items generalizing first with
  | nil => exact .nil
  | cons head rest ih =>
      refine .cons ?_ (ih (first + 1))
      rintro ⟨number, item⟩ member
      obtain ⟨index, _, rfl⟩ := mem_numbered.mp member
      show first < first + 1 + index
      omega

theorem mem_remaining {lines : List (List Char)} {number : Nat} {line : String} :
    (number, line) ∈ remaining lines ↔ ∃ index whole, lines[index]? = some whole ∧
      number = index + 1 ∧ Text.TrimsTo whole line.toList ∧
      line.toList ≠ [] ∧ line.toList.head? ≠ some '#' := by
  unfold remaining
  rw [List.mem_filter, isStatement_iff, List.mem_map]
  constructor
  · rintro ⟨⟨⟨number, whole⟩, member, ⟨⟩⟩, counts⟩
    obtain ⟨index, at_index, rfl⟩ := mem_numbered.mp member
    obtain ⟨chars, held, rfl⟩ := Option.map_eq_some_iff.mp (List.getElem?_map ▸ at_index)
    refine ⟨index, chars, held, Nat.add_comm 1 index, ?_, counts⟩
    rw [Text.trimsTo_iff, Text.trim, String.toList_ofList, String.toList_ofList]
  · rintro ⟨index, whole, held, rfl, trims, counts⟩
    refine ⟨⟨(index + 1, String.ofList whole), ?_, ?_⟩, counts⟩
    · exact mem_numbered.mpr ⟨index, by rw [List.getElem?_map, held]; rfl, Nat.add_comm index 1⟩
    · rw [Text.trim, String.toList_ofList, Text.trimsTo_iff.mp trims, String.ofList_toList]

theorem ascending_remaining (lines : List (List Char)) :
    (remaining lines).Pairwise fun one other => one.1 < other.1 := by
  unfold remaining
  apply List.Pairwise.filter
  rw [List.pairwise_map]
  exact ascending_numbered 1 _

theorem mem_numberedLines {script : String} {number : Nat} {line : String} :
    (number, line) ∈ numberedLines script ↔ Remains script number line := by
  obtain ⟨lines, cuts⟩ := Text.exists_cutsInto script.toList
  rw [numberedLines_eq_remaining cuts, mem_remaining]
  constructor
  · rintro ⟨index, whole, here⟩
    exact ⟨lines, index, whole, cuts, here⟩
  · rintro ⟨others, index, whole, cuts', here⟩
    have same : others = lines :=
      (Text.linesOfPieces_of_cutsInto cuts').symm.trans (Text.linesOfPieces_of_cutsInto cuts)
    exact ⟨index, whole, same ▸ here⟩

theorem numbered_succ {α : Type} (first : Nat) (items : List α) :
    numbered (first + 1) items =
      (numbered first items).map fun item => (item.1 + 1, item.2) := by
  induction items generalizing first with
  | nil => rfl
  | cons head rest ih => exact congrArg ((first + 1, head) :: ·) (ih (first + 1))

/-- A further line in front moves the others down by one. -/
theorem remaining_cons (line : List Char) (rest : List (List Char)) :
    remaining (line :: rest) =
      ([(1, Text.trim (String.ofList line))].filter fun row => isStatement row.2) ++
        (remaining rest).map fun row => (row.1 + 1, row.2) := by
  have moved : ∀ rows : List (Nat × String),
      ((rows.map fun row => (row.1 + 1, row.2)).map fun row => (row.1, Text.trim row.2)).filter
          (fun row => isStatement row.2) =
        ((rows.map fun row => (row.1, Text.trim row.2)).filter fun row => isStatement row.2).map
          fun row => (row.1 + 1, row.2) := by
    intro rows
    rw [List.map_map, List.filter_map, List.filter_map, List.map_map]
    rfl
  unfold remaining
  rw [List.map_cons, numbered, numbered_succ, List.map_cons, ← List.singleton_append,
    List.filter_append, moved]

/-! ## Editing -/

/-- What happens to a line of a script: it is kept, with something in front of it and behind it,
or it is added. -/
inductive Edit where
  | keep (front line back : List Char)
  | add (line : List Char)

namespace Edit

def original? : Edit → Option (List Char)
  | keep _ line _ => some line
  | add _ => none

def edited : Edit → List Char
  | keep front line back => front ++ line ++ back
  | add line => line

/-- That only blanks are put around a line that is kept, and that a line is added only if it is
blank or a comment. -/
def Harmless : Edit → Prop
  | keep front _ back => (∀ c ∈ front, Text.isBlank c = true) ∧ ∀ c ∈ back, Text.isBlank c = true
  | add line => ∃ core, Text.TrimsTo line core ∧ (core = [] ∨ core.head? = some '#')

def addedBefore : List Edit → Nat → Nat
  | [], _ => 0
  | keep _ _ _ :: rest, number => if number ≤ 1 then 0 else addedBefore rest (number - 1)
  | add _ :: rest, number => addedBefore rest number + 1

def moved (edits : List Edit) (number : Nat) : Nat := number + addedBefore edits number

/-- A line that is kept moves no other. -/
theorem moved_keep {edits : List Edit} (front line back : List Char)
    (still : ∀ number, moved edits number = number) (number : Nat) :
    moved (keep front line back :: edits) number = number := by
  have behind := still (number - 1)
  simp only [moved, addedBefore] at behind ⊢
  split <;> omega

theorem isStatement_of_harmless_add {line : List Char} (harmless : (add line).Harmless) :
    isStatement (Text.trim (String.ofList line)) = false := by
  obtain ⟨core, trims, nothing⟩ := harmless
  rw [Bool.eq_false_iff, ne_eq, isStatement_iff, Text.trim, String.toList_ofList,
    String.toList_ofList, Text.trimsTo_iff.mp trims]
  rintro ⟨filled, noComment⟩
  exact nothing.elim filled noComment

theorem trim_of_harmless_keep {front line back : List Char}
    (harmless : (keep front line back).Harmless) :
    Text.trim (String.ofList (front ++ line ++ back)) = Text.trim (String.ofList line) := by
  unfold Text.trim
  rw [String.toList_ofList, String.toList_ofList,
    Text.trimChars_surrounded harmless.1 harmless.2]

/-- After harmless edits the same lines are read, under the numbers that they have then. -/
theorem remaining_edited {edits : List Edit} (harmless : ∀ edit ∈ edits, edit.Harmless) :
    remaining (edits.map edited) =
      (remaining (edits.filterMap original?)).map fun row => (moved edits row.1, row.2) := by
  induction edits with
  | nil => rfl
  | cons edit rest ih =>
      have here := harmless edit List.mem_cons_self
      have later := ih fun other member => harmless other (List.mem_cons_of_mem _ member)
      rw [List.map_cons, remaining_cons, later, List.map_map]
      cases edit with
      | add line =>
          have left : (add line :: rest).filterMap original? = rest.filterMap original? := rfl
          rw [edited, List.filter_cons_of_neg (by simp [isStatement_of_harmless_add here]),
            List.filter_nil, List.nil_append, left]
          exact List.map_congr_left fun _ _ => rfl
      | keep front line back =>
          have left : (keep front line back :: rest).filterMap original? =
              line :: rest.filterMap original? := rfl
          rw [edited, trim_of_harmless_keep here, left, remaining_cons, List.map_append,
            List.map_map]
          refine congrArg₂ (· ++ ·) ?_ ?_
          · -- a line that is kept in front keeps its number
            refine (List.map_id _).symm.trans (List.map_congr_left ?_)
            rintro row member
            have first := List.mem_singleton.mp (List.mem_filter.mp member).1
            rw [first]
            rfl
          · apply List.map_congr_left
            rintro ⟨number, text⟩ member
            obtain ⟨index, _, _, rfl, _⟩ := mem_remaining.mp member
            have later : ¬index + 1 + 1 ≤ 1 := by omega
            simp only [Function.comp_apply, moved, addedBefore, if_neg later, Nat.add_sub_cancel,
              Prod.mk.injEq, and_true]
            omega

end Edit

/-! ## Line ends -/

def withReturns (text : List Char) : List Char :=
  text.flatMap fun c => if c = '\n' then ['\r', '\n'] else [c]

theorem withReturns_of_notMem {line : List Char} (single : '\n' ∉ line) :
    withReturns line = line := by
  have each : ∀ c ∈ line, (if c = '\n' then ['\r', '\n'] else [c]) = [c] := by
    intro c member
    rw [if_neg]
    rintro rfl
    exact single member
  rw [withReturns, List.flatMap_congr each, List.flatMap_singleton']

theorem withReturns_append (front back : List Char) :
    withReturns (front ++ back) = withReturns front ++ withReturns back :=
  List.flatMap_append

/-- Further carriage returns keep every line of a text, with at most a blank behind it. -/
theorem exists_edits_withReturns {text : List Char} {lines : List (List Char)}
    (cuts : Text.CutsInto text lines) :
    ∃ edits : List Edit, (∀ edit ∈ edits, edit.Harmless) ∧
      edits.filterMap Edit.original? = lines ∧
      Text.CutsInto (withReturns text) (edits.map Edit.edited) ∧
      ∀ number, Edit.moved edits number = number := by
  induction cuts with
  | nothing => exact ⟨[], by simp, rfl, .nothing, fun _ => rfl⟩
  | @last line filled single =>
      refine ⟨[.keep [] line []], ?_, rfl, ?_, Edit.moved_keep [] line [] fun _ => rfl⟩
      · simp [Edit.Harmless]
      · rw [withReturns_of_notMem single]
        simpa [Edit.edited] using Text.CutsInto.last filled single
  | @feed line rest lines single _ _ ih =>
      obtain ⟨edits, harmless, original, cuts, still⟩ := ih
      refine ⟨.keep [] line [] :: edits, ?_, ?_, ?_, Edit.moved_keep [] line [] still⟩
      · simpa [Edit.Harmless] using harmless
      · rw [← original]
        rfl
      · rw [withReturns_append, withReturns_of_notMem single]
        simpa [Edit.edited, withReturns] using Text.CutsInto.returnFeed single cuts
  | @returnFeed line rest lines single _ ih =>
      -- the carriage return of the text is now a blank at the end of the line
      obtain ⟨edits, harmless, original, cuts, still⟩ := ih
      refine ⟨.keep [] line ['\r'] :: edits, ?_, ?_, ?_, Edit.moved_keep [] line ['\r'] still⟩
      · refine List.forall_mem_cons.mpr ⟨⟨by simp, ?_⟩, harmless⟩
        rw [List.forall_mem_singleton]
        decide
      · rw [← original]
        rfl
      · have single' : '\n' ∉ line ++ ['\r'] := by simp [single]
        rw [withReturns_append, withReturns_of_notMem single]
        simpa [Edit.edited, withReturns] using Text.CutsInto.returnFeed single' cuts

/-! ## Numbers matter for errors only -/

theorem parseAt_renumbered (renumber : Nat → Nat) (number : Nat) (text : String) :
    Statement.parseAt (renumber number) text =
      (Statement.parseAt number text).mapError
        fun error => { error with line := renumber error.line } := by
  unfold Statement.parseAt
  cases Grammar.statement.parse text.toList <;> rfl

theorem parseLines_renumbered (renumber : Nat → Nat) (rows : List (Nat × String)) :
    parseLines (rows.map fun row => (renumber row.1, row.2)) =
      (parseLines rows).mapError fun error => { error with line := renumber error.line } := by
  induction rows with
  | nil => rfl
  | cons row rest ih =>
      obtain ⟨number, text⟩ := row
      rw [List.map_cons, parseLines, parseLines, ih, parseAt_renumbered]
      cases Statement.parseAt number text with
      | error error => rfl
      | ok statement => cases parseLines rest <;> rfl

theorem parseLines_eq_mapM (rows : List (Nat × String)) :
    parseLines rows = rows.mapM fun row => Statement.parseAt row.1 row.2 := by
  induction rows with
  | nil => rfl
  | cons row rest ih => rw [parseLines, List.mapM_cons, ih]

theorem exists_parse_iff {number : Nat} {line : String} :
    (∃ statement, Statement.parseAt number line = .ok statement) ↔
      ∃ statement, Statement.parse line = .ok statement :=
  exists_congr fun _ => Statement.parseAt_eq_ok_iff.trans Statement.parseAt_eq_ok_iff.symm

theorem parseAt_eq_error_iff {number : Nat} {line : String} {error : SyntaxError} :
    Statement.parseAt number line = .error error ↔
      ∃ refusal, Statement.parse line = .error refusal ∧
        error = ⟨number, line, refusal.position, refusal.expected⟩ := by
  unfold Statement.parse Statement.parseAt
  cases Grammar.statement.parse line.toList <;> simp [eq_comm]

/-- Reading stops at the first line that is refused, and that line is named. -/
theorem parseLines_eq_error_iff {rows : List (Nat × String)} {error : SyntaxError} :
    parseLines rows = .error error ↔
      ∃ before number line after refusal, rows = before ++ (number, line) :: after ∧
        (∀ row ∈ before, ∃ statement, Statement.parse row.2 = .ok statement) ∧
        Statement.parse line = .error refusal ∧
        error = ⟨number, line, refusal.position, refusal.expected⟩ := by
  rw [parseLines_eq_mapM, Except.mapM_eq_error_iff]
  constructor
  · rintro ⟨before, ⟨number, line⟩, after, split, accepted, refused⟩
    obtain ⟨refusal, refused, same⟩ := parseAt_eq_error_iff.mp refused
    exact ⟨before, number, line, after, refusal, split,
      fun row member => exists_parse_iff.mp (accepted row member), refused, same⟩
  · rintro ⟨before, number, line, after, refusal, split, accepted, refused, same⟩
    exact ⟨before, (number, line), after, split,
      fun row member => exists_parse_iff.mpr (accepted row member),
      parseAt_eq_error_iff.mpr ⟨refusal, refused, same⟩⟩

theorem exists_parseLines_iff {rows : List (Nat × String)} :
    (∃ statements, parseLines rows = .ok statements) ↔
      ∀ row ∈ rows, ∃ statement, Statement.parse row.2 = .ok statement := by
  constructor
  · rintro ⟨statements, read⟩ row member
    rw [parseLines_eq_mapM] at read
    obtain ⟨statement, _, here⟩ := Related.exists_right (Except.forall₂_of_mapM_eq_ok read) member
    exact exists_parse_iff.mp ⟨statement, here⟩
  · intro accepted
    cases read : parseLines rows with
    | ok statements => exact ⟨statements, rfl⟩
    | error error =>
        obtain ⟨before, number, line, after, refusal, split, _, refused, _⟩ :=
          parseLines_eq_error_iff.mp read
        obtain ⟨statement, here⟩ := accepted (number, line) (by simp [split])
        rw [here] at refused
        cases refused

end Script

namespace Error

def renumbered (renumber : Nat → Nat) : Error → Error
  | parse error => parse { error with line := renumber error.line }
  | other => other

theorem renumbered_of_still {renumber : Nat → Nat} (still : ∀ number, renumber number = number) :
    renumbered renumber = id := by
  funext error
  cases error <;> simp [renumbered, still]

end Error

namespace Document

theorem parseLines_renumbered (renumber : Nat → Nat) (rows : List (Nat × String)) :
    parseLines (rows.map fun row => (renumber row.1, row.2)) =
      (parseLines rows).mapError (Error.renumbered renumber) := by
  unfold parseLines
  rw [Script.parseLines_renumbered]
  cases Script.parseLines rows with
  | error error => rfl
  | ok statements =>
      show (ofStatements statements).mapError _ = ((ofStatements statements).mapError _).mapError _
      cases ofStatements statements <;> rfl

/-- Statements that are read always make a document, so only a line can be refused. -/
theorem parseLines_eq_error_iff {rows : List (Nat × String)} {error : Error} :
    parseLines rows = .error error ↔
      ∃ refusal, Script.parseLines rows = .error refusal ∧ error = .parse refusal := by
  cases read : Script.parseLines rows with
  | error refusal =>
      unfold parseLines
      rw [read]
      simp [eq_comm]
  | ok statements =>
      have made := parseLines_eq_ok_iff.mpr
        ⟨statements, Script.parseLines_eq_ok_iff.mp read, rfl⟩
      rw [made]
      simp

theorem parseScript_edited {script other : String} {edits : List Script.Edit}
    (harmless : ∀ edit ∈ edits, edit.Harmless)
    (cuts : Text.CutsInto script.toList (edits.filterMap Script.Edit.original?))
    (cuts' : Text.CutsInto other.toList (edits.map Script.Edit.edited)) :
    parseScript other =
      (parseScript script).mapError (Error.renumbered (Script.Edit.moved edits)) := by
  unfold parseScript
  rw [Script.numberedLines_eq_remaining cuts', Script.Edit.remaining_edited harmless,
    parseLines_renumbered, Script.numberedLines_eq_remaining cuts]

/-- A script is read line by line.  The lines to read are, in their order and under their own
numbers, those that are neither empty nor comments once they are trimmed.  The script has a
document exactly if each of these lines is a statement, and then it is the document of these lines
alone; else the first of them that is none is reported, with its number.  Blanks around lines and
lines that are blank or comments change no document: they move the number of the line that is
reported by as many lines as are added in front of it.  Carriage returns at the line ends change
nothing at all. -/
theorem parseScript_reads_remaining_lines (script : String) :
    (Script.numberedLines script).Pairwise (fun one other => one.1 < other.1) ∧
    (∀ number line,
      (number, line) ∈ Script.numberedLines script ↔ Script.Remains script number line) ∧
    ((∃ document, parseScript script = .ok document) ↔
      ∀ row ∈ Script.numberedLines script, ∃ statement, Statement.parse row.2 = .ok statement) ∧
    (∀ document, parseScript script = .ok document ↔
      ofLines ((Script.numberedLines script).map Prod.snd) = .ok document) ∧
    (∀ error, parseScript script = .error error ↔
      ∃ before number line after refusal,
        Script.numberedLines script = before ++ (number, line) :: after ∧
        (∀ row ∈ before, ∃ statement, Statement.parse row.2 = .ok statement) ∧
        Statement.parse line = .error refusal ∧
        error = .parse ⟨number, line, refusal.position, refusal.expected⟩) ∧
    (∀ (other : String) (edits : List Script.Edit), (∀ edit ∈ edits, edit.Harmless) →
      Text.CutsInto script.toList (edits.filterMap Script.Edit.original?) →
      Text.CutsInto other.toList (edits.map Script.Edit.edited) →
      parseScript other =
        (parseScript script).mapError (Error.renumbered (Script.Edit.moved edits))) ∧
    parseScript (String.ofList (Script.withReturns script.toList)) = parseScript script := by
  obtain ⟨lines, cuts⟩ := Text.exists_cutsInto script.toList
  refine ⟨?_, fun number line => Script.mem_numberedLines, ?_, ?_, ?_, ?_, ?_⟩
  · rw [Script.numberedLines_eq_remaining cuts]
    exact Script.ascending_remaining lines
  · rw [← Script.exists_parseLines_iff]
    constructor
    · rintro ⟨document, made⟩
      obtain ⟨statements, spelled, _⟩ := parseLines_eq_ok_iff.mp made
      exact ⟨statements, Script.parseLines_eq_ok_iff.mpr spelled⟩
    · rintro ⟨statements, read⟩
      exact ⟨gather statements,
        parseLines_eq_ok_iff.mpr ⟨statements, Script.parseLines_eq_ok_iff.mp read, rfl⟩⟩
  · intro document
    unfold parseScript ofLines
    rw [parseLines_eq_ok_iff, parseLines_eq_ok_iff, Script.map_snd_numbered]
  · intro error
    unfold parseScript
    rw [parseLines_eq_error_iff]
    constructor
    · rintro ⟨_, reached, rfl⟩
      obtain ⟨before, number, line, after, refusal, split, accepted, refused, rfl⟩ :=
        Script.parseLines_eq_error_iff.mp reached
      exact ⟨before, number, line, after, refusal, split, accepted, refused, rfl⟩
    · rintro ⟨before, number, line, after, refusal, split, accepted, refused, rfl⟩
      exact ⟨_, Script.parseLines_eq_error_iff.mpr
        ⟨before, number, line, after, refusal, split, accepted, refused, rfl⟩, rfl⟩
  · intro other edits harmless cuts cuts'
    exact parseScript_edited harmless cuts cuts'
  · obtain ⟨edits, harmless, original, cuts', still⟩ := Script.exists_edits_withReturns cuts
    rw [parseScript_edited harmless (original ▸ cuts) (by rwa [String.toList_ofList]),
      Error.renumbered_of_still still]
    cases parseScript script <;> rfl

/-- A comment and a blank line in front of a refused line move its number from 2 to 4. -/
theorem comment_and_blank_line_move_error :
    let edits : List Script.Edit :=
      [.add "# c".toList, .keep "\t ".toList "push a".toList " ".toList, .add [],
        .keep " ".toList "POP x".toList []]
    (∀ edit ∈ edits, edit.Harmless) ∧
    Text.CutsInto "push a\nPOP x".toList (edits.filterMap Script.Edit.original?) ∧
    Text.CutsInto "# c\n\t push a \r\n\n POP x\r\n".toList (edits.map Script.Edit.edited) ∧
    parseScript "push a\nPOP x" = .error (.parse ⟨2, "POP x", 3, [.endOfLine]⟩) ∧
    parseScript "# c\n\t push a \r\n\n POP x\r\n" =
      .error (.parse ⟨4, "POP x", 3, [.endOfLine]⟩) := by
  intro edits
  have harmless : ∀ edit ∈ edits, edit.Harmless := by
    simp only [edits, List.forall_mem_cons, List.not_mem_nil, false_implies, implies_true,
      and_true]
    refine ⟨⟨"# c".toList, Text.trimsTo_iff.mpr (by decide), .inr (by decide)⟩,
      ⟨List.all_eq_true.mp (by decide), List.all_eq_true.mp (by decide)⟩,
      ⟨[], Text.trimsTo_iff.mpr (by decide), .inl rfl⟩,
      ⟨List.all_eq_true.mp (by decide), List.all_eq_true.mp (by decide)⟩⟩
  have cuts : Text.CutsInto "push a\nPOP x".toList (edits.filterMap Script.Edit.original?) :=
    Text.cutsInto_iff.mpr (by decide)
  have cuts' : Text.CutsInto "# c\n\t push a \r\n\n POP x\r\n".toList
      (edits.map Script.Edit.edited) := Text.cutsInto_iff.mpr (by decide)
  have refused : parseScript "push a\nPOP x" =
      .error (.parse ⟨2, "POP x", 3, [.endOfLine]⟩) := rfl
  refine ⟨harmless, cuts, cuts', refused, ?_⟩
  obtain ⟨_, _, _, _, _, edited, _⟩ := parseScript_reads_remaining_lines "push a\nPOP x"
  rw [edited _ edits harmless cuts cuts', refused]
  rfl

end Document

end TableScript
