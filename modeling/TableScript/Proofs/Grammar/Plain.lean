import TableScript.Proofs.Grammar.Cut
import TableScript.Proofs.Grammar.Statement

/-!
# Plain statements

A statement is plain if none of its names and no URL of it holds a blank, and if it commits a
whole table, the name of the table no opening bracket.  The line that is written for a plain
statement spells nothing else, whatever characters its names hold and whether they are empty:
for a line that spells a statement at all has no brackets, parentheses or colons but those of
the statement, and no gap but where the statement has one.
-/

namespace TableScript

open Grammar (Opens opens_append opens_cons)

namespace Spelling

variable {text front back : List Char} {rest : Language Char}

/-! ## Parts -/

theorem mem_of_word_behind {item : Language Char} {word : String}
    (member : text ++ word.toList ∈ item * Spelling.word word) : text ∈ item := by
  obtain ⟨read, inItem, tail, rfl, same⟩ := Language.mem_mul.mp member
  rw [← (List.append_inj' same rfl).1]
  exact inItem

theorem exists_of_mem_word_mul {word : String} (member : text ∈ Spelling.word word * rest) :
    ∃ tail ∈ rest, text = word.toList ++ tail := by
  obtain ⟨_, rfl, tail, inRest, same⟩ := Language.mem_mul.mp member
  exact ⟨tail, inRest, same.symm⟩

/-- A table is cut from its columns. -/
theorem columns_cut {table target : String} {listed others : List String}
    (unspaced : ∀ value ∈ listed, Unspaced value.toList)
    (member : table.toList ++ '[' :: ((Listing.names listed).toList ++ "]".toList) ∈
      name target * columns others) : table = target ∧ listed = others := by
  obtain ⟨read, inName, tail, inColumns, same⟩ := Language.mem_mul.mp member
  simp only [columns, mul_assoc] at inColumns
  obtain ⟨list, inList, rfl⟩ := exists_of_mem_word_mul inColumns
  have closed : '[' ∉ list := by
    obtain ⟨inner, inNames, bracket, rfl, rfl⟩ := Language.mem_mul.mp inList
    rw [List.mem_append, not_or]
    exact ⟨(unmarked_names others).notMem inNames rfl, by decide⟩
  obtain ⟨tables, rfl⟩ := cut_at same.symm ((unmarked_name target).notMem inName rfl) closed
  exact ⟨String.toList_inj.mp (tables.trans inName.1),
    names_eq_of_written unspaced (mem_of_word_behind inList)⟩

theorem toList_reference (it : Reference) :
    it.text.toList = it.space.toList ++ ':' :: (it.name.toList ++ ':' :: it.version.toList) := by
  simp [Reference.text, String.toList_append]

/-- A reference is spelled by its text only, and only if it is well-formed. -/
theorem wellFormed_of_mem_reference {it : Reference} (member : text ∈ reference it) :
    it.WellFormed ∧ text = it.text.toList := by
  simp only [reference, mul_assoc] at member
  obtain ⟨_, ⟨rfl, isSpace⟩, behind, inBehind, rfl⟩ := Language.mem_mul.mp member
  obtain ⟨second, inSecond, rfl⟩ := exists_of_mem_word_mul inBehind
  obtain ⟨_, ⟨rfl, isNamed⟩, last, inLast, rfl⟩ := Language.mem_mul.mp inSecond
  obtain ⟨_, ⟨rfl, isVersion⟩, rfl⟩ := exists_of_mem_word_mul inLast
  exact ⟨⟨isSpace, isNamed, isVersion⟩, (toList_reference it).symm⟩

/-- A reference is cut at its colons, of which a spelled one has two. -/
theorem reference_cut {it other : Reference} (member : it.text.toList ∈ reference other) :
    it = other := by
  obtain ⟨space, named, version⟩ := it
  obtain ⟨space', named', version'⟩ := other
  obtain ⟨⟨isSpace, isNamed, isVersion⟩, split⟩ := wellFormed_of_mem_reference member
  simp only [toList_reference] at split
  have colons := congrArg (List.count ':') split
  have none : ∀ {value}, IsName value → value.toList.count ':' = 0 := fun isName =>
    List.count_eq_zero.mpr ((unmarked_name _).notMem ⟨rfl, isName⟩ rfl)
  simp only [List.count_append, List.count_cons_self, none isSpace, none isNamed,
    none isVersion] at colons
  have inSpace : ':' ∉ space.toList := List.count_eq_zero.mp (by omega)
  have inNamed : ':' ∉ named.toList := List.count_eq_zero.mp (by omega)
  obtain ⟨spaces, behind⟩ := cut_at_first split inSpace
    ((unmarked_name _).notMem ⟨rfl, isSpace⟩ rfl)
  obtain ⟨names, versions⟩ := cut_at_first behind inNamed
    ((unmarked_name _).notMem ⟨rfl, isNamed⟩ rfl)
  rw [String.toList_inj.mp spaces, String.toList_inj.mp names, String.toList_inj.mp versions]

/-! ## Calls -/

theorem toList_asName (target : String) :
    (Listing.asName (some target)).toList = ' ' :: ("AS".toList ++ ' ' :: target.toList) := by
  simp [Listing.asName, String.toList_append]

theorem asName_cut {result other : Option String}
    (unspaced : ∀ target ∈ result, Unspaced target.toList)
    (member : (Listing.asName result).toList ∈ asName other) : result = other := by
  cases result with
  | none =>
      cases other with
      | none => rfl
      | some target =>
          simp only [asName, spaced, mul_assoc] at member
          obtain ⟨_, _, same, _⟩ := exists_blank_of_gap member
          cases same
  | some target =>
      rw [toList_asName] at member
      cases other with
      | none => exact absurd member (List.cons_ne_nil _ _)
      | some name =>
          have inName := mem_of_spaced (by decide) (by decide) member (unspaced target rfl).visible
          rw [String.toList_inj.mp inName.1]

/-- A call is cut at its parentheses. -/
theorem call_cut {it other : Call} {result target : Option String}
    (arguments : ∀ value ∈ it.arguments, Unspaced value.toList)
    (unspaced : ∀ name ∈ result, Unspaced name.toList)
    (member : it.name.toList ++ '(' :: ((Listing.names it.arguments).toList ++
      ')' :: (Listing.asName result).toList) ∈ call other * asName target) :
    it = other ∧ result = target := by
  obtain ⟨called, listed⟩ := it
  obtain ⟨called', listed'⟩ := other
  simp only [call, mul_assoc] at member
  obtain ⟨read, inName, behind, inBehind, same⟩ := Language.mem_mul.mp member
  obtain ⟨inner, inInner, rfl⟩ := exists_of_mem_word_mul inBehind
  obtain ⟨list, inNames, last, inLast, rfl⟩ := Language.mem_mul.mp inInner
  obtain ⟨clause, inClause, rfl⟩ := exists_of_mem_word_mul inLast
  have closed : '(' ∉ list ++ (")".toList ++ clause) := by
    rw [List.mem_append, List.mem_append, not_or, not_or]
    exact ⟨(unmarked_names listed').notMem inNames rfl, by decide,
      (unmarked_asName target).notMem inClause rfl⟩
  obtain ⟨names, inside⟩ := cut_at same.symm ((unmarked_name called').notMem inName rfl) closed
  obtain ⟨rfl, rfl⟩ := cut_at inside ((unmarked_names listed').notMem inNames rfl)
    ((unmarked_asName target).notMem inClause rfl)
  have sameName : called = called' := String.toList_inj.mp (names.trans inName.1)
  have sameArguments : listed = listed' := names_eq_of_written arguments inNames
  exact ⟨by rw [sameName, sameArguments], asName_cut unspaced inClause⟩

/-! ## Pairings -/

def includesText : List Projection → List Char
  | [] => []
  | listed => ' ' :: ("INCLUDE".toList ++ ' ' :: '[' :: (written listed ++ "]".toList))

theorem includes_cut {columns listed : List Projection}
    (unspaced : ∀ column ∈ columns, UnspacedNames column)
    (member : includesText columns ∈ includes listed) : columns = listed := by
  cases columns with
  | nil =>
      cases listed with
      | nil => rfl
      | cons column others =>
          simp only [includes, spaced, mul_assoc] at member
          obtain ⟨_, _, same, _⟩ := exists_blank_of_gap member
          cases same
  | cons first rest =>
      cases listed with
      | nil => exact absurd member (List.cons_ne_nil _ _)
      | cons column others =>
          simp only [includes, mul_assoc] at member
          have visible : Opens blanksᶜ ('[' :: (written (first :: rest) ++ "]".toList)) :=
            opens_cons (by decide) _
          have inBrackets := mem_of_spaced (by decide) (by decide) member visible
          have inList : written (first :: rest) ++ "]".toList ∈
              separated projection (column :: others) * word "]" := by
            have split : "[".toList ++ (written (first :: rest) ++ "]".toList) ∈
              word "[" * (separated projection (column :: others) * word "]") := inBrackets
            exact mem_of_word split
          exact eq_of_written unspaced (mem_of_word_behind inList)

theorem includes_opens {listed : List Projection} (member : text ∈ includes listed) :
    Opens blanks text := by
  cases listed with
  | nil =>
      have empty : text = [] := member
      simp [Opens, empty]
  | cons column others =>
      simp only [includes, spaced, mul_assoc] at member
      obtain ⟨c, others, rfl, blank⟩ := exists_blank_of_gap member
      exact opens_cons blank others

/-- A blank in a written list follows a comma. -/
theorem blanks_follow_commas {listed : List String}
    (unspaced : ∀ value ∈ listed, Unspaced value.toList) :
    (Listing.names listed).toList.IsChain fun c d => d ∈ blanks → c = ',' := by
  induction listed with
  | nil => exact .nil
  | cons first rest ih =>
      have clear := (unspaced first List.mem_cons_self).notMem_blanks
      unfold Listing.names at ih ⊢
      rw [toList_joined_cons]
      refine List.IsChain.append ?_ ?_ ?_
      · refine (List.pairwise_of_forall_mem_list ?_).isChain
        exact fun c _ d member blank => absurd blank (clear d member)
      · cases rest with
        | nil => exact .nil
        | cons next others =>
            have later := ih fun value member => unspaced value (List.mem_cons_of_mem first member)
            refine List.isChain_cons_cons.mpr ⟨fun _ => rfl, List.isChain_cons.mpr ⟨?_, later⟩⟩
            intro c head blank
            rw [toList_joined_cons] at head
            have visible := (unspaced next (by simp)).visible
            exact absurd blank
              (opens_append visible (fun _ => further_visible others) c head)
      · exact fun _ _ c head blank => absurd blank (further_visible rest c head)

/-- Two brackets in a row, with or without more names between them, are not the end of the keys
of a pairing: what follows them would begin with a blank that follows no comma. -/
theorem stray_bracket {before after back : List Char} {c : Char} {listed : List Projection}
    (chain : (before ++ ']' :: after).IsChain fun c d => d ∈ blanks → c = ',')
    (visible : c ∉ blanks) (member : text ∈ includes listed) :
    after ++ ']' :: c :: back ≠ ']' :: text := by
  intro same
  have opens := includes_opens member
  rcases after with _ | ⟨first, _ | ⟨second, after⟩⟩
  · exact visible (opens c (congrArg List.head? (List.cons.inj same).2).symm)
  · have blank := opens ']' (congrArg List.head? (List.cons.inj same).2).symm
    exact absurd blank (by decide)
  · obtain ⟨rfl, rest⟩ := List.cons.inj same
    have blank := opens second (congrArg List.head? rest).symm
    have split : before ++ ']' :: ']' :: second :: after =
        (before ++ [']']) ++ ']' :: second :: after := by simp
    rw [split, List.isChain_append_cons_cons] at chain
    exact absurd (chain.2.1 blank) (by decide)

def keysText (it : Pairing) : List Char :=
  '[' :: '[' :: ((Listing.names it.leftKeys).toList ++ ']' :: ',' :: ' ' :: '[' ::
    ((Listing.names it.rightKeys).toList ++ ']' :: ']' :: includesText it.projections))

theorem toList_pairing (it : Pairing) :
    (Listing.pairing it).toList = ' ' :: ("USING".toList ++ ' ' :: keysText it) := by
  obtain ⟨left, right, projections⟩ := it
  cases projections with
  | nil => simp [Listing.pairing, keysText, includesText, String.toList_append]
  | cons first rest =>
      simp [Listing.pairing, keysText, includesText, written, String.toList_append]

theorem rightKeys_cut {right right' : List String} {columns listed : List Projection}
    (unspaced : ∀ value ∈ right, Unspaced value.toList)
    (member : (Listing.names right).toList ++ ']' :: ']' :: includesText columns ∈
      names right' * (word "]" * (word "]" * includes listed))) :
    right = right' ∧ includesText columns ∈ includes listed := by
  obtain ⟨list, inNames, behind, inBehind, same⟩ := Language.mem_mul.mp member
  obtain ⟨last, inLast, rfl⟩ := exists_of_mem_word_mul inBehind
  obtain ⟨included, inIncludes, rfl⟩ := exists_of_mem_word_mul inLast
  rcases cut_or_later same.symm ((unmarked_names right').notMem inNames rfl) with
    ⟨rfl, rest⟩ | ⟨more, longer, later⟩
  · have clauses : includesText columns = included := (List.cons.inj rest).2
    exact ⟨names_eq_of_written unspaced inNames, clauses ▸ inIncludes⟩
  · have chain := blanks_follow_commas unspaced
    rw [longer] at chain
    have bracket : ']' ∉ blanks := by decide
    exact absurd later (stray_bracket chain bracket inIncludes)

theorem leftKeys_cut {left left' right' : List String} {listed : List Projection}
    (unspaced : ∀ value ∈ left, Unspaced value.toList)
    (member : (Listing.names left).toList ++ ']' :: ',' :: ' ' :: '[' :: back ∈
      names left' * (word "]" * (word "," * ((1 + gap) *
        (word "[" * (names right' * (word "]" * (word "]" * includes listed)))))))) :
    left = left' ∧ back ∈ names right' * (word "]" * (word "]" * includes listed)) := by
  obtain ⟨list, inNames, behind, inBehind, same⟩ := Language.mem_mul.mp member
  obtain ⟨second, inSecond, rfl⟩ := exists_of_mem_word_mul inBehind
  obtain ⟨keys, inKeys, rfl⟩ := exists_of_mem_word_mul inSecond
  rcases cut_or_later same.symm ((unmarked_names left').notMem inNames rfl) with
    ⟨rfl, rest⟩ | ⟨more, longer, later⟩
  · have split : ' ' :: '[' :: back = keys := (List.cons.inj rest).2
    rw [← split, add_mul, one_mul, Language.mem_add] at inKeys
    rcases inKeys with opened | gapped
    · obtain ⟨_, _, bracket⟩ := exists_of_mem_word_mul opened
      exact absurd (List.cons.inj bracket).1 (by decide)
    · have opened : "[".toList ++ back ∈
          word "[" * (names right' * (word "]" * (word "]" * includes listed))) :=
        mem_of_gap gapped (opens_cons (by decide) _)
      exact ⟨names_eq_of_written unspaced inNames, mem_of_word opened⟩
  · -- the bracket that ends the keys of the spelled line stands in a name of the written one
    exfalso
    obtain ⟨blank, inBlank, third, inThird, rfl⟩ := Language.mem_mul.mp inKeys
    obtain ⟨fourth, inFourth, rfl⟩ := exists_of_mem_word_mul inThird
    obtain ⟨rights, inRights, fifth, inFifth, rfl⟩ := Language.mem_mul.mp inFourth
    obtain ⟨last, inLast, rfl⟩ := exists_of_mem_word_mul inFifth
    obtain ⟨included, inIncludes, rfl⟩ := exists_of_mem_word_mul inLast
    have blank_unmarked : ']' ∉ blank := by
      rcases (Language.mem_add _ _ _).mp inBlank with none | some
      · exact unmarked_one.notMem none rfl
      · exact unmarked_gap.notMem some rfl
    have rights_unmarked : ']' ∉ rights := (unmarked_names right').notMem inRights rfl
    have parted : more ++ ']' :: ',' :: ' ' :: '[' :: back =
        (',' :: (blank ++ '[' :: rights)) ++ ']' :: ']' :: included := by
      rw [later]
      simp
    rcases cut_or_later parted (by simp [blank_unmarked, rights_unmarked]) with
      ⟨_, rest⟩ | ⟨others, further, after⟩
    · exact absurd (List.cons.inj rest).1 (by decide)
    · have regroup : list ++ ']' :: (',' :: (blank ++ '[' :: rights) ++ ']' :: others) =
          (list ++ ']' :: ',' :: (blank ++ '[' :: rights)) ++ ']' :: others := by simp
      have chain := blanks_follow_commas unspaced
      rw [longer, further, regroup] at chain
      have comma : ',' ∉ blanks := by decide
      exact stray_bracket chain comma inIncludes after

/-- A written pairing of names without blanks is spelled as no other one. -/
theorem pairing_cut {it other : Pairing}
    (lefts : ∀ value ∈ it.leftKeys, Unspaced value.toList)
    (rights : ∀ value ∈ it.rightKeys, Unspaced value.toList)
    (columns : ∀ column ∈ it.projections, UnspacedNames column)
    (member : (Listing.pairing it).toList ∈ pairing other) : it = other := by
  obtain ⟨left, right, projections⟩ := it
  obtain ⟨left', right', projections'⟩ := other
  rw [toList_pairing] at member
  simp only [pairing, keys, mul_assoc] at member
  have visible : Opens blanksᶜ (keysText ⟨left, right, projections⟩) :=
    opens_cons (by decide) _
  have opened : "[".toList ++ ("[".toList ++ ((Listing.names left).toList ++ ']' :: ',' :: ' ' ::
      '[' :: ((Listing.names right).toList ++ ']' :: ']' :: includesText projections))) ∈ _ :=
    mem_of_spaced (by decide) (by decide) member visible
  obtain ⟨rfl, inRight⟩ := leftKeys_cut lefts (mem_of_word (mem_of_word opened))
  obtain ⟨rfl, inIncludes⟩ := rightKeys_cut rights inRight
  have same : projections = projections' := includes_cut columns inIncludes
  rw [same]

end Spelling

open Spelling

/-! ## Statements -/

def Reference.names (it : Reference) : List String := [it.space, it.name, it.version]

def Pairing.names (it : Pairing) : List String :=
  it.leftKeys ++ it.rightKeys ++ it.projections.flatMap fun column => [column.source, column.target]

def Step.names : Step → List String
  | push table => [table]
  | pop => []
  | duplicate => []
  | commit table columns => table :: columns.getD []
  | join pairing => pairing.names
  | inclusion pairing => pairing.names
  | accumulate column call result => column :: call.name :: call.arguments ++ result.toList
  | pull reference target => reference.names ++ [target]

namespace Statement

/-- The names of a statement, its URL among them. -/
def names : Statement → List String
  | expects table columns => table :: columns
  | attach url name => [url, name]
  | action (.step it) => it.names
  | action (.invoke rule) => rule.names
  | action (.unrecognized _) => []

/-- That a statement commits no whole table whose name holds an opening bracket. -/
def Unbracketed : Statement → Prop
  | action (.step (.commit table none)) => '[' ∉ table.toList
  | _ => True

/-- That no name of a statement holds a blank, and none looks like a table with columns. -/
structure Plain (statement : Statement) : Prop where
  unspaced : ∀ name ∈ statement.names, Unspaced name.toList
  unbracketed : statement.Unbracketed

end Statement

theorem unspacedNames_of_pairing {it : Pairing}
    (unspaced : ∀ name ∈ it.names, Unspaced name.toList) :
    (∀ value ∈ it.leftKeys, Unspaced value.toList) ∧
      (∀ value ∈ it.rightKeys, Unspaced value.toList) ∧
      ∀ column ∈ it.projections, UnspacedNames column := by
  unfold Pairing.names at unspaced
  rw [List.forall_mem_append, List.forall_mem_append] at unspaced
  obtain ⟨⟨lefts, rights⟩, columns⟩ := unspaced
  refine ⟨lefts, rights, fun column member => ?_⟩
  have each := fun name held => columns name (List.mem_flatMap.mpr ⟨column, member, held⟩)
  exact ⟨each column.source (by simp), each column.target (by simp)⟩

theorem Reference.WellFormed.unspaced {it : Reference} (wellFormed : it.WellFormed) :
    ∀ value ∈ it.names, Unspaced value.toList := by
  obtain ⟨space, named, version⟩ := wellFormed
  simp [names, unspaced_of_isName space, unspaced_of_isName named, unspaced_of_isName version]

theorem unspaced_reference {it : Reference} (unspaced : ∀ name ∈ it.names, Unspaced name.toList) :
    Unspaced it.text.toList := by
  have colon : Unspaced ":".toList := by decide
  have space := unspaced it.space (by simp [Reference.names])
  have named := unspaced it.name (by simp [Reference.names])
  have version := unspaced it.version (by simp [Reference.names])
  unfold Reference.text Unspaced
  simp only [String.toList_append, List.forall_mem_append]
  exact ⟨⟨⟨⟨space, colon⟩, named⟩, colon⟩, version⟩

def columnsText (table : String) (columns : List String) : List Char :=
  ' ' :: (table.toList ++ '[' :: ((Listing.names columns).toList ++ "]".toList))

def Step.operandText : Step → List Char
  | push table => ' ' :: table.toList
  | pop => []
  | duplicate => []
  | commit table none => ' ' :: table.toList
  | commit table (some columns) => columnsText table columns
  | join pairing => (Listing.pairing pairing).toList
  | inclusion pairing => (Listing.pairing pairing).toList
  | accumulate column call result =>
      ' ' :: (column.toList ++ ' ' :: ("USING".toList ++ ' ' :: (call.name.toList ++
        '(' :: ((Listing.names call.arguments).toList ++ ')' :: (Listing.asName result).toList))))
  | pull reference target =>
      ' ' :: (reference.text.toList ++ ' ' :: ("AS".toList ++ ' ' :: target.toList))

def Statement.operandText : Statement → List Char
  | expects table columns => columnsText table columns
  | attach url name => ' ' :: (url.toList ++ ' ' :: ("AS".toList ++ ' ' :: name.toList))
  | action (.step it) => it.operandText
  | action (.invoke rule) => ' ' :: rule.text.toList
  | action (.unrecognized _) => []

theorem Step.toList_line (step : Step) :
    step.line.toList = step.keyword.toList ++ step.operandText := by
  cases step with
  | commit table columns =>
      cases columns with
      | none => simp [line, keyword, operandText, String.toList_append]
      | some columns => simp [line, keyword, operandText, columnsText, String.toList_append]
  | _ => simp [line, keyword, operandText, String.toList_append]

theorem Statement.toList_line {statement : Statement} {line : String}
    (written : statement.line = .ok line) :
    line.toList = statement.keyword.toList ++ statement.operandText := by
  cases statement with
  | expects table columns =>
      cases written
      simp [keyword, operandText, columnsText, String.toList_append]
  | attach url name =>
      cases written
      simp [keyword, operandText, String.toList_append]
  | action it =>
      cases it with
      | step it =>
          cases written
          exact it.toList_line
      | invoke rule =>
          cases written
          simp [keyword, operandText, String.toList_append]
      | unrecognized name => cases written

theorem items_name (value : String) : ∀ text ∈ name value, text ≠ [] ∧ Unspaced text := by
  rintro text ⟨rfl, isName⟩
  exact ⟨isName.1, unspaced_of_isName isName⟩

theorem columnsText_cut {table target : String} {columns others : List String}
    (unspaced : ∀ name ∈ table :: columns, Unspaced name.toList)
    (member : columnsText table columns ∈ gap * (name target * Spelling.columns others)) :
    table = target ∧ columns = others := by
  obtain ⟨tables, listed⟩ := List.forall_mem_cons.mp unspaced
  exact columns_cut listed (mem_of_gap member (opens_append tables.visible fun _ =>
    opens_cons (by decide) _))

theorem items_reference (it : Reference) :
    ∀ text ∈ reference it, text ≠ [] ∧ Unspaced text := by
  intro text member
  obtain ⟨wellFormed, rfl⟩ := wellFormed_of_mem_reference member
  exact ⟨by simp [toList_reference], unspaced_reference wellFormed.unspaced⟩

theorem parenthesis_opens {text : List Char} :
    Opens {c | c ∉ blanks ∧ c ∉ "USING".toList} ('(' :: text) := by
  have apart : '(' ∉ blanks ∧ '(' ∉ "USING".toList := by decide
  exact opens_cons apart text

/-- A plain commit of a whole table is not one of some columns, nor the other way round. -/
theorem commit_cut {table target : String} {columns others : Option (List String)}
    (plain : (Statement.action (.step (.commit table columns))).Plain)
    (member : (Step.commit table columns).operandText ∈ (Step.commit target others).operands) :
    Step.commit table columns = .commit target others := by
  obtain ⟨unspaced, unbracketed⟩ := plain
  have clear : Unspaced table.toList := unspaced table List.mem_cons_self
  cases columns with
  | none =>
      rw [Step.operands, mul_assoc] at member
      have behind := mem_of_gap member clear.visible
      cases others with
      | none =>
          rw [columnsIfAny, mul_one] at behind
          rw [String.toList_inj.mp behind.1]
      | some others =>
          simp only [columnsIfAny, Spelling.columns, mul_assoc] at behind
          obtain ⟨read, _, listed, inColumns, same⟩ := Language.mem_mul.mp behind
          obtain ⟨tail, _, rfl⟩ := exists_of_mem_word_mul inColumns
          exact absurd (by simp [← same]) unbracketed
  | some columns =>
      cases others with
      | none =>
          rw [Step.operands, columnsIfAny, mul_one] at member
          have unmarked := unmarked_mul unmarked_gap (unmarked_name target)
          have closed : '[' ∉ (Step.commit table (some columns)).operandText :=
            unmarked.notMem member rfl
          exact absurd (by simp [Step.operandText, columnsText]) closed
      | some others =>
          rw [Step.operands, mul_assoc] at member
          obtain ⟨rfl, rfl⟩ := columnsText_cut unspaced member
          rfl

/-- The operands that are written for a plain step are those of no other step. -/
theorem Step.eq_of_operands {step other : Step} (plain : (Statement.action (.step step)).Plain)
    (same : other.keyword = step.keyword) (member : step.operandText ∈ other.operands) :
    step = other := by
  obtain ⟨unspaced, unbracketed⟩ := plain
  cases step with
  | push table =>
      cases other with
      | push target =>
          have clear : Unspaced table.toList := unspaced table List.mem_cons_self
          have inName := mem_of_gap member clear.visible
          rw [String.toList_inj.mp inName.1]
      | _ => simp [keyword] at same
  | pop =>
      cases other with
      | pop => rfl
      | _ => simp [keyword] at same
  | duplicate =>
      cases other with
      | duplicate => rfl
      | _ => simp [keyword] at same
  | commit table columns =>
      cases other with
      | commit target others =>
          rw [commit_cut ⟨unspaced, unbracketed⟩ member]
      | _ => simp [keyword] at same
  | join pairing =>
      cases other with
      | join another =>
          obtain ⟨lefts, rights, columns⟩ := unspacedNames_of_pairing unspaced
          rw [pairing_cut lefts rights columns member]
      | _ => simp [keyword] at same
  | inclusion pairing =>
      cases other with
      | inclusion another =>
          obtain ⟨lefts, rights, columns⟩ := unspacedNames_of_pairing unspaced
          rw [pairing_cut lefts rights columns member]
      | _ => simp [keyword] at same
  | accumulate column call result =>
      cases other with
      | accumulate target another named =>
          rw [operandText, operands, mul_assoc, mul_assoc, mul_assoc] at member
          rw [Statement.names, names, List.forall_mem_append, List.forall_mem_cons,
            List.forall_mem_cons] at unspaced
          obtain ⟨⟨columns, function, arguments⟩, results⟩ := unspaced
          obtain ⟨inName, inCall⟩ := operand_cut (items_name target) (by decide) (by decide) columns
            function parenthesis_opens member
          obtain ⟨rfl, rfl⟩ := call_cut arguments
            (fun name given => results name (Option.mem_toList.mpr given)) inCall
          rw [String.toList_inj.mp inName.1]
      | _ => simp [keyword] at same
  | pull reference target =>
      cases other with
      | pull another named =>
          rw [operandText, operands, mul_assoc, mul_assoc,
            ← List.append_nil target.toList] at member
          rw [Statement.names, names, List.forall_mem_append] at unspaced
          obtain ⟨inReference, inName⟩ := operand_cut (items_reference another) (by decide)
            (by decide) (unspaced_reference unspaced.1) (unspaced.2 target List.mem_cons_self)
            (by simp [Opens]) member
          rw [List.append_nil] at inName
          rw [reference_cut inReference, String.toList_inj.mp inName.1]
      | _ => simp [keyword] at same

theorem Grammar.eq_of_keyword_prefix :
    ∀ one ∈ Grammar.keywords, ∀ other ∈ Grammar.keywords,
      (one.toList.map Char.toLower <+: other.toList.map Char.toLower ∨
        other.toList.map Char.toLower <+: one.toList.map Char.toLower) → one = other := by
  decide

namespace Statement

/-- A line is cut behind its keyword, for no keyword begins another one. -/
theorem keyword_cut {other : Statement} {keyword : String} {text : List Char}
    (known : keyword ∈ Grammar.keywords) (member : keyword.toList ++ text ∈ other.spellings) :
    other.keyword = keyword ∧ text ∈ other.operands := by
  have otherKnown := Grammar.keyword_mem_keywords member
  obtain ⟨read, inKeyword, tail, inOperands, same⟩ := Language.mem_mul.mp member
  have letters : read.map Char.toLower = other.keyword.toList.map Char.toLower := inKeyword
  have lower := congrArg (List.map Char.toLower) same
  rw [List.map_append, List.map_append, letters] at lower
  have begins := List.prefix_or_prefix_of_prefix (List.prefix_append _ (tail.map Char.toLower))
    (lower ▸ List.prefix_append _ (text.map Char.toLower))
  have sameKeyword := Grammar.eq_of_keyword_prefix _ otherKnown _ known begins
  rw [sameKeyword] at letters
  have lengths : read.length = keyword.toList.length := by
    simpa using congrArg List.length letters
  obtain ⟨_, behind⟩ := List.append_inj same lengths
  exact ⟨sameKeyword, behind ▸ inOperands⟩

theorem keyword_mem_of_line {statement : Statement} {line : String}
    (written : statement.line = .ok line) : statement.keyword ∈ Grammar.keywords := by
  rcases statement with _ | _ | ((_ | _ | _ | _ | _ | _ | _ | _) | _ | _)
  case action.unrecognized => cases written
  all_goals simp [keyword, Step.keyword, Grammar.keywords]

/-- The line that is written for a plain statement spells no other statement. -/
theorem eq_of_plain {statement other : Statement} {line : String} (plain : statement.Plain)
    (written : statement.line = .ok line) (spells : other.Spells line) : statement = other := by
  have spelled : line.toList ∈ other.spellings := spells
  rw [toList_line written] at spelled
  obtain ⟨same, member⟩ := keyword_cut (keyword_mem_of_line written) spelled
  have unspaced := plain.unspaced
  cases statement with
  | expects table columns =>
      rcases other with ⟨target, others⟩ | _ | (it | _ | _)
      · rw [operands, mul_assoc] at member
        obtain ⟨rfl, rfl⟩ := columnsText_cut unspaced member
        rfl
      · simp [keyword] at same
      · cases it <;> simp [keyword, Step.keyword] at same
      · simp [keyword] at same
      · simp [keyword] at same
  | attach url name =>
      rcases other with _ | ⟨located, named⟩ | (it | _ | _)
      · simp [keyword] at same
      · rw [operandText, operands, mul_assoc, mul_assoc, ← List.append_nil name.toList] at member
        have items : ∀ text ∈ Spelling.url located, text ≠ [] ∧ Unspaced text := by
          rintro text ⟨rfl, isUrl⟩
          exact isUrl
        obtain ⟨inUrl, inName⟩ := operand_cut items (by decide) (by decide)
          (unspaced url List.mem_cons_self) (unspaced name (by simp [names])) (by simp [Opens])
          member
        rw [List.append_nil] at inName
        rw [String.toList_inj.mp inUrl.1, String.toList_inj.mp inName.1]
      · cases it <;> simp [keyword, Step.keyword] at same
      · simp [keyword] at same
      · simp [keyword] at same
  | action it =>
      cases it with
      | step it =>
          have apart : ∀ word ∈ [it.keyword], word ∉ ["EXPECTS", "ATTACH", "INVOKE", ""] := by
            cases it <;> simp [Step.keyword]
          obtain ⟨step, rfl⟩ := Grammar.exists_step_of_keyword (List.mem_singleton.mpr same) apart
          rw [Step.eq_of_operands plain same member]
      | invoke rule =>
          rcases other with _ | _ | (it | another | _)
          · simp [keyword] at same
          · simp [keyword] at same
          · cases it <;> simp [keyword, Step.keyword] at same
          · have visible := (unspaced_reference unspaced).visible
            rw [reference_cut (mem_of_gap member visible)]
          · simp [keyword] at same
      | unrecognized name => cases written

end Statement

/-! ## Well-formed statements are plain -/

theorem Spelling.IsNames.unspaced {listed : List String} (isNames : IsNames listed) :
    ∀ value ∈ listed, Unspaced value.toList :=
  fun value member => unspaced_of_isName (isNames.2 value member)

theorem Pairing.WellFormed.unspaced {it : Pairing} (wellFormed : it.WellFormed) :
    ∀ value ∈ it.names, Unspaced value.toList := by
  obtain ⟨lefts, rights, columns⟩ := wellFormed
  unfold names
  rw [List.forall_mem_append, List.forall_mem_append]
  refine ⟨⟨lefts.unspaced, rights.unspaced⟩, ?_⟩
  intro value member
  obtain ⟨column, held, listed⟩ := List.mem_flatMap.mp member
  obtain ⟨source, target⟩ := columns column held
  rcases List.mem_pair.mp listed with rfl | rfl
  · exact unspaced_of_isName source
  · exact unspaced_of_isName target

theorem Step.WellFormed.unspaced {step : Step} (wellFormed : step.WellFormed) :
    ∀ value ∈ step.names, Unspaced value.toList := by
  cases step with
  | push table => simpa [names] using unspaced_of_isName wellFormed
  | pop => simp [names]
  | duplicate => simp [names]
  | commit table columns =>
      obtain ⟨named, listed⟩ := wellFormed
      refine List.forall_mem_cons.mpr ⟨unspaced_of_isName named, ?_⟩
      cases columns with
      | none => simp
      | some columns => exact (listed columns rfl).unspaced
  | join pairing => exact Pairing.WellFormed.unspaced wellFormed
  | inclusion pairing => exact Pairing.WellFormed.unspaced wellFormed
  | accumulate column call result =>
      obtain ⟨named, ⟨function, arguments⟩, target⟩ := wellFormed
      rw [names, List.forall_mem_append, List.forall_mem_cons, List.forall_mem_cons]
      refine ⟨⟨unspaced_of_isName named, unspaced_of_isName function, arguments.unspaced⟩, ?_⟩
      intro value given
      exact unspaced_of_isName (target value (Option.mem_toList.mp given))
  | pull reference target =>
      obtain ⟨whole, named⟩ := wellFormed
      rw [names, List.forall_mem_append]
      exact ⟨whole.unspaced, by simpa using unspaced_of_isName named⟩

theorem Statement.plain_of_wellFormed {statement : Statement} (wellFormed : statement.WellFormed) :
    statement.Plain := by
  constructor
  · cases statement with
    | expects table columns =>
        exact List.forall_mem_cons.mpr ⟨unspaced_of_isName wellFormed.1, wellFormed.2.unspaced⟩
    | attach url name =>
        exact List.forall_mem_cons.mpr
          ⟨wellFormed.1.2, by simpa using unspaced_of_isName wellFormed.2⟩
    | action it =>
        cases it with
        | step it => exact Step.WellFormed.unspaced wellFormed
        | invoke rule => exact Reference.WellFormed.unspaced wellFormed
        | unrecognized name => exact absurd wellFormed id
  · rcases statement with _ | _ | ((_ | _ | _ | ⟨table, _ | _⟩ | _ | _ | _ | _) | _ | _)
    case action.step.commit.none => exact (unmarked_name table).notMem ⟨rfl, wellFormed.1⟩ rfl
    all_goals trivial

end TableScript
