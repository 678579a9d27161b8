import Mathlib.Data.List.Chain
import TableScript.Proofs.Grammar.Lookahead
import TableScript.Proofs.Grammar.Written

/-!
# Cutting written texts

A line is written from the names of its statement as they are, whatever they hold, and may
by chance spell another statement.  Where the written text and the spelled one are cut at
the same characters, their parts are the same.  Names without blanks can be cut at the
gaps, and a list of them at its commas (`eq_of_written`): no name can hold a gap, and a comma
in a name is no end of an item, for no gap follows it.
-/

namespace TableScript

open Grammar (Opens opens_append opens_cons)

/-! ## Cutting texts -/

section Texts

variable {front back front' back' : List Char}

/-- Texts that are cut where characters of a set begin have the same parts. -/
theorem cut {set : Set Char} (same : front ++ back = front' ++ back')
    (clear : ∀ c ∈ front, c ∉ set) (clear' : ∀ c ∈ front', c ∉ set) (opens : Opens set back)
    (opens' : Opens set back') : front = front' ∧ back = back' := by
  rcases List.append_eq_append_iff.mp same with ⟨more, longer, rest⟩ | ⟨more, longer, rest⟩
  · cases more with
    | nil => exact ⟨by simp [longer], rest⟩
    | cons c more => exact absurd (opens c (by simp [rest])) (clear' c (by simp [longer]))
  · cases more with
    | nil => exact ⟨by simp [longer], rest.symm⟩
    | cons c more => exact absurd (opens' c (by simp [rest])) (clear c (by simp [longer]))

/-- Texts are cut at a character in the same place, or the first of them later. -/
theorem cut_or_later {stop : Char} (same : front ++ stop :: back = front' ++ stop :: back')
    (absent : stop ∉ front') :
    (front = front' ∧ back = back') ∨
      ∃ more, front = front' ++ stop :: more ∧ more ++ stop :: back = back' := by
  rcases List.append_eq_append_iff.mp same with ⟨more, longer, rest⟩ | ⟨more, longer, rest⟩
  · cases more with
    | nil => exact .inl ⟨by simp [longer], (List.cons.inj rest).2⟩
    | cons c more =>
        obtain ⟨rfl, _⟩ := List.cons.inj rest
        exact absurd (by simp [longer]) absent
  · cases more with
    | nil => exact .inl ⟨by simp [longer], (List.cons.inj rest).2.symm⟩
    | cons c more =>
        obtain ⟨rfl, later⟩ := List.cons.inj rest
        exact .inr ⟨more, longer, later.symm⟩

theorem cut_at_first {stop : Char} (same : front ++ stop :: back = front' ++ stop :: back')
    (absent : stop ∉ front) (absent' : stop ∉ front') : front = front' ∧ back = back' := by
  rcases cut_or_later same absent' with here | ⟨more, longer, _⟩
  · exact here
  · exact absurd (by simp [longer]) absent

/-- Texts are cut in the same place at a character that one of them holds only there. -/
theorem cut_at {stop : Char} (same : front ++ stop :: back = front' ++ stop :: back')
    (absent : stop ∉ front') (once : stop ∉ back') : front = front' ∧ back = back' := by
  rcases cut_or_later same absent with here | ⟨more, _, later⟩
  · exact here
  · exact absurd (by simp [← later]) once

end Texts

namespace Spelling

/-! ## Gaps -/

def blanks : Set Char := {c | c = ' ' ∨ c = '\t'}

instance (c : Char) : Decidable (c ∈ blanks) :=
  inferInstanceAs (Decidable (c = ' ' ∨ c = '\t'))

def Unspaced (text : List Char) : Prop := ∀ c ∈ text, c ≠ ' ' ∧ c ≠ '\t'

-- by the characters of the text, where the instance found for all characters tries each of them
instance (text : List Char) : Decidable (Unspaced text) :=
  List.decidableBAll (fun c => c ≠ ' ' ∧ c ≠ '\t') text

variable {text front back : List Char} {rest : Language Char}

theorem Unspaced.notMem_blanks (unspaced : Unspaced text) : ∀ c ∈ text, c ∉ blanks := by
  rintro c member (space | tab)
  · exact (unspaced c member).1 space
  · exact (unspaced c member).2 tab

theorem Unspaced.visible (unspaced : Unspaced text) : Opens blanksᶜ text :=
  fun c head => unspaced.notMem_blanks c (List.mem_of_mem_head? head)

theorem unspaced_of_isName {value : String} (isName : IsName value) : Unspaced value.toList := by
  intro c member
  constructor
  · rintro rfl
    rcases isName.2 _ member with named | same
    · exact absurd named (by decide)
    · exact absurd same (by decide)
  · rintro rfl
    rcases isName.2 _ member with named | same
    · exact absurd named (by decide)
    · exact absurd same (by decide)

theorem exists_blank_of_gap (member : text ∈ gap * rest) :
    ∃ c others, text = c :: others ∧ c ∈ blanks := by
  obtain ⟨blank, ⟨filled, each⟩, tail, _, rfl⟩ := Language.mem_mul.mp member
  cases blank with
  | nil => exact absurd rfl filled
  | cons c blank => exact ⟨c, blank ++ tail, rfl, each c List.mem_cons_self⟩

theorem notMem_gap_of_visible (visible : Opens blanksᶜ text) : text ∉ gap * rest := by
  intro member
  obtain ⟨c, others, rfl, blank⟩ := exists_blank_of_gap member
  exact visible c rfl blank

/-- Behind a blank of a gap the gap ends or goes on. -/
theorem mem_or_mem_gap {c : Char} (member : c :: text ∈ gap * rest) :
    text ∈ rest ∨ text ∈ gap * rest := by
  obtain ⟨blank, ⟨filled, each⟩, tail, inRest, same⟩ := Language.mem_mul.mp member
  rcases blank with _ | ⟨first, _ | ⟨second, blank⟩⟩
  · exact absurd rfl filled
  · exact .inl ((List.cons.inj same).2 ▸ inRest)
  · refine .inr ((List.cons.inj same).2 ▸ Language.append_mem_mul ⟨by simp, ?_⟩ inRest)
    exact fun c member => each c (List.mem_cons_of_mem first member)

/-- A single blank is the whole gap. -/
theorem mem_of_gap {c : Char} (member : c :: text ∈ gap * rest) (visible : Opens blanksᶜ text) :
    text ∈ rest :=
  (mem_or_mem_gap member).resolve_right (notMem_gap_of_visible visible)

/-! ## Words -/

theorem mem_of_word {word : String} (member : word.toList ++ text ∈ Spelling.word word * rest) :
    text ∈ rest := by
  obtain ⟨read, rfl, tail, inRest, same⟩ := Language.mem_mul.mp member
  rw [← List.append_cancel_left same]
  exact inRest

/-- A text has no word and a gap at its beginning if its first characters without blanks are
followed by one that is neither blank nor of the word. -/
theorem notMem_word_gap {word : String} (unspaced : Unspaced front)
    (opens : Opens {c | c ∉ blanks ∧ c ∉ word.toList} back) :
    front ++ back ∉ Spelling.word word * (gap * rest) := by
  intro member
  obtain ⟨read, rfl, tail, inTail, same⟩ := Language.mem_mul.mp member
  obtain ⟨blank, others, rfl, isBlank⟩ := exists_blank_of_gap inTail
  rcases List.append_eq_append_iff.mp same.symm with ⟨more, longer, rest⟩ | ⟨more, longer, rest⟩
  · cases more with
    | nil => exact (opens blank (by simp [rest])).1 isBlank
    | cons c more => exact (opens c (by simp [rest])).2 (by simp [longer])
  · cases more with
    | nil => exact (opens blank (congrArg List.head? rest).symm).1 isBlank
    | cons c more =>
        obtain ⟨rfl, _⟩ := List.cons.inj rest
        exact unspaced.notMem_blanks blank (by simp [longer]) isBlank

theorem mem_of_spaced {word : String} (filled : word.toList ≠ []) (unspaced : Unspaced word.toList)
    (member : ' ' :: (word.toList ++ ' ' :: text) ∈ spaced word * rest)
    (visible : Opens blanksᶜ text) : text ∈ rest := by
  simp only [spaced, mul_assoc] at member
  have word_visible : Opens blanksᶜ (word.toList ++ ' ' :: text) :=
    opens_append unspaced.visible fun empty => absurd empty filled
  exact mem_of_gap (mem_of_word (mem_of_gap member word_visible)) visible

/-- An operand without blanks is cut from a word behind it. -/
theorem operand_cut {word : String} {item : Language Char} {stem tail : List Char}
    (items : ∀ text ∈ item, text ≠ [] ∧ Unspaced text) (filled : word.toList ≠ [])
    (word_unspaced : Unspaced word.toList) (unspaced : Unspaced front)
    (stem_unspaced : Unspaced stem) (opens : Opens {c | c ∉ blanks ∧ c ∉ word.toList} tail)
    (member : ' ' :: (front ++ ' ' :: (word.toList ++ ' ' :: (stem ++ tail))) ∈
      gap * (item * (spaced word * rest))) : front ∈ item ∧ stem ++ tail ∈ rest := by
  have visible : Opens blanksᶜ (stem ++ tail) :=
    opens_append stem_unspaced.visible fun _ c head => (opens c head).1
  -- what is cut off at the first blank
  have first : ∀ {front text}, Unspaced front → front ++ ' ' :: text ∈ item * (spaced word * rest) →
      front ∈ item ∧ ' ' :: text ∈ spaced word * rest := by
    intro front text unspaced member
    obtain ⟨read, inItem, others, inRest, same⟩ := Language.mem_mul.mp member
    have gapped := inRest
    simp only [spaced, mul_assoc] at gapped
    obtain ⟨blank, _, begins, isBlank⟩ := exists_blank_of_gap gapped
    have opens : Opens blanks (' ' :: text) := opens_cons (by decide) text
    have opens' : Opens blanks others := begins ▸ opens_cons isBlank _
    obtain ⟨rfl, rfl⟩ := cut same.symm unspaced.notMem_blanks (items read inItem).2.notMem_blanks
      opens opens'
    exact ⟨inItem, inRest⟩
  cases front with
  | nil =>
      exfalso
      rcases mem_or_mem_gap member with none | more
      · -- an operand is not empty
        exact (items [] (first unspaced none).1).1 rfl
      · have word_visible : Opens blanksᶜ (word.toList ++ ' ' :: (stem ++ tail)) :=
          opens_append word_unspaced.visible fun empty => absurd empty filled
        have behind := (first word_unspaced (mem_of_gap more word_visible)).2
        simp only [spaced, mul_assoc] at behind
        exact notMem_word_gap stem_unspaced opens (mem_of_gap behind visible)
  | cons c front =>
      have begins : Opens blanksᶜ (c :: front ++ ' ' :: (word.toList ++ ' ' :: (stem ++ tail))) :=
        unspaced.visible
      obtain ⟨inItem, behind⟩ := first unspaced (mem_of_gap member begins)
      exact ⟨inItem, mem_of_spaced filled word_unspaced behind visible⟩

/-! ## Lists -/

def following {α : Type} (item : α → Language Char) : List α → Language Char
  | [] => 1
  | next :: others => word "," * (gap * separated item (next :: others))

theorem separated_cons {α : Type} (item : α → Language Char) (first : α) (rest : List α) :
    separated item (first :: rest) = item first * following item rest := by
  cases rest with
  | nil => rfl
  | cons next others => simp only [separated, following, List.map_cons, List.prod_cons, mul_assoc]

def further : List String → List Char
  | [] => []
  | next :: others => ',' :: ' ' :: (Text.joined ", " (next :: others)).toList

theorem toList_joined_cons (first : String) (rest : List String) :
    (Text.joined ", " (first :: rest)).toList = first.toList ++ further rest := by
  cases rest with
  | nil => simp [Text.joined, further]
  | cons next others =>
      have parted : ", ".toList = [',', ' '] := rfl
      simp [Text.joined, further, String.toList_append, parted]

theorem further_opens (rest : List String) : ∀ c ∈ (further rest).head?, c = ',' := by
  cases rest with
  | nil => simp [further]
  | cons next others => simp [further, eq_comm]

theorem mem_of_following {α : Type} {item : α → Language Char} {listed : List α}
    (member : ',' :: text ∈ following item listed) : text ∈ gap * separated item listed := by
  cases listed with
  | nil => exact absurd member (List.cons_ne_nil _ _)
  | cons next others =>
      have split : ",".toList ++ text ∈ word "," * (gap * separated item (next :: others)) := member
      exact mem_of_word split

theorem following_opens {α : Type} {item : α → Language Char} {listed : List α}
    (member : text ∈ following item listed) : ∀ c ∈ text.head?, c = ',' := by
  cases listed with
  | nil =>
      have empty : text = [] := member
      simp [empty]
  | cons next others =>
      obtain ⟨_, rfl, tail, _, rfl⟩ := Language.mem_mul.mp member
      rintro c ⟨⟩
      rfl

/-- Where a name and a written text begin alike, the text is cut behind the name, or it holds
more characters and a comma is the first of them. -/
theorem name_cut {value : String} (unspaced : Unspaced front)
    (opens : Opens {c | c ∈ blanks ∨ c = ','} back)
    (rests : ∀ text ∈ rest, Opens {c | c ∈ blanks ∨ c = ','} text)
    (member : front ++ back ∈ name value * rest) :
    (front = value.toList ∧ back ∈ rest) ∨
      ∃ more, front = value.toList ++ ',' :: more ∧ ',' :: (more ++ back) ∈ rest := by
  obtain ⟨read, ⟨rfl, isName⟩, tail, inRest, same⟩ := Language.mem_mul.mp member
  have named : ∀ c ∈ value.toList, ¬(c ∈ blanks ∨ c = ',') := by
    rintro c member (blank | rfl)
    · exact (unspaced_of_isName isName).notMem_blanks c member blank
    · exact absurd (isName.2 _ member) (by decide)
  rcases List.append_eq_append_iff.mp same with ⟨more, longer, remains⟩ | ⟨more, longer, remains⟩
  · subst remains
    cases more with
    | nil => exact .inl ⟨by simp [longer], inRest⟩
    | cons c more =>
        rcases rests _ inRest c rfl with blank | rfl
        · exact absurd blank (unspaced.notMem_blanks c (by simp [longer]))
        · exact .inr ⟨more, longer, inRest⟩
  · cases more with
    | nil =>
        rw [List.nil_append] at remains
        exact .inl ⟨by simp [longer], remains ▸ inRest⟩
    | cons c more => exact absurd (opens c (by simp [remains])) (named c (by simp [longer]))

/-! ## Projections -/

def clause (column : Projection) : Language Char :=
  spaced "AS" * name column.target + if column.source = column.target then 1 else 0

theorem projection_eq (column : Projection) :
    projection column = name column.source * clause column := by
  unfold projection clause
  rw [mul_add, mul_assoc]
  split
  · rw [mul_one]
  · rw [mul_zero]

theorem mem_clause_mul {column : Projection} :
    text ∈ clause column * rest ↔
      text ∈ gap * (word "AS" * (gap * (name column.target * rest))) ∨
        column.source = column.target ∧ text ∈ rest := by
  unfold clause
  rw [add_mul, Language.mem_add]
  simp only [spaced, mul_assoc]
  split
  · next same => simp [same]
  · next differs => simp [differs]

def asClause (column : Projection) : List Char :=
  if column.source = column.target then [] else " AS ".toList ++ column.target.toList

theorem toList_projection (column : Projection) :
    (Listing.projection column).toList = column.source.toList ++ asClause column := by
  unfold Listing.projection asClause
  split
  · rw [List.append_nil]
  · rw [String.toList_append, String.toList_append, List.append_assoc]

variable {listed : List Projection}

theorem clause_following_opens {column : Projection}
    (member : text ∈ clause column * following projection listed) :
    Opens {c | c ∈ blanks ∨ c = ','} text := by
  rcases mem_clause_mul.mp member with gapped | ⟨_, further⟩
  · obtain ⟨blank, others, rfl, isBlank⟩ := exists_blank_of_gap gapped
    exact opens_cons (.inl isBlank) others
  · exact fun c head => .inr (following_opens further c head)

/-- No item begins with `AS` where a name follows that is not the word again. -/
theorem notMem_as {stem tail : List Char} (unspaced : Unspaced stem)
    (opens : ∀ c ∈ tail.head?, c = ',') :
    'A' :: 'S' :: ' ' :: (stem ++ tail) ∉ separated projection listed := by
  intro member
  cases listed with
  | nil => exact Language.notMem_zero _ member
  | cons column listed =>
      rw [separated_cons, projection_eq, mul_assoc] at member
      have apart : ∀ c ∈ tail.head?, c ∉ blanks ∧ c ∉ "AS".toList := by
        intro c head
        rw [opens c head]
        decide
      have visible : Opens blanksᶜ (stem ++ tail) :=
        opens_append unspaced.visible fun _ c head => (apart c head).1
      have split : ['A', 'S'] ++ ' ' :: (stem ++ tail) ∈
        name column.source * (clause column * following projection listed) := member
      have blank : ' ' ∈ {c | c ∈ blanks ∨ c = ','} := .inl (by decide)
      rcases name_cut (by decide) (opens_cons blank _)
        (fun _ => clause_following_opens) split with ⟨_, behind⟩ | ⟨more, longer, _⟩
      · rcases mem_clause_mul.mp behind with gapped | ⟨_, further⟩
        · exact notMem_word_gap unspaced apart (mem_of_gap gapped visible)
        · exact absurd (following_opens further ' ' rfl) (by decide)
      · have comma : ',' ∈ ['A', 'S'] := by simp [longer]
        exact absurd comma (by decide)

def UnspacedNames (column : Projection) : Prop :=
  Unspaced column.source.toList ∧ Unspaced column.target.toList

def written (columns : List Projection) : List Char :=
  (Listing.names (columns.map Listing.projection)).toList

theorem written_cons (first : Projection) (rest : List Projection) :
    written (first :: rest) =
      first.source.toList ++ (asClause first ++ further (rest.map Listing.projection)) := by
  unfold written Listing.names
  rw [List.map_cons, toList_joined_cons, toList_projection, List.append_assoc]

theorem further_visible (names : List String) : Opens blanksᶜ (further names) := by
  intro c head
  rw [further_opens names c head]
  decide

/-- What is written behind a source is no gap with a list behind it: `AS` would begin the first
item of the list. -/
theorem asClause_notMem_gap {column : Projection} (unspaced : Unspaced column.target.toList)
    (names : List String) :
    asClause column ++ further names ∉ gap * separated projection listed := by
  intro member
  unfold asClause at member
  split at member
  · exact notMem_gap_of_visible (further_visible names) member
  · have gapped : ' ' :: 'A' :: 'S' :: ' ' :: (column.target.toList ++ further names) ∈
      gap * separated projection listed := member
    have behind := mem_of_gap gapped (opens_cons (by decide) _)
    exact notMem_as unspaced (further_opens names) behind

theorem written_notMem_gap {columns : List Projection}
    (unspaced : ∀ column ∈ columns, UnspacedNames column) :
    written columns ∉ gap * separated projection listed := by
  intro member
  cases columns with
  | nil =>
      obtain ⟨c, others, same, _⟩ := exists_blank_of_gap member
      cases same
  | cons first rest =>
      obtain ⟨source, target⟩ := unspaced first List.mem_cons_self
      rw [written_cons] at member
      cases letters : first.source.toList with
      | nil =>
          rw [letters, List.nil_append] at member
          exact asClause_notMem_gap target _ member
      | cons c others =>
          rw [letters] at member source
          exact notMem_gap_of_visible (opens_append source.visible (by simp)) member

theorem asClause_further_opens (column : Projection) (names : List String) :
    Opens {c | c ∈ blanks ∨ c = ','} (asClause column ++ further names) := by
  unfold asClause
  split
  · exact fun c head => .inr (further_opens names c head)
  · exact opens_cons (.inl (by decide)) _

/-- A projection is cut behind its source and, if it has another one, behind its target. -/
theorem projection_cut {first column : Projection} {names : List String}
    (unspaced : UnspacedNames first)
    (member : first.source.toList ++ (asClause first ++ further names) ∈
      name column.source * (clause column * following projection listed)) :
    first = column ∧ further names ∈ following projection listed := by
  obtain ⟨source, target⟩ := first
  obtain ⟨source', target'⟩ := column
  obtain ⟨unspacedSource, unspacedTarget⟩ := unspaced
  rcases name_cut unspacedSource (asClause_further_opens _ names) (fun _ => clause_following_opens)
    member with ⟨sameSource, behind⟩ | ⟨more, longer, behind⟩
  · cases String.toList_inj.mp sameSource
    unfold asClause at behind
    rcases mem_clause_mul.mp behind with gapped | ⟨same, inFollowing⟩
    · split at gapped
      · exact absurd gapped (notMem_gap_of_visible (further_visible names))
      · have split : ' ' :: ("AS".toList ++ ' ' :: (target.toList ++ further names)) ∈
          gap * (word "AS" * (gap * (name target' * following projection listed))) := gapped
        have inWord := mem_of_gap split (opens_cons (by decide) _)
        have inTarget := mem_of_gap (mem_of_word inWord)
          (opens_append unspacedTarget.visible fun _ => further_visible names)
        rcases name_cut unspacedTarget (fun c head => .inr (further_opens names c head))
          (fun _ member c head => .inr (following_opens member c head)) inTarget with
          ⟨sameTarget, inFollowing⟩ | ⟨more, longer, inFollowing⟩
        · cases String.toList_inj.mp sameTarget
          exact ⟨rfl, inFollowing⟩
        · -- the comma would end the item, but no gap follows it
          have clear : Unspaced more := fun c member => unspacedTarget c (by simp [longer, member])
          exact absurd (mem_of_following inFollowing) (notMem_gap_of_visible
            (opens_append clear.visible fun _ => further_visible names))
    · split at inFollowing
      · next kept =>
          have targets : target = target' := kept.symm.trans same
          exact ⟨by rw [targets], inFollowing⟩
      · exact absurd (following_opens inFollowing ' ' rfl) (by decide)
  · exfalso
    rcases mem_clause_mul.mp behind with gapped | ⟨_, inFollowing⟩
    · exact absurd gapped (notMem_gap_of_visible (opens_cons (by decide) _))
    · have gapped := mem_of_following inFollowing
      cases more with
      | nil => exact asClause_notMem_gap unspacedTarget names gapped
      | cons c more =>
          have clear : Unspaced (c :: more) := fun d member =>
            unspacedSource d (by rw [longer]; simp [List.mem_cons.mp member])
          exact notMem_gap_of_visible (opens_append clear.visible (by simp)) gapped

/-- A written list of names without blanks is not the list of anything else. -/
theorem eq_of_written {columns : List Projection}
    (unspaced : ∀ column ∈ columns, UnspacedNames column)
    (member : written columns ∈ separated projection listed) : columns = listed := by
  induction columns generalizing listed with
  | nil =>
      cases listed with
      | nil => rfl
      | cons column others =>
          rw [separated_cons, projection_eq, mul_assoc] at member
          obtain ⟨read, ⟨rfl, filled, _⟩, tail, _, same⟩ := Language.mem_mul.mp member
          exact absurd (List.append_eq_nil_iff.mp same).1 filled
  | cons first rest ih =>
      cases listed with
      | nil => exact absurd member (Language.notMem_zero _)
      | cons column listed =>
          rw [written_cons, separated_cons, projection_eq, mul_assoc] at member
          obtain ⟨rfl, inFollowing⟩ := projection_cut (unspaced first List.mem_cons_self) member
          have others := fun column member => unspaced column (List.mem_cons_of_mem first member)
          congr 1
          cases rest with
          | nil =>
              cases listed with
              | nil => rfl
              | cons next more =>
                  obtain ⟨_, rfl, tail, _, same⟩ := Language.mem_mul.mp inFollowing
                  cases same
          | cons next more =>
              have gapped := mem_of_following inFollowing
              rcases mem_or_mem_gap gapped with here | blank
              · exact ih others here
              · exact absurd blank (written_notMem_gap others)

/-! ## Names -/

theorem written_keep (names : List String) :
    written (names.map Projection.keep) = (Listing.names names).toList := by
  unfold written
  rw [List.map_map]
  congr 2
  refine (List.map_congr_left fun value _ => ?_).trans (List.map_id names)
  exact if_pos rfl

/-- A list of names is a list of projections that keep their names. -/
theorem keep_mem_of_names {listed : List String} (member : text ∈ names listed) :
    text ∈ separated projection (listed.map Projection.keep) := by
  induction listed generalizing text with
  | nil => exact member
  | cons first rest ih =>
      unfold names at member ih
      rw [separated_cons] at member
      rw [List.map_cons, separated_cons]
      obtain ⟨one, inName, more, inRest, rfl⟩ := Language.mem_mul.mp member
      refine Language.append_mem_mul ((Language.mem_add _ _ _).mpr (.inr ?_)) ?_
      · have same : (Projection.keep first).source = (Projection.keep first).target := rfl
        rw [if_pos same]
        exact inName
      · cases rest with
        | nil => exact inRest
        | cons next others =>
            obtain ⟨comma, inComma, tail, inTail, rfl⟩ := Language.mem_mul.mp inRest
            obtain ⟨blank, inGap, list, inList, rfl⟩ := Language.mem_mul.mp inTail
            exact Language.append_mem_mul inComma (Language.append_mem_mul inGap (ih inList))

theorem names_eq_of_written {listed others : List String}
    (unspaced : ∀ value ∈ listed, Unspaced value.toList)
    (member : (Listing.names listed).toList ∈ names others) : listed = others := by
  have kept := keep_mem_of_names member
  rw [← written_keep] at kept
  have same : listed.map Projection.keep = others.map Projection.keep := by
    apply eq_of_written _ kept
    intro column held
    obtain ⟨value, known, rfl⟩ := List.mem_map.mp held
    exact ⟨unspaced value known, unspaced value known⟩
  exact List.map_injective_iff.mpr (fun one other same => congrArg Projection.source same) same

/-! ## Marks -/

/-- The characters of lists of names; all others are marks. -/
def isListChar (c : Char) : Bool := c.isAlphanum || c == '_' || c == ',' || c == ' ' || c == '\t'

def Unmarked (language : Language Char) : Prop :=
  ∀ text ∈ language, ∀ c ∈ text, isListChar c = true

theorem Unmarked.notMem {language : Language Char} (unmarked : Unmarked language)
    (member : text ∈ language) {mark : Char} (isMark : isListChar mark = false) : mark ∉ text := by
  intro held
  rw [unmarked text member mark held] at isMark
  cases isMark

theorem unmarked_mul {first second : Language Char} (one : Unmarked first)
    (other : Unmarked second) : Unmarked (first * second) := by
  intro text member
  obtain ⟨front, inFirst, back, inSecond, rfl⟩ := Language.mem_mul.mp member
  rw [List.forall_mem_append]
  exact ⟨one front inFirst, other back inSecond⟩

theorem unmarked_one : Unmarked 1 := by
  intro text member
  rw [(Language.mem_one text).mp member]
  simp

theorem unmarked_word {word : String} (letters : word.toList.all isListChar = true) :
    Unmarked (Spelling.word word) := by
  rintro text rfl
  exact List.all_eq_true.mp letters

theorem unmarked_gap : Unmarked gap := by
  intro text member c held
  rcases member.2 c held with rfl | rfl <;> rfl

theorem unmarked_name (value : String) : Unmarked (name value) := by
  rintro text ⟨rfl, _, named⟩ c held
  rcases named c held with letter | rfl
  · simp [isListChar, letter]
  · rfl

theorem unmarked_names (listed : List String) : Unmarked (names listed) := by
  induction listed with
  | nil => exact fun text member => absurd member (Language.notMem_zero text)
  | cons first rest ih =>
      unfold names at ih ⊢
      rw [separated_cons]
      apply unmarked_mul (unmarked_name first)
      cases rest with
      | nil => exact unmarked_one
      | cons next others =>
          exact unmarked_mul (unmarked_word (by decide)) (unmarked_mul unmarked_gap ih)

theorem unmarked_asName (result : Option String) : Unmarked (asName result) := by
  cases result with
  | none => exact unmarked_one
  | some target =>
      exact unmarked_mul (unmarked_mul (unmarked_mul unmarked_gap (unmarked_word (by decide)))
        unmarked_gap) (unmarked_name target)

end Spelling

end TableScript
