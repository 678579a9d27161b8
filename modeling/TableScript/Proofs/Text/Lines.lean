import Mathlib.Data.List.TakeWhile
import TableScript.Text.Basic

/-!
# Lines of a text

What trimming leaves of a text, and the lines that a text is cut into, both given without the
functions that compute them (`TrimsTo`, `CutsInto`).  Texts that hold no line feed, are not empty
and neither begin nor end with a blank character come back as lines when they are joined by line
feeds.
-/

namespace TableScript

namespace Text

theorem isBlank_of_isAlphanum {c : Char} (named : c.isAlphanum = true) : isBlank c = false := by
  rw [Bool.eq_false_iff]
  intro blank
  obtain ⟨range, member, low, high⟩ := isBlank_iff.mp blank
  change ((decide (65 ≤ c.toNat ∧ c.toNat ≤ 90) ||
      decide (97 ≤ c.toNat) && decide (c.toNat ≤ 122)) ||
    decide (48 ≤ c.toNat) && decide (c.toNat ≤ 57)) = true at named
  simp only [Bool.or_eq_true, Bool.and_eq_true, decide_eq_true_eq] at named
  -- no range of blanks meets the codes of letters and digits
  have apart : ∀ range ∈ blankRanges, range.2 < 48 ∨ 122 < range.1 := by decide
  have outside := apart range member
  omega

/-- That a text neither begins nor ends with a blank character, and has one that is
not blank. -/
structure Tight (text : List Char) : Prop where
  starts : ∃ first rest, text = first :: rest ∧ isBlank first = false
  ends : ∃ front last, text = front ++ [last] ∧ isBlank last = false

theorem trimChars_of_tight {text : List Char} (tight : Tight text) : trimChars text = text := by
  obtain ⟨⟨first, rest, begins, visible⟩, ⟨front, last, ends, visible'⟩⟩ := tight
  have start : text.dropWhile isBlank = text := by
    rw [begins, List.dropWhile_cons_of_neg (by simp [visible])]
  have back : text.reverse.dropWhile isBlank = text.reverse := by
    rw [ends, List.reverse_append, List.reverse_singleton, List.singleton_append,
      List.dropWhile_cons_of_neg (by simp [visible'])]
  unfold trimChars
  rw [start, back, List.reverse_reverse]

theorem trim_of_tight {line : String} (tight : Tight line.toList) : trim line = line := by
  unfold trim
  rw [trimChars_of_tight tight, String.ofList_toList]

/-! ## Trimming -/

/-- That a text is trimmed to another: it is the other between blank characters, and the
other has no blank at its ends. -/
def TrimsTo (text trimmed : List Char) : Prop :=
  ∃ front back, text = front ++ trimmed ++ back ∧ (∀ c ∈ front, isBlank c = true) ∧
    (∀ c ∈ back, isBlank c = true) ∧ (trimmed = [] ∨ Tight trimmed)

theorem dropWhile_append_blank {text back : List Char} (blank : ∀ c ∈ back, isBlank c = true) :
    (text ++ back).dropWhile isBlank =
      if text.dropWhile isBlank = [] then [] else text.dropWhile isBlank ++ back := by
  rw [List.dropWhile_append]
  cases kept : text.dropWhile isBlank with
  | nil => simpa using List.dropWhile_eq_nil_iff.mpr blank
  | cons c rest => simp

/-- Blank characters at the ends of a text do not count. -/
theorem trimChars_surrounded {front back : List Char} (before : ∀ c ∈ front, isBlank c = true)
    (behind : ∀ c ∈ back, isBlank c = true) (text : List Char) :
    trimChars (front ++ text ++ back) = trimChars text := by
  have reversed : ∀ c ∈ back.reverse, isBlank c = true :=
    fun c member => behind c (List.mem_reverse.mp member)
  unfold trimChars
  rw [List.append_assoc, List.dropWhile_append_of_pos before, dropWhile_append_blank behind]
  split
  · next none => rw [none]
  · rw [List.reverse_append, List.dropWhile_append_of_pos reversed]

theorem not_isBlank_of_dropWhile {text rest : List Char} {first : Char}
    (kept : text.dropWhile isBlank = first :: rest) : isBlank first = false := by
  have head := List.head?_dropWhile_not isBlank text
  rw [kept] at head
  simpa using head

theorem trimsTo_trimChars (text : List Char) : TrimsTo text (trimChars text) := by
  let kept := text.dropWhile isBlank
  have parted : kept = trimChars text ++ (kept.reverse.takeWhile isBlank).reverse := by
    unfold trimChars
    rw [← List.reverse_append, List.takeWhile_append_dropWhile, List.reverse_reverse]
  refine ⟨text.takeWhile isBlank, (kept.reverse.takeWhile isBlank).reverse, ?_, ?_, ?_, ?_⟩
  · rw [List.append_assoc, ← parted]
    exact List.takeWhile_append_dropWhile.symm
  · exact List.all_eq_true.mp List.all_takeWhile
  · intro c member
    exact List.all_eq_true.mp List.all_takeWhile c (List.mem_reverse.mp member)
  · cases trimmed : trimChars text with
    | nil => exact .inl rfl
    | cons first rest =>
        right
        refine ⟨⟨first, rest, rfl, ?_⟩, ?_⟩
        · rw [trimmed] at parted
          exact not_isBlank_of_dropWhile parted
        · cases back : kept.reverse.dropWhile isBlank with
          | nil =>
              have empty : trimChars text = [] := by rw [trimChars, back, List.reverse_nil]
              rw [trimmed] at empty
              cases empty
          | cons last others =>
              refine ⟨others.reverse, last, ?_, not_isBlank_of_dropWhile back⟩
              rw [← trimmed, trimChars, back, List.reverse_cons]

theorem trimsTo_iff {text trimmed : List Char} :
    TrimsTo text trimmed ↔ trimChars text = trimmed := by
  constructor
  · intro trims
    obtain ⟨front, back, rfl, before, behind, empty | tight⟩ := trims
    · rw [trimChars_surrounded before behind, empty]
      rfl
    · rw [trimChars_surrounded before behind, trimChars_of_tight tight]
  · rintro rfl
    exact trimsTo_trimChars text

/-! ## Lines that are joined -/

theorem dropReturn_of_tight {text : List Char} (tight : Tight text) : dropReturn text = text := by
  obtain ⟨front, last, ends, visible⟩ := tight.ends
  have noReturn : last ≠ '\r' := by
    intro same
    rw [same] at visible
    exact absurd visible (by decide)
  unfold dropReturn
  rw [ends, List.getLast?_concat, if_neg]
  intro same
  exact noReturn (Option.some.inj same)

theorem pieces_of_notMem {separator : Char} {text : List Char} (absent : separator ∉ text) :
    pieces separator text = [text] := by
  induction text with
  | nil => rfl
  | cons c rest ih =>
      rw [List.mem_cons, not_or] at absent
      obtain ⟨differs, later⟩ := absent
      simp only [pieces, Ne.symm differs, if_false, ih later]

theorem pieces_append {separator : Char} {text : List Char} (absent : separator ∉ text)
    (rest : List Char) :
    pieces separator (text ++ separator :: rest) = text :: pieces separator rest := by
  induction text with
  | nil => simp [pieces]
  | cons c others ih =>
      rw [List.mem_cons, not_or] at absent
      obtain ⟨differs, later⟩ := absent
      simp only [List.cons_append, pieces, Ne.symm differs, if_false, ih later]

theorem linesOfPieces_of_tight {pieces : List (List Char)} (tight : ∀ piece ∈ pieces, Tight piece) :
    linesOfPieces pieces = pieces := by
  induction pieces with
  | nil => rfl
  | cons piece rest ih =>
      have here := tight piece List.mem_cons_self
      have later := ih fun other member => tight other (List.mem_cons_of_mem _ member)
      cases rest with
      | nil =>
          obtain ⟨first, others, begins, _⟩ := here.starts
          simp [linesOfPieces, begins]
      | cons next others => rw [linesOfPieces, dropReturn_of_tight here, later]

theorem linesOfPieces_joined {lines : List String}
    (tight : ∀ line ∈ lines, Tight line.toList) (single : ∀ line ∈ lines, '\n' ∉ line.toList) :
    linesOfPieces (pieces '\n' (joined "\n" lines).toList) = lines.map String.toList := by
  cases lines with
  | nil => rfl
  | cons first rest =>
      have parted : pieces '\n' (joined "\n" (first :: rest)).toList =
          (first :: rest).map String.toList := by
        clear tight
        induction rest generalizing first with
        | nil => exact pieces_of_notMem (single first List.mem_cons_self)
        | cons next others ih =>
            have split : (joined "\n" (first :: next :: others)).toList =
                first.toList ++ '\n' :: (joined "\n" (next :: others)).toList := by
              have feed : "\n".toList = ['\n'] := by decide
              simp [joined, String.toList_append, feed]
            rw [split, pieces_append (single first List.mem_cons_self),
              ih next fun line member => single line (List.mem_cons_of_mem _ member)]
            rfl
      rw [parted]
      apply linesOfPieces_of_tight
      intro piece member
      obtain ⟨line, known, rfl⟩ := List.mem_map.mp member
      exact tight line known

/-- Lines that are joined by line feeds come apart again. -/
theorem lines_joined {lines : List String} (tight : ∀ line ∈ lines, Tight line.toList)
    (single : ∀ line ∈ lines, '\n' ∉ line.toList) : Text.lines (joined "\n" lines) = lines := by
  unfold Text.lines
  rw [linesOfPieces_joined tight single, List.map_map]
  have same : String.ofList ∘ String.toList = id := by
    funext line
    exact String.ofList_toList
  rw [same, List.map_id]

/-! ## Cutting a text into lines -/

/-- The lines that a text is cut into.  A line ends before a line feed, or before a carriage
return and a line feed; the last line needs no end, but then it is not empty. -/
inductive CutsInto : List Char → List (List Char) → Prop where
  | nothing : CutsInto [] []
  | last {line : List Char} (filled : line ≠ []) (single : '\n' ∉ line) : CutsInto line [line]
  | feed {line rest : List Char} {lines : List (List Char)} (single : '\n' ∉ line)
      (returnless : line.getLast? ≠ some '\r') (cuts : CutsInto rest lines) :
      CutsInto (line ++ '\n' :: rest) (line :: lines)
  | returnFeed {line rest : List Char} {lines : List (List Char)} (single : '\n' ∉ line)
      (cuts : CutsInto rest lines) : CutsInto (line ++ '\r' :: '\n' :: rest) (line :: lines)

theorem linesOfPieces_append {piece : List Char} (single : '\n' ∉ piece) (rest : List Char) :
    linesOfPieces (pieces '\n' (piece ++ '\n' :: rest)) =
      dropReturn piece :: linesOfPieces (pieces '\n' rest) := by
  obtain ⟨next, others, some⟩ := List.exists_cons_of_ne_nil (pieces_ne_nil '\n' rest)
  rw [pieces_append single, some, linesOfPieces]

theorem linesOfPieces_of_cutsInto {text : List Char} {lines : List (List Char)}
    (cuts : CutsInto text lines) : linesOfPieces (pieces '\n' text) = lines := by
  induction cuts with
  | nothing => rfl
  | last filled single =>
      rw [pieces_of_notMem single, linesOfPieces, if_neg (by simpa using filled)]
  | @feed line rest lines single returnless cuts ih =>
      have whole : dropReturn line = line := if_neg returnless
      rw [linesOfPieces_append single, whole, ih]
  | @returnFeed line rest lines single cuts ih =>
      have split : line ++ '\r' :: '\n' :: rest = (line ++ ['\r']) ++ '\n' :: rest := by simp
      have single' : '\n' ∉ line ++ ['\r'] := by simp [single]
      have dropped : dropReturn (line ++ ['\r']) = line := by simp [dropReturn]
      rw [split, linesOfPieces_append single', dropped, ih]

/-- Every text is cut into lines, by its line feeds from the first on. -/
theorem exists_cutsInto (text : List Char) : ∃ lines, CutsInto text lines := by
  induction length : text.length using Nat.strong_induction_on generalizing text with
  | _ n ih =>
      by_cases feeds : '\n' ∈ text
      · obtain ⟨line, rest, rfl, single⟩ := List.eq_append_cons_of_mem feeds
        have shorter : rest.length < n := by
          rw [← length, List.length_append, List.length_cons]
          omega
        obtain ⟨lines, cuts⟩ := ih rest.length shorter rest rfl
        by_cases returns : line.getLast? = some '\r'
        · obtain ⟨front, rfl⟩ := List.getLast?_eq_some_iff.mp returns
          have single' : '\n' ∉ front := fun member => single (List.mem_append_left _ member)
          refine ⟨front :: lines, ?_⟩
          rw [List.append_assoc, List.singleton_append]
          exact .returnFeed single' cuts
        · exact ⟨line :: lines, .feed single returns cuts⟩
      · by_cases empty : text = []
        · exact ⟨[], empty ▸ .nothing⟩
        · exact ⟨[text], .last empty feeds⟩

theorem cutsInto_iff {text : List Char} {lines : List (List Char)} :
    CutsInto text lines ↔ linesOfPieces (pieces '\n' text) = lines := by
  refine ⟨linesOfPieces_of_cutsInto, ?_⟩
  rintro rfl
  obtain ⟨lines, cuts⟩ := exists_cutsInto text
  rwa [linesOfPieces_of_cutsInto cuts]

/-! ## No line holds a line feed -/

theorem notMem_of_mem_pieces {separator : Char} {text piece : List Char}
    (member : piece ∈ pieces separator text) : separator ∉ piece := by
  induction text generalizing piece with
  | nil =>
      simp only [pieces, List.mem_singleton] at member
      subst member
      exact List.not_mem_nil
  | cons c rest ih =>
      simp only [pieces] at member
      split at member
      · obtain same | later := List.mem_cons.mp member
        · subst same
          exact List.not_mem_nil
        · exact ih later
      · next differs =>
          split at member
          · next none => exact absurd none (pieces_ne_nil separator rest)
          · next first others split =>
              obtain same | later := List.mem_cons.mp member
              · subst same
                rw [List.mem_cons, not_or]
                have inside : first ∈ pieces separator rest := by
                  rw [split]
                  exact List.mem_cons_self
                exact ⟨Ne.symm differs, ih inside⟩
              · have inside : piece ∈ pieces separator rest := by
                  rw [split]
                  exact List.mem_cons_of_mem _ later
                exact ih inside

theorem subset_of_mem_linesOfPieces {pieces : List (List Char)} {line : List Char}
    (member : line ∈ linesOfPieces pieces) : ∃ piece ∈ pieces, line ⊆ piece := by
  induction pieces with
  | nil => cases member
  | cons piece rest ih =>
      cases rest with
      | nil =>
          simp only [linesOfPieces] at member
          split at member
          · cases member
          · rw [List.mem_singleton] at member
            subst member
            exact ⟨line, List.mem_cons_self, List.Subset.refl line⟩
      | cons next others =>
          rw [linesOfPieces] at member
          obtain same | later := List.mem_cons.mp member
          · refine ⟨piece, List.mem_cons_self, ?_⟩
            rw [same]
            unfold dropReturn
            split
            · exact List.dropLast_subset piece
            · exact List.Subset.refl piece
          · obtain ⟨other, known, inside⟩ := ih later
            exact ⟨other, List.mem_cons_of_mem _ known, inside⟩

/-- A line holds no line feed. -/
theorem notMem_of_mem_lines {text line : String} (member : line ∈ Text.lines text) :
    '\n' ∉ line.toList := by
  unfold Text.lines at member
  obtain ⟨chars, known, same⟩ := List.mem_map.mp member
  obtain ⟨piece, parted, inside⟩ := subset_of_mem_linesOfPieces known
  rw [← same, String.toList_ofList]
  intro feed
  exact notMem_of_mem_pieces parted (inside feed)

theorem trimChars_subset (text : List Char) : trimChars text ⊆ text := by
  intro c member
  unfold trimChars at member
  rw [List.mem_reverse] at member
  have second := (List.dropWhile_sublist isBlank).subset member
  rw [List.mem_reverse] at second
  exact (List.dropWhile_sublist isBlank).subset second

end Text

end TableScript
