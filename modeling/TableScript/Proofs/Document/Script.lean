import TableScript.Document.Script
import TableScript.Proofs.Document.Draft
import TableScript.Proofs.Grammar.Edges

/-!
# Documents of scripts

A script is accepted exactly if every line of it that counts spells a statement, and
its document is what these statements gather to.
-/

namespace TableScript

namespace Statement

/-- The number of a line matters for its error only. -/
theorem parseAt_eq_ok_iff {number : Nat} {text : String} {statement : Statement} :
    parseAt number text = .ok statement ↔ statement.Spells text := by
  have anywhere : parseAt number text = .ok statement ↔ parse text = .ok statement := by
    unfold parse parseAt
    cases Grammar.statement.parse text.toList with
    | none => simp
    | some read => rfl
  rw [anywhere]
  exact ⟨spells_of_parse, parse_of_spells⟩

end Statement

namespace Action

theorem readable_of_wellFormed {action : Action} (wellFormed : action.WellFormed) :
    action.Readable := by
  cases action with
  | step it => trivial
  | invoke rule => trivial
  | unrecognized name => exact absurd wellFormed id

end Action

namespace Script

/-- Numbered lines are read as the statements that they spell. -/
theorem parseLines_eq_ok_iff {lines : List (Nat × String)} {statements : List Statement} :
    parseLines lines = .ok statements ↔
      List.Forall₂ Statement.Spells statements (lines.map Prod.snd) := by
  induction lines generalizing statements with
  | nil =>
      constructor
      · intro read
        cases read
        exact .nil
      · intro spelled
        cases spelled
        rfl
  | cons line rest ih =>
      obtain ⟨number, text⟩ := line
      constructor
      · intro read
        obtain ⟨first, here, read⟩ := Except.bind_eq_ok.mp read
        obtain ⟨others, later, same⟩ := Except.bind_eq_ok.mp read
        cases same
        exact .cons (Statement.parseAt_eq_ok_iff.mp here) (ih.mp later)
      · intro spelled
        cases spelled with
        | cons here later =>
            have first : Statement.parseAt number text = .ok _ :=
              Statement.parseAt_eq_ok_iff.mpr here
            have others := ih.mpr later
            unfold parseLines
            rw [first, others]
            rfl

theorem map_snd_numbered {α : Type} (first : Nat) (items : List α) :
    (numbered first items).map Prod.snd = items := by
  induction items generalizing first with
  | nil => rfl
  | cons item rest ih => exact congrArg (item :: ·) (ih (first + 1))

/-- The lines of a script that count, without their numbers. -/
theorem map_snd_numberedLines (script : String) :
    (numberedLines script).map Prod.snd =
      ((Text.lines script).map Text.trim).filter isStatement := by
  have trimmed : (Text.lines script).map Text.trim =
      ((numbered 1 (Text.lines script)).map fun line => (line.1, Text.trim line.2)).map
        Prod.snd := by
    rw [List.map_map]
    have same : Prod.snd ∘ (fun line : Nat × String => (line.1, Text.trim line.2)) =
        Text.trim ∘ Prod.snd := rfl
    rw [same, ← List.map_map, map_snd_numbered]
  rw [trimmed, List.filter_map]
  rfl

/-- Lines that spell statements make a script in which all of them count. -/
theorem map_snd_numberedLines_joined {statements : List Statement} {lines : List String}
    (spelled : List.Forall₂ Statement.Spells statements lines)
    (single : ∀ statement ∈ statements, statement.SingleLine) :
    (numberedLines (Text.joined "\n" lines)).map Prod.snd = lines := by
  have each : ∀ line ∈ lines,
      Text.Tight line.toList ∧ '\n' ∉ line.toList ∧ isStatement line = true := by
    intro line member
    obtain ⟨statement, known, spells⟩ := Related.exists_left spelled member
    exact ⟨Statement.tight_of_spells spells,
      (Statement.singleLine_iff_of_spells spells).mp (single statement known),
      Statement.isStatement_of_spells spells⟩
  have trimmed : lines.map Text.trim = lines :=
    (List.map_congr_left fun line member => Text.trim_of_tight (each line member).1).trans
      (List.map_id lines)
  rw [map_snd_numberedLines,
    Text.lines_joined (fun line member => (each line member).1)
      (fun line member => (each line member).2.1), trimmed]
  exact List.filter_eq_self.mpr fun line member => (each line member).2.2

end Script

namespace Document

/-- The document of numbered lines is gathered from the statements they spell. -/
theorem parseLines_eq_ok_iff {lines : List (Nat × String)} {document : Document} :
    parseLines lines = .ok document ↔
      ∃ statements, List.Forall₂ Statement.Spells statements (lines.map Prod.snd) ∧
        document = gather statements := by
  have gathers : ∀ statements, List.Forall₂ Statement.Spells statements (lines.map Prod.snd) →
      ofStatements statements = .ok (gather statements) := by
    intro statements spelled
    apply ofStatements_eq
    intro action member
    obtain ⟨statement, known, acts⟩ := List.mem_filterMap.mp member
    obtain ⟨line, _, spells⟩ := Related.exists_right spelled known
    have wellFormed := Statement.wellFormed_of_spells spells
    rw [Statement.action?_eq_some_iff.mp acts] at wellFormed
    exact Action.readable_of_wellFormed wellFormed
  unfold parseLines
  cases read : Script.parseLines lines with
  | error error =>
      refine iff_of_false (fun failed => by cases failed) ?_
      intro found
      obtain ⟨statements, spelled, _⟩ := found
      rw [Script.parseLines_eq_ok_iff.mpr spelled] at read
      cases read
  | ok statements =>
      have spelled := Script.parseLines_eq_ok_iff.mp read
      show (ofStatements statements).mapError Error.document = _ ↔ _
      rw [gathers statements spelled]
      constructor
      · intro same
        cases same
        exact ⟨statements, spelled, rfl⟩
      · intro found
        obtain ⟨others, alike, same⟩ := found
        -- what a line spells is unique, for reading it gives one statement
        have once : Script.parseLines lines = .ok others := Script.parseLines_eq_ok_iff.mpr alike
        rw [read] at once
        cases once
        rw [same]
        rfl

end Document

end TableScript
