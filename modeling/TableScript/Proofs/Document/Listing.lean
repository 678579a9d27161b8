import TableScript.Listing
import TableScript.Proofs.Document.Faithful
import TableScript.Proofs.Document.Script
import TableScript.Proofs.Grammar.Written

/-!
# Documents that can be printed

A document comes back from its listing exactly if it is made of names, URLs and
lists that a line can spell and no `include` of it names a source twice.  If no URL
of it breaks a line, it comes back from the listing as a script too.
-/

namespace TableScript

/-- Settling the columns of an action keeps it well-formed. -/
theorem Action.wellFormed_settled {action : Action} (wellFormed : action.WellFormed) :
    action.settled.WellFormed := by
  have pairing : ∀ pairing : Pairing, pairing.WellFormed → pairing.settled.WellFormed := by
    intro pairing wellFormed
    obtain ⟨left, right, columns⟩ := wellFormed
    refine ⟨left, right, ?_⟩
    intro column member
    obtain ⟨entry, held, same⟩ := List.mem_map.mp member
    have listed := OrderedMap.mem_of_mem_toList_ofList held
    obtain ⟨first, known, is⟩ := List.mem_map.mp listed
    rw [← same, ← is]
    exact columns first known
  cases action with
  | step it =>
      cases it with
      | join pair => exact pairing pair wellFormed
      | inclusion pair => exact pairing pair wellFormed
      | _ => exact wellFormed
  | invoke rule => exact wellFormed
  | unrecognized name => exact wellFormed

def Action.pairing? : Action → Option Pairing
  | .step (.join pairing) => some pairing
  | .step (.inclusion pairing) => some pairing
  | _ => none

theorem Action.distinct_of_faithful {action : Action} (faithful : action.Faithful) :
    ∀ pairing ∈ action.pairing?, pairing.Distinct := by
  intro pairing paired
  cases action with
  | step it =>
      cases it with
      | join joined =>
          cases paired
          exact faithful
      | inclusion included =>
          cases paired
          exact faithful
      | _ => cases paired
  | invoke rule => cases paired
  | unrecognized name => cases paired

namespace Document

/-- That a document can be printed: its statements can be spelled, and no `include`
names a source twice. -/
structure Printable (document : Document) : Prop where
  wellFormed : ∀ statement ∈ document.statements, statement.WellFormed
  distinct : ∀ action ∈ document.actions, ∀ pairing ∈ action.pairing?, pairing.Distinct

instance (document : Document) : Decidable document.Printable :=
  decidable_of_iff
    ((∀ statement ∈ document.statements, statement.WellFormed) ∧
      ∀ action ∈ document.actions, ∀ pairing ∈ action.pairing?, pairing.Distinct)
    ⟨fun both => ⟨both.1, both.2⟩, fun printable => ⟨printable.wellFormed, printable.distinct⟩⟩

def SingleLine (document : Document) : Prop :=
  ∀ entry ∈ document.header.repositories.toList, '\n' ∉ entry.2.toList

instance (document : Document) : Decidable document.SingleLine :=
  inferInstanceAs (Decidable (∀ entry ∈ document.header.repositories.toList, _))

theorem singleLine_iff {document : Document} :
    document.SingleLine ↔ ∀ statement ∈ document.statements, statement.SingleLine := by
  constructor
  · intro single statement member
    obtain ⟨entry, held, same⟩ | ⟨entry, _, same⟩ | ⟨action, _, same⟩ := mem_statements.mp member
    · rw [same]
      exact single entry held
    · rw [same]
      trivial
    · rw [same]
      trivial
  · intro single entry held
    exact single _ (mem_statements.mpr (.inl ⟨entry, held, rfl⟩))

theorem faithful_of_printable {document : Document} (printable : document.Printable) :
    document.Faithful := by
  intro action member
  cases action with
  | step it =>
      cases it with
      | join pairing => exact printable.distinct _ member pairing rfl
      | inclusion pairing => exact printable.distinct _ member pairing rfl
      | _ => trivial
  | invoke rule => trivial
  | unrecognized name =>
      have listed := mem_statements.mpr (.inr (.inr ⟨_, member, rfl⟩))
      exact absurd (printable.wellFormed _ listed) id

/-! ## What is read from lines can be printed -/

/-- What holds of some statements, and of actions whose columns are settled, holds of
what the statements gather to. -/
theorem forall_mem_statements_gather {property : Statement → Prop} {statements : List Statement}
    (each : ∀ statement ∈ statements, property statement)
    (settles : ∀ action, property (.action action) → property (.action action.settled)) :
    ∀ statement ∈ (gather statements).statements, property statement := by
  intro statement member
  obtain known | ⟨action, known, same⟩ := mem_statements_gather member
  · exact each statement known
  · rw [same]
    exact settles action (each _ known)

theorem printable_of_parseLines {lines : List (Nat × String)} {document : Document}
    (read : parseLines lines = .ok document) : document.Printable := by
  have faithful := faithful_of_parseLines read
  obtain ⟨statements, spelled, same⟩ := parseLines_eq_ok_iff.mp read
  constructor
  · rw [same]
    apply forall_mem_statements_gather
    · intro statement member
      obtain ⟨line, _, spells⟩ := Related.exists_right spelled member
      exact Statement.wellFormed_of_spells spells
    · intro action wellFormed
      exact Action.wellFormed_settled wellFormed
  · intro action member
    exact Action.distinct_of_faithful (faithful action member)

theorem singleLine_of_parseScript {script : String} {document : Document}
    (read : parseScript script = .ok document) : document.SingleLine := by
  obtain ⟨statements, spelled, same⟩ := parseLines_eq_ok_iff.mp read
  rw [singleLine_iff, same]
  apply forall_mem_statements_gather
  · intro statement member
    obtain ⟨line, known, spells⟩ := Related.exists_right spelled member
    rw [Script.map_snd_numberedLines] at known
    -- trimming a line adds nothing to it, and no line of a text holds a line feed
    obtain ⟨whole, listed, trimmed⟩ := List.mem_map.mp (List.mem_filter.mp known).1
    rw [Statement.singleLine_iff_of_spells spells, ← trimmed]
    intro feed
    unfold Text.trim at feed
    rw [String.toList_ofList] at feed
    exact Text.notMem_of_mem_lines listed (Text.trimChars_subset whole.toList feed)
  · intro action single
    exact single

/-! ## What can be printed is read again -/

/-- The listing of a document that can be printed spells its statements line by line. -/
theorem exists_listing {document : Document} (printable : document.Printable) :
    ∃ lines, document.listing = .ok lines ∧
      List.Forall₂ Statement.Spells document.statements lines := by
  apply Except.exists_mapM_eq_ok
  intro statement member
  exact Statement.spells_line (printable.wellFormed statement member)

/-- Numbered lines that spell the statements of a document are read as the document. -/
theorem parseLines_of_spelled {document : Document} (printable : document.Printable)
    {lines : List (Nat × String)}
    (spelled : List.Forall₂ Statement.Spells document.statements (lines.map Prod.snd)) :
    parseLines lines = .ok document := by
  have faithful := faithful_of_printable printable
  have whole : gather document.statements = document := by
    apply gather_statements
    intro action member
    exact Action.settled_of_faithful (faithful action member)
  rw [parseLines_eq_ok_iff]
  exact ⟨document.statements, spelled, whole.symm⟩

/-- A document comes back from its listing exactly if it can be printed; it comes back
from the listing as one script, and as the rule of this script, if moreover its URLs
keep to their lines.  Both hold of every document of a script. -/
theorem listing_comes_back_iff_printable (document : Document) :
    ((∃ lines, document.listing = .ok lines ∧ ofLines lines = .ok document) ↔
        document.Printable) ∧
      (document.Printable → document.SingleLine →
        ∃ lines, document.listing = .ok lines ∧
          parseScript (Text.joined "\n" lines) = .ok document ∧
          Rule.compile (Text.joined "\n" lines) = .ok (Rule.ofDocument document)) ∧
      ∀ script, parseScript script = .ok document → document.Printable ∧ document.SingleLine := by
  refine ⟨⟨?_, ?_⟩, ?_, ?_⟩
  · intro found
    obtain ⟨lines, _, read⟩ := found
    exact printable_of_parseLines read
  · intro printable
    obtain ⟨lines, listed, spelled⟩ := exists_listing printable
    refine ⟨lines, listed, parseLines_of_spelled printable ?_⟩
    rw [Script.map_snd_numbered]
    exact spelled
  · intro printable single
    obtain ⟨lines, listed, spelled⟩ := exists_listing printable
    have read : parseScript (Text.joined "\n" lines) = .ok document := by
      apply parseLines_of_spelled printable
      rw [Script.map_snd_numberedLines_joined spelled (singleLine_iff.mp single)]
      exact spelled
    refine ⟨lines, listed, read, ?_⟩
    unfold Rule.compile
    rw [read]
    rfl
  · intro script read
    exact ⟨printable_of_parseLines read, singleLine_of_parseScript read⟩

def worded : Document :=
  ⟨⟨.ofList [("INCLUDE", ["USING", "AS"])], .ofList [("AS", "AS:#")]⟩,
    [.step (.join ⟨["AS"], ["USING"], [⟨"INCLUDE", "AS"⟩, ⟨"AS", "AS"⟩]⟩),
      .step (.commit "POP" none)]⟩

theorem worded_comes_back :
    worded.Printable ∧ worded.SingleLine ∧
      ∃ lines, worded.listing = .ok lines ∧
        parseScript (Text.joined "\n" lines) = .ok worded ∧
        Rule.compile (Text.joined "\n" lines) = .ok (Rule.ofDocument worded) := by
  have printable : worded.Printable := by decide
  have single : worded.SingleLine := by decide
  exact ⟨printable, single, (listing_comes_back_iff_printable worded).2.1 printable single⟩

end Document

end TableScript
