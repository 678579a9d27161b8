import TableScript.Proofs.Document.Listing
import TableScript.Proofs.Grammar.Plain

/-!
# What listings mean

A document that is read from JSON may hold any strings as names, and its listing has them as
they are.  What is read from the listing is the document itself, or nothing, if the names hold
no blanks and no table that is committed as a whole holds an opening bracket.  Otherwise it is
nothing or another document.
-/

namespace TableScript

/-- Whatever lines are refused for, it is their syntax. -/
theorem Document.exists_eq_parse_of_ofLines {lines : List String} {error : Error}
    (failed : ofLines lines = .error error) : ∃ fault, error = .parse fault := by
  unfold ofLines at failed
  cases read : Script.parseLines (Script.numbered 1 lines) with
  | error fault =>
      unfold parseLines at failed
      rw [read] at failed
      cases failed
      exact ⟨fault, rfl⟩
  | ok statements =>
      have accepted := parseLines_eq_ok_iff.mpr ⟨_, Script.parseLines_eq_ok_iff.mp read, rfl⟩
      rw [failed] at accepted
      cases accepted

namespace Document

/-- That all names of a document are such that its lines spell nothing else. -/
def Plain (document : Document) : Prop := ∀ statement ∈ document.statements, statement.Plain

variable {document other : Document} {lines : List String}

theorem exists_listing_of_known (known : ∀ name, .unrecognized name ∉ document.actions) :
    ∃ lines, document.listing = .ok lines := by
  have each : ∀ statement ∈ document.statements,
      ∃ line, statement.line = .ok line ∧ True := by
    intro statement member
    cases statement with
    | expects table columns => exact ⟨_, rfl, trivial⟩
    | attach url name => exact ⟨_, rfl, trivial⟩
    | action it =>
        cases it with
        | step it => exact ⟨_, rfl, trivial⟩
        | invoke rule => exact ⟨_, rfl, trivial⟩
        | unrecognized name =>
            rcases mem_statements.mp member with ⟨_, _, same⟩ | ⟨_, _, same⟩ | ⟨_, held, same⟩
            · cases same
            · cases same
            · cases same
              exact absurd held (known name)
  obtain ⟨lines, listed, _⟩ := Except.exists_mapM_eq_ok each
  exact ⟨lines, listed⟩

/-- Lines that are written for plain statements spell no others. -/
theorem statements_eq_of_plain {statements others : List Statement}
    (plain : ∀ statement ∈ statements, statement.Plain)
    (written : List.Forall₂ (fun statement line => Statement.line statement = .ok line)
      statements lines)
    (spelled : List.Forall₂ Statement.Spells others lines) : statements = others := by
  induction written generalizing others with
  | nil =>
      cases spelled
      rfl
  | cons line _ ih =>
      cases spelled with
      | cons spells later =>
          obtain ⟨first, rest⟩ := List.forall_mem_cons.mp plain
          rw [Statement.eq_of_plain first line spells, ih rest later]

theorem eq_of_plain (faithful : document.Faithful) (plain : document.Plain)
    (listed : document.listing = .ok lines) (read : ofLines lines = .ok other) :
    other = document := by
  obtain ⟨statements, spelled, same⟩ := parseLines_eq_ok_iff.mp read
  rw [Script.map_snd_numbered] at spelled
  rw [same, ← statements_eq_of_plain plain (Except.forall₂_of_mapM_eq_ok listed) spelled]
  apply gather_statements
  intro action member
  exact Action.settled_of_faithful (faithful action member)

/-- The listing of a document from a JSON text is refused for its syntax, or it is read as a
document.  This is the same document exactly if no name and no URL holds a blank, and no table
that is committed as a whole an opening bracket. -/
theorem listing_means_itself_iff_plain {text : String} (read : parseJson text = .ok document)
    (known : ∀ name, .unrecognized name ∉ document.actions) :
    ∃ lines, document.listing = .ok lines ∧
      ((∃ fault, ofLines lines = .error (.parse fault)) ∨
        ∃ other, ofLines lines = .ok other ∧ (other = document ↔ document.Plain)) := by
  obtain ⟨lines, listed⟩ := exists_listing_of_known known
  refine ⟨lines, listed, ?_⟩
  cases result : ofLines lines with
  | error error =>
      obtain ⟨fault, rfl⟩ := exists_eq_parse_of_ofLines result
      exact .inl ⟨fault, rfl⟩
  | ok other =>
      refine .inr ⟨other, rfl, ?_, fun plain =>
        eq_of_plain (faithful_of_parseJson read) plain listed result⟩
      rintro rfl statement member
      exact Statement.plain_of_wellFormed
        ((printable_of_parseLines result).wellFormed statement member)

theorem parseJson_of_faithful (faithful : document.Faithful) :
    parseJson document.toJson.pretty = .ok document :=
  (parseJson_pretty document).trans (ofTree_toTree_of_faithful faithful)

/-- A document whose URL holds the marks of all statements. -/
def marked : Document :=
  ⟨⟨.empty, .ofList [("r", "[u],v:(w)")]⟩, [.step (.commit "t" (some ["a"]))]⟩

theorem marked_means_itself :
    parseJson marked.toJson.pretty = .ok marked ∧ marked.Plain ∧
      ∃ lines, marked.listing = .ok lines ∧ ofLines lines = .ok marked := by
  have faithful : marked.Faithful := by
    rintro action (_ | ⟨_, ⟨⟩⟩)
    trivial
  have read := parseJson_of_faithful faithful
  have listed : marked.listing = .ok ["ATTACH [u],v:(w) AS r", "COMMIT t[a]"] := by rfl
  have back : ofLines ["ATTACH [u],v:(w) AS r", "COMMIT t[a]"] = .ok marked := by decide +kernel
  obtain ⟨lines, written, result⟩ := listing_means_itself_iff_plain read fun name held => by
    rcases held with _ | ⟨_, ⟨⟩⟩
  cases listed.symm.trans written
  rcases result with ⟨fault, failed⟩ | ⟨other, same, meant⟩
  · cases back.symm.trans failed
  · cases back.symm.trans same
    exact ⟨read, meant.mp rfl, _, listed, back⟩

/-- The name of a table that is committed as a whole can forge columns. -/
theorem bracketed_table_forges_columns :
    ¬∀ (text : String) (document other : Document) (lines : List String),
      parseJson text = .ok document → (∀ name, .unrecognized name ∉ document.actions) →
      (∀ statement ∈ document.statements, ∀ name ∈ statement.names,
        ¬", ".toList <:+: name.toList) →
      document.listing = .ok lines → ofLines lines = .ok other → other = document := by
  intro means
  let forging : Document := ⟨.empty, [.step (.commit "x[a]" none)]⟩
  have faithful : forging.Faithful := by
    rintro action (_ | ⟨_, ⟨⟩⟩)
    trivial
  have listed : forging.listing = .ok ["COMMIT x[a]"] := by rfl
  have meant : ofLines ["COMMIT x[a]"] = .ok ⟨.empty, [.step (.commit "x" (some ["a"]))]⟩ := by
    decide +kernel
  have same := means _ forging _ _ (parseJson_of_faithful faithful)
    (fun name held => by rcases held with _ | ⟨_, ⟨⟩⟩) (by decide) listed meant
  exact absurd same (by decide)

end Document

end TableScript
