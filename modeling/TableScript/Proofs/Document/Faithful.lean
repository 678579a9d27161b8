import TableScript.Document.Merge
import TableScript.Document.Script
import TableScript.Proofs.Document.Codec
import TableScript.Proofs.Document.Json

/-!
# Documents that come back

A document comes back from its tree exactly if no `include` of it names a source
twice and it holds no unknown action under a known name.  Whatever is read from a
tree is such a document, and every way to obtain a document ends with reading one.
-/

namespace TableScript

namespace Action

def Faithful : Action → Prop
  | .step (.join pairing) => pairing.Distinct
  | .step (.inclusion pairing) => pairing.Distinct
  | .unrecognized name => name ∉ knownNames
  | _ => True

theorem readable_of_faithful {action : Action} (faithful : action.Faithful) :
    action.Readable := by
  cases action with
  | step it => trivial
  | invoke rule => trivial
  | unrecognized name => exact faithful

theorem settled_of_faithful {action : Action} (faithful : action.Faithful) :
    action.settled = action := by
  cases action with
  | step it =>
      cases it with
      | join pairing =>
          show Action.step (.join pairing.settled) = .step (.join pairing)
          rw [Pairing.settled_of_distinct faithful]
      | inclusion pairing =>
          show Action.step (.inclusion pairing.settled) = .step (.inclusion pairing)
          rw [Pairing.settled_of_distinct faithful]
      | _ => rfl
  | invoke rule => rfl
  | unrecognized name => rfl

end Action

/-! ## What is read is faithful -/

theorem Pairing.distinct_of_projectionsOf {node : Node} {projections : List Projection}
    (read : projectionsOf node = .ok projections) :
    (projections.map Projection.source).Nodup := by
  unfold projectionsOf at read
  rw [Except.bind_eq_ok] at read
  obtain ⟨entries, _, listed⟩ := read
  have made := Except.forall₂_of_mapM_eq_ok listed
  have sources : projections.map Projection.source = entries.toList.map Prod.fst := by
    clear listed
    generalize entries.toList = items at made
    induction made with
    | nil => rfl
    | cons first others ih =>
        obtain ⟨target, _, same⟩ := Except.map_eq_ok.mp first
        subst same
        exact congrArg _ ih
  rw [sources]
  exact entries.toList_nodup

theorem Pairing.distinct_of_ofTree {owner : String} {tree : Tree} {pairing : Pairing}
    (read : ofTree owner tree = .ok pairing) : pairing.Distinct := by
  unfold ofTree at read
  simp only [Except.bind_eq_ok] at read
  obtain ⟨keys, _, listed, included, leftKeys, _, rightKeys, _, same⟩ := read
  cases same
  cases listed with
  | none => exact List.nodup_nil
  | some projections =>
      obtain ⟨node, _, made⟩ := Tree.optionalField_eq_some_iff.mp included
      exact distinct_of_projectionsOf made

namespace Action

theorem faithful_of_ofTree {tree : Tree} {action : Action} (read : ofTree tree = .ok action) :
    action.Faithful := by
  unfold ofTree at read
  rw [Except.bind_eq_ok] at read
  obtain ⟨name, _, read⟩ := read
  split at read
  · obtain ⟨table, _, same⟩ := Except.bind_eq_ok.mp read
    cases same
    trivial
  · cases read
    trivial
  · cases read
    trivial
  · obtain ⟨it, made, same⟩ := Except.bind_eq_ok.mp read
    cases same
    simp only [commitOfTree, Except.bind_eq_ok] at made
    obtain ⟨table, _, columns, _, same⟩ := made
    cases same
    trivial
  · obtain ⟨pairing, made, same⟩ := Except.bind_eq_ok.mp read
    cases same
    exact Pairing.distinct_of_ofTree made
  · obtain ⟨pairing, made, same⟩ := Except.bind_eq_ok.mp read
    cases same
    exact Pairing.distinct_of_ofTree made
  · obtain ⟨it, made, same⟩ := Except.bind_eq_ok.mp read
    cases same
    simp only [accumulateOfTree, Except.bind_eq_ok] at made
    obtain ⟨function, _, column, _, call, _, result, _, same⟩ := made
    cases same
    trivial
  · obtain ⟨it, made, same⟩ := Except.bind_eq_ok.mp read
    cases same
    simp only [pullOfTree, Except.bind_eq_ok] at made
    obtain ⟨space, _, table, _, version, _, target, _, same⟩ := made
    cases same
    trivial
  · simp only [invokeOfTree, Except.bind_eq_ok] at read
    obtain ⟨space, _, rule, _, version, _, same⟩ := read
    cases same
    trivial
  · next push pop duplicate commit join inclusion accumulate pull invoke =>
      -- a name is kept as unknown after it was compared with all that are known
      cases read
      show name ∉ knownNames
      unfold knownNames
      simp only [List.mem_cons, List.not_mem_nil, or_false, not_or]
      exact ⟨push, pop, duplicate, commit, join, inclusion, accumulate, pull, invoke⟩

end Action

namespace Document

/-- That a document comes back from its tree. -/
def Faithful (document : Document) : Prop := ∀ action ∈ document.actions, action.Faithful

theorem faithful_of_ofTree {tree : Tree} {document : Document}
    (read : ofTree tree = .ok document) : document.Faithful := by
  obtain ⟨items, _, each⟩ := readsAction_of_ofTree read
  intro action member
  obtain ⟨item, _, fields, _, made⟩ := Related.exists_left each member
  exact Action.faithful_of_ofTree made

theorem ofTree_toTree_of_faithful {document : Document} (faithful : document.Faithful) :
    ofTree document.toTree = .ok document := by
  have settled : document.actions.map Action.settled = document.actions := by
    have each : ∀ action ∈ document.actions, action.settled = action := by
      intro action member
      exact Action.settled_of_faithful (faithful action member)
    exact (List.map_congr_left each).trans (List.map_id _)
  rw [ofTree_toTree fun action member => Action.readable_of_faithful (faithful action member),
    settled]

/-! ## Every document that can be had -/

/-- The documents that can be had: they are read from JSON text, from lines or from
a script, or merged from documents that can be had. -/
inductive Obtained : Document → Prop
  | json {text : String} {document : Document} :
      parseJson text = .ok document → Obtained document
  | lines {lines : List String} {document : Document} :
      ofLines lines = .ok document → Obtained document
  | script {script : String} {document : Document} :
      parseScript script = .ok document → Obtained document
  | merge {first second document : Document} :
      Obtained first → Obtained second → first.merge second = .ok document → Obtained document
  | combine {documents : List Document} {document : Document} :
      (∀ part ∈ documents, Obtained part) → combine documents = .ok document → Obtained document

theorem faithful_of_parseLines {lines : List (Nat × String)} {document : Document}
    (read : parseLines lines = .ok document) : document.Faithful := by
  unfold parseLines at read
  split at read
  · cases read
  · next statements _ =>
      unfold ofStatements Draft.document at read
      cases made : ofTree (Draft.ofStatements statements).tree with
      | error error =>
          rw [made] at read
          cases read
      | ok other =>
          rw [made] at read
          cases read
          exact faithful_of_ofTree made

theorem faithful_of_parseJson {text : String} {document : Document}
    (read : parseJson text = .ok document) : document.Faithful := by
  unfold parseJson at read
  split at read
  · obtain ⟨tree, _, made⟩ := Except.bind_eq_ok.mp read
    exact faithful_of_ofTree made
  · cases read

theorem faithful_of_combine {documents : List Document} {document : Document}
    (combined : combine documents = .ok document) : document.Faithful := by
  unfold combine at combined
  split at combined
  · exact faithful_of_ofTree combined
  · cases combined
    intro action member
    cases member

theorem faithful_of_obtained {document : Document} (obtained : document.Obtained) :
    document.Faithful := by
  cases obtained with
  | json read => exact faithful_of_parseJson read
  | lines read => exact faithful_of_parseLines read
  | script read => exact faithful_of_parseLines read
  | merge _ _ merged => exact faithful_of_ofTree merged
  | combine _ combined => exact faithful_of_combine combined

/-- A document comes back from its tree exactly if it is faithful.  All documents
that can be had are, and come back from their JSON text too. -/
theorem comes_back_iff_faithful (document : Document) :
    (ofTree document.toTree = .ok document ↔ document.Faithful) ∧
      (document.Obtained →
        document.Faithful ∧ parseJson document.toJson.pretty = .ok document) := by
  refine ⟨⟨faithful_of_ofTree, ofTree_toTree_of_faithful⟩, ?_⟩
  intro obtained
  have faithful := faithful_of_obtained obtained
  refine ⟨faithful, ?_⟩
  rw [parseJson_pretty]
  exact ofTree_toTree_of_faithful faithful

end Document

end TableScript
