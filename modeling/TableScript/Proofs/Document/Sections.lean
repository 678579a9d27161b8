import TableScript.Proofs.Document.Combine

/-!
# The headers of combined documents

What combined documents say of a table or of a repository is what the last document says
that mentions it.  So it makes no difference to the header whether documents are combined
all at once, or in two parts whose results are merged.
-/

namespace TableScript

/-- A key is looked up in one list after the other. -/
theorem Lookup.flatMap_eq {α β : Type*} (parts : List β) (entries : β → List (String × α))
    (key : String) :
    (parts.flatMap entries).lookup key = parts.findSome? fun part => (entries part).lookup key := by
  induction parts with
  | nil => rfl
  | cons part rest ih =>
      rw [List.flatMap_cons, List.lookup_append, ih, List.findSome?_cons]
      cases (entries part).lookup key with
      | none => rfl
      | some value => rfl

/-- Headers that answer alike are the same. -/
theorem Header.ext_get? {first second : Header}
    (expects : ∀ table, first.expects.get? table = second.expects.get? table)
    (repositories : ∀ name, first.repositories.get? name = second.repositories.get? name) :
    first = second := by
  cases first
  cases second
  congr 1
  · exact SortedMap.ext_get? expects
  · exact SortedMap.ext_get? repositories

namespace Document

/-- What the last of some documents says that says anything. -/
def lastSaid? {α : Type} (word : Document → Option α) (documents : List Document) : Option α :=
  documents.reverse.findSome? word

variable {α : Type} (word : Document → Option α)

theorem lastSaid?_append (first second : List Document) :
    lastSaid? word (first ++ second) = (lastSaid? word second).or (lastSaid? word first) := by
  unfold lastSaid?
  rw [List.reverse_append, List.findSome?_append]

theorem lastSaid?_singleton (document : Document) :
    lastSaid? word [document] = word document := by
  unfold lastSaid?
  rw [List.reverse_singleton, List.findSome?_singleton]

/-- Of maps whose entries are gathered in turn the last one that has a key decides. -/
theorem get?_ofList_flatMap (map : Document → SortedMap α) (documents : List Document)
    (key : String) :
    (SortedMap.ofList (documents.flatMap fun document => (map document).toList)).get? key =
      lastSaid? (fun document => (map document).get? key) documents := by
  have backwards : ∀ document, (map document).toList.reverse.lookup key =
      (map document).get? key := fun document => Lookup.reverse_eq (map document).keys_nodup key
  rw [SortedMap.get?_ofList, List.reverse_flatMap, Lookup.flatMap_eq]
  simp only [Function.comp_apply, backwards]
  rfl

theorem get?_expects_lastHeader (documents : List Document) (table : String) :
    (lastHeader documents).expects.get? table =
      lastSaid? (fun document => document.header.expects.get? table) documents :=
  get?_ofList_flatMap (fun document => document.header.expects) documents table

theorem get?_repositories_lastHeader (documents : List Document) (name : String) :
    (lastHeader documents).repositories.get? name =
      lastSaid? (fun document => document.header.repositories.get? name) documents :=
  get?_ofList_flatMap (fun document => document.header.repositories) documents name

/-- The last word of two parts is the last word of all. -/
theorem lastHeader_parts {one other : Document} {first second : List Document}
    (begins : one.header = lastHeader first) (follows : other.header = lastHeader second) :
    lastHeader [one, other] = lastHeader (first ++ second) := by
  have parted : [one, other] = [one] ++ [other] := rfl
  apply Header.ext_get?
  · intro table
    simp only [get?_expects_lastHeader, parted, lastSaid?_append, lastSaid?_singleton, begins,
      follows]
  · intro name
    simp only [get?_repositories_lastHeader, parted, lastSaid?_append, lastSaid?_singleton, begins,
      follows]

/-- Documents can be combined all at once, or in two parts that are merged.  Both ways lead
to the same header, in which every table and every repository has what the last document
says that mentions it. -/
theorem parts_merge_to_whole_header (first second : List Document)
    (obtained : ∀ document ∈ first ++ second, document.Obtained) :
    ∃ one other whole merged, combine first = .ok one ∧ combine second = .ok other ∧
      combine (first ++ second) = .ok whole ∧ one.merge other = .ok merged ∧
      merged.header = whole.header ∧
      (∀ table, whole.header.expects.get? table =
        lastSaid? (fun document => document.header.expects.get? table) (first ++ second)) ∧
      ∀ name, whole.header.repositories.get? name =
        lastSaid? (fun document => document.header.repositories.get? name) (first ++ second) := by
  have faithful : ∀ document ∈ first ++ second, document.Faithful := fun document member =>
    faithful_of_obtained (obtained document member)
  have combined := combine_eq faithful
  have one := combine_eq fun document member => faithful document (List.mem_append_left _ member)
  have other := combine_eq fun document member =>
    faithful document (List.mem_append_right _ member)
  have merged := merge_eq (faithful_of_combine one) (faithful_of_combine other)
  exact ⟨_, _, _, _, one, other, combined, merged, lastHeader_parts rfl rfl,
    get?_expects_lastHeader _, get?_repositories_lastHeader _⟩

/-- A repository and a table that two parts know under different columns, with actions of
several kinds riding along. -/
theorem redeclared_parts_merge :
    ∃ first second third : Document,
      ofLines ["EXPECTS t[a, b]", "ATTACH u AS r", "COMMIT t[a]"] = .ok first ∧
      ofLines ["POP", "JOIN USING [[k], [k]] INCLUDE [a AS c]"] = .ok second ∧
      ofLines ["COMMIT t", "EXPECTS t[c]", "PUSH t"] = .ok third ∧
      ∃ one other whole merged, combine [first] = .ok one ∧ combine [second, third] = .ok other ∧
        combine [first, second, third] = .ok whole ∧ one.merge other = .ok merged ∧
        merged.header = whole.header ∧ whole.header.expects.get? "t" = some ["c"] ∧
        whole.header.repositories.get? "r" = some "u" := by
  have first : ofLines ["EXPECTS t[a, b]", "ATTACH u AS r", "COMMIT t[a]"] =
      .ok ⟨⟨.ofList [("t", ["a", "b"])], .ofList [("r", "u")]⟩,
        [.step (.commit "t" (some ["a"]))]⟩ := by decide +kernel
  have second : ofLines ["POP", "JOIN USING [[k], [k]] INCLUDE [a AS c]"] =
      .ok ⟨.empty, [.step .pop, .step (.join ⟨["k"], ["k"], [⟨"a", "c"⟩]⟩)]⟩ := by decide +kernel
  have third : ofLines ["COMMIT t", "EXPECTS t[c]", "PUSH t"] =
      .ok ⟨⟨.ofList [("t", ["c"])], .empty⟩, [.step (.commit "t" none), .step (.push "t")]⟩ := by
    decide +kernel
  refine ⟨_, _, _, first, second, third, ?_⟩
  obtain ⟨one, other, whole, merged, oneIs, otherIs, wholeIs, mergedIs, same, tables, names⟩ :=
    parts_merge_to_whole_header [_] [_, _] (by
      intro document member
      simp only [List.cons_append, List.nil_append, List.mem_cons, List.not_mem_nil,
        or_false] at member
      rcases member with rfl | rfl | rfl
      · exact .lines first
      · exact .lines second
      · exact .lines third)
  refine ⟨one, other, whole, merged, oneIs, otherIs, wholeIs, mergedIs, same, ?_, ?_⟩
  · exact (tables "t").trans (by decide)
  · exact (names "r").trans (by decide)

end Document

end TableScript
