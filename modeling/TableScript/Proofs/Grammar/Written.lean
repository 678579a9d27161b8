import TableScript.Listing
import TableScript.Proofs.Grammar.WellFormed

/-!
# Lines that are written

The line that is written for a well-formed statement spells it.
-/

namespace TableScript

namespace Spelling

open Language (append_mem_mul)

theorem word_mem (text : String) : text.toList ∈ word text := rfl

theorem blank_mem_gap : [' '] ∈ gap := by
  refine ⟨by simp, ?_⟩
  intro c member
  exact .inl (List.mem_singleton.mp member)

theorem name_mem {value : String} (isName : IsName value) : value.toList ∈ name value :=
  ⟨rfl, isName⟩

/-- Items with a comma and a blank between them spell their list. -/
theorem joined_mem {α : Type} {item : α → Language Char} {write : α → String} {listed : List α}
    (some : listed ≠ []) (each : ∀ value ∈ listed, (write value).toList ∈ item value) :
    (Text.joined ", " (listed.map write)).toList ∈ separated item listed := by
  induction listed with
  | nil => exact absurd rfl some
  | cons first rest ih =>
      have here := each first List.mem_cons_self
      cases rest with
      | nil =>
          show _ ∈ item first * 1
          rw [mul_one]
          exact here
      | cons next others =>
          have later := ih (List.cons_ne_nil next others) fun value member =>
            each value (List.mem_cons_of_mem _ member)
          have parted : ", ".toList = ",".toList ++ [' '] := by decide
          have split : (Text.joined ", " ((first :: next :: others).map write)).toList =
              (write first).toList ++ (",".toList ++ [' '] ++
                (Text.joined ", " ((next :: others).map write)).toList) := by
            rw [← parted]
            simp [Text.joined, String.toList_append]
          have regroup : separated item (first :: next :: others) =
              item first * (word "," * gap * separated item (next :: others)) := by
            simp only [separated, List.map_cons, List.prod_cons, mul_assoc]
          rw [split, regroup]
          exact append_mem_mul here (append_mem_mul
            (append_mem_mul (word_mem ",") blank_mem_gap) later)

theorem names_mem {listed : List String} (wellFormed : IsNames listed) :
    (Listing.names listed).toList ∈ names listed := by
  have each : ∀ value ∈ listed, (id value : String).toList ∈ name value := by
    intro value member
    exact name_mem (wellFormed.2 value member)
  have written := joined_mem wellFormed.1 each
  rw [List.map_id] at written
  exact written

theorem spaced_mem (text : String) : [' '] ++ text.toList ++ [' '] ∈ spaced text :=
  append_mem_mul (append_mem_mul blank_mem_gap (word_mem text)) blank_mem_gap

theorem columns_mem {listed : List String} (wellFormed : IsNames listed) :
    ("[" ++ Listing.names listed ++ "]").toList ∈ columns listed := by
  rw [String.toList_append, String.toList_append]
  exact append_mem_mul (append_mem_mul (word_mem "[") (names_mem wellFormed)) (word_mem "]")

theorem asName_mem {result : Option String} (wellFormed : ∀ target ∈ result, IsName target) :
    (Listing.asName result).toList ∈ asName result := by
  cases result with
  | none => rfl
  | some target =>
      have clause : " AS ".toList = [' '] ++ "AS".toList ++ [' '] := by decide
      show (" AS " ++ target).toList ∈ _
      rw [String.toList_append, clause]
      exact append_mem_mul (spaced_mem "AS") (name_mem (wellFormed target rfl))

theorem projection_mem {column : Projection} (wellFormed : column.WellFormed) :
    (Listing.projection column).toList ∈ projection column := by
  obtain ⟨source, target⟩ := wellFormed
  unfold Listing.projection projection
  rw [Language.mem_add]
  split
  · exact .inr (name_mem source)
  · have clause : " AS ".toList = [' '] ++ "AS".toList ++ [' '] := by decide
    rw [String.toList_append, String.toList_append, clause]
    exact .inl (append_mem_mul (append_mem_mul (name_mem source) (spaced_mem "AS"))
      (name_mem target))

theorem reference_mem {it : Reference} (wellFormed : it.WellFormed) :
    it.text.toList ∈ reference it := by
  obtain ⟨space, named, version⟩ := wellFormed
  unfold Reference.text
  simp only [String.toList_append]
  exact append_mem_mul (append_mem_mul (append_mem_mul (append_mem_mul (name_mem space)
    (word_mem ":")) (name_mem named)) (word_mem ":")) (name_mem version)

theorem call_mem {it : Call} (wellFormed : it.WellFormed) :
    (it.name ++ "(" ++ Listing.names it.arguments ++ ")").toList ∈ call it := by
  obtain ⟨named, arguments⟩ := wellFormed
  simp only [String.toList_append]
  exact append_mem_mul (append_mem_mul (append_mem_mul (name_mem named) (word_mem "("))
    (names_mem arguments)) (word_mem ")")

theorem includes_mem {projections : List Projection}
    (wellFormed : ∀ column ∈ projections, column.WellFormed) :
    (match projections with
      | [] => ""
      | listed => " INCLUDE [" ++ Listing.names (listed.map Listing.projection) ++ "]").toList ∈
        includes projections := by
  cases projections with
  | nil => rfl
  | cons first rest =>
      have clause : " INCLUDE [".toList = [' '] ++ "INCLUDE".toList ++ [' '] ++ "[".toList := by
        decide
      have listed := joined_mem (List.cons_ne_nil first rest) fun column member =>
        projection_mem (wellFormed column member)
      simp only [String.toList_append, clause]
      exact append_mem_mul (append_mem_mul (append_mem_mul (spaced_mem "INCLUDE") (word_mem "["))
        listed) (word_mem "]")

theorem pairing_mem {it : Pairing} (wellFormed : it.WellFormed) :
    (Listing.pairing it).toList ∈ pairing it := by
  obtain ⟨left, right, projections⟩ := wellFormed
  have opening : " USING [[".toList =
      ([' '] ++ "USING".toList ++ [' ']) ++ ("[".toList ++ "[".toList) := by decide
  have between : "], [".toList = "]".toList ++ ",".toList ++ [' '] ++ "[".toList := by decide
  have closing : "]]".toList = "]".toList ++ "]".toList := by decide
  have keyed : "[".toList ++ "[".toList ++ (Listing.names it.leftKeys).toList ++ "]".toList ++
      ",".toList ++ [' '] ++ "[".toList ++ (Listing.names it.rightKeys).toList ++ "]".toList ++
        "]".toList ∈ keys it.leftKeys it.rightKeys := by
    have blank : [' '] ∈ (1 + gap : Language Char) :=
      (Language.mem_add _ _ _).mpr (.inr blank_mem_gap)
    have opened := append_mem_mul (append_mem_mul (word_mem "[") (word_mem "[")) (names_mem left)
    have parted := append_mem_mul (append_mem_mul (append_mem_mul opened (word_mem "]"))
      (word_mem ",")) blank
    exact append_mem_mul (append_mem_mul (append_mem_mul (append_mem_mul parted (word_mem "["))
      (names_mem right)) (word_mem "]")) (word_mem "]")
  have written := append_mem_mul (append_mem_mul (spaced_mem "USING") keyed)
    (includes_mem projections)
  unfold Listing.pairing pairing
  simp only [List.append_assoc] at written
  simp only [String.toList_append, opening, between, closing, List.append_assoc]
  exact written

end Spelling

open Language (append_mem_mul)
open Spelling

/-- A keyword in capitals is the keyword in some case. -/
theorem keyword_mem (text : String) : text.toList ∈ Grammar.anyCase text := rfl

theorem Step.line_mem {step : Step} (wellFormed : step.WellFormed) :
    step.line.toList ∈ Grammar.anyCase step.keyword * step.operands := by
  cases step with
  | push table =>
      have opening : "PUSH ".toList = "PUSH".toList ++ [' '] := by decide
      show ("PUSH " ++ table).toList ∈ _
      rw [String.toList_append, opening, List.append_assoc]
      exact append_mem_mul (keyword_mem "PUSH") (append_mem_mul blank_mem_gap (name_mem wellFormed))
  | pop => exact append_mem_mul (keyword_mem "POP") (Language.nil_mem_one)
  | duplicate => exact append_mem_mul (keyword_mem "DUPLICATE") (Language.nil_mem_one)
  | commit table columns =>
      obtain ⟨named, listed⟩ := wellFormed
      have opening : "COMMIT ".toList = "COMMIT".toList ++ [' '] := by decide
      have front := append_mem_mul blank_mem_gap (name_mem named)
      cases columns with
      | none =>
          have written := append_mem_mul (keyword_mem "COMMIT")
            (append_mem_mul front Language.nil_mem_one)
          show ("COMMIT " ++ table).toList ∈ _
          simp only [List.append_nil] at written
          rw [String.toList_append, opening, List.append_assoc]
          exact written
      | some columns =>
          have written := append_mem_mul (keyword_mem "COMMIT")
            (append_mem_mul front (columns_mem (listed columns rfl)))
          show ("COMMIT " ++ table ++ "[" ++ Listing.names columns ++ "]").toList ∈ _
          simp only [String.toList_append, opening, List.append_assoc] at written ⊢
          exact written
  | join pairing =>
      show ("JOIN" ++ Listing.pairing pairing).toList ∈ _
      rw [String.toList_append]
      exact append_mem_mul (keyword_mem "JOIN") (pairing_mem wellFormed)
  | inclusion pairing =>
      show ("INCLUSION" ++ Listing.pairing pairing).toList ∈ _
      rw [String.toList_append]
      exact append_mem_mul (keyword_mem "INCLUSION") (pairing_mem wellFormed)
  | accumulate column call result =>
      obtain ⟨named, applied, target⟩ := wellFormed
      have opening : "ACCUMULATE ".toList = "ACCUMULATE".toList ++ [' '] := by decide
      have clause : " USING ".toList = [' '] ++ "USING".toList ++ [' '] := by decide
      have front := append_mem_mul (append_mem_mul blank_mem_gap (name_mem named))
        (spaced_mem "USING")
      have written := append_mem_mul (keyword_mem "ACCUMULATE")
        (append_mem_mul (append_mem_mul front (call_mem applied)) (asName_mem target))
      show ("ACCUMULATE " ++ column ++ " USING " ++ call.name ++ "(" ++
        Listing.names call.arguments ++ ")" ++ Listing.asName result).toList ∈ _
      simp only [String.toList_append, opening, clause, List.append_assoc] at written ⊢
      exact written
  | pull reference target =>
      obtain ⟨whole, named⟩ := wellFormed
      have opening : "PULL ".toList = "PULL".toList ++ [' '] := by decide
      have clause : " AS ".toList = [' '] ++ "AS".toList ++ [' '] := by decide
      have front := append_mem_mul (append_mem_mul blank_mem_gap (reference_mem whole))
        (spaced_mem "AS")
      have written := append_mem_mul (keyword_mem "PULL") (append_mem_mul front (name_mem named))
      show ("PULL " ++ reference.text ++ " AS " ++ target).toList ∈ _
      simp only [String.toList_append, opening, clause, List.append_assoc] at written ⊢
      exact written

/-- A well-formed statement has a line, which spells it. -/
theorem Statement.spells_line {statement : Statement} (wellFormed : statement.WellFormed) :
    ∃ line, statement.line = .ok line ∧ statement.Spells line := by
  cases statement with
  | expects table columns =>
      obtain ⟨named, listed⟩ := wellFormed
      have opening : "EXPECTS ".toList = "EXPECTS".toList ++ [' '] := by decide
      have written := append_mem_mul (keyword_mem "EXPECTS")
        (append_mem_mul (append_mem_mul blank_mem_gap (name_mem named)) (columns_mem listed))
      refine ⟨_, rfl, ?_⟩
      show ("EXPECTS " ++ table ++ "[" ++ Listing.names columns ++ "]").toList ∈ _
      simp only [String.toList_append, opening, List.append_assoc] at written ⊢
      exact written
  | attach url name =>
      obtain ⟨located, named⟩ := wellFormed
      have opening : "ATTACH ".toList = "ATTACH".toList ++ [' '] := by decide
      have clause : " AS ".toList = [' '] ++ "AS".toList ++ [' '] := by decide
      have inUrl : url.toList ∈ Spelling.url url := ⟨rfl, located⟩
      have front := append_mem_mul (append_mem_mul blank_mem_gap inUrl) (spaced_mem "AS")
      have written := append_mem_mul (keyword_mem "ATTACH") (append_mem_mul front (name_mem named))
      refine ⟨_, rfl, ?_⟩
      show ("ATTACH " ++ url ++ " AS " ++ name).toList ∈ _
      simp only [String.toList_append, opening, clause, List.append_assoc] at written ⊢
      exact written
  | action it =>
      cases it with
      | step it => exact ⟨_, rfl, Step.line_mem wellFormed⟩
      | invoke rule =>
          have opening : "INVOKE ".toList = "INVOKE".toList ++ [' '] := by decide
          have written := append_mem_mul (keyword_mem "INVOKE")
            (append_mem_mul blank_mem_gap (reference_mem wellFormed))
          refine ⟨_, rfl, ?_⟩
          show ("INVOKE " ++ rule.text).toList ∈ _
          rw [String.toList_append, opening, List.append_assoc]
          exact written
      | unrecognized name => exact absurd wellFormed id

end TableScript
