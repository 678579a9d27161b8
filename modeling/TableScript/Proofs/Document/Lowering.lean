import TableScript.Proofs.Document.LastWord
import TableScript.Proofs.Document.Listing

/-!
# What a document keeps of a line

The tree of an action lists the columns of a pairing by their sources, so an action
that gives one source several names does not come back from it.  Every other action
that can be spelled does: from its tree, in the document of its line, and from the
line that the document writes for it.
-/

namespace TableScript

namespace Action

theorem pairing?_settled (action : Action) :
    action.settled.pairing? = action.pairing?.map Pairing.settled := by
  cases action with
  | step it => cases it <;> rfl
  | invoke rule => rfl
  | unrecognized name => rfl

theorem settled_eq_self_iff {action : Action} :
    action.settled = action ↔ ∀ pairing ∈ action.pairing?, pairing.Distinct := by
  constructor
  · intro same pairing paired
    have kept := congrArg pairing? same
    rw [pairing?_settled, Option.mem_def.mp paired] at kept
    exact Pairing.settled_eq_self_iff.mp (Option.some.inj kept)
  · intro distinct
    cases action with
    | step it =>
        cases it with
        | join pairing =>
            have kept := Pairing.settled_eq_self_iff.mpr (distinct pairing rfl)
            exact congrArg (fun pairing => Action.step (.join pairing)) kept
        | inclusion pairing =>
            have kept := Pairing.settled_eq_self_iff.mpr (distinct pairing rfl)
            exact congrArg (fun pairing => Action.step (.inclusion pairing)) kept
        | _ => rfl
    | invoke rule => rfl
    | unrecognized name => rfl

end Action

namespace Document

theorem statements_gather_action (action : Action) :
    (gather [.action action]).statements = [.action action.settled] := rfl

/-- The document of a line with an action holds what is kept of the action: all of it
exactly if no source is named twice.  The same is read from the tree of the action and
from the line of the document. -/
theorem lone_action_kept_iff {line : String} {action : Action}
    (read : Statement.parse line = .ok (.action action)) :
    ∃ document kept, ofLines [line] = .ok document ∧ document.actions = [kept] ∧
      Action.ofTree action.toTree = .ok kept ∧
      (∃ written, document.listing = .ok [written] ∧
        Statement.parse written = .ok (.action kept)) ∧
      action.KeptAs kept ∧
      (kept = action ↔ ∀ pairing ∈ action.pairing?, pairing.Distinct) := by
  have accepted : Accepted [line] [.action action] := .cons read .nil
  have wellFormed : action.WellFormed :=
    Statement.wellFormed_of_spells (Statement.spells_of_parse read)
  have decoded : Action.ofTree action.toTree = .ok action.settled :=
    Action.ofTree_toTree (Action.readable_of_wellFormed wellFormed)
  have settledWell : (Statement.action action.settled).WellFormed :=
    Action.wellFormed_settled wellFormed
  obtain ⟨written, made, spells⟩ := Statement.spells_line settledWell
  have listed : (gather [.action action]).listing = .ok [written] := by
    unfold listing
    rw [statements_gather_action, List.mapM_cons, made]
    rfl
  exact ⟨_, action.settled, ofLines_of_accepted accepted, rfl, decoded,
    ⟨written, listed, Statement.parse_of_spells spells⟩, action.keptAs_settled,
    Action.settled_eq_self_iff⟩

theorem renamed_action_kept :
    Statement.parse "INCLUSION USING [[a], [x]] INCLUDE [p AS q, q AS p, a]" =
        .ok (.action (.step (.inclusion ⟨["a"], ["x"], [⟨"p", "q"⟩, ⟨"q", "p"⟩, ⟨"a", "a"⟩]⟩))) ∧
      ∃ document kept,
        ofLines ["INCLUSION USING [[a], [x]] INCLUDE [p AS q, q AS p, a]"] = .ok document ∧
        document.actions = [kept] ∧
        kept = .step (.inclusion ⟨["a"], ["x"], [⟨"p", "q"⟩, ⟨"q", "p"⟩, ⟨"a", "a"⟩]⟩) := by
  have read : Statement.parse "INCLUSION USING [[a], [x]] INCLUDE [p AS q, q AS p, a]" =
      .ok (.action
        (.step (.inclusion ⟨["a"], ["x"], [⟨"p", "q"⟩, ⟨"q", "p"⟩, ⟨"a", "a"⟩]⟩))) := by
    decide +kernel
  obtain ⟨document, kept, made, holds, _, _, _, whole⟩ := lone_action_kept_iff read
  refine ⟨read, document, kept, made, holds, whole.mpr ?_⟩
  intro pairing paired
  cases paired
  decide

/-- A line that gives one source two names does not keep its action. -/
theorem twice_named_source_lost :
    ¬ ∀ line action, Statement.parse line = .ok (.action action) →
      ∃ document, ofLines [line] = .ok document ∧ document.actions = [action] := by
  intro keeps
  have read : Statement.parse "JOIN USING [[a], [x]] INCLUDE [p AS q, p AS r]" =
      .ok (.action (.step (.join ⟨["a"], ["x"], [⟨"p", "q"⟩, ⟨"p", "r"⟩]⟩))) := by decide +kernel
  have made : ofLines ["JOIN USING [[a], [x]] INCLUDE [p AS q, p AS r]"] =
      .ok ⟨.empty, [.step (.join ⟨["a"], ["x"], [⟨"p", "r"⟩]⟩)]⟩ := by decide +kernel
  obtain ⟨document, same, holds⟩ := keeps _ _ read
  rw [made] at same
  cases same
  revert holds
  decide

end Document

end TableScript
