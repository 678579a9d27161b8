import Mathlib.Data.Nat.Digits.Defs
import TableScript.Proofs.Text.Lines
import TableScript.Text.Basic

/-!
# Which texts are numerals

A text is read as an integer if, between blanks, it is at most one sign, a decimal digit,
and then digits and underscores.  Whatever integer is written is read back.
-/

namespace TableScript

namespace Numeral

/-- The number that decimal digits denote; the last of them counts least. -/
def decimal (digits : List Char) : Nat :=
  Nat.ofDigits 10 (digits.reverse.map fun c => c.toNat - '0'.toNat)

/-- That a text is a decimal digit and then digits and underscores in any order. -/
def Figures (text : List Char) : Prop :=
  ∃ first rest, text = first :: rest ∧ first.isDigit = true ∧
    ∀ c ∈ rest, c.isDigit = true ∨ c = '_'

/-- That a text is a numeral of an integer: some figures with at most one sign in front, whose
underscores do not count. -/
inductive Denotes : List Char → Int → Prop where
  | unsigned {text : List Char} (figures : Figures text) :
      Denotes text (decimal (text.filter Char.isDigit))
  | plus {text : List Char} (figures : Figures text) :
      Denotes ('+' :: text) (decimal (text.filter Char.isDigit))
  | minus {text : List Char} (figures : Figures text) :
      Denotes ('-' :: text) (-(decimal (text.filter Char.isDigit) : Int))

/-! ## Reading -/

theorem natOfDigits_eq_decimal (digits : List Char) : natOfDigits digits = decimal digits := by
  unfold decimal
  rw [Nat.ofDigits_eq_foldr, List.foldr_map, List.foldr_reverse]
  unfold natOfDigits
  congr 1
  funext value digit
  simp only [followedBy, Nat.cast_id, Nat.add_comm]

theorem natural?_eq_some_iff {text : List Char} {value : Nat} :
    natural? text = some value ↔ Figures text ∧ decimal (text.filter Char.isDigit) = value := by
  cases text with
  | nil => simp [natural?, Figures]
  | cons first rest =>
      simp only [natural?, Option.ite_none_right_eq_some, Option.some.injEq, Bool.and_eq_true,
        List.all_eq_true, Bool.or_eq_true, beq_iff_eq, natOfDigits_eq_decimal]
      constructor
      · rintro ⟨⟨digit, others⟩, same⟩
        rw [List.filter_cons_of_pos digit]
        exact ⟨⟨first, rest, rfl, digit, others⟩, same⟩
      · rintro ⟨⟨_, _, ⟨⟩, digit, others⟩, same⟩
        rw [List.filter_cons_of_pos digit] at same
        exact ⟨⟨digit, others⟩, same⟩

theorem signed?_eq_some_iff {text : List Char} {value : Int} :
    signed? text = some value ↔ Denotes text value := by
  constructor
  · intro read
    unfold signed? at read
    split at read
    all_goals
      obtain ⟨_, counted, rfl⟩ := Option.map_eq_some_iff.mp read
      obtain ⟨magnitude, natural, ⟨⟩⟩ := Option.bind_eq_some_iff.mp counted
      obtain ⟨figures, rfl⟩ := natural?_eq_some_iff.mp natural
    · exact .minus figures
    · exact .plus figures
    · exact .unsigned figures
  · intro denotes
    cases denotes with
    | unsigned figures =>
        have natural := natural?_eq_some_iff.mpr ⟨figures, rfl⟩
        obtain ⟨first, rest, rfl, digit, _⟩ := figures
        -- a digit is no sign
        have noMinus : first ≠ '-' := by
          rintro rfl
          exact absurd digit (by decide)
        have noPlus : first ≠ '+' := by
          rintro rfl
          exact absurd digit (by decide)
        unfold signed?
        split
        · next same => exact absurd (List.cons.inj same).1 noMinus
        · next same => exact absurd (List.cons.inj same).1 noPlus
        · rw [natural]
          rfl
    | plus figures =>
        rw [signed?, natural?_eq_some_iff.mpr ⟨figures, rfl⟩]
        rfl
    | minus figures =>
        rw [signed?, natural?_eq_some_iff.mpr ⟨figures, rfl⟩]
        rfl

/-- A text is read as the integer that it denotes between its blanks. -/
theorem read?_eq_some_iff {text : String} {value : Int} :
    read? text = some value ↔ ∃ core, Text.TrimsTo text.toList core ∧ Denotes core value := by
  unfold read?
  rw [signed?_eq_some_iff]
  simp only [Text.trimsTo_iff, exists_eq_left']

/-! ## Writing -/

theorem figures_toDigits (value : Nat) : Figures (Nat.toDigits 10 value) := by
  have digits : ∀ c ∈ Nat.toDigits 10 value, c.isDigit = true :=
    fun c => Nat.isDigit_of_mem_toDigits (by decide) (by decide)
  cases written : Nat.toDigits 10 value with
  | nil => exact absurd written Nat.toDigits_ne_nil
  | cons first rest =>
      rw [written] at digits
      exact ⟨first, rest, rfl, digits first List.mem_cons_self,
        fun c member => .inl (digits c (List.mem_cons_of_mem first member))⟩

theorem decimal_toDigits (value : Nat) :
    decimal ((Nat.toDigits 10 value).filter Char.isDigit) = value := by
  have digits : (Nat.toDigits 10 value).filter Char.isDigit = Nat.toDigits 10 value :=
    List.filter_eq_self.mpr fun c => Nat.isDigit_of_mem_toDigits (by decide) (by decide)
  rw [digits, ← natOfDigits_eq_decimal]
  exact Nat.ofDigitChars_toDigits (by decide) (by decide)

/-- The text that is written for an integer denotes it. -/
theorem denotes_chars (value : Int) : Denotes (chars value) value := by
  have magnitude := figures_toDigits value.natAbs
  have counts := decimal_toDigits value.natAbs
  unfold chars
  split
  · next negative =>
      have signed := Denotes.minus magnitude
      rwa [counts, Int.ofNat_natAbs_of_nonpos (by omega), Int.neg_neg] at signed
  · next positive =>
      have unsigned := Denotes.unsigned magnitude
      rwa [counts, Int.natAbs_of_nonneg (by omega)] at unsigned

/-- What is written for an integer has no blanks at its ends. -/
theorem tight_chars (value : Int) : Text.Tight (chars value) := by
  have digits : ∀ {c : Char}, c ∈ Nat.toDigits 10 value.natAbs → Text.isBlank c = false := by
    intro c member
    have digit : c.isDigit = true := Nat.isDigit_of_mem_toDigits (by decide) (by decide) member
    exact Text.isBlank_of_isAlphanum (Bool.or_eq_true_iff.mpr (.inr digit))
  have magnitude : Text.Tight (Nat.toDigits 10 value.natAbs) := by
    have filled : Nat.toDigits 10 value.natAbs ≠ [] := Nat.toDigits_ne_nil
    exact ⟨⟨_, _, (List.cons_head_tail filled).symm, digits (List.head_mem filled)⟩,
      ⟨_, _, (List.dropLast_concat_getLast filled).symm, digits (List.getLast_mem filled)⟩⟩
  unfold chars
  split
  · obtain ⟨front, last, ends, visible⟩ := magnitude.ends
    exact ⟨⟨_, _, rfl, by decide⟩, ⟨'-' :: front, last, by rw [ends, List.cons_append], visible⟩⟩
  · exact magnitude

/-- Every integer is read back from what is written for it. -/
theorem read?_write (value : Int) : read? (write value) = some value := by
  refine read?_eq_some_iff.mpr ⟨chars value, ?_, denotes_chars value⟩
  rw [write, String.toList_ofList, Text.trimsTo_iff]
  exact Text.trimChars_of_tight (tight_chars value)

end Numeral

end TableScript
