import TableScript.Decimal
import TableScript.OrderedMap
import TableScript.Text.Basic

/-!
# JSON values

A number is either an integer of at most 64 bits or a double.  A double is read
from the digits that 64 bits have room for, and what is kept of it is its sign and
its shortest decimal, which is all that its text needs.
-/

namespace TableScript

/-! ## Numbers -/

namespace Json

inductive Number where
  | integer (value : Int)
  | double (negative : Bool) (magnitude : Decimal)
deriving DecidableEq, Repr

namespace Number

/-- The parts of a number's text: sign, digits before and after the point, and
the exponent. -/
structure Parts where
  negative : Bool
  whole : List Char
  fraction : Option (List Char)
  exponent : Option Int

def fits (value : Int) : Bool := -(Nat.pow 2 63) ≤ value && value < Nat.pow 2 64

/-- Put further digits before the point behind a significand of at most 64 bits.
From the first one without room on, each digit only counts as a power of ten. -/
def takeWhole (significand : Nat) : List Char → Decimal
  | [] => ⟨significand, 0⟩
  | digit :: rest =>
      let longer := Numeral.followedBy significand digit
      if longer < Nat.pow 2 64 then takeWhole longer rest else ⟨significand, rest.length + 1⟩

/-- Put digits after the point behind a significand of at most 64 bits.  From the
first one without room on, they are left out. -/
def takeFraction (number : Decimal) : List Char → Decimal
  | [] => number
  | digit :: rest =>
      let longer := Numeral.followedBy number.digits digit
      if longer < Nat.pow 2 64 then takeFraction ⟨longer, number.exponent - 1⟩ rest else number

def doubleOf? (parts : Parts) : Option Number :=
  let digits := takeFraction (takeWhole 0 parts.whole) (parts.fraction.getD [])
  let written : Decimal := { digits with exponent := digits.exponent + parts.exponent.getD 0 }
  written.binary?.map fun binary => .double parts.negative binary.shortest

/-- The number that the parts denote.  Without point and exponent it is an
integer where one fits; only a double can be a negative zero, and a double out of
range is no number. -/
def ofParts? (parts : Parts) : Option Number :=
  let magnitude := Numeral.natOfDigits parts.whole
  let value : Int := if parts.negative then -(magnitude : Int) else magnitude
  if parts.fraction.isNone && parts.exponent.isNone && fits value &&
      !(parts.negative && magnitude == 0) then
    some (.integer value)
  else doubleOf? parts

/-- The digits of a double: with a point where the first digit stands for
`10 ^ e` with `e` from -5 to 15, in scientific notation elsewhere. -/
def magnitudeText (magnitude : Decimal) : List Char :=
  let digits := Nat.toDigits 10 magnitude.digits
  let leading : Int := magnitude.exponent + digits.length - 1
  if magnitude.digits = 0 then ['0', '.', '0']
  else if -5 ≤ leading ∧ leading ≤ 15 then
    if 0 ≤ magnitude.exponent then
      digits ++ List.replicate magnitude.exponent.toNat '0' ++ ['.', '0']
    else if 0 ≤ leading then
      digits.take (leading.toNat + 1) ++ '.' :: digits.drop (leading.toNat + 1)
    else ['0', '.'] ++ List.replicate (-leading - 1).toNat '0' ++ digits
  else
    let mark := if leading < 0 then ['e', '-'] else ['e', '+']
    let fraction := if digits.length = 1 then [] else '.' :: digits.drop 1
    digits.take 1 ++ fraction ++ mark ++ Nat.toDigits 10 leading.natAbs

def chars : Number → List Char
  | .integer value => Numeral.chars value
  | .double negative magnitude =>
      if negative then '-' :: magnitudeText magnitude else magnitudeText magnitude

def text (number : Number) : String := String.ofList number.chars

end Number

/-! ## Values -/

/-- A JSON value; the members of an object keep their order and have distinct
names. -/
inductive Value where
  | null
  | bool (value : Bool)
  | number (value : Number)
  | string (text : String)
  | array (items : List Value)
  | object (members : OrderedMap Value)

def Value.members? : Value → Option (OrderedMap Value)
  | .object members => some members
  | _ => none

def Value.items? : Value → Option (List Value)
  | .array items => some items
  | _ => none

def Value.text? : Value → Option String
  | .string text => some text
  | _ => none

def Value.ofMembers (members : List (String × Value)) : Value :=
  .object (OrderedMap.ofList members)

end Json

end TableScript
