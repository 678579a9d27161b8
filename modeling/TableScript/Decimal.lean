/-!
# Decimals and binary fractions

A decimal is a natural number scaled by a power of ten.  A binary fraction is one
scaled by a power of two, with a significand of at most 53 bits and an exponent
between -1074 and 971: the non-negative finite numbers of the 64-bit binary
format.  `BinaryFraction.ofRatio?` rounds a quotient to the nearest of them in
exact arithmetic; products and quotients of binary fractions are rounded the same
way.

Every binary fraction is the nearest one to an interval of decimals.  Its
shortest decimal is the one in that interval with the fewest digits, and among
those the one closest to it.
-/

namespace TableScript

/-! ## Rounding -/

/-- The number `digits × 10 ^ exponent`. -/
structure Decimal where
  digits : Nat
  exponent : Int
deriving DecidableEq, Repr

/-- The number `significand × 2 ^ exponent`. -/
structure BinaryFraction where
  significand : Nat
  exponent : Int
deriving DecidableEq, Repr

namespace BinaryFraction

/-- The quotient of two natural numbers rounded to the nearest natural number, a
tie going to the even neighbour. -/
def roundHalfEven (numerator denominator : Nat) : Nat :=
  let quotient := numerator / denominator
  let twice := 2 * (numerator % denominator)
  if twice < denominator then quotient
  else if denominator < twice then quotient + 1
  else quotient + quotient % 2

/-- The greatest `e` with `2 ^ e` at most the positive number
`numerator / denominator`. -/
def binaryMagnitude (numerator denominator : Nat) : Int :=
  let guess : Int := (numerator.log2 : Int) - (denominator.log2 : Int)
  if denominator * Nat.pow 2 guess.toNat ≤ numerator * Nat.pow 2 (-guess).toNat then guess
  else guess - 1

/-- The binary fraction nearest to a quotient, or nothing if it is out of range. -/
def ofRatio? (numerator denominator : Nat) : Option BinaryFraction :=
  if numerator = 0 then some ⟨0, -1074⟩
  else
    let exponent := max (binaryMagnitude numerator denominator - 52) (-1074)
    let significand :=
      roundHalfEven (numerator * Nat.pow 2 (-exponent).toNat)
        (denominator * Nat.pow 2 exponent.toNat)
    let rounded : BinaryFraction :=
      if significand = Nat.pow 2 53 then ⟨Nat.pow 2 52, exponent + 1⟩ else ⟨significand, exponent⟩
    if 971 < rounded.exponent then none else some rounded

def times? (left right : BinaryFraction) : Option BinaryFraction :=
  let exponent := left.exponent + right.exponent
  ofRatio? (left.significand * right.significand * Nat.pow 2 exponent.toNat)
    (Nat.pow 2 (-exponent).toNat)

def dividedBy? (left right : BinaryFraction) : Option BinaryFraction :=
  let exponent := left.exponent - right.exponent
  ofRatio? (left.significand * Nat.pow 2 exponent.toNat)
    (right.significand * Nat.pow 2 (-exponent).toNat)

def powerOfTen? (power : Nat) : Option BinaryFraction := ofRatio? (Nat.pow 10 power) 1

/-- A binary fraction times a power of ten.  A negative power divides, and one
beyond the range of binary fractions divides in steps of `10 ^ 308`; every step
is rounded, so that the result may miss the binary fraction nearest to the exact
product. -/
def scaled? (number : BinaryFraction) (power : Int) : Option BinaryFraction := do
  if number.significand = 0 then some number
  else if 308 < power then none
  else if 0 ≤ power then number.times? (← powerOfTen? power.toNat)
  else if -308 ≤ power then number.dividedBy? (← powerOfTen? (-power).toNat)
  else scaled? (← number.dividedBy? (← powerOfTen? 308)) (power + 308)
termination_by (-power).toNat

end BinaryFraction

namespace Decimal

/-- The binary fraction that a decimal is read as: its digits, rounded, times its
power of ten. -/
def binary? (number : Decimal) : Option BinaryFraction := do
  (← BinaryFraction.ofRatio? number.digits 1).scaled? number.exponent

end Decimal

/-! ## Shortest decimals -/

namespace BinaryFraction

/-- The numbers that round to a binary fraction, in quarters of a unit in its last
place: the two ends, and whether the ends belong to it. -/
structure Neighbourhood where
  lower : Nat
  upper : Nat
  closed : Bool

/-- The neighbourhood of a positive binary fraction; below a power of two the
binary fractions lie twice as close. -/
def neighbourhood (number : BinaryFraction) : Neighbourhood where
  lower :=
    if number.significand = Nat.pow 2 52 ∧ -1074 < number.exponent then 4 * number.significand - 1
    else 4 * number.significand - 2
  upper := 4 * number.significand + 2
  closed := number.significand % 2 = 0

/-- The factors that bring a quarter unit of the binary fraction and a step of
`10 ^ power` to a common integral scale. -/
def commonScale (number : BinaryFraction) (power : Int) : Nat × Nat :=
  let quarter := number.exponent - 2
  (Nat.pow 2 quarter.toNat * Nat.pow 10 (-power).toNat,
    Nat.pow 2 (-quarter).toNat * Nat.pow 10 power.toNat)

/-- The multiple of `10 ^ power` closest to a binary fraction among those that
round to it. -/
def onGrid? (number : BinaryFraction) (power : Int) : Option Nat :=
  let (unit, step) := number.commonScale power
  let around := number.neighbourhood
  let value := 4 * number.significand * unit
  let below := value / step
  let inside (candidate : Nat) : Bool :=
    if around.closed then
      around.lower * unit ≤ candidate * step && candidate * step ≤ around.upper * unit
    else around.lower * unit < candidate * step && candidate * step < around.upper * unit
  match inside below, inside (below + 1) with
  | false, false => none
  | true, false => some below
  | false, true => some (below + 1)
  | true, true =>
      let fromBelow := value - below * step
      let toAbove := (below + 1) * step - value
      if fromBelow < toAbove then some below
      else if toAbove < fromBelow then some (below + 1)
      else some (below + below % 2)

/-- The greatest `e` with `10 ^ e` at most the positive binary fraction.  The
logarithm of two gives it up to a few units, and comparison settles it. -/
def decimalMagnitude (number : BinaryFraction) : Int :=
  let binary := number.exponent + (number.significand.log2 : Int)
  let guess := binary * 30103 / 100000 - 1
  let reached (power : Int) : Bool :=
    let (unit, step) := number.commonScale power
    step ≤ 4 * number.significand * unit
  if reached (guess + 2) then guess + 2
  else if reached (guess + 1) then guess + 1
  else guess

/-- A decimal without zeros at its end; `fuel` bounds their number. -/
def stripZeros : (fuel : Nat) → Decimal → Decimal
  | 0, number => number
  | fuel + 1, number =>
      if number.digits ≠ 0 ∧ number.digits % 10 = 0 then
        stripZeros fuel ⟨number.digits / 10, number.exponent + 1⟩
      else number

/-- The decimal with the fewest digits that rounds to a binary fraction.
Seventeen digits always suffice. -/
def shortest (number : BinaryFraction) : Decimal :=
  if number.significand = 0 then ⟨0, 0⟩
  else
    let top := number.decimalMagnitude
    let found := (List.range 17).findSome? fun (more : Nat) =>
      (number.onGrid? (top - more)).map fun digits => (⟨digits, top - more⟩ : Decimal)
    stripZeros 20 (found.getD ⟨number.significand, number.exponent⟩)

end BinaryFraction

end TableScript
