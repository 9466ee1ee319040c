/-!
# Doubles in exact arithmetic

A finite binary floating-point number of 53 significant bits is kept as what it
stands for: a sign, a whole significand and an exponent of two. Every operation
computes an exact quotient of natural numbers and rounds it once, to the nearest
double and a half to the even one (`round`); a result beyond the greatest double
is no number at all.

A decimal numeral whose digits fit into 64 bits is read in a few roundings
(`ofDecimal`): of the digits, of the power of ten and of their product or
quotient. So the numeral may be read as a neighbour of the nearest double.
-/

set_option autoImplicit false

namespace ApiAtlas.Decimal

/-- A finite double that is not negative: a whole number times a power of two. -/
structure Magnitude where
  significand : Nat
  exponent : Int
deriving DecidableEq, Repr

/-- A finite double. Zero has two signs. -/
structure Double where
  negative : Bool
  magnitude : Magnitude
deriving DecidableEq, Repr

namespace Magnitude

/-- The number zero. -/
def zero : Magnitude :=
  ⟨0, 0⟩

/-- The least significand of 53 bits. -/
def leastFull : Nat :=
  4503599627370496

/-- The least whole number that is too long for a significand. -/
def leastBeyond : Nat :=
  9007199254740992

/-- The least exponent of two that a double has. -/
def leastExponent : Int :=
  -1074

/-- The greatest exponent of two that a double has. -/
def greatestExponent : Int :=
  971

/-- The number of binary digits of a natural number. -/
def bitLength (number : Nat) : Nat :=
  if number = 0 then 0 else number.log2 + 1

/-- The whole number nearest to a quotient; a half goes to the even neighbour. -/
def roundQuotient (numerator denominator : Nat) : Nat :=
  let quotient := numerator / denominator
  let twice := 2 * (numerator % denominator)
  if twice > denominator ∨ twice = denominator ∧ quotient % 2 = 1 then quotient + 1 else quotient

/-- A power of two with a whole exponent, as the part to multiply the numerator by and the part to
multiply the denominator by. -/
def powerOfTwo (exponent : Int) : Nat × Nat :=
  (Nat.pow 2 exponent.toNat, Nat.pow 2 (-exponent).toNat)

/-- The exponent at which a positive quotient has a significand of 53 bits, or the least one. -/
def exponentOf (numerator denominator : Nat) : Int :=
  let guess : Int := (bitLength numerator : Int) - bitLength denominator - 53
  let (down, up) := powerOfTwo guess
  let exact := if numerator * up / (denominator * down) ≥ leastBeyond then guess + 1 else guess
  max exact leastExponent

/-- The double nearest to a quotient of natural numbers, if there is one in range. -/
def round (numerator denominator : Nat) : Option Magnitude :=
  if numerator = 0 then
    some zero
  else
    let exponent := exponentOf numerator denominator
    let (down, up) := powerOfTwo exponent
    let significand := roundQuotient (numerator * up) (denominator * down)
    let carried : Magnitude :=
      if significand = leastBeyond then ⟨leastFull, exponent + 1⟩ else ⟨significand, exponent⟩
    if carried.significand = 0 then some zero
    else if carried.exponent > greatestExponent then none
    else some carried

/-- The rounded product. -/
def mul (first second : Magnitude) : Option Magnitude :=
  let (up, down) := powerOfTwo (first.exponent + second.exponent)
  round (first.significand * second.significand * up) down

/-- The rounded quotient. -/
def div (first second : Magnitude) : Option Magnitude :=
  let (up, down) := powerOfTwo (first.exponent - second.exponent)
  round (first.significand * up) (second.significand * down)

/-- The greatest exponent for which the power of ten is in range. -/
def greatestPower : Nat :=
  308

/-- The double nearest to a power of ten. -/
def powerOfTen (exponent : Nat) : Option Magnitude :=
  round (Nat.pow 10 exponent) 1

/-- The double that a word of 64 bits times a power of ten is read as, if it is in range. Below the
least power of ten the word is first divided by the greatest; a second such division leaves
nothing. -/
def ofDecimal (word : Nat) (exponent : Int) : Option Magnitude := do
  let digits ← round word 1
  if digits.significand = 0 then
    return zero
  else if exponent ≥ 0 then
    if exponent > greatestPower then none
    else digits.mul (← powerOfTen exponent.toNat)
  else if -exponent ≤ greatestPower then
    digits.div (← powerOfTen (-exponent).toNat)
  else if -exponent ≤ 2 * greatestPower then
    let reduced ← digits.div (← powerOfTen greatestPower)
    reduced.div (← powerOfTen ((-exponent).toNat - greatestPower))
  else
    return zero

end Magnitude

namespace Double

/-- The double without a sign if it is zero: zeros of both signs are the same number. -/
def unsignedZero (double : Double) : Double :=
  if double.magnitude.significand = 0 then { double with negative := false } else double

end Double

end ApiAtlas.Decimal
