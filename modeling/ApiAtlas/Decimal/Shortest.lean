import ApiAtlas.Decimal.Double

/-!
# The shortest decimal of a double

A double is written with the fewest digits that are read back as it. The
numerals that are nearer to it than to its neighbours fill an interval. Among
the grids of multiples of a power of ten, the coarsest one with a point in the
interval gives the fewest digits; of two such points the nearer is taken and of
two equally near ones the even (`shortest`).

The digits are written with a point among or before them as long as the number
is neither too small nor too great, and otherwise with an exponent and its sign
(`DoubleFormat`).
-/

set_option autoImplicit false

namespace ApiAtlas.Decimal

/-- A whole number of units of a power of ten. -/
structure Numeral where
  digits : Nat
  exponent : Int
deriving DecidableEq, Repr

namespace Magnitude

/-- The numbers that are read as one double, on the grid of multiples of a power of ten: four times
the lower end, the number and the upper end are counted in quarters of the double's last bit, and
the grid's unit in the same measure. -/
structure Measure where
  lower : Nat
  value : Nat
  upper : Nat
  unit : Nat

/-- The interval of a positive double in the measure of a grid. -/
def measure (magnitude : Magnitude) (grid : Int) : Measure :=
  let quarter := magnitude.exponent - 2
  let scale := Nat.pow 2 quarter.toNat * Nat.pow 10 (-grid).toNat
  let below :=
    if magnitude.significand = leastFull ∧ magnitude.exponent > leastExponent then 1 else 2
  { lower := (4 * magnitude.significand - below) * scale
    value := 4 * magnitude.significand * scale
    upper := (4 * magnitude.significand + 2) * scale
    unit := Nat.pow 10 grid.toNat * Nat.pow 2 (-quarter).toNat }

/-- Whether a multiple of the unit is read as the double; the ends count for even significands. -/
def holds (magnitude : Magnitude) (measure : Measure) (multiple : Nat) : Bool :=
  let point := multiple * measure.unit
  if magnitude.significand % 2 = 0 then
    measure.lower ≤ point && point ≤ measure.upper
  else
    measure.lower < point && point < measure.upper

/-- The point of a grid that is nearest to the double among those that are read as it. -/
def pointOnGrid? (magnitude : Magnitude) (grid : Int) : Option Numeral :=
  let measure := magnitude.measure grid
  let below := measure.value / measure.unit
  let rest := 2 * (measure.value % measure.unit)
  match magnitude.holds measure below, magnitude.holds measure (below + 1) with
  | false, false => none
  | true, false => some ⟨below, grid⟩
  | false, true => some ⟨below + 1, grid⟩
  | true, true =>
    if rest < measure.unit ∨ rest = measure.unit ∧ below % 2 = 0 then some ⟨below, grid⟩
    else some ⟨below + 1, grid⟩

/-- The coarsest grid that is tried: no double reaches its unit. -/
def coarsestGrid : Int :=
  309

/-- The number of grids from the coarsest to the finest that a double can need. -/
def gridCount : Nat :=
  640

/-- The numeral with the fewest digits that is read as a positive double. -/
def shortest (magnitude : Magnitude) : Numeral :=
  ((List.range gridCount).findSome? fun index =>
    magnitude.pointOnGrid? (coarsestGrid - Int.ofNat index)).getD ⟨0, 0⟩

end Magnitude

/-- How the digits of a double are laid out. -/
structure DoubleFormat where
  /-- The least decimal exponent that is written with a point alone. -/
  leastPlain : Int
  /-- The first decimal exponent beyond those that are written with a point alone. -/
  firstScientific : Int
deriving DecidableEq, Repr

namespace DoubleFormat

/-- The digits of an exponent, with its sign. -/
def exponentText (exponent : Int) : String :=
  (if exponent < 0 then "-" else "+") ++ toString exponent.natAbs

/-- The text of a numeral. -/
def numeralText (format : DoubleFormat) (numeral : Numeral) : String :=
  let digits := (toString numeral.digits).toList
  let leading := numeral.exponent + digits.length - 1
  if leading < format.leastPlain ∨ leading ≥ format.firstScientific then
    let fraction := if digits.length > 1 then '.' :: digits.drop 1 else []
    String.ofList (digits.take 1 ++ fraction) ++ "e" ++ exponentText leading
  else if numeral.exponent ≥ 0 then
    String.ofList (digits ++ List.replicate numeral.exponent.toNat '0') ++ ".0"
  else if leading ≥ 0 then
    let whole := leading.toNat + 1
    String.ofList (digits.take whole ++ '.' :: digits.drop whole)
  else
    String.ofList ('0' :: '.' :: List.replicate ((-leading).toNat - 1) '0' ++ digits)

/-- The text of a double. -/
def text (format : DoubleFormat) (double : Double) : String :=
  let unsigned :=
    if double.magnitude.significand = 0 then "0.0"
    else format.numeralText double.magnitude.shortest
  if double.negative then "-" ++ unsigned else unsigned

end DoubleFormat

end ApiAtlas.Decimal
