import Stylesheet.Double.Basic
import Stylesheet.Text.Digits

/-!
# Display of numbers in double precision

A number is written with the fewest digits that stand for it and for no other
number; of several such numerals the nearest one is taken. Numbers from 0.0001 up
to 10^16 have a decimal point and at least one digit behind it. All others have
an exponent with a sign and at least two digits.
-/

namespace Stylesheet
namespace Double

/-! ## Digits -/

/-- Whether a decimal stands for a positive magnitude: it lies between the points
halfway to the neighbours. The points themselves belong to the magnitude whose
significand is even. Below a power of two the neighbour is half as far away as
above. -/
def standsFor (units digits : Nat) (exponent : Int) : Bool :=
  let gap := step units
  let below := if units = Nat.pow 2 52 * gap && 1 < gap then gap else 2 * gap
  let (dividend, divisor) := unitsOf (4 * digits) exponent
  let least := (4 * units - below) * divisor
  let greatest := (4 * units + 2 * gap) * divisor
  (least < dividend && dividend < greatest) ||
    (units / gap % 2 == 0 && (dividend == least || dividend == greatest))

/-- The digits of a numeral for a positive magnitude that ends at the given power
of ten: one of the two neighbours on that grid, and the nearer one if both stand
for the magnitude. Of two equally near ones the even one is taken. -/
def digitsAt? (units : Nat) (exponent : Int) : Option Nat :=
  let (unit, divisor) := unitsOf 1 exponent
  let floor := units * divisor / unit
  let nearest := roundQuotient (units * divisor) unit
  if standsFor units nearest exponent then some nearest
  else if standsFor units floor exponent then some floor
  else if standsFor units (floor + 1) exponent then some (floor + 1)
  else none

/-- The digits of the shortest numeral for a positive magnitude, and the power of
ten that they are scaled by. The coarsest grid with a numeral has the fewest
digits, and the finest one that is tried has a numeral for every magnitude. -/
def shortest (units : Nat) : Nat × Int :=
  let grids := (List.range 633).map fun (place : Nat) => (308 : Int) - place
  (grids.findSome? fun exponent =>
    (digitsAt? units exponent).map fun digits => (digits, exponent)).getD (units, -324)

/-! ## Layout -/

/-- An exponent with its sign and at least two digits. -/
def displayExponent (exponent : Int) : Text :=
  let digits := Nat.toDigits 10 exponent.natAbs
  (if exponent < 0 then '-' else '+') ::
    (if digits.length < 2 then '0' :: digits else digits)

/-- Digits with a decimal point behind as many of them as `whole` says, filled up
with zeros on either side. -/
def displayPlain (digits : Text) (whole : Int) : Text :=
  let front := digits.take whole.toNat ++ List.replicate (whole.toNat - digits.length) '0'
  let back := List.replicate (-whole).toNat '0' ++ digits.drop whole.toNat
  (if front.isEmpty then ['0'] else front) ++ '.' :: if back.isEmpty then ['0'] else back

/-- Digits with a decimal point behind the first one if there are more, and an
exponent. -/
def displayScaled (digits : Text) (exponent : Int) : Text :=
  digits.take 1 ++ (if digits.length < 2 then [] else '.' :: digits.drop 1) ++
    'e' :: displayExponent exponent

/-- A magnitude in units. -/
def displayUnits (units : Nat) : Text :=
  if units = 0 then ['0', '.', '0']
  else
    let (number, exponent) := shortest units
    let digits := Nat.toDigits 10 number
    let whole := exponent + digits.length
    if -3 ≤ whole && whole ≤ 16 then displayPlain digits whole
    else displayScaled digits (whole - 1)

/-- A number, with the given words for what is not finite. -/
def displayWith (infinity undefinedWord : Text) : Double → Text
  | finite negative units => (if negative then ['-'] else []) ++ displayUnits units
  | infinite negative => (if negative then ['-'] else []) ++ infinity
  | undefined => undefinedWord

/-- A number as it is shown in messages. -/
def display (number : Double) : Text :=
  number.displayWith "inf".toList "nan".toList

end Double
end Stylesheet
