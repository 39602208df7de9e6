import Stylesheet.Text.Basic

/-!
# Numbers in double precision

A finite number in double precision is a whole multiple of the least positive
one, which is the power of two with the exponent -1074. So its magnitude is kept
as a natural number, and everything about it is decided in whole numbers. A
decimal numeral stands for the nearest number.
-/

namespace Stylesheet

/-- A decimal numeral: its digits as one number, scaled by a power of ten. -/
structure Decimal where
  negative : Bool
  digits : Nat
  exponent : Int
  deriving DecidableEq

inductive Double
  /-- A number whose magnitude counts the least positive number. -/
  | finite (negative : Bool) (units : Nat)
  | infinite (negative : Bool)
  | undefined
  deriving DecidableEq

namespace Double

/-- Whether a number is zero, with either sign. -/
def isZero : Double → Bool
  | finite _ units => units == 0
  | _ => false

/-- How many units lie between a magnitude and the next one above: significands
have 53 bits. -/
def step (units : Nat) : Nat :=
  Nat.pow 2 (units.log2 - 52)

/-- The whole number nearest to a quotient, and of two the even one. -/
def roundQuotient (dividend divisor : Nat) : Nat :=
  let quotient := dividend / divisor
  let twice := 2 * (dividend % divisor)
  if twice < divisor || (twice == divisor && quotient % 2 == 0) then quotient
  else quotient + 1

/-- A rounded quotient is at most half a divisor away from the quotient. -/
theorem roundQuotient_near (dividend divisor : Nat) (positive : 0 < divisor) :
    2 * (roundQuotient dividend divisor * divisor) ≤ 2 * dividend + divisor ∧
      2 * dividend ≤ 2 * (roundQuotient dividend divisor * divisor) + divisor := by
  have whole := Nat.div_add_mod dividend divisor
  have small := Nat.mod_lt dividend positive
  rw [Nat.mul_comm] at whole
  unfold roundQuotient
  simp only [Bool.or_eq_true, Bool.and_eq_true, decide_eq_true_eq, beq_iff_eq]
  split
  · omega
  · rw [Nat.add_mul]
    omega

/-- The least magnitude that is too large. -/
def limit : Nat :=
  Nat.pow 2 2098

/-- A decimal magnitude in units, as a quotient. -/
def unitsOf (digits : Nat) (exponent : Int) : Nat × Nat :=
  (digits * Nat.pow 10 exponent.toNat * Nat.pow 2 1074, Nat.pow 10 (-exponent).toNat)

/-- The number nearest to a positive decimal within reach. -/
def round (negative : Bool) (digits : Nat) (exponent : Int) : Double :=
  let (dividend, divisor) := unitsOf digits exponent
  let gap := step (dividend / divisor)
  let units := roundQuotient dividend (divisor * gap) * gap
  if units < limit then finite negative units else infinite negative

/-- The number that a numeral stands for. Numerals far out of reach are told by
the place of their leading digit. -/
def ofDecimal (numeral : Decimal) : Double :=
  let leading := numeral.exponent + (Nat.toDigits 10 numeral.digits).length
  if numeral.digits = 0 || leading < -330 then finite numeral.negative 0
  else if 310 < leading then infinite numeral.negative
  else round numeral.negative numeral.digits numeral.exponent

end Double
end Stylesheet
