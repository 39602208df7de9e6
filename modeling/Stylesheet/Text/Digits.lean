import Stylesheet.Text.Basic

/-!
# Digits

Numbers written as text: integers in decimal, codes in hexadecimal digits of a
fixed width.
-/

namespace Stylesheet
namespace Text

/-- An integer in decimal, with a minus sign if it is negative. -/
def ofInt : Int → Text
  | .ofNat value => Nat.toDigits 10 value
  | .negSucc value => '-' :: Nat.toDigits 10 (value + 1)

/-- The last `width` hexadecimal digits of a number, in lower case. -/
def hexDigits : (width : Nat) → (value : Nat) → Text
  | 0, _ => []
  | width + 1, value =>
      hexDigits width (value / 16) ++ [Nat.digitChar (value % 16)]

/-- The value of a hexadecimal digit of either case. -/
def hexValue? (digit : Char) : Option Nat :=
  let code := digit.toNat
  if digit.isDigit then some (code - '0'.toNat)
  else if 'a' ≤ digit && digit ≤ 'f' then some (code - 'a'.toNat + 10)
  else if 'A' ≤ digit && digit ≤ 'F' then some (code - 'A'.toNat + 10)
  else none

theorem hexValue?_digitChar (value : Nat) (small : value < 16) :
    hexValue? (Nat.digitChar value) = some value := by
  have all : ∀ value < 16, hexValue? (Nat.digitChar value) = some value := by decide
  exact all value small

end Text
end Stylesheet
