import Stylesheet.Text.Basic

/-!
# Ranges of characters

Classes of characters are lists of ranges of code points.
-/

namespace Stylesheet

/-- The code points from `first` to `last`, both included. -/
structure CodeRange where
  first : Nat
  last : Nat
  deriving DecidableEq

namespace CodeRange

def contains (range : CodeRange) (character : Char) : Bool :=
  range.first ≤ character.toNat && character.toNat ≤ range.last

/-- Whether some range of a class holds the character. -/
def anyContains (ranges : List CodeRange) (character : Char) : Bool :=
  ranges.any (·.contains character)

end CodeRange
end Stylesheet
