import Stylesheet.Text.Basic

/-!
# Line numbers

A line number is found for an offset when it is needed. Blanks at the offset
are passed over first, so an offset right after a `;` or a brace stands for the
line of the statement that follows.
-/

namespace Stylesheet

/-- The characters that are passed over before lines are counted. -/
def isLineBlank (character : Char) : Bool :=
  character == ' ' || character == '\t' || character == '\n' ||
    character == '\r' || character == '\x00' || character == '\x0b'

/-- The number, from one, of the line of the first character at or after an
offset that is not passed over. Offsets outside the source count as its ends. -/
def lineNumber (source : Text) (offset : Int) : Nat :=
  let before := source.take offset.toNat
  let blanks := (source.drop offset.toNat).takeWhile isLineBlank
  (before ++ blanks).count '\n' + 1

end Stylesheet
