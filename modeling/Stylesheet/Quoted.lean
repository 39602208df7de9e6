import Stylesheet.Text.Basic

/-!
# Quoted strings

A string ends at the first quote of its kind that is not escaped. A backslash
escapes the character behind it, and an escaped backslash escapes nothing. The
search looks at quotes and backslashes alone and jumps over everything between.
-/

namespace Stylesheet
namespace Quoted

/-- The first quote that no backslash escapes. Quotes and backslashes are given
by their ascending offsets; the backslashes before `free` are escaped. -/
def closing? (free : Nat) : (quotes escapes : List Nat) → Option Nat
  | [], _ => none
  | quote :: _, [] => some quote
  | quote :: quotes, escape :: escapes =>
      if escape < free then closing? free (quote :: quotes) escapes
      else if quote < escape then some quote
      else if quote = escape + 1 then closing? (escape + 2) quotes escapes
      else closing? (escape + 2) (quote :: quotes) escapes

/-- The offset just after the string that a quote opens at `start`, or nothing
if the string is not closed. -/
def end? (source : Text) (quote : Char) (start : Int) : Option Nat :=
  let first := place source.length (start + 1)
  let body := source.drop first
  let quotes := Text.offsetsOf quote first body
  let escapes := Text.offsetsOf '\\' first body
  (closing? first quotes escapes).map (· + 1)

end Quoted
end Stylesheet
