import Stylesheet.Text.Digits
import Stylesheet.Text.Hidden

/-!
# Quoted display of a text

A text is displayed between quotes on a single line. The quote is `'` unless
that would force an escape which `"` avoids. A quote of the chosen kind, a
backslash and the three common control characters have short escapes; every
other character that does not show is written by its code in hexadecimal.
-/

namespace Stylesheet
namespace Text

/-- The code of a character, as short as its size allows. -/
def displayCode (character : Char) : Text :=
  let code := character.toNat
  if code < 0x100 then '\\' :: 'x' :: hexDigits 2 code
  else if code < 0x10000 then '\\' :: 'u' :: hexDigits 4 code
  else '\\' :: 'U' :: hexDigits 8 code

def displayCharacter (quote character : Char) : Text :=
  if character = quote || character = '\\' then ['\\', character]
  else if character = '\n' then ['\\', 'n']
  else if character = '\r' then ['\\', 'r']
  else if character = '\t' then ['\\', 't']
  else if isHidden character then displayCode character
  else [character]

/-- The quote that needs the fewest escapes, `'` when in doubt. -/
def displayQuote (text : Text) : Char :=
  if text.contains '\'' && !text.contains '"' then '"' else '\''

/-- The text between quotes, on one line and with everything visible. -/
def display (text : Text) : Text :=
  let quote := displayQuote text
  quote :: text.flatMap (displayCharacter quote) ++ [quote]

end Text
end Stylesheet
