import Stylesheet.Diagnostic
import Stylesheet.Quoted

/-!
# Urls

A url is `url(` with an address and a closing parenthesis. A quoted address may
hold anything; the url then ends at the first parenthesis behind the string. An
unquoted address ends at the first parenthesis, and no quote, no opening
parenthesis, no blank and no control character may come before it.
-/

namespace Stylesheet
namespace Url

/-- The blanks that may stand before an address. -/
def isBlank (character : Char) : Bool :=
  character == ' ' || character == '\t' || character == '\r' || character == '\n'

/-- The characters that an unquoted address cannot hold. -/
def isForbidden (character : Char) : Bool :=
  (Quote.ofCharacter? character).isSome || character == '(' || isBlank character ||
    character.toNat < 0x20

/-- The offset after an unquoted address, where `text` is what the source holds
from `offset` on. -/
def unquotedEnd (offset : Int) : Text → Except Fault Int
  | [] => .error .openUrl
  | character :: rest =>
      if character = ')' then .ok (offset + 1)
      else if isForbidden character then .error .invalidUrl
      else unquotedEnd (offset + 1) rest

/-- The offset just after the url that begins at `start`, or a fault and the
offset that it is reported for. -/
def findEnd (source : Text) (start : Int) : Except (Fault × Int) Int :=
  let inside := entriesFrom source (start + 4)
  let address := inside.dropWhile isBlank
  let offset := start + 4 + (inside.takeWhile isBlank).length
  match address with
  | [] => .error (.openUrl, start)
  | character :: _ =>
      match Quote.ofCharacter? character with
      | none => (unquotedEnd offset address).mapError (·, start)
      | some quote =>
          match Quoted.end? source quote.character offset with
          | none => .error (.openUrlString, offset)
          | some stop =>
              match Text.findFrom? [')'] source stop with
              | none => .error (.openUrl, start)
              | some parenthesis => .ok ((parenthesis : Int) + 1)

end Url
end Stylesheet
