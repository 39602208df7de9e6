import Stylesheet.Double.Display
import Stylesheet.Json.Basic

/-!
# Writing JSON

Values are written in plain ASCII: every character outside the printable ASCII
range is escaped, characters beyond U+FFFF as a pair of surrogates. A value is
written either on one line or with one item to a line.
-/

namespace Stylesheet
namespace Json

/-- How the items of arrays and objects are laid out. -/
inductive Layout
  /-- Everything on one line. -/
  | compact
  /-- Each item on a line of its own, indented by `width` spaces per level. -/
  | lines (width : Nat)
  deriving DecidableEq

namespace Layout

/-- No width asks for one line; a negative width indents by nothing. -/
def ofIndent : Option Int → Layout
  | none => compact
  | some width => lines width.toNat

/-- What stands before the first item and after the last one. -/
def margin (layout : Layout) (level : Nat) : Text :=
  match layout with
  | compact => []
  | lines width => '\n' :: List.replicate (width * level) ' '

/-- What stands between two items. -/
def separator (layout : Layout) (level : Nat) : Text :=
  match layout with
  | compact => [',', ' ']
  | lines _ => ',' :: layout.margin level

end Layout

/-- A code unit of sixteen bits as an escape. -/
def printUnit (value : Nat) : Text :=
  '\\' :: 'u' :: Text.hexDigits 4 value

/-- A character inside a string: as itself, with a short escape, or by its
code units. -/
def printCharacter (character : Char) : Text :=
  let code := character.toNat
  if character = '"' then ['\\', '"']
  else if character = '\\' then ['\\', '\\']
  else if character = '\n' then ['\\', 'n']
  else if character = '\r' then ['\\', 'r']
  else if character = '\t' then ['\\', 't']
  else if code = 0x08 then ['\\', 'b']
  else if code = 0x0C then ['\\', 'f']
  else if 0x20 ≤ code && code < 0x7F then [character]
  else if code < 0x10000 then printUnit code
  else
    printUnit (0xD800 + (code - 0x10000) / 0x400) ++
      printUnit (0xDC00 + (code - 0x10000) % 0x400)

def printString (text : Text) : Text :=
  '"' :: text.flatMap printCharacter ++ ['"']

mutual

/-- Write a value that stands `level` levels deep. -/
def printAt (layout : Layout) (level : Nat) : Json → Text
  | null => ['n', 'u', 'l', 'l']
  | boolean true => ['t', 'r', 'u', 'e']
  | boolean false => ['f', 'a', 'l', 's', 'e']
  | integer value => Text.ofInt value
  | decimal value => value.displayWith "Infinity".toList "NaN".toList
  | string text => printString text
  | array [] => ['[', ']']
  | array (item :: items) =>
      '[' :: layout.margin (level + 1) ++ printAt layout (level + 1) item ++
        printItems layout (level + 1) items ++ layout.margin level ++ [']']
  | object [] => ['\x7b', '\x7d']
  | object ((name, value) :: fields) =>
      '\x7b' :: layout.margin (level + 1) ++ printString name ++ [':', ' '] ++
        printAt layout (level + 1) value ++ printFields layout (level + 1) fields ++
        layout.margin level ++ ['\x7d']

/-- Write the items after the first one. -/
def printItems (layout : Layout) (level : Nat) : List Json → Text
  | [] => []
  | item :: items =>
      layout.separator level ++ printAt layout level item ++
        printItems layout level items

/-- Write the fields after the first one. -/
def printFields (layout : Layout) (level : Nat) : List (Text × Json) → Text
  | [] => []
  | (name, value) :: fields =>
      layout.separator level ++ printString name ++ [':', ' '] ++
        printAt layout level value ++ printFields layout level fields

end

/-- Write a value. -/
def print (layout : Layout) (value : Json) : Text :=
  printAt layout 0 value

end Json
end Stylesheet
