import Stylesheet.Text.Blank

/-!
# Words

A statement is scanned as a list of words. Only words of plain text are searched
for separators; strings, urls, calls and expressions are never looked into.
-/

namespace Stylesheet

inductive WordKind
  /-- Plain text, which may hold separators. -/
  | text
  /-- A quoted string. -/
  | string
  /-- A url with its parentheses. -/
  | url
  /-- The parenthesised arguments of a call. -/
  | call
  /-- The body of an interpolation. -/
  | interpolation
  deriving DecidableEq

/-- A piece of a statement, with the offset where it begins. Words that come
from the repair of an error are flagged. -/
structure Word where
  kind : WordKind
  text : Text
  offset : Int
  error : Bool := false
  deriving DecidableEq

namespace Word

def isText (word : Word) : Bool :=
  word.kind == .text

/-- The texts of the words, one after the other. -/
def joined (words : List Word) : Text :=
  words.flatMap (·.text)

/-- The joined text without the blanks around it. -/
def trimmed (words : List Word) : Text :=
  (joined words).trim

end Word
end Stylesheet
