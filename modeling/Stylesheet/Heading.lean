import Stylesheet.Token.Basic
import Stylesheet.Word

/-!
# Headings

The words before a block are its heading. Commas in text words cut it into
selectors; a heading whose first selector begins with `@` is an at-rule.
-/

namespace Stylesheet
namespace Heading

/-- The pieces that have been cut off, and the one that is still growing. -/
structure Pieces where
  finished : List Text
  current : Text
  deriving DecidableEq

namespace Pieces

def empty : Pieces := ⟨[], []⟩

/-- Put a text behind the growing piece. -/
def append (pieces : Pieces) (text : Text) : Pieces :=
  { pieces with current := pieces.current ++ text }

/-- Cut here, and let a new piece begin with a text. -/
def cut (pieces : Pieces) (text : Text) : Pieces :=
  ⟨pieces.finished ++ [pieces.current], text⟩

def addWord (pieces : Pieces) (word : Word) : Pieces :=
  if word.isText then
    let (head, tail) := Text.split ',' word.text
    tail.foldl cut (pieces.append head)
  else pieces.append word.text

def all (pieces : Pieces) : List Text :=
  pieces.finished ++ [pieces.current]

end Pieces

/-- The trimmed pieces between the commas of the text words, blank ones
left out. -/
def selectorsOf (words : List Word) : List Text :=
  let pieces := (words.foldl Pieces.addWord Pieces.empty).all
  (pieces.map Text.trim).filter (!·.isEmpty)

/-- Read `@`, a name without blanks, and the first value; the other selectors
are further values. -/
def atRuleOf (first : Text) (others : List Text) : AtRule :=
  let name := (first.takeWhile (!Text.isBlank ·)).drop 1
  ⟨name, Text.trim (first.drop (1 + name.length)) :: others⟩

/-- Recognise the words of a heading. -/
def ofWords (words : List Word) : Heading :=
  let text := Word.trimmed words
  match selectorsOf words with
  | [] => ⟨text, none, none⟩
  | first :: others =>
      if first.head? == some '@' then ⟨text, none, some (atRuleOf first others)⟩
      else ⟨text, some (first :: others), none⟩

end Heading

/-- The token that opens a block with the given words as its heading. -/
def Token.openingOf (words : List Word) : Token :=
  .opening (.ofWords words) ((words.head?.map (·.offset)).getD 0)

end Stylesheet
