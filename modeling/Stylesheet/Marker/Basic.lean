import Stylesheet.Text.Basic

/-!
# Markers

Markers are the only spellings that a scan reacts to; all text between them is
copied. Eight of them are common to all stylesheets; five more belong to the
extended syntax with nested calls, line comments and interpolation.
-/

namespace Stylesheet

/-- The two quotes around strings. -/
inductive Quote
  | double
  | single
  deriving DecidableEq

def Quote.character : Quote → Char
  | .double => '"'
  | .single => '\''

/-- The quote that a character is. -/
def Quote.ofCharacter? (character : Char) : Option Quote :=
  if character = '"' then some .double
  else if character = '\'' then some .single
  else none

inductive Marker
  | quote (mark : Quote)
  | comment
  | openBrace
  | closeBrace
  | semicolon
  | url
  | backslash
  | openParen
  | closeParen
  | lineComment
  | atInterpolation
  | hashInterpolation
  deriving DecidableEq

namespace Marker

def spelling : Marker → Text
  | quote mark => [mark.character]
  | comment => ['/', '*']
  | openBrace => ['\x7b']
  | closeBrace => ['\x7d']
  | semicolon => [';']
  | url => ['u', 'r', 'l', '(']
  | backslash => ['\\']
  | openParen => ['(']
  | closeParen => [')']
  | lineComment => ['/', '/']
  | atInterpolation => ['@', '\x7b']
  | hashInterpolation => ['#', '\x7b']

/-- The markers of plain stylesheets. -/
def plain : List Marker :=
  [quote .double, quote .single, comment, openBrace, closeBrace, semicolon,
   url, backslash]

/-- The markers that the extended syntax adds. -/
def extended : List Marker :=
  [openParen, closeParen, lineComment, atInterpolation, hashInterpolation]

/-- The active markers, with or without the extended syntax. -/
def active (lessSyntax : Bool) : List Marker :=
  if lessSyntax then plain ++ extended else plain

/-- The marker with a given spelling. -/
def ofSpelling? (text : Text) : Option Marker :=
  (active true).find? (·.spelling == text)

end Marker
end Stylesheet
