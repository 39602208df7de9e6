import Stylesheet.Line
import Stylesheet.Marker.Basic
import Stylesheet.Text.Digits
import Stylesheet.Text.Display

/-!
# Diagnostics

A fault is what can be wrong with a stylesheet. A diagnostic reports a fault:
its kind, a message, and where it was found if that is known.
-/

namespace Stylesheet

/-- The categories into which faults fall. -/
inductive FaultKind
  | unterminatedComment
  | unterminatedUrl
  | invalidUrl
  | unterminatedString
  | invalidRule
  | unexpectedBlockEnd
  | missingBlockEnd
  | unmatchedBlockEnd
  deriving DecidableEq

namespace FaultKind

def all : List FaultKind :=
  [unterminatedComment, unterminatedUrl, invalidUrl, unterminatedString,
   invalidRule, unexpectedBlockEnd, missingBlockEnd, unmatchedBlockEnd]

/-- The name of a category in reports. -/
def name : FaultKind → Text
  | unterminatedComment => "UNTERMINATED_COMMENT".toList
  | unterminatedUrl => "UNTERMINATED_URL".toList
  | invalidUrl => "INVALID_URL".toList
  | unterminatedString => "UNTERMINATED_STRING".toList
  | invalidRule => "INVALID_RULE".toList
  | unexpectedBlockEnd => "UNEXPECTED_BLOCK_END".toList
  | missingBlockEnd => "MISSING_BLOCK_END".toList
  | unmatchedBlockEnd => "UNMATCHED_BLOCK_END".toList

def ofName? (name : Text) : Option FaultKind :=
  all.find? (·.name == name)

end FaultKind

inductive Fault
  /-- A comment that is never closed. -/
  | openComment
  /-- A url without its closing parenthesis. -/
  | openUrl
  /-- A url whose quoted address is never closed. -/
  | openUrlString
  /-- A character that an unquoted url may not hold. -/
  | invalidUrl
  /-- A string that is never closed. -/
  | openString (quote : Quote)
  /-- A statement that is neither a declaration nor allowed to stand alone. -/
  | invalidRule
  /-- A closing brace while no block is open. -/
  | unexpectedBlockEnd
  /-- A block that is still open at the end. -/
  | missingBlockEnd
  /-- A closing brace without a block, found while blocks are nested. -/
  | unmatchedBlockEnd
  deriving DecidableEq

namespace Fault

def kind : Fault → FaultKind
  | openComment => .unterminatedComment
  | openUrl => .unterminatedUrl
  | openUrlString => .unterminatedUrl
  | invalidUrl => .invalidUrl
  | openString _ => .unterminatedString
  | invalidRule => .invalidRule
  | unexpectedBlockEnd => .unexpectedBlockEnd
  | missingBlockEnd => .missingBlockEnd
  | unmatchedBlockEnd => .unmatchedBlockEnd

def message : Fault → Text
  | openComment => "Missing comment closing statement".toList
  | openUrl => "Cannot find end of URL".toList
  | openUrlString => "Incomplete string".toList
  | invalidUrl => "Invalid URL".toList
  | openString quote => "Missing closing ".toList ++ [quote.character]
  | invalidRule => "Invalid css rule".toList
  | unexpectedBlockEnd => "Unexpected \x7d".toList
  | missingBlockEnd => "Missing \x7d".toList
  | unmatchedBlockEnd => "Unmatched \x7d".toList

end Fault

structure Diagnostic where
  kind : FaultKind
  message : Text
  offset : Option Int
  line : Option Int
  deriving DecidableEq

namespace Diagnostic

/-- A diagnostic for an offset of a source, with the line found there. -/
def locate (kind : FaultKind) (message source : Text) (offset : Int) : Diagnostic :=
  ⟨kind, message, some offset, some (lineNumber source offset)⟩

/-- A fault found at an offset of a source. -/
def ofFault (fault : Fault) (source : Text) (offset : Int) : Diagnostic :=
  locate fault.kind fault.message source offset

/-- The message, and the line if it is known. -/
def text (diagnostic : Diagnostic) : Text :=
  diagnostic.message ++ match diagnostic.line with
    | none => []
    | some line => " on line ".toList ++ Text.ofInt line

/-- The kind and the quoted text, as shown to a developer. -/
def display (diagnostic : Diagnostic) : Text :=
  "ParseError(".toList ++ diagnostic.kind.name ++ [',', ' '] ++
    diagnostic.text.display ++ [')']

end Diagnostic
end Stylesheet
