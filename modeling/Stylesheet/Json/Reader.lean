import Stylesheet.Json.Basic
import Stylesheet.Text.Digits

/-!
# Reading JSON

The reader takes one character after the other. Its first half gathers
characters into lexemes, its second half keeps the arrays and objects that are
still open. Besides the standard grammar it knows the numbers `NaN`, `Infinity`
and `-Infinity`. White space is the space, the tab, the line feed and the
carriage return and nothing else; a control character inside a string is an
error.
-/

namespace Stylesheet
namespace Json

/-- The words of the grammar. -/
inductive Lexeme
  | openArray
  | closeArray
  | openObject
  | closeObject
  | comma
  | colon
  | scalar (value : Json)

/-! ## Numbers and names -/

/-- Read a text of digits, of which there is at least one. -/
def digits? (text : Text) : Option Nat :=
  if text.isEmpty || !text.all Char.isDigit then none
  else some (Nat.ofDigitChars 10 text 0)

/-- Read an exponent with its mark. A text that is empty stands for zero. -/
def exponent? : Text → Option Int
  | [] => some 0
  | mark :: rest =>
      if mark == 'e' || mark == 'E' then
        match rest with
        | '+' :: digits => (digits? digits).map fun value => (value : Int)
        | '-' :: digits => (digits? digits).map fun value => -(value : Int)
        | digits => (digits? digits).map fun value => (value : Int)
      else none

/-- The numeral of a whole part and what follows it: a fraction with at least one
digit, an exponent, or both. -/
def numeral? (negative : Bool) (whole : Text) : Text → Option Decimal
  | '.' :: rest => do
      let fraction := rest.takeWhile Char.isDigit
      let digits ← if fraction.isEmpty then none else digits? (whole ++ fraction)
      let exponent ← exponent? (rest.dropWhile Char.isDigit)
      return ⟨negative, digits, exponent - fraction.length⟩
  | rest => return ⟨negative, ← digits? whole, ← exponent? rest⟩

/-- Read a number without its sign; the whole part has no spare zero. -/
def unsigned? (negative : Bool) (word : Text) : Option Json :=
  let whole := word.takeWhile Char.isDigit
  let tail := word.dropWhile Char.isDigit
  if whole.isEmpty || (whole.head? == some '0' && 1 < whole.length) then none
  else if tail.isEmpty then
    (digits? whole).map fun value =>
      integer (if negative then -(value : Int) else value)
  else (numeral? negative whole tail).map fun numeral => decimal (.ofDecimal numeral)

/-- Read a number. -/
def number? (word : Text) : Option Json :=
  match word with
  | '-' :: rest => unsigned? true rest
  | _ => unsigned? false word

/-- Read a maximal run of characters that are neither blank nor punctuation. -/
def word? (word : Text) : Option Json :=
  if word = "null".toList then some null
  else if word = "true".toList then some (boolean true)
  else if word = "false".toList then some (boolean false)
  else if word = "NaN".toList then some (decimal .undefined)
  else if word = "Infinity".toList then some (decimal (.infinite false))
  else if word = "-Infinity".toList then some (decimal (.infinite true))
  else number? word

/-! ## Strings -/

def isHighSurrogate (unit : Nat) : Bool :=
  0xD800 ≤ unit && unit < 0xDC00

def isLowSurrogate (unit : Nat) : Bool :=
  0xDC00 ≤ unit && unit < 0xE000

/-- The character of a unit; half a pair becomes the replacement character. -/
def characterOfUnit (unit : Nat) : Char :=
  if isHighSurrogate unit || isLowSurrogate unit then Char.ofNat 0xFFFD
  else Char.ofNat unit

/-- The text of a list of code points in which two neighbouring halves of a
surrogate pair stand for one character. -/
def textOfUnits : List Nat → Text
  | [] => []
  | [unit] => [characterOfUnit unit]
  | high :: low :: rest =>
      if isHighSurrogate high && isLowSurrogate low then
        Char.ofNat (0x10000 + (high - 0xD800) * 0x400 + (low - 0xDC00)) ::
          textOfUnits rest
      else characterOfUnit high :: textOfUnits (low :: rest)

/-- The code point that a one-letter escape stands for. -/
def shortEscape? : Char → Option Nat
  | '"' => some '"'.toNat
  | '\\' => some '\\'.toNat
  | '/' => some '/'.toNat
  | 'b' => some 0x08
  | 'f' => some 0x0C
  | 'n' => some 0x0A
  | 'r' => some 0x0D
  | 't' => some 0x09
  | _ => none

/-! ## Lexemes -/

/-- What the characters read so far leave unfinished. The units of a string
are kept in reverse. -/
inductive Lexing
  | between
  | word (reversed : Text)
  | string (units : List Nat)
  | escape (units : List Nat)
  | code (units : List Nat) (digits value : Nat)

def isSpace (character : Char) : Bool :=
  character == ' ' || character == '\t' || character == '\n' || character == '\r'

/-- The lexeme of a punctuation character. -/
def punctuation? : Char → Option Lexeme
  | '[' => some .openArray
  | ']' => some .closeArray
  | '\x7b' => some .openObject
  | '\x7d' => some .closeObject
  | ',' => some .comma
  | ':' => some .colon
  | _ => none

/-- Read a character where no lexeme is unfinished. -/
def Lexing.start (character : Char) : Lexing × List Lexeme :=
  if isSpace character then (between, [])
  else if character = '"' then (string [], [])
  else match punctuation? character with
    | some lexeme => (between, [lexeme])
    | none => (word [character], [])

/-- Read a character: what is unfinished after it, and the lexemes that it
completes. -/
def Lexing.step (character : Char) : Lexing → Option (Lexing × List Lexeme)
  | between => some (start character)
  | word reversed =>
      match start character with
      | (word _, _) => some (word (character :: reversed), [])
      | (next, lexemes) =>
          (word? reversed.reverse).map fun value => (next, .scalar value :: lexemes)
  | string units =>
      if character = '"' then
        some (between, [.scalar (.string (textOfUnits units.reverse))])
      else if character = '\\' then some (escape units, [])
      else if character.toNat < 0x20 then none
      else some (string (character.toNat :: units), [])
  | escape units =>
      if character = 'u' then some (code units 0 0, [])
      else (shortEscape? character).map fun unit => (string (unit :: units), [])
  | code units digits value =>
      (Text.hexValue? character).map fun digit =>
        if digits = 3 then (string ((16 * value + digit) :: units), [])
        else (code units (digits + 1) (16 * value + digit), [])

/-! ## Values -/

/-- An array or object that is still open, with what it holds in reverse. An
object waits for the value of its key. -/
inductive Frame
  | array (items : List Json)
  | object (fields : List (Text × Json)) (name : Text)

/-- What the grammar allows next, inside the open arrays and objects of
`outer`, innermost first. -/
inductive Progress
  | value (outer : List Frame)
  | itemOrClose (outer : List Frame)
  | afterItem (outer : List Frame) (items : List Json)
  | keyOrClose (outer : List Frame)
  | key (outer : List Frame) (fields : List (Text × Json))
  | afterKey (outer : List Frame) (fields : List (Text × Json)) (name : Text)
  | afterField (outer : List Frame) (fields : List (Text × Json))
  | complete (result : Json)

namespace Progress

/-- Put a finished value into the innermost open array or object. -/
def finish (result : Json) : List Frame → Progress
  | [] => complete result
  | .array items :: outer => afterItem outer (result :: items)
  | .object fields name :: outer => afterField outer ((name, result) :: fields)

/-- Read the first lexeme of a value. -/
def begin? (outer : List Frame) : Lexeme → Option Progress
  | .openArray => some (itemOrClose outer)
  | .openObject => some (keyOrClose outer)
  | .scalar result => some (finish result outer)
  | _ => none

def step : Progress → Lexeme → Option Progress
  | value outer, lexeme => begin? outer lexeme
  | itemOrClose outer, .closeArray => some (finish (.array []) outer)
  | itemOrClose outer, lexeme => begin? (.array [] :: outer) lexeme
  | afterItem outer items, .comma => some (value (.array items :: outer))
  | afterItem outer items, .closeArray =>
      some (finish (.array items.reverse) outer)
  | keyOrClose outer, .closeObject => some (finish (.object []) outer)
  | keyOrClose outer, .scalar (.string name) => some (afterKey outer [] name)
  | key outer fields, .scalar (.string name) => some (afterKey outer fields name)
  | afterKey outer fields name, .colon =>
      some (value (.object fields name :: outer))
  | afterField outer fields, .comma => some (key outer fields)
  | afterField outer fields, .closeObject =>
      some (finish (.object fields.reverse) outer)
  | _, _ => none

end Progress

/-- Both halves of the reader. -/
structure Reader where
  lexing : Lexing
  progress : Progress

namespace Reader

def initial : Reader := ⟨.between, .value []⟩

def step (reader : Reader) (character : Char) : Option Reader := do
  let (lexing, lexemes) ← reader.lexing.step character
  let progress ← lexemes.foldlM Progress.step reader.progress
  return ⟨lexing, progress⟩

/-- The value that has been read, if nothing is left open. -/
def result? (reader : Reader) : Option Json :=
  match reader.lexing, reader.progress with
  | .between, .complete result => some result
  | _, _ => none

end Reader

/-- Read a text that holds one value. A line feed after the text completes a
word that stands at its end. -/
def read? (text : Text) : Option Json := do
  let reader ← text.foldlM Reader.step Reader.initial
  let reader ← reader.step '\n'
  reader.result?

end Json
end Stylesheet
