import Stylesheet.Modifier
import Stylesheet.Options.Tokenizing
import Stylesheet.Token.Basic
import Stylesheet.Word

/-!
# Statements

A statement is a declaration if exactly one colon in its text words separates a
key from a value. In the extended syntax a colon before `extend` separates
nothing, and a statement without a separator may stand alone if it is a call or
begins with `@`.
-/

namespace Stylesheet

/-- What a statement is. -/
inductive Statement
  | declaration (content : Declaration)
  /-- No declaration, but allowed to stand alone. -/
  | standalone
  /-- Neither a declaration nor allowed to stand alone. -/
  | malformed
  /-- A declaration without a key or without a value. -/
  | incomplete
  deriving DecidableEq

/-! ## Separators -/

/-- Whether a piece behind a colon is `extend`, with or without arguments. -/
def isExtend (piece : Text) : Bool :=
  piece == "extend".toList || "extend(".toList.isPrefixOf piece

/-- Put every piece that is an `extend` back behind the piece before it, with
the colon between them. -/
def attachExtends (head : Text) : List Text → Text × List Text
  | [] => (head, [])
  | piece :: pieces =>
      if isExtend piece then attachExtends (head ++ ':' :: piece) pieces
      else
        let (next, rest) := attachExtends piece pieces
        (head, next :: rest)

/-- The pieces of a text word between its separators. -/
def separated (lessSyntax : Bool) (text : Text) : Text × List Text :=
  let (head, pieces) := Text.split ':' text
  if lessSyntax then attachExtends head pieces else (head, pieces)

/-- The words read so far: the key, then the value if the separator has been
read, and whether a call stands in the key. -/
structure Sides where
  key : Text
  value : Option Text
  hasCall : Bool
  deriving DecidableEq

namespace Sides

def empty : Sides := ⟨[], none, false⟩

/-- Put a text behind what has been read. -/
def append (sides : Sides) (text : Text) : Sides :=
  match sides.value with
  | none => { sides with key := sides.key ++ text }
  | some value => { sides with value := some (value ++ text) }

/-- Read a text word. A second separator makes the statement malformed. -/
def addText? (lessSyntax : Bool) (sides : Sides) (text : Text) : Option Sides :=
  match separated lessSyntax text, sides.value with
  | (_, []), _ => some (sides.append text)
  | (before, [after]), none =>
      some { sides with key := sides.key ++ before, value := some after }
  | _, _ => none

/-- Read a word that is not looked into. In plain stylesheets it makes the
statement malformed if it stands in the key. -/
def addOpaque? (lessSyntax : Bool) (sides : Sides) (word : Word) : Option Sides :=
  match sides.value with
  | some _ => some (sides.append word.text)
  | none =>
      if lessSyntax then
        some { sides.append word.text with
          hasCall := sides.hasCall || word.kind == .call }
      else none

def add? (lessSyntax : Bool) (sides : Sides) (word : Word) : Option Sides :=
  if word.isText then sides.addText? lessSyntax word.text
  else sides.addOpaque? lessSyntax word

end Sides

/-! ## Statements -/

namespace Statement

/-- What the statement with a key and perhaps a value is. -/
def ofSides (options : TokenizeOptions) (sides : Sides) : Statement :=
  let key := sides.key.trim
  match sides.value with
  | none =>
      if options.lessSyntax && (sides.hasCall || key.head? == some '@') then standalone
      else malformed
  | some value =>
      let flagged := Flagged.ofValue options.ruleModifiers value.trim
      if key.isEmpty || flagged.value.isEmpty then incomplete
      else declaration ⟨key, flagged.value, flagged.modifiers⟩

/-- What the statement with the given words is. -/
def ofWords (options : TokenizeOptions) (words : List Word) : Statement :=
  match words.foldlM (Sides.add? options.lessSyntax) Sides.empty with
  | none => malformed
  | some sides => ofSides options sides

end Statement
end Stylesheet
