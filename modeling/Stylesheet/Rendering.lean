import Stylesheet.Options.Layout
import Stylesheet.Text.Blank
import Stylesheet.Token.Basic

/-!
# Rendering

Tokens are written back as a stylesheet. Flat and tree form can be mixed: a
block with contents is closed at once, an opening token raises the indentation
until the closing token. Offsets and error flags leave no trace.
-/

namespace Stylesheet

namespace LayoutOptions

/-- A flag behind a value. -/
def renderModifier (name : Text) : Text :=
  ' ' :: '!' :: name

/-- A declaration with the flags among its modifiers that the options list. -/
def renderDeclaration (options : LayoutOptions) (declaration : Declaration) : Text :=
  let flags := options.ruleModifiers.filter declaration.modifiers.contains
  declaration.key ++ options.ruleSeparator ++ declaration.value ++
    flags.flatMap renderModifier ++ [';']

/-- The selectors of a heading, or else its at-rule, or else its text. -/
def renderHeading (options : LayoutOptions) (heading : Heading) : Text :=
  let separator := options.selectorSeparator
  match heading.selectors, heading.atRule with
  | some selectors, _ => Text.join separator selectors
  | none, some atRule =>
      let values := Text.join separator atRule.values
      '@' :: atRule.name ++ if values.isEmpty then [] else ' ' :: values
  | none, none => heading.text

/-- What stands between a heading and its brace. -/
def beforeBrace (options : LayoutOptions) (space : Text) : Text :=
  if options.newLineAfterSelector then options.lineBreak ++ space
  else if options.minify then []
  else [' ']

/-- The opening of a block behind the given indentation, with an empty line
before it if another block has just been closed. -/
def renderOpening (options : LayoutOptions) (space : Text) (afterClosing : Bool)
    (heading : Heading) : Text :=
  (if afterClosing then options.lineBreak else []) ++ space ++
    options.renderHeading heading ++ options.beforeBrace space ++
    '\x7b' :: options.lineBreak

/-- The closing of a block behind the given indentation. -/
def renderClosing (options : LayoutOptions) (space : Text) : Text :=
  space ++ '\x7d' :: options.lineBreak

/-- The indentation behind a token: an opening raises it, a closing lowers it. -/
def spaceAfter (options : LayoutOptions) (space : Text) : Token → Text
  | .opening _ _ => space ++ options.indent
  | .closing _ => space.drop options.indent.length
  | _ => space

mutual

/-- A token behind the given indentation. A block is written with its contents,
and a bare at-rule leaves no trace. -/
def renderToken (options : LayoutOptions) (space : Text) (afterClosing : Bool) :
    Token → Text
  | .code text _ _ => space ++ text ++ options.lineBreak
  | .rule declaration _ _ =>
      space ++ options.renderDeclaration declaration ++ options.lineBreak
  | .opening heading _ => options.renderOpening space afterClosing heading
  | .block heading _ children =>
      options.renderOpening space afterClosing heading ++
        renderTokens options (space ++ options.indent) false children ++
        options.renderClosing space
  | .closing _ => options.renderClosing (space.drop options.indent.length)
  | .bare _ => []

/-- Tokens behind the given indentation. -/
def renderTokens (options : LayoutOptions) (space : Text) (afterClosing : Bool) :
    List Token → Text
  | [] => []
  | token :: tokens =>
      renderToken options space afterClosing token ++
        renderTokens options (options.spaceAfter space token) token.isClosing tokens

end

/-- The stylesheet that the tokens stand for, without blanks around it. -/
def render (options : LayoutOptions) (tokens : List Token) : Text :=
  Text.trim (options.renderTokens [] false tokens)

end LayoutOptions

end Stylesheet
