import Stylesheet.Rendering
import Stylesheet.Token.Decoding
import Stylesheet.Token.Nesting

/-!
# Rendering of mixed items

A list that comes from outside may hold more than the tokens of a stylesheet:
bare at-rules at any depth, and values of other kinds. None of these can be
rendered; the first one is named by its type.
-/

namespace Stylesheet

/-- The type of the first bare at-rule that a token is or holds. -/
def Token.unrenderable? (token : Token) : Option Text :=
  ((preorderOf 0 token).find? (·.2.isBare)).map (·.2.typeName)

/-- A token, or the name of the type of something else. -/
inductive RenderItem
  | token (result : Token)
  | other (typeName : Text)

namespace RenderItem

/-- Objects are read; a value of any other kind is no token. -/
def ofJson : Json → Except Token.DecodeFault RenderItem
  | .object fields => (Token.decode fields).map token
  | value => .ok (other value.kind.name)

/-- The token, or the type name of what cannot be rendered. -/
def asToken : RenderItem → Except Text Token
  | token result =>
      match result.unrenderable? with
      | none => .ok result
      | some typeName => .error typeName
  | other typeName => .error typeName

/-- The message for something that is no token. -/
def message (typeName : Text) : Text :=
  "Cannot render ".toList ++ typeName ++ " as a token".toList

end RenderItem

/-- Render items, all of which must be tokens of a stylesheet. The first one that
is not is named instead. -/
def LayoutOptions.renderItems (options : LayoutOptions) (items : List RenderItem) :
    Except Text Text :=
  (items.mapM RenderItem.asToken).map options.render

end Stylesheet
