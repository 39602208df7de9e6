import Stylesheet.Json.Printer
import Stylesheet.Token.Basic

/-!
# Tokens as JSON

Every token becomes an object whose field names ascend, the field `_type` first
because the underscore precedes all letters. The offsets can be left out; two
token lists that differ in nothing else then have one written form.
-/

namespace Stylesheet

/-- A list of texts as an array of strings. -/
def Json.texts (texts : List Text) : Json :=
  .array (texts.map .string)

namespace AtRule

def encode (atRule : AtRule) : Json :=
  .object
    [("_type".toList, .string "AtRule".toList),
     ("name".toList, .string atRule.name),
     ("values".toList, .texts atRule.values)]

end AtRule

namespace Token

/-- The field for an offset, unless offsets are left out. -/
def offsetField (withOffsets : Bool) (offset : Int) : List (Text × Json) :=
  if withOffsets then [("offset".toList, .integer offset)] else []

/-- The object of a block or of its opening. -/
def encodeHeading (withOffsets : Bool) (heading : Heading) (offset : Int)
    (children : Json) : Json :=
  .object
    ([("_type".toList, .string "BlockStart".toList),
      ("at_rule".toList, (heading.atRule.map AtRule.encode).getD .null),
      ("children".toList, children),
      ("header".toList, .string heading.text)] ++
     offsetField withOffsets offset ++
     [("selectors".toList, (heading.selectors.map Json.texts).getD .null)])

mutual

/-- The object for a token, with or without its offsets. -/
def encode (withOffsets : Bool) : Token → Json
  | code text offset error =>
      .object
        ([("_type".toList, .string "Code".toList),
          ("error".toList, .boolean error)] ++
         offsetField withOffsets offset ++
         [("text".toList, .string text)])
  | rule declaration offset error =>
      .object
        ([("_type".toList, .string "Rule".toList),
          ("error".toList, .boolean error),
          ("key".toList, .string declaration.key),
          ("modifiers".toList, .texts declaration.modifiers.names)] ++
         offsetField withOffsets offset ++
         [("value".toList, .string declaration.value)])
  | opening heading offset => encodeHeading withOffsets heading offset .null
  | block heading offset children =>
      encodeHeading withOffsets heading offset
        (.array (encodeAll withOffsets children))
  | closing offset =>
      .object
        ([("_type".toList, .string "BlockEnd".toList)] ++
         offsetField withOffsets offset)
  | bare atRule => atRule.encode

def encodeAll (withOffsets : Bool) : List Token → List Json
  | [] => []
  | token :: tokens => encode withOffsets token :: encodeAll withOffsets tokens

end

/-- A token list as the text of a JSON array. -/
def write (layout : Json.Layout) (withOffsets : Bool) (tokens : List Token) : Text :=
  Json.print layout (.array (encodeAll withOffsets tokens))

end Token
end Stylesheet
