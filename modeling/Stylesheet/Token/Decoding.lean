import Stylesheet.Double.Display
import Stylesheet.Json.Names
import Stylesheet.Json.Reader
import Stylesheet.Text.Display
import Stylesheet.Token.Basic

/-!
# Tokens from JSON

An object is read as the token or at-rule that its `_type` names. Fields that
are missing take their defaults where there is one, and fields that the type
does not have are ignored. The fields of a type are read in the order in which
the type lists them, so of several faults inside them the one in the first field
counts. Only then missing fields are looked for. All values are taken as they are
until everything has been read; last of all it is checked that each of them is of a
kind that its field can have.
-/

namespace Stylesheet
namespace Token

/-- Why an object describes nothing. -/
inductive DecodeFault
  /-- The object does not name its type. -/
  | missingType
  /-- An array or an object names the type or is among the modifiers, where only
  plain values can stand. -/
  | structured (kind : Json.Kind)
  /-- The named type is not one of the five. -/
  | unknownType (type : Json)
  /-- Modifiers of a kind that gives no names. -/
  | modifiers (fault : Json.NamesFault)
  /-- A type lacks a field that has no default. -/
  | missingField (type field : Text)
  /-- A type lacks two fields that have no default. -/
  | missingFields (type first second : Text)
  /-- A field holds a value of a kind that it cannot have. -/
  | illTyped (field : Text)

/-- Any error from reading the text of a token list. -/
inductive ReadFault
  /-- The text is not JSON. -/
  | notJson
  /-- The text holds something other than an array. -/
  | notArray (kind : Json.Kind)
  /-- An item of the array is not an object. -/
  | notObject (kind : Json.Kind)
  /-- An item of the array is an object that describes nothing. -/
  | decode (fault : DecodeFault)
  /-- An item of the array describes an at-rule. -/
  | notToken (typeName : Text)

/-! ## Wording -/

/-- The display of a value that names no type. -/
def displayType : Json → Text
  | .null => "None".toList
  | .boolean true => "True".toList
  | .boolean false => "False".toList
  | .integer value => Text.ofInt value
  | .decimal value => value.display
  | .string text => text.display
  | .array _ => "[...]".toList
  | .object _ => "\x7b...\x7d".toList

def DecodeFault.message : DecodeFault → Text
  | missingType => "Missing '_type' field in serialized token".toList
  | structured kind => "unhashable type: '".toList ++ kind.name ++ ['\'']
  | unknownType type => "Unknown token type: ".toList ++ displayType type
  | modifiers fault => fault.message
  | missingField type field =>
      type ++ ".__init__() missing 1 required positional argument: '".toList ++
        field ++ ['\'']
  | missingFields type first second =>
      type ++ ".__init__() missing 2 required positional arguments: '".toList ++
        first ++ "' and '".toList ++ second ++ ['\'']
  | illTyped field => "unexpected value of ".toList ++ field.display

def ReadFault.message : ReadFault → Text
  | notJson => "not JSON".toList
  | notArray kind => "Expected a JSON array, got ".toList ++ kind.name
  | notObject kind =>
      '\'' :: kind.name ++ "' object has no attribute 'get'".toList
  | decode fault => fault.message
  | notToken typeName => "Expected a token, got ".toList ++ typeName

/-! ## Values of fields -/

/-- What an object describes. -/
inductive Described
  | token (result : Token)
  /-- An object of a known type, one field of which holds a value of a kind that it
  cannot have. -/
  | misfit (type field : Text)

/-- A value inside an object, after everything within it has been read. -/
inductive FieldValue
  | scalar (value : Json)
  | described (content : Described)
  | sequence (values : List FieldValue)

namespace FieldValue

def text? : FieldValue → Option Text
  | scalar (.string text) => some text
  | _ => none

def integer? : FieldValue → Option Int
  | scalar (.integer value) => some value
  | _ => none

def boolean? : FieldValue → Option Bool
  | scalar (.boolean value) => some value
  | _ => none

def token? : FieldValue → Option Token
  | described (.token result) => some result
  | _ => none

def atRule? : FieldValue → Option AtRule
  | described (.token (.bare atRule)) => some atRule
  | _ => none

/-- A sequence whose members can all be read. -/
def sequence? {Member : Type} (member? : FieldValue → Option Member) :
    FieldValue → Option (List Member)
  | sequence values => values.mapM member?
  | _ => none

/-- A value that may be null. -/
def nullable? {Content : Type} (content? : FieldValue → Option Content) :
    FieldValue → Option (Option Content)
  | scalar .null => some none
  | value => (content? value).map some

end FieldValue

/-- A field: its value as written, and what reading that value gave. -/
abbrev Field := Json × Except DecodeFault FieldValue

/-- The fields of an object by name, in the order in which they were written. -/
abbrev Fields := List (Text × Field)

namespace Fields

/-- Of several fields with one name the last counts. -/
def find? (fields : Fields) (name : Text) : Option Field :=
  fields.reverse.lookup name

/-- The value of a field, or nothing if the field is missing. -/
def value? (fields : Fields) (name : Text) : Except DecodeFault (Option FieldValue) :=
  match find? fields name with
  | none => .ok none
  | some (_, .error fault) => .error fault
  | some (_, .ok value) => .ok (some value)

/-- The members of the set of modifiers. They are taken as they were written, and
none of them can be an array or an object. -/
def modifiers (fields : Fields) : Except DecodeFault (List Json) :=
  match find? fields "modifiers".toList with
  | none => .ok []
  | some (written, _) =>
      match written.members with
      | .error fault => .error (.modifiers fault)
      | .ok members =>
          match members.find? (·.isStructured) with
          | some member => .error (.structured member.kind)
          | none => .ok members

end Fields

/-! ## Kinds of values -/

/-- The content of a value, or the name of its field if it is of another kind. -/
def typed {Content : Type} (name : Text) (content? : FieldValue → Option Content)
    (value : FieldValue) : Except Text Content :=
  match content? value with
  | some content => .ok content
  | none => .error name

/-- The content of a value that has a default. -/
def typedOr {Content : Type} (name : Text) (content? : FieldValue → Option Content)
    (default : Content) : Option FieldValue → Except Text Content
  | some value => typed name content? value
  | none => .ok default

/-- The set of the modifiers, all of which must be texts. -/
def typedNames (name : Text) (members : List Json) : Except Text NameSet :=
  match Json.namesOf members with
  | .ok names => .ok (.ofList names)
  | .error _ => .error name

def makeCode (text : FieldValue) (offset error : Option FieldValue) : Except Text Token := do
  return code (← typed "text".toList FieldValue.text? text)
    (← typedOr "offset".toList FieldValue.integer? 0 offset)
    (← typedOr "error".toList FieldValue.boolean? false error)

def makeBlock (text selectors atRule children offset : Option FieldValue) :
    Except Text Token := do
  let heading : Heading :=
    { text := ← typedOr "header".toList FieldValue.text? [] text
      selectors := ← typedOr "selectors".toList
        (FieldValue.nullable? (FieldValue.sequence? FieldValue.text?)) none selectors
      atRule := ← typedOr "at_rule".toList
        (FieldValue.nullable? FieldValue.atRule?) none atRule }
  let children ← typedOr "children".toList
    (FieldValue.nullable? (FieldValue.sequence? FieldValue.token?)) none children
  let offset ← typedOr "offset".toList FieldValue.integer? 0 offset
  match children with
  | some children => return block heading offset children
  | none => return opening heading offset

def makeClosing (offset : Option FieldValue) : Except Text Token := do
  return closing (← typedOr "offset".toList FieldValue.integer? 0 offset)

def makeRule (key value : FieldValue) (modifiers : List Json)
    (offset error : Option FieldValue) : Except Text Token := do
  let declaration : Declaration :=
    { key := ← typed "key".toList FieldValue.text? key
      value := ← typed "value".toList FieldValue.text? value
      modifiers := ← typedNames "modifiers".toList modifiers }
  return rule declaration (← typedOr "offset".toList FieldValue.integer? 0 offset)
    (← typedOr "error".toList FieldValue.boolean? false error)

def makeBare (name : FieldValue) (values : Option FieldValue) : Except Text Token := do
  return bare
    { name := ← typed "name".toList FieldValue.text? name
      values := ← typedOr "values".toList
        (FieldValue.sequence? FieldValue.text?) [] values }

namespace Described

/-- What was made of an object that names a type. -/
def ofMade (type : Text) : Except Text Token → Described
  | .ok result => token result
  | .error field => misfit type field

/-- The token, if all values were of kinds that their fields can have. -/
def toToken : Described → Except DecodeFault Token
  | token result => .ok result
  | misfit _ field => .error (.illTyped field)

/-- The type that the object named. -/
def typeName : Described → Text
  | token result => result.typeName
  | misfit type _ => type

end Described

/-! ## The five types -/

def readCode (fields : Fields) : Except DecodeFault Described := do
  let type := "Code".toList
  let text ← fields.value? "text".toList
  let offset ← fields.value? "offset".toList
  let error ← fields.value? "error".toList
  match text with
  | none => .error (.missingField type "text".toList)
  | some text => return .ofMade type (makeCode text offset error)

def readBlock (fields : Fields) : Except DecodeFault Described := do
  let text ← fields.value? "header".toList
  let selectors ← fields.value? "selectors".toList
  let atRule ← fields.value? "at_rule".toList
  let children ← fields.value? "children".toList
  let offset ← fields.value? "offset".toList
  return .ofMade "BlockStart".toList (makeBlock text selectors atRule children offset)

def readClosing (fields : Fields) : Except DecodeFault Described := do
  let offset ← fields.value? "offset".toList
  return .ofMade "BlockEnd".toList (makeClosing offset)

def readRule (fields : Fields) : Except DecodeFault Described := do
  let type := "Rule".toList
  let key ← fields.value? "key".toList
  let value ← fields.value? "value".toList
  let modifiers ← fields.modifiers
  let offset ← fields.value? "offset".toList
  let error ← fields.value? "error".toList
  match key, value with
  | none, none => .error (.missingFields type "key".toList "value".toList)
  | none, some _ => .error (.missingField type "key".toList)
  | some _, none => .error (.missingField type "value".toList)
  | some key, some value => return .ofMade type (makeRule key value modifiers offset error)

def readBare (fields : Fields) : Except DecodeFault Described := do
  let type := "AtRule".toList
  let name ← fields.value? "name".toList
  let values ← fields.value? "values".toList
  match name with
  | none => .error (.missingField type "name".toList)
  | some name => return .ofMade type (makeBare name values)

/-- Read an object by the type that it names. -/
def readTyped (fields : Fields) : Except DecodeFault Described :=
  match fields.find? "_type".toList with
  | none => .error .missingType
  | some (.null, _) => .error .missingType
  | some (.array _, _) => .error (.structured .array)
  | some (.object _, _) => .error (.structured .object)
  | some (type, _) =>
      match type.text? with
      | none => .error (.unknownType type)
      | some name =>
          if name = "Code".toList then readCode fields
          else if name = "BlockStart".toList then readBlock fields
          else if name = "BlockEnd".toList then readClosing fields
          else if name = "Rule".toList then readRule fields
          else if name = "AtRule".toList then readBare fields
          else .error (.unknownType type)

/-! ## Whole values -/

mutual

/-- Read a value of a field from the inside out. -/
def decodeValue : Json → Except DecodeFault FieldValue
  | .object fields => (readTyped (decodeFields fields)).map .described
  | .array items => (decodeItems items).map .sequence
  | scalar => .ok (.scalar scalar)

def decodeItems : List Json → Except DecodeFault (List FieldValue)
  | [] => .ok []
  | item :: items => do
      let value ← decodeValue item
      let values ← decodeItems items
      return value :: values

def decodeFields : List (Text × Json) → Fields
  | [] => []
  | (name, value) :: fields => (name, value, decodeValue value) :: decodeFields fields

end

/-- Read an object with the given fields. -/
def decode (fields : List (Text × Json)) : Except DecodeFault Token := do
  (← readTyped (decodeFields fields)).toToken

/-- Read a value that has to be an object. -/
def decodeObject : Json → Except ReadFault Token
  | .object fields => (decode fields).mapError .decode
  | value => .error (.notObject value.kind)

/-- Read one item of an array of tokens, which cannot be a bare at-rule. -/
def loadItem : Json → Except ReadFault Described
  | .object fields => do
      let content ← (readTyped (decodeFields fields)).mapError .decode
      if content.typeName = "AtRule".toList then .error (.notToken content.typeName)
      else return content
  | value => .error (.notObject value.kind)

/-- Read the text of a JSON array of tokens, values taken as they are. -/
def load (text : Text) : Except ReadFault (List Described) :=
  match Json.read? text with
  | none => .error .notJson
  | some (.array items) => items.mapM loadItem
  | some value => .error (.notArray value.kind)

/-- Read the text of a JSON array of tokens. -/
def read (text : Text) : Except ReadFault (List Token) := do
  ((← load text).mapM Described.toToken).mapError .decode

end Token
end Stylesheet
