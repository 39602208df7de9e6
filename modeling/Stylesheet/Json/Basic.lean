import Stylesheet.Double.Basic

/-!
# JSON values

Objects keep their fields in the order in which they were written. A number
with a fraction or an exponent is held in double precision; all others are
integers of any size.
-/

namespace Stylesheet

inductive Json
  | null
  | boolean (value : Bool)
  | integer (value : Int)
  /-- A number that was written with a fraction or an exponent. -/
  | decimal (value : Double)
  | string (text : Text)
  | array (items : List Json)
  | object (fields : List (Text × Json))
  deriving Inhabited

namespace Json

/-- The seven kinds of values. -/
inductive Kind
  | null
  | boolean
  | integer
  | decimal
  | string
  | array
  | object
  deriving DecidableEq

def kind : Json → Kind
  | null => .null
  | boolean _ => .boolean
  | integer _ => .integer
  | decimal _ => .decimal
  | string _ => .string
  | array _ => .array
  | object _ => .object

/-- Whether a value counts as not given: null, no, zero, and everything empty. -/
def isVoid : Json → Bool
  | null => true
  | boolean value => !value
  | integer value => value == 0
  | decimal value => value.isZero
  | string text => text.isEmpty
  | array items => items.isEmpty
  | object fields => fields.isEmpty

/-- Whether a value is an array or an object. -/
def isStructured : Json → Bool
  | array _ => true
  | object _ => true
  | _ => false

/-- The word for a kind of value in messages. -/
def Kind.name : Kind → Text
  | .null => "NoneType".toList
  | .boolean => "bool".toList
  | .integer => "int".toList
  | .decimal => "float".toList
  | .string => "str".toList
  | .array => "list".toList
  | .object => "dict".toList

/-- The value of a field. Of several fields with one name the last counts. -/
def lookup? (fields : List (Text × Json)) (name : Text) : Option Json :=
  fields.reverse.lookup name

end Json
end Stylesheet
