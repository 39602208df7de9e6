import Stylesheet.Json.Basic

/-!
# Lists of names in JSON

A list of names is an array of strings. A single string stands for the list of
its characters, and an object for the list of the names of its fields. Names are
texts: whatever holds names is declared to hold texts and nothing else. Members
of another kind lie outside of that type, so they are not kept but refused, with
a fault that belongs to this reading of JSON alone.
-/

namespace Stylesheet
namespace Json

/-- Why a value gives no list of names. -/
inductive NamesFault
  /-- A value of a kind that holds no members. -/
  | notIterable (kind : Kind)
  /-- Members that are no strings, which no list of texts can hold. -/
  | notNames
  deriving DecidableEq

/-- The text of a string value. -/
def text? : Json → Option Text
  | string text => some text
  | _ => none

/-- The members of a value that holds any. -/
def members : Json → Except NamesFault (List Json)
  | string text => .ok (text.map fun character => string [character])
  | array items => .ok items
  | object fields => .ok ((fields.map (·.1)).eraseDups.map string)
  | value => .error (.notIterable value.kind)

/-- The texts of members that are all strings. One member of another kind makes
the whole list ill-typed. -/
def namesOf (members : List Json) : Except NamesFault (List Text) :=
  match members.mapM text? with
  | some names => .ok names
  | none => .error .notNames

/-- Read a list of names. -/
def asNames (value : Json) : Except NamesFault (List Text) := do
  namesOf (← value.members)

namespace NamesFault

def message : NamesFault → Text
  | notIterable kind => '\'' :: kind.name ++ "' object is not iterable".toList
  | notNames => "names must be strings".toList

end NamesFault
end Json
end Stylesheet
