import Stylesheet.Json.Names

/-!
# Settings

Options are set by name. The settings of one call keep the order in which their
names first came, and each name has the value that it was given last. A name may
be spelled in two ways; after both spellings are made one, the setting whose
name came later counts. A call may have arguments besides its settings; no
setting can have the name of an argument that is already given.
-/

namespace Stylesheet

/-- Named values in order. -/
abbrev Settings := List (Text × Json)

namespace Settings

/-- Give a name a value, in its place if it has one and at the end otherwise. -/
def put (name : Text) (value : Json) : Settings → Settings
  | [] => [(name, value)]
  | (other, old) :: settings =>
      if other = name then (name, value) :: settings
      else (other, old) :: put name value settings

/-- One setting for each name of a list of pairs. -/
def ofPairs (pairs : List (Text × Json)) : Settings :=
  pairs.foldl (fun settings pair => put pair.1 pair.2 settings) []

/-- One setting for each name, after the second spellings of names have been
replaced by the first. -/
def normalize (spellings : List (Text × Text)) (pairs : List (Text × Json)) : Settings :=
  ofPairs ((ofPairs pairs).map fun pair =>
    ((spellings.lookup pair.1).getD pair.1, pair.2))

end Settings

/-- Why settings cannot be applied. -/
inductive OptionFault
  /-- A list of names that is given as something else. -/
  | modifiers (fault : Json.NamesFault)
  /-- A name that no option has. -/
  | unknown (call name : Text)
  /-- A name of an argument that is already given. -/
  | taken (call name : Text)
  /-- A value of the wrong kind given as the options to start from, and the part
  of options that it was asked for. -/
  | notOptions (kind : Json.Kind) (part : Text)
  /-- A value of a kind that the option cannot have. -/
  | illTyped (name : Text)

namespace OptionFault

def message : OptionFault → Text
  | modifiers fault => fault.message
  | unknown call name =>
      call ++ "() got an unexpected keyword argument '".toList ++ name ++ ['\'']
  | taken call name =>
      call ++ "() got multiple values for argument '".toList ++ name ++ ['\'']
  | notOptions kind part =>
      '\'' :: kind.name ++ "' object has no attribute '".toList ++ part ++ ['\'']
  | illTyped name => "unexpected value of option ".toList ++ name

end OptionFault

namespace Settings

/-- The value of a switch, which is on unless its value is void. -/
def readSwitch (value : Json) : Bool :=
  !value.isVoid

/-- The value of an option that is a text. -/
def readText (name : Text) : Json → Except OptionFault Text
  | .string text => .ok text
  | _ => .error (.illTyped name)

/-- The value of an option that is a list of names. The type of such an option is
a list of texts: a value with members of another kind is ill-typed and gives no
option. -/
def readNames (value : Json) : Except OptionFault (List Text) :=
  match value.asNames with
  | .ok names => .ok names
  | .error fault => .error (.modifiers fault)

/-- The name of the option that lists modifiers. -/
def modifiersName : Text := "rule_modifiers".toList

/-- Check that the setting that lists modifiers has members, before anything else
is checked. -/
def checkModifiers (settings : Settings) : Except OptionFault Unit :=
  match (settings.lookup modifiersName).map Json.members with
  | some (.error fault) => .error (.modifiers fault)
  | _ => .ok ()

/-- The name of the argument that stands for what is being made. -/
def selfName : Text := "self".toList

/-- Check that every setting of a call has a known name. The first one that has
none counts. -/
def checkNames (call : Text) (known : List Text) (settings : Settings) :
    Except OptionFault Unit :=
  match settings.find? fun setting => !known.contains setting.1 with
  | some (name, _) => .error (if name = selfName then .taken call name else .unknown call name)
  | none => .ok ()

/-- Refuse settings that have the name of an argument of a call. The first one of
them counts. -/
def refuse (call : Text) (arguments : List Text) (settings : Settings) :
    Except OptionFault Unit :=
  match settings.find? fun setting => arguments.contains setting.1 with
  | some (name, _) => .error (.taken call name)
  | none => .ok ()

/-- The name under which the options to start from can be given. -/
def baseName : Text := "config".toList

/-- Check the options to start from and leave the other settings. Settings are
plain values, so nothing but a void value can stand for options. Of any other
value some part is asked for: what applies the other settings, or the given part
if there are none. -/
def withoutBase (part : Text) (settings : Settings) : Except OptionFault Settings :=
  let others := settings.filter fun setting => setting.1 != baseName
  match settings.lookup baseName with
  | none => .ok others
  | some value =>
      if value.isVoid then .ok others
      else .error (.notOptions value.kind
        (if others.isEmpty then part else "with_options".toList))

end Settings

/-- The flags that are recognised unless other ones are named. -/
def defaultModifiers : List Text :=
  ["default".toList, "important".toList]

end Stylesheet
