import Stylesheet.Options.Settings

/-!
# Options of the tokenizer

Four options say how a source is read. All of them have a default and can be set
by name.
-/

namespace Stylesheet

structure TokenizeOptions where
  /-- Split the contents of blocks into rules; if not, they are kept whole. -/
  splitRules : Bool := true
  /-- Repair errors silently; if not, they are reported. -/
  ignoreErrors : Bool := true
  /-- Read the extended syntax with calls, line comments and interpolation. -/
  lessSyntax : Bool := false
  /-- The flags that are recognised at the end of a value. -/
  ruleModifiers : List Text := defaultModifiers
  deriving DecidableEq

namespace TokenizeOptions

/-- The call that makes options, as it is named in messages. -/
def makingCall : Text := "TokenizeConfig.__init__".toList

/-- The second spelling of each option. -/
def spellings : List (Text × Text) :=
  [("splitRules".toList, "split_rules".toList),
   ("ignoreErrors".toList, "ignore_errors".toList),
   ("lessSyntax".toList, "less_syntax".toList),
   ("ruleModifiers".toList, Settings.modifiersName)]

/-- The names of all options. -/
def known : List Text :=
  ["split_rules".toList, "ignore_errors".toList, "less_syntax".toList,
   Settings.modifiersName]

/-- Apply one setting. A name that no option has changes nothing. -/
def set (options : TokenizeOptions) (setting : Text × Json) :
    Except OptionFault TokenizeOptions := do
  let (name, value) := setting
  if name = "split_rules".toList then
    return { options with splitRules := Settings.readSwitch value }
  else if name = "ignore_errors".toList then
    return { options with ignoreErrors := Settings.readSwitch value }
  else if name = "less_syntax".toList then
    return { options with lessSyntax := Settings.readSwitch value }
  else if name = Settings.modifiersName then
    return { options with ruleModifiers := ← Settings.readNames value }
  else return options

/-- Apply settings, all of which must have a known name. -/
def override (options : TokenizeOptions) (pairs : List (Text × Json)) :
    Except OptionFault TokenizeOptions := do
  let settings := Settings.normalize spellings pairs
  settings.checkModifiers
  settings.checkNames makingCall known
  settings.foldlM set options

/-- Apply settings to the default options. Settings with an unknown name are
ignored. -/
def ofPairs (pairs : List (Text × Json)) : Except OptionFault TokenizeOptions := do
  let settings := Settings.normalize spellings pairs
  settings.checkModifiers
  settings.foldlM set {}

/-- The call that makes a tokenizer, as it is named in messages. -/
def tokenizerCall : Text := "Tokenizer.__init__".toList

/-- The options of a tokenizer that is made from settings alone. The options to
start from may be given among the settings; if not, those in force are taken. -/
def ofSettings (inForce : TokenizeOptions) (pairs : List (Text × Json)) :
    Except OptionFault TokenizeOptions := do
  let settings := Settings.ofPairs pairs
  settings.refuse tokenizerCall [Settings.selfName]
  inForce.override (← settings.withoutBase "less_syntax".toList)

/-- The options of a tokenizer that is made from given options and settings. -/
def ofBase (base : TokenizeOptions) (pairs : List (Text × Json)) :
    Except OptionFault TokenizeOptions := do
  let settings := Settings.ofPairs pairs
  settings.refuse tokenizerCall [Settings.selfName, Settings.baseName]
  base.override settings

end TokenizeOptions
end Stylesheet
