import Stylesheet.Options.Settings

/-!
# Options of the layout

Five options say how tokens are written. What stands between keys and values and
between selectors follows from them.
-/

namespace Stylesheet

structure LayoutOptions where
  /-- Write as little as possible: neither indentation nor line breaks. -/
  minify : Bool := false
  /-- What a level of nesting is indented by. -/
  tab : Text := ['\t']
  /-- What ends a line. -/
  newline : Text := ['\n']
  /-- Put the opening brace on a line of its own. -/
  newLineAfterSelector : Bool := true
  /-- The flags that are written, in this order. -/
  ruleModifiers : List Text := defaultModifiers
  deriving DecidableEq

namespace LayoutOptions

def indent (options : LayoutOptions) : Text :=
  if options.minify then [] else options.tab

def lineBreak (options : LayoutOptions) : Text :=
  if options.minify then [] else options.newline

/-- What stands between a key and its value. -/
def ruleSeparator (options : LayoutOptions) : Text :=
  if options.minify then [':'] else [':', ' ']

/-- What stands between two selectors or two values of an at-rule. -/
def selectorSeparator (options : LayoutOptions) : Text :=
  if options.minify then [','] else [',', ' ']

/-- The call that makes options, as it is named in messages. -/
def makingCall : Text := "BuildConfig.__init__".toList

/-- The second spelling of the options that have one. -/
def spellings : List (Text × Text) :=
  [("newLineAfterSelector".toList, "new_line_after_selector".toList),
   ("ruleModifiers".toList, Settings.modifiersName)]

/-- The names of all options. -/
def known : List Text :=
  ["minify".toList, "tab".toList, "newline".toList,
   "new_line_after_selector".toList, Settings.modifiersName]

/-- Apply one setting. A name that no option has changes nothing. -/
def set (options : LayoutOptions) (setting : Text × Json) :
    Except OptionFault LayoutOptions := do
  let (name, value) := setting
  if name = "minify".toList then
    return { options with minify := Settings.readSwitch value }
  else if name = "tab".toList then
    return { options with tab := ← Settings.readText name value }
  else if name = "newline".toList then
    return { options with newline := ← Settings.readText name value }
  else if name = "new_line_after_selector".toList then
    return { options with newLineAfterSelector := Settings.readSwitch value }
  else if name = Settings.modifiersName then
    return { options with ruleModifiers := ← Settings.readNames value }
  else return options

/-- Apply settings, all of which must have a known name. -/
def override (options : LayoutOptions) (pairs : List (Text × Json)) :
    Except OptionFault LayoutOptions := do
  let settings := Settings.normalize spellings pairs
  settings.checkModifiers
  settings.checkNames makingCall known
  settings.foldlM set options

/-- Apply settings to the default options. Settings with an unknown name are
ignored. -/
def ofPairs (pairs : List (Text × Json)) : Except OptionFault LayoutOptions := do
  let settings := Settings.normalize spellings pairs
  settings.checkModifiers
  settings.foldlM set {}

/-- The name of the argument for what is rendered. -/
def tokensName : Text := "tokens".toList

/-- The options for rendering with settings alone. The options to start from may
be given among the settings; if not, the default ones are taken. -/
def ofSettings (call : Text) (pairs : List (Text × Json)) :
    Except OptionFault LayoutOptions := do
  let settings := Settings.ofPairs pairs
  settings.refuse call [tokensName]
  override {} (← settings.withoutBase "indent".toList)

/-- The options for rendering with given options and settings. -/
def ofBase (call : Text) (base : LayoutOptions) (pairs : List (Text × Json)) :
    Except OptionFault LayoutOptions := do
  let settings := Settings.ofPairs pairs
  settings.refuse call [tokensName, Settings.baseName]
  base.override settings

end LayoutOptions
end Stylesheet
