import Stylesheet.NameSet
import Stylesheet.Text.Blank
import Stylesheet.Text.Lowercase

/-!
# Modifiers

Flags such as `!important` at the end of a value are its modifiers. They are
taken off one after the other, in whatever order and case they were written.
-/

namespace Stylesheet

/-- A value and the flags that have been taken from its end. -/
structure Flagged where
  value : Text
  modifiers : NameSet
  deriving DecidableEq

namespace Flagged

/-- A flag as it is looked for, in lower case. -/
def flag (name : Text) : Text :=
  '!' :: Text.lowercase name

/-- The first of the names that has not been taken yet and whose flag ends the
value. -/
def next? (names : List Text) (flagged : Flagged) : Option Text :=
  let lowered := Text.lowercase flagged.value
  names.find? fun name =>
    !flagged.modifiers.contains name && (flag name).isSuffixOf lowered

/-- Take the flag of a name from the end of the value. As many characters are
cut off as the flag has in lower case. -/
def take (flagged : Flagged) (name : Text) : Flagged :=
  { value := Text.trim
      (flagged.value.take (flagged.value.length - (flag name).length))
    modifiers := flagged.modifiers.insert name }

/-- Take flags as long as there are any, at most `rounds` of them. Nothing is
taken from an empty value. -/
def takeAll (names : List Text) : (rounds : Nat) → Flagged → Flagged
  | 0, flagged => flagged
  | rounds + 1, flagged =>
      if flagged.value.isEmpty then flagged
      else match flagged.next? names with
        | none => flagged
        | some name => takeAll names rounds (flagged.take name)

/-- The value without the flags at its end. No name is taken twice, so there
are at most as many rounds as names. -/
def ofValue (names : List Text) (value : Text) : Flagged :=
  takeAll names names.length ⟨value, .empty⟩

end Flagged
end Stylesheet
