import Stylesheet.Text.LetterCase

/-!
# Lower case

Lower-casing replaces each letter by its lower-case partner. Two letters need
more than the table: the dotted capital I becomes two characters, and a capital
sigma at the end of a word becomes a final sigma.
-/

namespace Stylesheet
namespace Text

/-- The capital I with a dot above. -/
def dottedCapitalI : Char := Char.ofNat 0x130

def capitalSigma : Char := Char.ofNat 0x3A3

/-- The sigma written inside a word. -/
def smallSigma : Char := Char.ofNat 0x3C3

/-- The sigma written at the end of a word. -/
def finalSigma : Char := Char.ofNat 0x3C2

/-- The lower-case form of a character, looked at alone. -/
def lowercaseCharacter (character : Char) : Text :=
  if character = dottedCapitalI then ['i', Char.ofNat 0x307]
  else match caseRuns.find? (·.contains character) with
    | some run => [run.lower character]
    | none => [character]

/-- On the capital letters of ASCII the table agrees with the built-in map. -/
theorem lowercaseCharacter_of_isUpper {character : Char}
    (upper : character.isUpper = true) :
    lowercaseCharacter character = [character.toLower] := by
  have letters : ∀ code < 91, 65 ≤ code →
      lowercaseCharacter (Char.ofNat code) = [(Char.ofNat code).toLower] := by decide
  have bounds : 65 ≤ character.toNat ∧ character.toNat < 91 := by
    obtain ⟨lower, higher⟩ := of_decide_eq_true upper
    exact ⟨UInt32.le_iff_toNat_le.mp lower, Nat.lt_succ_of_le (UInt32.le_iff_toNat_le.mp higher)⟩
  have result := letters character.toNat bounds.2 bounds.1
  rwa [Char.ofNat_toNat] at result

/-- Whether the first character that is not passed over is cased. -/
def meetsCased (text : Text) : Bool :=
  (text.dropWhile isCaseIgnorable).head?.any isCased

/-- Lower-case a text that follows the given characters, nearest first. A
capital sigma is final when a cased character precedes it and none follows. -/
def lowercaseAfter (preceding : Text) : Text → Text
  | [] => []
  | character :: rest =>
      let lowered :=
        if character = capitalSigma then
          if meetsCased preceding && !meetsCased rest then [finalSigma]
          else [smallSigma]
        else lowercaseCharacter character
      lowered ++ lowercaseAfter (character :: preceding) rest

def lowercase (text : Text) : Text :=
  lowercaseAfter [] text

end Text
end Stylesheet
