import Stylesheet.Text.Basic

/-!
# Names of log channels

All log channels lie under one root. A name that is already under the root is
left as it is.
-/

namespace Stylesheet
namespace LogName

def root : Text := "stylescan".toList

/-- Whether a name is the root or lies under it. -/
def isQualified (name : Text) : Bool :=
  name == root || (root ++ ['.']).isPrefixOf name

/-- The name under the root. -/
def qualify (name : Text) : Text :=
  if isQualified name then name else root ++ '.' :: name

theorem isQualified_qualify (name : Text) : isQualified (qualify name) = true := by
  unfold qualify
  split
  next qualified => exact qualified
  next =>
    have start : (root ++ ['.']).isPrefixOf (root ++ '.' :: name) = true := by
      rw [List.isPrefixOf_iff_prefix]
      exact ⟨name, by simp⟩
    simp [isQualified, start]

end LogName
end Stylesheet
