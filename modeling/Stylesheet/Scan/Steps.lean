import Stylesheet.Marker.Search
import Stylesheet.Scan.Reaction

/-!
# The steps of a scan

A scan reacts to the markers of its source in order. Markers that lie in what is
already consumed are passed over. One more step stands for the end of the source.
-/

namespace Stylesheet
namespace Scan

/-- A reaction: the marker, or nothing at the end of the source, its offset, and
what it led to. -/
structure Step where
  marker : Option Marker
  offset : Nat
  outcome : Outcome
  deriving DecidableEq

/-- The steps from a state on, given the markers that are still ahead. -/
def stepsFrom (scan : Scan) (state : State) : List (Marker × Nat) → List Step
  | [] => [⟨none, scan.source.length, scan.endSource state⟩]
  | (marker, offset) :: markers =>
      if (offset : Int) < state.cursor then stepsFrom scan state markers
      else
        let outcome := scan.react marker state offset
        ⟨some marker, offset, outcome⟩ :: stepsFrom scan outcome.state markers

/-- The active markers of the source, in order. -/
def markers (scan : Scan) : List (Marker × Nat) :=
  Marker.occurrences Marker.spelling (Marker.active scan.options.lessSyntax) scan.source

/-- All steps of a scan. -/
def steps (scan : Scan) : List Step :=
  scan.stepsFrom {} scan.markers

end Scan
end Stylesheet
