import Stylesheet.Marker.Basic

/-!
# Finding markers

One pass over the source finds every occurrence of every marker. Occurrences of
one marker never overlap each other; occurrences of different markers may. They
come in the order of their offsets, and at one offset the longer marker comes
first, then the one listed first.
-/

namespace Stylesheet
namespace Marker

/-- An ASCII letter in lower case; any other character as it is. -/
def foldCase (character : Char) : Char :=
  if 'A' ≤ character && character ≤ 'Z' then Char.ofNat (character.toNat + 32)
  else character

/-- Whether a spelling is matched without regard to ASCII case. -/
def ignoresCase (spelling : Text) : Bool :=
  spelling == url.spelling

/-- Whether a text begins with an occurrence of a spelling. -/
def occursHere (spelling text : Text) : Bool :=
  if ignoresCase spelling then
    spelling.isPrefixOf ((text.take spelling.length).map foldCase)
  else spelling.isPrefixOf text

/-- A marker that is searched for, and how many characters of its last
occurrence are still to be passed over. -/
structure Pursuit (Mark : Type) where
  mark : Mark
  spelling : Text
  pending : Nat

namespace Pursuit

variable {Mark : Type}

/-- Whether the marker is found at the head of a text. -/
def isHit (pursuit : Pursuit Mark) (text : Text) : Bool :=
  pursuit.pending == 0 && occursHere pursuit.spelling text

/-- Move on by one character. -/
def advance (pursuit : Pursuit Mark) (text : Text) : Pursuit Mark :=
  if pursuit.isHit text then
    { pursuit with pending := pursuit.spelling.length - 1 }
  else { pursuit with pending := pursuit.pending - 1 }

/-- Insert a marker behind all that are as long or longer. -/
def insertByLength (pursuit : Pursuit Mark) :
    List (Pursuit Mark) → List (Pursuit Mark)
  | [] => [pursuit]
  | other :: others =>
      if other.spelling.length < pursuit.spelling.length then
        pursuit :: other :: others
      else other :: insertByLength pursuit others

/-- The markers by falling length; those of one length keep their order. -/
def ranked (spelling : Mark → Text) (marks : List Mark) : List (Pursuit Mark) :=
  marks.foldl (fun pursuits mark => insertByLength ⟨mark, spelling mark, 0⟩ pursuits) []

/-- The hits at the offsets from `offset` on, where `text` is what the source
holds from there. -/
def hits (pursuits : List (Pursuit Mark)) (offset : Nat) :
    Text → List (Mark × Nat)
  | [] => []
  | character :: rest =>
      let here := pursuits.filter (·.isHit (character :: rest))
      here.map (fun pursuit => (pursuit.mark, offset)) ++
        hits (pursuits.map (·.advance (character :: rest))) (offset + 1) rest

end Pursuit

/-- All occurrences of the markers in a source, with their offsets. -/
def occurrences {Mark : Type} (spelling : Mark → Text) (marks : List Mark)
    (source : Text) : List (Mark × Nat) :=
  Pursuit.hits (Pursuit.ranked spelling marks) 0 source

end Marker
end Stylesheet
