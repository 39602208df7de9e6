import Stylesheet.Place

/-!
# Text

A text is a list of characters, so offsets and lengths count Unicode code
points. This module cuts pieces out of a text, splits it at a separator, and
finds the first place where a phrase occurs.
-/

namespace Stylesheet

/-- A text, one entry for each code point. -/
abbrev Text := List Char

namespace Text

/-- The characters between the places of two offsets. A slice that starts at or
after its stop is empty, and one that reaches past the end is cut there. -/
def slice (source : Text) (start stop : Int) : Text :=
  let first := place source.length start
  (source.drop first).take (place source.length stop - first)

/-- Offsets that are not negative count the characters before them. -/
theorem slice_natCast (source : Text) (start stop : Nat) :
    source.slice start stop = (source.drop start).take (stop - start) := by
  simp [slice]

/-- Neighbouring slices make up the slice of both. -/
theorem slice_append_slice (source : Text) {start middle stop : Nat}
    (first : start ≤ middle) (second : middle ≤ stop) :
    source.slice start middle ++ source.slice middle stop = source.slice start stop := by
  have total : stop - start = (middle - start) + (stop - middle) := by omega
  have place : start + (middle - start) = middle := by omega
  rw [slice_natCast, slice_natCast, slice_natCast, total, List.take_add, List.drop_drop, place]

/-- The piece before the first separator, and the pieces between and after the
separators. Splitting never drops a piece, however short. -/
def split (separator : Char) : Text → Text × List Text
  | [] => ([], [])
  | character :: rest =>
      let (head, tail) := split separator rest
      if character = separator then ([], head :: tail)
      else (character :: head, tail)

/-- The texts one after the other, with the separator between neighbours. -/
def join (separator : Text) : List Text → Text
  | [] => []
  | [text] => text
  | text :: texts => text ++ separator ++ join separator texts

/-- The pieces with the separators between them are the text. -/
theorem join_split (separator : Char) (text : Text) :
    join [separator] ((split separator text).1 :: (split separator text).2) = text := by
  induction text with
  | nil => rfl
  | cons character rest induction =>
      by_cases isSeparator : character = separator
      · subst isSeparator
        simp only [split, if_true]
        simpa [join] using induction
      · simp only [split, if_neg isSeparator]
        cases tail : (split separator rest).2 with
        | nil => rw [tail] at induction; simpa [join] using induction
        | cons piece pieces => rw [tail] at induction; simpa [join] using induction

/-- No separator is left in a piece. -/
theorem not_mem_split (separator : Char) (text : Text) :
    ∀ piece ∈ (split separator text).1 :: (split separator text).2, separator ∉ piece := by
  induction text with
  | nil => simp [split]
  | cons character rest induction =>
      intro piece member
      by_cases isSeparator : character = separator
      · simp only [split, if_pos isSeparator] at member
        rcases List.mem_cons.mp member with rfl | member
        · simp
        · exact induction piece member
      · simp only [split, if_neg isSeparator] at member
        rcases List.mem_cons.mp member with rfl | member
        · intro found
          rcases List.mem_cons.mp found with equal | found
          · exact isSeparator equal.symm
          · exact induction _ (List.mem_cons_self ..) found
        · exact induction piece (List.mem_cons_of_mem _ member)

/-- How many characters precede the first occurrence of a phrase. -/
def find? (phrase : Text) : Text → Option Nat
  | [] => if phrase.isEmpty then some 0 else none
  | character :: rest =>
      if phrase.isPrefixOf (character :: rest) then some 0
      else (find? phrase rest).map (· + 1)

/-- The offset of the first occurrence of a phrase at or after the place of
`start`. -/
def findFrom? (phrase source : Text) (start : Int) : Option Nat :=
  let first := place source.length start
  (find? phrase (source.drop first)).map (first + ·)

/-- The offsets at which a character stands, ascending, where the text is what a
source holds from `offset` on. -/
def offsetsOf (character : Char) (offset : Nat) : Text → List Nat
  | [] => []
  | head :: rest =>
      if head = character then offset :: offsetsOf character (offset + 1) rest
      else offsetsOf character (offset + 1) rest

end Text
end Stylesheet
