import Stylesheet.Proofs.Lexing.Glyph
import Stylesheet.Proofs.Modifier.Flags

/-!
# Cutting texts that have been read

A text that is cut at a boundary, or before a flag, is read as before. Whether it is left
open depends on the backslashes at its end alone.
-/

namespace Stylesheet

namespace Text

/-- Whether a text ends with an odd number of backslashes, so that its last backslash takes
along whatever follows. -/
def endsOpen (text : Text) : Bool :=
  text.foldl (fun isOpen character => character == '\\' && !isOpen) false

theorem endsOpen_append_singleton (text : Text) (character : Char) :
    endsOpen (text ++ [character]) = (character == '\\' && !endsOpen text) := by
  rw [endsOpen, List.foldl_append]
  rfl

theorem endsOpen_append_cons {character : Char} (noBackslash : character ≠ '\\')
    (before behind : Text) :
    endsOpen (before ++ character :: behind) = endsOpen behind := by
  have closes (isOpen : Bool) : (character == '\\' && !isOpen) = false := by
    rw [beq_eq_false_iff_ne.mpr noBackslash, Bool.false_and]
  rw [endsOpen, List.foldl_append, List.foldl_cons, closes, endsOpen]

theorem getLast?_of_endsOpen {text : Text} (isOpen : endsOpen text = true) :
    text.getLast? = some '\\' := by
  rcases List.eq_nil_or_concat text with rfl | ⟨before, last, rfl⟩
  · cases isOpen
  · rw [List.concat_eq_append, endsOpen_append_singleton, Bool.and_eq_true, beq_iff_eq] at isOpen
    rw [List.concat_eq_append, List.getLast?_concat, isOpen.1]

end Text

namespace Lexed

variable {text : Text} {glyphs : List Glyph} {isOpen : Bool}

theorem exists_last_of_literal {found : Text}
    (isLiteral : literalReach? found = some found.length) :
    ∃ before, ∃ last ∈ literalLasts, found = before ++ [last] := by
  obtain ⟨last, isLast, ends⟩ := getLast?_of_literal isLiteral
  obtain ⟨before, split⟩ := List.getLast?_eq_some_iff.mp ends
  exact ⟨before, last, isLast, split⟩

/-- A text is left open by the backslashes at its end. -/
theorem isOpen_eq (lexed : Lexed text glyphs isOpen) : isOpen = text.endsOpen := by
  induction lexed with
  | nil => rfl
  | dangling => rfl
  | @plain character rest _ _ noMarker _ induction =>
      have noBackslash : character ≠ '\\' := by
        rintro rfl
        rw [Marker.front?_eq_none_iff] at noMarker
        exact noMarker .backslash (by decide) rfl
      rw [induction]
      exact (Text.endsOpen_append_cons noBackslash [] rest).symm
  | @escape character rest _ _ _ induction =>
      rw [induction, Text.endsOpen, Text.endsOpen, List.foldl_cons, List.foldl_cons]
      simp
  | @boundary character rest _ _ isBoundary _ induction =>
      have noBackslash : character ≠ '\\' := by
        rintro rfl
        revert isBoundary
        decide
      rw [induction]
      exact (Text.endsOpen_append_cons noBackslash [] rest).symm
  | @literal found rest _ _ isLiteral _ induction =>
      obtain ⟨before, last, isLast, rfl⟩ := exists_last_of_literal isLiteral
      have noBackslash : last ≠ '\\' := by
        rintro rfl
        revert isLast
        decide
      rw [induction, List.append_assoc, List.singleton_append,
        Text.endsOpen_append_cons noBackslash before rest]

theorem trim_subset (lexed : Lexed text glyphs isOpen) :
    ∃ known wasOpen, Lexed text.trim known wasOpen ∧ ∀ glyph ∈ known, glyph ∈ glyphs := by
  obtain ⟨front, known, back, wasOpen, rfl, -, -, trimmed⟩ := lexed.trim
  exact ⟨known, wasOpen, trimmed, fun glyph member =>
    List.mem_append_left _ (List.mem_append_right _ member)⟩

/-! ### Flags -/

/-- A literal does not end before one of the characters that literals end with. -/
theorem exists_last_behind_literal {before : List Glyph} {character : Char}
    {behind : List Glyph} (lexed : Lexed text (before ++ .literal character :: behind) isOpen) :
    ∃ last ∈ literalLasts, last ∈ (Glyph.literal character :: behind).map Glyph.character := by
  generalize whole : before ++ .literal character :: behind = glyphs at lexed
  -- A unit that does not hold the literal glyph lies before it.
  induction lexed generalizing before with
  | nil => simp at whole
  | dangling => cases before <;> simp at whole
  | plain noMarker later induction =>
      cases before with
      | nil => cases whole
      | cons first before => exact induction (List.cons.inj whole).2
  | escape head later induction =>
      cases before with
      | nil => cases whole
      | cons first before =>
          cases before with
          | nil => cases (List.cons.inj whole).2
          | cons next before => exact induction (List.cons.inj (List.cons.inj whole).2).2
  | boundary isBoundary later induction =>
      cases before with
      | nil => cases whole
      | cons first before => exact induction (List.cons.inj whole).2
  | @literal found rest glyphs _ isLiteral later induction =>
      rcases List.append_eq_append_iff.mp whole with ⟨more, split, tail⟩ | ⟨more, rfl, tail⟩
      · cases more with
        | nil =>
            have here : [] ++ Glyph.literal character :: behind = glyphs := tail
            exact induction here
        | cons other more =>
            obtain ⟨inner, last, isLast, rfl⟩ := exists_last_of_literal isLiteral
            refine ⟨last, isLast, ?_⟩
            have ends := congrArg List.getLast? split
            rw [List.map_append, List.map_singleton, List.getLast?_concat, List.getLast?_append,
              List.getLast?_cons, Option.some_or] at ends
            have member := List.mem_of_getLast? (List.getLast?_cons.trans ends.symm)
            rw [tail, List.map_append]
            exact List.mem_append_left _ (List.mem_map.mpr ⟨_, member, rfl⟩)
      · exact induction tail.symm

theorem cut_back {front back : Text} (noEnd : ∀ last ∈ literalLasts, last ∉ back)
    (notEmpty : back ≠ []) (lexed : Lexed (front ++ back) glyphs isOpen) :
    ∃ known wasOpen, Lexed front known wasOpen ∧ ∀ glyph ∈ known, glyph ∈ glyphs := by
  obtain ⟨known, rest, rfl, characters, behind⟩ := List.map_eq_append_iff.mp lexed.map_character
  cases rest with
  | nil => exact absurd behind.symm notEmpty
  | cons glyph rest =>
      have noLiteral : ∀ character, glyph ≠ .literal character := by
        rintro character rfl
        obtain ⟨last, isLast, member⟩ := exists_last_behind_literal lexed
        exact noEnd last isLast (behind ▸ member)
      obtain ⟨before, after, wasOpen, split, earlier, -⟩ := cutAt noLiteral lexed
      have same := earlier.map_character
      rw [characters] at same
      subst same
      exact ⟨known, wasOpen, earlier, fun other member => List.mem_append_left _ member⟩

theorem value_ofValue (lexed : Lexed text glyphs isOpen) :
    ∃ known wasOpen, Lexed (Flagged.ofValue defaultModifiers text).value known wasOpen ∧
      ∀ glyph ∈ known, glyph ∈ glyphs := by
  apply Flagged.value_takeAll fun left => ∃ known wasOpen,
    Lexed left known wasOpen ∧ ∀ glyph ∈ known, glyph ∈ glyphs
  · rintro front written notEmpty noFlagless ⟨known, wasOpen, lexed, inside⟩
    have lasts : ∀ last ∈ literalLasts, last ∈ Text.flagless := by decide
    obtain ⟨earlier, stillOpen, before, inKnown⟩ := lexed.cut_back
      (fun last isLast => noFlagless last (lasts last isLast)) notEmpty
    obtain ⟨inner, innerOpen, trimmed, inEarlier⟩ := before.trim_subset
    exact ⟨inner, innerOpen, trimmed, fun glyph member =>
      inside glyph (inKnown glyph (inEarlier glyph member))⟩
  · exact ⟨glyphs, isOpen, lexed, fun glyph member => member⟩

end Lexed

end Stylesheet
