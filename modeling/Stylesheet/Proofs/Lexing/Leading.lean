import Stylesheet.Proofs.Lexing.Assembly
import Stylesheet.Proofs.Lexing.Cutting

/-!
# Texts in front of others

Some texts are read in the same way whatever follows them. What is written piece by piece
is read piece by piece if each piece is such a text.
-/

namespace Stylesheet

/-! ## Leading texts -/

/-- A text that is read as the same glyphs in front of every text. -/
structure Leads (text : Text) (glyphs : List Glyph) : Prop where
  lexed_append {second : Text} {others : List Glyph} {isOpen : Bool}
    (behind : Lexed second others isOpen) : Lexed (text ++ second) (glyphs ++ others) isOpen

namespace Leads

variable {first second : Text} {glyphs others : List Glyph}

theorem nil : Leads [] [] := ⟨fun behind => behind⟩

theorem append (before : Leads first glyphs) (behind : Leads second others) :
    Leads (first ++ second) (glyphs ++ others) := by
  constructor
  intro third more isOpen lexed
  rw [List.append_assoc, List.append_assoc]
  exact before.lexed_append (behind.lexed_append lexed)

theorem blank (isBlank : Text.Blank first) : Leads first (first.map .text) :=
  ⟨fun behind => Lexed.blank_append isBlank behind⟩

theorem lexed (leads : Leads first glyphs) : Lexed first glyphs false := by
  have alone := leads.lexed_append Lexed.nil
  rwa [List.append_nil, List.append_nil] at alone

/-- A closed text leads together with the boundary behind it. -/
theorem boundary (closed : Lexed first glyphs false) {character : Char}
    (isBoundary : character ∈ Glyph.boundaries) :
    Leads (first ++ [character]) (glyphs ++ [.boundary character]) := by
  constructor
  intro second others isOpen behind
  rw [List.append_assoc, List.append_assoc]
  exact closed.append_boundary isBoundary behind

theorem taken (opened : Lexed first glyphs true) (character : Char) :
    Leads (first ++ [character]) (glyphs ++ [.text character]) := by
  constructor
  intro second others isOpen behind
  rw [List.append_assoc, List.append_assoc]
  exact opened.append_open character behind

/-- The characters that separate keys, values, selectors and flags. -/
def separators : List Char := [':', ',', ' ']

theorem front?_separator {character : Char} (isSeparator : character ∈ separators)
    (rest : Text) : Marker.front? false (character :: rest) = none := by
  apply Marker.front?_eq_none_of_first
  revert character
  decide

theorem plain {isOpen : Bool} (lexed : Lexed first glyphs isOpen) {character : Char}
    (noMarker : ∀ rest, Marker.front? false (character :: rest) = none)
    (isInert : Marker.inert character = true) :
    Leads (first ++ [character]) (glyphs ++ [.text character]) := by
  constructor
  intro second others stillOpen behind
  rw [List.append_assoc, List.append_assoc]
  exact lexed.append_plain (noMarker second) isInert behind

theorem separator {isOpen : Bool} (lexed : Lexed first glyphs isOpen) {character : Char}
    (isSeparator : character ∈ separators) :
    Leads (first ++ [character]) (glyphs ++ [.text character]) := by
  apply plain lexed (front?_separator isSeparator)
  revert character
  decide

theorem white {isOpen : Bool} (lexed : Lexed first glyphs isOpen) {back : Text}
    (isBlank : Text.Blank back) (notEmpty : back ≠ []) :
    Leads (first ++ back) (glyphs ++ back.map .text) := by
  cases back with
  | nil => exact absurd rfl notEmpty
  | cons character back =>
      have first := plain lexed (fun _ => Marker.front?_eq_none_of_isBlank isBlank.head)
        (Marker.inert_of_isBlank isBlank.head)
      have whole := first.append (blank isBlank.tail)
      rwa [List.append_assoc, List.append_assoc] at whole

theorem cons {character : Char} (noMarker : ∀ rest,
    Marker.front? false (character :: (first ++ rest)) = none) (leads : Leads first glyphs) :
    Leads (character :: first) (.text character :: glyphs) := by
  constructor
  intro second others isOpen behind
  exact .plain (noMarker second) (leads.lexed_append behind)

end Leads

/-! ## Emission -/

section Emission

variable {content : List Glyph} {declaration : Declaration} (terminator : Text)

theorem emitGlyphs_of_declaration
    (isDeclaration : Statement.ofGlyphs .strict content = .declaration declaration) :
    emitGlyphs content terminator = [.rule declaration 0 false] := by
  rw [emitGlyphs, isDeclaration]

theorem emitGlyphs_of_not_declaration
    (noDeclaration : ∀ other, Statement.ofGlyphs .strict content ≠ .declaration other) :
    emitGlyphs content terminator =
      if (Text.trim (content.map Glyph.character)).isEmpty then []
      else [.code (Text.trim (content.map Glyph.character) ++ terminator) 0 false] := by
  rw [emitGlyphs]
  split
  next other isDeclaration => exact absurd isDeclaration (noDeclaration other)
  next => rfl

theorem isWellFormed_of_ne_malformed (formed : Statement.ofGlyphs .strict content ≠ .malformed) :
    isWellFormed content = true := by
  rw [isWellFormed, bne_iff_ne.mpr formed, Bool.true_or]

end Emission

end Stylesheet
