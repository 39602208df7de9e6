import Stylesheet.Proofs.Lexing.Statement
import Stylesheet.Proofs.Scan.Demand
import Stylesheet.Tokenizer

/-!
# From glyphs to tokens

The flat tokens of a source are assembled from its glyphs: boundaries end statements
and open or close blocks, and all glyphs between them are the content of one statement
or heading. Offsets are left out.
-/

namespace Stylesheet

/-- The options that report errors and are otherwise the default ones. -/
def TokenizeOptions.strict : TokenizeOptions := { ignoreErrors := false }

/-! ## Contents -/

/-- Glyphs that can be the content of one statement or heading. -/
def IsContent (glyphs : List Glyph) : Prop :=
  ∀ character, .boundary character ∉ glyphs

theorem isContent_map_text (text : Text) : IsContent (text.map .text) := by
  intro character member
  simp at member

theorem isContent_map_literal (text : Text) : IsContent (text.map .literal) := by
  intro character member
  simp at member

theorem isContent_append {first second : List Glyph} (firstContent : IsContent first)
    (secondContent : IsContent second) : IsContent (first ++ second) := by
  intro character member
  rcases List.mem_append.mp member with member | member
  · exact firstContent character member
  · exact secondContent character member

namespace IsContent

variable {first second glyphs : List Glyph} {glyph : Glyph}

theorem of_subset (content : IsContent second) (subset : ∀ glyph ∈ first, glyph ∈ second) :
    IsContent first :=
  fun character member => content character (subset _ member)

theorem head (content : IsContent (glyph :: glyphs)) : IsContent [glyph] :=
  content.of_subset (by simp)

theorem tail (content : IsContent (glyph :: glyphs)) : IsContent glyphs :=
  content.of_subset fun _ member => List.mem_cons_of_mem _ member

end IsContent

theorem boundary_or_isContent (glyph : Glyph) :
    (∃ character, glyph = .boundary character) ∨ IsContent [glyph] := by
  cases glyph with
  | boundary character => exact Or.inl ⟨character, rfl⟩
  | text character => exact Or.inr fun _ member => by simp at member
  | literal character => exact Or.inr fun _ member => by simp at member

/-! ## Assembling -/

/-- Flat tokens, and whether nothing is to be reported about them. -/
structure Draft where
  tokens : List Token
  sound : Bool

namespace Draft

/-- Put tokens in front of a draft. -/
def prepend (draft : Draft) (tokens : List Token) (sound : Bool) : Draft :=
  ⟨tokens ++ draft.tokens, sound && draft.sound⟩

end Draft

/-- The tokens of a statement with the given glyphs: one, or none if it is blank. -/
def emitGlyphs (content : List Glyph) (terminator : Text) : List Token :=
  let text := Text.trim (content.map Glyph.character)
  match Statement.ofGlyphs .strict content with
  | .declaration declaration => [.rule declaration 0 false]
  | _ => if text.isEmpty then [] else [.code (text ++ terminator) 0 false]

/-- Whether a statement is not malformed, or blank. -/
def isWellFormed (content : List Glyph) : Bool :=
  Statement.ofGlyphs .strict content != .malformed ||
    (Text.trim (content.map Glyph.character)).isEmpty

def Heading.ofGlyphs (content : List Glyph) : Heading :=
  .ofSelectors (Text.trim (content.map Glyph.character)) (Heading.selectorsOfGlyphs content)

/-- The flat tokens of some glyphs, behind the content of an unfinished statement. -/
def assemble (depth : Int) (content : List Glyph) : List Glyph → Draft
  | [] => ⟨emitGlyphs content [], isWellFormed content && !(0 < depth : Bool)⟩
  | .boundary character :: rest =>
      if character = ';' then
        (assemble depth [] rest).prepend (emitGlyphs content [';']) (isWellFormed content)
      else if character = '\x7b' then
        (assemble (depth + 1) [] rest).prepend [.opening (.ofGlyphs content) 0] true
      else
        (assemble (depth - 1) [] rest).prepend (emitGlyphs content [] ++ [.closing 0])
          (isWellFormed content && depth != 0)
  | glyph :: rest => assemble depth (content ++ [glyph]) rest

theorem assemble_cons {glyph : Glyph} (isContent : IsContent [glyph]) (depth : Int)
    (content rest : List Glyph) :
    assemble depth content (glyph :: rest) = assemble depth (content ++ [glyph]) rest := by
  rw [assemble]
  rintro character rfl
  exact isContent character List.mem_cons_self

theorem assemble_append (depth : Int) (content : List Glyph) {inner rest : List Glyph}
    (isContent : IsContent inner) :
    assemble depth content (inner ++ rest) = assemble depth (content ++ inner) rest := by
  induction inner generalizing content with
  | nil => rw [List.nil_append, List.append_nil]
  | cons glyph inner induction =>
      rw [List.cons_append, assemble_cons isContent.head, induction _ isContent.tail,
        List.append_assoc]
      rfl

/-! ### Blanks -/

section Blanks

variable {blank : Text} (isBlank : Text.Blank blank) (content : List Glyph)

include isBlank

theorem trim_characters_blank_append :
    Text.trim ((blank.map Glyph.text ++ content).map Glyph.character) =
      Text.trim (content.map Glyph.character) := by
  rw [List.map_append, Heading.map_character_text, Text.trim_blank_append isBlank]

theorem trim_characters_append_blank :
    Text.trim ((content ++ blank.map Glyph.text).map Glyph.character) =
      Text.trim (content.map Glyph.character) := by
  rw [List.map_append, Heading.map_character_text, Text.trim_append_blank isBlank]

theorem emitGlyphs_blank_append (terminator : Text) :
    emitGlyphs (blank.map .text ++ content) terminator = emitGlyphs content terminator := by
  rw [emitGlyphs, emitGlyphs, trim_characters_blank_append isBlank,
    Statement.ofGlyphs_blank_append isBlank]

theorem emitGlyphs_append_blank (terminator : Text) :
    emitGlyphs (content ++ blank.map .text) terminator = emitGlyphs content terminator := by
  rw [emitGlyphs, emitGlyphs, trim_characters_append_blank isBlank,
    Statement.ofGlyphs_append_blank isBlank]

theorem isWellFormed_blank_append :
    isWellFormed (blank.map .text ++ content) = isWellFormed content := by
  rw [isWellFormed, isWellFormed, trim_characters_blank_append isBlank,
    Statement.ofGlyphs_blank_append isBlank]

theorem isWellFormed_append_blank :
    isWellFormed (content ++ blank.map .text) = isWellFormed content := by
  rw [isWellFormed, isWellFormed, trim_characters_append_blank isBlank,
    Statement.ofGlyphs_append_blank isBlank]

theorem ofGlyphs_blank_append :
    Heading.ofGlyphs (blank.map .text ++ content) = Heading.ofGlyphs content := by
  rw [Heading.ofGlyphs, Heading.ofGlyphs, trim_characters_blank_append isBlank,
    Heading.selectorsOfGlyphs_blank_append isBlank]

theorem ofGlyphs_append_blank :
    Heading.ofGlyphs (content ++ blank.map .text) = Heading.ofGlyphs content := by
  rw [Heading.ofGlyphs, Heading.ofGlyphs, trim_characters_append_blank isBlank,
    Heading.selectorsOfGlyphs_append_blank isBlank]

theorem assemble_blank_append (depth : Int) (glyphs : List Glyph) :
    assemble depth (blank.map .text ++ content) glyphs = assemble depth content glyphs := by
  induction glyphs generalizing content with
  | nil =>
      rw [assemble, assemble, emitGlyphs_blank_append isBlank, isWellFormed_blank_append isBlank]
  | cons glyph glyphs induction =>
      rcases boundary_or_isContent glyph with ⟨character, rfl⟩ | isContent
      · rw [assemble, assemble, emitGlyphs_blank_append isBlank,
          emitGlyphs_blank_append isBlank, isWellFormed_blank_append isBlank,
          ofGlyphs_blank_append isBlank]
      · rw [assemble_cons isContent, assemble_cons isContent, List.append_assoc, induction]

theorem assemble_append_blank (depth : Int) (glyphs : List Glyph) :
    assemble depth content (glyphs ++ blank.map .text) = assemble depth content glyphs := by
  induction glyphs generalizing depth content with
  | nil =>
      have whole : assemble depth content (blank.map .text ++ []) =
          assemble depth (content ++ blank.map .text) [] :=
        assemble_append depth content (isContent_map_text blank)
      rw [List.append_nil] at whole
      rw [List.nil_append, whole, assemble, assemble, emitGlyphs_append_blank isBlank,
        isWellFormed_append_blank isBlank]
  | cons glyph glyphs induction =>
      rw [List.cons_append]
      rcases boundary_or_isContent glyph with ⟨character, rfl⟩ | isContent
      · rw [assemble, assemble, induction, induction, induction]
      · rw [assemble_cons isContent, assemble_cons isContent, induction]

end Blanks

end Stylesheet
