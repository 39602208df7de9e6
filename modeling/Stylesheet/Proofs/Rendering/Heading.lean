import Stylesheet.Proofs.Rendering.Writing
import Stylesheet.Proofs.Token.Outline

/-!
# Writing headings

Selectors and at-rules whose pieces can be read by themselves are written so that the
heading is recognised again. The raw text of the heading may change.
-/

namespace Stylesheet

/-- A text that can be read as one piece of a heading. Its last backslash is left open only
where there is room behind it. -/
def Text.IsPiece (roomy : Prop) (text : Text) : Prop :=
  ∃ glyphs isOpen, Lexed text glyphs isOpen ∧ IsContent glyphs ∧ .text ',' ∉ glyphs ∧
    (isOpen = true → roomy)

/-- A piece that a heading is cut into. -/
structure Text.IsSelector (roomy : Prop) (text : Text) : Prop where
  piece : text.IsPiece roomy
  trimmed : text.trim = text
  notEmpty : text ≠ []

namespace Heading

/-- A heading whose pieces can be read by themselves. -/
inductive IsLegible (roomy : Prop) : Heading → Prop
  | selectors (text : Text) {first : Text} {others : List Text}
      (each : ∀ selector ∈ first :: others, selector.IsSelector roomy)
      (noAt : first.head? ≠ some '@') : IsLegible roomy ⟨text, some (first :: others), none⟩
  | atRule (text : Text) {name value : Text} {others : List Text}
      (noBlank : ∀ character ∈ name, Text.isBlank character = false)
      (alone : value = [] → Text.IsPiece roomy ('@' :: name))
      (withValue : Text.IsPiece roomy ('@' :: name ++ ' ' :: value))
      (trimmed : value.trim = value)
      (each : ∀ other ∈ others, other.IsSelector roomy) :
      IsLegible roomy ⟨text, none, some ⟨name, value :: others⟩⟩
  | unclassified {text : Text}
      (each : ∀ character ∈ text, Text.isBlank character = true ∨ character = ',') :
      IsLegible roomy ⟨text, none, none⟩

variable {roomy : Prop} {options : LayoutOptions}

/-! ## Joined pieces -/

/-- Joined pieces are read as the pieces, with blanks in front of all but the first. -/
theorem exists_lexed_join {first : Text} {others : List Text}
    (each : ∀ piece ∈ first :: others, Text.IsPiece roomy piece) :
    ∃ known pieces isOpen,
      Lexed (Text.join options.selectorSeparator (first :: others)) (commaJoin known pieces)
          isOpen ∧
        IsContent (commaJoin known pieces) ∧
        (∀ piece ∈ known :: pieces, Glyph.text ',' ∉ piece) ∧ (isOpen = true → roomy) ∧
          known.map Glyph.character = first ∧
            pieces.map (fun piece => Text.trim (piece.map Glyph.character)) =
              others.map Text.trim := by
  induction others generalizing first with
  | nil =>
      obtain ⟨glyphs, isOpen, lexed, inner, noComma, room⟩ := each first List.mem_cons_self
      refine ⟨glyphs, [], isOpen, ?_, ?_, by simpa using noComma, room, lexed.map_character, rfl⟩
      · rwa [commaJoin, List.flatMap_nil, List.append_nil, Text.join]
      · rwa [commaJoin, List.flatMap_nil, List.append_nil]
  | cons second others induction =>
      obtain ⟨glyphs, wasOpen, lexed, inner, noComma, -⟩ := each first List.mem_cons_self
      obtain ⟨known, pieces, isOpen, behind, behindInner, noCommas, room, same, trimmed⟩ :=
        induction fun piece member => each piece (List.mem_cons_of_mem _ member)
      obtain ⟨blank, isBlank, separator⟩ := options.exists_selectorSeparator
      have whole := (Leads.separator lexed (by decide : ',' ∈ Leads.separators)).lexed_append
        ((Leads.blank isBlank).lexed_append behind)
      have joined : glyphs ++ .text ',' :: (blank.map .text ++ commaJoin known pieces) =
          commaJoin glyphs ((blank.map .text ++ known) :: pieces) := by
        simp [commaJoin]
      refine ⟨glyphs, (blank.map .text ++ known) :: pieces, isOpen, ?_, ?_, ?_, room,
        lexed.map_character, ?_⟩
      · rw [Text.join, separator, ← joined]
        · simpa only [List.append_assoc, List.cons_append, List.nil_append, separator] using whole
        · simp
      · rw [← joined]
        apply isContent_append inner
        intro character member
        rcases List.mem_cons.mp member with differs | member
        · cases differs
        · exact isContent_append (isContent_map_text blank) behindInner character member
      · intro piece member
        rcases List.mem_cons.mp member with rfl | member
        · exact noComma
        · rcases List.mem_cons.mp member with rfl | member
          · intro inside
            rcases List.mem_append.mp inside with inBlank | inKnown
            · exact comma_not_mem_of_blank isBlank inBlank
            · exact noCommas known List.mem_cons_self inKnown
          · exact noCommas piece (List.mem_cons_of_mem _ member)
      · rw [List.map_cons, List.map_cons, trimmed, List.map_append, map_character_text,
          Text.trim_blank_append isBlank, same]

theorem exists_lexed_selectors {first trimmedFirst : Text} {others : List Text}
    (piece : first.IsPiece roomy) (each : ∀ other ∈ others, other.IsSelector roomy)
    (trimmed : first.trim = trimmedFirst) (notEmpty : trimmedFirst ≠ []) :
    ∃ glyphs isOpen, Lexed (Text.join options.selectorSeparator (first :: others)) glyphs isOpen ∧
      IsContent glyphs ∧ (isOpen = true → roomy) ∧
        selectorsOfGlyphs glyphs = trimmedFirst :: others := by
  have pieces : ∀ other ∈ first :: others, Text.IsPiece roomy other := by
    intro other member
    rcases List.mem_cons.mp member with rfl | member
    · exact piece
    · exact (each other member).piece
  obtain ⟨known, glyphs, isOpen, lexed, inner, noComma, room, same, others_⟩ :=
    exists_lexed_join pieces
  refine ⟨commaJoin known glyphs, isOpen, lexed, inner, room, ?_⟩
  have stay : others.map Text.trim = others := by
    conv => rhs; rw [← List.map_id others]
    exact List.map_congr_left fun other member => (each other member).trimmed
  rw [selectorsOfGlyphs_commaJoin noComma, List.map_cons, same, trimmed, others_, stay]
  apply List.filter_eq_self.mpr
  intro other member
  rw [Bool.not_eq_true', List.isEmpty_eq_false_iff]
  rcases List.mem_cons.mp member with rfl | member
  · exact notEmpty
  · exact (each other member).notEmpty

/-! ## At-rules -/

theorem atRuleOf_written {name value : Text} (others : List Text)
    (noBlank : ∀ character ∈ name, Text.isBlank character = false)
    (trimmed : value.trim = value) {first : Text}
    (written : first = '@' :: name ∧ value = [] ∨ first = '@' :: name ++ ' ' :: value) :
    atRuleOf first others = ⟨name, value :: others⟩ := by
  have visible : ∀ character ∈ '@' :: name, (!Text.isBlank character) = true := by
    intro character member
    rcases List.mem_cons.mp member with rfl | member
    · decide
    · rw [noBlank character member]
      rfl
  have length : 1 + name.length = ('@' :: name).length := by
    rw [List.length_cons]
    omega
  have space : (!Text.isBlank ' ') = false := by rw [Text.isBlank_space]; rfl
  rcases written with ⟨rfl, rfl⟩ | rfl
  · have whole : ('@' :: name).takeWhile (!Text.isBlank ·) = '@' :: name := by
      have kept : ('@' :: name ++ []).takeWhile (!Text.isBlank ·) = '@' :: name ++ [] :=
        List.takeWhile_append_of_pos visible
      rwa [List.append_nil] at kept
    have nothing : Text.trim [] = [] := rfl
    rw [atRuleOf, whole]
    simp only [List.drop_succ_cons, List.drop_zero]
    rw [length, List.drop_length, nothing]
  · have whole : ('@' :: name ++ ' ' :: value).takeWhile (!Text.isBlank ·) = '@' :: name := by
      rw [List.takeWhile_append_of_pos visible, List.takeWhile_cons, space]
      simp
    have rest : Text.trim (' ' :: value) = value := by
      have dropped := Text.trim_blank_append (Text.blank_singleton.mpr Text.isBlank_space) value
      rwa [trimmed] at dropped
    rw [atRuleOf, whole]
    simp only [List.drop_succ_cons, List.drop_zero]
    rw [length, List.drop_left, rest]

theorem trim_at_name {name : Text} (noBlank : ∀ character ∈ name, Text.isBlank character = false)
    (value : Text) (trimmed : value.trim = value) :
    ∃ first, Text.trim ('@' :: name ++ ' ' :: value) = first ∧ first.head? = some '@' ∧
      (first = '@' :: name ∧ value = [] ∨ first = '@' :: name ++ ' ' :: value) := by
  have visible : Text.trim ('@' :: name) = '@' :: name := by
    refine Text.trim_eq_self_iff.mpr ⟨?_, ?_⟩
    · rintro first ⟨⟩
      rfl
    · intro last found
      rcases List.mem_cons.mp (List.mem_of_getLast? found) with rfl | member
      · rfl
      · exact noBlank last member
  cases value with
  | nil =>
      refine ⟨'@' :: name, ?_, rfl, Or.inl ⟨rfl, rfl⟩⟩
      rw [Text.trim_append_blank (Text.blank_singleton.mpr Text.isBlank_space), visible]
  | cons character value =>
      refine ⟨_, ?_, rfl, Or.inr rfl⟩
      apply Text.trim_append_eq_self visible (by simp)
      intro last found
      apply (Text.trim_eq_self_iff.mp trimmed).2
      rwa [List.getLast?_cons_cons] at found

theorem join_cons_append (separator front piece : Text) (others : List Text) :
    Text.join separator ((front ++ piece) :: others) =
      front ++ Text.join separator (piece :: others) := by
  cases others with
  | nil => rfl
  | cons other others => simp [Text.join]

/-- An at-rule is written as pieces: the first one holds the name and the first value. -/
theorem exists_renderHeading_eq (options : LayoutOptions) (text : Text) {name value : Text}
    (others : List Text)
    (alone : value = [] → Text.IsPiece roomy ('@' :: name))
    (withValue : Text.IsPiece roomy ('@' :: name ++ ' ' :: value)) :
    ∃ piece, Text.IsPiece roomy piece ∧
      options.renderHeading ⟨text, none, some ⟨name, value :: others⟩⟩ =
        Text.join options.selectorSeparator (piece :: others) ∧
      (piece = '@' :: name ∧ value = [] ∨ piece = '@' :: name ++ ' ' :: value) := by
  obtain ⟨blank, -, separator⟩ := options.exists_selectorSeparator
  rw [LayoutOptions.renderHeading]
  dsimp only
  cases joined : Text.join options.selectorSeparator (value :: others) with
  | nil =>
      cases others with
      | nil =>
          obtain rfl : value = [] := joined
          exact ⟨'@' :: name, alone rfl, by simp [Text.join], Or.inl ⟨rfl, rfl⟩⟩
      | cons other others =>
          rw [Text.join, separator] at joined
          · simp at joined
          · simp
  | cons character rest =>
      refine ⟨_, withValue, ?_, Or.inr rfl⟩
      have split : '@' :: name ++ ' ' :: value = ('@' :: name ++ [' ']) ++ value := by simp
      rw [split, join_cons_append, joined]
      simp

/-! ## Headings -/

theorem selectorsOfGlyphs_eq_nil {text : Text}
    (each : ∀ character ∈ text, Text.isBlank character = true ∨ character = ',') :
    selectorsOfGlyphs (text.map .text) = [] := by
  apply selectorsOfGlyphs_eq_nil_iff.mpr
  intro glyph member
  obtain ⟨character, inside, rfl⟩ := List.mem_map.mp member
  rcases each character inside with blank | rfl
  · exact Or.inl blank
  · exact Or.inr rfl

/-- What is written of a heading is the heading, but for the raw text. -/
theorem exists_lexed_renderHeading (options : LayoutOptions) {heading : Heading}
    (legible : heading.IsLegible roomy) :
    ∃ glyphs isOpen, Lexed (options.renderHeading heading) glyphs isOpen ∧ IsContent glyphs ∧
      (isOpen = true → roomy) ∧
        Token.withoutText (ofGlyphs glyphs) = Token.withoutText heading := by
  cases legible with
  | @selectors text first others each noAt =>
      have selector := each first List.mem_cons_self
      obtain ⟨glyphs, isOpen, lexed, inner, room, same⟩ := exists_lexed_selectors
        selector.piece (fun other member => each other (List.mem_cons_of_mem _ member))
        selector.trimmed selector.notEmpty
      refine ⟨glyphs, isOpen, lexed, inner, room, ?_⟩
      have noAtRule : (first.head? == some '@') = false := beq_eq_false_iff_ne.mpr noAt
      rw [ofGlyphs, same, ofSelectors, noAtRule]
      rfl
  | @atRule text name value others noBlank alone withValue trimmed each =>
      obtain ⟨first, trims, isAt, written⟩ := trim_at_name noBlank value trimmed
      have notEmpty : first ≠ [] := by
        rintro rfl
        cases isAt
      obtain ⟨piece, isPiece, rendered, form⟩ :=
        exists_renderHeading_eq options text others alone withValue
      have pieceTrims : piece.trim = first := by
        rcases form with ⟨rfl, rfl⟩ | rfl
        · rwa [Text.trim_append_blank (Text.blank_singleton.mpr Text.isBlank_space)] at trims
        · exact trims
      obtain ⟨glyphs, isOpen, lexed, inner, room, same⟩ :=
        exists_lexed_selectors isPiece each pieceTrims notEmpty
      refine ⟨glyphs, isOpen, by rwa [rendered], inner, room, ?_⟩
      rw [ofGlyphs, same, ofSelectors, isAt, atRuleOf_written others noBlank trimmed written]
      rfl
  | @unclassified text each =>
      have plain : Leads text (text.map .text) := by
        induction text with
        | nil => exact Leads.nil
        | cons character rest induction =>
            refine Leads.cons (fun more => ?_)
              (induction fun other member => each other (List.mem_cons_of_mem _ member))
            rcases each character List.mem_cons_self with blank | rfl
            · exact Marker.front?_eq_none_of_isBlank blank
            · exact Leads.front?_separator (by decide) _
      refine ⟨text.map .text, false, plain.lexed, isContent_map_text text, by simp, ?_⟩
      rw [ofGlyphs, selectorsOfGlyphs_eq_nil each]
      rfl

end Heading

end Stylesheet
