import Stylesheet.Proofs.Lexing.Leading
import Stylesheet.Proofs.Literal.Hidden

/-!
# Squeezing blanks

The blanks in a text may be replaced by a single one. In a string this changes the string
and nothing else; in a url it may not be done.
-/

namespace Stylesheet

namespace Text

theorem Blank.tame {white : Text} (isBlank : Blank white) : white.Tame := by
  intro character member
  have blank := isBlank character member
  refine ⟨?_, ?_, ?_⟩ <;>
  · rintro rfl
    cases blank

/-- Whether a url begins anywhere in a text, in any letter case. -/
def holdsUrl : Text → Bool
  | [] => false
  | character :: rest =>
      Marker.front? false (character :: rest) == some .url || holdsUrl rest

theorem holdsUrl_append_left (front : Text) {back : Text} (holds : back.holdsUrl = true) :
    holdsUrl (front ++ back) = true := by
  induction front with
  | nil => exact holds
  | cons character front induction => rw [List.cons_append, holdsUrl, induction, Bool.or_true]

theorem exists_of_endsOpen {text : Text} (isOpen : endsOpen text = true) :
    ∃ before, text = before ++ ['\\'] ∧ endsOpen before = false := by
  obtain ⟨before, rfl⟩ := List.getLast?_eq_some_iff.mp (getLast?_of_endsOpen isOpen)
  refine ⟨before, rfl, ?_⟩
  rw [endsOpen_append_singleton] at isOpen
  simpa using isOpen

end Text

/-! ## Strings -/

/-- A string that is not closed passes over blanks, even if the first of them is escaped. -/
theorem Quoted.reach?_append_blank {quote : Quote} {front white : Text}
    (unclosed : reach? quote.character front = none) (isBlank : Text.Blank white)
    (notEmpty : white ≠ []) (back : Text) :
    reach? quote.character (front ++ (white ++ back)) =
      (reach? quote.character back).map (front.length + white.length + ·) := by
  cases settled : Text.endsOpen front with
  | false =>
      rw [reach?_append unclosed settled, reach?_tame_append isBlank.tame, Option.map_map]
      simp only [Function.comp_def, Nat.add_assoc]
  | true =>
      obtain ⟨before, rfl, settledBefore⟩ := Text.exists_of_endsOpen settled
      have unclosedBefore : reach? quote.character before = none := by
        rw [← Option.not_isSome_iff_eq_none, Option.isSome_iff_exists]
        rintro ⟨count, reached⟩
        rw [reach?_append_of_eq_some reached] at unclosed
        cases unclosed
      cases white with
      | nil => exact absurd rfl notEmpty
      | cons character white =>
          have escaped : before ++ ['\\'] ++ (character :: white ++ back) =
              before ++ '\\' :: character :: (white ++ back) := by simp
          rw [escaped, reach?_append unclosedBefore settledBefore, reach?_escape,
            reach?_tame_append isBlank.tail.tame, Option.map_map, Option.map_map]
          congr 1
          funext count
          simp only [Function.comp_apply, List.length_append, List.length_cons, List.length_nil]
          omega

namespace Lexed

variable {front white back found rest : Text} {known glyphs : List Glyph} {isOpen : Bool}

/-- A string is a string as well where some of its blanks are replaced by one. -/
theorem literalReach?_squeeze_quote {quote : Quote} (isBlank : Text.Blank white)
    (notEmpty : white ≠ []) (isString : Quoted.reach? quote.character (front ++ (white ++ back)) =
      some (front ++ (white ++ back)).length) :
    literalReach? (quote.character :: (front ++ ' ' :: back)) =
      some (quote.character :: (front ++ ' ' :: back)).length := by
  have unclosed : Quoted.reach? quote.character front = none := by
    rw [← Option.not_isSome_iff_eq_none, Option.isSome_iff_exists]
    rintro ⟨count, reached⟩
    have inside := (Quoted.endsAt_of_reach? reached).le_length
    have positive := List.length_pos_iff.mpr notEmpty
    rw [Quoted.reach?_append_of_eq_some reached, Option.some_inj, List.length_append,
      List.length_append] at isString
    omega
  rw [Quoted.reach?_append_blank unclosed isBlank notEmpty, Option.map_eq_some_iff] at isString
  obtain ⟨count, behind, total⟩ := isString
  have spaceBlank : Text.Blank [' '] := Text.blank_singleton.mpr Text.isBlank_space
  have squeezed := Quoted.reach?_append_blank unclosed spaceBlank (List.cons_ne_nil _ _) back
  have begins : Marker.front? false (quote.character :: (front ++ ' ' :: back)) =
      some (.quote quote) := by
    have alone : Marker.front? false [quote.character] = some (.quote quote) := by
      cases quote <;> decide
    exact Marker.front?_append_of_eq_some (front ++ ' ' :: back) alone
  rw [List.singleton_append, behind] at squeezed
  simp only [literalReach?, begins, List.drop_succ_cons, List.drop_zero, squeezed,
    Option.map_some, List.length_cons, List.length_append, List.length_nil] at total ⊢
  congr 1
  omega

theorem literalReach?_squeeze (isBlank : Text.Blank white) (notEmpty : white ≠ [])
    (noUrl : ¬front.holdsUrl = true) (isLiteral : literalReach? (front ++ (white ++ back)) =
      some (front ++ (white ++ back)).length) :
    literalReach? (front ++ ' ' :: back) = some (front ++ ' ' :: back).length := by
  obtain ⟨character, characterBlank, begins⟩ : ∃ character, Text.isBlank character = true ∧
      (white ++ back).head? = some character := by
    cases white with
    | nil => exact absurd rfl notEmpty
    | cons character white => exact ⟨character, isBlank.head, rfl⟩
  cases front with
  | nil =>
      obtain ⟨⟨first, isEnd, head⟩, -⟩ := ends_of_literalReach? isLiteral
      obtain rfl := Option.some_inj.mp (begins.symm.trans head)
      rw [visible_of_mem_literalEnds isEnd] at characterBlank
      cases characterBlank
  | cons first front =>
      unfold literalReach? at isLiteral
      split at isLiteral
      next quote isQuote =>
        obtain ⟨rest, split⟩ := eq_cons_of_front?_quote isQuote
        obtain rfl : first = quote.character := (List.cons.inj split).1
        obtain ⟨inner, reached, total⟩ := Option.map_eq_some_iff.mp isLiteral
        obtain rfl : inner = (front ++ (white ++ back)).length := Nat.succ_inj.mp total
        exact literalReach?_squeeze_quote isBlank notEmpty reached
      next isUrl =>
        -- The url would begin in the text in front of the blanks.
        exfalso
        apply noUrl
        rw [Text.holdsUrl, Bool.or_eq_true, beq_iff_eq]
        left
        rw [← isUrl]
        symm
        cases alone : Marker.front? false (first :: front) with
        | some marker => exact Marker.front?_append_of_eq_some _ alone
        | none =>
            refine Marker.front?_append_eq_none alone fun head isHead => ?_
            obtain rfl := Option.some_inj.mp (begins.symm.trans isHead)
            exact Marker.inert_of_isBlank characterBlank
      next => cases isLiteral

/-! ## Texts -/

/-- Glyphs that are among others, or stand for a space. -/
def IsSqueezed (known glyphs : List Glyph) : Prop :=
  ∀ glyph ∈ known, glyph ∈ glyphs ∨ glyph = .text ' ' ∨ glyph = .literal ' '

theorem IsSqueezed.append (unit : List Glyph) (squeezed : IsSqueezed known glyphs) :
    IsSqueezed (unit ++ known) (unit ++ glyphs) := by
  intro glyph member
  rcases List.mem_append.mp member with member | member
  · exact Or.inl (List.mem_append_left _ member)
  · exact (squeezed glyph member).imp_left (List.mem_append_right _)

theorem squeeze_front (isBlank : Text.Blank white) (lexed : Lexed (white ++ back) glyphs isOpen) :
    ∃ known, Lexed (' ' :: back) known isOpen ∧ IsSqueezed known glyphs := by
  obtain ⟨known, rfl, behind⟩ := lexed.of_blank_append isBlank
  refine ⟨.text ' ' :: known, .plain (Leads.front?_separator (by decide) _) behind, ?_⟩
  intro glyph member
  rcases List.mem_cons.mp member with rfl | member
  · exact Or.inr (Or.inl rfl)
  · exact Or.inl (List.mem_append_right _ member)

/-- A backslash takes along the first of some blanks, or the one that is put in its place. -/
theorem squeeze_escaped {blank : Char} (isBlank : Text.Blank white)
    (lexed : Lexed (white ++ back) glyphs isOpen) :
    ∃ known, Lexed ('\\' :: ' ' :: back) known isOpen ∧
      IsSqueezed known (.text '\\' :: .text blank :: glyphs) := by
  obtain ⟨known, rfl, behind⟩ := lexed.of_blank_append isBlank
  refine ⟨_, .escape ' ' behind, ?_⟩
  intro glyph member
  rcases List.mem_cons.mp member with rfl | member
  · exact Or.inl List.mem_cons_self
  · rcases List.mem_cons.mp member with rfl | member
    · exact Or.inr (Or.inl rfl)
    · exact Or.inl (by simp [member])

theorem squeeze_literal (isBlank : Text.Blank white) (notEmpty : white ≠ [])
    (noUrl : ¬front.holdsUrl = true) (isLiteral : literalReach? (front ++ (white ++ back)) =
      some (front ++ (white ++ back)).length) (behind : Lexed rest glyphs isOpen) :
    ∃ known, Lexed (front ++ ' ' :: (back ++ rest)) known isOpen ∧
      IsSqueezed known ((front ++ (white ++ back)).map .literal ++ glyphs) := by
  have squeezed := Lexed.literal (literalReach?_squeeze isBlank notEmpty noUrl isLiteral) behind
  rw [List.append_assoc] at squeezed
  refine ⟨_, squeezed, ?_⟩
  intro glyph member
  simp only [List.map_append, List.map_cons, List.mem_append, List.mem_cons] at member ⊢
  rcases member with (inFront | rfl | inBack) | inRest
  · exact Or.inl (Or.inl (Or.inl inFront))
  · exact Or.inr (Or.inr rfl)
  · exact Or.inl (Or.inl (Or.inr (Or.inr inBack)))
  · exact Or.inl (Or.inr inRest)

/-- A literal does not end with a blank. -/
theorem eq_nil_of_literal_append_blank (isLiteral : literalReach? (found ++ white) =
    some (found ++ white).length) (isBlank : Text.Blank white) : white = [] := by
  rcases List.eq_nil_or_concat white with nothing | ⟨before, last, rfl⟩
  · exact nothing
  · obtain ⟨inner, final, isLast, split⟩ := exists_last_of_literal isLiteral
    rw [List.concat_eq_append, ← List.append_assoc] at split
    obtain rfl := (List.cons.inj (List.append_inj' split rfl).2).1
    have blank := isBlank last (by simp)
    rw [visible_of_mem_literalLasts isLast] at blank
    cases blank

/-- Blanks outside of urls may be replaced by one. -/
theorem squeeze (isBlank : Text.Blank white) (notEmpty : white ≠ [])
    (noUrl : ¬front.holdsUrl = true)
    (lexed : Lexed (front ++ (white ++ back)) glyphs isOpen) :
    ∃ known, Lexed (front ++ ' ' :: back) known isOpen ∧ IsSqueezed known glyphs := by
  generalize whole : front ++ (white ++ back) = text at lexed
  -- The unit that the blanks begin in is found; the units in front of it stay as they are.
  induction lexed generalizing front with
  | nil => simp [notEmpty] at whole
  | dangling =>
      cases front with
      | nil => exact squeeze_front isBlank (whole ▸ .dangling)
      | cons character front => simp [notEmpty] at whole
  | plain noMarker later induction =>
      cases front with
      | nil => exact squeeze_front isBlank (whole ▸ .plain noMarker later)
      | cons character front =>
          obtain ⟨rfl, tail⟩ := List.cons.inj whole
          obtain ⟨known, lexed, squeezed⟩ :=
            induction (fun holds => noUrl (Text.holdsUrl_append_left [character] holds)) tail
          have still : Marker.front? false (character :: front ++ ' ' :: back) = none := by
            rw [← whole] at noMarker
            exact Marker.front?_append_eq_none (Marker.front?_eq_none_of_append noMarker)
              (by rintro next ⟨⟩; exact Marker.inert_of_isBlank Text.isBlank_space)
          exact ⟨_, .plain still lexed, squeezed.append [.text character]⟩
  | escape head later induction =>
      cases front with
      | nil => exact squeeze_front isBlank (whole ▸ .escape head later)
      | cons character front =>
          obtain ⟨rfl, tail⟩ := List.cons.inj whole
          cases front with
          | nil =>
              cases white with
              | nil => exact absurd rfl notEmpty
              | cons blank white =>
                  obtain ⟨rfl, rfl⟩ := List.cons.inj tail
                  exact squeeze_escaped isBlank.tail later
          | cons next front =>
              obtain ⟨rfl, inner⟩ := List.cons.inj tail
              obtain ⟨known, lexed, squeezed⟩ :=
                induction (fun holds => noUrl (Text.holdsUrl_append_left ['\\', next] holds)) inner
              exact ⟨_, .escape next lexed, squeezed.append [.text '\\', .text next]⟩
  | boundary isBoundary later induction =>
      cases front with
      | nil => exact squeeze_front isBlank (whole ▸ .boundary isBoundary later)
      | cons character front =>
          obtain ⟨rfl, tail⟩ := List.cons.inj whole
          obtain ⟨known, lexed, squeezed⟩ :=
            induction (fun holds => noUrl (Text.holdsUrl_append_left [character] holds)) tail
          exact ⟨_, .boundary isBoundary lexed, squeezed.append [.boundary character]⟩
  | @literal found rest glyphs isOpen isLiteral later induction =>
      rcases List.append_eq_append_iff.mp whole with ⟨more, rfl, tail⟩ | ⟨more, rfl, tail⟩
      · rcases List.append_eq_append_iff.mp tail with ⟨behind, rfl, rfl⟩ | ⟨blanks, rfl, rfl⟩
        · exact squeeze_literal isBlank notEmpty noUrl isLiteral later
        · obtain rfl := eq_nil_of_literal_append_blank isLiteral fun character member =>
            isBlank character (List.mem_append_left _ member)
          rw [List.append_nil] at isLiteral ⊢
          obtain ⟨known, lexed, squeezed⟩ := squeeze_front isBlank later
          exact ⟨_, .literal isLiteral lexed, squeezed.append _⟩
      · obtain ⟨known, lexed, squeezed⟩ :=
          induction (fun holds => noUrl (Text.holdsUrl_append_left found holds)) tail.symm
        rw [List.append_assoc]
        exact ⟨_, .literal isLiteral lexed, squeezed.append _⟩

end Lexed

end Stylesheet
