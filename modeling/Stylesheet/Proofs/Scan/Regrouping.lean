import Stylesheet.Proofs.Lexing.Statement
import Stylesheet.Proofs.Scan.Likeness

/-!
# Words grouped in another way

In plain stylesheets it does not matter into how many words a text is cut. Where rules are
split, scans whose words differ in nothing else emit the same tokens, up to their offsets.
-/

namespace Stylesheet

/-! ## Words -/

/-- Words that are read alike in plain stylesheets, however they are grouped. -/
structure Word.ReadAlike (first second : List Word) : Prop where
  glyphs : allGlyphs first = allGlyphs second
  sides : ∀ sides, first.foldlM (Sides.add? false) sides = second.foldlM (Sides.add? false) sides
  error : first.any (·.error) = second.any (·.error)

namespace Word.ReadAlike

variable {first second firstBehind secondBehind : List Word}

theorem refl (words : List Word) : ReadAlike words words :=
  ⟨rfl, fun _ => rfl, rfl⟩

theorem symm (alike : ReadAlike first second) : ReadAlike second first :=
  ⟨alike.glyphs.symm, fun sides => (alike.sides sides).symm, alike.error.symm⟩

theorem trans {third : List Word} (before : ReadAlike first second)
    (behind : ReadAlike second third) : ReadAlike first third :=
  ⟨before.glyphs.trans behind.glyphs, fun sides => (before.sides sides).trans (behind.sides sides),
    before.error.trans behind.error⟩

theorem append (before : ReadAlike first second) (behind : ReadAlike firstBehind secondBehind) :
    ReadAlike (first ++ firstBehind) (second ++ secondBehind) where
  glyphs := by
    rw [allGlyphs, allGlyphs, List.flatMap_append, List.flatMap_append]
    exact congrArg₂ (· ++ ·) before.glyphs behind.glyphs
  sides sides := by
    rw [List.foldlM_append, List.foldlM_append, before.sides]
    exact congrArg _ (funext behind.sides)
  error := by rw [List.any_append, List.any_append, before.error, behind.error]

/-- Where a word begins does not matter. -/
theorem replace (kind : WordKind) (text : Text) (error : Bool) (firstOffset secondOffset : Int) :
    ReadAlike [⟨kind, text, firstOffset, error⟩] [⟨kind, text, secondOffset, error⟩] :=
  ⟨rfl, fun _ => rfl, rfl⟩

/-- A text word may be cut anywhere. -/
theorem cut (front back : Text) (offset frontOffset backOffset : Int) :
    ReadAlike [⟨.text, front ++ back, offset, false⟩]
      [⟨.text, front, frontOffset, false⟩, ⟨.text, back, backOffset, false⟩] where
  glyphs := by simp [allGlyphs, Word.glyphs, isText]
  sides sides := by
    have read (sides : Sides) (text : Text) (offset : Int) :
        sides.add? false ⟨.text, text, offset, false⟩ =
          (text.map Glyph.text).foldlM Sides.addGlyph? sides := (Sides.foldlM_text sides text).symm
    simp only [List.foldlM_cons, List.foldlM_nil, read, List.map_append, List.foldlM_append,
      bind_pure]
  error := rfl

/-- What stands behind a text may be a word of its own. -/
theorem extend (words : List Word) (text more : Text) (offset : Int) :
    ReadAlike (words ++ [⟨.text, text ++ more, offset, false⟩])
      (words ++ [⟨.text, text, offset, false⟩] ++ [⟨.text, more, 0, false⟩]) := by
  rw [List.append_assoc]
  exact (refl words).append (cut text more offset offset 0)

theorem joined_eq (alike : ReadAlike first second) : joined first = joined second := by
  rw [← map_character_allGlyphs, ← map_character_allGlyphs, alike.glyphs]

theorem heading_eq (alike : ReadAlike first second) :
    Heading.ofWords first = Heading.ofWords second := by
  rw [Heading.ofWords_eq_ofSelectors, Heading.ofWords_eq_ofSelectors, alike.glyphs, trimmed,
    trimmed, alike.joined_eq]

end Word.ReadAlike

namespace Scan

/-! ## Emission -/

theorem statementOf_nil (scan : Scan) : scan.statementOf [] = .malformed := by
  have noKey : (Text.trim []).head? = none := rfl
  simp [statementOf, Statement.ofWords, Statement.ofSides, Sides.empty, noKey]

/-- What is emitted does not depend on whether there is a word at all. -/
theorem emitWords_eq (scan : Scan) (state : State) (terminator : Text) :
    let text := Word.trimmed state.words
    let offset := (state.words.head?.map (·.offset)).getD 0
    let flagged := state.pendingError || state.words.any (·.error)
    scan.emitWords state terminator =
      match scan.statementOf state.words with
      | .declaration content =>
          { state, tokens := [.rule content offset state.pendingError] }
      | other =>
          if text.isEmpty then { state }
          else
            (Outcome.onlyIf (other == .malformed && !flagged) state
              fun state => scan.reportSettled state .invalidRule offset).andThen fun state =>
                { state, tokens := [.code (text ++ terminator) offset flagged] } := by
  obtain ⟨_, _, _, _, _, _, _, words⟩ := state
  cases words with
  | nil =>
      simp only [statementOf_nil]
      rfl
  | cons first others => rfl

/-- Words that are read alike are emitted as the same tokens. -/
theorem emitWords_of_readAlike {options : TokenizeOptions} (noLess : options.lessSyntax = false)
    (firstSource secondSource : Text) {first second : State}
    (alike : Word.ReadAlike first.words second.words)
    (pendingError : first.pendingError = second.pendingError) (terminator : Text) :
    let firstOutcome := emitWords ⟨options, firstSource⟩ first terminator
    let secondOutcome := emitWords ⟨options, secondSource⟩ second terminator
    firstOutcome.tokens.map Token.clearOffsets = secondOutcome.tokens.map Token.clearOffsets ∧
      firstOutcome.kinds = secondOutcome.kinds := by
  have statement : statementOf ⟨options, firstSource⟩ first.words =
      statementOf ⟨options, secondSource⟩ second.words := by
    simp only [statementOf, alike.error, Statement.ofWords, noLess, alike.sides]
  simp only [emitWords_eq, statement, Word.trimmed, alike.joined_eq, alike.error, pendingError]
  have emitted (needed error : Bool) (text : Text) (firstOffset secondOffset : Int) :
      let whole (source : Text) (state : State) (offset : Int) : Outcome :=
        if text.isEmpty then { state }
        else
          (Outcome.onlyIf needed state fun state =>
            reportSettled ⟨options, source⟩ state .invalidRule offset).andThen fun state =>
              { state, tokens := [.code (text ++ terminator) offset error] }
      (whole firstSource first firstOffset).tokens.map Token.clearOffsets =
          (whole secondSource second secondOffset).tokens.map Token.clearOffsets ∧
        (whole firstSource first firstOffset).kinds =
          (whole secondSource second secondOffset).kinds := by
    dsimp only
    split
    · exact ⟨rfl, rfl⟩
    · simp only [Outcome.andThen, Outcome.onlyIf, reportSettled, report]
      cases needed <;> cases options.ignoreErrors <;> exact ⟨rfl, rfl⟩
  cases statementOf ⟨options, secondSource⟩ second.words with
  | declaration content => exact ⟨rfl, rfl⟩
  | standalone => exact emitted ..
  | malformed => exact emitted ..
  | incomplete => exact emitted ..

/-- Scans of plain stylesheets that are split into rules are alike if their words are read
alike. -/
def Likeness.regrouped (pair : Pair) (noLess : pair.options.lessSyntax = false)
    (splits : pair.options.splitRules = true) : Likeness pair where
  held := Word.ReadAlike
  level first second := ∃ offset : Nat,
    first = (pair.firstBase + offset : Nat) ∧ second = (pair.secondBase + offset : Nat)
  same first second := first.clearOffsets = second.clearOffsets
  counted := False
  held_nil := .refl []
  held_word alike kind text _ error := alike.append (.replace kind text error _ _)
  held_more alike more :=
    (Word.ReadAlike.extend ..).trans ((alike.append (.replace .text more false 0 0)).trans
      (Word.ReadAlike.extend ..).symm)
  held_length lessSyntax := by
    rw [noLess] at lessSyntax
    cases lessSyntax
  held_merged lessSyntax := by
    rw [noLess] at lessSyntax
    cases lessSyntax
  emitted alike pendingError terminator := by
    obtain ⟨tokens, kinds⟩ :=
      emitWords_of_readAlike noLess pair.firstSource pair.secondSource alike pendingError terminator
    rw [← List.forall₂_eq_eq_eq, List.forall₂_map_left_iff, List.forall₂_map_right_iff] at tokens
    exact ⟨tokens, kinds⟩
  opening alike _ := congrArg (Token.opening · 0) alike.heading_eq
  closing _ := rfl
  level_of_le _ := ⟨_, rfl, rfl⟩
  level_lt := by
    rintro _ _ _ _ ⟨start, rfl, rfl⟩ ⟨stop, rfl, rfl⟩
    omega
  stretch whole := by
    rw [splits] at whole
    cases whole

end Scan
end Stylesheet
